import Keyforge.Proofs.Build.Stream

/-!
# Commands of cancelled attempts

A worker starts its command outside of the workshop, so an attempt can be cancelled before its
command is registered. The command is killed in every case, because registering and cancelling are
sections: the later of the two sees what the other has done (`System.Reined`).
-/

namespace Keyforge.Build

open Workshop

variable {id : Nat} {lines : List String}

/-! ### What an attempt never loses -/

/-- An attempt as it was and as it is later. -/
structure Attempt.Grows (a b : Attempt) : Prop where
  messages : a.messages <+: b.messages
  cancelled : a.isCancelled = true → b.isCancelled = true
  registered : a.hasProcess = true → b.hasProcess = true

namespace Attempt.Grows

variable {a b c : Attempt}

theorem refl (a : Attempt) : a.Grows a := ⟨List.prefix_rfl, fun h => h, fun h => h⟩

theorem trans (hab : a.Grows b) (hbc : b.Grows c) : a.Grows c where
  messages := hab.messages.trans hbc.messages
  cancelled h := hbc.cancelled (hab.cancelled h)
  registered h := hbc.registered (hab.registered h)

theorem put (a : Attempt) (m : Message) : a.Grows (a.put m) :=
  ⟨List.prefix_append _ _, fun h => h, fun h => h⟩

end Attempt.Grows

namespace Workshop

variable {w w' : Workshop}

theorem grows_update {f : Attempt → Attempt} (hf : ∀ a, (f a).id = a.id)
    (hgrows : ∀ a : Attempt, a.Grows (f a)) (id : Nat) {other : Nat} {a : Attempt}
    (ha : w.attempt? other = some a) :
    ∃ b, (w.update id f).attempt? other = some b ∧ a.Grows b := by
  rw [attempt?_update hf, ha]
  refine ⟨if other = id then f a else a, rfl, ?_⟩
  by_cases hother : other = id
  · rw [if_pos hother]
    exact hgrows a
  · rw [if_neg hother]
    exact .refl a

/-- Whatever is done in a section, an attempt that is there stays and grows. -/
theorem Section.grows (hs : w.Section w') {a : Attempt} (ha : w.attempt? id = some a) :
    ∃ b, w'.attempt? id = some b ∧ a.Grows b := by
  cases hs with
  | pass => exact ⟨a, ha, .refl a⟩
  | claim hclaim =>
    rw [attempt?_of_claim hclaim, ha]
    exact ⟨a, rfl, .refl a⟩
  | advance i status text =>
    unfold Workshop.advance
    split
    · exact grows_update (f := (·.put (.progress i status text))) (fun _ => rfl)
        (fun a => .put a _) i ha
    · exact ⟨a, ha, .refl a⟩
  | complete i completion =>
    cases hactive : w.isActive i with
    | false =>
      rw [complete_of_inactive hactive]
      exact ⟨a, ha, .refl a⟩
    | true =>
      rw [complete_of_active hactive]
      refine grows_update (f := Attempt.completed i completion) (fun _ => rfl) (fun a => ?_) i ha
      obtain ⟨hmessages, hcancelled, hregistered⟩ :=
        (Attempt.Grows.put a (.progress i completion.status completion.text)).trans
          (.put _ (.complete i completion))
      exact ⟨hmessages, hcancelled, hregistered⟩
  | register i =>
    exact grows_update (f := fun a => { a with hasProcess := true }) (fun _ => rfl)
      (fun a => ⟨List.prefix_rfl, fun h => h, fun _ => rfl⟩) i ha
  | withdraw i =>
    unfold Workshop.withdraw
    split
    · exact grows_update (f := fun a => { a with isCancelled := true, isFinished := true })
        (fun _ => rfl) (fun a => ⟨List.prefix_rfl, fun _ => rfl, fun h => h⟩) i ha
    · exact ⟨a, ha, .refl a⟩
  | note i line =>
    exact grows_update (f := fun a => { a with log := a.log ++ [line] }) (fun _ => rfl)
      (fun a => ⟨List.prefix_rfl, fun h => h, fun h => h⟩) i ha
  | post i level line =>
    exact grows_update (f := (·.put (.output i level line))) (fun _ => rfl) (fun a => .put a _) i ha

/-! ### Marks -/

/-- Whether an attempt was cancelled, and whether its command was registered. -/
def marks (w : Workshop) (id : Nat) : Bool × Bool := (w.isCancelled id, w.hasProcess id)

theorem marks_of_attempt? {a : Attempt} (ha : w.attempt? id = some a) :
    w.marks id = (a.isCancelled, a.hasProcess) := by
  unfold marks isCancelled hasProcess
  rw [ha]
  rfl

theorem marks_congr (h : w'.attempt? id = w.attempt? id) : w'.marks id = w.marks id := by
  unfold marks isCancelled hasProcess
  rw [h]

theorem marks_update {f : Attempt → Attempt} (hf : ∀ a, (f a).id = a.id)
    (hcancelled : ∀ a, (f a).isCancelled = a.isCancelled)
    (hregistered : ∀ a, (f a).hasProcess = a.hasProcess) (id other : Nat) :
    (w.update id f).marks other = w.marks other := by
  unfold marks isCancelled hasProcess
  rw [attempt?_update hf]
  cases w.attempt? other with
  | none => rfl
  | some a =>
    by_cases hother : other = id
    · simp [hother, hcancelled, hregistered]
    · simp [hother]

theorem marks_advance (id other : Nat) (status : Status) (text : String) :
    (w.advance id status text).2.marks other = w.marks other := by
  unfold Workshop.advance
  split
  · exact marks_update (f := (·.put (.progress id status text))) (fun _ => rfl) (fun _ => rfl)
      (fun _ => rfl) id other
  · rfl

theorem marks_complete (id other : Nat) (completion : Completion) :
    (w.complete id completion).marks other = w.marks other := by
  cases hactive : w.isActive id with
  | false => rw [complete_of_inactive hactive]
  | true =>
    rw [complete_of_active hactive]
    exact marks_update (f := Attempt.completed id completion) (fun _ => rfl) (fun _ => rfl)
      (fun _ => rfl) id other

theorem marks_of_claim {keyboard keymap : String} (h : w.claim keyboard keymap = some (id, w'))
    (other : Nat) : w'.marks other = w.marks other := by
  unfold marks isCancelled hasProcess
  rw [attempt?_of_claim h]
  cases w.attempt? other with
  | some a => rfl
  | none =>
    by_cases hother : id = other
    · rw [if_pos hother]
      rfl
    · rw [if_neg hother]
      rfl

theorem marks_register_ne {other : Nat} (hne : other ≠ id) :
    (w.register id).2.marks other = w.marks other :=
  marks_congr (attempt?_update_ne (f := fun a => { a with hasProcess := true }) (fun _ => rfl) hne)

theorem marks_withdraw_ne {other : Nat} (hne : other ≠ id) :
    (w.withdraw id).2.marks other = w.marks other := by
  unfold Workshop.withdraw
  split
  · exact marks_congr (attempt?_update_ne
      (f := fun a => { a with isCancelled := true, isFinished := true }) (fun _ => rfl) hne)
  · rfl

end Workshop

/-! ### Killing -/

namespace System

/-- The command of an attempt was killed, or a task does it by its next step. -/
def Handled (s : System) (id : Nat) : Prop :=
  id ∈ s.killed ∨ ∃ t ∈ s.tasks, t.target? = some id

/-- The commands of cancelled attempts that are registered are seen to. -/
def Reined (s : System) : Prop :=
  ∀ id, s.workshop.marks id = (true, true) → s.Handled id

section Steps

variable (toolchain : Toolchain) (s : System)

/-- The marks of an attempt change only when its command is registered or it is cancelled. -/
theorem marks_act {t : Task} (hregister : ∀ lines code, t ≠ .register id lines code)
    (hwithdraw : t ≠ .withdraw id) :
    (s.act toolchain t).1.workshop.marks id = s.workshop.marks id := by
  cases t with
  | claim artifacts =>
    show (s.claim artifacts).1.workshop.marks id = s.workshop.marks id
    unfold claim
    split
    next hclaim => exact marks_of_claim hclaim id
    next => rfl
  | validate i | generate i | compile i =>
    rw [act, advance_eq]
    exact marks_advance i id _ _
  | abort i cause => exact marks_complete i id _
  | conclude i completion => exact marks_complete i id completion
  | write i artifacts home =>
    obtain ⟨tree, htree⟩ := exists_writeSources s i artifacts home
    rw [act, htree]
  | spawn i command =>
    obtain ⟨tree, outcomes, hspawn⟩ := exists_spawn toolchain s i command
    rw [act, hspawn]
  | await i code =>
    obtain ⟨tree, hsettle⟩ := exists_settle s i
    simp only [act, hsettle]
  | register i lines code =>
    have hne : id ≠ i := fun h => hregister lines code (by rw [h])
    rw [act, register_eq]
    exact marks_register_ne hne
  | withdraw i =>
    have hne : id ≠ i := fun h => hwithdraw (by rw [h])
    rw [act, withdraw_eq]
    exact marks_withdraw_ne hne
  | note i line lines code =>
    exact marks_update (f := fun a => { a with log := a.log ++ [line] }) (fun _ => rfl)
      (fun _ => rfl) (fun _ => rfl) i id
  | post i line lines code =>
    exact marks_update (f := (·.put (.output i (s.options.classify line) line)))
      (fun _ => rfl) (fun _ => rfl) (fun _ => rfl) i id
  | check | prepare | dispatch | kill | read | search | close | killWithdrawn | announce | rejected
  | started | raised | answered | ended => rfl

end Steps

section Reining

variable {toolchain : Toolchain} {s : System} {n : Nat} {t : Task}

/-- Who acts kills or leaves the others to it. -/
theorem Handled.step (h : s.Handled id) (hn : s.tasks[n]? = some t) :
    (s.step toolchain n).Handled id := by
  obtain ⟨rest, htasks, htasks'⟩ := step_perm toolchain hn
  have hkilled : (s.step toolchain n).killed = t.target?.toList ++ s.killed := by
    rw [step_eq toolchain s hn]
    exact (act_spec toolchain s t).2.2
  unfold Handled
  rw [hkilled]
  rcases h with hkilled | ⟨u, hu, htarget⟩
  · exact .inl (List.mem_append_right _ hkilled)
  · rcases List.mem_cons.mp (htasks.mem_iff.mp hu) with rfl | hrest
    · left
      rw [htarget]
      exact List.mem_append_left _ List.mem_cons_self
    · exact .inr ⟨u, htasks'.mem_iff.mpr (List.mem_append_right _ hrest), htarget⟩

theorem target_of_register {code : Int}
    (hmarks : (s.act toolchain (.register id lines code)).1.workshop.marks id = (true, true)) :
    (s.act toolchain (.register id lines code)).2.target? = some id := by
  rw [act, register_eq] at hmarks ⊢
  have hcancelled : s.workshop.isCancelled id = true := by
    have hsame : (s.workshop.register id).2.isCancelled id = s.workshop.isCancelled id := by
      unfold isCancelled Workshop.register
      rw [attempt?_update (f := fun a => { a with hasProcess := true }) fun _ => rfl]
      cases s.workshop.attempt? id with
      | none => rfl
      | some a => simp
    rw [← hsame]
    exact congrArg Prod.fst hmarks
  rw [if_pos hcancelled]
  rfl

/-- The call that cancels an attempt with a registered command is to kill that, unless the attempt
was not in the works, and then it leaves it alone. -/
theorem target_of_withdraw
    (hmarks : (s.act toolchain (.withdraw id)).1.workshop.marks id = (true, true)) :
    s.workshop.marks id = (true, true) ∨
      (s.act toolchain (.withdraw id)).2.target? = some id := by
  rw [act, withdraw_eq] at hmarks ⊢
  cases hactive : s.workshop.isActive id with
  | false =>
    left
    change (s.workshop.withdraw id).2.marks id = (true, true) at hmarks
    unfold Workshop.withdraw at hmarks
    rw [hactive] at hmarks
    exact hmarks
  | true =>
    right
    have hregistered : s.workshop.hasProcess id = true := by
      have hsame : (s.workshop.withdraw id).2.hasProcess id = s.workshop.hasProcess id := by
        unfold Workshop.withdraw
        rw [if_pos hactive]
        unfold hasProcess
        show ((s.workshop.update id _).attempt? id).any _ = _
        rw [attempt?_update
          (f := fun a => { a with isCancelled := true, isFinished := true }) fun _ => rfl]
        cases s.workshop.attempt? id with
        | none => rfl
        | some a => simp
      rw [← hsame]
      exact congrArg Prod.snd hmarks
    rw [if_pos rfl, if_pos hregistered]
    rfl

theorem Reined.step (h : s.Reined) (hn : s.tasks[n]? = some t) : (s.step toolchain n).Reined := by
  intro id hmarks
  have hnext : (s.act toolchain t).2.target? = some id → (s.step toolchain n).Handled id :=
    fun htarget => .inr ⟨_, List.mem_of_getElem? (task_step toolchain s hn), htarget⟩
  rw [step_eq toolchain s hn] at hmarks
  by_cases hregister : ∃ lines code, t = .register id lines code
  · obtain ⟨lines, code, rfl⟩ := hregister
    exact hnext (target_of_register hmarks)
  · by_cases hwithdraw : t = .withdraw id
    · subst hwithdraw
      rcases target_of_withdraw hmarks with hbefore | htarget
      · exact (h id hbefore).step hn
      · exact hnext htarget
    · simp only [not_exists] at hregister
      rw [marks_act toolchain s hregister hwithdraw] at hmarks
      exact (h id hmarks).step hn

theorem Reined.happen (h : s.Reined) (event : Event) : (s.happen event).Reined := by
  cases event with
  | change options tree => exact h
  | call call =>
    intro id hmarks
    refine (h id hmarks).imp_right ?_
    rintro ⟨t, ht, htarget⟩
    exact ⟨t, List.mem_append_left _ ht, htarget⟩
  | step toolchain n =>
    show (s.step toolchain n).Reined
    cases hn : s.tasks[n]? with
    | none =>
      rw [step_eq_self toolchain s hn]
      exact h
    | some t => exact h.step hn

end Reining

/-! ### Looking back over a run -/

/-- In the course of the events, the task at a place took a step as `t`. -/
def Took (s : System) (events : List Event) (n : Nat) (t : Task) : Prop :=
  ∃ before toolchain after, events = before ++ .step toolchain n :: after ∧
    (s.play before).tasks[n]? = some t

theorem play_append (s : System) (before after : List Event) :
    s.play (before ++ after) = (s.play before).play after :=
  List.foldl_append

theorem grows_play {s : System} {a : Attempt} (ha : s.workshop.attempt? id = some a)
    (events : List Event) : ∃ b, (s.play events).workshop.attempt? id = some b ∧ a.Grows b := by
  refine invariant_play (P := fun s => ∃ b, s.workshop.attempt? id = some b ∧ a.Grows b) ?_
    ⟨a, ha, .refl a⟩ events
  rintro s event ⟨b, hb, hab⟩
  obtain ⟨c, hc, hbc⟩ := (happen_section s event).grows hb
  exact ⟨c, hc, hab.trans hbc⟩

section Past

variable {starts : List (Nat × Execution)} {s : System} {a : Attempt}

/-- The attempt that a task has in hand is there, and it stands as the task says. -/
theorem Coherent.exists_fits (h : s.Coherent starts) (id : Nat) {t : Task} (ht : t ∈ s.tasks)
    (howner : t.owner? = some id) :
    ∃ a, s.workshop.attempt? id = some a ∧ t.Fits (outputOf starts id) a := by
  have hholder : t ∈ Task.holders id s.tasks := by
    rw [Task.holders, List.mem_filter, beq_iff_eq]
    exact ⟨ht, howner⟩
  cases ha : s.workshop.attempt? id with
  | none =>
    rw [(h.unknown id ha).1] at hholder
    cases hholder
  | some a =>
    have hheld := h.held id a ha
    cases hholders : Task.holders id s.tasks with
    | nil =>
      rw [hholders] at hholder
      cases hholder
    | cons u rest =>
      rw [hholders] at hheld hholder
      obtain ⟨rfl, hfits⟩ := hheld.of_cons
      rw [List.mem_singleton.mp hholder]
      exact ⟨a, rfl, hfits⟩

theorem compiling_mem_of_tells {completion? : Option Completion}
    (h : a.Tells opening lines completion?) :
    ∃ text, .progress a.id .compiling text ∈ a.messages := by
  obtain ⟨t, hmessages, hsteps, -, -⟩ := h
  have hmem : Status.compiling ∈ t.steps.map Prod.fst := by
    rw [hsteps]
    decide
  obtain ⟨⟨status, text⟩, hstep, rfl⟩ := List.mem_map.mp hmem
  refine ⟨text, ?_⟩
  rw [hmessages]
  exact List.mem_append_left _ (List.mem_append_left _ (List.mem_map.mpr ⟨_, hstep, rfl⟩))

theorem registered_of_took {origin : System} (horigin : origin.Coherent starts)
    {events : List Event} {n : Nat} {code : Int}
    (htook : origin.Took events n (.register id lines code)) :
    ∃ b, (origin.play events).workshop.attempt? id = some b ∧ b.hasProcess = true := by
  obtain ⟨before, toolchain, after, rfl, hn⟩ := htook
  obtain ⟨a, ha, -⟩ := (horigin.play before).exists_fits id (List.mem_of_getElem? hn) rfl
  have hstep : ((origin.play before).step toolchain n).workshop.attempt? id =
      some { a with hasProcess := true } := by
    rw [step_eq toolchain _ hn, act, register_eq]
    exact attempt?_register ha
  obtain ⟨b, hb, hgrows⟩ := grows_play hstep after
  rw [play_append]
  exact ⟨b, hb, hgrows.registered rfl⟩

theorem cancelled_of_took {origin : System} (horigin : origin.Coherent starts) {events : List Event}
    {n : Nat} (htook : origin.Took events n (.withdraw id)) {t : Task}
    (ht : (origin.play events).tasks[n]? = some t) (hcancelled : t.hasCancelled = true) :
    ∃ b, (origin.play events).workshop.attempt? id = some b ∧ b.isCancelled = true := by
  obtain ⟨before, toolchain, after, rfl, hn⟩ := htook
  have hplay : origin.play (before ++ .step toolchain n :: after) =
      ((origin.play before).step toolchain n).play after := play_append origin _ _
  rw [hplay] at ht ⊢
  have horderly := (horigin.play before).orderly
  cases hactive : (origin.play before).workshop.isActive id with
  | false =>
    -- it has answered that it came too late, and keeps to that
    obtain ⟨u, hu, hanswer⟩ := step_withdraw toolchain hn
    rw [hactive, if_neg nofun] at hanswer
    subst hanswer
    rw [task_play_of_isOver hu rfl after] at ht
    cases ht
    cases hcancelled
  | true =>
    obtain ⟨a, ha⟩ := horderly.known id (beq_iff_eq.mp hactive)
    let f := fun a : Attempt => { a with isCancelled := true, isFinished := true }
    have hstep : ((origin.play before).step toolchain n).workshop.attempt? id = some (f a) := by
      rw [step_eq toolchain _ hn, act, withdraw_eq]
      unfold Workshop.withdraw
      rw [hactive]
      exact attempt?_update_self (f := f) (fun _ => rfl) ha
    obtain ⟨b, hb, hgrows⟩ := grows_play hstep after
    exact ⟨b, hb, hgrows.cancelled rfl⟩

/-- An attempt that was cancelled before it compiled is never about to start its command. -/
theorem not_took_spawn {origin : System} (horigin : origin.Coherent starts)
    {before after : List Event} (ha : (origin.play before).workshop.attempt? id = some a)
    (hcancelled : a.isCancelled = true)
    (hcompiling : ∀ text, .progress id .compiling text ∉ a.messages)
    (n : Nat) (command : List String) : ¬ origin.Took (before ++ after) n (.spawn id command) := by
  rintro ⟨earlier, toolchain, later, hevents, hn⟩
  -- when the command is to be started, the attempt has told that it compiles
  have hcoherent := horigin.play earlier
  obtain ⟨b, hb, hfits⟩ := hcoherent.exists_fits id (List.mem_of_getElem? hn) rfl
  obtain ⟨text, htext⟩ := compiling_mem_of_tells (Attempt.Early.tells hfits)
  rw [id_of_attempt? hb] at htext
  rcases List.append_eq_append_iff.mp hevents with ⟨between, rfl, -⟩ | ⟨between, rfl, -⟩
  · -- that is after the cancellation, and since then at most a line was told
    rw [play_append] at hb
    have hquiet : (origin.play before).Quiet a.messages id := ⟨a, ha, hcancelled, .inl rfl⟩
    obtain ⟨c, hc, -, htold⟩ := hquiet.play (horigin.play before) between
    rw [hb] at hc
    cases hc
    rcases htold with hsame | ⟨⟨level, line, hline⟩, -⟩
    · rw [hsame] at htext
      exact hcompiling text htext
    · rw [hline, List.mem_append, List.mem_singleton] at htext
      rcases htext with htext | htext
      · exact hcompiling text htext
      · cases htext
  · -- that is before the cancellation, and messages stay
    rw [play_append] at ha
    obtain ⟨c, hc, hgrows⟩ := grows_play hb between
    rw [ha] at hc
    cases hc
    exact hcompiling text (hgrows.messages.subset htext)

end Past

/-! ### Started commands -/

/-- A command that was started is registered, or its worker does so by its next step. -/
def Recorded (starts : List (Nat × Execution)) (s : System) : Prop :=
  ∀ id e, starts.lookup id = some e →
    s.workshop.hasProcess id = true ∨ ∃ lines code, .register id lines code ∈ s.tasks

section Recording

variable {starts : List (Nat × Execution)} {s : System}

theorem Recorded.init (options : Options) (tree : File.Tree) :
    System.Recorded [] { options, tree } := nofun

theorem hasProcess_iff : s.workshop.hasProcess id = true ↔
    ∃ a, s.workshop.attempt? id = some a ∧ a.hasProcess = true := by
  unfold hasProcess
  rw [Option.any_eq_true]

theorem hasProcess_happen (h : s.workshop.hasProcess id = true) (event : Event) :
    (s.happen event).workshop.hasProcess id = true := by
  obtain ⟨a, ha, hregistered⟩ := hasProcess_iff.mp h
  obtain ⟨b, hb, hgrows⟩ := (happen_section s event).grows ha
  exact hasProcess_iff.mpr ⟨b, hb, hgrows.registered hregistered⟩

theorem register_of_begun {toolchain : Toolchain} {t : Task} {e : Execution}
    (h : (s.begun toolchain t).lookup id = some e) :
    ∃ lines code, (s.act toolchain t).2 = .register id lines code := by
  cases t with
  | spawn i command =>
    change ((toolchain s.tree (s.options.home?.getD {}) command).toOption.toList.map
      fun e => (i, e)).lookup id = some e at h
    show ∃ lines code, (s.spawn toolchain i command).2 = .register id lines code
    unfold spawn
    cases hstart : toolchain s.tree (s.options.home?.getD {}) command with
    | error error =>
      rw [hstart] at h
      cases h
    | ok started =>
      rw [hstart] at h
      have hid : id = i := by
        by_contra hne
        change List.lookup id [(i, started)] = some e at h
        rw [List.lookup_cons, beq_false_of_ne hne] at h
        cases h
      subst hid
      exact ⟨_, _, rfl⟩
  | _ => cases h

theorem Recorded.happen (h : s.Recorded starts) (hcoherent : s.Coherent starts) (event : Event) :
    (s.happen event).Recorded (starts ++ s.begins event) := by
  intro id e he
  rw [List.lookup_append] at he
  cases hold : starts.lookup id with
  | none =>
    -- it is started by this very step
    rw [hold, Option.none_or] at he
    cases event with
    | call call => cases he
    | change options tree => cases he
    | step toolchain n =>
      cases hn : s.tasks[n]? with
      | none =>
        rw [begins_step_of_none hn] at he
        cases he
      | some t =>
        rw [begins_step hn] at he
        obtain ⟨lines, code, hnext⟩ := register_of_begun he
        exact .inr ⟨lines, code, hnext ▸ List.mem_of_getElem? (task_step toolchain s hn)⟩
  | some e' =>
    rcases h id e' hold with hregistered | ⟨lines, code, htask⟩
    · exact .inl (hasProcess_happen hregistered event)
    · cases event with
      | change options tree => exact .inr ⟨lines, code, htask⟩
      | call call => exact .inr ⟨lines, code, List.mem_append_left _ htask⟩
      | step toolchain n =>
        show (s.step toolchain n).workshop.hasProcess id = true ∨
          ∃ lines code, .register id lines code ∈ (s.step toolchain n).tasks
        cases hn : s.tasks[n]? with
        | none =>
          rw [step_eq_self toolchain s hn]
          exact .inr ⟨lines, code, htask⟩
        | some t =>
          obtain ⟨rest, htasks, htasks'⟩ := step_perm toolchain hn
          rcases List.mem_cons.mp (htasks.mem_iff.mp htask) with rfl | hrest
          · left
            obtain ⟨a, ha, -⟩ := hcoherent.exists_fits id htask rfl
            rw [step_eq toolchain s hn, act, register_eq, hasProcess_iff]
            exact ⟨_, attempt?_register ha, rfl⟩
          · exact .inr ⟨lines, code, htasks'.mem_iff.mpr (List.mem_append_right _ hrest)⟩

theorem Recorded.play (h : s.Recorded starts) (hcoherent : s.Coherent starts)
    (events : List Event) : (s.play events).Recorded (starts ++ s.executions events) :=
  (invariant_executions (P := fun starts s => s.Recorded starts ∧ s.Coherent starts)
    (fun _ _ event h => ⟨h.1.happen h.2 event, h.2.happen event⟩) ⟨h, hcoherent⟩ events).1

end Recording

/-! ### Nothing is left running -/

/-- What becomes of the commands of cancelled attempts in the course of events. -/
structure CommandsReaped (origin : System) (events : List Event) : Prop where
  /-- Once a call has cancelled an attempt, whether it has answered yet or not, and the worker has
  registered the command, one of them has killed it or does so by its next step. -/
  killed : ∀ n id t, origin.Took events n (.withdraw id) → (origin.play events).tasks[n]? = some t →
    t.hasCancelled = true → ∀ m lines code, origin.Took events m (.register id lines code) →
    (origin.play events).Handled id
  /-- An attempt that is cancelled before it compiles never starts its command. -/
  unstarted : ∀ before after id a, events = before ++ after →
    (origin.play before).workshop.attempt? id = some a → a.isCancelled = true →
    (∀ text, .progress id .compiling text ∉ a.messages) →
    ∀ n command, ¬ origin.Took events n (.spawn id command)
  /-- When nobody has anything left to do, all commands of cancelled attempts have been killed. -/
  settled : (∀ t ∈ (origin.play events).tasks, t.isOver = true) → ∀ id e,
    (origin.executions events).lookup id = some e →
    (origin.play events).workshop.isCancelled id = true → id ∈ (origin.play events).killed

theorem not_isOver_of_target {t : Task} (h : t.target? = some id) : t.isOver = false := by
  cases t with
  | kill | killWithdrawn => rfl
  | _ => cases h

/-- However calls and steps come between each other, no command of a cancelled attempt is left. -/
theorem commandsReaped_play (options : Options) (tree : File.Tree) (events : List Event) :
    CommandsReaped { options, tree } events := by
  have horigin := Coherent.init options tree
  have hreined : (play { options, tree } events).Reined :=
    invariant_play (P := Reined) (fun s event h => h.happen event)
      (fun id hmarks => by cases hmarks) events
  refine ⟨fun n id t hwithdraw ht hcancelled m lines code hregister => ?_, ?_, ?_⟩
  · obtain ⟨a, ha, hregistered⟩ := registered_of_took horigin hregister
    obtain ⟨b, hb, hcancelled⟩ := cancelled_of_took horigin hwithdraw ht hcancelled
    rw [ha] at hb
    cases hb
    refine hreined id ?_
    rw [Workshop.marks_of_attempt? ha, hcancelled, hregistered]
  · rintro before after id a rfl ha hcancelled hcompiling
    exact not_took_spawn horigin ha hcancelled hcompiling
  · intro hover id e he hcancelled
    have hrecorded := (Recorded.init options tree).play horigin events
    rw [List.nil_append] at hrecorded
    rcases hrecorded id e he with hregistered | ⟨lines, code, htask⟩
    · rcases hreined id (Prod.ext hcancelled hregistered) with hkilled | ⟨t, ht, htarget⟩
      · exact hkilled
      · have := hover t ht
        rw [not_isOver_of_target htarget] at this
        cases this
    · cases hover _ htask

def silentCommand : Toolchain := fun tree _ _ => .ok { tree, output := [], code := 0 }

/-- A call starts an attempt, and another one cancels it when its worker has started the command but
not registered it. -/
def lateCancellation : List Event :=
  [.call (.start { keyboard? := some "board", keymap := "km", files := [("keymap.c", "")] })] ++
    List.replicate 8 (.step silentCommand 0) ++
    [.step silentCommand 1, .call (.cancel 1), .step silentCommand 2, .step silentCommand 1,
      .step silentCommand 2]

/-- The call that cancels finds no command, and leaves it to the worker to kill it. -/
theorem commandsReaped_play_lateCancellation :
    let origin : System :=
      { options := { home? := some ⟨"", ["qmk"]⟩ }, tree := ⟨[(["qmk"], .directory)]⟩ }
    origin.Took lateCancellation 2 (.withdraw 1) ∧
      (origin.play lateCancellation).tasks = [.started 1, .kill 1 [] 0, .answered true] ∧
      origin.Took lateCancellation 1 (.register 1 [] 0) ∧
      (origin.play lateCancellation).Handled 1 := by
  intro origin
  have hwithdraw : origin.Took lateCancellation 2 (.withdraw 1) :=
    ⟨lateCancellation.take 11, silentCommand, lateCancellation.drop 12, rfl, by decide +kernel⟩
  have hregister : origin.Took lateCancellation 1 (.register 1 [] 0) :=
    ⟨lateCancellation.take 12, silentCommand, lateCancellation.drop 13, rfl, by decide +kernel⟩
  have htasks : (origin.play lateCancellation).tasks =
      [.started 1, .kill 1 [] 0, .answered true] := by decide +kernel
  refine ⟨hwithdraw, htasks, hregister, ?_⟩
  exact (commandsReaped_play origin.options origin.tree lateCancellation).killed 2 1 (.answered true)
    hwithdraw (by rw [htasks]; rfl) rfl 1 [] 0 hregister

end System

end Keyforge.Build
