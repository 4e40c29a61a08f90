import Keyforge.Build.Session
import Keyforge.Proofs.Build.Workshop

/-!
# Interleavings

Callers come in at any time, and then they and the workers take their steps in any order
(`System.play`). A step of a task is one section of the workshop at most (`act_spec`), and sections
keep the workshop orderly (`orderly_play`). `OneAtATime` is what callers can rely on, and an orderly
workshop has it (`oneAtATime_of_orderly`).
-/

namespace Keyforge.Build

/-! ### Events -/

inductive Call where
  | start (artifacts : Firmware.Artifacts)
  | cancel (id : Nat)
  | close

/-- The first thing that is done for a call. -/
def Call.task : Call → Task
  | .start artifacts => .claim artifacts
  | .cancel id => .withdraw id
  | .close => .close

inductive Event where
  | call (call : Call)
  /-- A task takes a step. If it starts a command, `toolchain` says what comes of that. -/
  | step (toolchain : Toolchain) (n : Nat)
  /-- The options are set or the files are changed by others. -/
  | change (options : Options) (tree : File.Tree)

namespace System

def happen (s : System) : Event → System
  | .call call => { s with tasks := s.tasks ++ [call.task] }
  | .step toolchain n => s.step toolchain n
  | .change options tree => { s with options, tree }

def play (s : System) (events : List Event) : System := events.foldl happen s

/-- Runs with one toolchain, in which only calls come in, are such interleavings. -/
theorem exists_play_eq_run (toolchain : Toolchain) (s : System) (moves : List Move)
    (hcalls : ∀ task, .call task ∈ moves → ∃ call : Call, task = call.task) :
    ∃ events, s.play events = s.run toolchain moves := by
  induction moves generalizing s with
  | nil => exact ⟨[], rfl⟩
  | cons move moves ih =>
    have hrest : ∀ task, .call task ∈ moves → ∃ call : Call, task = call.task :=
      fun task hmem => hcalls task (List.mem_cons_of_mem move hmem)
    obtain ⟨events, hevents⟩ := ih (s.move toolchain move) hrest
    have hrun : s.run toolchain (move :: moves) = (s.move toolchain move).run toolchain moves := rfl
    rw [hrun, ← hevents]
    cases move with
    | step n => exact ⟨.step toolchain n :: events, rfl⟩
    | call task =>
      obtain ⟨call, rfl⟩ := hcalls task List.mem_cons_self
      exact ⟨.call call :: events, rfl⟩

theorem invariant_play {P : System → Prop} (hstep : ∀ s event, P s → P (s.happen event)) {s : System}
    (hs : P s) (events : List Event) : P (s.play events) := by
  induction events generalizing s with
  | nil => exact hs
  | cons event events ih => exact ih (hstep s event hs)

end System

/-! ### What one step does -/

/-- The worker that is sent off by a step of a task. -/
def Task.sent : Task → List Task
  | .dispatch id command => [.spawn id command]
  | _ => []

/-- The attempt whose command a task kills by its next step. -/
def Task.target? : Task → Option Nat
  | .kill id _ _ | .killWithdrawn id => some id
  | _ => none

/-- Whether a task is what is left of a call once it has cancelled an attempt. -/
def Task.hasCancelled : Task → Bool
  | .killWithdrawn _ | .announce _ | .answered true => true
  | _ => false

/-- Whether a task is a start that was refused or may still be. -/
def Task.isRefusable : Task → Bool
  | .claim _ | .rejected => true
  | _ => false

namespace System

section Steps

variable (toolchain : Toolchain) (s : System)

theorem exists_writeSources (id : Nat) (artifacts : Firmware.Artifacts) (home : File.Path) :
    ∃ tree, (s.writeSources id artifacts home).1 = { s with tree } := by
  unfold writeSources
  dsimp only
  split
  · exact ⟨s.tree, rfl⟩
  · split
    · exact ⟨_, rfl⟩
    · split <;> exact ⟨_, rfl⟩
    · exact ⟨_, rfl⟩

theorem exists_spawn (id : Nat) (command : List String) :
    ∃ tree outcomes, (s.spawn toolchain id command).1 = { s with tree, outcomes } := by
  unfold spawn
  split
  · dsimp only
    split <;> exact ⟨_, _, rfl⟩
  · exact ⟨s.tree, s.outcomes, rfl⟩

theorem exists_settle (id : Nat) : ∃ tree, s.settle id = { s with tree } := by
  unfold settle
  split
  · split <;> exact ⟨_, rfl⟩
  · exact ⟨s.tree, rfl⟩

/-- A step is one section of the workshop, touches no other task and kills the command of its target
only. -/
theorem act_spec (t : Task) : s.workshop.Section (s.act toolchain t).1.workshop ∧
    (s.act toolchain t).1.tasks = s.tasks ++ t.sent ∧
    (s.act toolchain t).1.killed = t.target?.toList ++ s.killed := by
  have htasks : s.tasks = s.tasks ++ [] := (List.append_nil _).symm
  cases t with
  | claim artifacts =>
    show s.workshop.Section (s.claim artifacts).1.workshop ∧ (s.claim artifacts).1.tasks = _ ∧
      (s.claim artifacts).1.killed = _
    unfold claim
    split
    next hclaim => exact ⟨.claim hclaim, htasks, rfl⟩
    next => exact ⟨.pass, htasks, rfl⟩
  | validate id | generate id | compile id =>
    rw [act, advance_eq]
    exact ⟨.advance id _ _, htasks, rfl⟩
  | write id artifacts home =>
    obtain ⟨tree, htree⟩ := exists_writeSources s id artifacts home
    rw [act, htree]
    exact ⟨.pass, htasks, rfl⟩
  | spawn id command =>
    obtain ⟨tree, outcomes, hspawn⟩ := exists_spawn toolchain s id command
    rw [act, hspawn]
    exact ⟨.pass, htasks, rfl⟩
  | register id lines code =>
    rw [act, register_eq]
    exact ⟨.register id, htasks, rfl⟩
  | withdraw id =>
    rw [act, withdraw_eq]
    exact ⟨.withdraw id, htasks, rfl⟩
  | await id code =>
    obtain ⟨tree, hsettle⟩ := exists_settle s id
    simp only [act, hsettle]
    exact ⟨.pass, htasks, rfl⟩
  | abort id cause => exact ⟨.complete id _, htasks, rfl⟩
  | conclude id completion => exact ⟨.complete id completion, htasks, rfl⟩
  | note id line lines code => exact ⟨.note id line, htasks, rfl⟩
  | post id line lines code => exact ⟨.post id _ line, htasks, rfl⟩
  | dispatch id command => exact ⟨.pass, rfl, rfl⟩
  | check | prepare | kill | read | search | close | killWithdrawn | announce | rejected | started
  | raised | answered | ended => exact ⟨.pass, htasks, rfl⟩

theorem step_eq {n : Nat} {t : Task} (h : s.tasks[n]? = some t) :
    s.step toolchain n =
      { (s.act toolchain t).1 with tasks := (s.tasks ++ t.sent).set n (s.act toolchain t).2 } := by
  unfold step
  rw [h]
  dsimp only
  rw [(act_spec toolchain s t).2.1]

theorem task_step {n : Nat} {t : Task} (h : s.tasks[n]? = some t) :
    (s.step toolchain n).tasks[n]? = some (s.act toolchain t).2 := by
  have hlt : n < s.tasks.length := (List.getElem?_eq_some_iff.mp h).1
  rw [step_eq toolchain s h]
  exact List.getElem?_set_self (by rw [List.length_append]; omega)

theorem step_eq_self {n : Nat} (h : s.tasks[n]? = none) : s.step toolchain n = s := by
  unfold step
  rw [h]

theorem happen_section (event : Event) : s.workshop.Section (s.happen event).workshop := by
  cases event with
  | call call => exact .pass
  | change options tree => exact .pass
  | step toolchain n =>
    show s.workshop.Section (s.step toolchain n).workshop
    cases ht : s.tasks[n]? with
    | none =>
      rw [step_eq_self toolchain s ht]
      exact .pass
    | some t =>
      rw [step_eq toolchain s ht]
      exact (act_spec toolchain s t).1

end Steps

/-! ### What becomes of a task -/

/-- The task at a place stays there, and keeps whatever its own steps keep. -/
theorem exists_task_play {P : Task → Prop} (hact : ∀ toolchain s t, P t → P (act toolchain s t).2)
    {s : System} {n : Nat} {t : Task} (h : s.tasks[n]? = some t) (ht : P t) (events : List Event) :
    ∃ t', (s.play events).tasks[n]? = some t' ∧ P t' := by
  refine invariant_play (P := fun s => ∃ t', s.tasks[n]? = some t' ∧ P t') ?_ ⟨t, h, ht⟩ events
  rintro s event ⟨t, h, ht⟩
  have hlt : n < s.tasks.length := (List.getElem?_eq_some_iff.mp h).1
  cases event with
  | change options tree => exact ⟨t, h, ht⟩
  | call call =>
    refine ⟨t, ?_, ht⟩
    show (s.tasks ++ [call.task])[n]? = some t
    rw [List.getElem?_append_left hlt, h]
  | step toolchain m =>
    show ∃ t', (s.step toolchain m).tasks[n]? = some t' ∧ P t'
    cases hm : s.tasks[m]? with
    | none =>
      rw [step_eq_self toolchain s hm]
      exact ⟨t, h, ht⟩
    | some u =>
      by_cases hmn : m = n
      · -- its own step
        subst hmn
        exact ⟨_, task_step toolchain s h, hact toolchain s t ht⟩
      · refine ⟨t, ?_, ht⟩
        rw [step_eq toolchain s hm, List.getElem?_set_ne hmn, List.getElem?_append_left hlt, h]

theorem act_of_isOver {toolchain : Toolchain} {s : System} {t : Task} (h : t.isOver = true) :
    s.act toolchain t = (s, t) := by
  cases t <;> first | rfl | cases h

theorem task_play_of_isOver {s : System} {n : Nat} {t : Task} (h : s.tasks[n]? = some t)
    (ht : t.isOver = true) (events : List Event) : (s.play events).tasks[n]? = some t := by
  obtain ⟨_, h', rfl⟩ := exists_task_play (P := (· = t)) (fun toolchain s u hu => by
    rw [hu, act_of_isOver ht]) h rfl events
  exact h'

theorem act_isRefusable {toolchain : Toolchain} {s : System} {t : Task} (h : t.isRefusable = false) :
    (s.act toolchain t).2.isRefusable = false := by
  have hleads := act_leads toolchain s t
  cases hnext : (s.act toolchain t).2 with
  | claim | rejected =>
    -- only the request for the place leads there
    rw [hnext] at hleads
    cases t <;> simp_all [Task.Leads, Task.isRefusable]
  | _ => rfl

theorem act_hasCancelled {toolchain : Toolchain} {s : System} {t : Task}
    (h : t.hasCancelled = true) : (s.act toolchain t).2.hasCancelled = true := by
  cases t with
  | killWithdrawn | announce => rfl
  | answered => exact h
  | claim | validate | check | generate | write | prepare | compile | dispatch | abort | spawn
  | register | kill | read | note | post | await | search | conclude | close | withdraw | rejected
  | started | raised | ended => cases h

/-! ### One at a time -/

/-- What callers can rely on. -/
structure OneAtATime (s : System) : Prop where
  /-- An attempt is unfinished exactly while it is in the works. -/
  unfinished : ∀ a ∈ s.workshop.attempts, a.isFinished = false ↔ s.workshop.active? = some a.id
  single : (s.workshop.attempts.filter fun a => !a.isFinished).length ≤ 1
  idle : s.workshop.active? = none → s.workshop.status = .idle
  /-- A finished attempt was cancelled, or it was completed once. -/
  ended : ∀ a ∈ s.workshop.attempts, a.isFinished = true →
    a.isCancelled = true ∧ a.completions = [] ∨ a.isCancelled = false ∧ ∃ m, a.completions = [m]
  numbered : s.workshop.attempts.map (·.id) = List.range' 1 s.workshop.attempts.length
  /-- A start is refused exactly if an attempt is in the works when it asks for the place, and then
  it changes nothing. -/
  refused : ∀ toolchain n artifacts, s.tasks[n]? = some (.claim artifacts) →
    (s.workshop.active? ≠ none →
      s.step toolchain n = { s with tasks := s.tasks.set n .rejected }) ∧
    ∀ later, ((s.step toolchain n).play later).tasks[n]? = some .rejected ↔
      s.workshop.active? ≠ none
  /-- A call to cancel answers whether the attempt was in the works when it came to it. -/
  answered : ∀ toolchain n id, s.tasks[n]? = some (.withdraw id) → ∀ later answer,
    ((s.step toolchain n).play later).tasks[n]? = some (.answered answer) →
      answer = s.workshop.isActive id
  /-- Left alone, it comes to its answer. -/
  cancelled : ∀ toolchain id, (s.cancel toolchain id).2 = s.workshop.isActive id
  /-- How the last attempt ended is remembered from completions only. -/
  remembered : ∀ event, (s.happen event).workshop.lastStatus? ≠ s.workshop.lastStatus? →
    ∃ id completion, s.workshop.active? = some id ∧
      (s.happen event).workshop = s.workshop.complete id completion

section Reliance

variable {s : System} (h : s.workshop.Orderly)

include h in
theorem length_unfinished_le :
    (s.workshop.attempts.filter fun a => !a.isFinished).length ≤ 1 := by
  have hnodup : ((s.workshop.attempts.filter fun a => !a.isFinished).map (·.id)).Nodup := by
    refine List.Nodup.sublist (List.filter_sublist.map _) ?_
    rw [h.numbered]
    exact List.nodup_range'
  have hactive : ∀ a ∈ s.workshop.attempts.filter (fun a => !a.isFinished),
      s.workshop.active? = some a.id := by
    intro a ha
    obtain ⟨hmem, hopen⟩ := List.mem_filter.mp ha
    exact (h.accounted a.id a (h.attempt?_of_mem hmem)).unfinished.mp (by simpa using hopen)
  -- two of them would both be the one in the works
  cases hfound : s.workshop.attempts.filter fun a => !a.isFinished with
  | nil => exact Nat.zero_le 1
  | cons a rest =>
    cases rest with
    | nil => exact Nat.le_refl 1
    | cons b rest =>
      rw [hfound] at hnodup hactive
      have ha := hactive a List.mem_cons_self
      rw [hactive b (List.mem_cons_of_mem a List.mem_cons_self), Option.some.injEq] at ha
      simp [ha] at hnodup

theorem act_claim_of_active (toolchain : Toolchain) (artifacts : Firmware.Artifacts)
    (hactive : s.workshop.active? ≠ none) : s.act toolchain (.claim artifacts) = (s, .rejected) := by
  have hnone : s.workshop.claim (artifacts.keyboard?.getD "") artifacts.keymap = none :=
    Workshop.claim_eq_none_iff.mpr hactive
  show s.claim artifacts = (s, .rejected)
  unfold claim
  rw [hnone]

theorem exists_act_claim_of_free (toolchain : Toolchain) (artifacts : Firmware.Artifacts)
    (hfree : s.workshop.active? = none) :
    ∃ w', s.workshop.claim (artifacts.keyboard?.getD "") artifacts.keymap =
        some (s.workshop.nextId, w') ∧
      s.act toolchain (.claim artifacts) =
        (s.withWorkshop w', .validate s.workshop.nextId artifacts) := by
  obtain ⟨w', hclaim⟩ : ∃ w', s.workshop.claim (artifacts.keyboard?.getD "") artifacts.keymap =
      some (s.workshop.nextId, w') := by
    unfold Workshop.claim
    rw [hfree]
    exact ⟨_, rfl⟩
  refine ⟨w', hclaim, ?_⟩
  show s.claim artifacts = _
  unfold claim
  rw [hclaim]

theorem step_claim_of_active {toolchain : Toolchain} {n : Nat} {artifacts : Firmware.Artifacts}
    (hn : s.tasks[n]? = some (.claim artifacts)) (hactive : s.workshop.active? ≠ none) :
    s.step toolchain n = { s with tasks := s.tasks.set n .rejected } := by
  rw [step_eq toolchain s hn, act_claim_of_active toolchain artifacts hactive]
  simp only [Task.sent, List.append_nil]

theorem step_claim_of_free (toolchain : Toolchain) {n : Nat} {artifacts : Firmware.Artifacts}
    (hn : s.tasks[n]? = some (.claim artifacts)) (hfree : s.workshop.active? = none) :
    ∃ t, (s.step toolchain n).tasks[n]? = some t ∧ t.isRefusable = false := by
  refine ⟨_, task_step toolchain s hn, ?_⟩
  obtain ⟨w', -, hact⟩ := exists_act_claim_of_free toolchain artifacts hfree
  rw [hact]
  rfl

theorem step_withdraw (toolchain : Toolchain) {n id : Nat} (hn : s.tasks[n]? = some (.withdraw id)) :
    ∃ t, (s.step toolchain n).tasks[n]? = some t ∧
      if s.workshop.isActive id then t.hasCancelled = true else t = .answered false := by
  refine ⟨_, task_step toolchain s hn, ?_⟩
  rw [act, withdraw_eq]
  cases s.workshop.isActive id with
  | false => rfl
  | true => cases s.workshop.hasProcess id <;> rfl

theorem finish_of_isOver {toolchain : Toolchain} {s : System} {t : Task} (h : t.isOver = true) :
    s.finish toolchain t = (s, t) := by
  rw [finish, dif_pos h]

theorem finish_act {toolchain : Toolchain} {s : System} {t : Task} (h : t.isOver = false) :
    s.finish toolchain t =
      (s.act toolchain t).1.finish toolchain (s.act toolchain t).2 := by
  rw [finish, dif_neg (by simp [h])]

theorem cancel_eq (toolchain : Toolchain) (id : Nat) :
    (s.cancel toolchain id).2 = s.workshop.isActive id := by
  have hfinish : ∃ s', s.finish toolchain (.withdraw id) =
      (s', .answered (s.workshop.isActive id)) := by
    rw [finish_act rfl, act, withdraw_eq]
    cases s.workshop.isActive id with
    | false => exact ⟨_, finish_of_isOver rfl⟩
    | true =>
      cases s.workshop.hasProcess id with
      | false => exact ⟨_, (finish_act rfl).trans (finish_of_isOver rfl)⟩
      | true => exact ⟨_, (finish_act rfl).trans ((finish_act rfl).trans (finish_of_isOver rfl))⟩
  obtain ⟨s', hs'⟩ := hfinish
  unfold cancel
  rw [hs']

theorem lastStatus?_happen {event : Event}
    (hchanged : (s.happen event).workshop.lastStatus? ≠ s.workshop.lastStatus?) :
    ∃ id completion, s.workshop.active? = some id ∧
      (s.happen event).workshop = s.workshop.complete id completion := by
  have hsection := happen_section s event
  generalize (s.happen event).workshop = w' at hsection hchanged ⊢
  cases hsection with
  | complete id completion =>
    refine ⟨id, completion, ?_, rfl⟩
    unfold Workshop.complete at hchanged
    split at hchanged
    next hactive => exact beq_iff_eq.mp hactive
    next => exact absurd rfl hchanged
  | claim hclaim =>
    obtain ⟨-, -, rfl⟩ := Workshop.claim_eq_some hclaim
    exact absurd rfl hchanged
  | advance id status text =>
    unfold Workshop.advance at hchanged
    split at hchanged <;> exact absurd rfl hchanged
  | withdraw id =>
    unfold Workshop.withdraw at hchanged
    split at hchanged <;> exact absurd rfl hchanged
  | pass | register | note | post => exact absurd rfl hchanged

include h in
theorem oneAtATime_of_orderly : s.OneAtATime where
  unfinished a ha := (h.accounted a.id a (h.attempt?_of_mem ha)).unfinished
  single := length_unfinished_le h
  idle := h.idle
  ended a ha hfinished := by
    have hcount := (h.accounted a.id a (h.attempt?_of_mem ha)).completions
    rw [hfinished] at hcount
    cases hcancelled : a.isCancelled with
    | true =>
      rw [hcancelled] at hcount
      exact .inl ⟨rfl, List.eq_nil_of_length_eq_zero hcount⟩
    | false =>
      rw [hcancelled] at hcount
      exact .inr ⟨rfl, List.length_eq_one_iff.mp hcount⟩
  numbered := h.numbered
  refused toolchain n artifacts hn := by
    refine ⟨step_claim_of_active hn, fun later => ⟨fun hrejected hfree => ?_, fun hactive => ?_⟩⟩
    · obtain ⟨t, ht, hrefusable⟩ := step_claim_of_free toolchain hn hfree
      obtain ⟨t', ht', hrefusable⟩ := exists_task_play (P := fun t => t.isRefusable = false)
        (fun _ _ _ => act_isRefusable) ht hrefusable later
      rw [hrejected] at ht'
      cases ht'
      cases hrefusable
    · have hlt : n < s.tasks.length := (List.getElem?_eq_some_iff.mp hn).1
      rw [step_claim_of_active hn hactive]
      exact task_play_of_isOver (List.getElem?_set_self hlt) rfl later
  answered toolchain n id hn later answer hanswer := by
    obtain ⟨t, ht, hcancelled⟩ := step_withdraw toolchain hn
    cases hactive : s.workshop.isActive id with
    | true =>
      rw [hactive, if_pos rfl] at hcancelled
      obtain ⟨t', ht', hcancelled⟩ := exists_task_play (P := fun t => t.hasCancelled = true)
        (fun _ _ _ => act_hasCancelled) ht hcancelled later
      rw [hanswer] at ht'
      cases ht'
      cases answer with
      | true => rfl
      | false => cases hcancelled
    | false =>
      rw [hactive, if_neg nofun] at hcancelled
      subst hcancelled
      rw [task_play_of_isOver ht rfl later] at hanswer
      cases hanswer
      rfl
  cancelled toolchain id := cancel_eq toolchain id
  remembered event := lastStatus?_happen

end Reliance

theorem orderly_play {s : System} (h : s.workshop.Orderly) (events : List Event) :
    (s.play events).workshop.Orderly :=
  invariant_play (P := fun s => s.workshop.Orderly)
    (fun s event h => h.of_section (happen_section s event)) h events

/-- However calls and steps come between each other, there is one build at a time. -/
theorem oneAtATime_play (options : Options) (tree : File.Tree) (events : List Event) :
    (play { options, tree } events).OneAtATime :=
  oneAtATime_of_orderly (orderly_play .init events)

end System

end Keyforge.Build
