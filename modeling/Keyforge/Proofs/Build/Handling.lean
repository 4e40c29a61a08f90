import Keyforge.Proofs.Build.Transcript
import Keyforge.Proofs.Text.Lines

/-!
# Who has an attempt in hand

An attempt is in the hands of one task at a time: the call that made it, then its worker. A step of
that task hands it on (`act_handsOn_begun`).
-/

namespace Keyforge.Build

open Workshop

/-! ### Commands that were started -/

namespace System

/-- The command that a step of a task starts, with the number of its attempt. -/
def begun (toolchain : Toolchain) (s : System) : Task → List (Nat × Execution)
  | .spawn id command =>
    (toolchain s.tree (s.options.home?.getD {}) command).toOption.toList.map fun e => (id, e)
  | _ => []

def begins (s : System) : Event → List (Nat × Execution)
  | .step toolchain n => (s.tasks[n]?).toList.flatMap (s.begun toolchain)
  | _ => []

def executions (s : System) : List Event → List (Nat × Execution)
  | [] => []
  | event :: events => s.begins event ++ (s.happen event).executions events

end System

/-- What the command of an attempt writes, if it was started. -/
def outputOf (starts : List (Nat × Execution)) (id : Nat) : Option (List String) :=
  (starts.lookup id).map fun e => outputLines e.output

/-- The lines that the command of an attempt writes, if it was started: those its output consists
of. -/
def Wrote (starts : List (Nat × Execution)) (id : Nat) : Option (List String) → Prop
  | none => starts.lookup id = none
  | some lines => ∃ e, starts.lookup id = some e ∧
      Text.IsLines (Text.decode e.output).toList (lines.map String.toList)

theorem isLines_outputLines (bytes : List UInt8) :
    Text.IsLines (Text.decode bytes).toList ((outputLines bytes).map String.toList) := by
  rw [outputLines, List.map_map, Text.isLines_iff]
  exact (List.map_congr_left fun line _ => String.toList_ofList).trans (List.map_id _)

theorem wrote_outputOf (starts : List (Nat × Execution)) (id : Nat) :
    Wrote starts id (outputOf starts id) := by
  unfold outputOf
  cases hstart : starts.lookup id with
  | none => exact hstart
  | some e => exact ⟨e, hstart, isLines_outputLines e.output⟩

/-! ### Whose hands an attempt is in -/

/-- The tasks that have an attempt in hand. -/
def Task.holders (id : Nat) (tasks : List Task) : List Task :=
  tasks.filter fun t => t.owner? == some id

/-- How an attempt stands that these tasks have in hand. -/
def Attempt.Held (output? : Option (List String)) (a : Attempt) : List Task → Prop
  | [] => a.Rests output?
  | [t] => t.Fits output? a
  | _ => False

namespace Task

variable {id : Nat} {t : Task} {tasks rest : List Task}

theorem holders_append (id : Nat) (tasks rest : List Task) :
    holders id (tasks ++ rest) = holders id tasks ++ holders id rest :=
  List.filter_append _ _

theorem holders_cons_of_owner (h : t.owner? = some id) (tasks : List Task) :
    holders id (t :: tasks) = t :: holders id tasks :=
  List.filter_cons_of_pos (by rw [h, beq_self_eq_true])

theorem holders_perm (h : tasks.Perm rest) (id : Nat) : (holders id tasks).Perm (holders id rest) :=
  h.filter _

theorem holders_eq_nil (h : ∀ t ∈ tasks, t.owner? ≠ some id) : holders id tasks = [] := by
  rw [holders, List.filter_eq_nil_iff]
  intro t ht
  rw [beq_iff_eq]
  exact h t ht

end Task

namespace Attempt

variable {output? : Option (List String)} {a b : Attempt} {tasks rest : List Task}

theorem Held.like (h : a.Held output? tasks) (hlike : a.Like b) : b.Held output? tasks := by
  cases tasks with
  | nil => exact Rests.like h hlike
  | cons t rest =>
    cases rest with
    | nil => exact Task.Fits.like h hlike
    | cons u rest => exact h

theorem Held.perm (h : a.Held output? tasks) (hperm : tasks.Perm rest) : a.Held output? rest := by
  cases tasks with
  | nil =>
    rw [List.nil_perm.mp hperm]
    exact h
  | cons t others =>
    cases others with
    | nil =>
      rw [List.singleton_perm.mp hperm] at h
      exact h
    | cons u others => exact h.elim

theorem Held.of_cons {t : Task} (h : a.Held output? (t :: rest)) :
    rest = [] ∧ t.Fits output? a := by
  cases rest with
  | nil => exact ⟨rfl, h⟩
  | cons u rest => exact h.elim

end Attempt

/-! ### What a task does with its attempt -/

namespace System

/-- After a step that is about one attempt, the attempt is in the hands of one of the tasks `next`
that come out of it, or it rests. -/
structure HandsOn (s s' : System) (id : Nat) (output? : Option (List String)) (next : List Task) :
    Prop where
  others : ∀ other, other ≠ id → s'.workshop.attempt? other = s.workshop.attempt? other
  owners : ∀ u ∈ next, ∀ other, u.owner? = some other → other = id
  held : ∃ a, s'.workshop.attempt? id = some a ∧ a.Held output? (Task.holders id next)

section Acting

variable {s s' : System} {id : Nat} {a b : Attempt} {output? : Option (List String)} {u : Task}

theorem HandsOn.keep (hothers : ∀ other, other ≠ id →
    s'.workshop.attempt? other = s.workshop.attempt? other)
    (hb : s'.workshop.attempt? id = some b) (hu : u.owner? = some id) (hfits : u.Fits output? b) :
    s.HandsOn s' id output? [u] where
  others := hothers
  owners v hv other hother := by
    rw [List.mem_singleton.mp hv, hu, Option.some.injEq] at hother
    exact hother.symm
  held := ⟨b, hb, by rw [Task.holders_cons_of_owner hu]; exact hfits⟩

theorem HandsOn.release (hothers : ∀ other, other ≠ id →
    s'.workshop.attempt? other = s.workshop.attempt? other)
    (hb : s'.workshop.attempt? id = some b) (hu : u.owner? = none) (hrests : b.Rests output?) :
    s.HandsOn s' id output? [u] where
  others := hothers
  owners v hv other hother := by
    rw [List.mem_singleton.mp hv, hu] at hother
    cases hother
  held := by
    have hnone : Task.holders id [u] = [] := Task.holders_eq_nil fun v hv => by
      rw [List.mem_singleton.mp hv, hu]
      nofun
    exact ⟨b, hb, by rw [hnone]; exact hrests⟩

variable (ha : s.workshop.attempt? id = some a)

include ha

theorem handsOn_advance {steps : List Status} (hearly : a.Early steps output?)
    (hsteps : steps <+: opening) (status : Status) (text : String) (hu : u.owner? = some id)
    (hfits : ∀ b : Attempt, b.Early (steps ++ [status]) output? → u.Fits output? b) :
    s.HandsOn (s.advance id status text u).1 id output? [(s.advance id status text u).2] := by
  rw [advance_eq]
  unfold Workshop.advance
  cases hactive : s.workshop.isActive id with
  | false =>
    exact .release (fun _ _ => rfl) ha rfl (hearly.current hsteps).rests
  | true =>
    have hid : a.id = id := id_of_attempt? ha
    refine .keep (b := a.put (.progress id status text)) (fun other hne => ?_) ?_ hu (hfits _ ?_)
    · exact attempt?_update_ne (f := (·.put (.progress id status text))) (fun _ => rfl) hne
    · exact attempt?_update_self (f := (·.put (.progress id status text))) (fun _ => rfl) ha
    · rw [← hid]
      exact hearly.advance status text

theorem handsOn_complete (h : s.workshop.Orderly) {completion : Completion}
    (hends : a.Ends output? completion) (hu : u.owner? = none) :
    s.HandsOn (s.withWorkshop (s.workshop.complete id completion)) id output? [u] := by
  cases hactive : s.workshop.isActive id with
  | false =>
    rw [complete_of_inactive hactive]
    exact .release (fun _ _ => rfl) ha hu hends.rests
  | true =>
    have hid : a.id = id := id_of_attempt? ha
    refine .release (b := a.completed id completion) (fun other hne => ?_) ?_ hu ?_
    · rw [complete_of_active hactive]
      exact attempt?_update_ne (f := Attempt.completed id completion) (fun _ => rfl) hne
    · exact attempt?_complete hactive ha completion
    · have hrests := hends.rests_complete (h.isCancelled_eq_false ha hactive)
      rw [hid] at hrests
      exact hrests

theorem checked_handsOn (hearly : a.Early [.validating] output?) (artifacts : Firmware.Artifacts) :
    s.HandsOn s id output? [s.checked id artifacts] := by
  have hsteps : [.validating] <+: opening := ⟨_, rfl⟩
  have habort : ∀ cause : Cause, cause.code? = none → s.HandsOn s id output? [.abort id cause] :=
    fun cause hcode => .keep (fun _ _ => rfl) ha rfl (hearly.ends hsteps hcode)
  unfold checked
  split
  · exact habort _ rfl
  · split
    · exact habort _ rfl
    · split
      · exact .keep (fun _ _ => rfl) ha rfl hearly
      · exact habort _ rfl
      · exact .release (fun _ _ => rfl) ha rfl (hearly.current hsteps).rests

theorem writeSources_handsOn (hearly : a.Early [.validating, .generating] output?)
    (artifacts : Firmware.Artifacts) (home : File.Path) :
    s.HandsOn (s.writeSources id artifacts home).1 id output?
      [(s.writeSources id artifacts home).2] := by
  have hsteps : [.validating, .generating] <+: opening := ⟨_, rfl⟩
  have hraised : ∀ tree error, s.HandsOn { s with tree } id output? [.raised id error] :=
    fun tree error => .release (fun _ _ => rfl) ha rfl (hearly.current hsteps).rests
  unfold writeSources
  dsimp only
  split
  · exact hraised s.tree _
  · split
    · exact .keep (fun _ _ => rfl) ha rfl hearly
    · split
      · exact .keep (fun _ _ => rfl) ha rfl (hearly.ends hsteps rfl)
      · exact hraised _ _
    · exact hraised _ _

theorem prepared_handsOn (hearly : a.Early [.validating, .generating] output?)
    (artifacts : Firmware.Artifacts) : s.HandsOn s id output? [s.prepared id artifacts] := by
  unfold prepared
  split
  · exact .keep (fun _ _ => rfl) ha rfl (hearly.ends ⟨_, rfl⟩ rfl)
  · exact .keep (fun _ _ => rfl) ha rfl hearly

theorem spawn_handsOn {starts : List (Nat × Execution)}
    (hearly : a.Early opening (outputOf starts id)) (toolchain : Toolchain)
    (command : List String) :
    s.HandsOn (s.spawn toolchain id command).1 id
      (outputOf (starts ++ s.begun toolchain (.spawn id command)) id)
      [(s.spawn toolchain id command).2] := by
  have hunstarted : starts.lookup id = none := Option.map_eq_none_iff.mp hearly.output
  obtain ⟨tree, outcomes, hspawn⟩ := exists_spawn toolchain s id command
  have hbegun : s.begun toolchain (.spawn id command) =
      (toolchain s.tree (s.options.home?.getD {}) command).toOption.toList.map fun e => (id, e) := rfl
  rw [hspawn, hbegun]
  unfold spawn
  cases toolchain s.tree (s.options.home?.getD {}) command with
  | ok e =>
    have houtput : outputOf (starts ++ [(id, e)]) id = some (outputLines e.output) := by
      unfold outputOf
      rw [List.lookup_append, hunstarted, Option.none_or, List.lookup_cons_self, Option.map_some]
    show s.HandsOn _ id (outputOf (starts ++ [(id, e)]) id) _
    rw [houtput]
    exact .keep (fun _ _ => rfl) ha rfl (hearly.hears _)
  | error error =>
    show s.HandsOn _ id (outputOf (starts ++ []) id) _
    rw [List.append_nil]
    exact .keep (fun _ _ => rfl) ha rfl (hearly.ends List.prefix_rfl rfl)

theorem nextLine_handsOn {rest : List String} (hears : a.Hears output? rest) (code : Int) :
    s.HandsOn s id output? [s.nextLine id rest code] := by
  cases rest with
  | nil => exact .keep (fun _ _ => rfl) ha rfl hears
  | cons line rest =>
    have hcancelled : s.workshop.isCancelled id = a.isCancelled := by
      unfold isCancelled
      rw [ha, Option.any_some]
    unfold nextLine
    rw [hcancelled]
    cases hkept : a.isCancelled with
    | true => exact .keep (fun _ _ => rfl) ha rfl (hears.drop hkept)
    | false => exact .keep (fun _ _ => rfl) ha rfl ⟨hears.tells, hears.output_eq hkept⟩

theorem awaited_handsOn (hears : a.Hears output? [])
    (code : Int) : s.HandsOn (s.settle id) id output? [s.awaited id code] := by
  have hlog : s.workshop.logOf id = a.log := by
    unfold logOf
    rw [ha]
    rfl
  obtain ⟨tree, hsettle⟩ := exists_settle s id
  rw [hsettle]
  unfold awaited
  dsimp only
  generalize (if s.killed.contains id = true then killCode else code) = code
  by_cases hcode : code = 0
  · rw [if_pos hcode]
    exact .keep (fun _ _ => rfl) ha rfl hears
  · rw [if_neg hcode, hlog]
    refine .keep (fun _ _ => rfl) ha rfl (hears.ends fun code failureLog hfailed => ?_)
    cases hfailed
    rfl

theorem searched_handsOn (hears : a.Hears output? []) : s.HandsOn s id output? [s.searched id] := by
  unfold searched
  rw [ha]
  dsimp only
  split
  · exact .keep (fun _ _ => rfl) ha rfl (hears.ends nofun)
  · exact .release (fun _ _ => rfl) ha rfl hears.current.rests

theorem act_handsOn {t : Task} (h : s.workshop.Orderly) (ht : t.owner? = some id)
    (hspawn : ∀ i command, t ≠ .spawn i command) (hfits : t.Fits output? a)
    (toolchain : Toolchain) :
    s.HandsOn (s.act toolchain t).1 id output? ((s.act toolchain t).2 :: t.sent) := by
  have hid : a.id = id := id_of_attempt? ha
  cases t with
  | spawn i command => exact absurd rfl (hspawn i command)
  | validate i artifacts =>
    cases ht
    exact handsOn_advance ha hfits List.nil_prefix _ _ rfl fun b hb => hb
  | generate i artifacts home =>
    cases ht
    exact handsOn_advance ha hfits ⟨_, rfl⟩ _ _ rfl fun b hb => hb
  | compile i command =>
    cases ht
    exact handsOn_advance ha hfits ⟨_, rfl⟩ _ _ rfl fun b hb => hb
  | check i artifacts =>
    cases ht
    exact checked_handsOn ha hfits artifacts
  | write i artifacts home =>
    cases ht
    exact writeSources_handsOn ha hfits artifacts home
  | prepare i artifacts =>
    cases ht
    exact prepared_handsOn ha hfits artifacts
  | dispatch i command =>
    cases ht
    refine ⟨fun _ _ => rfl, fun u hu other hother => ?_, a, ha, ?_⟩
    · rcases List.mem_cons.mp hu with rfl | hu
      · cases hother
      · rw [List.mem_singleton.mp hu] at hother
        cases hother
        rfl
    · have hholders : Task.holders id [.started id, .spawn id command] = [.spawn id command] := by
        rw [Task.holders, List.filter_cons_of_neg (by simp [Task.owner?])]
        exact Task.holders_cons_of_owner rfl []
      show a.Held _ (Task.holders id [.started id, .spawn id command])
      rw [hholders]
      exact hfits
  | abort i cause =>
    cases ht
    exact handsOn_complete ha h hfits rfl
  | conclude i completion =>
    cases ht
    exact handsOn_complete ha h hfits rfl
  | register i rest code =>
    cases ht
    rw [act, register_eq]
    have hlike : a.Like { a with hasProcess := true } := ⟨rfl, rfl, rfl, fun hc => hc⟩
    refine .keep (b := { a with hasProcess := true }) (fun other hne => ?_) ?_ ?_ ?_
    · exact attempt?_update_ne (f := fun a => { a with hasProcess := true }) (fun _ => rfl) hne
    · exact attempt?_register ha
    · split <;> rfl
    · have hears := Attempt.Hears.like hfits hlike
      split
      · exact hears
      · exact hears
  | kill i rest code =>
    cases ht
    exact .keep (fun _ _ => rfl) ha rfl hfits
  | read i rest code =>
    cases ht
    exact nextLine_handsOn ha hfits code
  | note i line rest code =>
    cases ht
    obtain ⟨htells, houtput⟩ := hfits
    refine .keep (b := { a with log := a.log ++ [line] }) (fun other hne => ?_) ?_ rfl
      ⟨a.log, htells, rfl, ?_⟩
    · exact attempt?_update_ne (f := fun a => { a with log := a.log ++ [line] })
        (fun _ => rfl) hne
    · exact attempt?_note ha line
    · rw [houtput, List.append_cons]
  | post i line rest code =>
    cases ht
    obtain ⟨lines, htells, hlog, houtput⟩ := hfits
    refine .keep (b := a.put (.output id (s.options.classify line) line)) (fun other hne => ?_) ?_ rfl
      ⟨?_, [], ?_, fun hne => absurd rfl hne⟩
    · exact attempt?_update_ne (f := (·.put (.output id (s.options.classify line) line)))
        (fun _ => rfl) hne
    · exact attempt?_post ha _ line
    · show (a.put (.output id (s.options.classify line) line)).Tells opening a.log none
      rw [hlog, ← hid]
      exact htells.output _ line
    · rw [houtput, List.append_nil]
      rfl
  | await i code =>
    cases ht
    exact awaited_handsOn ha hfits code
  | search i =>
    cases ht
    exact searched_handsOn ha hfits
  | claim | close | withdraw | killWithdrawn | announce | rejected | started | raised | answered
  | ended => cases ht

/-- A step of the task that has an attempt in hand hands it on. -/
theorem act_handsOn_begun {starts : List (Nat × Execution)} {t : Task}
    (h : s.workshop.Orderly) (ht : t.owner? = some id)
    (hfits : t.Fits (outputOf starts id) a) (toolchain : Toolchain) :
    s.HandsOn (s.act toolchain t).1 id (outputOf (starts ++ s.begun toolchain t) id)
      ((s.act toolchain t).2 :: t.sent) := by
  by_cases hspawn : ∀ i command, t ≠ .spawn i command
  · rw [begun, List.append_nil]
    · exact act_handsOn ha h ht hspawn hfits toolchain
    · exact hspawn
  · simp only [not_forall, not_not] at hspawn
    obtain ⟨i, command, rfl⟩ := hspawn
    cases ht
    exact spawn_handsOn ha hfits toolchain command

end Acting

/-! ### Tasks that have no attempt in hand -/

theorem act_of_unowned {s : System} {t : Task} (ht : t.owner? = none)
    (hclaim : ∀ artifacts, t = .claim artifacts → s.workshop.active? ≠ none)
    (toolchain : Toolchain) :
    (s.act toolchain t).2.owner? = none ∧ t.sent = [] ∧ ∀ id, ∃ f, (∀ a : Attempt, a.Like (f a)) ∧
      (s.act toolchain t).1.workshop.attempt? id = (s.workshop.attempt? id).map f := by
  have hsame : ∀ id, ∃ f, (∀ a : Attempt, a.Like (f a)) ∧
      s.workshop.attempt? id = (s.workshop.attempt? id).map f :=
    fun id => ⟨fun a => a, fun a => ⟨rfl, rfl, rfl, fun h => h⟩, (Option.map_id').symm ▸ rfl⟩
  cases t with
  | claim artifacts =>
    rw [act_claim_of_active toolchain artifacts (hclaim artifacts rfl)]
    exact ⟨rfl, rfl, hsame⟩
  | withdraw id =>
    rw [act, withdraw_eq]
    cases hactive : s.workshop.isActive id with
    | false =>
      refine ⟨rfl, rfl, fun other => ?_⟩
      unfold Workshop.withdraw
      rw [hactive]
      exact hsame other
    | true =>
      refine ⟨?_, rfl, fun other => ?_⟩
      · rw [if_pos rfl]
        split <;> rfl
      · let f := fun a : Attempt => { a with isCancelled := true, isFinished := true }
        refine ⟨fun a => if other = id then f a else a, fun a => ?_, ?_⟩
        · show a.Like (if other = id then f a else a)
          by_cases hother : other = id
          · rw [if_pos hother]
            exact ⟨rfl, rfl, rfl, fun _ => rfl⟩
          · rw [if_neg hother]
            exact ⟨rfl, rfl, rfl, fun h => h⟩
        · rw [← attempt?_update (f := f) fun _ => rfl]
          unfold Workshop.withdraw
          rw [hactive]
          rfl
  | close =>
    refine ⟨?_, rfl, hsame⟩
    show ((s.workshop.active?.map Task.withdraw).getD (.answered false)).owner? = none
    cases s.workshop.active? <;> rfl
  | killWithdrawn | announce | rejected | started | raised | answered | ended =>
    exact ⟨rfl, rfl, hsame⟩
  | validate | check | generate | write | prepare | compile | dispatch | abort | spawn | register
  | kill | read | note | post | await | search | conclude => cases ht

end System

end Keyforge.Build
