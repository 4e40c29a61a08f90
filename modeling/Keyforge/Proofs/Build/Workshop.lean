import Keyforge.Build.Workshop
import Mathlib.Data.List.Nodup

/-!
# Order in the workshop

Everything that callers and workers share is changed in sections that nothing can come between
(`Workshop.Section`). `Workshop.Orderly` is what holds between any two sections.
-/

namespace Keyforge.Build

variable {keyboard keymap : String}

/-! ### Attempts by their numbers -/

namespace Workshop

variable {w : Workshop}

theorem id_of_attempt? {id : Nat} {a : Attempt} (h : w.attempt? id = some a) : a.id = id := by
  have hfound := List.find?_some h
  simpa using hfound

theorem attempt?_update {f : Attempt → Attempt} (hf : ∀ a, (f a).id = a.id) (id other : Nat) :
    (w.update id f).attempt? other =
      (w.attempt? other).map fun a => if other = id then f a else a := by
  unfold update attempt?
  dsimp only
  rw [List.find?_map]
  have hsame : ((fun a : Attempt => a.id == other) ∘ fun a => if a.id == id then f a else a) =
      fun a => a.id == other := by
    funext a
    by_cases h : a.id = id
    · simp [h, hf]
    · simp [h]
  rw [hsame]
  cases hfound : w.attempts.find? (fun a => a.id == other) with
  | none => rfl
  | some a =>
    have hid : a.id = other := id_of_attempt? hfound
    by_cases h : other = id
    · simp [h, hid]
    · simp [h, hid]

theorem attempt?_update_self {f : Attempt → Attempt} (hf : ∀ a, (f a).id = a.id) {id : Nat}
    {a : Attempt} (ha : w.attempt? id = some a) : (w.update id f).attempt? id = some (f a) := by
  rw [attempt?_update hf, ha, Option.map_some, if_pos rfl]

theorem attempt?_update_ne {f : Attempt → Attempt} (hf : ∀ a, (f a).id = a.id) {id other : Nat}
    (hne : other ≠ id) : (w.update id f).attempt? other = w.attempt? other := by
  rw [attempt?_update hf]
  simp only [if_neg hne, Option.map_id']

theorem map_id_update {f : Attempt → Attempt} (hf : ∀ a, (f a).id = a.id) (id : Nat) :
    (w.update id f).attempts.map (·.id) = w.attempts.map (·.id) := by
  unfold update
  rw [List.map_map]
  refine List.map_congr_left fun a _ => ?_
  by_cases h : a.id = id
  · simp [h, hf]
  · simp [h]

theorem length_update (f : Attempt → Attempt) (id : Nat) :
    (w.update id f).attempts.length = w.attempts.length :=
  List.length_map _

/-! ### What is done to one attempt -/

section Single

variable {id : Nat} {a : Attempt}

theorem attempt?_register (ha : w.attempt? id = some a) :
    (w.register id).2.attempt? id = some { a with hasProcess := true } :=
  attempt?_update_self (f := fun a => { a with hasProcess := true }) (fun _ => rfl) ha

theorem attempt?_note (ha : w.attempt? id = some a) (line : String) :
    (w.note id line).attempt? id = some { a with log := a.log ++ [line] } :=
  attempt?_update_self (f := fun a => { a with log := a.log ++ [line] }) (fun _ => rfl) ha

theorem attempt?_post (ha : w.attempt? id = some a) (level : Level) (line : String) :
    (w.post id level line).attempt? id = some (a.put (.output id level line)) :=
  attempt?_update_self (f := (·.put (.output id level line))) (fun _ => rfl) ha

theorem advance_of_inactive (h : w.isActive id = false) (status : Status) (text : String) :
    w.advance id status text = (false, w) := by
  unfold advance
  rw [h]
  rfl

theorem complete_of_inactive (h : w.isActive id = false) (completion : Completion) :
    w.complete id completion = w := by
  unfold complete
  rw [h]
  rfl

end Single

end Workshop

/-- An attempt with the end of its messages. -/
def Attempt.completed (id : Nat) (completion : Completion) (a : Attempt) : Attempt :=
  { (a.put (.progress id completion.status completion.text)).put (.complete id completion) with
    isFinished := true }

namespace Workshop

variable {w : Workshop}

theorem complete_of_active {id : Nat} (h : w.isActive id = true) (completion : Completion) :
    w.complete id completion = { w.update id (Attempt.completed id completion) with
      lastStatus? := some completion.status, status := .idle, active? := none } := by
  unfold complete
  rw [if_pos h]
  rfl

theorem attempt?_complete {id : Nat} {a : Attempt} (h : w.isActive id = true)
    (ha : w.attempt? id = some a) (completion : Completion) :
    (w.complete id completion).attempt? id = some (a.completed id completion) := by
  rw [complete_of_active h]
  exact attempt?_update_self (f := Attempt.completed id completion) (fun _ => rfl) ha

/-! ### Sections -/

/-- What one section makes of the workshop. -/
inductive Section (w : Workshop) : Workshop → Prop where
  | pass : Section w w
  | claim {keyboard keymap : String} {id : Nat} {w' : Workshop}
      (h : w.claim keyboard keymap = some (id, w')) : Section w w'
  | advance (id : Nat) (status : Status) (text : String) : Section w (w.advance id status text).2
  | complete (id : Nat) (completion : Completion) : Section w (w.complete id completion)
  | register (id : Nat) : Section w (w.register id).2
  | withdraw (id : Nat) : Section w (w.withdraw id).2
  | note (id : Nat) (line : String) : Section w (w.note id line)
  | post (id : Nat) (level : Level) (line : String) : Section w (w.post id level line)

/-- The place is given away exactly if it is free. -/
theorem claim_eq_none_iff : w.claim keyboard keymap = none ↔ w.active? ≠ none := by
  unfold claim
  cases w.active? <;> simp

theorem claim_eq_some {id : Nat} {w' : Workshop} (h : w.claim keyboard keymap = some (id, w')) :
    w.active? = none ∧ id = w.nextId ∧
      w' = { w with attempts := w.attempts ++ [{ id, keyboard, keymap }], active? := some id } := by
  unfold claim at h
  cases hactive : w.active? with
  | some other =>
    rw [hactive] at h
    cases h
  | none =>
    rw [hactive] at h
    cases h
    exact ⟨rfl, rfl, rfl⟩

theorem attempt?_of_claim {id : Nat} {w' : Workshop} (h : w.claim keyboard keymap = some (id, w'))
    (other : Nat) :
    w'.attempt? other =
      (w.attempt? other).or (if id = other then some { id, keyboard, keymap } else none) := by
  obtain ⟨-, -, rfl⟩ := claim_eq_some h
  unfold attempt?
  dsimp only
  rw [List.find?_append, List.find?_singleton]
  simp only [beq_iff_eq]

end Workshop

def Attempt.completions (a : Attempt) : List Message := a.messages.filter Message.isComplete

theorem Attempt.completions_put (a : Attempt) (m : Message) :
    (a.put m).completions = a.completions ++ if m.isComplete then [m] else [] := by
  unfold completions put
  rw [List.filter_append, List.filter_singleton, Bool.cond_eq_ite]

/-! ### The invariant -/

/-- An attempt that is finished unless it is in the works. -/
structure Attempt.Accounted (inWorks : Prop) (a : Attempt) : Prop where
  unfinished : a.isFinished = false ↔ inWorks
  cancelled : a.isCancelled = true → a.isFinished = true
  completions : a.completions.length = if a.isFinished && !a.isCancelled then 1 else 0

/-- What holds between any two sections. -/
structure Workshop.Orderly (w : Workshop) : Prop where
  numbered : w.attempts.map (·.id) = List.range' 1 w.attempts.length
  known : ∀ id, w.active? = some id → ∃ a, w.attempt? id = some a
  accounted : ∀ id a, w.attempt? id = some a → a.Accounted (w.active? = some id)
  idle : w.active? = none → w.status = .idle

namespace Workshop.Orderly

variable {w : Workshop}

theorem init : Workshop.Orderly {} where
  numbered := rfl
  known _ h := by cases h
  accounted _ _ h := by cases h
  idle _ := rfl

variable (h : w.Orderly)

include h

theorem le_length {id : Nat} {a : Attempt} (ha : w.attempt? id = some a) :
    id ≤ w.attempts.length := by
  have hmem : a.id ∈ w.attempts.map (·.id) := List.mem_map_of_mem (List.mem_of_find?_eq_some ha)
  rw [h.numbered, List.mem_range'_1, Workshop.id_of_attempt? ha] at hmem
  omega

theorem attempt?_nextId : w.attempt? w.nextId = none := by
  cases ha : w.attempt? w.nextId with
  | none => rfl
  | some a =>
    have hle := h.le_length ha
    unfold Workshop.nextId at hle
    omega

theorem attempt?_of_mem {a : Attempt} (ha : a ∈ w.attempts) : w.attempt? a.id = some a := by
  have hnodup : (w.attempts.map (·.id)).Nodup := h.numbered ▸ List.nodup_range'
  have hfound : (w.attempt? a.id).isSome = true := by
    unfold Workshop.attempt?
    rw [List.find?_isSome]
    exact ⟨a, ha, by simp⟩
  obtain ⟨b, hb⟩ := Option.isSome_iff_exists.mp hfound
  have hmem : b ∈ w.attempts := List.mem_of_find?_eq_some hb
  rw [hb, List.inj_on_of_nodup_map hnodup hmem ha (Workshop.id_of_attempt? hb)]

theorem isCancelled_eq_false {id : Nat} {a : Attempt}
    (ha : w.attempt? id = some a) (hactive : w.isActive id = true) : a.isCancelled = false := by
  have haccount := h.accounted id a ha
  have hopen : a.isFinished = false := haccount.unfinished.mpr (beq_iff_eq.mp hactive)
  rw [Bool.eq_false_iff]
  intro hcancelled
  rw [haccount.cancelled hcancelled] at hopen
  cases hopen

/-! ### Sections keep order -/

theorem change {id : Nat} {f : Attempt → Attempt} (hf : ∀ a, (f a).id = a.id)
    {active? : Option Nat} {status : Status} {lastStatus? : Option Status}
    (hactive : active? = w.active? ∨ active? = none ∧ w.active? = some id)
    (hf' : ∀ a, w.attempt? id = some a → (f a).Accounted (active? = some id))
    (hidle : active? = none → status = .idle) :
    Workshop.Orderly { w.update id f with active?, status, lastStatus? } where
  numbered := by
    show (w.update id f).attempts.map (·.id) = List.range' 1 (w.update id f).attempts.length
    rw [Workshop.map_id_update hf, Workshop.length_update, h.numbered]
  known other hother := by
    show ∃ a, (w.update id f).attempt? other = some a
    have hold : w.active? = some other := by
      rcases hactive with hsame | ⟨hnone, -⟩
      · rw [← hsame]
        exact hother
      · rw [show active? = some other from hother] at hnone
        cases hnone
    obtain ⟨a, ha⟩ := h.known other hold
    rw [Workshop.attempt?_update hf, ha]
    exact ⟨_, rfl⟩
  accounted other a ha := by
    change (w.update id f).attempt? other = some a at ha
    rw [Workshop.attempt?_update hf] at ha
    obtain ⟨b, hb, rfl⟩ := Option.map_eq_some_iff.mp ha
    by_cases hother : other = id
    · subst hother
      rw [if_pos rfl]
      exact hf' b hb
    · -- the others do not notice whether `id` has left the works
      rw [if_neg hother]
      have hsame : active? = some other ↔ w.active? = some other := by
        rcases hactive with hsame | ⟨hnone, hid⟩
        · rw [hsame]
        · rw [hnone, hid]
          simp [Ne.symm hother]
      show b.Accounted (active? = some other)
      rw [hsame]
      exact h.accounted other b hb
  idle := hidle

theorem touch {id : Nat} {f : Attempt → Attempt} (hf : ∀ a, (f a).id = a.id)
    (hfinished : ∀ a, (f a).isFinished = a.isFinished)
    (hcancelled : ∀ a, (f a).isCancelled = a.isCancelled)
    (hcompletions : ∀ a, (f a).completions = a.completions) {status : Status}
    (hidle : w.active? = none → status = .idle) :
    Workshop.Orderly { w.update id f with status } := by
  refine @change w h id f hf w.active? status w.lastStatus? (.inl rfl) (fun a ha => ?_) hidle
  have hold := h.accounted id a ha
  exact ⟨hfinished a ▸ hold.unfinished, hfinished a ▸ hcancelled a ▸ hold.cancelled,
    hfinished a ▸ hcancelled a ▸ hcompletions a ▸ hold.completions⟩

theorem claim {id : Nat} {w' : Workshop}
    (hclaim : w.claim keyboard keymap = some (id, w')) : w'.Orderly := by
  have hnew := Workshop.attempt?_of_claim hclaim
  obtain ⟨hfree, rfl, rfl⟩ := Workshop.claim_eq_some hclaim
  refine ⟨?_, ?_, ?_, nofun⟩
  · dsimp only
    rw [List.map_append, h.numbered, List.length_append, List.length_singleton, List.range'_concat]
    simp [Workshop.nextId, Nat.add_comm]
  · intro other hother
    cases hother
    rw [hnew, h.attempt?_nextId, if_pos rfl]
    exact ⟨_, rfl⟩
  · intro other a ha
    rw [hnew] at ha
    by_cases hother : w.nextId = other
    · subst hother
      rw [h.attempt?_nextId, if_pos rfl] at ha
      cases ha
      exact ⟨by simp, nofun, rfl⟩
    · rw [if_neg hother, Option.or_none] at ha
      have hold := h.accounted other a ha
      rw [hfree] at hold
      refine { hold with unfinished := hold.unfinished.trans ?_ }
      simp [hother]

theorem advance (id : Nat) (status : Status) (text : String) :
    (w.advance id status text).2.Orderly := by
  unfold Workshop.advance
  split
  next hactive =>
    refine h.touch (f := (·.put (.progress id status text))) (fun _ => rfl) (fun _ => rfl)
      (fun _ => rfl) (fun a => ?_) fun hnone => ?_
    · exact (a.completions_put _).trans (List.append_nil _)
    · rw [Workshop.isActive, hnone] at hactive
      cases hactive
  next => exact h

theorem complete (id : Nat) (completion : Completion) : (w.complete id completion).Orderly := by
  cases hactive : w.isActive id with
  | false =>
    rw [Workshop.complete_of_inactive hactive]
    exact h
  | true =>
    have hid : w.active? = some id := beq_iff_eq.mp hactive
    rw [Workshop.complete_of_active hactive]
    refine h.change (f := Attempt.completed id completion) (fun _ => rfl) (.inr ⟨rfl, hid⟩)
      (fun a ha => ?_) fun _ => rfl
    -- an attempt in the works is not finished, so it was not cancelled and has no completion yet
    have hold := h.accounted id a ha
    have hopen : a.isFinished = false := hold.unfinished.mpr hid
    have hkept : a.isCancelled = false := h.isCancelled_eq_false ha hactive
    have hcount := hold.completions
    rw [hopen] at hcount
    refine ⟨by simp [Attempt.completed], fun _ => rfl, ?_⟩
    show ((a.put (.progress id completion.status completion.text)).put
      (.complete id completion)).completions.length = if true && !a.isCancelled then 1 else 0
    rw [Attempt.completions_put, Attempt.completions_put, List.length_append, List.length_append,
      hcount, hkept]
    rfl

theorem withdraw (id : Nat) : (w.withdraw id).2.Orderly := by
  unfold Workshop.withdraw
  split
  next hactive =>
    have hid : w.active? = some id := beq_iff_eq.mp hactive
    refine h.change (f := fun a => { a with isCancelled := true, isFinished := true })
      (fun _ => rfl) (.inr ⟨rfl, hid⟩) (fun a ha => ?_) fun _ => rfl
    have hold := h.accounted id a ha
    have hopen : a.isFinished = false := hold.unfinished.mpr hid
    have hcount := hold.completions
    rw [hopen] at hcount
    exact ⟨by simp, fun _ => rfl, hcount⟩
  next => exact h

/-- Whatever is done in a section keeps the workshop in order. -/
theorem of_section {w' : Workshop} (hs : w.Section w') : w'.Orderly := by
  cases hs with
  | pass => exact h
  | claim hclaim => exact h.claim hclaim
  | advance id status text => exact h.advance id status text
  | complete id completion => exact h.complete id completion
  | withdraw id => exact h.withdraw id
  | register id =>
    exact h.touch (f := fun a => { a with hasProcess := true }) (fun _ => rfl) (fun _ => rfl)
      (fun _ => rfl) (fun _ => rfl) h.idle
  | note id line =>
    exact h.touch (f := fun a => { a with log := a.log ++ [line] }) (fun _ => rfl) (fun _ => rfl)
      (fun _ => rfl) (fun _ => rfl) h.idle
  | post id level line =>
    refine h.touch (f := (·.put (.output id level line))) (fun _ => rfl) (fun _ => rfl)
      (fun _ => rfl) (fun a => ?_) h.idle
    exact (a.completions_put _).trans (List.append_nil _)

end Workshop.Orderly

end Keyforge.Build
