import Keyforge.Proofs.Document.Reader

/-!
# Turns of the reader

The lines of a document are read in a loop that stays at a line which is to be seen again. No line is
seen a third time (`SeenAgain.not_twice`), so the loop ends, and it takes the lines in their order.
-/

namespace Keyforge.Document

open Keyforge.Text

variable (limits : Limits) (now : Time.Stamp) {lines rest : List (List Char)} {full : List Char}
  {index : Nat}

/-! ### The loop -/

/-- A run of the loop: the numbers of the lines that are read, one for each turn, and its end. -/
structure Run where
  turns : List Nat
  result : Except ReadError State

/-- A run with `n` turns for a line before it. -/
def Run.after (n line : Nat) (run : Run) : Run := ⟨List.replicate n line ++ run.turns, run.result⟩

/-- The loop from the line at `index` on. There is no run if the loop has not ended after the given
number of turns. -/
def loop (lines : List (List Char)) : (turns index : Nat) → State → Option Run
  | 0, index, s => if index < lines.length then none else some ⟨[], .ok s⟩
  | turns + 1, index, s =>
    match lines[index]? with
    | none => some ⟨[], .ok s⟩
    | some full =>
      match consume limits now (index + 1) full s with
      | .error e => some ⟨[index + 1], .error e⟩
      | .ok (.done t) => (loop lines turns (index + 1) t).map (.after 1 (index + 1))
      | .ok (.again t) => (loop lines turns index t).map (.after 1 (index + 1))

/-- The loop from a line on, unless the one before it is refused. -/
def resume (lines : List (List Char)) (turns index : Nat) : Except ReadError State → Option Run
  | .error e => some ⟨[], .error e⟩
  | .ok t => loop limits now lines turns index t

/-- The numbers of lines from `line` on, each as often as `times` says. -/
def repeated (line : Nat) (times : List Nat) : List Nat :=
  (times.zipIdx line).flatMap fun entry => List.replicate entry.1 entry.2

theorem repeated_cons (line n : Nat) (times : List Nat) :
    repeated line (n :: times) = List.replicate n line ++ repeated (line + 1) times := by
  rw [repeated, List.zipIdx_cons, List.flatMap_cons, repeated]

/-! ### Lines -/

/-- A line that is seen again is dealt with then. -/
theorem SeenAgain.not_twice {s t u : State} (h : SeenAgain s t) : ¬SeenAgain t u := by
  cases h <;> exact nofun

theorem exists_loop_line (hline : lines[index]? = some full) (s : State) :
    ∃ n, (n = 1 ∨ n = 2) ∧ ∀ turns, loop limits now lines (turns + n) index s =
      (resume limits now lines turns (index + 1) (readLine limits now (index + 1) full s)).map
        (.after n (index + 1)) := by
  cases hs : consume limits now (index + 1) full s with
  | error e =>
    refine ⟨1, .inl rfl, fun turns => ?_⟩
    simp only [loop, hline, hs, readLine_of_error hs]
    rfl
  | ok step =>
    cases step with
    | done t =>
      refine ⟨1, .inl rfl, fun turns => ?_⟩
      simp only [loop, hline, hs, readLine_of_done hs, resume]
    | again t =>
      refine ⟨2, .inr rfl, fun turns => ?_⟩
      rw [readLine_of_again hs]
      -- the second turn is the last one for the line
      cases ht : consume limits now (index + 1) full t with
      | error e =>
        simp only [loop, hline, hs, ht, readLine_of_error ht]
        rfl
      | ok step =>
        cases step with
        | done u =>
          simp only [loop, hline, hs, ht, readLine_of_done ht, resume, Option.map_map]
          rfl
        | again u => exact absurd (seenAgain_of_consume ht) (seenAgain_of_consume hs).not_twice

/-- From any line on, the loop ends as the lines are read, with one or two turns for each of them. -/
theorem exists_loop_lines (hrest : lines.drop index = rest) (s : State) :
    ∃ times, (∀ n ∈ times, n = 1 ∨ n = 2) ∧ times.length ≤ rest.length ∧
      (∀ t, (readLines limits now (index + 1) rest s).result = .ok t → times.length = rest.length) ∧
      ∀ turns, 2 * rest.length ≤ turns → loop limits now lines turns index s =
        some ⟨repeated (index + 1) times, (readLines limits now (index + 1) rest s).result⟩ := by
  -- each line starts from where the one before it has led
  induction rest generalizing index s with
  | nil =>
    have hend := List.drop_eq_nil_iff.mp hrest
    refine ⟨[], List.forall_mem_nil _, Nat.le_refl 0, fun _ _ => rfl, fun turns _ => ?_⟩
    cases turns with
    | zero => rw [loop, if_neg (by omega)]; rfl
    | succ turns => rw [loop, List.getElem?_eq_none hend]; rfl
  | cons full rest ih =>
    have hline : lines[index]? = some full := by rw [← List.head?_drop, hrest, List.head?_cons]
    have hnext : lines.drop (index + 1) = rest := by rw [← List.tail_drop, hrest, List.tail_cons]
    obtain ⟨n, hn, hloop⟩ := exists_loop_line limits now hline s
    have hbudget : ∀ turns, 2 * (full :: rest).length ≤ turns →
        ∃ left, turns = left + n ∧ 2 * rest.length ≤ left := by
      intro turns hturns
      rw [List.length_cons] at hturns
      exact ⟨turns - n, by omega, by omega⟩
    rw [result_readLines_cons]
    cases hread : readLine limits now (index + 1) full s with
    | error e =>
      refine ⟨[n], List.forall_mem_singleton.mpr hn, by simp, fun _ h => ?_, fun turns hturns => ?_⟩
      · cases h
      · obtain ⟨left, rfl, -⟩ := hbudget turns hturns
        rw [hloop, hread, repeated_cons]
        rfl
    | ok t =>
      obtain ⟨times, htimes, hlength, hall, hends⟩ := ih hnext t
      refine ⟨n :: times, List.forall_mem_cons.mpr ⟨hn, htimes⟩, Nat.succ_le_succ hlength,
        fun u hu => congrArg (· + 1) (hall u hu), fun turns hturns => ?_⟩
      obtain ⟨left, rfl, hleft⟩ := hbudget turns hturns
      rw [hloop, hread, resume, hends left hleft, repeated_cons]
      rfl

/-! ### Documents -/

/-- **The loop of a document ends.** In whatever state a line is to be seen again, it is dealt with or
refused the second time. So there are at most two turns for each line, the lines are taken in their
order, all of them unless one is refused, and the document is read as the loop ends. -/
theorem loop_ends_in_order (limits : Limits) (now : Time.Stamp) (document : String) :
    (∀ line full s t u, consume limits now line full s = .ok (.again t) →
      consume limits now line full t ≠ .ok (.again u)) ∧
    ∃ times result, (∀ n ∈ times, n = 1 ∨ n = 2) ∧
      times.length ≤ (splitLinesFrom [] document.toList).length ∧
      (∀ s, result = .ok s → times.length = (splitLinesFrom [] document.toList).length) ∧
      loop limits now (splitLinesFrom [] document.toList)
        (2 * (splitLinesFrom [] document.toList).length) 0 .start =
        some ⟨repeated 1 times, result⟩ ∧
      (parse limits now document).result =
        result >>= fun s => (finish (splitLinesFrom [] document.toList).length s).result := by
  refine ⟨fun line full s t u h hu => ?_, ?_⟩
  · exact (seenAgain_of_consume h).not_twice (seenAgain_of_consume hu)
  · obtain ⟨times, htimes, hlength, hall, hends⟩ := exists_loop_lines limits now
      (List.drop_zero (l := splitLinesFrom [] document.toList)) .start
    exact ⟨times, _, htimes, hlength, hall, hends _ (Nat.le_refl _), result_parse document⟩

end Keyforge.Document
