import Keyforge.Header.Pattern

/-!
# What patterns match

A pattern is tried by going on behind each of its pieces and coming back if that fails.
`Pattern.outcomes` says what this finds without going on anywhere: all places a pattern leads to
from a place, the preferred ones first. `Pattern.Matches` is to come to the end of a text in one of
these ways, and `accepts_iff` says that this is what trying decides.

Main statements: `run_eq` (trying takes the first outcome from which one can go on) and
`accepts_iff`.
-/

namespace Keyforge.Header.Pattern

/-! ### Outcomes -/

/-- Where repetitions of a piece lead to. -/
def iterations (go : Fit → List Fit) (least : Nat) (most? : Option Nat) (isLazy : Bool) :
    (fuel count : Nat) → Fit → List Fit
  | 0, _, _ => []
  | fuel + 1, count, f =>
    let stop := if least ≤ count then [f] else []
    let more :=
      if most?.any (· ≤ count) then []
      else (go f).flatMap fun g =>
        if g.after.length = f.after.length && least ≤ count + 1 then [g]
        else iterations go least most? isLazy fuel (count + 1) g
    if isLazy then stop ++ more else more ++ stop

/-- Where a pattern leads to from a place, in all ways it fits, the preferred one first. -/
def outcomes : Pattern → Fit → List Fit
  | empty, f => [f]
  | char m set, f => (f.step? (set.has m)).toList
  | spot m s, f => if f.isAt m s then [f] else []
  | sequence p q, f => (p.outcomes f).flatMap q.outcomes
  | choice p q, f => p.outcomes f ++ q.outcomes f
  | repetition least most? isLazy p, f =>
    iterations p.outcomes least most? isLazy (f.after.length + least + 1) 0 f
  | group n p, f => (p.outcomes f).map fun g => f.keep g n
  | back m n, f => ((f.groups.lookup n).bind (f.steps? m)).toList
  | look behind? negated p, f =>
    match (f.start? behind?).bind fun g => (p.outcomes g).head? with
    | some g => if negated then [] else [{ f with groups := g.groups }]
    | none => if negated then [f] else []
  | atomic p, f => (p.outcomes f).head?.toList
  | conditional n p q, f => if (f.groups.lookup n).isSome then p.outcomes f else q.outcomes f

/-- A pattern describes a text as a whole: it leads from its start to its end. -/
def Matches (p : Pattern) (s : List Char) : Prop := ∃ f ∈ p.outcomes { after := s }, f.after = []

/-! ### Trying -/

variable {p : Pattern} {f : Fit} {next : Fit → Option Fit}

theorem orElse_eq (first : Option Fit) (second : Unit → Option Fit) :
    orElse first second = first.or (second ()) := by
  cases first <;> rfl

theorem findSome?_toList {α β : Type} (a? : Option α) (g : α → Option β) :
    a?.toList.findSome? g = a?.bind g := by
  cases a? with
  | none => rfl
  | some a => exact List.findSome?_singleton

theorem findSome?_flatMap {α β γ : Type} (items : List α) (g : α → List β) (h : β → Option γ) :
    (items.flatMap g).findSome? h = items.findSome? fun a => (g a).findSome? h := by
  induction items with
  | nil => rfl
  | cons a items ih =>
    rw [List.flatMap_cons, List.findSome?_append, ih, List.findSome?_cons]
    cases (g a).findSome? h <;> rfl

theorem findSome?_some_eq_head? {α : Type} (items : List α) : items.findSome? some = items.head? := by
  cases items <;> rfl

theorem findSome?_ite {α β : Type} {c : Prop} [Decidable c] (xs ys : List α) (g : α → Option β) :
    (if c then xs else ys).findSome? g = if c then xs.findSome? g else ys.findSome? g :=
  apply_ite (List.findSome? g) c xs ys

theorem iterate_eq {go : Fit → (Fit → Option Fit) → Option Fit} {ways : Fit → List Fit}
    (hgo : ∀ f next, go f next = (ways f).findSome? next) (least : Nat) (most? : Option Nat)
    (isLazy : Bool) (fuel count : Nat) (f : Fit) (next : Fit → Option Fit) :
    iterate go least most? isLazy fuel count f next =
      (iterations ways least most? isLazy fuel count f).findSome? next := by
  induction fuel generalizing count f with
  | zero => rfl
  | succ fuel ih =>
    simp only [iterate, iterations, orElse_eq, hgo, ih, findSome?_ite, List.findSome?_append,
      findSome?_flatMap, List.findSome?_singleton, List.findSome?_nil]

/-- Trying a pattern takes the first of its outcomes from which one can go on. -/
theorem run_eq : p.run f next = (p.outcomes f).findSome? next := by
  induction p generalizing f next with
  | empty => exact List.findSome?_singleton.symm
  | char m set => rw [run, outcomes, findSome?_toList]
  | spot m s => simp only [run, outcomes, findSome?_ite, List.findSome?_singleton,
      List.findSome?_nil]
  | sequence p q ihp ihq => simp only [run, outcomes, ihp, ihq, findSome?_flatMap]
  | choice p q ihp ihq => rw [run, outcomes, orElse_eq, ihp, ihq, List.findSome?_append]
  | repetition least most? isLazy p ih =>
    have hgo : ∀ f next, p.run f next = (p.outcomes f).findSome? next := fun _ _ => ih
    exact iterate_eq hgo ..
  | group n p ih =>
    rw [run, outcomes, ih, List.findSome?_map]
    rfl
  | back m n => rw [run, outcomes, findSome?_toList]
  | look behind? negated p ih =>
    simp only [run, outcomes, ih, findSome?_some_eq_head?]
    cases (f.start? behind?).bind fun g => (p.outcomes g).head? with
    | none => cases negated <;> simp
    | some g => cases negated <;> simp
  | atomic p ih => rw [run, outcomes, ih, findSome?_some_eq_head?, findSome?_toList]
  | conditional n p q ihp ihq => rw [run, outcomes, ihp, ihq, findSome?_ite]

/-- Trying decides whether a pattern describes a text. -/
theorem accepts_iff {s : List Char} : p.accepts s = true ↔ p.Matches s := by
  rw [accepts, run_eq, List.findSome?_isSome_iff]
  refine exists_congr fun f => and_congr_right fun _ => ?_
  cases f.after <;> simp

end Keyforge.Header.Pattern
