import Keyforge.Number.Read
import Mathlib.Algebra.Group.Nat.Defs
import Mathlib.Data.List.Induction

/-!
# Decimal numbers

Numbers are written with the digits from zero to nine and read with those of any script.
-/

namespace Keyforge

namespace Text

theorem digitValue?_of_isDigit {c : Char} (h : c.isDigit = true) :
    digitValue? c = some (c.toNat - '0'.toNat) := by
  rw [digitValue?, if_pos h]

theorem isDigit_of_mem_toDigits {n : Nat} {c : Char} (h : c ∈ Nat.toDigits 10 n) :
    isDigit c = true := by
  rw [isDigit, digitValue?_of_isDigit (Nat.isDigit_of_mem_toDigits (by decide) (by decide) h)]
  rfl

theorem isDigit_of_isBlank {c : Char} (h : isBlank c = true) : isDigit c = false := by
  have hall : ∀ n ∈ [0x09, 0x0a, 0x0b, 0x0c, 0x0d, 0x1c, 0x1d, 0x1e, 0x1f, 0x20, 0x85, 0xa0,
      0x1680, 0x2000, 0x2001, 0x2002, 0x2003, 0x2004, 0x2005, 0x2006, 0x2007, 0x2008, 0x2009,
      0x200a, 0x2028, 0x2029, 0x202f, 0x205f, 0x3000], isDigit (Char.ofNat n) = false := by
    decide +kernel
  rw [← Char.ofNat_toNat c]
  refine hall c.toNat ?_
  simp only [isBlank, Bool.or_eq_true, Bool.and_eq_true, decide_eq_true_eq, beq_iff_eq] at h
  simp only [List.mem_cons, List.not_mem_nil, or_false]
  omega

/-- Digits that stand next to each other in a text. -/
structure IsRun (digits cs : List Char) : Prop where
  isInfix : digits <:+: cs
  digits : ∀ d ∈ digits, isDigit d = true

theorem IsRun.mono {digits cs ds : List Char} (h : IsRun digits cs) (hcs : cs <:+: ds) :
    IsRun digits ds :=
  ⟨h.isInfix.trans hcs, h.digits⟩

theorem digitValue?_lt {c : Char} {v : Nat} (h : digitValue? c = some v) : v < 10 := by
  unfold digitValue? at h
  split at h
  next hd =>
    simp only [Char.isDigit, Bool.and_eq_true, decide_eq_true_eq] at hd
    cases h
    have hle : c.val.toNat ≤ '9'.val.toNat := UInt32.le_iff_toNat_le.mp hd.2
    show c.val.toNat - 48 < 10
    have hnine : '9'.val.toNat = 57 := rfl
    omega
  next =>
    split at h
    · cases h
    · obtain ⟨start, hfind, rfl⟩ := Option.map_eq_some_iff.mp h
      have hrange := List.find?_some hfind
      simp only [Bool.and_eq_true, decide_eq_true_eq] at hrange
      omega

theorem natOfDigits_concat (cs : List Char) (c : Char) :
    natOfDigits (cs ++ [c]) = 10 * natOfDigits cs + (digitValue? c).getD 0 := by
  simp [natOfDigits]

theorem natOfDigits_lt (cs : List Char) : natOfDigits cs < 10 ^ cs.length := by
  induction cs using List.reverseRecOn with
  | nil => decide
  | append_singleton cs c ih =>
    have hvalue : (digitValue? c).getD 0 < 10 := by
      cases hv : digitValue? c with
      | none => decide
      | some v => exact digitValue?_lt hv
    rw [natOfDigits_concat, List.length_append, List.length_singleton, Nat.pow_succ]
    omega

theorem natOfDigits_toDigits (n : Nat) : natOfDigits (Nat.toDigits 10 n) = n := by
  have hfold : ∀ (cs : List Char) (init : Nat), (∀ c ∈ cs, c.isDigit = true) →
      cs.foldl (fun n c => 10 * n + (digitValue? c).getD 0) init = Nat.ofDigitChars 10 cs init := by
    intro cs
    induction cs with
    | nil => intro init _; rfl
    | cons c cs ih =>
      intro init h
      rw [List.foldl_cons, digitValue?_of_isDigit (h c List.mem_cons_self),
        ih _ (List.forall_mem_cons.mp h).2]
      rfl
  rw [natOfDigits, hfold _ 0 fun c hc => Nat.isDigit_of_mem_toDigits (by decide) (by decide) hc]
  exact Nat.ofDigitChars_ten_toDigits

theorem toList_intText {n : Int} (h : 0 ≤ n) : (intText n).toList = Nat.toDigits 10 n.toNat := by
  have habs : n.natAbs = n.toNat := by omega
  rw [intText, if_neg (by omega), natText, String.toList_ofList, habs]

end Text

namespace Number

/-- A number with few enough digits to be read. -/
def Short (n : Nat) : Prop := (Nat.toDigits 10 n).length ≤ digitLimit

theorem ofDigits_toDigits {n : Nat} (h : Short n) : ofDigits (Nat.toDigits 10 n) = .ok n := by
  rw [ofDigits, if_neg (Nat.not_lt.mpr h), Text.natOfDigits_toDigits]

theorem short_of_ofDigits {digits : List Char} {n : Nat} (h : ofDigits digits = .ok n) :
    Short n := by
  unfold ofDigits at h
  split at h
  · cases h
  next hlen =>
    cases h
    refine (Nat.length_toDigits_le_iff (by decide) (by decide)).mpr ?_
    exact Nat.lt_of_lt_of_le (Text.natOfDigits_lt digits)
      (Nat.pow_le_pow_right (by decide) (Nat.not_lt.mp hlen))

/-- A number with too many digits to be written. -/
def Long (n : Int) : Prop := ¬Short n.natAbs

/-- An error that is about the number of digits. -/
def IntegerError.Exceeds : IntegerError → Prop
  | .malformed => False
  | .tooLong digits => digitLimit < digits
  | .unwritable => True

theorem long_pow {k : Nat} (h : digitLimit ≤ k) : Long (Nat.pow 10 k) := by
  rw [Long, Short, Nat.length_toDigits_le_iff (by decide) (by decide), Int.natAbs_natCast,
    Nat.not_lt]
  exact Nat.pow_le_pow_right (by decide) h

theorem isWritable_iff {n : Int} : isWritable n = true ↔ ¬Long n := by
  rw [Long, not_not, Short, isWritable, decide_eq_true_iff]

theorem checkWritable_eq_ok_iff {numbers : List Int} :
    checkWritable numbers = .ok () ↔ ¬∃ n ∈ numbers, Long n := by
  have hall : numbers.all isWritable = true ↔ ¬∃ n ∈ numbers, Long n := by
    simp only [List.all_eq_true, isWritable_iff, not_exists, not_and]
  unfold checkWritable
  split
  next h => exact ⟨fun _ => hall.mp h, fun _ => rfl⟩
  next h => exact ⟨nofun, fun hnone => absurd (hall.mpr hnone) h⟩

theorem checkWritable_eq_error {numbers : List Int} (h : ∃ n ∈ numbers, Long n) :
    checkWritable numbers = .error .unwritable := by
  have hnotOk : ¬checkWritable numbers = .ok () := fun hok => checkWritable_eq_ok_iff.mp hok h
  unfold checkWritable at hnotOk ⊢
  split at hnotOk
  · exact absurd rfl hnotOk
  next hall => rw [if_neg hall]

theorem exceeds_of_checkWritable {numbers : List Int} {e : IntegerError}
    (h : checkWritable numbers = .error e) : e.Exceeds := by
  unfold checkWritable at h
  split at h
  · cases h
  · cases h
    trivial

end Number

end Keyforge
