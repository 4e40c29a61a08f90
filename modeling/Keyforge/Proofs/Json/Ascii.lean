import Keyforge.Json.Writer
import Keyforge.Proofs.Text.Trim
import Keyforge.Text.Utf8

/-!
# JSON texts are plain

Whatever value is written as JSON, its text consists of ASCII characters (`ascii_write`). So there is
nothing in it that cannot be encoded, and it can be written to a file (`unencodable?_write`).
-/

namespace Keyforge

namespace Text

def Ascii (cs : List Char) : Prop := ∀ c ∈ cs, c.toNat < 128

instance (cs : List Char) : Decidable (Ascii cs) :=
  List.decidableBAll (fun c : Char => c.toNat < 128) cs

section Ascii

variable {cs ds : List Char}

theorem Ascii.append (h : Ascii cs) (h' : Ascii ds) : Ascii (cs ++ ds) :=
  List.forall_mem_append.mpr ⟨h, h'⟩

theorem Ascii.of_subset (h : Ascii ds) (hsub : cs ⊆ ds) : Ascii cs := fun c hc => h c (hsub hc)

theorem Ascii.take (h : Ascii cs) (n : Nat) : Ascii (cs.take n) := h.of_subset (cs.take_subset n)

theorem Ascii.drop (h : Ascii cs) (n : Nat) : Ascii (cs.drop n) := h.of_subset (cs.drop_subset n)

theorem ascii_ofList (h : Ascii cs) : Ascii (String.ofList cs).toList := by
  rw [String.toList_ofList]
  exact h

theorem ascii_concat {s t : String} (h : Ascii s.toList) (h' : Ascii t.toList) :
    Ascii (s ++ t).toList := by
  rw [String.toList_append]
  exact h.append h'

theorem ascii_replicate_zero (n : Nat) : Ascii (List.replicate n '0') := by
  intro c hc
  rw [(List.mem_replicate.mp hc).2]
  decide

end Ascii

/-! ### Digits -/

theorem ascii_digitChar (n : Nat) : (Nat.digitChar n).toNat < 128 := by
  by_cases hn : n < 16
  · have hall : ∀ m < 16, (Nat.digitChar m).toNat < 128 := by decide
    exact hall n hn
  · have hstar : Nat.digitChar n = '*' := by
      unfold Nat.digitChar
      repeat rw [if_neg (by omega)]
    rw [hstar]
    decide

theorem ascii_toDigitsCore (base fuel n : Nat) {digits : List Char} (h : Ascii digits) :
    Ascii (Nat.toDigitsCore base fuel n digits) := by
  induction fuel generalizing n digits with
  | zero => exact h
  | succ fuel ih =>
    have hmore : Ascii (Nat.digitChar (n % base) :: digits) :=
      List.forall_mem_cons.mpr ⟨ascii_digitChar _, h⟩
    unfold Nat.toDigitsCore
    dsimp only
    split
    · exact hmore
    · exact ih _ hmore

theorem ascii_toDigits (base n : Nat) : Ascii (Nat.toDigits base n) :=
  ascii_toDigitsCore base _ n (List.forall_mem_nil _)

theorem ascii_hexText (width n : Nat) : Ascii (hexText width n) :=
  (ascii_replicate_zero _).append (ascii_toDigits 16 n)

theorem ascii_natText (n : Nat) : Ascii (natText n).toList := ascii_ofList (ascii_toDigits 10 n)

theorem ascii_intText (n : Int) : Ascii (intText n).toList := by
  unfold intText
  split
  · exact ascii_concat (by decide) (ascii_natText _)
  · exact ascii_natText _

/-! ### Encoding -/

theorem codes_ascii {cs : List Char} (h : Ascii cs) : codes cs = cs.map Char.toNat := by
  have hhalf : ∀ c : Char, c.toNat < 128 → half? c = none := by
    intro c hc
    have hdistance : ¬halfDistance ≤ c.toNat := by
      unfold halfDistance
      omega
    simp [half?, hdistance]
  have hmark : ∀ c : Char, c.toNat < 128 → (c == mark) = false := by
    intro c hc
    refine beq_eq_false_iff_ne.mpr fun heq => ?_
    rw [heq] at hc
    exact absurd hc (by decide)
  induction cs with
  | nil => rfl
  | cons c cs ih =>
    obtain ⟨hc, hcs⟩ := List.forall_mem_cons.mp h
    cases cs with
    | nil => simp [codes, hhalf c hc]
    | cons d ds =>
      have ih := ih hcs
      simp [codes, hhalf c hc, hmark c hc, ih]

theorem unencodable?_ascii {s : String} (h : Ascii s.toList) : unencodable? s = none := by
  have hnone : ∀ (place : Nat) (codes : List Nat), (∀ code ∈ codes, code < 128) →
      unencodableFrom? (fun _ => false) place codes = none := by
    intro place codes hcodes
    induction codes generalizing place with
    | nil => rfl
    | cons code codes ih =>
      obtain ⟨hcode, hrest⟩ := List.forall_mem_cons.mp hcodes
      have hhalf : isHalf code = false := by
        simp only [isHalf, Bool.and_eq_false_iff, decide_eq_false_iff_not]
        omega
      simp [unencodableFrom?, hhalf, ih _ hrest]
  rw [unencodable?, codes_ascii h]
  exact hnone 0 _ (List.forall_mem_map.mpr h)

end Text

open Keyforge.Text

/-! ### Numbers -/

namespace Number

theorem ascii_exponentText (style : Style) (e : Int) : Ascii (style.exponentText e).toList := by
  have hsign : Ascii (if e < 0 then "-" else "+").toList := by
    split <;> decide
  exact ascii_concat (ascii_concat (by decide) hsign)
    (ascii_ofList ((ascii_replicate_zero _).append (ascii_toDigits 10 _)))

theorem ascii_decimalText (style : Style) (t : Decimal) : Ascii (style.decimalText t).toList := by
  unfold Style.decimalText
  extract_lets digits lead whole padded fraction tail
  have hdigits : Ascii digits := ascii_toDigits 10 t.digits
  have hpadded : Ascii padded := hdigits.append (ascii_replicate_zero _)
  split
  · split
    · exact ascii_concat (by decide) (ascii_ofList ((ascii_replicate_zero _).append hdigits))
    · refine ascii_concat (ascii_concat (ascii_ofList (hpadded.take _)) (by decide)) ?_
      split
      · decide
      · exact ascii_ofList (hpadded.drop _)
  · refine ascii_concat (ascii_concat (ascii_ofList (hdigits.take 1)) ?_) (ascii_exponentText style _)
    split
    · decide
    · exact ascii_concat (by decide) (ascii_ofList (hdigits.drop 1))

theorem ascii_floatText {style : Style} (hnan : Ascii style.nan.toList)
    (hinfinity : Ascii style.infinity.toList) (x : Float) : Ascii (style.floatText x).toList := by
  unfold Style.floatText
  split
  · exact hnan
  · refine ascii_concat ?_ hinfinity
    split <;> decide
  · refine ascii_concat ?_ ?_
    · split <;> decide
    · split
      · decide
      · exact ascii_decimalText style _

end Number

/-! ### Values -/

namespace Json

theorem ascii_unitEscape (code : Nat) : Ascii (unitEscape code) :=
  List.forall_mem_cons.mpr ⟨by decide, List.forall_mem_cons.mpr ⟨by decide, ascii_hexText 4 code⟩⟩

theorem ascii_stringChar (c : Char) : Ascii (stringChar c) := by
  unfold stringChar
  -- the characters with an escape of their own come first
  iterate 7
    split
    · decide
  split
  next hprintable =>
    simp only [Bool.and_eq_true, decide_eq_true_eq] at hprintable
    intro d hd
    rw [List.mem_singleton.mp hd]
    omega
  next =>
    split
    · exact ascii_unitEscape _
    · exact (ascii_unitEscape _).append (ascii_unitEscape _)

theorem ascii_stringText (s : String) : Ascii (stringText s).toList := by
  unfold stringText
  rw [String.toList_ofList]
  refine Ascii.append (List.forall_mem_cons.mpr ⟨by decide, fun c hc => ?_⟩) (by decide)
  obtain ⟨code, -, hc⟩ := List.mem_flatMap.mp hc
  unfold stringCode at hc
  split at hc
  · exact ascii_unitEscape code c hc
  · exact ascii_stringChar _ c hc

theorem ascii_keyText (key : Datum) : Ascii (keyText key).toList := by
  unfold keyText
  split <;> exact ascii_stringText _

theorem ascii_enclosed {texts : List String} (h : ∀ text ∈ texts, Ascii text.toList)
    {opening closing : String} (hopening : Ascii opening.toList) (hclosing : Ascii closing.toList) :
    Ascii (opening ++ String.intercalate ", " texts ++ closing).toList := by
  refine ascii_concat (ascii_concat hopening ?_) hclosing
  rw [String.toList_intercalate]
  exact forall_mem_intercalate (show Ascii ", ".toList by decide) (List.forall_mem_map.mpr h)

mutual

theorem ascii_write : (value : Datum) → Ascii (write value).toList
  | .null | .bytes _ => by
    rw [write]
    decide
  | .bool b => by cases b <;> decide
  | .int n => by
    rw [write]
    exact ascii_intText n
  | .float x => by
    rw [write]
    exact Number.ascii_floatText (by decide) (by decide) x
  | .text _ | .date _ | .stamp _ => by
    rw [write]
    exact ascii_stringText _
  | .list items | .tuple items | .set items => by
    rw [write]
    exact ascii_enclosed (ascii_writeItems items) (by decide) (by decide)
  | .map entries => by
    rw [write]
    exact ascii_enclosed (ascii_writeEntries entries) (by decide) (by decide)
  | .enclosing value => by
    rw [write]
    exact ascii_write value

theorem ascii_writeItems : (items : List Datum) → ∀ text ∈ writeItems items, Ascii text.toList
  | [] => List.forall_mem_nil _
  | item :: rest => List.forall_mem_cons.mpr ⟨ascii_write item, ascii_writeItems rest⟩

theorem ascii_writeEntries :
    (entries : List (Datum × Datum)) → ∀ text ∈ writeEntries entries, Ascii text.toList
  | [] => List.forall_mem_nil _
  | (key, value) :: rest => by
    rw [writeEntries]
    refine List.forall_mem_cons.mpr ⟨?_, ascii_writeEntries rest⟩
    exact ascii_concat (ascii_concat (ascii_keyText key) (by decide)) (ascii_write value)

end

theorem unencodable?_write (value : Datum) : unencodable? (write value) = none :=
  unencodable?_ascii (ascii_write value)

end Json

end Keyforge
