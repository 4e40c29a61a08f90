import Keyforge.Text.CodePoint
import Keyforge.Text.Lines
import Mathlib.Data.List.DropRight

/-!
# Trimmed texts

Readers trim what they are given, and writers put white space back where it separates parts. The
facts here say when trimming changes nothing (`Trimmed`).
-/

namespace Keyforge.Text

variable {cs : List Char}

/-- The character at an end of a text, if there is one, is no white space. -/
def NotBlank (c? : Option Char) : Prop := ∀ c, c? = some c → isBlank c = false

@[simp] theorem notBlank_none : NotBlank none := nofun

@[simp] theorem notBlank_some {c : Char} : NotBlank (some c) ↔ isBlank c = false := by
  simp [NotBlank]

/-- A text with no white space at its ends. -/
structure Trimmed (cs : List Char) : Prop where
  head : ∀ c, cs.head? = some c → isBlank c = false
  last : ∀ c, cs.getLast? = some c → isBlank c = false

theorem trimmed_nil : Trimmed [] := ⟨by simp, by simp⟩

theorem trimmed_of_ends {a b : Char} {ds : List Char} (ha : isBlank a = false)
    (hb : isBlank b = false) (h : a :: cs = ds ++ [b]) : Trimmed (a :: cs) := by
  refine ⟨fun c hc => ?_, fun c hc => ?_⟩
  · simp only [List.head?_cons, Option.some.injEq] at hc
    rw [← hc]
    exact ha
  · rw [h, List.getLast?_append] at hc
    simp only [List.getLast?_singleton, Option.some_or, Option.some.injEq] at hc
    rw [← hc]
    exact hb

theorem Trimmed.append {ds : List Char} (hc : NotBlank cs.head?) (hd : NotBlank ds.getLast?)
    (hcs : cs ≠ []) (hds : ds ≠ []) : Trimmed (cs ++ ds) := by
  refine ⟨fun c h => hc c ?_, fun d h => hd d ?_⟩
  · rwa [List.head?_append_of_ne_nil cs hcs] at h
  · rwa [List.getLast?_append_of_ne_nil cs hds] at h

/-! ### Trimming one side -/

theorem dropWhileEnd_eq_rdropWhile (p : Char → Bool) (cs : List Char) :
    dropWhileEnd p cs = cs.rdropWhile p := rfl

theorem trimLeft_eq_self (h : NotBlank cs.head?) : trimLeft cs = cs := by
  cases cs with
  | nil => rfl
  | cons c rest => exact List.dropWhile_cons_of_neg (by simp [h c rfl])

theorem trimRight_eq_self (h : NotBlank cs.getLast?) : trimRight cs = cs := by
  refine List.rdropWhile_eq_self_iff.mpr fun hne => ?_
  simp [h _ (List.getLast?_eq_some_getLast hne)]

section Ends

variable {α : Type u} {p : α → Bool} {x : α}

theorem head?_dropWhile (xs : List α) (h : (xs.dropWhile p).head? = some x) : p x = false := by
  have hnot := List.head?_dropWhile_not p xs
  rw [h] at hnot
  simpa using hnot

theorem getLast?_rdropWhile (xs : List α) (h : (xs.rdropWhile p).getLast? = some x) :
    p x = false := by
  rw [List.rdropWhile, List.getLast?_reverse] at h
  exact head?_dropWhile _ h

theorem head?_dropWhile_rdropWhile (xs : List α)
    (h : ((xs.dropWhile p).rdropWhile p).head? = some x) : p x = false := by
  obtain ⟨tail, htail⟩ := List.rdropWhile_prefix p (xs.dropWhile p)
  refine head?_dropWhile xs ?_
  rw [← htail, List.head?_append, h]
  rfl

theorem forall_mem_intercalate {P : α → Prop} {sep : List α} (hsep : ∀ x ∈ sep, P x)
    {pieces : List (List α)} (h : ∀ piece ∈ pieces, ∀ x ∈ piece, P x) :
    ∀ x ∈ sep.intercalate pieces, P x := by
  induction pieces with
  | nil => exact List.forall_mem_nil _
  | cons piece pieces ih =>
    obtain ⟨hpiece, hrest⟩ := List.forall_mem_cons.mp h
    cases pieces with
    | nil => rwa [List.intercalate_singleton]
    | cons second pieces =>
      rw [List.intercalate_cons_cons, List.forall_mem_append, List.forall_mem_append]
      exact ⟨⟨hpiece, hsep⟩, ih hrest⟩

end Ends

theorem head_trimLeft (cs : List Char) : NotBlank (trimLeft cs).head? :=
  fun _ => head?_dropWhile cs

theorem last_trimRight (cs : List Char) : NotBlank (trimRight cs).getLast? :=
  fun _ => getLast?_rdropWhile cs

theorem trimRight_isPrefix (cs : List Char) : trimRight cs <+: cs :=
  List.rdropWhile_prefix isBlank cs

theorem exists_trimRight_append (cs : List Char) :
    ∃ ws, (∀ c ∈ ws, isBlank c = true) ∧ cs = trimRight cs ++ ws :=
  ⟨cs.rtakeWhile isBlank, fun _ hc => List.mem_rtakeWhile_imp hc,
    List.rdropWhile_append_rtakeWhile.symm⟩

theorem trimRight_append (h : NotBlank cs.getLast?) (ds : List Char) :
    trimRight (cs ++ ds) = cs ++ trimRight ds := by
  rw [trimRight, dropWhileEnd, List.reverse_append, List.dropWhile_append]
  split
  next hnil =>
    have hds : trimRight ds = [] := by
      rw [trimRight, dropWhileEnd, List.isEmpty_iff.mp hnil, List.reverse_nil]
    rw [hds, List.append_nil]
    exact trimRight_eq_self h
  next => rw [List.reverse_append, List.reverse_reverse, trimRight, dropWhileEnd]

theorem trimRight_append_blanks {ws : List Char} (hlast : NotBlank cs.getLast?)
    (hws : ∀ c ∈ ws, isBlank c = true) : trimRight (cs ++ ws) = cs := by
  have hnil : trimRight ws = [] := List.rdropWhile_eq_nil_iff.mpr hws
  rw [trimRight_append hlast, hnil, List.append_nil]

theorem trimLeft_suffix (cs : List Char) : trimLeft cs <:+ cs := List.dropWhile_suffix isBlank

theorem exists_append_trim_append (cs : List Char) :
    ∃ us ws, (∀ c ∈ us, isBlank c = true) ∧ (∀ c ∈ ws, isBlank c = true) ∧
      cs = us ++ trim cs ++ ws ∧ us.length = cs.length - (trimLeft cs).length := by
  obtain ⟨ws, hws, hright⟩ := exists_trimRight_append (trimLeft cs)
  have hleft : cs.takeWhile isBlank ++ trimLeft cs = cs := List.takeWhile_append_dropWhile
  refine ⟨cs.takeWhile isBlank, ws, fun _ hc => List.mem_takeWhile_imp hc, hws, ?_, ?_⟩
  · rw [List.append_assoc, trim, ← hright, hleft]
  · rw [← congrArg List.length hleft, List.length_append, Nat.add_sub_cancel]

theorem trim_isInfix (cs : List Char) : trim cs <:+: cs :=
  (trimRight_isPrefix _).isInfix.trans (trimLeft_suffix cs).isInfix

theorem trim_sublist (cs : List Char) : (trim cs).Sublist cs :=
  (trim_isInfix cs).sublist

/-! ### Trimming both sides -/

theorem trim_eq_self (h : Trimmed cs) : trim cs = cs := by
  rw [trim, trimLeft_eq_self h.head, trimRight_eq_self h.last]

theorem trimmed_trim (cs : List Char) : Trimmed (trim cs) :=
  ⟨fun _ => head?_dropWhile_rdropWhile cs, last_trimRight (trimLeft cs)⟩

@[simp] theorem trim_nil : trim [] = [] := rfl

theorem trim_blank_cons {c : Char} (h : isBlank c = true) (cs : List Char) :
    trim (c :: cs) = trim cs := by
  rw [trim, trim, trimLeft, List.dropWhile_cons_of_pos h]
  rfl

theorem trim_append_blanks {ws : List Char} (h : ∀ c ∈ ws, isBlank c = true) (cs : List Char) :
    trim (cs ++ ws) = trim cs := by
  rw [trim, trim, trimLeft, trimLeft, List.dropWhile_append]
  split
  next hnil => rw [List.isEmpty_iff.mp hnil, List.dropWhile_eq_nil_iff.mpr h]
  next =>
    rw [trimRight, dropWhileEnd, List.reverse_append, List.dropWhile_append_of_pos (by simpa using h)]
    rfl

theorem trim_append_blank {c : Char} (h : isBlank c = true) (cs : List Char) :
    trim (cs ++ [c]) = trim cs :=
  trim_append_blanks (List.forall_mem_singleton.mpr h) cs

theorem trim_trimRight (cs : List Char) : trim (trimRight cs) = trim cs := by
  obtain ⟨ws, hws, hcs⟩ := exists_trimRight_append cs
  rw [← trim_append_blanks hws (trimRight cs), ← hcs]

theorem trim_eq_nil_iff : trim cs = [] ↔ ∀ c ∈ cs, isBlank c = true := by
  constructor
  · intro h
    rw [← List.takeWhile_append_dropWhile (p := isBlank) (l := cs)]
    exact List.forall_mem_append.mpr
      ⟨fun _ => List.mem_takeWhile_imp, List.rdropWhile_eq_nil_iff.mp h⟩
  · intro h
    rw [trim, trimLeft, List.dropWhile_eq_nil_iff.mpr h]
    rfl

theorem trimLeft_append_of_ne_nil (h : trimLeft cs ≠ []) (ds : List Char) :
    trimLeft (cs ++ ds) = trimLeft cs ++ ds := by
  rw [trimLeft, List.dropWhile_append, if_neg (by simpa [trimLeft] using h)]
  rfl

theorem trimLeft_ne_nil (h : ∃ c ∈ cs, isBlank c = false) : trimLeft cs ≠ [] := by
  intro hnil
  obtain ⟨c, hc, hblank⟩ := h
  rw [List.dropWhile_eq_nil_iff.mp hnil c hc] at hblank
  cases hblank

theorem exists_not_blank (hne : cs ≠ []) (hlast : NotBlank cs.getLast?) :
    ∃ c ∈ cs, isBlank c = false :=
  ⟨cs.getLast hne, List.getLast_mem hne, hlast _ (List.getLast?_eq_some_getLast hne)⟩

/-! ### Small readers -/

theorem takeWhile_append_stop {α : Type u} {p : α → Bool} {cs ds : List α}
    (hc : ∀ c ∈ cs, p c = true) (hd : ∀ d, ds.head? = some d → p d = false) :
    (cs ++ ds).takeWhile p = cs ∧ (cs ++ ds).dropWhile p = ds := by
  rw [List.takeWhile_append_of_pos hc, List.dropWhile_append_of_pos hc]
  cases ds with
  | nil => simp
  | cons d ds => simp [hd d rfl]

@[simp] theorem after?_append (ps cs : List Char) : after? ps (ps ++ cs) = some cs := by
  induction ps with
  | nil => rfl
  | cons p ps ih => simp [after?, ih]

theorem eq_append_of_after? {ps rest : List Char} (h : after? ps cs = some rest) :
    cs = ps ++ rest := by
  fun_induction after? ps cs with
  | case1 cs =>
    cases h
    rfl
  | case2 p ps c cs hp ih =>
    rw [ih h, List.cons_append, beq_iff_eq.mp hp]
  | case3 => cases h
  | case4 => cases h

theorem skipBlanks1?_cons {b : Char} (hb : isBlank b = true)
    (hc : NotBlank cs.head?) : skipBlanks1? (b :: cs) = some cs := by
  rw [skipBlanks1?, if_pos hb, trimLeft_eq_self hc]

theorem skipBlanks1?_append_of_ne_nil {rest : List Char} (h : skipBlanks1? cs = some rest)
    (hne : rest ≠ []) (ds : List Char) : skipBlanks1? (cs ++ ds) = some (rest ++ ds) := by
  cases cs with
  | nil => cases h
  | cons c cs =>
    rw [skipBlanks1?] at h
    split at h
    next hc =>
      cases h
      rw [List.cons_append, skipBlanks1?, if_pos hc, trimLeft_append_of_ne_nil hne]
    next => cases h

theorem eq_append_of_skipBlanks1? {rest : List Char} (h : skipBlanks1? cs = some rest) :
    ∃ ws, ws ≠ [] ∧ (∀ c ∈ ws, isBlank c = true) ∧ cs = ws ++ rest ∧
      NotBlank rest.head? := by
  cases cs with
  | nil => cases h
  | cons c cs =>
    rw [skipBlanks1?] at h
    split at h
    next hc =>
      cases h
      refine ⟨c :: cs.takeWhile isBlank, by simp, ?_, ?_, head_trimLeft cs⟩
      · intro d hd
        rcases List.mem_cons.mp hd with rfl | hd
        · exact hc
        · exact List.mem_takeWhile_imp hd
      · rw [List.cons_append, trimLeft, List.takeWhile_append_dropWhile]
    next => cases h

/-! ### Code points -/

theorem size_append (cs ds : List Char) : size (cs ++ ds) = size cs + size ds := by
  rw [size, size, size, List.countP_append]

theorem size_cons_of_ne {c : Char} (h : c ≠ mark) (cs : List Char) : size (c :: cs) = size cs + 1 := by
  rw [size, List.countP_cons_of_pos (by simpa using h), size]

theorem size_of_blanks (h : ∀ c ∈ cs, isBlank c = true) : size cs = cs.length := by
  refine List.countP_eq_length.mpr fun c hc => bne_iff_ne.mpr fun hmark => ?_
  exact absurd (hmark ▸ h c hc) (by decide)

end Keyforge.Text
