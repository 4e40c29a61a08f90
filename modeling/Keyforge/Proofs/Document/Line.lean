import Keyforge.Document.Line
import Keyforge.Proofs.Layout.Name
import Keyforge.Proofs.Text.Digit

/-!
# Reading lines back

For each form of a line: what is known of the parts that were read from it, and that these parts are
read back from the line they are written as.
-/

namespace Keyforge.Document.Line

open Keyforge.Text

variable {cs rest digits name value : List Char}

/-! ### Parts of lines -/

theorem item?_dash (h : NotBlank cs.head?) : item? ('-' :: ' ' :: cs) = some cs := by
  rw [item?, skipBlanks1?_cons (by decide) h]

theorem digits?_append (n : Nat) (h : ∀ c, rest.head? = some c → isDigit c = false) :
    digits? (Nat.toDigits 10 n ++ rest) = some (Nat.toDigits 10 n, rest) := by
  obtain ⟨htake, hdrop⟩ := takeWhile_append_stop (fun c hc => isDigit_of_mem_toDigits hc) h
  rw [digits?, htake, hdrop]
  simp [Nat.toDigits_ne_nil]

theorem suffix_of_after? {ps : List Char} (h : after? ps cs = some rest) : rest <:+ cs :=
  ⟨ps, (eq_append_of_after? h).symm⟩

theorem suffix_of_skipBlanks1? (h : skipBlanks1? cs = some rest) : rest <:+ cs := by
  obtain ⟨ws, -, -, hcs, -⟩ := eq_append_of_skipBlanks1? h
  exact ⟨ws, hcs.symm⟩

theorem suffix_of_item? (h : item? cs = some rest) : rest <:+ cs := by
  unfold item? at h
  split at h
  · exact (suffix_of_skipBlanks1? h).trans (List.suffix_cons _ _)
  · cases h

theorem suffix_of_digits? (h : digits? cs = some (digits, rest)) : rest <:+ cs := by
  unfold digits? at h
  dsimp only at h
  split at h
  · cases h
  · cases h
    exact List.dropWhile_suffix _

theorem isRun_of_digits? (h : digits? cs = some (digits, rest)) : IsRun digits cs := by
  unfold digits? at h
  dsimp only at h
  split at h
  · cases h
  · cases h
    exact ⟨(List.takeWhile_prefix _).isInfix, fun d hd => List.mem_takeWhile_imp hd⟩

theorem visible_toDigits (n : Nat) : Visible (Nat.toDigits 10 n) := by
  intro c hc
  have := Name.bounds_of_isDigit (Nat.isDigit_of_mem_toDigits (by decide) (by decide) hc)
  omega

/-! ### Headings -/

theorem layerHeading?_line (n : Nat) (h : Phrase name) :
    layerHeading? ("## Layer ".toList ++ Nat.toDigits 10 n ++ ": ".toList ++ name) =
      some (Nat.toDigits 10 n, String.ofList name) := by
  have hline : "## Layer ".toList ++ Nat.toDigits 10 n ++ ": ".toList ++ name =
      ['#', '#'] ++ (' ' :: ("Layer".toList ++ (' ' ::
        (Nat.toDigits 10 n ++ ([':'] ++ (' ' :: name)))))) := by
    simp
  have hlayer : skipBlanks1? (' ' :: ("Layer".toList ++ (' ' ::
      (Nat.toDigits 10 n ++ ([':'] ++ (' ' :: name)))))) =
      some ("Layer".toList ++ (' ' :: (Nat.toDigits 10 n ++ ([':'] ++ (' ' :: name))))) := by
    refine skipBlanks1?_cons (by decide) fun c hc => ?_
    cases hc
    decide
  have hnumber : skipBlanks1? (' ' :: (Nat.toDigits 10 n ++ ([':'] ++ (' ' :: name)))) =
      some (Nat.toDigits 10 n ++ ([':'] ++ (' ' :: name))) :=
    skipBlanks1?_cons (by decide) fun c hc => (visible_toDigits n).head_append Nat.toDigits_ne_nil hc
  have hcolon : digits? (Nat.toDigits 10 n ++ ([':'] ++ (' ' :: name))) =
      some (Nat.toDigits 10 n, [':'] ++ (' ' :: name)) :=
    digits?_append n fun c hc => by cases hc; decide
  have hname : skipBlanks1? (' ' :: name) = some name := skipBlanks1?_cons (by decide) h.trimmed.head
  rw [hline, layerHeading?]
  simp only [after?_append, hlayer, hnumber, hcolon, hname, Option.bind_eq_bind, Option.bind_some,
    trim_eq_self h.trimmed]
  simp [h.ne_nil]

theorem of_layerHeading? {name : String} (h : layerHeading? cs = some (digits, name)) :
    IsRun digits cs ∧ (OneLine cs → Phrase name.toList) := by
  simp only [layerHeading?, Option.bind_eq_bind, Option.bind_eq_some_iff] at h
  obtain ⟨a, ha, b, hb, c, hc, d, hd, ⟨number, e⟩, he, f, hf, g, hg, h⟩ := h
  have hnumber : d <:+ cs :=
    (suffix_of_skipBlanks1? hd).trans <| (suffix_of_after? hc).trans <|
      (suffix_of_skipBlanks1? hb).trans (suffix_of_after? ha)
  have hname : g <:+ cs :=
    (suffix_of_skipBlanks1? hg).trans <| (suffix_of_after? hf).trans <|
      (suffix_of_digits? he).trans hnumber
  obtain ⟨-, -, -, -, hhead⟩ := eq_append_of_skipBlanks1? hg
  dsimp only at h
  split at h
  · cases h
  next hne =>
    cases h
    refine ⟨(isRun_of_digits? he).mono hnumber.isInfix, fun hcs => ?_⟩
    rw [String.toList_ofList]
    refine phrase_trim (fun hnil => ?_) (hcs.sublist hname.sublist)
    cases g with
    | nil => exact hne rfl
    | cons x g =>
      have hx := trim_eq_nil_iff.mp hnil x List.mem_cons_self
      rw [hhead x rfl] at hx
      cases hx

/-! ### Properties -/

/-- A name that ends nowhere but at its end: the mark for the end of a name does not occur in it,
apart from its very start. -/
def BoldFree (name : List Char) : Prop := ¬['*', '*', ':'] <:+: name.tail

theorem splitBold_mark (h : name ≠ []) (value : List Char) :
    splitBold name ('*' :: '*' :: ':' :: value) = some (name.reverse, value) := by
  cases name with
  | nil => exact absurd rfl h
  | cons c name => rfl

theorem splitBold_step {c : Char} (h : name = [] ∨ ¬['*', '*', ':'] <+: c :: rest) :
    splitBold name (c :: rest) = splitBold (c :: name) rest := by
  rw [splitBold]
  split
  next value hname hcs =>
    rcases h with rfl | h
    · cases hname
    · exact absurd (hcs ▸ List.prefix_append ['*', '*', ':'] value) h
  next => rfl

/-- The mark for the end of a name is not found across the end of the name. -/
theorem not_prefix_append_mark {c : Char} (h : ¬['*', '*', ':'] <+: c :: cs) :
    ¬['*', '*', ':'] <+: c :: (cs ++ '*' :: '*' :: ':' :: value) := by
  rintro ⟨tail, htail⟩
  rcases cs with _ | ⟨d, _ | ⟨e, cs⟩⟩
  · cases htail
  · cases htail
  · refine h ⟨cs, ?_⟩
    cases htail
    rfl

theorem splitBold_append (hname : name ≠ []) (h : ¬['*', '*', ':'] <:+: cs) (value : List Char) :
    splitBold name (cs ++ '*' :: '*' :: ':' :: value) = some (name.reverse ++ cs, value) := by
  induction cs generalizing name with
  | nil => rw [List.nil_append, splitBold_mark hname, List.append_nil]
  | cons c cs ih =>
    rw [List.cons_append, splitBold_step, ih (by simp)]
    · simp
    · exact fun hin => h (hin.trans (List.suffix_cons c cs).isInfix)
    · exact .inr (not_prefix_append_mark fun hpre => h hpre.isInfix)

theorem eq_append_of_splitBold {raw : List Char} (h : splitBold name cs = some (raw, value)) :
    ∃ tail, raw = name.reverse ++ tail ∧ cs = tail ++ '*' :: '*' :: ':' :: value ∧ raw ≠ [] ∧
      (name ≠ [] → ¬['*', '*', ':'] <:+: tail) ∧ ¬['*', '*', ':'] <:+: tail.tail := by
  induction cs generalizing name with
  | nil => cases h
  | cons c rest ih =>
    -- a mark ends the name, unless nothing stands before it
    by_cases hmark : name ≠ [] ∧ ['*', '*', ':'] <+: c :: rest
    · obtain ⟨hname, tail, htail⟩ := hmark
      rw [← htail] at h ⊢
      rw [show ['*', '*', ':'] ++ tail = '*' :: '*' :: ':' :: tail from rfl, splitBold_mark hname] at h
      cases h
      exact ⟨[], by simp, rfl, by simpa using hname, by simp, by simp⟩
    · have hstep : name = [] ∨ ¬['*', '*', ':'] <+: c :: rest := by
        by_cases hname : name = []
        · exact .inl hname
        · exact .inr fun hpre => hmark ⟨hname, hpre⟩
      rw [splitBold_step hstep] at h
      obtain ⟨tail, rfl, rfl, hne, hfree, -⟩ := ih h
      have hfree := hfree (by simp)
      refine ⟨c :: tail, by simp, rfl, hne, fun hname hin => ?_, hfree⟩
      rcases List.infix_cons_iff.mp hin with hpre | hin
      · exact hmark ⟨hname, hpre.trans (List.prefix_append (c :: tail) _)⟩
      · exact hfree hin

theorem isSome_splitBold_iff (hname : name ≠ []) :
    (splitBold name cs).isSome = true ↔ ['*', '*', ':'] <:+: cs := by
  constructor
  · intro h
    obtain ⟨⟨raw, value⟩, h⟩ := Option.isSome_iff_exists.mp h
    obtain ⟨tail, -, rfl, -⟩ := eq_append_of_splitBold h
    exact ⟨tail, value, by simp⟩
  · intro h
    induction cs generalizing name with
    | nil => exact absurd (List.infix_nil.mp h) (by simp)
    | cons c rest ih =>
      by_cases hpre : ['*', '*', ':'] <+: c :: rest
      · obtain ⟨tail, htail⟩ := hpre
        rw [← htail]
        exact Option.isSome_of_eq_some (splitBold_mark hname tail)
      · rw [splitBold_step (.inr hpre)]
        rcases List.infix_cons_iff.mp h with h | h
        · exact absurd h hpre
        · exact ih (by simp) h

theorem eq_append_of_property? {raw : List Char} (h : property? cs = some (raw, value)) :
    ∃ tail, cs = ['*', '*'] ++ raw ++ '*' :: '*' :: ':' :: tail ∧ value = trim tail ∧ raw ≠ [] ∧
      BoldFree raw := by
  simp only [property?, Option.bind_eq_bind, Option.bind_eq_some_iff] at h
  obtain ⟨rest, hrest, ⟨name, tail⟩, hsplit, h⟩ := h
  cases h
  obtain ⟨found, rfl, rfl, hne, -, hfree⟩ := eq_append_of_splitBold hsplit
  exact ⟨tail, by rw [eq_append_of_after? hrest]; simp, rfl, hne, hfree⟩

theorem tail_infix_tail (us cs ws : List Char) : cs.tail <:+: (us ++ cs ++ ws).tail := by
  cases us with
  | nil =>
    cases cs with
    | nil => exact List.nil_infix
    | cons c cs => exact ⟨[], ws, by simp⟩
  | cons u us => exact (List.tail_suffix cs).isInfix.trans ⟨us, ws, by simp⟩

theorem BoldFree.trim (h : BoldFree name) : BoldFree (Text.trim name) := by
  intro hin
  obtain ⟨us, ws, -, -, hname, -⟩ := exists_append_trim_append name
  have hsub := tail_infix_tail us (Text.trim name) ws
  rw [← hname] at hsub
  exact h (hin.trans hsub)

/-- A text with a blank before it, nothing if it is empty. -/
def spaced (value : List Char) : List Char := if value = [] then [] else ' ' :: value

theorem trim_spaced (h : Trimmed value) : Text.trim (spaced value) = value := by
  unfold spaced
  split
  next hnil => rw [hnil, trim_nil]
  next => rw [trim_blank_cons (by decide), trim_eq_self h]

theorem trim_label {label : List Char} (hne : label ≠ [])
    (hlabel : NotBlank label.head?) (hvalue : Trimmed value) :
    Text.trim (label ++ ':' :: ' ' :: value) = label ++ ':' :: spaced value := by
  unfold spaced
  split
  next hnil =>
    have hcut : label ++ [':', ' '] = (label ++ [':']) ++ [' '] := by simp
    rw [hnil, hcut, trim_append_blank (by decide), trim_eq_self]
    exact Trimmed.append hlabel (fun d hd => by cases hd; decide) hne (by simp)
  next hv =>
    refine trim_eq_self (Trimmed.append hlabel (fun d hd => hvalue.last d ?_) hne (by simp))
    rwa [List.getLast?_cons_cons, List.getLast?_cons_of_ne_nil hv] at hd

theorem property?_line (hne : name ≠ []) (hname : BoldFree name) (hvalue : Trimmed value) :
    property? (Text.trim (['*', '*'] ++ name ++ ['*', '*'] ++ ':' :: ' ' :: value)) =
      some (name, value) := by
  obtain ⟨c, cs, rfl⟩ := List.exists_cons_of_ne_nil hne
  have hlabel : NotBlank (['*', '*'] ++ (c :: cs) ++ ['*', '*']).head? := by
    rintro d ⟨⟩
    decide
  have hline : ['*', '*'] ++ (c :: cs) ++ ['*', '*'] ++ ':' :: spaced value =
      ['*', '*'] ++ (c :: (cs ++ '*' :: '*' :: ':' :: spaced value)) := by
    simp
  have hsplit : splitBold [c] (cs ++ '*' :: '*' :: ':' :: spaced value) =
      some (c :: cs, spaced value) := splitBold_append (List.cons_ne_nil c []) hname _
  rw [trim_label (by simp) hlabel hvalue, hline, property?]
  simp only [after?_append, Option.bind_eq_bind, Option.bind_some, splitBold_step (.inl rfl), hsplit,
    trim_spaced hvalue]
  rfl

theorem isSome_property?_iff (hvalue : Trimmed value) :
    (property? (Text.trim (['*', '*', '*', '*'] ++ ':' :: ' ' :: value))).isSome = true ↔
      ['*', '*', ':'] <:+: value := by
  have hlabel : NotBlank ['*', '*', '*', '*'].head? := by
    rintro d ⟨⟩
    decide
  -- the mark at the very start cannot end the name, so it becomes a part of it
  have hsteps : splitBold [] ('*' :: '*' :: ':' :: spaced value) =
      splitBold [':', '*', '*'] (spaced value) := by
    rw [splitBold_step (.inl rfl), splitBold_step (.inr (by simp)), splitBold_step (.inr (by simp))]
  have hproperty : property? (['*', '*'] ++ ('*' :: '*' :: ':' :: spaced value)) =
      (splitBold [':', '*', '*'] (spaced value)).map fun found => (found.1, Text.trim found.2) := by
    rw [property?]
    simp only [after?_append, Option.bind_eq_bind, Option.bind_some, hsteps]
    cases splitBold [':', '*', '*'] (spaced value) <;> rfl
  have hline : ['*', '*', '*', '*'] ++ ':' :: spaced value =
      ['*', '*'] ++ ('*' :: '*' :: ':' :: spaced value) := rfl
  rw [trim_label (by simp) hlabel hvalue, hline, hproperty, Option.isSome_map,
    isSome_splitBold_iff (by simp)]
  unfold spaced
  split
  next hnil => rw [hnil]
  next =>
    rw [List.infix_cons_iff]
    exact ⟨fun h => h.resolve_left (by simp), .inr⟩

/-! ### Key descriptions -/

theorem description?_line (layer row col : Nat) {text : List Char} (h : Trimmed text) :
    description? (['-', ' '] ++ Nat.toDigits 10 layer ++ [':'] ++ Nat.toDigits 10 row ++ [':'] ++
        Nat.toDigits 10 col ++ ':' :: ' ' :: text) =
      some ⟨Nat.toDigits 10 layer, Nat.toDigits 10 row, Nat.toDigits 10 col,
        String.ofList text⟩ := by
  have hcolon : ∀ (rest : List Char) (c : Char), (':' :: rest).head? = some c →
      isDigit c = false := by
    rintro rest c ⟨⟩
    decide
  have hhead : ∀ (rest : List Char) (c : Char), (Nat.toDigits 10 layer ++ rest).head? = some c →
      isBlank c = false := fun rest c hc =>
    (visible_toDigits layer).head_append Nat.toDigits_ne_nil hc
  have hline : ['-', ' '] ++ Nat.toDigits 10 layer ++ [':'] ++ Nat.toDigits 10 row ++ [':'] ++
      Nat.toDigits 10 col ++ ':' :: ' ' :: text =
      '-' :: ' ' :: (Nat.toDigits 10 layer ++ (':' :: (Nat.toDigits 10 row ++ (':' ::
        (Nat.toDigits 10 col ++ (':' :: ' ' :: text)))))) := by
    simp
  have hafter : ∀ rest, after? [':'] (':' :: rest) = some rest := fun rest => rfl
  rw [hline, description?]
  simp only [item?_dash (hhead _), digits?_append _ (hcolon _), hafter, Option.bind_eq_bind,
    Option.bind_some, trim_blank_cons (show isBlank ' ' = true by decide), trim_eq_self h]
  rfl

theorem of_description? {entry : DescriptionEntry} (h : description? cs = some entry) :
    (IsRun entry.layer cs ∧ IsRun entry.row cs ∧ IsRun entry.col cs) ∧
      (OneLine cs → OneLine entry.text.toList ∧ Trimmed entry.text.toList) := by
  simp only [description?, Option.bind_eq_bind, Option.bind_eq_some_iff] at h
  obtain ⟨a, ha, ⟨layer, b⟩, hb, c, hc, ⟨row, d⟩, hd, e, he, ⟨col, f⟩, hf, g, hg, h⟩ := h
  cases h
  have hlayer : a <:+ cs := suffix_of_item? ha
  have hrow : c <:+ cs := (suffix_of_after? hc).trans ((suffix_of_digits? hb).trans hlayer)
  have hcol : e <:+ cs := (suffix_of_after? he).trans ((suffix_of_digits? hd).trans hrow)
  have htext : g <:+ cs := (suffix_of_after? hg).trans ((suffix_of_digits? hf).trans hcol)
  refine ⟨⟨(isRun_of_digits? hb).mono hlayer.isInfix, (isRun_of_digits? hd).mono hrow.isInfix,
    (isRun_of_digits? hf).mono hcol.isInfix⟩, fun hcs => ?_⟩
  rw [String.toList_ofList]
  exact ⟨(hcs.sublist htext.sublist).trim, trimmed_trim g⟩

/-! ### Tap dances -/

theorem action?_name (cs : List Char) : action? (['-', ' ', '*', '*'] ++ cs) = none := by
  have hitem : item? (['-', ' ', '*', '*'] ++ cs) = some ('*' :: '*' :: cs) :=
    item?_dash fun c hc => by cases hc; decide
  rw [action?, hitem]
  rfl

theorem closedName?_append (hne : name ++ cs ≠ []) (h : '*' ∉ cs) :
    closedName? name (cs ++ ['*', '*', ':']) = some (name.reverse ++ cs) := by
  induction cs generalizing name with
  | nil =>
    have hname : name ≠ [] := by simpa using hne
    rw [List.nil_append, closedName?, if_pos (by simpa using hname), List.append_nil]
  | cons c cs ih =>
    have hc : c ≠ '*' := fun hc => h (hc ▸ List.mem_cons_self)
    rw [List.cons_append, closedName?, if_neg (by simp [hc]),
      ih (by simp) fun hcs => h (List.mem_cons_of_mem c hcs)]
    simp

theorem tapDance?_line (h : Name.isTapDanceName name = true) :
    tapDance? (['-', ' ', '*', '*'] ++ name ++ ['*', '*', ':']) = some (String.ofList name) := by
  obtain ⟨hvisible, hstar⟩ := Name.visible_of_isTapDanceName h
  have hne : name ≠ [] := by
    rintro rfl
    cases h
  have hitem : item? (['-', ' ', '*', '*'] ++ name ++ ['*', '*', ':']) =
      some (['*', '*'] ++ (name ++ ['*', '*', ':'])) :=
    item?_dash fun c hc => by cases hc; decide
  have hclosed : closedName? [] (name ++ ['*', '*', ':']) = some name :=
    closedName?_append (by simpa using hne) hstar
  rw [tapDance?]
  simp only [hitem, after?_append, hclosed, Option.bind_eq_bind, Option.bind_some,
    trim_eq_self hvisible.trimmed]
  rfl

theorem eq_append_of_afterWord? {ps word : List Char} (h : afterWord? ps cs = some (word, rest)) :
    cs = word ++ rest := by
  fun_induction afterWord? ps cs generalizing word rest with
  | case1 cs =>
    cases h
    rfl
  | case2 p ps c cs hsame ih =>
    obtain ⟨⟨tail, behind⟩, hfound, heq⟩ := Option.map_eq_some_iff.mp h
    cases heq
    rw [ih hfound, List.cons_append]
  | case3 => cases h
  | case4 => cases h

theorem oneLine_of_action? {word keycode : String} (hcs : OneLine cs)
    (h : action? cs = some (word, keycode)) : OneLine keycode.toList ∧ Trimmed keycode.toList := by
  simp only [action?, Option.bind_eq_bind, Option.bind_eq_some_iff] at h
  obtain ⟨behind, hitem, ⟨found, rest⟩, hfound, h⟩ := h
  obtain ⟨w, -, hafter⟩ := List.exists_of_findSome?_eq_some hfound
  have hsuffix : rest <:+ cs :=
    List.IsSuffix.trans ⟨found, (eq_append_of_afterWord? hafter).symm⟩ (suffix_of_item? hitem)
  dsimp only at h
  split at h
  · cases h
  · cases h
    rw [String.toList_ofList]
    exact ⟨(hcs.sublist hsuffix.sublist).trim, trimmed_trim rest⟩

def writtenWords : List String := ["Single Tap", "Double Tap", "Hold"]

theorem action?_line {word : String} (hword : word ∈ writtenWords) {keycode : List Char}
    (h : Phrase keycode) :
    action? (['-', ' '] ++ word.toList ++ ':' :: ' ' :: keycode) =
      some (word, String.ofList keycode) := by
  have hitem : item? (['-', ' '] ++ word.toList ++ ':' :: ' ' :: keycode) =
      some (word.toList ++ ':' :: ' ' :: keycode) := by
    refine item?_dash fun c hc => ?_
    simp only [writtenWords, List.mem_cons, List.not_mem_nil, or_false] at hword
    rcases hword with rfl | rfl | rfl
    all_goals
      cases hc
      decide
  have hfind : actionWords.findSome? (fun w => afterWord? (w.toList ++ [':'])
      (word.toList ++ ':' :: ' ' :: keycode)) = some (word.toList ++ [':'], ' ' :: keycode) := by
    simp only [writtenWords, List.mem_cons, List.not_mem_nil, or_false] at hword
    rcases hword with rfl | rfl | rfl
    · rfl
    · rfl
    · rfl
  rw [action?]
  simp only [hitem, hfind, Option.bind_eq_bind, Option.bind_some, List.dropLast_concat,
    String.ofList_toList, trim_blank_cons (show isBlank ' ' = true by decide),
    trim_eq_self h.trimmed]
  rfl

end Keyforge.Document.Line
