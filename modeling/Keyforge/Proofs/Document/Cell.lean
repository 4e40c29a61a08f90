import Keyforge.Document.Cell
import Keyforge.Proofs.Color
import Keyforge.Proofs.Layout.Name
import Keyforge.Proofs.Result

/-!
# Cells

Where a keycode ends is told by the number of open parentheses (`depthAfter`). `WellFormed` are the
cells that reading gives (`wellFormed_of_read`).
-/

namespace Keyforge.Document.Cell

open Keyforge.Text

variable {cs : List Char} {category? : Option String}

/-! ### Where a keycode ends -/

/-- The number of parentheses that are open after a text, if `depth` are open before it. There is
none if the text closes one that is not open, or if a suffix starts in it. -/
def depthAfter (depth : Nat) : List Char → Option Nat
  | [] => some depth
  | c :: rest =>
    if c == '(' then depthAfter (depth + 1) rest
    else if c == ')' then
      match depth with
      | 0 => none
      | depth + 1 => depthAfter depth rest
    else if depth = 0 && (c == '\x7b' || c == '@') then none
    else depthAfter depth rest

theorem depthAfter_cons (depth : Nat) (c : Char) (rest : List Char) :
    depthAfter depth (c :: rest) =
      if c == '(' then depthAfter (depth + 1) rest
      else if c == ')' then
        match depth with
        | 0 => none
        | depth + 1 => depthAfter depth rest
      else if depth = 0 && (c == '\x7b' || c == '@') then none
      else depthAfter depth rest :=
  depthAfter.eq_def depth (c :: rest)

theorem extent_cons (depth seen : Nat) (c : Char) (rest : List Char) :
    extent depth seen (c :: rest) =
      if c == '(' then extent (depth + 1) (seen + 1) rest
      else if c == ')' then
        match depth with
        | 0 => .unopened seen
        | depth + 1 => extent depth (seen + 1) rest
      else if depth = 0 && (c == '\x7b' || c == '@') then .upTo seen
      else extent depth (seen + 1) rest :=
  extent.eq_def depth seen (c :: rest)

theorem extent_append {depth d : Nat} (h : depthAfter depth cs = some d) (seen : Nat)
    (rest : List Char) : extent depth seen (cs ++ rest) = extent d (seen + cs.length) rest := by
  fun_induction depthAfter depth cs generalizing seen with
  | case1 depth =>
    cases h
    rfl
  | case2 depth c cs hopen ih =>
    rw [List.cons_append, extent_cons, if_pos hopen, ih h, List.length_cons]
    congr 1
    omega
  | case3 => cases h
  | case4 c cs hopen hclose depth ih =>
    rw [List.cons_append, extent_cons, if_neg hopen, if_pos hclose]
    refine (ih h (seen + 1)).trans ?_
    rw [List.length_cons]
    congr 1
    omega
  | case5 => cases h
  | case6 depth c cs hopen hclose hstop ih =>
    rw [List.cons_append, extent_cons, if_neg hopen, if_neg hclose, if_neg hstop, ih h,
      List.length_cons]
    congr 1
    omega

/-- A keycode that was measured closes its parentheses, and a suffix or nothing follows it. -/
theorem exists_of_extent {depth seen n : Nat} (h : extent depth seen cs = .upTo n) :
    ∃ key rest, cs = key ++ rest ∧ n = seen + key.length ∧ depthAfter depth key = some 0 ∧
      ∀ c, rest.head? = some c → c = '\x7b' ∨ c = '@' := by
  fun_induction extent depth seen cs with
  | case1 seen =>
    cases h
    exact ⟨[], [], rfl, rfl, rfl, by simp⟩
  | case2 => cases h
  | case3 depth seen c cs hopen ih =>
    obtain ⟨key, rest, rfl, rfl, hdepth, hrest⟩ := ih h
    refine ⟨c :: key, rest, rfl, by rw [List.length_cons]; omega, ?_, hrest⟩
    rw [depthAfter_cons, if_pos hopen, hdepth]
  | case4 => cases h
  | case5 seen c cs hopen hclose depth ih =>
    obtain ⟨key, rest, rfl, rfl, hdepth, hrest⟩ := ih h
    refine ⟨c :: key, rest, rfl, by rw [List.length_cons]; omega, ?_, hrest⟩
    rw [depthAfter_cons, if_neg hopen, if_pos hclose]
    exact hdepth
  | case6 depth seen c cs hopen hclose hstop =>
    cases h
    simp only [Bool.and_eq_true, decide_eq_true_eq, Bool.or_eq_true, beq_iff_eq] at hstop
    refine ⟨[], c :: cs, rfl, rfl, congrArg some hstop.1, fun d hd => ?_⟩
    cases hd
    exact hstop.2
  | case7 depth seen c cs hopen hclose hstop ih =>
    obtain ⟨key, rest, rfl, rfl, hdepth, hrest⟩ := ih h
    refine ⟨c :: key, rest, rfl, by rw [List.length_cons]; omega, ?_, hrest⟩
    rw [depthAfter_cons, if_neg hopen, if_neg hclose, if_neg hstop, hdepth]

theorem depthAfter_append (depth : Nat) (cs ds : List Char) :
    depthAfter depth (cs ++ ds) = (depthAfter depth cs).bind fun d => depthAfter d ds := by
  fun_induction depthAfter depth cs with
  | case1 depth => rfl
  | case2 depth c cs hopen ih => rw [List.cons_append, depthAfter_cons, if_pos hopen, ih]
  | case3 c cs hopen hclose =>
    rw [List.cons_append, depthAfter_cons, if_neg hopen, if_pos hclose]
    rfl
  | case4 c cs hopen hclose depth ih =>
    rw [List.cons_append, depthAfter_cons, if_neg hopen, if_pos hclose]
    exact ih
  | case5 depth c cs hopen hclose hstop =>
    rw [List.cons_append, depthAfter_cons, if_neg hopen, if_neg hclose, if_pos hstop]
    rfl
  | case6 depth c cs hopen hclose hstop ih =>
    rw [List.cons_append, depthAfter_cons, if_neg hopen, if_neg hclose, if_neg hstop, ih]

theorem depthAfter_blanks {depth : Nat} (h : ∀ c ∈ cs, isBlank c = true) :
    depthAfter depth cs = some depth := by
  induction cs with
  | nil => rfl
  | cons c cs ih =>
    have hc := h c List.mem_cons_self
    have hne : ∀ d, isBlank d = false → ¬(c == d) = true := by
      intro d hd heq
      rw [beq_iff_eq.mp heq, hd] at hc
      cases hc
    rw [depthAfter_cons, if_neg (hne '(' (by decide)), if_neg (hne ')' (by decide)),
      if_neg (by simp [hne '\x7b' (by decide), hne '@' (by decide)]),
      ih (List.forall_mem_cons.mp h).2]

/-! ### Keycodes -/

theorem bounds_of_isNameStart {c : Char} (h : isNameStart c = true) :
    33 ≤ c.toNat ∧ c.toNat ≤ 126 := by
  simp only [isNameStart, Bool.or_eq_true, beq_iff_eq] at h
  rcases h with h | rfl
  · have := Name.bounds_of_isAlpha h
    omega
  · decide

theorem bounds_of_isNameChar {c : Char} (h : isNameChar c = true) :
    33 ≤ c.toNat ∧ c.toNat ≤ 126 := by
  simp only [isNameChar, Bool.or_eq_true, beq_iff_eq] at h
  rcases h with h | rfl
  · have := Name.bounds_of_isAlphanum h
    omega
  · decide

theorem trimmed_of_isKeycode (h : isKeycode cs = true) : cs ≠ [] ∧ Trimmed cs := by
  cases cs with
  | nil => cases h
  | cons c rest =>
    simp only [isKeycode, Bool.and_eq_true] at h
    refine ⟨by simp, fun d hd => ?_, fun d hd => ?_⟩
    · cases hd
      have hc : Visible [c] := by simpa [Visible] using bounds_of_isNameStart h.1
      exact hc.isBlank (by simp)
    · -- the keycode ends in its name or in a parenthesis
      rw [← List.takeWhile_append_dropWhile (p := isNameChar) (l := rest)] at hd
      cases htail : rest.dropWhile isNameChar with
      | nil =>
        have hname : Visible (c :: rest.takeWhile isNameChar) := by
          rintro x (_ | ⟨_, hx⟩)
          · exact bounds_of_isNameStart h.1
          · exact bounds_of_isNameChar (List.mem_takeWhile_imp hx)
        rw [htail, List.append_nil] at hd
        exact hname.isBlank (List.mem_of_getLast? hd)
      | cons p tail =>
        rw [htail] at h hd
        simp only [isArgumentText, Bool.and_eq_true, beq_iff_eq] at h
        have htail : (p :: tail).getLast? = some ')' := by
          rw [List.getLast?_cons, h.2.1.2]
          rfl
        rw [List.getLast?_cons, List.getLast?_append_of_ne_nil _ (by simp), htail] at hd
        have hlast : ')' = d := Option.some.inj hd
        rw [← hlast]
        decide

/-! ### Cells -/

/-- The cells that can be read. -/
structure WellFormed (cell : Cell) : Prop where
  balanced : depthAfter 0 cell.keycode.toList = some 0
  keycode : isKeycode cell.keycode.toList = true
  category : ∀ id, cell.category? = some id → Name.isCategoryId id.toList = true

def colorChars : Option Color → List Char
  | some color => '\x7b' :: color.hexChars ++ ['\x7d']
  | none => []

def categoryChars : Option String → List Char
  | some id => '@' :: id.toList
  | none => []

theorem toList_text (cell : Cell) :
    cell.text.toList =
      cell.keycode.toList ++ (colorChars cell.color? ++ categoryChars cell.category?) := by
  obtain ⟨keycode, color?, category?⟩ := cell
  cases color? <;> cases category? <;> simp [text, colorChars, categoryChars, Color.hex]

theorem colorSuffix_digits (offset : Nat) {digits : List Char} {color : Color}
    (h : Color.ofDigits? digits = some color) (rest : List Char) :
    colorSuffix offset ('\x7b' :: '#' :: (digits ++ '\x7d' :: rest)) =
      .ok (some color, offset + 9, rest) := by
  obtain ⟨hlength, hbounds⟩ := Color.bounds_of_ofDigits? h
  have hinner : ('#' :: (digits ++ '\x7d' :: rest)).takeWhile (· != '\x7d') = '#' :: digits := by
    rw [List.takeWhile_cons_of_pos (by decide), List.takeWhile_append_of_pos,
      List.takeWhile_cons_of_neg (by decide), List.append_nil]
    intro x hx
    rw [bne_iff_ne]
    rintro rfl
    exact absurd (hbounds _ hx) (by decide)
  have hdrop : (digits ++ '\x7d' :: rest).drop 7 = rest := by
    rw [List.drop_append, hlength, List.drop_eq_nil_of_le (by omega)]
    rfl
  rw [colorSuffix, hinner, if_neg (by simp), suffixColor?, h]
  simp [hlength, hdrop]

theorem visible_suffixes (color? : Option Color)
    (h : ∀ id, category? = some id → Name.isCategoryId id.toList = true) :
    Visible (colorChars color? ++ categoryChars category?) ∧
      '|' ∉ colorChars color? ++ categoryChars category? := by
  have hcolor : ∀ c ∈ colorChars color?, (33 ≤ c.toNat ∧ c.toNat ≤ 126) ∧ c ≠ '|' := by
    cases color? with
    | none => simp [colorChars]
    | some color =>
      intro c hc
      simp only [colorChars, List.cons_append, List.mem_cons, List.mem_append, List.not_mem_nil,
        or_false] at hc
      rcases hc with rfl | hc | rfl
      · decide
      · have hbounds := Color.bounds_of_mem_hexChars hc
        refine ⟨by omega, ?_⟩
        rintro rfl
        exact absurd hbounds (by decide)
      · decide
  have hcategory : ∀ c ∈ categoryChars category?, (33 ≤ c.toNat ∧ c.toNat ≤ 126) ∧ c ≠ '|' := by
    cases category? with
    | none => simp [categoryChars]
    | some id =>
      intro c hc
      rcases List.mem_cons.mp hc with rfl | hc
      · decide
      · have hbounds := Name.bounds_of_isCategoryChar (Name.isCategoryChar_of_mem (h id rfl) hc)
        refine ⟨by omega, ?_⟩
        rintro rfl
        exact absurd hbounds (by decide)
  refine ⟨fun c hc => ?_, fun hbar => ?_⟩
  · rcases List.mem_append.mp hc with hc | hc
    · exact (hcolor c hc).1
    · exact (hcategory c hc).1
  · rcases List.mem_append.mp hbar with hbar | hbar
    · exact (hcolor _ hbar).2 rfl
    · exact (hcategory _ hbar).2 rfl

theorem trimmed_text {cell : Cell} (h : cell.WellFormed) :
    cell.text.toList ≠ [] ∧ Trimmed cell.text.toList := by
  obtain ⟨hne, htrimmed⟩ := trimmed_of_isKeycode h.keycode
  obtain ⟨hvisible, -⟩ := visible_suffixes cell.color? h.category
  rw [toList_text]
  refine ⟨by simp [hne], fun c hc => htrimmed.head c ?_, fun c hc => ?_⟩
  · rwa [List.head?_append_of_ne_nil _ hne] at hc
  · rw [List.getLast?_append] at hc
    rcases Option.or_eq_some_iff.mp hc with hc | ⟨-, hc⟩
    · exact hvisible.isBlank (List.mem_of_getLast? hc)
    · exact htrimmed.last c hc

theorem extent_append_suffix {key rest : List Char} (hkey : depthAfter 0 key = some 0)
    (hrest : ∀ c, rest.head? = some c → c = '\x7b' ∨ c = '@') :
    extent 0 0 (key ++ rest) = .upTo key.length := by
  rw [extent_append hkey, Nat.zero_add]
  cases rest with
  | nil => rfl
  | cons c rest => rcases hrest c rfl with rfl | rfl <;> rfl

theorem read_append {key rest : List Char} (hkey : depthAfter 0 key = some 0)
    (hrest : ∀ c, rest.head? = some c → c = '\x7b' ∨ c = '@')
    (hkeycode : isKeycode (trimRight key) = true) :
    read (key ++ rest) = (colorSuffix (size key) rest >>= fun found =>
      (categorySuffix found.2.1 found.2.2).map fun category? =>
        ⟨String.ofList (trimRight key), found.1, category?⟩) := by
  rw [read, extent_append_suffix hkey hrest]
  simp only [List.take_left, List.drop_left, hkeycode, Bool.not_true, Bool.false_eq_true, if_false]
  rfl

theorem isCategoryId_of_categorySuffix {offset : Nat} (h : categorySuffix offset cs = .ok category?)
    {id : String} (hid : category? = some id) : Name.isCategoryId id.toList = true := by
  subst hid
  unfold categorySuffix at h
  split at h
  · cases h
  · split at h
    next hcs =>
      cases h
      rwa [String.toList_ofList]
    next => cases h
  · cases h

theorem size_le_of_sublist {ds : List Char} (h : cs.Sublist ds) : size cs ≤ size ds :=
  h.countP_le

theorem read_cases (cs : List Char) :
    (∃ e, read cs = .error e ∧ e.offset ≤ size cs) ∨
      ∃ key rest, cs = key ++ rest ∧ depthAfter 0 key = some 0 ∧
        (∀ c, rest.head? = some c → c = '\x7b' ∨ c = '@') ∧ isKeycode (trimRight key) = true := by
  cases hextent : extent 0 0 cs with
  | unopened n =>
    refine .inl ⟨_, by rw [read, hextent], ?_⟩
    exact size_le_of_sublist (List.take_sublist n cs)
  | unclosed =>
    refine .inl ⟨_, by rw [read, hextent], ?_⟩
    exact size_le_of_sublist (List.takeWhile_sublist _)
  | upTo n =>
    obtain ⟨key, rest, rfl, rfl, hdepth, hrest⟩ := exists_of_extent hextent
    by_cases hkeycode : isKeycode (trimRight key) = true
    · exact .inr ⟨key, rest, rfl, hdepth, hrest, hkeycode⟩
    · refine .inl ⟨⟨.keycode (String.ofList (trimRight key)), 0⟩, ?_, Nat.zero_le _⟩
      rw [read, hextent]
      simp [hkeycode]

theorem read_eq_ok {cell : Cell} (h : read cs = .ok cell) :
    ∃ key rest n tail, cs = key ++ rest ∧ depthAfter 0 key = some 0 ∧
      isKeycode (trimRight key) = true ∧ cell.keycode = String.ofList (trimRight key) ∧
      colorSuffix (size key) rest = .ok (cell.color?, n, tail) ∧
      categorySuffix n tail = .ok cell.category? := by
  rcases read_cases cs with ⟨e, herror, -⟩ | ⟨key, rest, rfl, hdepth, hrest, hkeycode⟩
  · rw [h] at herror
    cases herror
  · rw [read_append hdepth hrest hkeycode] at h
    obtain ⟨⟨color?, n, tail⟩, hcolor, h⟩ := bind_eq_ok_iff.mp h
    obtain ⟨category?, hcategory, rfl⟩ := map_eq_ok_iff.mp h
    exact ⟨key, rest, n, tail, rfl, hdepth, hkeycode, rfl, hcolor, hcategory⟩

theorem depthAfter_trimRight {key : List Char} (h : depthAfter 0 key = some 0) :
    depthAfter 0 (trimRight key) = some 0 := by
  obtain ⟨ws, hblank, hws⟩ := exists_trimRight_append key
  rw [hws, depthAfter_append] at h
  obtain ⟨d, hd, hzero⟩ := Option.bind_eq_some_iff.mp h
  rw [depthAfter_blanks hblank] at hzero
  rw [hd, hzero]

/-- Reading gives well-formed cells, and the keycode is the front of what was read. -/
theorem wellFormed_of_read {cell : Cell} (h : read cs = .ok cell) :
    cell.WellFormed ∧ cell.keycode.toList <+: cs := by
  obtain ⟨key, rest, n, tail, rfl, hdepth, hkeycode, hcell, -, hcategory⟩ := read_eq_ok h
  have htoList : cell.keycode.toList = trimRight key := by rw [hcell, String.toList_ofList]
  refine ⟨⟨?_, ?_, fun id hid => isCategoryId_of_categorySuffix hcategory hid⟩, ?_⟩
  · rw [htoList]
    exact depthAfter_trimRight hdepth
  · rwa [htoList]
  · rw [htoList]
    exact (trimRight_isPrefix key).trans (List.prefix_append _ _)

end Keyforge.Document.Cell
