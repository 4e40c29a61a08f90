import Keyforge.Proofs.Document.Cell

/-!
# The grammar of cells

A cell is a keycode, white space, a color in braces and a category behind an at sign; all but the
keycode may be missing. The grammar is stated by the parts of a text (`Parts`), without regard to
how cells are read. A text has one division into parts at most (`eq_of_text_eq`), the parts of a cell
are read as what they mean (`read_parts`), and whatever is read has parts (`exists_parts_of_read`).
-/

namespace Keyforge.Document.Cell

open Keyforge.Text

variable {cs : List Char} {offset : Nat}

/-! ### Parentheses -/

/-- With `depth` parentheses open before it, no front of the text closes more than are open, and no
opening brace and no at sign stands where none are open. -/
structure Nested (depth : Nat) (cs : List Char) : Prop where
  closes : ∀ front, front <+: cs → front.count ')' ≤ depth + front.count '('
  marks : ∀ front c, front ++ [c] <+: cs → front.count ')' = depth + front.count '(' →
    c ≠ '\x7b' ∧ c ≠ '@'

theorem nested_nil (depth : Nat) : Nested depth [] where
  closes front h := by simp [List.prefix_nil.mp h]
  marks front c h := by simp at h

theorem nested_cons {depth : Nat} (next : Nat) {c : Char}
    (hnext : next + [c].count ')' = depth + [c].count '(') :
    Nested depth (c :: cs) ↔ (depth = 0 → c ≠ '\x7b' ∧ c ≠ '@') ∧ Nested next cs := by
  have hcount : ∀ (front : List Char) (d : Char),
      (c :: front).count d = [c].count d + front.count d := by
    intro front d
    rw [← List.singleton_append, List.count_append]
  constructor
  · intro h
    refine ⟨fun hdepth => ?_, fun front hfront => ?_, fun front d hfront heq => ?_⟩
    · exact h.marks [] c (by simp) (by simp [hdepth])
    · have hle := h.closes (c :: front) (List.cons_prefix_cons.mpr ⟨rfl, hfront⟩)
      rw [hcount front, hcount front] at hle
      omega
    · refine h.marks (c :: front) d (List.cons_prefix_cons.mpr ⟨rfl, hfront⟩) ?_
      rw [hcount front, hcount front]
      omega
  · rintro ⟨hc, h⟩
    refine ⟨fun front hfront => ?_, fun front d hfront heq => ?_⟩
    · cases front with
      | nil => simp
      | cons b front =>
        obtain ⟨rfl, htail⟩ := List.cons_prefix_cons.mp hfront
        have hle := h.closes front htail
        rw [hcount front, hcount front]
        omega
    · cases front with
      | nil =>
        obtain ⟨rfl, -⟩ := List.cons_prefix_cons.mp hfront
        exact hc (by simpa using heq.symm)
      | cons b front =>
        obtain ⟨rfl, htail⟩ := List.cons_prefix_cons.mp hfront
        rw [hcount front, hcount front] at heq
        exact h.marks front d htail (by omega)

/-- The number of open parentheses is what the counts of parentheses say. -/
theorem depthAfter_eq_some_iff {depth d : Nat} :
    depthAfter depth cs = some d ↔
      Nested depth cs ∧ d + cs.count ')' = depth + cs.count '(' := by
  fun_induction depthAfter depth cs with
  | case1 depth =>
    rw [Option.some.injEq, List.count_nil, List.count_nil]
    exact ⟨fun h => ⟨nested_nil depth, by omega⟩, fun h => by omega⟩
  | case2 depth c cs hopen ih =>
    obtain rfl := beq_iff_eq.mp hopen
    rw [ih, nested_cons (depth + 1) (by simp), List.count_cons_of_ne (by decide),
      List.count_cons_self]
    exact ⟨fun h => ⟨⟨fun _ => by decide, h.1⟩, by omega⟩, fun h => ⟨h.1.2, by omega⟩⟩
  | case3 c cs hopen hclose =>
    obtain rfl := beq_iff_eq.mp hclose
    refine ⟨(fun h => by cases h), fun h => ?_⟩
    have hle := h.1.closes [')'] (List.cons_prefix_cons.mpr ⟨rfl, List.nil_prefix⟩)
    simp at hle
  | case4 c cs hopen hclose depth ih =>
    obtain rfl := beq_iff_eq.mp hclose
    rw [ih, nested_cons depth (by simp), List.count_cons_self,
      List.count_cons_of_ne (by decide)]
    exact ⟨fun h => ⟨⟨fun _ => by decide, h.1⟩, by omega⟩, fun h => ⟨h.1.2, by omega⟩⟩
  | case5 depth c cs hopen hclose hstop =>
    refine ⟨(fun h => by cases h), fun h => ?_⟩
    simp only [Bool.and_eq_true, decide_eq_true_eq, Bool.or_eq_true, beq_iff_eq] at hstop
    have hmark := h.1.marks [] c (List.cons_prefix_cons.mpr ⟨rfl, List.nil_prefix⟩)
      (by simp [hstop.1])
    exact absurd hstop.2 (not_or.mpr hmark)
  | case6 depth c cs hopen hclose hstop ih =>
    simp only [Bool.and_eq_true, decide_eq_true_eq, Bool.or_eq_true, beq_iff_eq, not_and,
      not_or] at hstop
    have hcount : ∀ d, (c == d) ≠ true → [c].count d = 0 := by
      intro d hd
      simpa [List.count_singleton] using hd
    rw [ih, nested_cons depth (by rw [hcount _ hopen, hcount _ hclose]), List.count_cons,
      List.count_cons, if_neg hopen, if_neg hclose]
    exact ⟨fun h => ⟨⟨hstop, h.1⟩, h.2⟩, fun h => ⟨h.1.2, h.2⟩⟩

/-! ### Keycodes -/

/-- A name: letters, digits and underscores, not starting with a digit. -/
def IsName (cs : List Char) : Prop :=
  ∃ c rest, cs = c :: rest ∧ (c.isAlpha = true ∨ c = '_') ∧
    ∀ d ∈ rest, d.isAlphanum = true ∨ d = '_'

/-- Arguments: a text on one line between parentheses. -/
def IsArguments (cs : List Char) : Prop := ∃ inner, cs = '(' :: (inner ++ [')']) ∧ '\n' ∉ inner

structure KeycodeForm (cs : List Char) : Prop where
  parts : ∃ name arguments, cs = name ++ arguments ∧ IsName name ∧
    (arguments = [] ∨ IsArguments arguments)
  nested : Nested 0 cs
  closed : cs.count ')' = cs.count '('

theorem isArgumentText_eq_true_iff : isArgumentText cs = true ↔ cs = [] ∨ IsArguments cs := by
  cases cs with
  | nil => simp [isArgumentText]
  | cons c rest =>
    simp only [isArgumentText, Bool.and_eq_true, beq_iff_eq, Bool.not_eq_true',
      List.contains_eq_mem, decide_eq_false_iff_not, reduceCtorEq, false_or]
    constructor
    · rintro ⟨⟨rfl, hlast⟩, hline⟩
      obtain ⟨inner, rfl⟩ := List.getLast?_eq_some_iff.mp hlast
      exact ⟨inner, rfl, fun hmem => hline (List.mem_append_left _ hmem)⟩
    · rintro ⟨inner, heq, hline⟩
      obtain ⟨rfl, rfl⟩ := List.cons.inj heq
      exact ⟨⟨rfl, by simp⟩, by simp [hline]⟩

theorem isKeycode_eq_true_iff :
    isKeycode cs = true ↔ ∃ name arguments, cs = name ++ arguments ∧ IsName name ∧
      (arguments = [] ∨ IsArguments arguments) := by
  constructor
  · intro h
    cases cs with
    | nil => cases h
    | cons c rest =>
      simp only [isKeycode, Bool.and_eq_true] at h
      refine ⟨c :: rest.takeWhile isNameChar, rest.dropWhile isNameChar, ?_, ⟨c, _, rfl, ?_, ?_⟩,
        isArgumentText_eq_true_iff.mp h.2⟩
      · rw [List.cons_append, List.takeWhile_append_dropWhile]
      · simpa [isNameStart] using h.1
      · intro d hd
        simpa [isNameChar] using List.mem_takeWhile_imp hd
  · rintro ⟨name, arguments, rfl, ⟨c, rest, rfl, hc, hrest⟩, harguments⟩
    have hstop : ∀ d, arguments.head? = some d → isNameChar d = false := by
      intro d hd
      rcases harguments with rfl | ⟨inner, rfl, -⟩
      · cases hd
      · cases hd
        rfl
    have hname : ∀ d ∈ rest, isNameChar d = true := by
      intro d hd
      simpa [isNameChar] using hrest d hd
    rw [List.cons_append, isKeycode, (takeWhile_append_stop hname hstop).2,
      isArgumentText_eq_true_iff.mpr harguments, Bool.and_true]
    simpa [isNameStart] using hc

/-- The keycodes of cells that can be read are those of the grammar. -/
theorem keycodeForm_iff : KeycodeForm cs ↔ depthAfter 0 cs = some 0 ∧ isKeycode cs = true := by
  rw [depthAfter_eq_some_iff, isKeycode_eq_true_iff]
  constructor
  · rintro ⟨hparts, hnested, hclosed⟩
    exact ⟨⟨hnested, by rw [hclosed]⟩, hparts⟩
  · rintro ⟨⟨hnested, hclosed⟩, hparts⟩
    exact ⟨hparts, hnested, by omega⟩

/-! ### Suffixes -/

/-- A category id: small letters, digits and dashes, starting with a letter. -/
def IsCategory (cs : List Char) : Prop :=
  ∃ c rest, cs = c :: rest ∧ c.isLower = true ∧
    ∀ d ∈ rest, d.isLower = true ∨ d.isDigit = true ∨ d = '-'

theorem isCategoryId_eq_true_iff : Name.isCategoryId cs = true ↔ IsCategory cs := by
  have hsmall : ∀ c, Name.isSmall c = c.isLower := fun c => rfl
  cases cs with
  | nil => simp [Name.isCategoryId, Name.startsAndGoesOn, IsCategory]
  | cons c rest =>
    simp only [Name.isCategoryId, Name.startsAndGoesOn, Name.isCategoryChar, hsmall,
      Bool.and_eq_true, List.all_eq_true, Bool.or_eq_true, beq_iff_eq, or_assoc]
    constructor
    · rintro ⟨hc, hrest⟩
      exact ⟨c, rest, rfl, hc, hrest⟩
    · rintro ⟨_, _, heq, hc, hrest⟩
      obtain ⟨rfl, rfl⟩ := List.cons.inj heq
      exact ⟨hc, hrest⟩

/-! ### Parts of a text -/

/-- The parts of a cell's text: the keycode, the white space behind it, and, if there are such
suffixes, the digits of the color and the id of the category. -/
structure Parts where
  keycode : List Char
  blanks : List Char
  digits? : Option (List Char)
  category? : Option (List Char)

namespace Parts

def colorText : Option (List Char) → List Char
  | some digits => '\x7b' :: '#' :: (digits ++ ['\x7d'])
  | none => []

def categoryText : Option (List Char) → List Char
  | some id => '@' :: id
  | none => []

def text (p : Parts) : List Char :=
  p.keycode ++ p.blanks ++ (colorText p.digits? ++ categoryText p.category?)

structure Grammatical (p : Parts) : Prop where
  keycode : KeycodeForm p.keycode
  blanks : ∀ c ∈ p.blanks, isBlank c = true
  digits : ∀ digits, p.digits? = some digits → Color.IsHex digits
  category : ∀ id, p.category? = some id → IsCategory id

structure Means (p : Parts) (cell : Cell) : Prop where
  keycode : cell.keycode.toList = p.keycode
  color : Option.Rel Color.Denotes p.digits? cell.color?
  category : cell.category?.map String.toList = p.category?

end Parts

structure Grammatical (cell : Cell) : Prop where
  keycode : KeycodeForm cell.keycode.toList
  category : ∀ id, cell.category? = some id → IsCategory id.toList

namespace Parts

variable {p q : Parts}

theorem head_suffixes {digits? category? : Option (List Char)} {c : Char}
    (h : (colorText digits? ++ categoryText category?).head? = some c) : c = '\x7b' ∨ c = '@' := by
  cases digits? with
  | some digits =>
    cases h
    exact .inl rfl
  | none =>
    cases category? with
    | some id =>
      cases h
      exact .inr rfl
    | none => cases h

theorem depthAfter_front (h : p.Grammatical) : depthAfter 0 (p.keycode ++ p.blanks) = some 0 := by
  rw [depthAfter_append, (keycodeForm_iff.mp h.keycode).1]
  exact depthAfter_blanks h.blanks

theorem trimRight_front (h : p.Grammatical) : trimRight (p.keycode ++ p.blanks) = p.keycode :=
  trimRight_append_blanks (trimmed_of_isKeycode (keycodeForm_iff.mp h.keycode).2).2.last h.blanks

theorem suffixes_inj {d d' g g' : Option (List Char)}
    (hd : ∀ digits, d = some digits → Color.IsHex digits)
    (hd' : ∀ digits, d' = some digits → Color.IsHex digits)
    (h : colorText d ++ categoryText g = colorText d' ++ categoryText g') : d = d' ∧ g = g' := by
  have hcategory : ∀ {g g'}, categoryText g = categoryText g' → g = g' := by
    intro g g' h
    cases g <;> cases g' <;> simp_all [categoryText]
  cases d with
  | none =>
    cases d' with
    | none => exact ⟨rfl, hcategory h⟩
    | some digits' => cases g <;> simp [colorText, categoryText] at h
  | some digits =>
    cases d' with
    | none => cases g' <;> simp [colorText, categoryText] at h
    | some digits' =>
      simp only [colorText, List.cons_append, List.cons.injEq, true_and, List.append_assoc] at h
      obtain ⟨rfl, htail⟩ := List.append_inj h (by rw [(hd _ rfl).1, (hd' _ rfl).1])
      exact ⟨rfl, hcategory (List.cons.inj htail).2⟩

/-- A text has one way to be taken apart. -/
theorem eq_of_text_eq (hp : p.Grammatical) (hq : q.Grammatical) (h : p.text = q.text) : p = q := by
  have hextent : ∀ r : Parts, r.Grammatical →
      extent 0 0 r.text = .upTo (r.keycode ++ r.blanks).length := fun r hr =>
    extent_append_suffix (depthAfter_front hr) fun _ hc => head_suffixes hc
  have hlength : (p.keycode ++ p.blanks).length = (q.keycode ++ q.blanks).length := by
    have hboth := hextent p hp
    rw [h, hextent q hq] at hboth
    exact (Extent.upTo.inj hboth).symm
  obtain ⟨hfront, hsuffix⟩ := List.append_inj h hlength
  have hkeycode : p.keycode = q.keycode := by
    rw [← trimRight_front hp, hfront, trimRight_front hq]
  have hblanks : p.blanks = q.blanks := by
    rw [hkeycode] at hfront
    exact List.append_cancel_left hfront
  obtain ⟨hdigits, hcategory⟩ := suffixes_inj hp.digits hq.digits hsuffix
  obtain ⟨_, _, _, _⟩ := p
  obtain ⟨_, _, _, _⟩ := q
  subst hkeycode hblanks hdigits hcategory
  rfl

theorem colorSuffix_text (offset : Nat) {digits? : Option (List Char)} {color? : Option Color}
    (hdigits : ∀ digits, digits? = some digits → Color.IsHex digits)
    (hcolor : Option.Rel Color.Denotes digits? color?) {rest : List Char}
    (hrest : rest.head? ≠ some '\x7b') :
    ∃ n, colorSuffix offset (colorText digits? ++ rest) = .ok (color?, n, rest) := by
  cases hcolor with
  | none =>
    refine ⟨offset, ?_⟩
    rw [colorText, List.nil_append, colorSuffix]
    rintro tail rfl
    exact hrest rfl
  | @some digits color hdenotes =>
    have hread := Color.ofDigits?_eq_some_iff.mpr ⟨hdigits digits rfl, hdenotes⟩
    refine ⟨offset + 9, ?_⟩
    rw [colorText, List.cons_append, List.cons_append, List.append_assoc]
    exact colorSuffix_digits offset hread rest

theorem read_parts {cell : Cell} (h : p.Grammatical) (hmeans : p.Means cell) :
    read p.text = .ok cell := by
  have hkeycode : isKeycode (trimRight (p.keycode ++ p.blanks)) = true := by
    rw [trimRight_front h]
    exact (keycodeForm_iff.mp h.keycode).2
  have hbrace : (categoryText p.category?).head? ≠ some '\x7b' := by
    cases p.category? <;> simp [categoryText]
  obtain ⟨n, hcolor⟩ :=
    colorSuffix_text (size (p.keycode ++ p.blanks)) h.digits hmeans.color hbrace
  have hcategory : categorySuffix n (categoryText p.category?) = .ok cell.category? := by
    have hid := h.category
    rw [← hmeans.category] at hid ⊢
    cases hc : cell.category? with
    | none => rfl
    | some id =>
      rw [hc] at hid
      show categorySuffix n ('@' :: id.toList) = _
      rw [categorySuffix, if_pos (isCategoryId_eq_true_iff.mpr (hid _ rfl)), String.ofList_toList]
  rw [text, read_append (depthAfter_front h) (fun c hc => head_suffixes hc) hkeycode, hcolor,
    trimRight_front h, ← hmeans.keycode, String.ofList_toList]
  show (categorySuffix n (categoryText p.category?)).map _ = _
  rw [hcategory]
  rfl

end Parts

theorem read_text {cell : Cell} (h : cell.WellFormed) : read cell.text.toList = .ok cell := by
  obtain ⟨digits?, hdigits, hhex, hdenotes⟩ : ∃ digits?,
      colorChars cell.color? = Parts.colorText digits? ∧
      (∀ digits, digits? = some digits → Color.IsHex digits) ∧
      Option.Rel Color.Denotes digits? cell.color? := by
    cases cell.color? with
    | none => exact ⟨none, rfl, (fun _ h => by cases h), .none⟩
    | some color =>
      obtain ⟨a, b, c, d, e, f, htext, hread⟩ := Color.exists_hexChars color
      obtain ⟨hhex, hdenotes⟩ := Color.ofDigits?_eq_some_iff.mp hread
      refine ⟨some _, by rw [colorChars, htext]; rfl, ?_, .some hdenotes⟩
      rintro _ ⟨⟩
      exact hhex
  have hcategory : ∀ id, cell.category?.map String.toList = some id → IsCategory id := by
    intro id hid
    obtain ⟨id, hsome, rfl⟩ := Option.map_eq_some_iff.mp hid
    exact isCategoryId_eq_true_iff.mp (h.category id hsome)
  let p : Parts := ⟨cell.keycode.toList, [], digits?, cell.category?.map String.toList⟩
  have hid : categoryChars cell.category? = Parts.categoryText (cell.category?.map String.toList) := by
    cases cell.category? <;> rfl
  have htext : cell.text.toList = p.text := by
    rw [toList_text, hdigits, hid, Parts.text, List.append_nil]
  rw [htext]
  exact Parts.read_parts ⟨keycodeForm_iff.mpr ⟨h.balanced, h.keycode⟩, List.forall_mem_nil _, hhex,
    hcategory⟩ ⟨rfl, hdenotes, rfl⟩

/-! ### Reading -/

theorem exists_dropWhile_ne {c : Char} (h : (cs.takeWhile (· != c)).length ≠ cs.length) :
    ∃ after, cs.dropWhile (· != c) = c :: after := by
  cases hdrop : cs.dropWhile (· != c) with
  | nil =>
    refine absurd ?_ h
    rw [List.takeWhile_eq_self_iff.mpr (List.dropWhile_eq_nil_iff.mp hdrop)]
  | cons d after =>
    have hhead := List.head?_dropWhile_not (· != c) cs
    rw [hdrop] at hhead
    exact ⟨after, by rw [show d = c by simpa using hhead]⟩

theorem colorSuffix_eq_ok {n : Nat} {rest : List Char} {color? : Option Color}
    (h : colorSuffix offset cs = .ok (color?, n, rest)) :
    ∃ digits?, cs = Parts.colorText digits? ++ rest ∧
      (∀ digits, digits? = some digits → Color.IsHex digits) ∧
      Option.Rel Color.Denotes digits? color? ∧ n + size rest = offset + size cs := by
  unfold colorSuffix at h
  split at h
  next tail =>
    dsimp only at h
    split at h
    · cases h
    next hlength =>
      split at h
      next color hcolor =>
        cases h
        obtain ⟨after, hafter⟩ := exists_dropWhile_ne hlength
        unfold suffixColor? at hcolor
        split at hcolor
        next digits hinner =>
          obtain ⟨hhex, hdenotes⟩ := Color.ofDigits?_eq_some_iff.mp hcolor
          have htail : tail = '#' :: digits ++ '\x7d' :: after := by
            rw [← hinner, ← hafter, List.takeWhile_append_dropWhile]
          have hrest : tail.drop ('#' :: digits).length.succ = after := by
            rw [htail, List.drop_append, List.drop_eq_nil_of_le (by simp)]
            simp
          have hsize : size digits = 6 := by
            rw [← (Color.bounds_of_ofDigits? hcolor).1, size, List.countP_eq_length]
            intro d hd
            have hle := (Color.bounds_of_ofDigits? hcolor).2 d hd
            rw [bne_iff_ne]
            rintro rfl
            exact absurd hle (by decide)
          rw [hinner, ← Nat.succ_eq_add_one, hrest]
          refine ⟨some digits, ?_, ?_, .some hdenotes, ?_⟩
          · rw [htail]
            simp [Parts.colorText]
          · intro digits' heq
            cases heq
            exact hhex
          · rw [htail, List.cons_append, size_cons_of_ne (by decide), size_cons_of_ne (by decide),
              size_append, size_cons_of_ne (by decide), hsize, List.length_cons, hhex.1]
            omega
        next => cases hcolor
      next => cases h
  next hbrace =>
    cases h
    exact ⟨none, rfl, (fun _ h => by cases h), .none, rfl⟩

theorem categorySuffix_eq_ok {category? : Option String}
    (h : categorySuffix offset cs = .ok category?) :
    cs = Parts.categoryText (category?.map String.toList) ∧
      ∀ id, category? = some id → IsCategory id.toList := by
  unfold categorySuffix at h
  split at h
  · cases h
    exact ⟨rfl, nofun⟩
  next id =>
    split at h
    next hid =>
      cases h
      refine ⟨by simp [Parts.categoryText], fun id' heq => ?_⟩
      cases heq
      rw [String.toList_ofList]
      exact isCategoryId_eq_true_iff.mp hid
    next => cases h
  · cases h

theorem exists_parts_of_read {cell : Cell} (h : read cs = .ok cell) :
    ∃ p : Parts, p.Grammatical ∧ p.Means cell ∧ p.text = cs := by
  obtain ⟨key, rest, n, tail, rfl, hdepth, hkeycode, hcell, hcolor, hcategory⟩ := read_eq_ok h
  obtain ⟨ws, hblanks, hkey⟩ := exists_trimRight_append key
  obtain ⟨digits?, rfl, hhex, hdenotes, -⟩ := colorSuffix_eq_ok hcolor
  obtain ⟨rfl, hid⟩ := categorySuffix_eq_ok hcategory
  refine ⟨⟨trimRight key, ws, digits?, cell.category?.map String.toList⟩, ⟨?_, hblanks, hhex, ?_⟩,
    ⟨?_, hdenotes, rfl⟩, ?_⟩
  · exact keycodeForm_iff.mpr ⟨depthAfter_trimRight hdepth, hkeycode⟩
  · intro id hsome
    obtain ⟨id', hid', rfl⟩ := Option.map_eq_some_iff.mp hsome
    exact hid id' hid'
  · rw [hcell, String.toList_ofList]
  · rw [Parts.text, ← hkey]

theorem offset_of_colorSuffix {e : Malformed} (h : colorSuffix offset cs = .error e) :
    e.offset ≤ offset + size cs := by
  unfold colorSuffix at h
  split at h
  next rest =>
    have hsize : size ('\x7b' :: rest) = size rest + 1 := size_cons_of_ne (by decide) rest
    dsimp only at h
    split at h
    · cases h
      exact Nat.le_add_right _ _
    · split at h
      · cases h
      · cases h
        show offset + 1 ≤ _
        omega
  · cases h

theorem offset_of_categorySuffix {e : Malformed} (h : categorySuffix offset cs = .error e) :
    e.offset ≤ offset + size cs := by
  unfold categorySuffix at h
  split at h
  · cases h
  next id =>
    have hsize : size ('@' :: id) = size id + 1 := size_cons_of_ne (by decide) id
    split at h
    · cases h
    · cases h
      show offset + 1 ≤ _
      omega
  · cases h
    exact Nat.le_add_right _ _

theorem offset_of_read {e : Malformed} (h : read cs = .error e) : e.offset ≤ size cs := by
  rcases read_cases cs with ⟨e', herror, hle⟩ | ⟨key, rest, rfl, hdepth, hrest, hkeycode⟩
  · rw [h] at herror
    cases herror
    exact hle
  · rw [read_append hdepth hrest hkeycode] at h
    rw [size_append]
    cases hcolor : colorSuffix (size key) rest with
    | error e' =>
      rw [hcolor] at h
      cases h
      exact offset_of_colorSuffix hcolor
    | ok found =>
      obtain ⟨color?, n, tail⟩ := found
      obtain ⟨-, -, -, -, hplace⟩ := colorSuffix_eq_ok hcolor
      rw [hcolor] at h
      change (categorySuffix n tail).map _ = .error e at h
      cases hcategory : categorySuffix n tail with
      | error e' =>
        rw [hcategory] at h
        cases h
        have hle := offset_of_categorySuffix hcategory
        omega
      | ok category? =>
        rw [hcategory] at h
        cases h

theorem Grammatical.wellFormed {cell : Cell} (h : cell.Grammatical) : cell.WellFormed where
  balanced := (keycodeForm_iff.mp h.keycode).1
  keycode := (keycodeForm_iff.mp h.keycode).2
  category id hid := isCategoryId_eq_true_iff.mpr (h.category id hid)

/-- Reading gives a cell exactly if the text has the parts of one, in the one way it can be taken
apart; what is written of a cell of the grammar is read as that cell; and any other text is refused
at a place in it. -/
theorem read_grammar (cs : List Char) :
    (∀ cell, read cs = .ok cell ↔ ∃ p : Parts, p.Grammatical ∧ p.Means cell ∧ p.text = cs) ∧
      (∀ p q : Parts, p.Grammatical → q.Grammatical → p.text = cs → q.text = cs → p = q) ∧
      (∀ cell : Cell, cell.Grammatical → read cell.text.toList = .ok cell) ∧
      ((¬∃ p : Parts, p.Grammatical ∧ p.text = cs) →
        ∃ e, read cs = .error e ∧ e.offset ≤ size cs) := by
  refine ⟨fun cell => ⟨exists_parts_of_read, ?_⟩, ?_, fun cell h => read_text h.wellFormed, ?_⟩
  · rintro ⟨p, hp, hmeans, rfl⟩
    exact Parts.read_parts hp hmeans
  · rintro p q hp hq rfl heq
    exact Parts.eq_of_text_eq hp hq heq.symm
  · intro hnone
    cases hread : read cs with
    | ok cell =>
      obtain ⟨p, hp, -, htext⟩ := exists_parts_of_read hread
      exact absurd ⟨p, hp, htext⟩ hnone
    | error e => exact ⟨e, rfl, offset_of_read hread⟩

-- marks inside of the arguments belong to the keycode, and the color may be in small letters
example : read "LT(@nav, F(\x7b)) \x7b#00ff7f\x7d@nav".toList =
    .ok ⟨"LT(@nav, F(\x7b))", some ⟨0, 255, 127⟩, some "nav"⟩ := by
  rfl

end Keyforge.Document.Cell
