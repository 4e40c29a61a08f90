import Keyforge.Proofs.Color
import Keyforge.Proofs.Document.Line

/-!
# Reading categories back

The name of a category goes up to the first color that can end it, and may hold colors and dashes
itself. A name that was read is one of which no front is followed by a color (`Unsplit`), whatever
follows the name; such a name is read back from its line (`category?_line`).
-/

namespace Keyforge.Document.Line

open Keyforge.Text

variable {cs name : List Char} {color : Color} {description? : Option String}

/-! ### Colors after a name -/

/-- White space and a parenthesis: what follows the name of a category. -/
def Gap (cs : List Char) : Prop := ∃ b rest, cs = b :: rest ∧ isBlank b = true ∧
  (trimLeft rest).head? = some '('

/-- A name of which no front is followed by a color, whatever follows the name itself. -/
def Unsplit (name : List Char) : Prop :=
  ∀ front back, name = front ++ back → front ≠ [] → back ≠ [] →
    ∀ rest, Gap rest → categoryTail? (back ++ rest) = none

theorem eq_append_of_parenthesizedColor? {rest : List Char}
    (h : parenthesizedColor? cs = some (color, rest)) :
    ∃ digits, cs = '(' :: '#' :: digits ++ ')' :: rest ∧ Color.ofDigits? digits = some color := by
  unfold parenthesizedColor? at h
  split at h
  next a b c d e f rest' =>
    obtain ⟨found, hfound, heq⟩ := Option.map_eq_some_iff.mp h
    cases heq
    exact ⟨[a, b, c, d, e, f], rfl, hfound⟩
  · cases h

theorem parenthesizedColor?_append {digits : List Char} (h : Color.ofDigits? digits = some color)
    (rest : List Char) :
    parenthesizedColor? ('(' :: '#' :: digits ++ ')' :: rest) = some (color, rest) := by
  obtain ⟨hlen, -⟩ := Color.bounds_of_ofDigits? h
  match digits, hlen with
  | [a, b, c, d, e, f], _ =>
    show (Color.ofDigits? [a, b, c, d, e, f]).map _ = _
    rw [h]
    rfl

theorem last_of_suffix {ds : List Char} (h : ds <:+ cs) (hlast : NotBlank cs.getLast?) :
    NotBlank ds.getLast? := by
  intro c hc
  obtain ⟨front, rfl⟩ := h
  refine hlast c ?_
  rw [List.getLast?_append, hc]
  rfl

theorem skipBlanks1?_append (hne : cs ≠ []) (hlast : NotBlank cs.getLast?)
    {found : List Char} (rest : List Char) (h : skipBlanks1? (cs ++ rest) = some found) :
    ∃ tail, tail ≠ [] ∧ (∃ front, cs = front ++ tail) ∧ found = tail ++ rest ∧
      ∀ other, skipBlanks1? (cs ++ other) = some (tail ++ other) := by
  obtain ⟨c, cs, rfl⟩ := List.exists_cons_of_ne_nil hne
  rw [List.cons_append, skipBlanks1?] at h
  split at h
  next hc =>
    have hcs : cs ≠ [] := by
      rintro rfl
      rw [hlast c rfl] at hc
      cases hc
    have hblank : ∃ d ∈ cs, isBlank d = false :=
      exists_not_blank hcs fun d hd => hlast d (by rwa [List.getLast?_cons_of_ne_nil hcs])
    cases h
    have hleft := trimLeft_ne_nil hblank
    refine ⟨trimLeft cs, hleft, ?_, trimLeft_append_of_ne_nil hleft rest, fun other => ?_⟩
    · obtain ⟨front, hfront⟩ := trimLeft_suffix cs
      exact ⟨c :: front, by rw [List.cons_append, hfront]⟩
    · rw [List.cons_append, skipBlanks1?, if_pos hc, trimLeft_append_of_ne_nil hleft other]
  next => cases h

theorem Gap.skipBlanks1? (h : Gap cs) : ∃ rest, Text.skipBlanks1? cs = some ('(' :: rest) := by
  obtain ⟨b, rest, rfl, hb, hhead⟩ := h
  obtain ⟨tail, htail⟩ := List.head?_eq_some_iff.mp hhead
  exact ⟨tail, by rw [Text.skipBlanks1?, if_pos hb, htail]⟩

theorem isSome_colorTail?_iff (hne : cs ≠ []) :
    (colorTail? cs).isSome = true ↔
      ∃ rest text, skipBlanks1? cs = some ('-' :: rest) ∧ skipBlanks1? rest = some text ∧
        text ≠ [] := by
  rw [colorTail?, if_neg (by simpa using hne), Option.isSome_iff_exists]
  simp only [Option.bind_eq_bind, Option.bind_eq_some_iff]
  constructor
  · rintro ⟨found, behind, hbehind, rest, hrest, text, htext, h⟩
    refine ⟨rest, text, ?_, htext, ?_⟩
    · rw [hbehind, eq_append_of_after? hrest]
      rfl
    · rintro rfl
      cases h
  · rintro ⟨rest, text, hbehind, htext, hne⟩
    exact ⟨some (String.ofList text), '-' :: rest, hbehind, rest, rfl, text, htext,
      if_neg (by simpa using hne)⟩

theorem isSome_categoryTail?_iff :
    (categoryTail? cs).isSome = true ↔
      ∃ found color rest, skipBlanks1? cs = some found ∧
        parenthesizedColor? found = some (color, rest) ∧ (colorTail? rest).isSome = true := by
  rw [categoryTail?, Option.isSome_iff_exists]
  simp only [Option.bind_eq_bind, Option.bind_eq_some_iff]
  constructor
  · rintro ⟨result, found, hfound, ⟨color, rest⟩, hcolor, description?, htail, -⟩
    exact ⟨found, color, rest, hfound, hcolor, Option.isSome_of_eq_some htail⟩
  · rintro ⟨found, color, rest, hfound, hcolor, htail⟩
    obtain ⟨description?, htail⟩ := Option.isSome_iff_exists.mp htail
    exact ⟨(color, description?), found, hfound, (color, rest), hcolor, description?, htail, rfl⟩

theorem colorTail?_gap {rest other : List Char}
    (hlast : NotBlank cs.getLast?) (hrest : Gap rest) (hother : Gap other)
    (h : (colorTail? (cs ++ rest)).isSome = true) : (colorTail? (cs ++ other)).isSome = true := by
  obtain ⟨_, hparen⟩ := hrest.skipBlanks1?
  obtain ⟨behind, hbehind⟩ := hother.skipBlanks1?
  have hnil : ∀ gap : List Char, Gap gap → cs ++ gap ≠ [] := by
    rintro gap ⟨b, _, rfl, -⟩
    simp
  rw [isSome_colorTail?_iff (hnil _ hrest)] at h
  rw [isSome_colorTail?_iff (hnil _ hother)]
  obtain ⟨dashed, text, hdash, htext, -⟩ := h
  by_cases hcs : cs = []
  · -- a parenthesis is no dash
    rw [hcs, List.nil_append, hparen] at hdash
    cases hdash
  · obtain ⟨tail, hne, ⟨front, hfront⟩, htail, hskip⟩ := skipBlanks1?_append hcs hlast rest hdash
    obtain ⟨d, dashes, rfl⟩ := List.exists_cons_of_ne_nil hne
    cases htail
    refine ⟨dashes ++ other, ?_⟩
    by_cases hdashes : dashes = []
    · subst hdashes
      exact ⟨'(' :: behind, hskip other, hbehind, by simp⟩
    · have hlast' : NotBlank dashes.getLast? := last_of_suffix ⟨front ++ ['-'], by simp [hfront]⟩ hlast
      obtain ⟨words, hwords, -, -, hskip'⟩ := skipBlanks1?_append hdashes hlast' rest htext
      exact ⟨words ++ other, hskip other, hskip' other, by simp [hwords]⟩

theorem categoryTail?_gap {rest other : List Char} (hne : cs ≠ []) (hlast : NotBlank cs.getLast?)
    (hrest : Gap rest) (hother : Gap other) (h : (categoryTail? (cs ++ rest)).isSome = true) :
    (categoryTail? (cs ++ other)).isSome = true := by
  rw [isSome_categoryTail?_iff] at h ⊢
  obtain ⟨found, color, behind, hfound, hcolor, htail⟩ := h
  obtain ⟨tail, htailNe, ⟨front, hfront⟩, rfl, hskip⟩ := skipBlanks1?_append hne hlast rest hfound
  obtain ⟨digits, hdigits, hread⟩ := eq_append_of_parenthesizedColor? hcolor
  have hcut : tail ++ rest = ('(' :: '#' :: digits ++ [')']) ++ behind := by
    rw [hdigits]
    simp
  have hvisible : Visible ('(' :: '#' :: digits ++ [')']) := by
    have hdigit := (Color.bounds_of_ofDigits? hread).2
    intro c hc
    simp only [List.cons_append, List.mem_cons, List.mem_append, List.not_mem_nil, or_false] at hc
    rcases hc with rfl | rfl | hc | rfl
    · decide
    · decide
    · have := hdigit c hc
      omega
    · decide
  have htails : ∃ left, tail = ('(' :: '#' :: digits ++ [')']) ++ left ∧ behind = left ++ rest := by
    rcases List.append_eq_append_iff.mp hcut with ⟨left, hleft, hbehind⟩ | ⟨left, hleft, hbehind⟩
    · -- the color does not reach into the gap
      cases left with
      | nil => exact ⟨[], by simpa using hleft.symm, by simpa using hbehind.symm⟩
      | cons b left =>
        obtain ⟨x, y, rfl, hx, -⟩ := hrest
        cases hbehind
        have hblank := hvisible.isBlank (hleft ▸ List.mem_append_right tail List.mem_cons_self)
        rw [hx] at hblank
        cases hblank
    · exact ⟨left, hleft, hbehind⟩
  obtain ⟨left, hleft, hbehind⟩ := htails
  refine ⟨tail ++ other, color, left ++ other, hskip other, ?_, ?_⟩
  · rw [hleft]
    simpa using parenthesizedColor?_append hread (left ++ other)
  · refine colorTail?_gap (last_of_suffix ?_ hlast) hrest hother (hbehind ▸ htail)
    rw [hfront, hleft]
    exact (List.suffix_append _ left).trans (List.suffix_append front _)

/-- A name is found where the first color follows it. -/
theorem categoryName?_append {name front back : List Char} {color : Color}
    {description? : Option String} (hne : name.reverse ++ front ≠ []) (hback : back ≠ [])
    (h : categoryTail? back = some (color, description?))
    (hfirst : ∀ us vs, front = us ++ vs → vs ≠ [] → name.reverse ++ us ≠ [] →
      categoryTail? (vs ++ back) = none) :
    categoryName? name (front ++ back) = some (name.reverse ++ front, color, description?) := by
  induction front generalizing name with
  | nil =>
    obtain ⟨b, back, rfl⟩ := List.exists_cons_of_ne_nil hback
    have hname : name ≠ [] := by simpa using hne
    rw [List.nil_append, categoryName?, if_neg (by simpa using hname), h, List.append_nil]
  | cons c front ih =>
    have hnone : (if name.isEmpty then none else categoryTail? (c :: (front ++ back))) = none := by
      split
      · rfl
      next hname =>
        exact hfirst [] (c :: front) rfl (by simp) (by simpa using hname)
    rw [List.cons_append, categoryName?, hnone]
    have hnext : categoryName? (c :: name) (front ++ back) =
        some ((c :: name).reverse ++ front, color, description?) :=
      ih (by simp) fun us vs hfront hvs _ => hfirst (c :: us) vs (by rw [hfront]; rfl) hvs (by simp)
    simpa using hnext

theorem eq_append_of_categoryName? {raw : List Char}
    (h : categoryName? name cs = some (raw, color, description?)) :
    ∃ front back, cs = front ++ back ∧ raw = name.reverse ++ front ∧ raw ≠ [] ∧
      categoryTail? back = some (color, description?) ∧
      ∀ us vs, front = us ++ vs → vs ≠ [] → name.reverse ++ us ≠ [] →
        categoryTail? (vs ++ back) = none := by
  induction cs generalizing name with
  | nil => cases h
  | cons c rest ih =>
    rw [categoryName?] at h
    split at h
    next found hfound =>
      cases h
      split at hfound
      · cases hfound
      next hname =>
        have hname : name ≠ [] := by simpa using hname
        refine ⟨[], c :: rest, rfl, by simp, by simpa using hname, hfound, ?_⟩
        intro us vs hnil hvs
        exact absurd (List.append_eq_nil_iff.mp hnil.symm).2 hvs
    next hnone =>
      obtain ⟨front, back, rfl, rfl, hne, htail, hfirst⟩ := ih h
      refine ⟨c :: front, back, rfl, by simp, hne, htail, fun us vs hus hvs husNe => ?_⟩
      cases us with
      | nil =>
        have hname : name ≠ [] := by simpa using husNe
        rw [if_neg (by simpa using hname)] at hnone
        rw [List.nil_append] at hus
        rw [← hus]
        exact hnone
      | cons u us =>
        cases hus
        exact hfirst us vs rfl hvs (by simp)

theorem categoryName?_ne_none {front back : List Char} (hne : name.reverse ++ front ≠ [])
    (hback : back ≠ []) (h : (categoryTail? back).isSome = true) :
    categoryName? name (front ++ back) ≠ none := by
  induction front generalizing name with
  | nil =>
    obtain ⟨b, back, rfl⟩ := List.exists_cons_of_ne_nil hback
    obtain ⟨⟨color, description?⟩, htail⟩ := Option.isSome_iff_exists.mp h
    have hname : name ≠ [] := by simpa using hne
    rw [List.nil_append, categoryName?, if_neg (by simpa using hname), htail]
    simp
  | cons c front ih =>
    rw [List.cons_append, categoryName?]
    split
    · simp
    · exact ih (by simp)

/-- If no name starts after the white space, those that start in it are blank. -/
theorem blank_of_categoryBody? {ws raw : List Char} (hws : ∀ c ∈ ws, isBlank c = true)
    (hnone : categoryName? [] cs = none) {count : Nat}
    (h : categoryBody? count (ws ++ cs) = some (raw, color, description?))
    (hcount : count ≤ ws.length) : ∀ c ∈ raw, isBlank c = true := by
  induction count with
  | zero => cases h
  | succ count ih =>
    rw [categoryBody?] at h
    split at h
    next found hfound =>
      cases h
      rw [List.drop_append_of_le_length hcount] at hfound
      obtain ⟨front, back, hcut, rfl, hne, htail, -⟩ := eq_append_of_categoryName? hfound
      have hblank : ∀ c ∈ ws.drop (count + 1), isBlank c = true :=
        fun c hc => hws c (List.mem_of_mem_drop hc)
      rcases List.append_eq_append_iff.mp hcut with ⟨left, rfl, rfl⟩ | ⟨left, hleft, -⟩
      · by_cases hleft : left = []
        · subst hleft
          simpa using hblank
        · refine absurd hnone (categoryName?_ne_none (by simpa using hleft) ?_ ?_)
          · rintro rfl
            cases htail
          · rw [htail]
            rfl
      · intro c hc
        exact hblank c (by rw [hleft]; exact List.mem_append_left left (by simpa using hc))
    next => exact ih h (by omega)

theorem gap_of_categoryTail? (h : (categoryTail? cs).isSome = true) : Gap cs := by
  obtain ⟨found, color, rest, hfound, hcolor, -⟩ := isSome_categoryTail?_iff.mp h
  obtain ⟨digits, rfl, -⟩ := eq_append_of_parenthesizedColor? hcolor
  cases cs with
  | nil => cases hfound
  | cons b cs =>
    rw [skipBlanks1?] at hfound
    split at hfound
    next hb => exact ⟨b, cs, rfl, hb, by rw [Option.some.inj hfound]; rfl⟩
    next => cases hfound

theorem categoryTail?_blank_cons {b : Char} (hb : isBlank b = true) (hcs : Gap cs) :
    categoryTail? (b :: cs) = categoryTail? cs := by
  obtain ⟨c, rest, rfl, hc, -⟩ := hcs
  have hskip : skipBlanks1? (b :: c :: rest) = skipBlanks1? (c :: rest) := by
    rw [skipBlanks1?, skipBlanks1?, if_pos hb, if_pos hc, trimLeft, List.dropWhile_cons_of_pos hc]
    rfl
  rw [categoryTail?, categoryTail?, hskip]

theorem unsplit_of_categoryName? {raw : List Char} (hcs : NotBlank cs.head?)
    (h : categoryName? [] cs = some (raw, color, description?)) :
    raw ≠ [] ∧ Trimmed raw ∧ Unsplit raw := by
  obtain ⟨front, back, rfl, rfl, hne, htail, hfirst⟩ := eq_append_of_categoryName? h
  have hsome : (categoryTail? back).isSome = true := Option.isSome_of_eq_some htail
  have hgap := gap_of_categoryTail? hsome
  simp only [List.reverse_nil, List.nil_append] at hne hfirst ⊢
  have hhead : NotBlank raw.head? := by
    intro c hc
    refine hcs c ?_
    rw [List.head?_append, hc]
    rfl
  have hlast : NotBlank raw.getLast? := by
    intro c hc
    cases hblank : isBlank c with
    | false => rfl
    | true =>
      -- the name would end before its last character
      obtain ⟨us, rfl⟩ := List.getLast?_eq_some_iff.mp hc
      have hus : us ≠ [] := by
        rintro rfl
        rw [hhead c rfl] at hblank
        cases hblank
      have hnone := hfirst us [c] rfl (by simp) hus
      rw [List.singleton_append, categoryTail?_blank_cons hblank hgap, htail] at hnone
      cases hnone
  refine ⟨hne, ⟨hhead, hlast⟩, fun us vs hcut hus hvs rest hrest => ?_⟩
  have hlast' := last_of_suffix ⟨us, hcut.symm⟩ hlast
  cases hfound : categoryTail? (vs ++ rest) with
  | none => rfl
  | some found =>
    have hback := categoryTail?_gap hvs hlast' hrest hgap (Option.isSome_of_eq_some hfound)
    rw [hfirst us vs hcut hvs hus] at hback
    cases hback

theorem phrase_of_colorTail? {text : String} (hcs : OneLine cs) (hlast : NotBlank cs.getLast?)
    (h : colorTail? cs = some (some text)) : Phrase text.toList := by
  unfold colorTail? at h
  split at h
  · cases h
  · simp only [Option.bind_eq_bind, Option.bind_eq_some_iff] at h
    obtain ⟨behind, hbehind, rest, hrest, found, hfound, h⟩ := h
    have hsuffix : found <:+ cs :=
      (suffix_of_skipBlanks1? hfound).trans
        ((suffix_of_after? hrest).trans (suffix_of_skipBlanks1? hbehind))
    obtain ⟨-, -, -, -, hhead⟩ := eq_append_of_skipBlanks1? hfound
    split at h
    · cases h
    next hne =>
      cases h
      rw [String.toList_ofList]
      exact ⟨by simpa using hne, ⟨hhead, last_of_suffix hsuffix hlast⟩, hcs.sublist hsuffix.sublist⟩

theorem phrase_of_categoryTail? {text : String} (hcs : OneLine cs) (hlast : NotBlank cs.getLast?)
    (h : categoryTail? cs = some (color, some text)) : Phrase text.toList := by
  simp only [categoryTail?, Option.bind_eq_bind, Option.bind_eq_some_iff] at h
  obtain ⟨found, hfound, ⟨color', rest⟩, hcolor, description?, htail, h⟩ := h
  cases h
  obtain ⟨digits, rfl, -⟩ := eq_append_of_parenthesizedColor? hcolor
  have hsuffix : rest <:+ cs :=
    List.IsSuffix.trans ⟨'(' :: '#' :: digits ++ [')'], by simp⟩ (suffix_of_skipBlanks1? hfound)
  exact phrase_of_colorTail? (hcs.sublist hsuffix.sublist) (last_of_suffix hsuffix hlast) htail

theorem categoryBody?_append {ws : List Char} {found : List Char × Color × Option String}
    (hws : ws ≠ []) (h : categoryName? [] cs = some found) :
    categoryBody? ws.length (ws ++ cs) = some found := by
  obtain ⟨w, ws, rfl⟩ := List.exists_cons_of_ne_nil hws
  rw [List.length_cons, categoryBody?, ← List.length_cons (a := w), List.drop_left, h]

theorem categoryName?_of_categoryBody? {ws raw : List Char} (hws : ∀ c ∈ ws, isBlank c = true)
    (hcs : NotBlank cs.head?)
    (h : categoryBody? ((ws ++ cs).takeWhile isBlank).length (ws ++ cs) =
      some (raw, color, description?))
    (hraw : trim raw ≠ []) : categoryName? [] cs = some (raw, color, description?) := by
  rw [(takeWhile_append_stop hws hcs).1] at h
  cases hfirst : categoryName? [] cs with
  | none => exact absurd (trim_eq_nil_iff.mpr (blank_of_categoryBody? hws hfirst h le_rfl)) hraw
  | some found =>
    by_cases hnil : ws = []
    · rw [hnil] at h
      cases h
    · rw [categoryBody?_append hnil hfirst] at h
      exact h

theorem unsplit_of_category? {entry : CategoryEntry} (hcs : OneLine cs) (htrimmed : Trimmed cs)
    (h : category? cs = some entry) (hname : trim entry.name.toList ≠ []) :
    Name.isCategoryId entry.id.toList = true ∧ Phrase entry.name.toList ∧
      Unsplit entry.name.toList ∧ ∀ text, entry.description? = some text → Phrase text.toList := by
  simp only [category?, Option.bind_eq_bind, Option.bind_eq_some_iff] at h
  obtain ⟨behind, hitem, h⟩ := h
  split at h
  · cases h
  next hid =>
    obtain ⟨rest, hrest, h⟩ := Option.bind_eq_some_iff.mp h
    obtain ⟨⟨raw, color, description?⟩, hbody, h⟩ := Option.bind_eq_some_iff.mp h
    cases h
    rw [String.toList_ofList] at hname
    simp only [String.toList_ofList]
    have hsuffix : rest <:+ cs :=
      (suffix_of_after? hrest).trans ((List.dropWhile_suffix _).trans (suffix_of_item? hitem))
    have hfound : categoryName? [] (trimLeft rest) = some (raw, color, description?) := by
      have hcut : rest.takeWhile isBlank ++ trimLeft rest = rest := List.takeWhile_append_dropWhile
      rw [← hcut] at hbody
      exact categoryName?_of_categoryBody? (fun c hc => List.mem_takeWhile_imp hc)
        (head_trimLeft rest) hbody hname
    obtain ⟨hne, htrim, hunsplit⟩ := unsplit_of_categoryName? (head_trimLeft rest) hfound
    obtain ⟨front, back, hcut, hraw, -, htail, -⟩ := eq_append_of_categoryName? hfound
    have hback : back <:+ cs :=
      List.IsSuffix.trans ⟨front, hcut.symm⟩ ((trimLeft_suffix rest).trans hsuffix)
    have hfront : raw.Sublist cs := by
      have hpre : raw <+: trimLeft rest := by
        rw [hcut, hraw]
        exact List.prefix_append front back
      exact hpre.sublist.trans ((trimLeft_suffix rest).trans hsuffix).sublist
    refine ⟨by simpa using hid, ⟨hne, htrim, hcs.sublist hfront⟩, hunsplit, fun text ht => ?_⟩
    exact phrase_of_categoryTail? (hcs.sublist hback.sublist)
      (last_of_suffix hback htrimmed.last) (ht ▸ htail)

/-! ### The line of a category -/

/-- A dash and the description of a category, nothing if there is none. -/
def dashed : Option String → List Char
  | none => []
  | some text => ' ' :: '-' :: ' ' :: text.toList

/-- The end of a category's entry: its color and what follows it. -/
def categoryEnd (color : Color) (description? : Option String) : List Char :=
  ' ' :: '(' :: (color.hexChars ++ ')' :: dashed description?)

theorem gap_categoryEnd (color : Color) (description? : Option String) :
    Gap (categoryEnd color description?) :=
  ⟨' ', _, rfl, by decide, by rw [trimLeft, List.dropWhile_cons_of_neg (by decide)]; rfl⟩

theorem colorTail?_dashed (h : ∀ text, description? = some text → Phrase text.toList) :
    colorTail? (dashed description?) = some description? := by
  cases description? with
  | none => rfl
  | some text =>
    have htext := h text rfl
    have hdash : skipBlanks1? (' ' :: '-' :: ' ' :: text.toList) = some ('-' :: ' ' :: text.toList) :=
      skipBlanks1?_cons (by decide) fun c hc => by cases hc; decide
    have hskip : skipBlanks1? (' ' :: text.toList) = some text.toList :=
      skipBlanks1?_cons (by decide) htext.trimmed.head
    have hafter : after? ['-'] ('-' :: ' ' :: text.toList) = some (' ' :: text.toList) := rfl
    rw [dashed, colorTail?, if_neg (by simp)]
    simp only [hdash, hafter, hskip, Option.bind_eq_bind, Option.bind_some, String.ofList_toList]
    exact if_neg (by simpa using htext.ne_nil)

theorem categoryTail?_categoryEnd (color : Color)
    (h : ∀ text, description? = some text → Phrase text.toList) :
    categoryTail? (categoryEnd color description?) = some (color, description?) := by
  obtain ⟨a, b, c, d, e, f, htext, hdigits⟩ := Color.exists_hexChars color
  have hskip : skipBlanks1? (categoryEnd color description?) =
      some ('(' :: (color.hexChars ++ ')' :: dashed description?)) :=
    skipBlanks1?_cons (by decide) fun x hx => by cases hx; decide
  have hcolor : parenthesizedColor? ('(' :: (color.hexChars ++ ')' :: dashed description?)) =
      some (color, dashed description?) := by
    rw [htext]
    exact parenthesizedColor?_append hdigits (dashed description?)
  rw [categoryTail?]
  simp only [hskip, hcolor, colorTail?_dashed h, Option.bind_eq_bind, Option.bind_some]
  rfl

theorem category?_line {id : List Char} (color : Color) (hid : Name.isCategoryId id = true)
    (hname : Phrase name) (hunsplit : Unsplit name)
    (hdescription : ∀ text, description? = some text → Phrase text.toList) :
    category? (['-', ' '] ++ id ++ [':', ' '] ++ name ++ categoryEnd color description?) =
      some ⟨String.ofList id, String.ofList name, color, description?⟩ := by
  have hgap := gap_categoryEnd color description?
  have hidHead : ∀ c, (id ++ (':' :: ' ' :: (name ++ categoryEnd color description?))).head? =
      some c → isBlank c = false := fun c hc =>
    (Name.visible_of_isCategoryId hid).head_append (Name.ne_nil_of_startsAndGoesOn hid) hc
  have hnameHead : ∀ c, (name ++ categoryEnd color description?).head? = some c →
      isBlank c = false := by
    intro c hc
    rw [List.head?_append_of_ne_nil _ hname.ne_nil] at hc
    exact hname.trimmed.head c hc
  have hline : ['-', ' '] ++ id ++ [':', ' '] ++ name ++ categoryEnd color description? =
      '-' :: ' ' :: (id ++ (':' :: ' ' :: (name ++ categoryEnd color description?))) := by
    simp
  obtain ⟨htake, hdrop⟩ := takeWhile_append_stop
    (fun c hc => Name.isCategoryChar_of_mem hid hc)
    (fun c (hc : (':' :: ' ' :: (name ++ categoryEnd color description?)).head? = some c) => by
      cases hc
      decide)
  have hafter : after? [':'] (':' :: ' ' :: (name ++ categoryEnd color description?)) =
      some (' ' :: (name ++ categoryEnd color description?)) := rfl
  have hfound : categoryName? [] (name ++ categoryEnd color description?) =
      some (name, color, description?) := by
    refine categoryName?_append (by simpa using hname.ne_nil) (by simp [categoryEnd])
      (categoryTail?_categoryEnd color hdescription) fun us vs hcut hvs hus => ?_
    exact hunsplit us vs hcut (by simpa using hus) hvs _ hgap
  have hbody : categoryBody?
      ((' ' :: (name ++ categoryEnd color description?)).takeWhile isBlank).length
      (' ' :: (name ++ categoryEnd color description?)) = some (name, color, description?) := by
    have hblank : ∀ c ∈ [' '], isBlank c = true := List.forall_mem_singleton.mpr rfl
    rw [← List.singleton_append, (takeWhile_append_stop hblank hnameHead).1]
    exact categoryBody?_append (by simp) hfound
  rw [hline, category?]
  simp only [item?_dash hidHead, htake, hdrop, hid, hafter, hbody, Option.bind_eq_bind,
    Option.bind_some, Bool.not_true, Bool.false_eq_true, if_false]
  rfl

end Keyforge.Document.Line
