import Keyforge.Keycode.Table
import Keyforge.Proofs.Layout.Name

/-!
# References to tap dances

No parenthesis opens inside of a reference, so references do not overlap, and cutting a keycode
finds them all (`tapDance_mem_iff`). For the same reason a name can be replaced without making or
losing references.
-/

namespace Keyforge.Keycode

open Keyforge.Text

variable {c : Char} {cs after : List Char} {name : List Char}

/-! ### The form of a reference -/

theorem isBlank_eq_false_of_isNameChar (h : isNameChar c = true) : isBlank c = false := by
  simp only [isNameChar, Bool.not_eq_true', Bool.or_eq_false_iff] at h
  exact h.1.1.1

theorem isNameChar_eq_false_of_isBlank (h : isBlank c = true) : isNameChar c = false := by
  simp [isNameChar, h]

/-- The text between parentheses is a name with white space around it. -/
def HoldsName (inner name : List Char) : Prop :=
  ∃ before behind, inner = before ++ (name ++ behind) ∧ (∀ c ∈ before, isBlank c = true) ∧
    (∀ c ∈ name, isNameChar c = true) ∧ ∀ c ∈ behind, isBlank c = true

theorem HoldsName.open_notMem {inner : List Char} (h : HoldsName inner name) : '(' ∉ inner := by
  obtain ⟨before, behind, rfl, hbefore, hname, hbehind⟩ := h
  simp only [List.mem_append, not_or]
  exact ⟨fun hmem => absurd (hbefore _ hmem) (by decide),
    fun hmem => absurd (hname _ hmem) (by decide), fun hmem => absurd (hbehind _ hmem) (by decide)⟩

theorem holdsName_self (h : ∀ c ∈ name, isNameChar c = true) : HoldsName name name :=
  ⟨[], [], by simp, by simp, h, by simp⟩

theorem eq_false_of_head {p : Char → Bool} (hp : ∀ {c}, isBlank c = true → p c = false)
    {behind : List Char} (hbehind : ∀ c ∈ behind, isBlank c = true) (stop : Char)
    (hstop : p stop = false) (after : List Char) (c : Char)
    (hc : (behind ++ stop :: after).head? = some c) : p c = false := by
  cases behind with
  | nil =>
    cases hc
    exact hstop
  | cons b behind =>
    cases hc
    exact hp (hbehind c List.mem_cons_self)

theorem tapDance?_eq_some_iff :
    tapDance? cs = some (name, after) ↔
      ∃ inner, HoldsName inner name ∧ cs = 'T' :: 'D' :: '(' :: (inner ++ ')' :: after) := by
  constructor
  · intro h
    unfold tapDance? at h
    split at h
    next rest =>
      simp only at h
      split at h
      next tail htail =>
        cases h
        refine ⟨rest.takeWhile isBlank ++ ((trimLeft rest).takeWhile isNameChar ++
          ((trimLeft rest).dropWhile isNameChar).takeWhile isBlank), ⟨_, _, rfl, ?_, ?_, ?_⟩, ?_⟩
        · exact fun c hc => List.mem_takeWhile_imp hc
        · exact fun c hc => List.mem_takeWhile_imp hc
        · exact fun c hc => List.mem_takeWhile_imp hc
        · rw [← htail]
          simp only [trimLeft, List.append_assoc, List.takeWhile_append_dropWhile]
      next => cases h
    next => cases h
  · rintro ⟨_, ⟨before, behind, rfl, hbefore, hname, hbehind⟩, rfl⟩
    have hclose : trimLeft (behind ++ ')' :: after) = ')' :: after :=
      (takeWhile_append_stop hbehind (by simp [isBlank])).2
    have hopen : trimLeft (before ++ (name ++ behind) ++ ')' :: after) =
        trimLeft (name ++ (behind ++ ')' :: after)) := by
      rw [trimLeft, List.append_assoc, List.append_assoc, List.dropWhile_append_of_pos hbefore]
      rfl
    rw [tapDance?, hopen]
    cases name with
    | nil =>
      -- without a name, the white space on both sides is skipped at once
      have hstop : isNameChar ')' = false := by decide
      have hself : trimLeft (')' :: after) = ')' :: after := trimLeft_eq_self (by simp [isBlank])
      simp only [List.nil_append, hclose, List.takeWhile_cons, List.dropWhile_cons, hstop,
        Bool.false_eq_true, if_false, hself]
    | cons c name =>
      obtain ⟨htake, hdrop⟩ := takeWhile_append_stop hname
        (eq_false_of_head isNameChar_eq_false_of_isBlank hbehind ')' (by decide) after)
      have hself : trimLeft (c :: name ++ (behind ++ ')' :: after)) =
          c :: name ++ (behind ++ ')' :: after) :=
        trimLeft_eq_self (by simp [isBlank_eq_false_of_isNameChar (hname c List.mem_cons_self)])
      simp only [hself, htake, hdrop, hclose]

/-! ### Where references are -/

/-- A text refers to the tap dance with a name somewhere. -/
inductive Refers (name : List Char) : Bool → List Char → Prop
  | here {cs after : List Char} (h : tapDance? cs = some (name, after)) : Refers name false cs
  | there {inWord : Bool} {c : Char} {cs : List Char} (h : Refers name (isWord c) cs) :
      Refers name inWord (c :: cs)

namespace Refers

variable {inWord : Bool}

theorem append_left (before : List Char) (h : Refers name true cs) :
    Refers name inWord (before ++ cs) := by
  induction before generalizing inWord with
  | nil =>
    cases h with
    | there h => exact .there h
  | cons c before ih => exact .there ih

theorem behind_paren (before : List Char) (h : Refers name false after) :
    Refers name inWord (before ++ ')' :: after) := by
  induction before generalizing inWord with
  | nil => exact .there h
  | cons c before ih => exact .there ih

/-- No reference starts where no parenthesis opens. -/
theorem of_append_paren {inner : List Char}
    (hopen : '(' ∉ inner) (h : Refers name inWord (inner ++ ')' :: after)) :
    Refers name false after := by
  induction inner generalizing inWord with
  | nil =>
    cases h with
    | here h =>
      obtain ⟨_, -, heq⟩ := tapDance?_eq_some_iff.mp h
      cases heq
    | there h => exact h
  | cons c inner ih =>
    cases h with
    | here h =>
      -- the parenthesis of the reference would have to be among the next two characters
      obtain ⟨_, -, heq⟩ := tapDance?_eq_some_iff.mp h
      match inner, heq with
      | [], heq => cases heq
      | [_], heq => cases heq
      | d :: paren :: inner, heq =>
        simp only [List.cons_append, List.cons.injEq] at heq
        simp [heq.2.2.1] at hopen
    | there h => exact ih (fun hmem => hopen (List.mem_cons_of_mem c hmem)) h

/-- References do not overlap: all others are behind the first one. -/
theorem of_tapDance? {first : List Char} (hfirst : tapDance? cs = some (first, after))
    (h : Refers name false cs) : name = first ∨ Refers name false after := by
  cases h with
  | here h =>
    rw [hfirst] at h
    cases h
    exact .inl rfl
  | there h =>
    obtain ⟨inner, hinner, heq⟩ := tapDance?_eq_some_iff.mp hfirst
    cases heq
    -- behind the first letter, the next character where a reference may start is that of the name
    cases h with
    | there h =>
      cases h with
      | there h => exact .inr (of_append_paren hinner.open_notMem h)

end Refers

/-! ### Cutting -/

@[simp] theorem tapDancePiecesFrom_nil (inWord : Bool) : tapDancePiecesFrom inWord [] = [] := by
  rw [tapDancePiecesFrom]

theorem tapDancePiecesFrom_of_some (h : tapDance? cs = some (name, after)) :
    tapDancePiecesFrom false cs = .tapDance name :: tapDancePiecesFrom false after := by
  cases cs with
  | nil => cases h
  | cons c rest =>
    rw [tapDancePiecesFrom]
    split
    next heq =>
      rw [if_neg Bool.false_ne_true, h] at heq
      cases heq
      rfl
    next heq =>
      rw [if_neg Bool.false_ne_true, h] at heq
      cases heq

theorem tapDancePiecesFrom_cons {inWord : Bool} {rest : List Char}
    (h : inWord = false → tapDance? (c :: rest) = none) :
    tapDancePiecesFrom inWord (c :: rest) = .char c :: tapDancePiecesFrom (isWord c) rest := by
  have hnone : (if inWord then none else tapDance? (c :: rest)) = none := by
    cases inWord with
    | true => rfl
    | false => exact h rfl
  rw [tapDancePiecesFrom]
  split
  next heq =>
    rw [hnone] at heq
    cases heq
  next => rfl

@[elab_as_elim]
theorem cutting_induction {motive : Bool → List Char → Prop} (nil : ∀ inWord, motive inWord [])
    (reference : ∀ cs name after, tapDance? cs = some (name, after) → motive false after →
      motive false cs)
    (char : ∀ inWord c rest, (inWord = false → tapDance? (c :: rest) = none) →
      motive (isWord c) rest → motive inWord (c :: rest)) (inWord : Bool) (cs : List Char) :
    motive inWord cs := by
  fun_induction tapDancePiecesFrom inWord cs with
  | case1 inWord => exact nil inWord
  | case2 inWord c rest name after hfound ih =>
    cases inWord with
    | true => cases hfound
    | false => exact reference (c :: rest) name after hfound ih
  | case3 inWord c rest hnone ih =>
    refine char inWord c rest ?_ ih
    rintro rfl
    exact hnone

/-- Cutting finds a name exactly if the text refers to it. -/
theorem tapDance_mem_iff {inWord : Bool} :
    .tapDance name ∈ tapDancePiecesFrom inWord cs ↔ Refers name inWord cs := by
  induction inWord, cs using cutting_induction with
  | nil inWord =>
    rw [tapDancePiecesFrom_nil]
    refine ⟨nofun, fun h => ?_⟩
    cases h with
    | here h => cases h
  | reference cs first after hfirst ih =>
    rw [tapDancePiecesFrom_of_some hfirst, List.mem_cons, ih, TapDancePiece.tapDance.injEq]
    refine ⟨?_, Refers.of_tapDance? hfirst⟩
    rintro (rfl | h)
    · exact .here hfirst
    · obtain ⟨inner, -, rfl⟩ := tapDance?_eq_some_iff.mp hfirst
      exact h.behind_paren ('T' :: 'D' :: '(' :: inner)
  | char inWord c rest hnone ih =>
    rw [tapDancePiecesFrom_cons hnone, List.mem_cons, ih]
    constructor
    · rintro (h | h)
      · cases h
      · exact .there h
    · intro h
      cases h with
      | here h =>
        rw [hnone rfl] at h
        cases h
      | there h => exact .inr h

theorem mem_of_char_mem {inWord : Bool} (h : .char c ∈ tapDancePiecesFrom inWord cs) : c ∈ cs := by
  induction inWord, cs using cutting_induction with
  | nil inWord =>
    rw [tapDancePiecesFrom_nil] at h
    cases h
  | reference cs first after hfirst ih =>
    rw [tapDancePiecesFrom_of_some hfirst] at h
    obtain ⟨inner, -, rfl⟩ := tapDance?_eq_some_iff.mp hfirst
    rcases List.mem_cons.mp h with h | h
    · cases h
    · simp [ih h]
  | char inWord d rest hnone ih =>
    rw [tapDancePiecesFrom_cons hnone] at h
    rcases List.mem_cons.mp h with h | h
    · cases h
      exact List.mem_cons_self
    · exact List.mem_cons_of_mem d (ih h)

/-! ### Replacing names -/

def TapDancePiece.rename (f : List Char → List Char) : TapDancePiece → TapDancePiece
  | .char c => .char c
  | .tapDance name => .tapDance (f name)

/-- The text from a character on, with `f` of its name in every reference. -/
def replaceFrom (f : List Char → List Char) (inWord : Bool) (cs : List Char) : List Char :=
  (tapDancePiecesFrom inWord cs).flatMap (TapDancePiece.replace f)

variable {f : List Char → List Char} {inWord : Bool}

@[simp] theorem replaceFrom_nil : replaceFrom f inWord [] = [] := by
  rw [replaceFrom, tapDancePiecesFrom_nil, List.flatMap_nil]

theorem replaceFrom_of_some (h : tapDance? cs = some (name, after)) :
    replaceFrom f false cs = 'T' :: 'D' :: '(' :: (f name ++ ')' :: replaceFrom f false after) := by
  simp [replaceFrom, tapDancePiecesFrom_of_some h, TapDancePiece.replace]

theorem replaceFrom_cons {rest : List Char} (h : inWord = false → tapDance? (c :: rest) = none) :
    replaceFrom f inWord (c :: rest) = c :: replaceFrom f (isWord c) rest := by
  simp [replaceFrom, tapDancePiecesFrom_cons h, TapDancePiece.replace]

theorem exists_cons_of_replaceFrom {replaced : List Char}
    (h : replaceFrom f true cs = c :: replaced) :
    ∃ rest, cs = c :: rest ∧ replaceFrom f (isWord c) rest = replaced := by
  cases cs with
  | nil => simp at h
  | cons d rest =>
    have hword : true = false → tapDance? (d :: rest) = none := nofun
    rw [replaceFrom_cons hword] at h
    obtain ⟨rfl, hrest⟩ := List.cons.inj h
    exact ⟨rest, rfl, hrest⟩

theorem exists_append_of_replaceFrom {cs before after : List Char} (hopen : '(' ∉ before)
    (h : replaceFrom f inWord cs = before ++ after) : ∃ rest, cs = before ++ rest := by
  induction inWord, cs using cutting_induction generalizing before with
  | nil inWord =>
    rw [replaceFrom_nil] at h
    rw [(List.append_eq_nil_iff.mp h.symm).1]
    exact ⟨[], rfl⟩
  | reference cs first later hfirst ih =>
    rw [replaceFrom_of_some hfirst] at h
    obtain ⟨inner, -, rfl⟩ := tapDance?_eq_some_iff.mp hfirst
    match before with
    | [] => exact ⟨_, rfl⟩
    | [t] =>
      obtain ⟨rfl, -⟩ := List.cons.inj h
      exact ⟨_, rfl⟩
    | [t, d] =>
      obtain ⟨rfl, htail⟩ := List.cons.inj h
      obtain ⟨rfl, -⟩ := List.cons.inj htail
      exact ⟨_, rfl⟩
    | t :: d :: paren :: before =>
      simp only [List.cons_append, List.cons.injEq] at h
      simp [← h.2.2.1] at hopen
  | char inWord c rest hnone ih =>
    rw [replaceFrom_cons hnone] at h
    cases before with
    | nil => exact ⟨_, rfl⟩
    | cons b before =>
      obtain ⟨rfl, hrest⟩ := List.cons.inj h
      obtain ⟨tail, rfl⟩ := ih (fun hmem => hopen (List.mem_cons_of_mem c hmem)) hrest
      exact ⟨tail, rfl⟩

/-- Replacing names makes no reference where there was none. -/
theorem tapDance?_replaceFrom_eq_none {rest : List Char} (h : tapDance? (c :: rest) = none) :
    tapDance? (c :: replaceFrom f (isWord c) rest) = none := by
  cases hfound : tapDance? (c :: replaceFrom f (isWord c) rest) with
  | none => rfl
  | some found =>
    obtain ⟨name, after⟩ := found
    obtain ⟨inner, hinner, heq⟩ := tapDance?_eq_some_iff.mp hfound
    obtain ⟨rfl, hd⟩ := List.cons.inj heq
    -- the letters and the parenthesis stand in the text itself, since the letters are in a word
    obtain ⟨fromParen, rfl, hparen⟩ := exists_cons_of_replaceFrom hd
    obtain ⟨fromName, rfl, hname⟩ := exists_cons_of_replaceFrom hparen
    have hopen : '(' ∉ inner ++ [')'] := by simp [hinner.open_notMem]
    obtain ⟨tail, rfl⟩ := exists_append_of_replaceFrom hopen (hname.trans (List.append_cons _ _ _))
    rw [← List.append_cons, tapDance?_eq_some_iff.mpr ⟨inner, hinner, rfl⟩] at h
    cases h

/-- Replacing names keeps the references and makes no others, as long as the new names are names. -/
theorem tapDancePiecesFrom_replaceFrom
    (hf : ∀ name, Refers name inWord cs → ∀ c ∈ f name, isNameChar c = true) :
    tapDancePiecesFrom inWord (replaceFrom f inWord cs) =
      (tapDancePiecesFrom inWord cs).map (TapDancePiece.rename f) := by
  induction inWord, cs using cutting_induction with
  | nil inWord => simp
  | reference cs first after hfirst ih =>
    have hname : HoldsName (f first) (f first) := holdsName_self (hf first (.here hfirst))
    have hrest : ∀ name, Refers name false after → ∀ c ∈ f name, isNameChar c = true := by
      obtain ⟨inner, -, rfl⟩ := tapDance?_eq_some_iff.mp hfirst
      exact fun name h => hf name (h.behind_paren ('T' :: 'D' :: '(' :: inner))
    rw [replaceFrom_of_some hfirst, tapDancePiecesFrom_of_some hfirst,
      tapDancePiecesFrom_of_some (tapDance?_eq_some_iff.mpr ⟨_, hname, rfl⟩), ih hrest]
    rfl
  | char inWord c rest hnone ih =>
    rw [replaceFrom_cons hnone, tapDancePiecesFrom_cons hnone,
      tapDancePiecesFrom_cons fun h => tapDance?_replaceFrom_eq_none (hnone h),
      ih fun name h => hf name (.there h)]
    rfl

/-! ### Names as texts -/

theorem mem_tapDanceReferences_iff {keycode name : String} :
    name ∈ tapDanceReferences keycode ↔ Refers name.toList false keycode.toList := by
  rw [tapDanceReferences, List.mem_filterMap, ← tapDance_mem_iff]
  constructor
  · rintro ⟨piece, hpiece, hname⟩
    cases piece with
    | char c => cases hname
    | tapDance cs =>
      cases hname
      rw [String.toList_ofList]
      exact hpiece
  · exact fun h => ⟨_, h, by rw [TapDancePiece.name?, String.ofList_toList]⟩

/-- A keycode with replaced names refers to the enumerators, in the order of the names. -/
theorem tapDanceReferences_resolveTapDances {keycode : String}
    (h : ∀ name ∈ tapDanceReferences keycode, ∀ c ∈ (enumerator name).toList,
      isNameChar c = true) :
    tapDanceReferences (resolveTapDances keycode) =
      (tapDanceReferences keycode).map enumerator := by
  have hnames : ∀ name, Refers name false keycode.toList →
      ∀ c ∈ (enumerator (String.ofList name)).toList, isNameChar c = true := by
    intro name hname
    refine h _ (mem_tapDanceReferences_iff.mpr ?_)
    rwa [String.toList_ofList]
  have hpieces := tapDancePiecesFrom_replaceFrom hnames
  rw [tapDanceReferences, resolveTapDances, String.toList_ofList]
  show (tapDancePiecesFrom false (replaceFrom _ false keycode.toList)).filterMap _ = _
  rw [hpieces, List.filterMap_map, tapDanceReferences, List.map_filterMap]
  refine List.filterMap_congr fun piece _ => ?_
  cases piece with
  | char c => rfl
  | tapDance name => simp [TapDancePiece.rename, TapDancePiece.name?]

/-- One text is another one with the enumerators of tap dances in place of their names, and with
everything else as it is. The flag tells whether the character before the text belongs to a word. -/
inductive TapDancesReplaced : Bool → List Char → List Char → Prop
  | nil {inWord : Bool} : TapDancesReplaced inWord [] []
  | tapDance {inner name cs ds : List Char} (hname : HoldsName inner name)
      (h : TapDancesReplaced false cs ds) :
      TapDancesReplaced false ('T' :: 'D' :: '(' :: (inner ++ ')' :: cs))
        ('T' :: 'D' :: '(' :: ((enumerator (String.ofList name)).toList ++ ')' :: ds))
  | char {inWord : Bool} {c : Char} {cs ds : List Char}
      (hnone : inWord = false → ¬∃ inner name after, HoldsName inner name ∧
        c :: cs = 'T' :: 'D' :: '(' :: (inner ++ ')' :: after))
      (h : TapDancesReplaced (isWord c) cs ds) : TapDancesReplaced inWord (c :: cs) (c :: ds)

theorem tapDancesReplaced_replaceFrom (inWord : Bool) (cs : List Char) :
    TapDancesReplaced inWord cs
      (replaceFrom (fun name => (enumerator (String.ofList name)).toList) inWord cs) := by
  induction inWord, cs using cutting_induction with
  | nil inWord =>
    rw [replaceFrom_nil]
    exact .nil
  | reference cs name after hfound ih =>
    rw [replaceFrom_of_some hfound]
    obtain ⟨inner, hname, rfl⟩ := tapDance?_eq_some_iff.mp hfound
    exact .tapDance hname ih
  | char inWord c rest hnone ih =>
    rw [replaceFrom_cons hnone]
    refine .char (fun hword => ?_) ih
    rintro ⟨inner, name, after, hname, heq⟩
    have hfound := tapDance?_eq_some_iff.mpr ⟨inner, hname, heq⟩
    rw [hnone hword] at hfound
    cases hfound

theorem tapDancesReplaced_resolveTapDances (keycode : String) :
    TapDancesReplaced false keycode.toList (resolveTapDances keycode).toList := by
  rw [resolveTapDances, String.toList_ofList]
  exact tapDancesReplaced_replaceFrom false keycode.toList

theorem at_notMem_resolveTapDances {keycode : String} (hat : '@' ∉ keycode.toList)
    (hnames : ∀ name ∈ tapDanceReferences keycode, '@' ∉ (enumerator name).toList) :
    '@' ∉ (resolveTapDances keycode).toList := by
  rw [resolveTapDances, String.toList_ofList, List.mem_flatMap]
  rintro ⟨piece, hpiece, hmem⟩
  cases piece with
  | char c =>
    rw [← List.mem_singleton.mp hmem] at hpiece
    exact hat (mem_of_char_mem hpiece)
  | tapDance name =>
    refine hnames _ (List.mem_filterMap.mpr ⟨_, hpiece, rfl⟩) ?_
    simpa [TapDancePiece.replace] using hmem

/-! ### Enumerators -/

theorem of_isIdentifierChar {p : Char → Bool}
    (hall : ∀ n < 123, isIdentifierChar (Char.ofNat n) = true → p (Char.ofNat n) = true)
    (h : isIdentifierChar c = true) : p c = true := by
  have hlt : c.toNat < 123 := by
    rw [isIdentifierChar, Bool.or_eq_true, beq_iff_eq] at h
    rcases h with h | rfl
    · have := Name.bounds_of_isAlphanum h
      omega
    · decide
  have hc := hall c.toNat hlt
  rw [Char.ofNat_toNat] at hc
  exact hc h

theorem isNameChar_of_isIdentifierChar (h : isIdentifierChar c = true) : isNameChar c = true :=
  of_isIdentifierChar (by decide) h

theorem isIdentifierChar_of_mem_upperChar {d : Char} (h : isIdentifierChar c = true)
    (hd : d ∈ upperChar c) : isIdentifierChar d = true := by
  have hall : (upperChar c).all isIdentifierChar = true :=
    of_isIdentifierChar (p := fun c => (upperChar c).all isIdentifierChar) (by decide) h
  exact List.all_eq_true.mp hall d hd

theorem isIdentifierChar_of_mem_name (h : Name.isTapDanceName name = true) (hc : c ∈ name) :
    isIdentifierChar c = true := by
  rw [Name.isTapDanceName, Bool.and_eq_true, List.all_eq_true] at h
  exact h.2 c hc

theorem isIdentifierChar_of_mem_enumerator {name : String}
    (h : Name.isTapDanceName name.toList = true) (hc : c ∈ (enumerator name).toList) :
    isIdentifierChar c = true := by
  have hstart : "TD_".toList.all isIdentifierChar = true := by decide
  rw [enumerator, String.toList_append] at hc
  rcases List.mem_append.mp hc with hc | hc
  · exact List.all_eq_true.mp hstart c hc
  · rw [upper, String.toList_ofList] at hc
    obtain ⟨d, hd, hc⟩ := List.mem_flatMap.mp hc
    exact isIdentifierChar_of_mem_upperChar (isIdentifierChar_of_mem_name h hd) hc

end Keyforge.Keycode
