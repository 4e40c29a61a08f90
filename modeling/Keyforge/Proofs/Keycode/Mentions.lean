import Keyforge.Proofs.Keycode.Layer
import Keyforge.Proofs.Result

/-!
# Every reference of a keycode

`MentionsLayers` and `MentionsTapDances` read a keycode from left to right and list the layers and
the tap dances it refers to, a name as often as it is referred to.
-/

namespace Keyforge.Keycode

open Keyforge.Text

variable {keycode : String}

/-! ### Layers -/

/-- A text refers to these layers, in this order. -/
inductive MentionsLayers : List Char → List String → Prop
  | nil : MentionsLayers [] []
  | char {c : Char} {cs : List Char} {ids : List String} (hc : c ≠ '@')
      (h : MentionsLayers cs ids) : MentionsLayers (c :: cs) ids
  | layer {id cs : List Char} {ids : List String} (hid : ∀ c ∈ id, isNameChar c = true)
      (hend : ∀ c, cs.head? = some c → isNameChar c = false) (h : MentionsLayers cs ids) :
      MentionsLayers ('@' :: (id ++ cs)) (String.ofList id :: ids)

theorem mentionsLayers_layerPieces (cs : List Char) :
    MentionsLayers cs ((layerPieces cs).filterMap LayerPiece.id?) := by
  induction cs using layers_induction with
  | nil =>
    rw [layerPieces_nil]
    exact .nil
  | char c cs hc ih =>
    rw [layerPieces_char hc]
    exact .char hc ih
  | layer id cs hid hend ih =>
    rw [layerPieces_layer hid hend]
    exact .layer hid hend ih

/-- A text refers to one list of layers only, since each character leaves one way to go on. -/
theorem MentionsLayers.eq_filterMap {cs : List Char} {ids : List String}
    (h : MentionsLayers cs ids) : (layerPieces cs).filterMap LayerPiece.id? = ids := by
  induction h with
  | nil =>
    rw [layerPieces_nil]
    rfl
  | char hc h ih =>
    rw [layerPieces_char hc]
    exact ih
  | layer hid hend h ih =>
    rw [layerPieces_layer hid hend]
    exact congrArg _ ih

theorem layerReferences_eq_iff {ids : List String} :
    layerReferences keycode = ids ↔ MentionsLayers keycode.toList ids := by
  constructor
  · rintro rfl
    exact mentionsLayers_layerPieces keycode.toList
  · exact MentionsLayers.eq_filterMap

theorem layerReferences_of_at_notMem (h : '@' ∉ keycode.toList) : layerReferences keycode = [] := by
  refine layerReferences_eq_iff.mpr ?_
  generalize keycode.toList = cs at h
  induction cs with
  | nil => exact .nil
  | cons c cs ih =>
    rw [List.mem_cons, not_or] at h
    exact .char (Ne.symm h.1) (ih h.2)

/-! ### Tap dances -/

/-- A text refers to these tap dances, in this order. A reference does not start inside a word; the
flag tells whether the character before the text belongs to one. -/
inductive MentionsTapDances : Bool → List Char → List String → Prop
  | nil {inWord : Bool} : MentionsTapDances inWord [] []
  | tapDance {inner name after : List Char} {names : List String} (hname : HoldsName inner name)
      (h : MentionsTapDances false after names) :
      MentionsTapDances false ('T' :: 'D' :: '(' :: (inner ++ ')' :: after))
        (String.ofList name :: names)
  | char {inWord : Bool} {c : Char} {cs : List Char} {names : List String}
      (hnone : inWord = false → ∀ inner name after, HoldsName inner name →
        c :: cs ≠ 'T' :: 'D' :: '(' :: (inner ++ ')' :: after))
      (h : MentionsTapDances (isWord c) cs names) : MentionsTapDances inWord (c :: cs) names

theorem tapDance?_eq_none_iff {cs : List Char} :
    tapDance? cs = none ↔ ∀ inner name after, HoldsName inner name →
      cs ≠ 'T' :: 'D' :: '(' :: (inner ++ ')' :: after) := by
  constructor
  · intro hnone inner name after hname heq
    rw [tapDance?_eq_some_iff.mpr ⟨inner, hname, heq⟩] at hnone
    cases hnone
  · intro hforms
    cases hfound : tapDance? cs with
    | none => rfl
    | some found =>
      obtain ⟨inner, hname, heq⟩ := tapDance?_eq_some_iff.mp hfound
      exact absurd heq (hforms inner found.1 found.2 hname)

theorem mentionsTapDances_tapDancePiecesFrom (inWord : Bool) (cs : List Char) :
    MentionsTapDances inWord cs
      ((tapDancePiecesFrom inWord cs).filterMap TapDancePiece.name?) := by
  induction inWord, cs using cutting_induction with
  | nil inWord =>
    rw [tapDancePiecesFrom_nil]
    exact .nil
  | reference cs name after hfound ih =>
    rw [tapDancePiecesFrom_of_some hfound]
    obtain ⟨inner, hname, rfl⟩ := tapDance?_eq_some_iff.mp hfound
    exact .tapDance hname ih
  | char inWord c rest hnone ih =>
    rw [tapDancePiecesFrom_cons hnone]
    exact .char (fun hout => tapDance?_eq_none_iff.mp (hnone hout)) ih

theorem MentionsTapDances.eq_filterMap {inWord : Bool} {cs : List Char} {names : List String}
    (h : MentionsTapDances inWord cs names) :
    (tapDancePiecesFrom inWord cs).filterMap TapDancePiece.name? = names := by
  induction h with
  | nil =>
    rw [tapDancePiecesFrom_nil]
    rfl
  | tapDance hname h ih =>
    rw [tapDancePiecesFrom_of_some (tapDance?_eq_some_iff.mpr ⟨_, hname, rfl⟩)]
    exact congrArg _ ih
  | char hnone h ih =>
    rw [tapDancePiecesFrom_cons fun hout => tapDance?_eq_none_iff.mpr (hnone hout)]
    exact ih

theorem tapDanceReferences_eq_iff {names : List String} :
    tapDanceReferences keycode = names ↔ MentionsTapDances false keycode.toList names := by
  constructor
  · rintro rfl
    exact mentionsTapDances_tapDancePiecesFrom false keycode.toList
  · exact MentionsTapDances.eq_filterMap

theorem tapDanceReferences_of_notMem (h : 'D' ∉ keycode.toList) :
    tapDanceReferences keycode = [] := by
  refine tapDanceReferences_eq_iff.mpr ?_
  generalize keycode.toList = cs at h
  generalize false = inWord
  induction cs generalizing inWord with
  | nil => exact .nil
  | cons c cs ih =>
    refine .char (fun _ inner name after _ heq => h ?_) (ih (List.not_mem_of_not_mem_cons h) _)
    rw [heq]
    simp

/-! ### Layer functions with numbers -/

/-- An argument that is a number stands at the front: its digits with white space around them, and a
comma or the closing parenthesis. -/
def HoldsNumber (digits cs : List Char) : Prop :=
  ∃ before behind stop after, cs = before ++ (digits ++ (behind ++ stop :: after)) ∧
    (∀ c ∈ before, isBlank c = true) ∧ digits ≠ [] ∧ (∀ c ∈ digits, isDigit c = true) ∧
    (∀ c ∈ behind, isBlank c = true) ∧ (stop = ',' ∨ stop = ')')

/-- A layer function whose first argument is a number stands at the front. -/
def IsTarget (digits cs : List Char) : Prop :=
  ∃ name ∈ layerFunctions, ∃ rest, cs = name.toList ++ '(' :: rest ∧ HoldsNumber digits rest

/-- A layer function whose first argument is a number stands somewhere in a text. -/
def Targets (digits cs : List Char) : Prop :=
  ∃ before rest, cs = before ++ rest ∧ IsTarget digits rest

namespace HoldsNumber

variable {digits cs : List Char}

theorem split (h : HoldsNumber digits cs) :
    (trimLeft cs).takeWhile isDigit = digits ∧ ∃ stop after, (stop = ',' ∨ stop = ')') ∧
      trimLeft ((trimLeft cs).dropWhile isDigit) = stop :: after := by
  obtain ⟨before, behind, stop, after, rfl, hbefore, hne, hdigits, hbehind, hstop⟩ := h
  have htrim : trimLeft (before ++ (digits ++ (behind ++ stop :: after))) =
      digits ++ (behind ++ stop :: after) := by
    refine (takeWhile_append_stop hbefore fun c hc => ?_).2
    obtain ⟨d, rest, rfl⟩ := List.exists_cons_of_ne_nil hne
    cases hc
    cases hblank : isBlank c with
    | false => rfl
    | true => rw [← hdigits c List.mem_cons_self, isDigit_of_isBlank hblank]
  obtain ⟨htake, hdrop⟩ := takeWhile_append_stop hdigits (eq_false_of_head isDigit_of_isBlank hbehind
    stop (by rcases hstop with rfl | rfl <;> decide) after)
  have hclose : trimLeft (behind ++ stop :: after) = stop :: after :=
    (takeWhile_append_stop hbehind fun c hc => by
      cases hc
      rcases hstop with rfl | rfl <;> decide).2
  exact ⟨by rw [htrim, htake], stop, after, hstop, by rw [htrim, hdrop, hclose]⟩

theorem unique {other : List Char} (h : HoldsNumber digits cs) (hother : HoldsNumber other cs) :
    other = digits :=
  hother.split.1.symm.trans h.split.1

theorem of_split {stop : Char} {after : List Char}
    (hne : (trimLeft cs).takeWhile isDigit ≠ []) (hstop : stop = ',' ∨ stop = ')')
    (hafter : trimLeft ((trimLeft cs).dropWhile isDigit) = stop :: after) :
    HoldsNumber ((trimLeft cs).takeWhile isDigit) cs := by
  refine ⟨cs.takeWhile isBlank, ((trimLeft cs).dropWhile isDigit).takeWhile isBlank, stop, after,
    ?_, fun c hc => List.mem_takeWhile_imp hc, hne, fun c hc => List.mem_takeWhile_imp hc,
    fun c hc => List.mem_takeWhile_imp hc, hstop⟩
  rw [← hafter]
  simp only [trimLeft, List.takeWhile_append_dropWhile]

end HoldsNumber

theorem letters_of_mem_layerFunctions {name : String} (h : name ∈ layerFunctions) :
    2 ≤ name.toList.length ∧ ∀ c ∈ name.toList, (c != '(') = true := by
  have hall : (layerFunctions.all fun name =>
      decide (2 ≤ name.toList.length) && name.toList.all (· != '(')) = true := by decide
  have hname := List.all_eq_true.mp hall name h
  rw [Bool.and_eq_true, decide_eq_true_eq, List.all_eq_true] at hname
  exact hname

theorem dropWhile_layerFunction {name : String} (h : name ∈ layerFunctions) (rest : List Char) :
    (name.toList ++ '(' :: rest).dropWhile (· != '(') = '(' :: rest :=
  (takeWhile_append_stop (letters_of_mem_layerFunctions h).2 (by simp)).2

theorem findSome?_layerFunctions_eq_some_iff {cs rest : List Char} :
    (layerFunctions.findSome? fun name => after? (name.toList ++ ['(']) cs) = some rest ↔
      ∃ name ∈ layerFunctions, cs = name.toList ++ '(' :: rest := by
  constructor
  · intro h
    obtain ⟨name, hname, hafter⟩ := List.exists_of_findSome?_eq_some h
    exact ⟨name, hname, (eq_append_of_after? hafter).trans (List.append_cons _ _ _).symm⟩
  · rintro ⟨name, hname, rfl⟩
    cases hfind : layerFunctions.findSome? fun other =>
        after? (other.toList ++ ['(']) (name.toList ++ '(' :: rest) with
    | none =>
      have hnone := List.findSome?_eq_none_iff.mp hfind name hname
      rw [List.append_cons name.toList '(' rest, after?_append] at hnone
      cases hnone
    | some found =>
      obtain ⟨other, hother, hafter⟩ := List.exists_of_findSome?_eq_some hfind
      have hsame := congrArg (List.dropWhile (· != '('))
        ((eq_append_of_after? hafter).trans (List.append_cons _ _ _).symm)
      rw [dropWhile_layerFunction hname, dropWhile_layerFunction hother] at hsame
      rw [(List.cons.inj hsame).2]

theorem targetDigits?_eq_some_iff {cs digits : List Char} :
    targetDigits? cs = some digits ↔ IsTarget digits cs := by
  rw [targetDigits?, Option.bind_eq_bind, Option.bind_eq_some_iff]
  simp only [findSome?_layerFunctions_eq_some_iff]
  constructor
  · rintro ⟨rest, ⟨name, hname, rfl⟩, hdigits⟩
    refine ⟨name, hname, rest, rfl, ?_⟩
    split at hdigits
    · cases hdigits
    next hne =>
      have hne : (trimLeft rest).takeWhile isDigit ≠ [] := by simpa using hne
      split at hdigits
      next after hafter =>
        cases hdigits
        exact .of_split hne (.inl rfl) hafter
      next after hafter =>
        cases hdigits
        exact .of_split hne (.inr rfl) hafter
      next => cases hdigits
  · rintro ⟨name, hname, rest, rfl, hnumber⟩
    refine ⟨rest, ⟨name, hname, rfl⟩, ?_⟩
    obtain ⟨hdigits, stop, after, hstop, hafter⟩ := hnumber.split
    have hne : digits.isEmpty = false := by
      obtain ⟨_, _, _, _, _, _, hne, _⟩ := hnumber
      simpa using hne
    rw [hafter, hdigits, hne]
    rcases hstop with rfl | rfl <;> rfl

namespace IsTarget

variable {digits cs : List Char}

theorem exists_letters (h : IsTarget digits cs) :
    ∃ c d rest, cs = c :: d :: rest ∧ (c != '(') = true := by
  obtain ⟨name, hname, rest, rfl, -⟩ := h
  obtain ⟨hlength, hletters⟩ := letters_of_mem_layerFunctions hname
  match hname : name.toList, hlength with
  | c :: d :: letters, _ =>
    exact ⟨c, d, letters ++ '(' :: rest, rfl, hletters c (by simp [hname])⟩

theorem unique {other ds : List Char} (h : IsTarget digits cs) (hother : IsTarget other ds)
    (heq : cs.dropWhile (· != '(') = ds.dropWhile (· != '(')) : other = digits := by
  obtain ⟨name, hname, rest, rfl, hnumber⟩ := h
  obtain ⟨otherName, hotherName, otherRest, rfl, hotherNumber⟩ := hother
  rw [dropWhile_layerFunction hname, dropWhile_layerFunction hotherName] at heq
  cases heq
  exact hnumber.unique hotherNumber

end IsTarget

/-- The digits that are found are those of the numbers that layer functions take. -/
theorem mem_targetDigitsFrom_iff {cs digits : List Char} :
    digits ∈ targetDigitsFrom cs ↔ Targets digits cs := by
  fun_induction targetDigitsFrom cs with
  | case1 c d rest found hfound ih =>
    have hfirst : IsTarget found (c :: d :: rest) := targetDigits?_eq_some_iff.mp hfound
    rw [List.mem_cons, ih]
    constructor
    · rintro (rfl | ⟨before, later, rfl, h⟩)
      · exact ⟨[], _, rfl, hfirst⟩
      · exact ⟨c :: d :: before, later, rfl, h⟩
    · rintro ⟨before, later, heq, h⟩
      match before, heq with
      | [], heq =>
        cases heq
        exact .inl (hfirst.unique h rfl)
      | [_], heq =>
        -- a function whose name is the end of the other one's name takes the same number
        obtain ⟨_, _, _, hletters, hc⟩ := hfirst.exists_letters
        cases hletters
        cases heq
        exact .inl (hfirst.unique h (List.dropWhile_cons_of_pos hc))
      | _ :: _ :: before, heq =>
        cases heq
        exact .inr ⟨before, later, rfl, h⟩
  | case2 c d rest hnone ih =>
    rw [ih]
    constructor
    · rintro ⟨before, later, heq, h⟩
      exact ⟨c :: before, later, by rw [heq]; rfl, h⟩
    · rintro ⟨before, later, heq, h⟩
      match before, heq with
      | [], heq =>
        cases heq
        rw [targetDigits?_eq_some_iff.mpr h] at hnone
        cases hnone
      | _ :: before, heq =>
        exact ⟨before, later, (List.cons.inj heq).2, h⟩
  | case3 cs hshort =>
    -- fewer than two characters are left, and a layer function has more
    refine ⟨nofun, ?_⟩
    rintro ⟨before, later, rfl, h⟩
    obtain ⟨c, d, rest, rfl, -⟩ := h.exists_letters
    cases before with
    | nil => exact absurd rfl (hshort c d rest)
    | cons b before =>
      cases before with
      | nil => exact absurd rfl (hshort b c (d :: rest))
      | cons b' before => exact absurd rfl (hshort b b' (before ++ c :: d :: rest))

/-! ### Numbers that can be read -/

/-- A layer function of a keycode has a number with too many digits. -/
def Overlong (keycode : String) : Prop :=
  ∃ digits, Targets digits keycode.toList ∧ Number.digitLimit < digits.length

theorem checkTargets_eq_ok_iff : checkTargets keycode = .ok () ↔ ¬Overlong keycode := by
  have hread : ∀ digits : List Char, discard (Number.ofDigits digits) = .ok () ↔
      ¬Number.digitLimit < digits.length := by
    intro digits
    unfold Number.ofDigits
    split
    next hlong => exact ⟨nofun, fun hshort => absurd hlong hshort⟩
    next hshort => exact ⟨fun _ => hshort, fun _ => rfl⟩
  rw [checkTargets, forM_eq_ok_iff, Overlong]
  simp only [hread, mem_targetDigitsFrom_iff, not_exists, not_and]

theorem exceeds_of_checkTargets {e : Number.IntegerError} (h : checkTargets keycode = .error e) :
    e.Exceeds := by
  obtain ⟨digits, -, herror⟩ := exists_of_forM_eq_error h
  unfold Number.ofDigits at herror
  split at herror
  next hlong =>
    cases herror
    exact hlong
  next => cases herror

end Keyforge.Keycode
