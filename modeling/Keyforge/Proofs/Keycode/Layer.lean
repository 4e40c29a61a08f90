import Keyforge.Proofs.Keycode.TapDance
import Keyforge.Proofs.Text.Digit

/-!
# References to layers

Layer ids are replaced by numbers before tap dances are looked for. A number is a word, so no
reference to a tap dance starts in it or right behind it, although some of the old ones may be gone:
in `@a-TD(caps)`, the letters before the parenthesis are part of the id of a layer.
-/

namespace Keyforge.Keycode

open Keyforge.Text

variable {layers : List (String × Int)} {keycode : String} {name : List Char} {c : Char}
  {cs : List Char}

/-- One text is another one with the numbers of layers in place of their ids. -/
inductive LayersReplaced (IsNumber : String → Nat → Prop) : List Char → List Char → Prop
  | nil : LayersReplaced IsNumber [] []
  | char {c : Char} {cs ds : List Char} (hc : c ≠ '@') (h : LayersReplaced IsNumber cs ds) :
      LayersReplaced IsNumber (c :: cs) (c :: ds)
  | layer {id cs ds : List Char} {n : Nat} (hid : ∀ c ∈ id, isNameChar c = true)
      (hend : ∀ c, cs.head? = some c → isNameChar c = false) (hn : IsNumber (String.ofList id) n)
      (h : LayersReplaced IsNumber cs ds) :
      LayersReplaced IsNumber ('@' :: (id ++ cs)) (Nat.toDigits 10 n ++ ds)

/-! ### Cutting -/

theorem layerPieces_nil : layerPieces [] = [] := by
  rw [layerPieces]

theorem layerPieces_char (hc : c ≠ '@') : layerPieces (c :: cs) = .char c :: layerPieces cs := by
  rw [layerPieces, if_neg (by simpa using hc)]

theorem layerPieces_layer {id : List Char} (hid : ∀ c ∈ id, isNameChar c = true)
    (hend : ∀ c, cs.head? = some c → isNameChar c = false) :
    layerPieces ('@' :: (id ++ cs)) = .layer id :: layerPieces cs := by
  obtain ⟨htake, hdrop⟩ := takeWhile_append_stop hid hend
  rw [layerPieces, if_pos (beq_self_eq_true '@'), htake, hdrop]

@[elab_as_elim]
theorem layers_induction {motive : List Char → Prop} (nil : motive [])
    (char : ∀ c cs, c ≠ '@' → motive cs → motive (c :: cs))
    (layer : ∀ id cs, (∀ c ∈ id, isNameChar c = true) →
      (∀ c, cs.head? = some c → isNameChar c = false) → motive cs → motive ('@' :: (id ++ cs)))
    (cs : List Char) : motive cs := by
  fun_induction layerPieces cs with
  | case1 => exact nil
  | case2 c rest hc ih =>
    rw [beq_iff_eq.mp hc, ← List.takeWhile_append_dropWhile (p := isNameChar) (l := rest)]
    refine layer _ _ (fun d hd => List.mem_takeWhile_imp hd) (fun d hd => ?_) ih
    have hnot := List.head?_dropWhile_not isNameChar rest
    rw [hd] at hnot
    simpa using hnot
  | case3 c rest hc ih => exact char c rest (by simpa using hc) ih

/-! ### Replacing -/

variable {IsNumber : String → Nat → Prop}

theorem resolvePieces_cons {piece : LayerPiece} {rest : List LayerPiece} {first others : List Char}
    (hfirst : piece.resolve layers = .ok first) (hrest : resolvePieces layers rest = .ok others) :
    resolvePieces layers (piece :: rest) = .ok (first ++ others) := by
  rw [resolvePieces, hfirst, hrest]
  rfl

theorem resolve_layer {id : List Char} {n : Nat}
    (h : layers.lookup (String.ofList id) = some (n : Int)) :
    (LayerPiece.layer id).resolve layers = .ok (Nat.toDigits 10 n) := by
  rw [LayerPiece.resolve, h, ← Int.toNat_natCast n, ← toList_intText (Int.natCast_nonneg n)]
  rfl

theorem exists_resolvePieces {layers : List (String × Int)} {cs : List Char}
    (h : ∀ id ∈ (layerPieces cs).filterMap LayerPiece.id?,
      ∃ n : Nat, layers.lookup id = some (n : Int) ∧ IsNumber id n) :
    ∃ ds, resolvePieces layers (layerPieces cs) = .ok ds ∧ LayersReplaced IsNumber cs ds := by
  induction cs using layers_induction with
  | nil =>
    rw [layerPieces_nil]
    exact ⟨[], rfl, .nil⟩
  | char c cs hc ih =>
    rw [layerPieces_char hc] at h ⊢
    obtain ⟨ds, hds, hreplaced⟩ := ih h
    have hfirst : (LayerPiece.char c).resolve layers = .ok [c] := rfl
    exact ⟨[c] ++ ds, resolvePieces_cons hfirst hds, .char hc hreplaced⟩
  | layer id cs hid hend ih =>
    rw [layerPieces_layer hid hend] at h ⊢
    obtain ⟨n, hlookup, hn⟩ := h (String.ofList id) List.mem_cons_self
    obtain ⟨ds, hds, hreplaced⟩ := ih (List.forall_mem_cons.mp h).2
    exact ⟨_, resolvePieces_cons (resolve_layer hlookup) hds, .layer hid hend hn hreplaced⟩

theorem exists_resolveLayers {layers : List (String × Int)} {keycode : String}
    (h : ∀ id ∈ layerReferences keycode,
      ∃ n : Nat, layers.lookup id = some (n : Int) ∧ IsNumber id n) :
    ∃ resolved, resolveLayers layers keycode = .ok resolved ∧
      LayersReplaced IsNumber keycode.toList resolved.toList := by
  obtain ⟨ds, hds, hreplaced⟩ := exists_resolvePieces h
  refine ⟨String.ofList ds, by rw [resolveLayers, hds]; rfl, ?_⟩
  rwa [String.toList_ofList]

/-! ### Digits -/

theorem isDigit_of_mem_number {n : Nat} (h : c ∈ Nat.toDigits 10 n) : c.isDigit = true :=
  Nat.isDigit_of_mem_toDigits (by decide) (by decide) h

theorem isIdentifierChar_of_isDigit (h : c.isDigit = true) : isIdentifierChar c = true := by
  simp [isIdentifierChar, Char.isAlphanum, h]

theorem isNameChar_of_isDigit (h : c.isDigit = true) : isNameChar c = true :=
  isNameChar_of_isIdentifierChar (isIdentifierChar_of_isDigit h)

theorem isDigit_eq_false_of_isBlank (h : isBlank c = true) : c.isDigit = false := by
  cases hc : c.isDigit with
  | false => rfl
  | true =>
    have hname := isNameChar_of_isDigit hc
    rw [isNameChar_eq_false_of_isBlank h] at hname
    cases hname

theorem isWord_of_isDigit (h : c.isDigit = true) : isWord c = true :=
  of_isIdentifierChar (by decide) (isIdentifierChar_of_isDigit h)

/-- No reference starts with a digit or right behind one. -/
theorem Refers.of_digits {digits : List Char} {inWord : Bool} (hne : digits ≠ [])
    (hdigits : ∀ c ∈ digits, c.isDigit = true) (h : Refers name inWord (digits ++ cs)) :
    Refers name true cs := by
  induction digits generalizing inWord with
  | nil => exact absurd rfl hne
  | cons d digits ih =>
    have hd := hdigits d List.mem_cons_self
    cases h with
    | here h =>
      obtain ⟨_, -, heq⟩ := tapDance?_eq_some_iff.mp h
      obtain ⟨rfl, -⟩ := List.cons.inj heq
      exact absurd hd (by decide)
    | there h =>
      rw [isWord_of_isDigit hd] at h
      cases digits with
      | nil => exact h
      | cons e digits =>
        exact ih (List.cons_ne_nil e digits) (List.forall_mem_cons.mp hdigits).2 h

namespace LayersReplaced

variable {ds : List Char}

theorem at_notMem (h : LayersReplaced IsNumber cs ds) : '@' ∉ ds := by
  induction h with
  | nil => exact List.not_mem_nil
  | char hc h ih => simp [ih, hc.symm]
  | layer hid hend hn h ih =>
    rw [List.mem_append, not_or]
    exact ⟨fun hmem => absurd (isDigit_of_mem_number hmem) (by decide), ih⟩

theorem eq_of_at_notMem (h : LayersReplaced IsNumber cs ds) (hat : '@' ∉ cs) : ds = cs := by
  induction h with
  | nil => rfl
  | char hc h ih => rw [ih fun hmem => hat (List.mem_cons_of_mem _ hmem)]
  | layer hid hend hn h ih => exact absurd List.mem_cons_self hat

theorem exists_cons {d : Char} (hd : d.isDigit = false)
    (h : LayersReplaced IsNumber cs (d :: ds)) :
    ∃ rest, cs = d :: rest ∧ LayersReplaced IsNumber rest ds := by
  generalize htext : d :: ds = text at h
  cases h with
  | nil => cases htext
  | char hc h =>
    cases htext
    exact ⟨_, rfl, h⟩
  | @layer _ _ _ n hid hend hn h =>
    obtain ⟨e, digits, hdigits⟩ := List.exists_cons_of_ne_nil (@Nat.toDigits_ne_nil n 10)
    rw [hdigits] at htext
    cases htext
    rw [isDigit_of_mem_number (hdigits ▸ List.mem_cons_self)] at hd
    cases hd

theorem exists_append {before : List Char} (hbefore : ∀ c ∈ before, c.isDigit = false)
    (h : LayersReplaced IsNumber cs (before ++ ds)) :
    ∃ rest, cs = before ++ rest ∧ LayersReplaced IsNumber rest ds := by
  induction before generalizing cs with
  | nil => exact ⟨cs, rfl, h⟩
  | cons b before ih =>
    obtain ⟨tail, rfl, htail⟩ := h.exists_cons (hbefore b List.mem_cons_self)
    obtain ⟨rest, rfl, hrest⟩ := ih (List.forall_mem_cons.mp hbefore).2 htail
    exact ⟨rest, rfl, hrest⟩

theorem exists_of_number_append {n : Nat} {tail : List Char}
    (hend : ∀ c, ds.head? = some c → isNameChar c = false)
    (h : name ++ ds = Nat.toDigits 10 n ++ tail) :
    ∃ others, name = Nat.toDigits 10 n ++ others ∧ tail = others ++ ds := by
  rcases List.append_eq_append_iff.mp h with ⟨others, hdigits, hds⟩ | ⟨others, hname, htail⟩
  · cases others with
    | nil => exact ⟨[], by simpa using hdigits.symm, by simpa using hds.symm⟩
    | cons c others =>
      have hc : c ∈ Nat.toDigits 10 n := by simp [hdigits]
      have hname := isNameChar_of_isDigit (isDigit_of_mem_number hc)
      rw [hend c (by rw [hds]; rfl)] at hname
      cases hname
  · exact ⟨others, hname, htail⟩

theorem exists_name (hname : ∀ c ∈ name, isNameChar c = true)
    (hend : ∀ c, ds.head? = some c → isNameChar c = false)
    (h : LayersReplaced IsNumber cs (name ++ ds)) :
    ∃ source rest, cs = source ++ rest ∧ (∀ c ∈ source, isNameChar c = true) ∧
      LayersReplaced IsNumber source name ∧ LayersReplaced IsNumber rest ds := by
  generalize htext : name ++ ds = text at h
  induction h generalizing name with
  | nil =>
    obtain ⟨rfl, rfl⟩ := List.append_eq_nil_iff.mp htext
    exact ⟨[], [], rfl, nofun, .nil, .nil⟩
  | @char c cs text hc h ih =>
    cases name with
    | nil =>
      rw [List.nil_append] at htext
      exact ⟨[], c :: cs, rfl, nofun, .nil, htext ▸ .char hc h⟩
    | cons d name =>
      obtain ⟨rfl, htail⟩ := List.cons.inj htext
      obtain ⟨source, rest, rfl, hsource, hfirst, hrest⟩ :=
        ih (List.forall_mem_cons.mp hname).2 htail
      exact ⟨d :: source, rest, rfl, List.forall_mem_cons.mpr ⟨hname d List.mem_cons_self, hsource⟩,
        .char hc hfirst, hrest⟩
  | @layer id cs text n hid hidEnd hn h ih =>
    obtain ⟨others, rfl, rfl⟩ := exists_of_number_append hend htext
    obtain ⟨source, rest, rfl, hsource, hfirst, hrest⟩ :=
      ih (fun c hc => hname c (List.mem_append_right _ hc)) rfl
    refine ⟨'@' :: (id ++ source), rest, by simp, ?_, .layer hid (fun c hc => ?_) hn hfirst, hrest⟩
    · refine List.forall_mem_cons.mpr ⟨by decide, fun c hc => ?_⟩
      rcases List.mem_append.mp hc with hc | hc
      · exact hid c hc
      · exact hsource c hc
    · refine hidEnd c ?_
      rw [List.head?_append, hc]
      rfl

theorem exists_tapDance? {after : List Char} (h : LayersReplaced IsNumber cs ds)
    (hfound : tapDance? ds = some (name, after)) :
    ∃ source rest, tapDance? cs = some (source, rest) ∧ LayersReplaced IsNumber source name := by
  obtain ⟨_, ⟨before, behind, rfl, hbefore, hname, hbehind⟩, rfl⟩ :=
    tapDance?_eq_some_iff.mp hfound
  have hopening : ∀ c ∈ 'T' :: 'D' :: '(' :: before, c.isDigit = false := by
    simp only [List.forall_mem_cons]
    exact ⟨rfl, rfl, rfl, fun c hc => isDigit_eq_false_of_isBlank (hbefore c hc)⟩
  have hclosing : ∀ c ∈ behind ++ [')'], c.isDigit = false :=
    forall_mem_concat.mpr ⟨fun c hc => isDigit_eq_false_of_isBlank (hbehind c hc), rfl⟩
  have htext : 'T' :: 'D' :: '(' :: (before ++ (name ++ behind) ++ ')' :: after) =
      'T' :: 'D' :: '(' :: before ++ (name ++ (behind ++ [')'] ++ after)) := by simp
  rw [htext] at h
  obtain ⟨fromName, rfl, hfromName⟩ := h.exists_append hopening
  obtain ⟨source, fromBehind, rfl, hsource, hfirst, hfromBehind⟩ := hfromName.exists_name hname
    fun c hc => eq_false_of_head isNameChar_eq_false_of_isBlank hbehind ')' (by decide) after c
      (by simpa using hc)
  obtain ⟨rest, rfl, -⟩ := hfromBehind.exists_append hclosing
  have hinner : HoldsName (before ++ (source ++ behind)) source :=
    ⟨before, behind, rfl, hbefore, hsource, hbehind⟩
  exact ⟨source, rest, tapDance?_eq_some_iff.mpr ⟨_, hinner, by simp⟩, hfirst⟩

/-- A reference in the new text comes from one in the old text. -/
theorem exists_refers {inWord : Bool} (h : LayersReplaced IsNumber cs ds)
    (hrefers : Refers name inWord ds) :
    ∃ source, Refers source inWord cs ∧ LayersReplaced IsNumber source name := by
  induction h generalizing inWord with
  | nil =>
    cases hrefers with
    | here hfound => cases hfound
  | char hc h ih =>
    cases hrefers with
    | here hfound =>
      obtain ⟨source, rest, hsource, hreplaced⟩ :=
        (LayersReplaced.char hc h).exists_tapDance? hfound
      exact ⟨source, .here hsource, hreplaced⟩
    | there hrefers =>
      obtain ⟨source, hsource, hreplaced⟩ := ih hrefers
      exact ⟨source, .there hsource, hreplaced⟩
  | layer hid hend hn h ih =>
    have hdigits := hrefers.of_digits Nat.toDigits_ne_nil fun c hc => isDigit_of_mem_number hc
    obtain ⟨source, hsource, hreplaced⟩ := ih hdigits
    exact ⟨source, hsource.append_left ('@' :: _), hreplaced⟩

end LayersReplaced

theorem mem_tapDanceReferences_of_replaced {resolved name : String}
    (h : LayersReplaced IsNumber keycode.toList resolved.toList)
    (hat : ∀ other ∈ tapDanceReferences keycode, '@' ∉ other.toList)
    (hname : name ∈ tapDanceReferences resolved) : name ∈ tapDanceReferences keycode := by
  obtain ⟨source, hsource, hreplaced⟩ := h.exists_refers (mem_tapDanceReferences_iff.mp hname)
  have hmem : String.ofList source ∈ tapDanceReferences keycode := by
    rwa [mem_tapDanceReferences_iff, String.toList_ofList]
  have hsame := hreplaced.eq_of_at_notMem (by simpa using hat _ hmem)
  rwa [← hsame, String.ofList_toList] at hmem

example : tapDanceReferences "@a-TD(caps)" = ["caps"] ∧
    (resolveLayers [("a-TD", 1)] "@a-TD(caps)").toOption = some "1(caps)" := by decide +kernel

/-! ### Renaming -/

def LayerPiece.text : LayerPiece → List Char
  | .char c => [c]
  | .layer id => '@' :: id

def LayerPiece.rename (ρ : String → String) : LayerPiece → LayerPiece
  | .char c => .char c
  | .layer id => .layer (ρ (String.ofList id)).toList

def renamedText (ρ : String → String) (pieces : List LayerPiece) : List Char :=
  pieces.flatMap fun piece => (piece.rename ρ).text

def renameLayers (ρ : String → String) (keycode : String) : String :=
  String.ofList (renamedText ρ (layerPieces keycode.toList))

section Renaming

variable {ρ : String → String}

theorem head?_renamedText (h : ∀ c, cs.head? = some c → isNameChar c = false) :
    (renamedText ρ (layerPieces cs)).head? = cs.head? := by
  cases cs with
  | nil =>
    rw [layerPieces_nil]
    rfl
  | cons c cs =>
    have hc : c ≠ '@' := by
      rintro rfl
      exact absurd (h '@' rfl) (by decide)
    rw [layerPieces_char hc]
    rfl

/-- A keycode under other ids is cut where it was cut before. -/
theorem layerPieces_renamedText {cs : List Char}
    (h : ∀ id ∈ (layerPieces cs).filterMap LayerPiece.id?, ∀ c ∈ (ρ id).toList, isNameChar c = true) :
    layerPieces (renamedText ρ (layerPieces cs)) = (layerPieces cs).map (LayerPiece.rename ρ) := by
  induction cs using layers_induction with
  | nil =>
    rw [layerPieces_nil]
    exact layerPieces_nil
  | char c cs hc ih =>
    rw [layerPieces_char hc] at h ⊢
    show layerPieces (c :: renamedText ρ (layerPieces cs)) = _
    rw [layerPieces_char hc, ih h]
    rfl
  | layer id cs hid hend ih =>
    rw [layerPieces_layer hid hend] at h ⊢
    -- the new id has name characters only, and ends where the old one did
    show layerPieces ('@' :: ((ρ (String.ofList id)).toList ++ renamedText ρ (layerPieces cs))) = _
    rw [layerPieces_layer (h (String.ofList id) List.mem_cons_self)
      (by rwa [head?_renamedText hend]), ih (List.forall_mem_cons.mp h).2]
    rfl

theorem resolvePieces_rename {layers layers' : List (String × Int)} {pieces : List LayerPiece}
    (h : ∀ id ∈ pieces.filterMap LayerPiece.id?,
      ∃ n, layers.lookup id = some n ∧ layers'.lookup (ρ id) = some n) :
    resolvePieces layers' (pieces.map (LayerPiece.rename ρ)) = resolvePieces layers pieces := by
  induction pieces with
  | nil => rfl
  | cons piece pieces ih =>
    rw [List.map_cons, resolvePieces, resolvePieces]
    cases piece with
    | char c =>
      rw [ih h]
      rfl
    | layer id =>
      obtain ⟨n, hn, hn'⟩ := h (String.ofList id) List.mem_cons_self
      rw [ih (List.forall_mem_cons.mp h).2]
      simp only [LayerPiece.rename, LayerPiece.resolve, String.ofList_toList, hn, hn']

/-- Layers that have the same numbers under other ids are replaced by the same numbers. -/
theorem resolveLayers_renameLayers {layers layers' : List (String × Int)} {keycode : String}
    (hname : ∀ id ∈ layerReferences keycode, ∀ c ∈ (ρ id).toList, isNameChar c = true)
    (hnumber : ∀ id ∈ layerReferences keycode,
      ∃ n, layers.lookup id = some n ∧ layers'.lookup (ρ id) = some n) :
    resolveLayers layers' (renameLayers ρ keycode) = resolveLayers layers keycode := by
  rw [resolveLayers, resolveLayers, renameLayers, String.toList_ofList,
    layerPieces_renamedText hname, resolvePieces_rename hnumber]

theorem renameLayers_of_at_notMem (h : '@' ∉ keycode.toList) :
    renameLayers ρ keycode = keycode := by
  have htext : ∀ cs : List Char, '@' ∉ cs → renamedText ρ (layerPieces cs) = cs := by
    intro cs hat
    induction cs with
    | nil =>
      rw [layerPieces_nil]
      rfl
    | cons c cs ih =>
      rw [List.mem_cons, not_or] at hat
      obtain ⟨hc, hcs⟩ := hat
      rw [layerPieces_char (Ne.symm hc)]
      exact congrArg (c :: ·) (ih hcs)
  rw [renameLayers, htext _ h, String.ofList_toList]

theorem renameLayers_ne_empty (h : keycode ≠ "") : renameLayers ρ keycode ≠ "" := by
  intro hempty
  have hnil : renamedText ρ (layerPieces keycode.toList) = [] := by
    rw [← String.toList_ofList (l := renamedText ρ (layerPieces keycode.toList)), ← renameLayers,
      hempty]
    rfl
  cases hcs : keycode.toList with
  | nil => exact h (String.toList_eq_nil_iff.mp hcs)
  | cons c cs =>
    rw [hcs, layerPieces] at hnil
    split at hnil <;> cases hnil

end Renaming

end Keyforge.Keycode
