import Keyforge.Firmware.Keymap
import Keyforge.Proofs.Board.Coordinates
import Keyforge.Proofs.Board.Position
import Keyforge.Proofs.Result

/-!
# The two forms of a keymap

A layer is written as the arguments of the layout macro, broken into lines by the rows of the board,
or as the whole matrix. Line breaks put aside, the arguments are the keycodes in the order of the keys
(`intercalate_argumentLines`), and the matrix has the same ones at their crossings
(`matrixLayer_eq_ok`, `entryAt?_matrixTable`).
-/

namespace Keyforge.Firmware.Compilation

/-! ### Lines of arguments -/

theorem flatten_groupRows (pairs : List (Int × String)) :
    (groupRows pairs).flatten = pairs.map Prod.snd := by
  fun_induction groupRows pairs with
  | case1 => rfl
  | case2 row code => rfl
  | case3 row code next other rest hnil ih =>
    rw [hnil] at ih
    cases ih
  | case4 code row other rest group groups hgroups ih =>
    rw [hgroups] at ih
    simpa using ih
  | case5 row code next other rest group groups hgroups hne ih =>
    rw [hgroups] at ih
    simpa using ih

theorem ne_nil_of_mem_groupRows {pairs : List (Int × String)} {group : List String}
    (h : group ∈ groupRows pairs) : group ≠ [] := by
  fun_induction groupRows pairs generalizing group with
  | case1 => cases h
  | case2 row code =>
    rw [List.mem_singleton.mp h]
    exact List.cons_ne_nil code []
  | case3 row code next other rest hnil ih =>
    rw [List.mem_singleton.mp h]
    exact List.cons_ne_nil code []
  | case4 code row other rest first groups hgroups ih =>
    rcases List.mem_cons.mp h with rfl | h
    · exact List.cons_ne_nil code first
    · exact ih (hgroups ▸ List.mem_cons_of_mem first h)
  | case5 row code next other rest first groups hgroups hne ih =>
    rcases List.mem_cons.mp h with rfl | h
    · exact List.cons_ne_nil code []
    · exact ih (hgroups ▸ h)

theorem withCommas_cons_cons (line next : String) (lines : List String) :
    withCommas (line :: next :: lines) = (line ++ ",") :: withCommas (next :: lines) := rfl

theorem intercalate_withCommas {groups : List (List String)} (h : ∀ group ∈ groups, group ≠ []) :
    String.intercalate " " (withCommas (groups.map (String.intercalate ", "))) =
      String.intercalate ", " groups.flatten := by
  induction groups with
  | nil => rfl
  | cons first groups ih =>
    have ih := ih (List.forall_mem_cons.mp h).2
    cases groups with
    | nil => simp [withCommas]
    | cons second groups =>
      have hfirst := h first List.mem_cons_self
      have hrest : (second :: groups).flatten ≠ [] := by
        have hsecond := h second (List.mem_cons_of_mem first List.mem_cons_self)
        simp [hsecond]
      -- the lines behind the first one start with some line
      obtain ⟨line, lines, hlines⟩ : ∃ line lines,
          withCommas ((second :: groups).map (String.intercalate ", ")) = line :: lines := by
        cases groups <;> exact ⟨_, _, rfl⟩
      rw [List.flatten_cons, String.intercalate_append_of_ne_nil hfirst hrest, ← ih, List.map_cons,
        List.map_cons, withCommas_cons_cons, ← List.map_cons, hlines, String.intercalate_cons_cons]
      simp only [String.append_assoc]
      rfl

theorem intercalate_argumentLines {codes : List String} {rows : List Int}
    (h : codes.length ≤ rows.length) :
    String.intercalate " " (argumentLines codes rows) = String.intercalate ", " codes := by
  rw [argumentLines, intercalate_withCommas fun _ hgroup => ne_nil_of_mem_groupRows hgroup,
    flatten_groupRows, List.map_snd_zip h]

/-! ### Both forms -/

variable {c : Compilation} {layer : Layer}

/-- A keycode is the one of a position on a layer: that of the key there with its references
replaced, or the transparent one if the layer has no key there. -/
def IsCodeAt (c : Compilation) (layer : Layer) (p : Position) (code : String) : Prop :=
  match layer.keyAt? p with
  | none => code = c.options.transparentKeycode
  | some key => Keycode.emit c.layout.layerIds key.keycode = .ok code

theorem keycodeAt_eq_ok_iff {p : Position} {code : String} :
    c.keycodeAt layer p = .ok code ↔ c.IsCodeAt layer p code := by
  unfold keycodeAt IsCodeAt
  cases layer.keyAt? p with
  | none =>
    show Except.ok c.options.transparentKeycode = .ok code ↔ code = c.options.transparentKeycode
    rw [Except.ok.injEq, eq_comm]
  | some key =>
    cases hemit : Keycode.emit c.layout.layerIds key.keycode <;> simp [hemit]

theorem exists_isCodeAt
    (h : ∀ entry ∈ layer.keys, ∃ code, Keycode.emit c.layout.layerIds entry.2.keycode = .ok code)
    (p : Position) : ∃ code, c.IsCodeAt layer p code := by
  unfold IsCodeAt
  cases hkey : layer.keyAt? p with
  | none => exact ⟨_, rfl⟩
  | some key => exact h (p, key) (Pairs.mem_of_lookup hkey)

def entryAt? (table : List (List String)) (p : Position) : Option String :=
  (Coordinates.itemAt? table p.row).bind fun row => Coordinates.itemAt? row p.col

def rowText (codes : List String) : String :=
  indent2 ++ "\x7b " ++ String.intercalate ", " codes ++ " \x7d,"

def matrixTable (g : Geometry) (entry : Position → String) : List (List String) :=
  (Position.indices g.rows).map fun row => (Position.indices g.cols).map fun col => entry ⟨row, col⟩

theorem entryAt?_matrixTable {g : Geometry} {p : Position} (h : g.inMatrix p = true)
    (entry : Position → String) : entryAt? (matrixTable g entry) p = some (entry p) := by
  obtain ⟨row, col⟩ := p
  simp only [Geometry.inMatrix, Bool.and_eq_true, decide_eq_true_eq] at h
  obtain ⟨i, rfl⟩ := Int.eq_ofNat_of_zero_le h.1.1.1
  obtain ⟨j, rfl⟩ := Int.eq_ofNat_of_zero_le h.1.2
  rw [entryAt?, Coordinates.itemAt?_natCast, matrixTable, List.getElem?_map,
    Position.getElem?_indices (by omega), Option.map_some, Option.bind_some,
    Coordinates.itemAt?_natCast, List.getElem?_map, Position.getElem?_indices (by omega)]
  rfl

theorem layerKeycodes_eq_ok {code : Position → String} (h : ∀ p, c.IsCodeAt layer p (code p)) :
    c.layerKeycodes layer = .ok (c.coordinates.arguments.map code) :=
  mapM_eq_ok_map fun p _ => keycodeAt_eq_ok_iff.mpr (h p)

theorem exists_rows {keys : List KeyShape}
    (h : ∀ k ∈ keys, ∃ d, Number.view k.y = .finite d) :
    ∃ rows, keys.mapM rowOf = .ok rows ∧ rows.length = keys.length := by
  refine exists_mapM fun k hk => ?_
  obtain ⟨d, hd⟩ := h k hk
  exact ⟨d.round, by simp only [rowOf, hd]⟩

/-- The matrix has the keycode of the key at every crossing that has one. -/
theorem matrixLayer_eq_ok {code : Position → String} (h : ∀ p, c.IsCodeAt layer p (code p)) :
    c.matrixLayer layer = .ok ([indent ++ "[" ++ Text.intText layer.index ++ "] = \x7b"] ++
      (matrixTable c.board.geometry fun p =>
        if c.coordinates.has p then code p else "KC_NO").map rowText ++ [indent ++ "\x7d,"]) := by
  have hcrossing : ∀ p, c.crossing layer p =
      .ok (if c.coordinates.has p then code p else "KC_NO") := by
    intro p
    unfold crossing
    split
    · exact keycodeAt_eq_ok_iff.mpr (h p)
    · rfl
  have hrow : ∀ row, c.matrixRow layer row =
      .ok (rowText ((Position.indices c.board.geometry.cols).map fun col =>
        if c.coordinates.has ⟨row, col⟩ then code ⟨row, col⟩ else "KC_NO")) := by
    intro row
    rw [matrixRow, mapM_eq_ok_map fun col _ => hcrossing ⟨row, col⟩]
    rfl
  rw [matrixLayer, mapM_eq_ok_map fun row _ => hrow row, matrixTable, List.map_map]
  rfl

/-- **Both forms of a keymap have the same keycodes.** Joined by spaces, the lines of the macro are
the list of its arguments, one for each key of the board. The matrix has the argument of a key where
the key is, and no keycode where there is none. -/
theorem macroLayer_agrees_matrixLayer {c : Compilation} {layer : Layer}
    (hcoordinates : c.coordinates = .ofGeometry c.board.geometry)
    (hcheck : c.board.geometry.check = .ok c.board.geometry) (hkeys : c.board.geometry.keys ≠ [])
    (hfinite : ∀ k ∈ c.board.geometry.keys, ∃ d, Number.view k.y = .finite d)
    (hresolve : ∀ other ∈ c.layout.layers, ∀ entry ∈ other.keys,
      ∃ code, Keycode.emit c.layout.layerIds entry.2.keycode = .ok code)
    (hlayer : layer ∈ c.layout.layers) (name : String) :
    ∃ codes args table,
      c.layerKeycodes layer = .ok codes ∧
      codes.length = c.board.geometry.keys.length ∧
      (∀ (i : Nat) (k : KeyShape), c.board.geometry.keys[i]? = some k →
        ∃ code, codes[i]? = some code ∧ c.IsCodeAt layer k.position code) ∧
      c.macroLayer name layer =
        .ok ([indent ++ "[" ++ Text.intText layer.index ++ "] = " ++ name ++ "("] ++
          args.map (indent2 ++ ·) ++ [indent ++ "),"]) ∧
      String.intercalate " " args = String.intercalate ", " codes ∧
      c.matrixLayer layer = .ok ([indent ++ "[" ++ Text.intText layer.index ++ "] = \x7b"] ++
        table.map rowText ++ [indent ++ "\x7d,"]) ∧
      (table.length : Int) = c.board.geometry.rows ∧
      (∀ row ∈ table, (row.length : Int) = c.board.geometry.cols) ∧
      (∀ (i : Nat) (k : KeyShape), c.board.geometry.keys[i]? = some k →
        entryAt? table k.position = codes[i]?) ∧
      ∀ p, c.board.geometry.inMatrix p = true → p ∉ c.board.geometry.positions →
        entryAt? table p = some "KC_NO" := by
  obtain ⟨-, hv⟩ := Geometry.valid_of_check hcheck
  obtain ⟨code, hcode⟩ := Classical.axiomOfChoice (exists_isCodeAt (hresolve layer hlayer))
  obtain ⟨rows, hrows, hrowCount⟩ := exists_rows hfinite
  have hcodes : c.layerKeycodes layer = .ok (c.board.geometry.positions.map code) := by
    rw [layerKeycodes_eq_ok hcode, hcoordinates]
    rfl
  have hhas : ∀ {p}, c.coordinates.has p = true ↔ p ∈ c.board.geometry.positions := by
    rw [hcoordinates]
    exact Coordinates.has_ofGeometry_iff
  have hposition : ∀ {i : Nat} {k : KeyShape}, c.board.geometry.keys[i]? = some k →
      c.board.geometry.positions[i]? = some k.position := by
    intro i k hk
    rw [Geometry.positions, List.getElem?_map, hk]
    rfl
  -- the matrix has a crossing, so its numbers of rows and columns are not negative
  obtain ⟨hrowsNonneg, hcolsNonneg⟩ : 0 ≤ c.board.geometry.rows ∧ 0 ≤ c.board.geometry.cols := by
    obtain ⟨k, hk⟩ := List.exists_mem_of_ne_nil _ hkeys
    have hinside := hv.positions_inMatrix k.position (List.mem_map_of_mem hk)
    simp only [Geometry.inMatrix, Bool.and_eq_true, decide_eq_true_eq] at hinside
    omega
  refine ⟨c.board.geometry.positions.map code,
    argumentLines (c.board.geometry.positions.map code) rows, _, hcodes, by simp,
    fun i k hk => ?_, ?_, intercalate_argumentLines ?_, matrixLayer_eq_ok hcode, ?_,
    fun row hrow => ?_, fun i k hk => ?_, fun p hp hnone => ?_⟩
  · exact ⟨code k.position, by rw [List.getElem?_map, hposition hk]; rfl, hcode k.position⟩
  · rw [macroLayer, hcodes, hrows]
    rfl
  · simp [hrowCount]
  · rw [matrixTable, List.length_map, Position.length_indices]
    omega
  · obtain ⟨i, -, rfl⟩ := List.mem_map.mp hrow
    rw [List.length_map, Position.length_indices]
    omega
  · have hmem := List.mem_of_getElem? (hposition hk)
    rw [entryAt?_matrixTable (hv.positions_inMatrix _ hmem), if_pos (hhas.mpr hmem),
      List.getElem?_map, hposition hk]
    rfl
  · rw [entryAt?_matrixTable hp, if_neg (fun h => hnone (hhas.mp h))]

/-- A board with keys in two corners of its matrix, the lower one first, and a light without key. -/
def cornerBoard : Board where
  keyboard := .text "corner"
  geometry := {
    keys := [{ position := ⟨1, 0⟩, light? := some 2, y := 1.0 },
      { position := ⟨0, 1⟩, light? := some 0 }]
    rows := 2
    cols := 2
    hasLighting := true
    lightCount? := some 3
    decorativeLights := 1 }

def cornerLayout : Layout where
  metadata := { name := "Corner", created := ⟨⟨2024, 1, 2⟩, 0, 0, 0, 0, none⟩,
                modified := ⟨⟨2024, 1, 2⟩, 0, 0, 0, 0, none⟩ }
  layers := [
    { index := 0, name := "Base", keys := [(⟨0, 1⟩, {
        keycode := "LT(@nav, TD( caps ))", position := ⟨0, 1⟩, category? := some "moves" })] },
    { index := 1, name := "Nav", id? := some "nav", color? := some .white }]
  categories := [{ id := "moves", name := "Moves",
                   color := { (default : Color) with blue := Color.white.blue } }]
  tapDances := [{ name := "caps", single := "KC_ESC", hold? := some "MO(@nav)" }]

def cornerKeymap : Compilation where
  layout := cornerLayout
  board := cornerBoard
  coordinates := .ofGeometry cornerBoard.geometry
  baseConfig := ""
  fallback := .white

theorem emit_cornerKeymap :
    Keycode.emit cornerKeymap.layout.layerIds "LT(@nav, TD( caps ))" =
      .ok "LT(1, TD(TD_CAPS))" :=
  toOption_eq_some_iff.mp (by decide +kernel)

theorem macroLayer_agrees_matrixLayer_cornerKeymap :
    cornerKeymap.board.geometry.check = .ok cornerKeymap.board.geometry ∧
      ∃ codes table layer, cornerKeymap.layout.layers[0]? = some layer ∧
        cornerKeymap.layerKeycodes layer = .ok codes ∧ codes.length = 2 ∧
        cornerKeymap.matrixLayer layer =
          .ok (["    [0] = \x7b"] ++ table.map rowText ++ ["    \x7d,"]) ∧
        entryAt? table ⟨1, 0⟩ = codes[0]? ∧ entryAt? table ⟨0, 1⟩ = codes[1]? ∧
        entryAt? table ⟨0, 0⟩ = some "KC_NO" := by
  have hone : Number.view 1.0 = .finite ⟨false, 0x10000000000000, -52, true⟩ := by decide +kernel
  have hzero : Number.view 0.0 = .finite ⟨false, 0, -1074, false⟩ := by decide +kernel
  have hfinite : ∀ k ∈ cornerKeymap.board.geometry.keys, ∃ d, Number.view k.y = .finite d :=
    List.forall_mem_cons.mpr ⟨⟨_, hone⟩, List.forall_mem_cons.mpr ⟨⟨_, hzero⟩, nofun⟩⟩
  have hresolve : ∀ other ∈ cornerKeymap.layout.layers, ∀ entry ∈ other.keys,
      ∃ code, Keycode.emit cornerKeymap.layout.layerIds entry.2.keycode = .ok code := by
    intro other hother entry hentry
    rcases List.mem_cons.mp hother with rfl | hother
    · rw [List.mem_singleton.mp hentry]
      exact ⟨_, emit_cornerKeymap⟩
    · rw [List.mem_singleton.mp hother] at hentry
      cases hentry
  obtain ⟨codes, args, table, hcodes, hlength, -, -, -, hmatrix, -, -, hentry, hempty⟩ :=
    macroLayer_agrees_matrixLayer (c := cornerKeymap) rfl rfl (List.cons_ne_nil _ _) hfinite
      hresolve List.mem_cons_self "LAYOUT"
  exact ⟨rfl, codes, table, _, rfl, hcodes, hlength, hmatrix, hentry 0 _ rfl, hentry 1 _ rfl,
    hempty ⟨0, 0⟩ rfl (by decide)⟩

end Keyforge.Firmware.Compilation
