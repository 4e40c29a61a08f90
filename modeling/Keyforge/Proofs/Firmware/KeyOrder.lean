import Keyforge.Firmware.Declarations
import Keyforge.Layout.Colors
import Keyforge.Proofs.Board.ReadingOrder
import Keyforge.Proofs.Firmware.Keymap
import Mathlib.Data.List.Perm.Basic

/-!
# The order of a board's keys

A board file lists its keys in some order, which the layout macro takes its arguments in. Nothing
else depends on it, provided that the halves of a split board are told apart by a row or a column of
the matrix. For then the halves, and with them the frames, cells and slots, are determined by the
positions (`frame_reorder`, `slots_reorder`), and lights are looked up by what a key says of itself.
-/

namespace Keyforge

/-! ### Orders -/

/-- The items of a list in the order of some places. -/
def pick (order : List Nat) (items : List α) : List α := order.filterMap (items[·]?)

theorem pick_map (order : List Nat) (f : α → β) (items : List α) :
    pick order (items.map f) = (pick order items).map f := by
  simp only [pick, List.getElem?_map, List.map_filterMap]

theorem pick_range (items : List α) : pick (List.range items.length) items = items := by
  induction items with
  | nil => rfl
  | cons a items ih =>
    have hfirst : (a :: items)[0]? = some a := rfl
    rw [pick, List.length_cons, List.range_succ_eq_map, List.filterMap_cons_some hfirst,
      List.filterMap_map]
    exact congrArg (a :: ·) ih

theorem pick_perm {order : List Nat} {items : List α}
    (h : order.Perm (List.range items.length)) : (pick order items).Perm items := by
  have hperm := h.filterMap (items[·]?)
  rwa [show (List.range items.length).filterMap (items[·]?) = items from pick_range items] at hperm

namespace Geometry

variable {g : Geometry} {keys : List KeyShape}

def reorder (g : Geometry) (keys : List KeyShape) : Geometry := { g with keys }

theorem positions_perm (h : keys.Perm g.keys) : (g.reorder keys).positions.Perm g.positions :=
  h.map KeyShape.position

theorem keyLights_perm (h : keys.Perm g.keys) : (g.reorder keys).keyLights.Perm g.keyLights :=
  h.filterMap KeyShape.light?

/-! ### Lights -/

theorem greatest?_eq_of_perm {ns ms : List Int} (h : ns.Perm ms) : greatest? ns = greatest? ms := by
  rw [greatest?_eq_max?, greatest?_eq_max?]
  refine Option.ext fun n => ?_
  rw [List.max?_eq_some_iff, List.max?_eq_some_iff, h.mem_iff]
  exact and_congr_right fun _ => forall_congr' fun m => by rw [h.mem_iff]

theorem totalLights_reorder (h : keys.Perm g.keys) :
    (g.reorder keys).totalLights = g.totalLights := by
  unfold totalLights
  rw [greatest?_eq_of_perm (keyLights_perm h)]
  rfl

theorem Valid.reorder (hv : g.Valid) (h : keys.Perm g.keys) : (g.reorder keys).Valid where
  positions_nodup := (positions_perm h).nodup_iff.mpr hv.positions_nodup
  positions_inMatrix := fun p hp => hv.positions_inMatrix p ((positions_perm h).mem_iff.mp hp)
  lights_nodup := (keyLights_perm h).nodup_iff.mpr hv.lights_nodup
  lights_nonneg := fun light hlight => hv.lights_nonneg light ((keyLights_perm h).mem_iff.mp hlight)
  lights_lt := by
    intro light hlight
    rw [totalLights_reorder h]
    exact hv.lights_lt light ((keyLights_perm h).mem_iff.mp hlight)

/-! ### Slots -/

/-- The board is in one piece, or a row or column of the matrix tells its halves apart. -/
def Bounded (g : Geometry) : Prop := ∀ split, g.split? = some split → split.boundary?.isSome = true

def side (split? : Option Split) (p : Position) : Half :=
  match split? with
  | none => .left
  | some split =>
    match split.axis with
    | .row => half (split.boundary?.getD 0 ≤ p.row)
    | .col => half (split.boundary?.getD 0 ≤ p.col)

theorem halves_eq_map (h : g.Bounded) : g.halves = g.positions.map (side g.split?) := by
  unfold halves
  cases hsplit : g.split? with
  | none => rw [positions, List.map_map]; rfl
  | some split =>
    obtain ⟨boundary, hboundary⟩ := Option.isSome_iff_exists.mp (h split hsplit)
    simp only [hboundary, positions, List.map_map]
    refine List.map_congr_left fun k _ => ?_
    simp only [Function.comp, side, hboundary]
    rfl

theorem zip_halves (h : g.Bounded) :
    g.positions.zip g.halves = g.positions.map fun p => (p, side g.split? p) := by
  rw [halves_eq_map h]
  nth_rewrite 1 [← List.map_id g.positions]
  rw [List.zip_map']
  rfl

theorem members_eq_filter (h : g.Bounded) (half : Half) :
    g.members half = g.positions.filter fun p => side g.split? p == half := by
  rw [members, zip_halves h, List.filter_map, List.map_map]
  exact List.map_id _

theorem least_eq_of_perm {ns ms : List Int} (h : ns.Perm ms) : least ns = least ms := by
  cases ns with
  | nil => rw [h.nil_eq]
  | cons n rest =>
    have hne : n :: rest ≠ [] := List.cons_ne_nil n rest
    have hne' : ms ≠ [] := by
      rintro rfl
      exact hne h.eq_nil
    have hle := least_le (h.mem_iff.mpr (least_mem hne'))
    have hge := least_le (h.mem_iff.mp (least_mem hne))
    omega

theorem corner_eq_of_perm {ps qs : List Position} (h : ps.Perm qs) : corner ps = corner qs := by
  rw [corner, corner, least_eq_of_perm (h.map Position.row), least_eq_of_perm (h.map Position.col)]

theorem span_eq_of_perm {ps qs : List Position} (h : ps.Perm qs) : span ps = span qs := by
  rw [span, span, corner_eq_of_perm h]
  exact h.foldl_eq' (fun p _ q _ w => by omega) 0

theorem frame_reorder (hb : g.Bounded) (h : keys.Perm g.keys) (split : Split) (half : Half) :
    (g.reorder keys).frame split (g.reorder keys).halves half = g.frame split g.halves half := by
  have hmembers : ∀ half, ((g.reorder keys).members half).Perm (g.members half) := by
    intro half
    rw [members_eq_filter hb, members_eq_filter (g := g.reorder keys) hb]
    exact (positions_perm h).filter _
  cases half with
  | left =>
    show leftFrame _ = leftFrame _
    rw [leftFrame, leftFrame, corner_eq_of_perm (hmembers .left), span_eq_of_perm (hmembers .left)]
  | right =>
    show rightFrame _ split = rightFrame _ split
    rw [rightFrame, rightFrame, corner_eq_of_perm (hmembers .right),
      span_eq_of_perm (hmembers .right), span_eq_of_perm (hmembers .left)]

def cellOf (g : Geometry) (p : Position) : Int × Int :=
  match g.split? with
  | none => (p.row, p.col)
  | some split => (g.frame split g.halves (side g.split? p)).cell p

theorem zip_cells (h : g.Bounded) :
    g.cells.zip g.positions = g.positions.map fun p => (g.cellOf p, p) := by
  have hcells : g.cells = g.positions.map g.cellOf := by
    cases hsplit : g.split? with
    | none =>
      rw [cells, hsplit]
      exact List.map_congr_left fun p _ => by rw [cellOf, hsplit]
    | some split =>
      rw [cells_eq_map hsplit, zip_halves h, List.map_map]
      exact List.map_congr_left fun p _ => by rw [cellOf, hsplit]; rfl
  rw [hcells]
  nth_rewrite 2 [← List.map_id g.positions]
  rw [List.zip_map']
  rfl

/-- Keys are sorted into the same slots in whatever order they are listed. -/
theorem slots_reorder (hb : g.Bounded) (h : keys.Perm g.keys) :
    (g.reorder keys).slots = g.slots := by
  have hcell : (g.reorder keys).cellOf = g.cellOf := by
    funext p
    have hsplit : (g.reorder keys).split? = g.split? := rfl
    rw [cellOf, cellOf, hsplit]
    cases g.split? with
    | none => rfl
    | some split => simp only [frame_reorder hb h]
  have hperm : ((g.reorder keys).cells.zip (g.reorder keys).positions).Perm
      (g.cells.zip g.positions) := by
    rw [zip_cells hb, zip_cells (g := g.reorder keys) hb, hcell]
    exact (positions_perm h).map _
  -- cells and positions together are compared by a total order, so sorting leaves no choice
  have hantisymm : ∀ a b : (Int × Int) × Position, readsBefore a b = true →
      readsBefore b a = true → a = b := by
    rintro ⟨⟨r, c⟩, ⟨row, col⟩⟩ ⟨⟨r', c'⟩, ⟨row', col'⟩⟩ hab hba
    simp only [readsBefore_iff, CellBefore, Position.atMost_iff, Prod.mk.injEq,
      Position.mk.injEq] at hab hba ⊢
    omega
  have hsorted := List.Perm.eq_of_pairwise (fun a b _ _ => hantisymm a b)
    (pairwise_readsBefore _) (pairwise_readsBefore _)
    (((List.mergeSort_perm _ _).trans hperm).trans (List.mergeSort_perm _ _).symm)
  rw [slots, slots, hsorted]

end Geometry

namespace Coordinates

variable {g : Geometry} {keys : List KeyShape}

theorem lightOf?_reorder (hv : g.Valid) (h : keys.Perm g.keys) :
    (ofGeometry (g.reorder keys)).lightOf? = (ofGeometry g).lightOf? := by
  funext p
  refine Option.ext fun light => ?_
  rw [lightOf?_eq_some_iff hv, lightOf?_eq_some_iff (hv.reorder h)]
  exact exists_congr fun k => and_congr_left fun _ => h.mem_iff

theorem overLight?_reorder (hv : g.Valid) (h : keys.Perm g.keys) :
    (ofGeometry (g.reorder keys)).overLight? = (ofGeometry g).overLight? := by
  funext light
  refine Option.ext fun p => ?_
  rw [overLight?_eq_some_iff hv, overLight?_eq_some_iff (hv.reorder h)]
  exact exists_congr fun k => and_congr_left fun _ => h.mem_iff

end Coordinates

/-! ### Sources -/

namespace Firmware.Compilation

def reorder (c : Compilation) (keys : List KeyShape) : Compilation :=
  { c with
    board := { c.board with geometry := c.board.geometry.reorder keys }
    coordinates := .ofGeometry (c.board.geometry.reorder keys) }

section Reorder

variable {c : Compilation} {keys : List KeyShape}
  (hcoordinates : c.coordinates = .ofGeometry c.board.geometry)
  (hb : c.board.geometry.Bounded) (h : keys.Perm c.board.geometry.keys)

include hcoordinates hb h

theorem slots_coordinates_reorder : (c.reorder keys).coordinates.slots = c.coordinates.slots := by
  rw [hcoordinates]
  exact Geometry.slots_reorder hb h

theorem validate_reorder : (c.reorder keys).toSubject.validate = c.toSubject.validate := by
  have hslots := slots_coordinates_reorder hcoordinates hb h
  have hhas : (c.reorder keys).coordinates.has = c.coordinates.has := by
    funext p
    rw [Coordinates.has, hslots]
    rfl
  have hcount : (c.reorder keys).coordinates.keyCount = c.coordinates.keyCount :=
    congrArg List.length hslots
  have hkeyed : (c.reorder keys).board.geometry.keyedLights = c.board.geometry.keyedLights :=
    congrArg Int.ofNat (Geometry.keyLights_perm h).length_eq
  have htotal : (c.reorder keys).board.geometry.totalLights = c.board.geometry.totalLights :=
    Geometry.totalLights_reorder h
  have hlayers : (c.reorder keys).toSubject.layerFindings = c.toSubject.layerFindings := by
    funext layer
    simp only [Subject.layerFindings, Subject.layerKeysFindings, Subject.definedCount, hhas, hcount]
    rfl
  have hkeys : (c.reorder keys).toSubject.keyFindings = c.toSubject.keyFindings := by
    funext layer p key
    simp only [Subject.keyFindings, Subject.positionFindings, hhas]
    rfl
  have hlights : (c.reorder keys).toSubject.lightFindings = c.toSubject.lightFindings := by
    simp only [Subject.lightFindings, hkeyed, htotal]
    rfl
  have hfindings : (c.reorder keys).toSubject.findings = c.toSubject.findings := by
    simp only [Subject.findings, hlayers, hkeys, hlights]
    rfl
  have hnumbers : (c.reorder keys).toSubject.checkNumbers = c.toSubject.checkNumbers := by
    simp only [Subject.checkNumbers, Subject.checkKey, Subject.positionNumbers, Subject.lightNumbers,
      hhas, hkeyed, htotal]
    rfl
  rw [Subject.validate, hnumbers, hfindings]
  rfl

theorem matrixLayer_reorder (layer : Layer) :
    (c.reorder keys).matrixLayer layer = c.matrixLayer layer := by
  have hcrossing : (c.reorder keys).crossing = c.crossing := by
    funext layer p
    rw [crossing, crossing, Coordinates.has, Coordinates.has,
      slots_coordinates_reorder hcoordinates hb h]
    rfl
  have hrow : (c.reorder keys).matrixRow = c.matrixRow := by
    funext layer row
    simp only [matrixRow, hcrossing]
    rfl
  simp only [matrixLayer, hrow]
  rfl

omit hb in
theorem lightTable_reorder (hv : c.board.geometry.Valid) (fallback : Color) :
    (c.reorder keys).layout.lightTable (c.reorder keys).coordinates fallback =
      c.layout.lightTable c.coordinates fallback := by
  have hcount : (c.reorder keys).coordinates.lightCount = c.coordinates.lightCount := by
    rw [hcoordinates]
    exact Geometry.totalLights_reorder h
  have hover : (c.reorder keys).coordinates.overLight? = c.coordinates.overLight? := by
    rw [hcoordinates]
    exact Coordinates.overLight?_reorder hv h
  have hcolor : ∀ layer, c.layout.lightColor (c.reorder keys).coordinates layer fallback =
      c.layout.lightColor c.coordinates layer fallback := by
    intro layer
    funext light
    rw [Layout.lightColor, hover]
    rfl
  show c.layout.lightTable (c.reorder keys).coordinates fallback = _
  simp only [Layout.lightTable, Layout.lightColors, hcount, hcolor]

omit hcoordinates hb in
theorem derivedDeclarations_reorder :
    (c.reorder keys).derivedDeclarations = c.derivedDeclarations := by
  have htotal : (c.reorder keys).board.geometry.totalLights = c.board.geometry.totalLights :=
    Geometry.totalLights_reorder h
  simp only [derivedDeclarations, lightDeclarations, htotal]
  rfl

end Reorder

/-- **Only the arguments of the macro follow the order of the keys.** They and the keycodes of every
layer are brought into the same order as the keys, and all the rest stays the same. -/
theorem reorder_changes_arguments {c : Compilation} {order : List Nat}
    (hcoordinates : c.coordinates = .ofGeometry c.board.geometry)
    (hcheck : c.board.geometry.check = .ok c.board.geometry) (hb : c.board.geometry.Bounded)
    (horder : order.Perm (List.range c.board.geometry.keys.length))
    (hresolve : ∀ layer ∈ c.layout.layers, ∀ entry ∈ layer.keys,
      ∃ code, Keycode.emit c.layout.layerIds entry.2.keycode = .ok code) :
    let c' := c.reorder (pick order c.board.geometry.keys)
    c'.coordinates.slotOf? = c.coordinates.slotOf? ∧
      c'.coordinates.atSlot? = c.coordinates.atSlot? ∧
      c'.coordinates.lightOf? = c.coordinates.lightOf? ∧
      c'.coordinates.overLight? = c.coordinates.overLight? ∧
      (∀ layer ∈ c.layout.layers, ∃ lines,
        c.matrixLayer layer = .ok lines ∧ c'.matrixLayer layer = .ok lines) ∧
      (∀ fallback, c'.layout.lightTable c'.coordinates fallback =
        c.layout.lightTable c.coordinates fallback) ∧
      c'.derivedDeclarations = c.derivedDeclarations ∧
      c'.settingsDeclarations = c.settingsDeclarations ∧
      c'.toSubject.validate = c.toSubject.validate ∧
      c'.coordinates.arguments = pick order c.coordinates.arguments ∧
      ∀ layer ∈ c.layout.layers, ∃ codes,
        c.layerKeycodes layer = .ok codes ∧ c'.layerKeycodes layer = .ok (pick order codes) := by
  intro c'
  have hv := (Geometry.valid_of_check hcheck).2
  have h := pick_perm horder
  have hslots := slots_coordinates_reorder hcoordinates hb h
  have harguments : c'.coordinates.arguments = pick order c.coordinates.arguments := by
    rw [hcoordinates]
    exact (pick_map order KeyShape.position c.board.geometry.keys).symm
  refine ⟨?_, ?_, ?_, ?_, fun layer hlayer => ?_, lightTable_reorder hcoordinates h hv,
    derivedDeclarations_reorder h, rfl, validate_reorder hcoordinates hb h, harguments,
    fun layer hlayer => ?_⟩
  · funext p
    rw [Coordinates.slotOf?, hslots]
    rfl
  · funext slot
    rw [Coordinates.atSlot?, hslots]
    rfl
  · rw [hcoordinates]
    exact Coordinates.lightOf?_reorder hv h
  · rw [hcoordinates]
    exact Coordinates.overLight?_reorder hv h
  · obtain ⟨code, hcode⟩ := Classical.axiomOfChoice (exists_isCodeAt (hresolve layer hlayer))
    refine ⟨_, matrixLayer_eq_ok hcode, ?_⟩
    rw [matrixLayer_reorder hcoordinates hb h, matrixLayer_eq_ok hcode]
  · obtain ⟨code, hcode⟩ := Classical.axiomOfChoice (exists_isCodeAt (hresolve layer hlayer))
    refine ⟨_, layerKeycodes_eq_ok hcode, ?_⟩
    have hcodes : c'.layerKeycodes layer = .ok (c'.coordinates.arguments.map code) :=
      layerKeycodes_eq_ok hcode
    rw [hcodes, harguments, pick_map]

/-- The corner keymap on a board in two halves, the right one of which counts its columns from the
outer edge. -/
def mirroredKeymap : Compilation :=
  { cornerKeymap with
    board := { cornerBoard with geometry := mirroredBoard }
    coordinates := .ofGeometry mirroredBoard }

theorem reorder_changes_arguments_mirroredKeymap :
    let c' := mirroredKeymap.reorder (pick [2, 0, 3, 1] mirroredBoard.keys)
    mirroredBoard.check = .ok mirroredBoard ∧ mirroredBoard.Bounded ∧
      c'.coordinates.slotOf? = mirroredKeymap.coordinates.slotOf? ∧
      c'.toSubject.validate = mirroredKeymap.toSubject.validate ∧
      mirroredKeymap.coordinates.arguments = [⟨0, 0⟩, ⟨0, 1⟩, ⟨1, 1⟩, ⟨1, 0⟩] ∧
      c'.coordinates.arguments = [⟨1, 1⟩, ⟨0, 0⟩, ⟨1, 0⟩, ⟨0, 1⟩] ∧
      ∀ layer ∈ cornerLayout.layers, ∃ codes, mirroredKeymap.layerKeycodes layer = .ok codes ∧
        c'.layerKeycodes layer = .ok (pick [2, 0, 3, 1] codes) := by
  intro c'
  have hb : mirroredBoard.Bounded := by
    intro split hsplit
    cases hsplit
    rfl
  have hresolve : ∀ layer ∈ mirroredKeymap.layout.layers, ∀ entry ∈ layer.keys,
      ∃ code, Keycode.emit mirroredKeymap.layout.layerIds entry.2.keycode = .ok code := by
    intro layer hlayer entry hentry
    rcases List.mem_cons.mp hlayer with rfl | hlayer
    · obtain rfl := List.mem_singleton.mp hentry
      exact ⟨_, emit_cornerKeymap⟩
    · obtain rfl := List.mem_singleton.mp hlayer
      cases hentry
  have horder : [2, 0, 3, 1].Perm (List.range mirroredKeymap.board.geometry.keys.length) := by decide
  obtain ⟨hslots, -, -, -, -, -, -, -, hreport, harguments, hcodes⟩ :=
    reorder_changes_arguments (c := mirroredKeymap) rfl rfl hb horder hresolve
  exact ⟨rfl, hb, hslots, hreport, rfl, harguments, hcodes⟩

end Firmware.Compilation

end Keyforge
