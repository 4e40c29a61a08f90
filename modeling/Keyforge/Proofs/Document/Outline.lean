import Keyforge.Proofs.Document.Locality
import Keyforge.Proofs.Document.Located

/-!
# Outlines

The lines of a document are cut into its head, which ends with the frontmatter, a preamble, and
blocks that start at headings (`headLength`, `outline`). `Rearranged` says how blocks can be moved
about.
-/

namespace Keyforge.Document

open Keyforge.Text

variable {limits : Limits} {now : Time.Stamp}

/-! ### Blocks -/

/-- A heading with the lines up to the next one. -/
structure Block where
  heading : List Char
  rest : List (List Char)
  isHeading : Line.isHeading (trim heading) = true
  plain : ∀ full ∈ rest, Line.isHeading (trim full) = false

namespace Block

def lines (b : Block) : List (List Char) := b.heading :: b.rest

def kind (b : Block) : BlockKind := .of (trim b.heading)

end Block

/-- Lines cut at their headings. -/
@[ext]
structure Outline where
  preamble : List (List Char)
  blocks : List Block
  plain : ∀ full ∈ preamble, Line.isHeading (trim full) = false

def Outline.lines (o : Outline) : List (List Char) := o.preamble ++ o.blocks.flatMap Block.lines

def outline : List (List Char) → Outline
  | [] => ⟨[], [], List.forall_mem_nil _⟩
  | full :: rest =>
    let o := outline rest
    if h : Line.isHeading (trim full) = true then
      ⟨[], ⟨full, o.preamble, h, o.plain⟩ :: o.blocks, List.forall_mem_nil _⟩
    else
      ⟨full :: o.preamble, o.blocks, List.forall_mem_cons.mpr ⟨Bool.eq_false_iff.mpr h, o.plain⟩⟩

theorem lines_outline (lines : List (List Char)) : (outline lines).lines = lines := by
  induction lines with
  | nil => rfl
  | cons full rest ih =>
    unfold outline
    dsimp only
    split
    · show full :: ((outline rest).preamble ++ (outline rest).blocks.flatMap Block.lines) = _
      rw [← Outline.lines, ih]
    · show full :: (outline rest).lines = _
      rw [ih]

theorem outline_append {preamble : List (List Char)}
    (hplain : ∀ full ∈ preamble, Line.isHeading (trim full) = false) (rest : List (List Char)) :
    (outline (preamble ++ rest)).preamble = preamble ++ (outline rest).preamble ∧
      (outline (preamble ++ rest)).blocks = (outline rest).blocks := by
  induction preamble with
  | nil => exact ⟨rfl, rfl⟩
  | cons full preamble ih =>
    obtain ⟨hfull, hplain⟩ := List.forall_mem_cons.mp hplain
    obtain ⟨hpreamble, hblocks⟩ := ih hplain
    rw [List.cons_append, outline, dif_neg (by simp [hfull])]
    exact ⟨congrArg (full :: ·) hpreamble, hblocks⟩

theorem outline_blocks (blocks : List Block) :
    (outline (blocks.flatMap Block.lines)).preamble = [] ∧
      (outline (blocks.flatMap Block.lines)).blocks = blocks := by
  induction blocks with
  | nil => exact ⟨rfl, rfl⟩
  | cons b blocks ih =>
    obtain ⟨hpreamble, hblocks⟩ := outline_append b.plain (blocks.flatMap Block.lines)
    rw [ih.1, List.append_nil] at hpreamble
    rw [ih.2] at hblocks
    rw [List.flatMap_cons, Block.lines, List.cons_append, outline, dif_pos b.isHeading]
    refine ⟨rfl, ?_⟩
    simp only [hpreamble, hblocks]

/-- There is one way to cut lines at their headings. -/
theorem outline_lines (o : Outline) : outline o.lines = o := by
  obtain ⟨hpreamble, hblocks⟩ := outline_append o.plain (o.blocks.flatMap Block.lines)
  obtain ⟨hnone, hall⟩ := outline_blocks o.blocks
  rw [hnone, List.append_nil] at hpreamble
  exact Outline.ext hpreamble (hblocks.trans hall)

/-- Blocks that are moved about: two neighbours of different kinds change places, or a block of
unknown kind is left out or put in. -/
inductive Rearranged : List Block → List Block → Prop where
  | exchange (before after : List Block) {a b : Block} (hkind : a.kind ≠ b.kind) :
      Rearranged (before ++ a :: b :: after) (before ++ b :: a :: after)
  | leaveOut (before after : List Block) {b : Block} (hkind : b.kind = .unknown) :
      Rearranged (before ++ b :: after) (before ++ after)
  | putIn (before after : List Block) {b : Block} (hkind : b.kind = .unknown)
      (hrows : ∀ full ∈ b.lines, Line.isRow (trim full) = false) :
      Rearranged (before ++ after) (before ++ b :: after)

/-! ### The head -/

/-- How many lines there are up to the end of the frontmatter. -/
def headLength (lines : List (List Char)) : Nat :=
  ((frontmatter? lines).map fun found => found.1 + found.2.length + 1).getD 0

theorem exists_closing {lines before rest : List (List Char)}
    (hrest : ∀ full ∈ rest, OneLine full) (hlines : lines = before ++ rest) {s : State}
    (hs : s.Follows limits lines before) (hout : ∀ c region, s ≠ .inside c region)
    {c : Content} {region : Region}
    (h : (readLines limits now (before.length + 1) rest s).result = .ok (.inside c region)) :
    ∃ first closing last opened block metadata, rest = first ++ closing :: last ∧
      Opens (before ++ first) opened block ∧ trimRight closing = ['-', '-', '-'] ∧
      (readLines limits now (before.length + 1) (first ++ [closing]) s).result =
        .ok (.inside { metadata } .body) := by
  -- as in `follows_readLines`, the lines before grow by the one that is read
  induction rest generalizing before s with
  | nil =>
    cases h
    exact absurd rfl (hout c region)
  | cons full rest ih =>
    obtain ⟨hfull, hrest⟩ := List.forall_mem_cons.mp hrest
    obtain ⟨t, ht, h⟩ := readLines_cons_eq_ok_iff.mp h
    have hfollows := (follows_readLine hfull hlines hs).ok t ht
    by_cases hinside : ∃ c' region', t = .inside c' region'
    · -- this line closes the frontmatter
      obtain ⟨c', region', rfl⟩ := hinside
      cases s with
      | inside c region => exact absurd rfl (hout c region)
      | start =>
        rw [readLine_start] at ht
        split at ht
        · cases ht
        · split at ht <;> cases ht
      | frontmatter opened block =>
        by_cases hclosing : (trimRight full == ['-', '-', '-']) = true
        · rw [readLine_closing block hclosing] at ht
          obtain ⟨metadata, hmetadata, heq⟩ := map_eq_ok_iff.mp ht
          refine ⟨[], full, rest, opened, block, metadata, rfl, ?_, beq_iff_eq.mp hclosing, ?_⟩
          · rw [List.append_nil]
            exact hs
          · rw [List.nil_append, result_readLines_cons, readLine_closing block hclosing, hmetadata]
            rfl
        · rw [readLine_not_closing block hclosing] at ht
          cases ht
    · have hout' : ∀ c' region', t ≠ .inside c' region' := fun c' region' heq =>
        hinside ⟨c', region', heq⟩
      have hnext : (readLines limits now ((before ++ [full]).length + 1) rest t).result =
          .ok (.inside c region) := by
        rw [List.length_append, List.length_singleton]
        exact h
      obtain ⟨first, closing, last, opened, block, metadata, rfl, hopens, hclosing, hread⟩ :=
        ih hrest (hlines.trans (List.append_cons before full rest)) hfollows hout' hnext
      refine ⟨full :: first, closing, last, opened, block, metadata, rfl, ?_, hclosing, ?_⟩
      · rw [← List.singleton_append, ← List.append_assoc]
        exact hopens
      · rw [List.length_append, List.length_singleton] at hread
        rw [List.cons_append, result_readLines_cons, ht]
        exact hread

/-- A document that is read is outside of all blocks at the end of its head. -/
theorem exists_read_head {lines : List (List Char)} (hlines : ∀ full ∈ lines, OneLine full)
    {c : Content} {region : Region}
    (h : (readLines limits now 1 lines .start).result = .ok (.inside c region)) :
    ∃ metadata, (readLines limits now 1 (lines.take (headLength lines)) .start).result =
      .ok (.inside { metadata } .body) := by
  have hstart : State.Follows limits lines [] .start := List.forall_mem_nil _
  have hout : ∀ c region, State.start ≠ .inside c region := fun _ _ heq => State.noConfusion heq
  obtain ⟨first, closing, last, opened, block, metadata, hcut, hopens, hclosing, hread⟩ :=
    @exists_closing limits now lines [] lines hlines rfl .start hstart hout c region h
  rw [List.nil_append] at hopens
  subst hcut
  have hlength : headLength (first ++ closing :: last) = (first ++ [closing]).length := by
    unfold headLength
    rw [hopens.frontmatter?_eq hclosing last, List.length_append, List.length_singleton,
      ← hopens.bounds.2]
    rfl
  refine ⟨metadata, ?_⟩
  rw [hlength, List.append_cons first closing last, List.take_left]
  exact hread

end Keyforge.Document
