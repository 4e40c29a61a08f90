import Keyforge.Proofs.Document.Outline

/-!
# Rearranged documents

A heading closes whatever is open before it, as the end of the document would. So all that counts
between two blocks is the content that the document would have if it ended there (`Leads`).
-/

namespace Keyforge.Document

open Keyforge.Text

variable {limits : Limits} {now : Time.Stamp} {c d : Content} {lines : List (List Char)}

/-! ### Parts of different kinds -/

namespace Content

theorem graft_self (kind : BlockKind) (c : Content) : c.graft kind c = c := by
  cases kind with
  | layer | unknown => rfl
  | entries sec => cases sec <;> rfl

theorem gist_graft_congr (kind : BlockKind) {c' d' : Content} (hc : c.gist = d.gist)
    (hc' : c'.gist = d'.gist) : (c.graft kind c').gist = (d.graft kind d').gist := by
  rw [gist_eq_iff] at hc hc' ⊢
  cases kind with
  | layer | unknown => simp_all only [graft, and_self]
  | entries sec => cases sec <;> simp_all only [graft, and_self]

/-- Parts of different kinds do not overlap: they can be put in in any order, and neither sees the
other. -/
theorem graft_of_ne {k l : BlockKind} (h : k ≠ l) (x y c : Content) :
    x.graft k (y.graft l c) = y.graft l (x.graft k c) ∧ (x.graft k c).graft l y = c.graft l y := by
  cases k with
  | unknown => exact ⟨rfl, rfl⟩
  | layer =>
    cases l with
    | layer => exact absurd rfl h
    | unknown => exact ⟨rfl, rfl⟩
    | entries sec => cases sec <;> exact ⟨rfl, rfl⟩
  | entries sec =>
    cases l with
    | layer | unknown => cases sec <;> exact ⟨rfl, rfl⟩
    | entries other => cases sec <;> cases other <;> first | exact ⟨rfl, rfl⟩ | exact absurd rfl h

theorem carries_of_gist_eq (kind : BlockKind) (h : c.gist = d.gist) : Carries kind d c d := by
  have hpart := gist_graft_congr kind h (rfl : d.gist = d.gist)
  rw [graft_self] at hpart
  exact hpart.symm

theorem Carries.congr {kind : BlockKind} {d' : Content} (h : Carries kind d c d)
    (hd : d'.gist = d.gist) : Carries kind d' c d' :=
  hd.trans (h.trans (gist_graft_congr kind rfl hd.symm))

end Content

/-! ### From content to content -/

/-- A document that ends in a state has a content with the gist of `c`. -/
def State.EndsLike (s : State) (c : Content) : Prop := ∃ d, Settles s d ∧ d.gist = c.gist

theorem endsLike_body (c : Content) : (State.inside c .body).EndsLike c := ⟨c, fun _ => rfl, rfl⟩

theorem State.EndsLike.congr {s : State} (h : s.EndsLike c) (hgist : c.gist = d.gist) :
    s.EndsLike d := by
  obtain ⟨e, he, heq⟩ := h
  exact ⟨e, he, heq.trans hgist⟩

variable (limits now) in
/-- The lines are read after the first content, whatever their numbers, and lead to the second. -/
def Leads (lines : List (List Char)) (c c' : Content) : Prop :=
  ∀ s : State, s.EndsLike c → Reads limits now lines s fun t => t.EndsLike c'

theorem Leads.congr {c' d' : Content} (h : Leads limits now lines c c') (hc : c.gist = d.gist)
    (hc' : c'.gist = d'.gist) : Leads limits now lines d d' := fun s hs =>
  (h s (hs.congr hc.symm)).mono fun _ ht => ht.congr hc'

namespace Block

variable {n m : Nat} {s t : State} {c' : Content}

/-- The lines of a block see and change the part of its kind only, whatever region they come after. -/
theorem mirrors_lines (b : Block) (hs : Settles s c) (ht : Settles t d)
    (h : d.Carries b.kind c d) :
    Mirrors (State.Mirrored b.kind d) (readLines limits now n b.lines s).result
      (readLines limits now m b.lines t).result := by
  unfold lines
  rw [result_readLines_cons, result_readLines_cons, hs.heading b.isHeading, ht.heading b.isHeading]
  have hopen : Mirrors (State.Mirrored b.kind d)
      ((openRegion c n (trim b.heading)).map (State.inside c))
      ((openRegion d m (trim b.heading)).map (State.inside d)) := by
    refine (mirrors_openRegion h).map ?_
    rintro region _ ⟨rfl, hkind⟩
    exact ⟨hkind, h⟩
  exact hopen.bind fun s t hstate => mirrors_readLines b.plain hstate

theorem leads_graft (b : Block) (hs : Settles s c)
    (hread : (readLines limits now n b.lines s).result = .ok t) (ht : Settles t c')
    (h : d.Carries b.kind c d) : Leads limits now b.lines d (c'.graft b.kind d) := by
  rintro u ⟨e, hu, hgist⟩ m
  obtain ⟨v, hv, hstate⟩ := b.mirrors_lines (m := m) hs hu (h.congr hgist) t hread
  obtain ⟨e', he', hcarries⟩ := mirrors_finishContent (m := m) hstate c' (ht n)
  exact ⟨v, hv, e', settles_of_finishContent he',
    hcarries.trans (Content.gist_graft_congr b.kind rfl hgist)⟩

theorem carries_of_result (b : Block) (hs : Settles s c)
    (hread : (readLines limits now n b.lines s).result = .ok t) (ht : Settles t c') :
    c.Carries b.kind c' c' := by
  -- the run is compared with itself
  obtain ⟨t', ht', hstate⟩ := b.mirrors_lines (m := n) hs hs
    (Content.carries_of_gist_eq b.kind rfl) t hread
  obtain rfl : t = t' := Except.ok.inj (hread.symm.trans ht')
  obtain ⟨e, he, hcarries⟩ := mirrors_finishContent (m := n) hstate c' (ht n)
  obtain rfl : c' = e := Except.ok.inj ((ht n).symm.trans he)
  exact hcarries

theorem leads_of_result (b : Block) (hs : Settles s c)
    (hread : (readLines limits now n b.lines s).result = .ok t) (ht : Settles t c') :
    Leads limits now b.lines c c' :=
  (b.leads_graft hs hread ht (Content.carries_of_gist_eq b.kind rfl)).congr rfl
    (b.carries_of_result hs hread ht).symm

theorem carries_of_leads (b : Block) (h : Leads limits now b.lines c c') :
    c.Carries b.kind c' c' := by
  obtain ⟨t, hread, e, ht, hgist⟩ := h _ (endsLike_body c) 1
  have hcarries := b.carries_of_result (fun _ => rfl) hread ht
  exact hgist.symm.trans (hcarries.trans (Content.gist_graft_congr b.kind hgist rfl))

theorem leads_graft_of_leads (b : Block) (h : Leads limits now b.lines c c')
    (hd : d.Carries b.kind c d) : Leads limits now b.lines d (c'.graft b.kind d) := by
  obtain ⟨t, hread, e, ht, hgist⟩ := h _ (endsLike_body c) 1
  exact (b.leads_graft (fun _ => rfl) hread ht hd).congr rfl
    (Content.gist_graft_congr b.kind hgist rfl)

end Block

/-- Neighbours of different kinds can be read in either order. -/
theorem exists_leads_exchange {a b : Block} (hkind : a.kind ≠ b.kind) {c₁ c₂ : Content}
    (ha : Leads limits now a.lines c c₁) (hb : Leads limits now b.lines c₁ c₂) :
    ∃ d, Leads limits now b.lines c d ∧ Leads limits now a.lines d c₂ := by
  have ha₁ : c₁.gist = (c₁.graft a.kind c).gist := a.carries_of_leads ha
  have hb₂ : c₂.gist = (c₂.graft b.kind c₁).gist := b.carries_of_leads hb
  -- `b` does not see what `a` has changed
  have hbefore : c.Carries b.kind c₁ c :=
    calc c.gist = (c.graft b.kind c).gist := by rw [Content.graft_self]
      _ = ((c₁.graft a.kind c).graft b.kind c).gist := by rw [(Content.graft_of_ne hkind c₁ c c).2]
      _ = (c₁.graft b.kind c).gist := Content.gist_graft_congr b.kind ha₁.symm rfl
  -- nor does `a` see what `b` changes
  have hbetween : Content.Carries a.kind (c₂.graft b.kind c) c (c₂.graft b.kind c) := by
    show (c₂.graft b.kind c).gist = (c.graft a.kind (c₂.graft b.kind c)).gist
    rw [(Content.graft_of_ne hkind c c₂ c).1, Content.graft_self]
  -- and both changes together are what they were
  have hafter : (c₁.graft a.kind (c₂.graft b.kind c)).gist = c₂.gist :=
    calc (c₁.graft a.kind (c₂.graft b.kind c)).gist
      _ = (c₂.graft b.kind (c₁.graft a.kind c)).gist := by rw [(Content.graft_of_ne hkind c₁ c₂ c).1]
      _ = (c₂.graft b.kind c₁).gist := Content.gist_graft_congr b.kind rfl ha₁.symm
      _ = c₂.gist := hb₂.symm
  exact ⟨c₂.graft b.kind c, b.leads_graft_of_leads hb hbefore,
    (a.leads_graft_of_leads ha hbetween).congr rfl hafter⟩

/-! ### Lines that say nothing -/

section Idle

variable {region : Region}

theorem readLine_eq_ok_iff_idle (hregion : region = .body ∨ region = .skipped) {line : Nat}
    {full : List Char} (hplain : Line.isHeading (trim full) = false) {t : State} :
    readLine limits now line full (.inside c region) = .ok t ↔
      Line.isRow (trim full) = false ∧ t = .inside c region := by
  cases hrow : Line.isRow (trim full) with
  | true =>
    have hrefused : consume limits now line full (.inside c region) =
        .error (problemAt .strayTable line (some (full.length - (trimLeft full).length + 1))) := by
      rcases hregion with rfl | rfl <;>
        simp only [consume, readContent, hplain, readPlain, hrow, Bool.false_eq_true, if_false, if_true]
    rw [readLine_of_error hrefused]
    simp
  | false =>
    have hpassed : consume limits now line full (.inside c region) =
        .ok (.done (.inside c region)) := by
      rcases hregion with rfl | rfl <;>
        simp only [consume, readContent, hplain, readPlain, hrow, Bool.false_eq_true, if_false]
    rw [readLine_of_done hpassed, Except.ok.injEq, eq_comm]
    simp

theorem readLines_eq_ok_iff_idle (hregion : region = .body ∨ region = .skipped)
    (hplain : ∀ full ∈ lines, Line.isHeading (trim full) = false) {n : Nat} {t : State} :
    (readLines limits now n lines (.inside c region)).result = .ok t ↔
      (∀ full ∈ lines, Line.isRow (trim full) = false) ∧ t = .inside c region := by
  induction lines generalizing n with
  | nil =>
    show Except.ok (State.inside c region) = Except.ok t ↔ _
    rw [Except.ok.injEq, eq_comm]
    simp
  | cons full rest ih =>
    obtain ⟨hfull, hrest⟩ := List.forall_mem_cons.mp hplain
    rw [readLines_cons_eq_ok_iff, List.forall_mem_cons, and_assoc]
    constructor
    · rintro ⟨u, hu, ht⟩
      obtain ⟨hrow, rfl⟩ := (readLine_eq_ok_iff_idle hregion hfull).mp hu
      exact ⟨hrow, (ih hrest).mp ht⟩
    · rintro ⟨hrow, ht⟩
      exact ⟨_, (readLine_eq_ok_iff_idle hregion hfull).mpr ⟨hrow, rfl⟩, (ih hrest).mpr ht⟩

end Idle

theorem openRegion_unknown {n : Nat} {cs : List Char} (h : BlockKind.of cs = .unknown) :
    openRegion c n cs = .ok .skipped := by
  unfold BlockKind.of at h
  unfold openRegion
  cases hheading : Line.layerHeading? cs with
  | some heading =>
    rw [hheading] at h
    cases h
  | none =>
    rw [hheading] at h
    cases hsection : Line.section? cs with
    | none => rfl
    | some sec =>
      rw [hsection] at h
      cases h

/-- A block of unknown kind leads nowhere, and can be read wherever it does not look like a table. -/
theorem Block.leads_self (b : Block) (hkind : b.kind = .unknown)
    (hrows : ∀ full ∈ b.lines, Line.isRow (trim full) = false) (c : Content) :
    Leads limits now b.lines c c := by
  rintro s ⟨d, hs, hgist⟩ n
  have hrest : (readLines limits now (n + 1) b.rest (.inside d .skipped)).result =
      .ok (.inside d .skipped) :=
    (readLines_eq_ok_iff_idle (.inr rfl) b.plain).mpr ⟨(List.forall_mem_cons.mp hrows).2, rfl⟩
  refine ⟨.inside d .skipped, ?_, d, fun _ => rfl, hgist⟩
  unfold Block.lines
  rw [result_readLines_cons, hs.heading b.isHeading, openRegion_unknown hkind]
  exact hrest

/-! ### Runs of blocks -/

variable (limits now) in
/-- Blocks that lead from one content to another, one after the other. -/
inductive Chain : List Block → Content → Content → Prop where
  | nil {c c' : Content} (h : c.gist = c'.gist) : Chain [] c c'
  | cons {b : Block} {bs : List Block} {c c₁ c' : Content} (h : Leads limits now b.lines c c₁)
      (hrest : Chain bs c₁ c') : Chain (b :: bs) c c'

namespace Chain

variable {bs : List Block} {c' : Content}

theorem congr (h : Chain limits now bs c c') (hgist : c.gist = d.gist) : Chain limits now bs d c' := by
  cases h with
  | nil h => exact .nil (hgist.symm.trans h)
  | cons h hrest => exact .cons (h.congr hgist rfl) hrest

theorem leads (h : Chain limits now bs c c') :
    Leads limits now (bs.flatMap Block.lines) c c' := by
  induction h with
  | nil h => exact fun s hs => Reads.nil (hs.congr h)
  | cons h hrest ih =>
    intro s hs
    rw [List.flatMap_cons]
    exact (h s hs).append ih

theorem replace_tail {before tail tail' : List Block}
    (htail : ∀ c, Chain limits now tail c c' → Chain limits now tail' c c')
    (h : Chain limits now (before ++ tail) c c') : Chain limits now (before ++ tail') c c' := by
  induction before generalizing c with
  | nil => exact htail c h
  | cons b before ih =>
    cases h with
    | cons h hrest => exact .cons h (ih hrest)

/-- Blocks that are moved about lead to where they led before. -/
theorem rearranged {bs' : List Block} (hbs : Rearranged bs bs') (h : Chain limits now bs c c') :
    Chain limits now bs' c c' := by
  cases hbs with
  | exchange before after hkind =>
    refine h.replace_tail fun c hab => ?_
    cases hab with
    | cons ha hb =>
      cases hb with
      | cons hb hafter =>
        obtain ⟨d, hb', ha'⟩ := exists_leads_exchange hkind ha hb
        exact .cons hb' (.cons ha' hafter)
  | leaveOut before after hkind =>
    refine h.replace_tail fun c hb => ?_
    cases hb with
    | cons hb hafter =>
      have hsame := Block.carries_of_leads _ hb
      rw [hkind] at hsame
      exact hafter.congr hsame
  | @putIn before after b hkind hrows =>
    exact h.replace_tail fun c hafter => .cons (b.leads_self hkind hrows c) hafter

end Chain

theorem exists_settles_of_blocks {bs : List Block} {n : Nat} {inner c' : Content} {region : Region}
    {u : State}
    (h : (readLines limits now n (bs.flatMap Block.lines) (.inside inner region)).result = .ok u)
    (hu : Settles u c') : ∃ c, Settles (.inside inner region) c := by
  cases bs with
  | nil =>
    cases h
    exact ⟨c', hu⟩
  | cons b bs =>
    obtain ⟨t, ht, -⟩ := readLines_cons_eq_ok_iff.mp h
    rw [readLine_heading b.isHeading] at ht
    obtain ⟨c, hc, -⟩ := bind_eq_ok_iff.mp ht
    exact ⟨c, settles_of_finishContent hc⟩

theorem chain_of_result {bs : List Block} {n : Nat} {s u : State} {c' : Content} (hs : Settles s c)
    (h : (readLines limits now n (bs.flatMap Block.lines) s).result = .ok u) (hu : Settles u c') :
    Chain limits now bs c c' := by
  induction bs generalizing n s c with
  | nil =>
    cases h
    obtain rfl : c = c' := Except.ok.inj ((hs 1).symm.trans (hu 1))
    exact .nil rfl
  | cons b bs ih =>
    obtain ⟨t, hread, h⟩ := readLines_append_eq_ok_iff.mp h
    -- the lines of the block do not lead back before the frontmatter
    obtain ⟨_, -, hinside⟩ := b.mirrors_lines (m := n) hs hs
      (Content.carries_of_gist_eq b.kind rfl) t hread
    cases hinside with
    | mk =>
      obtain ⟨c₁, ht⟩ := exists_settles_of_blocks h hu
      exact .cons (b.leads_of_result hs hread ht) (ih ht h)

/-! ### Documents -/

/-- A document that is read is read in its three parts. The preamble says nothing, so the blocks start
from the frontmatter alone. -/
theorem exists_read_blocks {document : String} {l : Layout} {o : Outline}
    (hlines : splitLinesFrom [] document.toList = lines)
    (ho : outline (lines.drop (headLength lines)) = o)
    (h : (parse limits now document).result = .ok l) :
    ∃ metadata n u c, (readLines limits now 1 (lines.take (headLength lines)) .start).result =
        .ok (.inside { metadata } .body) ∧
      (∀ m, (readLines limits now m o.preamble (.inside { metadata } .body)).result =
        .ok (.inside { metadata } .body)) ∧
      (readLines limits now n (o.blocks.flatMap Block.lines) (.inside { metadata } .body)).result =
        .ok u ∧ Settles u c ∧ c.Gives l := by
  obtain ⟨u, c, hread, hu, hgives⟩ := parse_eq_ok_iff.mp h
  obtain ⟨inner, region, rfl⟩ := hu.exists_inside
  have hone : ∀ full ∈ lines, OneLine full := fun full hfull => by
    rw [← hlines] at hfull
    exact oneLine_of_mem_splitLinesFrom oneLine_nil hfull
  rw [hlines] at hread
  obtain ⟨metadata, hhead⟩ := exists_read_head hone hread
  rw [← List.take_append_drop (headLength lines) lines, ← lines_outline (lines.drop _), ho,
    Outline.lines] at hread
  obtain ⟨s, hs, hread⟩ := readLines_append_eq_ok_iff.mp hread
  rw [hhead] at hs
  cases hs
  obtain ⟨t, hpreamble, hread⟩ := readLines_append_eq_ok_iff.mp hread
  obtain ⟨hrows, rfl⟩ := (readLines_eq_ok_iff_idle (.inl rfl) o.plain).mp hpreamble
  exact ⟨metadata, _, _, c, hhead,
    fun _ => (readLines_eq_ok_iff_idle (.inl rfl) o.plain).mpr ⟨hrows, rfl⟩, hread, hu, hgives⟩

/-- The order of sections does not matter, and unknown sections say nothing. A document that can be
read is cut at its headings after the frontmatter. If its blocks are moved about, a document with the
lines that this gives is read as the same layout. -/
theorem parse_rearranged {document rearranged : String} {l : Layout} {lines : List (List Char)}
    {o : Outline} {blocks : List Block} (hlines : splitLinesFrom [] document.toList = lines)
    (ho : outline (lines.drop (headLength lines)) = o)
    (hparse : (parse limits now document).result = .ok l) (hblocks : Rearranged o.blocks blocks)
    (hrearranged : splitLinesFrom [] rearranged.toList =
      lines.take (headLength lines) ++ (o.preamble ++ blocks.flatMap Block.lines)) :
    (parse limits now rearranged).result = .ok l := by
  obtain ⟨metadata, n, u, c', hhead, hpreamble, hread, hu, hgives⟩ :=
    exists_read_blocks hlines ho hparse
  have hchain := (chain_of_result (fun _ => rfl) hread hu).rearranged hblocks
  obtain ⟨v, hv, d, hd, hgist⟩ := hchain.leads _ (endsLike_body _)
    (1 + (lines.take (headLength lines)).length + o.preamble.length)
  refine parse_eq_ok_iff.mpr ⟨v, d, ?_, hd, ?_⟩
  · rw [hrearranged]
    refine readLines_append_eq_ok_iff.mpr ⟨_, hhead, ?_⟩
    exact readLines_append_eq_ok_iff.mpr ⟨_, hpreamble _, hv⟩
  · rw [← Content.gives_gist, hgist, Content.gives_gist]
    exact hgives

theorem splitLinesFrom_ofList_terminated (h : ∀ l ∈ lines, OneLine l) :
    splitLinesFrom [] (String.ofList (terminated lines)).toList = lines := by
  rw [String.toList_ofList, splitLinesFrom_terminated_self h]

/-- A layer whose only key is of a category. -/
def modsLayer : Block where
  heading := "## Layer 0: Base".toList
  rest := ["| C0 |".toList, "|---|".toList, "| KC_A@mods |".toList]
  isHeading := by decide
  plain := by decide

def modsCategories : Block where
  heading := "## Categories".toList
  rest := ["- mods: Modifiers (#00FF00)".toList]
  isHeading := by decide
  plain := by decide

/-- The category comes after the key that is of it. -/
def modsOutline : Outline where
  preamble := ["# Demo".toList]
  blocks := [modsLayer, modsCategories]
  plain := by decide

/-- The lines of a document with the blocks after its head. -/
def modsLines (blocks : List Block) : List (List Char) :=
  ["---".toList, "name: Demo".toList, "---".toList] ++
    (modsOutline.preamble ++ blocks.flatMap Block.lines)

def modsDocument (blocks : List Block) : String := String.ofList (terminated (modsLines blocks))

theorem parse_rearranged_modsDocument :
    ∃ l, (parse {} { date := ⟨2024, 1, 2⟩ } (modsDocument [modsLayer, modsCategories])).result = .ok l ∧
      (parse {} { date := ⟨2024, 1, 2⟩ } (modsDocument [modsCategories, modsLayer])).result = .ok l := by
  have hread : (parse {} { date := ⟨2024, 1, 2⟩ }
      (modsDocument [modsLayer, modsCategories])).result.toOption.isSome = true := by decide +kernel
  have hhead : headLength (modsLines [modsLayer, modsCategories]) = 3 := by decide +kernel
  have hkind : modsLayer.kind ≠ modsCategories.kind := by decide +kernel
  cases hparse : (parse {} { date := ⟨2024, 1, 2⟩ }
      (modsDocument [modsLayer, modsCategories])).result with
  | error e =>
    rw [hparse] at hread
    cases hread
  | ok l =>
    refine ⟨l, rfl, @parse_rearranged _ _ _ _ _ _ modsOutline [modsCategories, modsLayer]
      (splitLinesFrom_ofList_terminated ?_) ?_ hparse (.exchange [] [] hkind) ?_⟩
    · decide +kernel
    · rw [hhead]
      exact outline_lines modsOutline
    · rw [hhead]
      exact splitLinesFrom_ofList_terminated (by decide +kernel)

end Keyforge.Document
