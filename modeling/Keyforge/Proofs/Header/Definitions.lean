import Keyforge.Proofs.Header.Merge
import Keyforge.Proofs.Layout.Name

/-!
# What a merged header defines

The definitions of a merged header are those of the lines that were taken over, and then the
declared ones that these do not make (`definitions_mergedLines`). So a name is defined as often as
before, or once if it is only declared (`count_definitions`).
-/

namespace Keyforge.Header

open Keyforge.Text

/-- The names that lines define and their values, one for each line that makes a definition. -/
def definitions (lines : List String) : List (String × String) := lines.filterMap define?

/-- A name that can be defined: word characters, at least one. -/
def IsDefinable (name : String) : Prop := name ≠ "" ∧ ∀ c ∈ name.toList, isWord c = true

instance (name : String) : Decidable (IsDefinable name) :=
  @instDecidableAnd _ _ _ (List.decidableBAll (isWord · = true) name.toList)

/-! ### Word characters -/

/-- The white space outside of ASCII. -/
def wideBlanks : List Nat :=
  [0x85, 0xa0, 0x1680, 0x2000, 0x2001, 0x2002, 0x2003, 0x2004, 0x2005, 0x2006, 0x2007, 0x2008,
    0x2009, 0x200a, 0x2028, 0x2029, 0x202f, 0x205f, 0x3000]

theorem isBlank_eq_false_of_isWord {c : Char} (h : isWord c = true) : isBlank c = false := by
  have hwide : ∀ n ∈ wideBlanks, wordRanges.contains n = false := by decide +kernel
  cases hc : isBlank c with
  | false => rfl
  | true =>
    simp only [isBlank, Bool.or_eq_true, Bool.and_eq_true, decide_eq_true_eq, beq_iff_eq] at hc
    unfold isWord at h
    split at h
    next hascii =>
      rw [Bool.or_eq_true, beq_iff_eq] at h
      rcases h with h | rfl
      · have hbounds := Name.bounds_of_isAlphanum h
        omega
      · exact absurd hc (by decide)
    next hascii =>
      have hmem : c.toNat ∈ wideBlanks := by
        simp only [wideBlanks, List.mem_cons, List.not_mem_nil, or_false]
        omega
      rw [hwide _ hmem] at h
      cases h

/-! ### Generated lines -/

theorem toList_defineLine {name : String} (hname : IsDefinable name) (value : String) :
    (defineLine name value).toList =
      '#' :: ("define".toList ++ ' ' :: (name.toList ++ trimRight (' ' :: value.toList))) := by
  have hne : name.toList ≠ [] := by simpa using hname.1
  have hlast : NotBlank ("#define ".toList ++ name.toList).getLast? := by
    intro c hc
    rw [List.getLast?_append_of_ne_nil _ hne] at hc
    exact isBlank_eq_false_of_isWord (hname.2 c (List.mem_of_getLast? hc))
  have htext : ("#define " ++ name ++ " " ++ value).toList =
      ("#define ".toList ++ name.toList) ++ (' ' :: value.toList) := by
    simp only [String.toList_append, List.append_assoc]
    rfl
  rw [defineLine, stripRight, String.toList_ofList, htext, trimRight_append hlast]
  rfl

/-- A generated line defines the name it was generated for, with its value. -/
theorem define?_defineLine {name value : String} (hname : IsDefinable name)
    (hline : OneLine value.toList) : define? (defineLine name value) = some (name, strip value) := by
  have hne : name.toList ≠ [] := by simpa using hname.1
  have hvisible : ∀ c rest, (name.toList ++ rest).head? = some c → isBlank c = false := by
    intro c rest hc
    rw [List.head?_append_of_ne_nil _ hne] at hc
    exact isBlank_eq_false_of_isWord (hname.2 c (List.mem_of_head? hc))
  -- the name ends at the blank behind it, or at the end of the line
  have hstop : ∀ c, (trimRight (' ' :: value.toList)).head? = some c → isWord c = false := by
    intro c hc
    obtain ⟨tail, htail⟩ := trimRight_isPrefix (' ' :: value.toList)
    have hhead : (' ' :: value.toList).head? = some c := by
      rw [← htail, List.head?_append, hc]
      rfl
    cases hhead
    decide
  obtain ⟨htake, hdrop⟩ := takeWhile_append_stop hname.2 hstop
  have hsign : trimLeft (defineLine name value).toList = ['#'] ++ ("define".toList ++
      ' ' :: (name.toList ++ trimRight (' ' :: value.toList))) := by
    rw [toList_defineLine hname, trimLeft_eq_self (by rintro c ⟨⟩; decide)]
    rfl
  have hword : trimLeft ("define".toList ++ ' ' :: (name.toList ++ trimRight (' ' :: value.toList))) =
      "define".toList ++ ' ' :: (name.toList ++ trimRight (' ' :: value.toList)) :=
    trimLeft_eq_self (by rintro c ⟨⟩; decide)
  have hskip := skipBlanks1?_cons (b := ' ') (by decide) (hvisible · (trimRight (' ' :: value.toList)))
  have hvalue : trim (trimRight (' ' :: value.toList)) = trim value.toList := by
    rw [trim_trimRight, trim_blank_cons (by decide)]
  have hends : (trimRight (' ' :: value.toList)).contains '\n' = false := by
    rw [List.contains_eq_mem, decide_eq_false_iff_not]
    intro hmem
    rcases List.mem_cons.mp ((trimRight_isPrefix _).subset hmem) with heq | hmem
    · cases heq
    · exact absurd (hline _ hmem) (by decide)
  unfold define?
  simp only [hsign, after?_append, hword, hskip, htake, hdrop, hvalue, hends, Option.bind_eq_bind,
    Option.bind_some, Bool.or_false, List.isEmpty_iff, hne, if_false, Option.pure_def,
    String.ofList_toList, strip]

/-! ### Definitions of lines -/

theorem definitions_append (lines more : List String) :
    definitions (lines ++ more) = definitions lines ++ definitions more :=
  List.filterMap_append

theorem definitions_filter (lines : List String) :
    definitions (lines.filter fun line => (define? line).isSome) = definitions lines := by
  rw [definitions, definitions, List.filterMap_filter]
  congr 1
  funext line
  cases define? line <;> rfl

/-- What counts as defined are the definitions of the lines, of which later ones win. -/
theorem definesFrom_eq (defines : List (String × String)) (lines : List String) :
    definesFrom defines lines = Pairs.putAll defines (definitions lines) := by
  rw [Pairs.putAll, definitions, List.foldl_filterMap, definesFrom]
  congr 1
  funext defines line
  cases define? line <;> rfl

theorem has_definesFrom {name : String} (defines : List (String × String)) (lines : List String) :
    Pairs.has name (definesFrom defines lines) = true ↔
      name ∈ defines.map Prod.fst ∨ name ∈ (definitions lines).map Prod.fst := by
  rw [definesFrom_eq, Pairs.has_iff_mem]
  induction definitions lines generalizing defines with
  | nil => simp [Pairs.putAll]
  | cons d ds ih =>
    refine (ih (Pairs.put d.1 d.2 defines)).trans ?_
    rw [Pairs.mem_map_fst_put, List.map_cons, List.mem_cons]
    tauto

theorem definitions_newLines {present declarations : List (String × String)}
    (h : ∀ d ∈ declarations, IsDefinable d.1) (hvalues : ∀ d ∈ declarations, OneLine d.2.toList) :
    definitions (newLines present declarations) =
      (declarations.filter fun d => !Pairs.has d.1 present).map fun d => (d.1, strip d.2) := by
  rw [definitions, newLines, List.filterMap_map]
  refine List.filterMap_eq_map_iff_forall_eq_some.mpr fun d hd => ?_
  have hmem := List.mem_of_mem_filter hd
  exact define?_defineLine (h d hmem) (hvalues d hmem)

theorem definitions_blockLines (present declarations : List (String × String)) :
    definitions (blockLines present declarations) = definitions (newLines present declarations) := by
  unfold blockLines
  split
  next hnil => rw [List.isEmpty_iff.mp hnil]
  next =>
    have hfront : definitions ["", beginMarker] = [] := by decide
    have hback : definitions [endMarker] = [] := by decide
    rw [definitions_append, definitions_append, hfront, hback, List.nil_append, List.append_nil]

/-! ### The guard -/

theorem hasPragma_append {atStart : Bool} {cs tail : List Char} (h : hasPragma atStart cs = true)
    (htail : ∀ c, tail.head? = some c → isWord c = false) :
    hasPragma atStart (cs ++ tail) = true := by
  induction cs generalizing atStart with
  | nil => cases atStart <;> exact absurd h (by decide)
  | cons c cs ih =>
    rw [hasPragma, Bool.or_eq_true, Bool.and_eq_true] at h
    rw [List.cons_append, hasPragma, Bool.or_eq_true, Bool.and_eq_true]
    rcases h with ⟨hstart, hahead⟩ | hrest
    · exact .inl ⟨hstart, pragmaAhead_append hahead htail⟩
    · exact .inr (ih hrest)

theorem hasPragma_behind (atStart : Bool) (before : List Char) {cs : List Char}
    (h : hasPragma true cs = true) : hasPragma atStart (before ++ '\n' :: cs) = true := by
  induction before generalizing atStart with
  | nil => rw [List.nil_append, hasPragma, Bool.or_eq_true]; exact .inr h
  | cons c before ih => rw [List.cons_append, hasPragma, Bool.or_eq_true]; exact .inr (ih _)

/-! ### Merged headers -/

section Merged

variable (r : Rules) (base : String) (declarations : List (String × String))

theorem innerLines_suffix_bodyLines (kept : List String) :
    innerLines kept <:+ bodyLines kept := by
  unfold bodyLines
  split
  · exact List.suffix_rfl
  · split
    next hnil =>
      rw [List.isEmpty_iff.mp hnil]
      exact List.nil_suffix
    next => exact (List.suffix_cons _ _).trans (List.suffix_cons _ _)

theorem hasPragma_mergeText : hasPragma true (mergeText r base declarations).toList = true := by
  have hbody := hasPragma_bodyLines (taken r base).kept
  have hterminated : terminated ((bodyLines (taken r base).kept).map String.toList) =
      (joinLines (bodyLines (taken r base).kept)).toList ++ ['\n'] := by
    rw [toList_joinLines, intercalate_append_newline]
    simpa using (bodyLines_edges (taken r base).kept).1
  rw [toList_mergeText, mergedLines, List.map_append, List.map_append, terminated_append,
    terminated_append, hterminated, List.map_cons, List.map_singleton, terminated_cons,
    terminated_cons, terminated_nil]
  simp only [List.append_assoc, List.cons_append, List.nil_append]
  refine hasPragma_behind true _ (hasPragma_behind true [] (hasPragma_append hbody fun c hc => ?_))
  cases hc
  decide

theorem definitions_mergedLines (hnames : ∀ d ∈ declarations, IsDefinable d.1)
    (hvalues : ∀ d ∈ declarations, OneLine d.2.toList) :
    definitions (mergedLines r (taken r base) declarations) =
      definitions (taken r base).kept ++
        (declarations.filter fun d => d.1 ∉ (definitions (taken r base).kept).map Prod.fst).map
          fun d => (d.1, strip d.2) := by
  have hhead : definitions [r.bannerLine, ""] = [] := by
    have hbanner : define? r.bannerLine = none := by
      rw [define?, toList_bannerLine]
      rfl
    rw [definitions, List.filterMap_cons_none hbanner]
    rfl
  have hbody : definitions (bodyLines (taken r base).kept) = definitions (taken r base).kept := by
    rw [← definitions_filter, filter_bodyLines, definitions_filter]
  have hnew : (declarations.filter fun d => !Pairs.has d.1 (taken r base).defines) =
      declarations.filter fun d => d.1 ∉ (definitions (taken r base).kept).map Prod.fst := by
    refine List.filter_congr fun d _ => ?_
    rw [defines_taken, Bool.eq_iff_iff, Bool.not_eq_true', ← Bool.not_eq_true, has_definesFrom,
      decide_eq_true_iff]
    simp only [List.map_nil, List.not_mem_nil, false_or]
  rw [mergedLines, definitions_append, definitions_append, hhead, hbody, List.nil_append,
    definitions_blockLines, definitions_newLines hnames hvalues, hnew]

end Merged

/-- How often a name is defined: as often as before, or once if it is declared only. -/
theorem count_definitions {defined : List String} {declarations : List (String × String)}
    (h : (declarations.map Prod.fst).Nodup) (name : String) :
    (defined ++ (declarations.filter fun d => d.1 ∉ defined).map Prod.fst).count name =
      if name ∈ defined then defined.count name
      else if name ∈ declarations.map Prod.fst then 1 else 0 := by
  have hfilter : (declarations.filter fun d => d.1 ∉ defined).map Prod.fst =
      (declarations.map Prod.fst).filter fun n => n ∉ defined := by
    rw [List.filter_map]
    rfl
  rw [hfilter, List.count_append]
  split
  next hmem =>
    have hzero : ((declarations.map Prod.fst).filter fun n => n ∉ defined).count name = 0 :=
      List.count_eq_zero_of_not_mem (by simp [hmem])
    rw [hzero, Nat.add_zero]
  next hmem =>
    rw [List.count_eq_zero_of_not_mem hmem, Nat.zero_add, List.count_filter (by simpa using hmem),
      h.count]

/-- A merged header makes the definitions of the lines that are taken over, and then the declared
ones whose names these do not define. It is guarded against repeated inclusion. -/
theorem merge_defines_once {r : Rules} (hr : OneLine r.banner.toList) (base : String)
    {declarations : List (String × String)} (hdistinct : (declarations.map Prod.fst).Nodup)
    (hnames : ∀ d ∈ declarations, IsDefinable d.1)
    (hvalues : ∀ d ∈ declarations, OneLine d.2.toList) :
    let kept := (taken r base).kept
    let defined := (definitions kept).map Prod.fst
    let merged := (merge r base declarations).2
    definitions (splitLines merged) =
        definitions kept ++
          (declarations.filter fun d => d.1 ∉ defined).map (fun d => (d.1, strip d.2)) ∧
      (∀ name, ((definitions (splitLines merged)).map Prod.fst).count name =
        if name ∈ defined then defined.count name
        else if name ∈ declarations.map Prod.fst then 1 else 0) ∧
      innerLines kept <:+: splitLines merged ∧
      hasPragma true merged.toList = true := by
  intro kept defined merged
  have hlines : splitLines merged = mergedLines r (taken r base) declarations := by
    refine splitLines_mergeText hr fun d hd => ⟨fun c hc => ?_, hvalues d hd⟩
    exact isLineBreak_eq_false_of_isBlank (isBlank_eq_false_of_isWord ((hnames d hd).2 c hc))
  have hdefinitions := definitions_mergedLines r base declarations hnames hvalues
  rw [hlines]
  refine ⟨hdefinitions, fun name => ?_, ?_, hasPragma_mergeText r base declarations⟩
  · rw [hdefinitions, List.map_append, List.map_map]
    exact count_definitions hdistinct name
  · obtain ⟨front, hfront⟩ := innerLines_suffix_bodyLines kept
    refine ⟨[r.bannerLine, ""] ++ front, blockLines (taken r base).defines declarations, ?_⟩
    rw [mergedLines, ← hfront]
    simp only [List.append_assoc]

/-- A header that defines a name twice and has a deprecated definition that goes on in a second line:
the declared value of the name is left out, and the other declaration is made. -/
theorem merge_defines_once_doubledName :
    let r : Rules := { banner := " ", deprecatedNames := ["OLD"], deprecatedPatterns := [] }
    let base := "\n # define TERM 200\n#define OLD \\\n  1\n#define TERM\t180\n\n"
    let declarations := [("TERM", "175"), ("LAYERS", " 4 ")]
    (OneLine r.banner.toList ∧ (declarations.map Prod.fst).Nodup ∧
      (∀ d ∈ declarations, IsDefinable d.1) ∧ ∀ d ∈ declarations, OneLine d.2.toList) ∧
    definitions (splitLines (merge r base declarations).2) =
        [("TERM", "200"), ("TERM", "180"), ("LAYERS", "4")] ∧
      [" # define TERM 200", "#define TERM\t180"] <:+: splitLines (merge r base declarations).2 ∧
      hasPragma true (merge r base declarations).2.toList = true := by
  intro r base declarations
  have hr : OneLine r.banner.toList := by decide
  have hdistinct : (declarations.map Prod.fst).Nodup := by decide
  have hnames : ∀ d ∈ declarations, IsDefinable d.1 := by decide
  have hvalues : ∀ d ∈ declarations, OneLine d.2.toList := by decide
  obtain ⟨hdefinitions, -, hlines, hguard⟩ :=
    merge_defines_once hr base hdistinct hnames hvalues
  have hkept : (taken r base).kept = ["", " # define TERM 200", "#define TERM\t180", ""] := by decide
  rw [hkept] at hdefinitions hlines
  exact ⟨⟨hr, hdistinct, hnames, hvalues⟩, hdefinitions.trans (by decide), hlines, hguard⟩

end Keyforge.Header
