import Keyforge.Header.Merge
import Keyforge.Proofs.Text.Lines

/-!
# Merging ignores what an earlier run generated

A merged header is merged again as if the header it came from was merged: the banner and the
generated block are recognised and dropped (`stripGenerated_mergedLines`), and everything that was done
to the rest is done already (`taken_mergeText`).
-/

namespace Keyforge.Header

open Keyforge.Text

variable {lines : List String} {l : String} {present declarations : List (String × String)}

/-! ### Lines that no run generated -/

/-- A line that is neither the banner nor one of the markers. -/
structure Own (r : Rules) (line : String) : Prop where
  ne_begin : strip line ≠ beginMarker
  ne_end : strip line ≠ endMarker
  ne_banner : strip line ≠ r.bannerLine

theorem stripGenerated_own_append {r : Rules} (h : ∀ l ∈ lines, Own r l) (rest : List String) :
    stripGenerated r false (lines ++ rest) = lines ++ stripGenerated r false rest := by
  induction lines with
  | nil => rfl
  | cons line lines ih =>
    have hown := h line List.mem_cons_self
    rw [List.cons_append, stripGenerated, if_neg (by simpa using hown.ne_begin),
      if_neg (by simpa using hown.ne_end), if_neg (by simpa using hown.ne_banner),
      ih (List.forall_mem_cons.mp h).2]
    rfl

theorem own_of_mem_stripGenerated (r : Rules) (inBlock : Bool) (lines : List String) :
    (∀ l ∈ stripGenerated r inBlock lines, Own r l) ∧
      (stripGenerated r inBlock lines).Sublist lines := by
  fun_induction stripGenerated r inBlock lines with
  | case1 => exact ⟨List.forall_mem_nil _, .slnil⟩
  | case2 inBlock line rest stripped hbegin ih => exact ⟨ih.1, ih.2.cons line⟩
  | case3 inBlock line rest stripped hbegin hend ih => exact ⟨ih.1, ih.2.cons line⟩
  | case4 inBlock line rest stripped hbegin hend hdrop ih => exact ⟨ih.1, ih.2.cons line⟩
  | case5 inBlock line rest stripped hbegin hend hdrop ih =>
    have hown : Own r line := by
      refine ⟨by simpa using hbegin, by simpa using hend, fun hbanner => hdrop ?_⟩
      rw [Bool.or_eq_true, beq_iff_eq]
      exact .inr hbanner
    exact ⟨List.forall_mem_cons.mpr ⟨hown, ih.1⟩, ih.2.cons_cons line⟩

theorem stripGenerated_block {r : Rules} {block : List String}
    (h : ∀ l ∈ block, strip l ≠ beginMarker ∧ strip l ≠ endMarker) (rest : List String) :
    stripGenerated r true (block ++ endMarker :: rest) = stripGenerated r false rest := by
  induction block with
  | nil => rw [List.nil_append, stripGenerated, if_neg (by decide), if_pos (by decide)]
  | cons line block ih =>
    obtain ⟨hbegin, hend⟩ := h line List.mem_cons_self
    rw [List.cons_append, stripGenerated, if_neg (by simpa using hbegin),
      if_neg (by simpa using hend), if_pos (Bool.true_or _),
      ih (List.forall_mem_cons.mp h).2]

/-! ### Lines that filtering keeps -/

/-- The definitions of some lines, added to those before them. -/
def definesFrom (defines : List (String × String)) (lines : List String) :
    List (String × String) :=
  lines.foldl (fun acc line =>
    match define? line with
    | some (name, value) => Pairs.put name value acc
    | none => acc) defines

theorem kept_filterFrom (r : Rules) (dropping : Bool) (f : Filtered) (lines : List String) :
    ∃ new, (filterFrom r dropping f lines).kept = f.kept ++ new ∧
      (filterFrom r dropping f lines).defines = definesFrom f.defines new ∧
      (∀ l ∈ new, deprecated? r l = none) ∧ new.Sublist lines := by
  fun_induction filterFrom r dropping f lines with
  | case1 dropping f => exact ⟨[], by simp, rfl, by simp, .slnil⟩
  | case2 f line rest ih =>
    obtain ⟨new, hkept, hdefines, hnew, hsub⟩ := ih
    exact ⟨new, hkept, hdefines, hnew, hsub.cons line⟩
  | case3 f line rest name hdep ih =>
    obtain ⟨new, hkept, hdefines, hnew, hsub⟩ := ih
    exact ⟨new, hkept, hdefines, hnew, hsub.cons line⟩
  | case4 f line rest hdep ih =>
    obtain ⟨new, hkept, hdefines, hnew, hsub⟩ := ih
    exact ⟨line :: new, hkept.trans (by simp [Filtered.keep]), hdefines,
      List.forall_mem_cons.mpr ⟨hdep, hnew⟩, hsub.cons_cons line⟩

theorem filterFrom_eq_of_none {r : Rules} (h : ∀ l ∈ lines, deprecated? r l = none) (f : Filtered) :
    (filterFrom r false f lines).kept = f.kept ++ lines ∧
      (filterFrom r false f lines).defines = definesFrom f.defines lines := by
  induction lines generalizing f with
  | nil => exact ⟨by simp [filterFrom], rfl⟩
  | cons line rest ih =>
    have hstep : filterFrom r false f (line :: rest) = filterFrom r false (f.keep line) rest := by
      rw [filterFrom, h line List.mem_cons_self]
    obtain ⟨hkept, hdefines⟩ := ih (List.forall_mem_cons.mp h).2 (f.keep line)
    rw [hstep, hkept, hdefines]
    exact ⟨by simp [Filtered.keep], rfl⟩

theorem definesFrom_filter (defines : List (String × String)) (lines : List String) :
    definesFrom defines lines =
      definesFrom defines (lines.filter fun line => (define? line).isSome) := by
  rw [definesFrom, definesFrom, List.foldl_filter]
  congr 1
  funext defines line
  cases define? line <;> rfl

/-! ### The body of a merged header -/

def isEmptyLine (line : String) : Bool := line.toList.isEmpty

def innerLines (lines : List String) : List String :=
  (lines.dropWhile isEmptyLine).rdropWhile isEmptyLine

theorem dropWhile_intercalate {ls : List (List Char)} (h : ∀ l ∈ ls, l.head? ≠ some '\n') :
    (['\n'].intercalate ls).dropWhile (· == '\n') =
      ['\n'].intercalate (ls.dropWhile List.isEmpty) := by
  induction ls with
  | nil => rfl
  | cons l ls ih =>
    have ih := ih (List.forall_mem_cons.mp h).2
    cases l with
    | nil =>
      rw [List.dropWhile_cons_of_pos rfl]
      cases ls with
      | nil => rfl
      | cons m ls =>
        rw [List.intercalate_cons_cons, List.nil_append, List.singleton_append,
          List.dropWhile_cons_of_pos (by decide), ih]
    | cons c cs =>
      have hc : c ≠ '\n' := fun hc => h (c :: cs) List.mem_cons_self (by rw [hc]; rfl)
      rw [List.dropWhile_cons_of_neg (by simp), List.intercalate_cons_cons_left,
        List.dropWhile_cons_of_neg (by simpa using hc)]

theorem map_toList_innerLines (lines : List String) :
    (innerLines lines).map String.toList =
      ((lines.map String.toList).dropWhile List.isEmpty).rdropWhile List.isEmpty := by
  rw [innerLines, List.rdropWhile, List.rdropWhile, List.dropWhile_map, ← List.map_reverse,
    List.dropWhile_map, List.map_reverse]
  rfl

/-- A text without line feeds around it is that of the inner lines. -/
theorem trimNewlines_joinLines (h : ∀ l ∈ lines, OneLine l.toList) :
    trimNewlines (joinLines lines).toList = (joinLines (innerLines lines)).toList := by
  have hfeed : ∀ l ∈ lines.map String.toList, '\n' ∉ l :=
    List.forall_mem_map.mpr fun l hl => (h l hl).newline_notMem
  rw [trimNewlines, dropWhileEnd_eq_rdropWhile, toList_joinLines, toList_joinLines,
    map_toList_innerLines, dropWhile_intercalate, rdropWhile_intercalate]
  · intro l hl hlast
    exact hfeed l ((List.dropWhile_sublist _).subset hl) (List.mem_of_getLast? hlast)
  · intro l hl hhead
    exact hfeed l hl (List.mem_of_head? hhead)

theorem innerLines_pad {pad : List String} (hne : lines ≠ [])
    (hhead : ∀ l, lines.head? = some l → isEmptyLine l = false)
    (hlast : ∀ l, lines.getLast? = some l → isEmptyLine l = false)
    (hpad : ∀ l ∈ pad, isEmptyLine l = true) : innerLines ("" :: lines ++ pad) = lines := by
  have hfront : ("" :: lines ++ pad).dropWhile isEmptyLine = lines ++ pad := by
    obtain ⟨l, ls, rfl⟩ := List.exists_cons_of_ne_nil hne
    rw [List.cons_append, List.dropWhile_cons_of_pos rfl, List.cons_append,
      List.dropWhile_cons_of_neg (by simp [hhead l rfl])]
  have hback : (lines ++ pad).rdropWhile isEmptyLine = lines := by
    rw [List.rdropWhile, List.reverse_append, List.dropWhile_append_of_pos
      (fun l hl => hpad l (List.mem_reverse.mp hl))]
    exact List.rdropWhile_eq_self_iff.mpr fun hne' => by
      simp [hlast _ (List.getLast?_eq_some_getLast hne')]
  rw [innerLines, hfront, hback]

theorem innerLines_head (h : (innerLines lines).head? = some l) : isEmptyLine l = false :=
  head?_dropWhile_rdropWhile lines h

theorem innerLines_last (h : (innerLines lines).getLast? = some l) : isEmptyLine l = false :=
  getLast?_rdropWhile _ h

theorem exists_append_innerLines (lines : List String) :
    ∃ front back, (∀ l ∈ front, isEmptyLine l = true) ∧ (∀ l ∈ back, isEmptyLine l = true) ∧
      lines = front ++ innerLines lines ++ back := by
  refine ⟨lines.takeWhile isEmptyLine, (lines.dropWhile isEmptyLine).rtakeWhile isEmptyLine,
    fun _ => List.mem_takeWhile_imp, fun _ => List.mem_rtakeWhile_imp, ?_⟩
  rw [innerLines, List.append_assoc, List.rdropWhile_append_rtakeWhile,
    List.takeWhile_append_dropWhile]

theorem innerLines_sublist (lines : List String) : (innerLines lines).Sublist lines :=
  (List.rdropWhile_prefix isEmptyLine _).sublist.trans (List.dropWhile_sublist _)

/-- The lines of the body: the inner lines, after a guard if they have none. -/
def bodyLines (kept : List String) : List String :=
  if hasPragma true (joinLines (innerLines kept)).toList then innerLines kept
  else "#pragma once" :: if (innerLines kept).isEmpty then [] else "" :: innerLines kept

theorem bodyText_eq_joinLines {kept : List String} (h : ∀ l ∈ kept, OneLine l.toList) :
    bodyText kept = joinLines (bodyLines kept) := by
  rw [bodyText, bodyLines, trimNewlines_joinLines h]
  split
  · exact String.ofList_toList
  · cases hinner : innerLines kept with
    | nil => rfl
    | cons l ls =>
      have hne : (joinLines (l :: ls)).toList ≠ [] := by
        have hl : isEmptyLine l = false := innerLines_head (by rw [hinner]; rfl)
        rw [toList_joinLines, List.map_cons]
        cases ls <;> simp_all [isEmptyLine]
      rw [if_neg (by simpa using hne), if_neg (by simp), String.ofList_toList]
      rw [joinLines, joinLines, String.intercalate_cons_cons, String.intercalate_cons_cons,
        String.append_assoc, String.append_assoc, String.empty_append, ← String.append_assoc,
        ← String.append_assoc]
      rfl

/-! ### The guard -/

theorem pragmaAhead_append {cs tail : List Char} (h : pragmaAhead cs = true)
    (htail : ∀ c, tail.head? = some c → isWord c = false) : pragmaAhead (cs ++ tail) = true := by
  unfold pragmaAhead at h
  dsimp only at h
  split at h
  · cases h
  next last hlast =>
    obtain ⟨sign, hsign, hlast⟩ := Option.bind_eq_some_iff.mp hlast
    obtain ⟨pragma, hpragma, hlast⟩ := Option.bind_eq_some_iff.mp hlast
    obtain ⟨once, honce, hlast⟩ := Option.bind_eq_some_iff.mp hlast
    have hsign' := eq_append_of_after? hsign
    have hpragma' := eq_append_of_after? hpragma
    have hlast' := eq_append_of_after? hlast
    have hend : (!(last ++ tail).head?.any isWord) = true := by
      cases last with
      | nil =>
        cases hc : tail.head? with
        | none => simp [hc]
        | some c => simp [hc, htail c hc]
      | cons c last => exact h
    unfold pragmaAhead
    rw [trimLeft_append_of_ne_nil (by rw [hsign']; simp), hsign']
    simp only [List.append_assoc, after?_append, Option.bind_eq_bind, Option.bind_some]
    rw [trimLeft_append_of_ne_nil (by rw [hpragma']; simp), hpragma']
    simp only [List.append_assoc, after?_append, Option.bind_some]
    rw [skipBlanks1?_append_of_ne_nil honce (by rw [hlast']; simp), hlast']
    simp only [List.append_assoc, after?_append, Option.bind_some]
    exact hend

theorem hasPragma_of_pragmaAhead {cs : List Char} (h : pragmaAhead cs = true) :
    hasPragma true cs = true := by
  cases cs with
  | nil => rw [hasPragma, h, Bool.and_self]
  | cons c rest => rw [hasPragma, h, Bool.and_self, Bool.true_or]

theorem hasPragma_bodyLines (kept : List String) :
    hasPragma true (joinLines (bodyLines kept)).toList = true := by
  unfold bodyLines
  split
  next h => exact h
  next =>
    -- what follows the guard is nothing or a line feed
    obtain ⟨tail, htail, hjoin⟩ : ∃ tail : List Char,
        (∀ c, tail.head? = some c → isWord c = false) ∧
          (joinLines ("#pragma once" :: if (innerLines kept).isEmpty then []
            else "" :: innerLines kept)).toList = "#pragma once".toList ++ tail := by
      split
      · exact ⟨[], by simp, by rw [toList_joinLines]; simp⟩
      · refine ⟨'\n' :: (joinLines ("" :: innerLines kept)).toList, fun c hc => ?_, ?_⟩
        · cases hc
          decide
        · rw [toList_joinLines, toList_joinLines, List.map_cons, List.map_cons,
            List.intercalate_cons_cons]
          simp
    rw [hjoin]
    exact hasPragma_of_pragmaAhead (pragmaAhead_append (by decide) htail)

theorem bodyLines_edges (kept : List String) :
    bodyLines kept ≠ [] ∧ (∀ l, (bodyLines kept).head? = some l → isEmptyLine l = false) ∧
      ∀ l, (bodyLines kept).getLast? = some l → isEmptyLine l = false := by
  unfold bodyLines
  split
  next h =>
    refine ⟨fun hnil => ?_, fun l hl => innerLines_head hl, fun l hl => innerLines_last hl⟩
    rw [hnil] at h
    exact absurd h (by decide)
  next =>
    refine ⟨by simp, fun l hl => ?_, fun l hl => ?_⟩
    · cases hl
      decide
    · cases hinner : innerLines kept with
      | nil =>
        rw [hinner] at hl
        cases hl
        decide
      | cons k ks =>
        have hlast : (innerLines kept).getLast? = some l := by
          rw [hinner] at hl ⊢
          simpa using hl
        exact innerLines_last hlast

theorem mem_bodyLines {kept : List String} (h : l ∈ bodyLines kept) :
    l = "#pragma once" ∨ l = "" ∨ l ∈ kept := by
  have hsub := (innerLines_sublist kept).subset
  unfold bodyLines at h
  split at h
  · exact .inr (.inr (hsub h))
  · rcases List.mem_cons.mp h with h | h
    · exact .inl h
    · split at h
      · cases h
      · rcases List.mem_cons.mp h with h | h
        · exact .inr (.inl h)
        · exact .inr (.inr (hsub h))

theorem filter_of_isEmptyLine (h : ∀ l ∈ lines, isEmptyLine l = true) :
    lines.filter (fun l => (define? l).isSome) = [] := by
  refine List.filter_eq_nil_iff.mpr fun l hl => ?_
  have hnil : l = "" := String.toList_inj.mp (by simpa [isEmptyLine] using h l hl)
  rw [hnil]
  decide

theorem filter_innerLines (lines : List String) :
    (innerLines lines).filter (fun l => (define? l).isSome) =
      lines.filter fun l => (define? l).isSome := by
  obtain ⟨front, back, hfront, hback, hlines⟩ := exists_append_innerLines lines
  conv_rhs => rw [hlines]
  rw [List.filter_append, List.filter_append, filter_of_isEmptyLine hfront,
    filter_of_isEmptyLine hback, List.nil_append, List.append_nil]

theorem filter_bodyLines (kept : List String) :
    (bodyLines kept).filter (fun l => (define? l).isSome) =
      kept.filter fun l => (define? l).isSome := by
  rw [← filter_innerLines kept]
  unfold bodyLines
  split
  · rfl
  · rw [List.filter_cons_of_neg (by decide)]
    split
    next h => rw [List.isEmpty_iff.mp h]
    next => rw [List.filter_cons_of_neg (by decide)]

/-! ### The lines of a merged header -/

def blockLines (present declarations : List (String × String)) : List String :=
  if (newLines present declarations).isEmpty then []
  else ["", beginMarker] ++ newLines present declarations ++ [endMarker]

def mergedLines (r : Rules) (f : Filtered) (declarations : List (String × String)) : List String :=
  [r.bannerLine, ""] ++ bodyLines f.kept ++ blockLines f.defines declarations

theorem oneLine_of_mem_taken {r : Rules} {base : String} (h : l ∈ (taken r base).kept) :
    OneLine l.toList ∧ Own r l ∧ deprecated? r l = none := by
  obtain ⟨new, hkept, -, hnew, hsub⟩ :=
    kept_filterFrom r false {} (stripGenerated r false (splitLines base))
  have hl : l ∈ new := by
    have hmem : l ∈ [] ++ new := hkept ▸ h
    exact hmem
  obtain ⟨hown, hlines⟩ := own_of_mem_stripGenerated r false (splitLines base)
  obtain ⟨cs, hcs, rfl⟩ := List.mem_map.mp (hlines.subset (hsub.subset hl))
  refine ⟨?_, hown _ (hsub.subset hl), hnew _ hl⟩
  rw [String.toList_ofList]
  exact oneLine_of_mem_splitLinesFrom oneLine_nil hcs

theorem defines_taken (r : Rules) (base : String) :
    (taken r base).defines = definesFrom [] (taken r base).kept := by
  obtain ⟨new, hkept, hdefines, -⟩ :=
    kept_filterFrom r false {} (stripGenerated r false (splitLines base))
  exact hdefines.trans (congrArg _ hkept).symm

theorem toList_mergeText (r : Rules) (base : String) (declarations : List (String × String)) :
    (mergeText r base declarations).toList =
      terminated ((mergedLines r (taken r base) declarations).map String.toList) := by
  have hbody : ['\n'].intercalate ((bodyLines (taken r base).kept).map String.toList) ++ ['\n'] =
      terminated ((bodyLines (taken r base).kept).map String.toList) :=
    intercalate_append_newline (by simpa using (bodyLines_edges (taken r base).kept).1)
  have htail : (if (newLines (taken r base).defines declarations).isEmpty then []
      else ["", beginMarker] ++ newLines (taken r base).defines declarations ++ [endMarker]) =
      blockLines (taken r base).defines declarations := rfl
  rw [mergeText, htail, String.toList_append, toList_joinLines,
    bodyText_eq_joinLines fun l hl => (oneLine_of_mem_taken hl).1]
  rw [show ("\n" : String).toList = ['\n'] from rfl, intercalate_append_newline (by simp),
    List.map_append, terminated_append, mergedLines, List.map_append, List.map_append,
    terminated_append, terminated_append, ← hbody, ← toList_joinLines]
  simp [terminated]

/-! ### Merging again -/

/-- A banner of one line that is not blank and has no white space at its end. -/
structure Rules.CleanBanner (r : Rules) : Prop where
  oneLine : OneLine r.banner.toList
  noTrailing : stripRight r.banner = r.banner
  nonBlank : strip r.banner ≠ ""

theorem toList_bannerLine (r : Rules) :
    r.bannerLine.toList = '/' :: '/' :: ' ' :: r.banner.toList := by
  rw [Rules.bannerLine, String.toList_append]
  rfl

theorem bannerLine_ne_marker (r : Rules) :
    r.bannerLine ≠ beginMarker ∧ r.bannerLine ≠ endMarker := by
  have hsecond : r.bannerLine.toList.tail.head? = some '/' := by
    rw [toList_bannerLine]
    rfl
  constructor
  all_goals
    intro h
    rw [h] at hsecond
    exact absurd hsecond (by decide)

theorem strip_bannerLine {r : Rules} (h : r.CleanBanner) : strip r.bannerLine = r.bannerLine := by
  have hne : r.banner.toList ≠ [] := by
    intro hnil
    refine h.nonBlank ?_
    rw [strip, hnil]
    rfl
  have hlast : NotBlank r.banner.toList.getLast? := by
    have htrim := congrArg String.toList h.noTrailing
    rw [stripRight, String.toList_ofList] at htrim
    rw [← htrim]
    exact last_trimRight _
  have htrimmed : Trimmed r.bannerLine.toList := by
    have hfirst : NotBlank ['/', '/', ' '].head? := by
      rintro c ⟨⟩
      decide
    rw [toList_bannerLine]
    exact Trimmed.append hfirst hlast (by simp) hne
  rw [strip, trim_eq_self htrimmed, String.ofList_toList]

theorem strip_ne_of_head {line other : String} {c d : Char}
    (hline : (strip line).toList.head? = some c) (hother : other.toList.head? = some d)
    (hcd : c ≠ d) : strip line ≠ other := by
  rintro rfl
  exact hcd (Option.some.inj (hline.symm.trans hother))

theorem head_strip_defineLine (name value : String) :
    (strip (defineLine name value)).toList.head? = some '#' := by
  have htext : ("#define " ++ name ++ " " ++ value).toList =
      ['#'] ++ ("define " ++ name ++ " " ++ value).toList := by
    simp only [String.toList_append]
    rfl
  have hsign : NotBlank ['#'].getLast? := by
    rintro c ⟨⟩
    decide
  rw [strip, defineLine, stripRight, String.toList_ofList, String.toList_ofList, trim_trimRight,
    htext, trim, trimLeft_eq_self (show NotBlank (['#'] ++ _).head? from hsign),
    trimRight_append hsign]
  rfl

theorem oneLine_of_mem_newLines (h : ∀ d ∈ declarations, OneLine d.1.toList ∧ OneLine d.2.toList)
    (hl : l ∈ newLines present declarations) : OneLine l.toList := by
  obtain ⟨⟨name, value⟩, hd, hline⟩ := List.mem_map.mp hl
  obtain ⟨hname, hvalue⟩ := h _ (List.mem_of_mem_filter hd)
  have hdefine : OneLine "#define ".toList := by decide
  have hblank : OneLine " ".toList := by decide
  rw [← hline]
  show OneLine (stripRight ("#define " ++ name ++ " " ++ value)).toList
  rw [stripRight, String.toList_ofList]
  refine OneLine.sublist ?_ (trimRight_isPrefix _).sublist
  simp only [String.toList_append]
  exact ((hdefine.append hname).append hblank).append hvalue

theorem ne_marker_of_mem_newLines (hl : l ∈ newLines present declarations) :
    strip l ≠ beginMarker ∧ strip l ≠ endMarker := by
  obtain ⟨⟨name, value⟩, -, rfl⟩ := List.mem_map.mp hl
  have hhead := head_strip_defineLine name value
  exact ⟨strip_ne_of_head hhead (d := '/') rfl (by decide),
    strip_ne_of_head hhead (d := '/') rfl (by decide)⟩

theorem mem_blockLines (h : l ∈ blockLines present declarations) :
    l = "" ∨ l = beginMarker ∨ l = endMarker ∨ l ∈ newLines present declarations := by
  unfold blockLines at h
  split at h
  · cases h
  · simp only [List.cons_append, List.nil_append, List.mem_cons, List.mem_append,
      List.not_mem_nil, or_false] at h
    tauto

theorem own_empty (r : Rules) : Own r "" := by
  refine ⟨by decide, by decide, fun h => ?_⟩
  have hlist := congrArg String.toList h
  rw [toList_bannerLine] at hlist
  cases hlist

theorem own_pragma (r : Rules) : Own r "#pragma once" :=
  ⟨by decide, by decide,
    strip_ne_of_head (c := '#') (d := '/') rfl (by rw [toList_bannerLine]; rfl) (by decide)⟩

theorem stripGenerated_blockLines (r : Rules) (present declarations : List (String × String)) :
    stripGenerated r false (blockLines present declarations) = [] ∨
      stripGenerated r false (blockLines present declarations) = [""] := by
  unfold blockLines
  split
  · exact .inl (by rw [stripGenerated])
  · refine .inr ?_
    have hempty : ∀ rest, stripGenerated r false ([""] ++ rest) =
        [""] ++ stripGenerated r false rest :=
      stripGenerated_own_append (by simpa using own_empty r)
    rw [List.append_assoc, List.cons_append, List.singleton_append, ← List.singleton_append, hempty,
      stripGenerated, if_pos (by decide),
      stripGenerated_block fun l hl => ne_marker_of_mem_newLines hl, stripGenerated,
      List.append_nil]

section Again

variable {r : Rules} {base : String} {d₁ : List (String × String)}

theorem own_of_mem_bodyLines (h : l ∈ bodyLines (taken r base).kept) :
    OneLine l.toList ∧ Own r l ∧ deprecated? r l = none := by
  rcases mem_bodyLines h with rfl | rfl | h
  · exact ⟨by decide, own_pragma r, rfl⟩
  · exact ⟨oneLine_nil, own_empty r, rfl⟩
  · exact oneLine_of_mem_taken h

/-- A merged header has the lines that were put together. -/
theorem splitLines_mergeText (hr : OneLine r.banner.toList)
    (h₁ : ∀ d ∈ d₁, OneLine d.1.toList ∧ OneLine d.2.toList) :
    splitLines (mergeText r base d₁) = mergedLines r (taken r base) d₁ := by
  have hlines : ∀ l ∈ mergedLines r (taken r base) d₁, OneLine l.toList := by
    intro l hl
    rcases List.mem_append.mp hl with hl | hl
    · rcases List.mem_append.mp hl with hl | hl
      · rcases List.mem_pair.mp hl with rfl | rfl
        · rw [toList_bannerLine]
          exact OneLine.append (show OneLine ['/', '/', ' '] by decide) hr
        · exact oneLine_nil
      · exact (own_of_mem_bodyLines hl).1
    · rcases mem_blockLines hl with rfl | rfl | rfl | hl
      · exact oneLine_nil
      · decide
      · decide
      · exact oneLine_of_mem_newLines h₁ hl
  rw [splitLines, toList_mergeText, splitLinesFrom_terminated_self (List.forall_mem_map.mpr hlines),
    List.map_map]
  simp [Function.comp_def]

/-- Nothing that merging adds is kept, apart from empty lines around the body. -/
theorem stripGenerated_mergedLines (hr : r.CleanBanner) (base : String)
    (d₁ : List (String × String)) :
    ∃ pad, (∀ l ∈ pad, l = "") ∧ stripGenerated r false (mergedLines r (taken r base) d₁) =
      "" :: bodyLines (taken r base).kept ++ pad := by
  have hfirst : ∀ rest, stripGenerated r false (r.bannerLine :: rest) =
      stripGenerated r false rest := by
    intro rest
    rw [stripGenerated, strip_bannerLine hr, if_neg (by simpa using (bannerLine_ne_marker r).1),
      if_neg (by simpa using (bannerLine_ne_marker r).2), if_pos (by simp)]
  have hbody : ∀ l ∈ "" :: bodyLines (taken r base).kept, Own r l :=
    List.forall_mem_cons.mpr ⟨own_empty r, fun l hl => (own_of_mem_bodyLines hl).2.1⟩
  have hlines : mergedLines r (taken r base) d₁ =
      r.bannerLine ::
        ("" :: bodyLines (taken r base).kept ++ blockLines (taken r base).defines d₁) := by
    simp [mergedLines]
  rw [hlines, hfirst, stripGenerated_own_append hbody]
  rcases stripGenerated_blockLines r (taken r base).defines d₁ with hblock | hblock
  · exact ⟨[], by simp, by rw [hblock]⟩
  · exact ⟨[""], by simp, by rw [hblock]⟩

/-- What is taken over from a merged header is its body, and it defines what the header defined. -/
theorem taken_mergeText (hr : r.CleanBanner) (base : String)
    (h₁ : ∀ d ∈ d₁, OneLine d.1.toList ∧ OneLine d.2.toList) :
    bodyLines (taken r (mergeText r base d₁)).kept = bodyLines (taken r base).kept ∧
      (taken r (mergeText r base d₁)).defines = (taken r base).defines := by
  obtain ⟨pad, hpad, hstrip⟩ := stripGenerated_mergedLines hr base d₁
  have hnone : ∀ l ∈ "" :: bodyLines (taken r base).kept ++ pad, deprecated? r l = none := by
    intro l hl
    rcases List.mem_append.mp hl with hl | hl
    · rcases List.mem_cons.mp hl with rfl | hl
      · rfl
      · exact (own_of_mem_bodyLines hl).2.2
    · rw [hpad l hl]
      rfl
  obtain ⟨hkept, hdefines⟩ := filterFrom_eq_of_none hnone {}
  have htaken : taken r (mergeText r base d₁) =
      filterFrom r false {} ("" :: bodyLines (taken r base).kept ++ pad) := by
    rw [taken, splitLines_mergeText hr.oneLine h₁, hstrip, filterDeprecated]
  have hempty : ∀ l ∈ pad, isEmptyLine l = true := fun l hl => by rw [hpad l hl]; rfl
  rw [htaken, hkept, hdefines, List.nil_append]
  constructor
  · obtain ⟨hne, hhead, hlast⟩ := bodyLines_edges (taken r base).kept
    have hinner : innerLines ("" :: bodyLines (taken r base).kept ++ pad) =
        bodyLines (taken r base).kept :=
      innerLines_pad hne hhead hlast hempty
    rw [bodyLines, hinner, if_pos (hasPragma_bodyLines _)]
  · rw [defines_taken, definesFrom_filter, List.filter_append, List.filter_cons_of_neg (by decide),
      filter_bodyLines, filter_of_isEmptyLine hempty, List.append_nil, ← definesFrom_filter]

end Again

/-- Merging into a merged header is merging into the header it came from, and merging the same
declarations again changes nothing. -/
theorem merge_merge {r : Rules} (hr : r.CleanBanner) (base : String) {d₁ : List (String × String)}
    (h₁ : ∀ d ∈ d₁, OneLine d.1.toList ∧ OneLine d.2.toList) (d₂ : List (String × String)) :
    (merge r (merge r base d₁).2 d₂).2 = (merge r base d₂).2 ∧
      (merge r (merge r base d₁).2 d₁).2 = (merge r base d₁).2 := by
  obtain ⟨hbody, hdefines⟩ := taken_mergeText hr base h₁
  have hagain : ∀ d, mergeText r (mergeText r base d₁) d = mergeText r base d := by
    intro d
    refine String.toList_inj.mp ?_
    rw [toList_mergeText, toList_mergeText, mergedLines, mergedLines, hbody, hdefines]
  exact ⟨hagain d₂, hagain d₁⟩

/-- A header with a deprecated definition, a stray marker and no guard. -/
theorem merge_merge_strayMarker :
    let r : Rules := { banner := "built", deprecatedNames := ["OLD"], deprecatedPatterns := [] }
    let base := "#define OLD \\\n  1\n" ++ endMarker ++ "\n\n#define TAPPING 200\n"
    (r.CleanBanner ∧ ∀ d ∈ [("TAPPING", "175"), ("LAYERS", "")],
      OneLine d.1.toList ∧ OneLine d.2.toList) ∧
    (merge r (merge r base [("TAPPING", "175"), ("LAYERS", "")]).2 [("COMBOS", "4")]).2 =
        (merge r base [("COMBOS", "4")]).2 ∧
      (merge r (merge r base [("TAPPING", "175"), ("LAYERS", "")]).2
          [("TAPPING", "175"), ("LAYERS", "")]).2 =
        (merge r base [("TAPPING", "175"), ("LAYERS", "")]).2 := by
  intro r base
  have hr : r.CleanBanner := ⟨by decide, by decide, by decide⟩
  have hd : ∀ d ∈ [("TAPPING", "175"), ("LAYERS", "")],
      OneLine d.1.toList ∧ OneLine d.2.toList := by decide
  exact ⟨⟨hr, hd⟩, merge_merge hr base hd _⟩

end Keyforge.Header
