import Keyforge.Proofs.Text.Trim

/-!
# Cutting texts into lines

Lines that are joined are found again when the text is cut, as long as no line holds a line break of
its own (`OneLine`).
-/

namespace Keyforge.Text

variable {cs ds : List Char} {ls : List (List Char)} {c : Char}

def OneLine (cs : List Char) : Prop := ∀ c ∈ cs, isLineBreak c = false

instance (cs : List Char) : Decidable (OneLine cs) :=
  List.decidableBAll (isLineBreak · = false) cs

theorem isBlank_of_isLineBreak (h : isLineBreak c = true) : isBlank c = true := by
  simp only [isLineBreak, isBlank, Bool.or_eq_true, Bool.and_eq_true, decide_eq_true_eq,
    beq_iff_eq] at h ⊢
  omega

theorem isLineBreak_eq_false_of_isBlank (h : isBlank c = false) : isLineBreak c = false := by
  cases hc : isLineBreak c with
  | false => rfl
  | true => rw [isBlank_of_isLineBreak hc] at h; cases h

/-! ### Texts without line breaks -/

theorem oneLine_nil : OneLine [] := by simp [OneLine]

theorem oneLine_append_iff : OneLine (cs ++ ds) ↔ OneLine cs ∧ OneLine ds := List.forall_mem_append

theorem OneLine.append (hc : OneLine cs) (hd : OneLine ds) : OneLine (cs ++ ds) :=
  oneLine_append_iff.mpr ⟨hc, hd⟩

theorem OneLine.cons (hc : isLineBreak c = false) (hcs : OneLine cs) : OneLine (c :: cs) :=
  List.forall_mem_cons.mpr ⟨hc, hcs⟩

theorem OneLine.sublist (hd : OneLine ds) (h : cs.Sublist ds) : OneLine cs :=
  fun c hc => hd c (h.subset hc)

theorem OneLine.trim (h : OneLine cs) : OneLine (Text.trim cs) :=
  h.sublist (trim_sublist cs)

theorem OneLine.intercalate {sep : List Char} (hsep : OneLine sep) {pieces : List (List Char)}
    (h : ∀ piece ∈ pieces, OneLine piece) : OneLine (sep.intercalate pieces) :=
  forall_mem_intercalate hsep h

theorem OneLine.newline_notMem (h : OneLine cs) : '\n' ∉ cs := fun hmem => by
  have := h '\n' hmem
  revert this
  decide

/-- A text that can stand between other parts of a line. -/
structure Phrase (cs : List Char) : Prop where
  ne_nil : cs ≠ []
  trimmed : Trimmed cs
  oneLine : OneLine cs

theorem phrase_trim (hne : Text.trim cs ≠ []) (h : OneLine cs) : Phrase (Text.trim cs) :=
  ⟨hne, trimmed_trim cs, h.trim⟩

/-! ### Visible characters -/

/-- A text of ASCII characters that are no white space. -/
def Visible (cs : List Char) : Prop := ∀ c ∈ cs, 33 ≤ c.toNat ∧ c.toNat ≤ 126

instance (cs : List Char) : Decidable (Visible cs) :=
  List.decidableBAll (fun c : Char => 33 ≤ c.toNat ∧ c.toNat ≤ 126) cs

theorem Visible.isBlank (h : Visible cs) (hc : c ∈ cs) : isBlank c = false := by
  have := h c hc
  simp only [Text.isBlank, Bool.or_eq_false_iff, Bool.and_eq_false_iff, decide_eq_false_iff_not,
    beq_eq_false_iff_ne]
  omega

theorem Visible.head_append {rest : List Char} (h : Visible cs) (hne : cs ≠ [])
    (hc : (cs ++ rest).head? = some c) : Text.isBlank c = false := by
  rw [List.head?_append_of_ne_nil _ hne] at hc
  exact h.isBlank (List.mem_of_head? hc)

theorem Visible.trimmed (h : Visible cs) : Trimmed cs :=
  ⟨fun _ hc => h.isBlank (List.mem_of_head? hc), fun _ hc => h.isBlank (List.mem_of_getLast? hc)⟩

theorem Visible.oneLine (h : Visible cs) : OneLine cs :=
  fun _ hc => isLineBreak_eq_false_of_isBlank (h.isBlank hc)

/-! ### Cutting -/

theorem splitLinesFrom_nil (line : List Char) :
    splitLinesFrom line [] = if line.isEmpty then [] else [line.reverse] := rfl

theorem splitLinesFrom_cons (h : isLineBreak c = false) (line rest : List Char) :
    splitLinesFrom line (c :: rest) = splitLinesFrom (c :: line) rest := by
  rw [splitLinesFrom, if_neg (by simp [h])]
  rintro rest' rfl
  exact absurd h (by decide)

theorem splitLinesFrom_newline (line rest : List Char) :
    splitLinesFrom line ('\n' :: rest) = line.reverse :: splitLinesFrom [] rest := rfl

theorem splitLinesFrom_oneLine_append (h : OneLine cs) (line rest : List Char) :
    splitLinesFrom line (cs ++ rest) = splitLinesFrom (cs.reverse ++ line) rest := by
  induction cs generalizing line with
  | nil => rfl
  | cons c cs ih =>
    rw [List.cons_append, splitLinesFrom_cons (h c List.mem_cons_self),
      ih (List.forall_mem_cons.mp h).2]
    simp

def terminated (lines : List (List Char)) : List Char := lines.flatMap (· ++ ['\n'])

@[simp] theorem terminated_nil : terminated [] = [] := rfl

theorem terminated_cons (l : List Char) (ls : List (List Char)) :
    terminated (l :: ls) = l ++ '\n' :: terminated ls := by
  simp [terminated]

theorem terminated_append (ls ms : List (List Char)) :
    terminated (ls ++ ms) = terminated ls ++ terminated ms := by
  simp [terminated]

/-- Lines that are each ended by a line feed are found again. -/
theorem splitLinesFrom_terminated (h : ∀ l ∈ ls, OneLine l) (rest : List Char) :
    splitLinesFrom [] (terminated ls ++ rest) = ls ++ splitLinesFrom [] rest := by
  induction ls with
  | nil => rfl
  | cons l ls ih =>
    rw [terminated_cons, List.append_assoc, List.cons_append,
      splitLinesFrom_oneLine_append (h l List.mem_cons_self), splitLinesFrom_newline,
      ih (List.forall_mem_cons.mp h).2]
    simp

theorem splitLinesFrom_terminated_self (h : ∀ l ∈ ls, OneLine l) :
    splitLinesFrom [] (terminated ls) = ls := by
  rw [← List.append_nil (terminated ls), splitLinesFrom_terminated h]
  exact List.append_nil ls

/-- A text that does not end in a line break keeps its lines when a line feed and more follow. -/
theorem splitLinesFrom_append_newline (line cs rest : List Char)
    (hne : line ≠ [] ∨ cs ≠ [])
    (hlast : ∀ c, cs.getLast? = some c → isLineBreak c = false) :
    splitLinesFrom line (cs ++ '\n' :: rest) =
      splitLinesFrom line cs ++ splitLinesFrom [] rest := by
  fun_induction splitLinesFrom line cs with
  | case1 line hline =>
    -- nothing is left of the text, so that a line is open
    simp_all
  | case2 line hline =>
    rw [List.nil_append, splitLinesFrom_newline]
    rfl
  | case3 line cs ih =>
    have hcs : cs ≠ [] := by
      rintro rfl
      exact absurd (hlast '\n' rfl) (by decide)
    obtain ⟨d, ds, rfl⟩ := List.exists_cons_of_ne_nil hcs
    rw [List.cons_append, List.cons_append, splitLinesFrom, ih (.inr hcs)
      (fun c hc => hlast c (by rw [List.getLast?_cons_cons, List.getLast?_cons_cons]; exact hc))]
    rfl
  | case4 line c cs hnot hbreak ih =>
    have hcs : cs ≠ [] := by
      rintro rfl
      rw [hlast c rfl] at hbreak
      cases hbreak
    obtain ⟨d, ds, rfl⟩ := List.exists_cons_of_ne_nil hcs
    rw [List.cons_append, splitLinesFrom, if_pos hbreak, ih (.inr hcs)
      (fun e he => hlast e (by rw [List.getLast?_cons_cons]; exact he))]
    · rfl
    · intro rest' hc h
      cases h
      exact hnot _ hc rfl
  | case5 line c cs hnot hbreak ih =>
    have hbreak : isLineBreak c = false := by simpa using hbreak
    rw [List.cons_append, splitLinesFrom_cons hbreak]
    refine ih (.inl (by simp)) fun e he => hlast e ?_
    rw [List.getLast?_cons, he]
    rfl

theorem oneLine_of_mem_splitLinesFrom {line l : List Char} (hline : OneLine line)
    (h : l ∈ splitLinesFrom line cs) : OneLine l := by
  have hrev : OneLine line.reverse := fun c hc => hline c (List.mem_reverse.mp hc)
  fun_induction splitLinesFrom line cs with
  | case1 => cases h
  | case2 =>
    rw [List.mem_singleton] at h
    exact h ▸ hrev
  | case3 line cs ih =>
    rcases List.mem_cons.mp h with rfl | h
    · exact hrev
    · exact ih oneLine_nil h oneLine_nil
  | case4 line c cs hnot hbreak ih =>
    rcases List.mem_cons.mp h with rfl | h
    · exact hrev
    · exact ih oneLine_nil h oneLine_nil
  | case5 line c cs hnot hbreak ih =>
    have hcons : OneLine (c :: line) := hline.cons (by simpa using hbreak)
    exact ih hcons h fun d hd => hcons d (List.mem_reverse.mp hd)

theorem infix_of_mem_splitLinesFrom {line l : List Char} (h : l ∈ splitLinesFrom line cs) :
    l <:+: line.reverse ++ cs := by
  fun_induction splitLinesFrom line cs with
  | case1 => cases h
  | case2 line _ =>
    rw [List.mem_singleton.mp h]
    exact (List.prefix_append _ _).isInfix
  | case3 line cs ih =>
    rcases List.mem_cons.mp h with rfl | h
    · exact (List.prefix_append _ _).isInfix
    · exact (ih h).trans ⟨line.reverse ++ ['\r', '\n'], [], by simp⟩
  | case4 line c cs hnot hbreak ih =>
    rcases List.mem_cons.mp h with rfl | h
    · exact (List.prefix_append _ _).isInfix
    · exact (ih h).trans ⟨line.reverse ++ [c], [], by simp⟩
  | case5 line c cs hnot hbreak ih =>
    have hmoved : (c :: line).reverse ++ cs = line.reverse ++ c :: cs := by simp
    exact hmoved ▸ ih h

/-! ### Joining -/

theorem intercalate_concat (ls : List (List Char)) (l : List Char) :
    ['\n'].intercalate (ls ++ [l]) = terminated ls ++ l := by
  induction ls with
  | nil => simp
  | cons k ls ih =>
    rw [List.cons_append, List.intercalate_cons_of_ne_nil (by simp), ih, terminated_cons]
    simp

theorem intercalate_append_newline (h : ls ≠ []) :
    ['\n'].intercalate ls ++ ['\n'] = terminated ls := by
  rw [← List.dropLast_append_getLast h, intercalate_concat, terminated_append, terminated_cons]
  simp

theorem rdropWhile_intercalate (h : ∀ l ∈ ls, l.getLast? ≠ some '\n') :
    (['\n'].intercalate ls).rdropWhile (· == '\n') =
      ['\n'].intercalate (ls.rdropWhile List.isEmpty) := by
  induction ls using List.reverseRecOn with
  | nil => rfl
  | append_singleton ls l ih =>
    have ih := ih fun m hm => h m (List.mem_append_left _ hm)
    by_cases hl : l = []
    · subst hl
      rw [intercalate_concat, List.append_nil, List.rdropWhile_concat_pos _ _ _ rfl]
      by_cases hls : ls = []
      · subst hls
        rfl
      · rw [← intercalate_append_newline hls, List.rdropWhile_concat_pos _ _ _ (by decide), ih]
    · rw [List.rdropWhile_concat_neg _ _ _ (by simpa using hl), intercalate_concat]
      -- the last character is that of the last line
      refine List.rdropWhile_eq_self_iff.mpr fun hne hlast => ?_
      rw [List.getLast_append_of_ne_nil _ hl, beq_iff_eq] at hlast
      exact h l (by simp) (by rw [List.getLast?_eq_some_getLast hl, hlast])

theorem rdropWhile_append {α : Type u} {p : α → Bool} (as : List α) {bs : List α}
    (h : ∃ b ∈ bs, p b = false) : (as ++ bs).rdropWhile p = as ++ bs.rdropWhile p := by
  have hleft : ¬(bs.reverse.dropWhile p).isEmpty = true := by simpa using h
  rw [List.rdropWhile, List.rdropWhile, List.reverse_append, List.dropWhile_append, if_neg hleft,
    List.reverse_append, List.reverse_reverse]

theorem toList_joinLines (ls : List String) :
    (joinLines ls).toList = ['\n'].intercalate (ls.map String.toList) := by
  rw [joinLines, String.toList_intercalate]
  rfl

/-! ### Cutting at a character -/

theorem splitAt_ne_nil (sep : Char) (cs : List Char) : splitAt sep cs ≠ [] := by
  cases cs with
  | nil => exact List.cons_ne_nil _ _
  | cons c cs =>
    rw [splitAt]
    split
    · simp
    · split <;> simp

theorem exists_splitAt_cons (sep c : Char) (cs : List Char) :
    ∃ piece pieces, splitAt sep cs = piece :: pieces ∧
      splitAt sep (c :: cs) =
        if c == sep then [] :: piece :: pieces else (c :: piece) :: pieces := by
  cases hsplit : splitAt sep cs with
  | nil => exact absurd hsplit (splitAt_ne_nil sep cs)
  | cons piece pieces => exact ⟨piece, pieces, rfl, by rw [splitAt, hsplit]⟩

theorem splitAt_cons_of_ne {sep c : Char} {piece : List Char} {pieces : List (List Char)}
    (hc : c ≠ sep) (h : splitAt sep cs = piece :: pieces) :
    splitAt sep (c :: cs) = (c :: piece) :: pieces := by
  rw [splitAt, h]
  exact if_neg (by simpa using hc)

theorem splitAt_of_notMem {sep : Char} (h : sep ∉ cs) : splitAt sep cs = [cs] := by
  induction cs with
  | nil => rfl
  | cons c cs ih =>
    obtain ⟨hc, hcs⟩ := List.ne_and_not_mem_of_not_mem_cons h
    exact splitAt_cons_of_ne (Ne.symm hc) (ih hcs)

theorem mem_of_mem_splitAt {sep : Char} {piece : List Char} (h : piece ∈ splitAt sep cs) :
    ∀ c ∈ piece, c ∈ cs ∧ c ≠ sep := by
  induction cs generalizing piece with
  | nil =>
    rw [List.mem_singleton.mp h]
    exact List.forall_mem_nil _
  | cons d cs ih =>
    obtain ⟨first, pieces, hsplit, hcons⟩ := exists_splitAt_cons sep d cs
    have hrest : ∀ {piece}, piece ∈ first :: pieces → ∀ c ∈ piece, c ∈ d :: cs ∧ c ≠ sep :=
      fun hpiece c hc =>
        have hmem := ih (hsplit ▸ hpiece) c hc
        ⟨List.mem_cons_of_mem d hmem.1, hmem.2⟩
    rw [hcons] at h
    split at h
    next =>
      rcases List.mem_cons.mp h with rfl | h
      · exact List.forall_mem_nil _
      · exact hrest h
    next hd =>
      rcases List.mem_cons.mp h with rfl | h
      · exact List.forall_mem_cons.mpr
          ⟨⟨List.mem_cons_self, by simpa using hd⟩, hrest List.mem_cons_self⟩
      · exact hrest (List.mem_cons_of_mem first h)

theorem splitAt_append {sep : Char} (h : sep ∉ cs) (rest : List Char) :
    splitAt sep (cs ++ sep :: rest) = cs :: splitAt sep rest := by
  induction cs with
  | nil =>
    obtain ⟨piece, pieces, hsplit, hcons⟩ := exists_splitAt_cons sep sep rest
    rw [List.nil_append, hcons, hsplit, if_pos (beq_self_eq_true sep)]
  | cons c cs ih =>
    obtain ⟨hc, hcs⟩ := List.ne_and_not_mem_of_not_mem_cons h
    exact splitAt_cons_of_ne (Ne.symm hc) (ih hcs)

/-- Pieces that are joined by a separating character are found again. -/
theorem splitAt_intercalate {sep : Char} {pieces : List (List Char)} (hne : pieces ≠ [])
    (h : ∀ piece ∈ pieces, sep ∉ piece) : splitAt sep ([sep].intercalate pieces) = pieces := by
  induction pieces with
  | nil => exact absurd rfl hne
  | cons piece pieces ih =>
    have hpiece := h piece List.mem_cons_self
    cases pieces with
    | nil => rw [List.intercalate_singleton, splitAt_of_notMem hpiece]
    | cons next pieces =>
      rw [List.intercalate_cons_cons, List.append_assoc, List.singleton_append,
        splitAt_append hpiece, ih (by simp) (List.forall_mem_cons.mp h).2]

/-! ### Lines that line feeds and carriage returns end -/

/-- A text consists of lines, each with a line feed, a carriage return or both of them behind it. The
last line may be without, but then it is not empty. -/
inductive IsLines : List Char → List (List Char) → Prop
  | nil : IsLines [] []
  | last {line : List Char} (hne : line ≠ []) (hline : '\n' ∉ line ∧ '\r' ∉ line) :
      IsLines line [line]
  | feed {line rest : List Char} {lines : List (List Char)} (hline : '\n' ∉ line ∧ '\r' ∉ line)
      (h : IsLines rest lines) : IsLines (line ++ '\n' :: rest) (line :: lines)
  | returnFeed {line rest : List Char} {lines : List (List Char)}
      (hline : '\n' ∉ line ∧ '\r' ∉ line) (h : IsLines rest lines) :
      IsLines (line ++ '\r' :: '\n' :: rest) (line :: lines)
  | carriage {line rest : List Char} {lines : List (List Char)} (hline : '\n' ∉ line ∧ '\r' ∉ line)
      (hrest : rest.head? ≠ some '\n') (h : IsLines rest lines) :
      IsLines (line ++ '\r' :: rest) (line :: lines)

theorem withoutEmptyEnd_splitAt {line : List Char} (hline : '\n' ∉ line) (rest : List Char) :
    withoutEmptyEnd (splitAt '\n' (line ++ '\n' :: rest)) =
      line :: withoutEmptyEnd (splitAt '\n' rest) := by
  rw [splitAt_append hline]
  unfold withoutEmptyEnd
  rw [List.getLast?_cons_of_ne_nil (splitAt_ne_nil _ _),
    List.dropLast_cons_of_ne_nil (splitAt_ne_nil _ _)]
  split <;> rfl

theorem unifyNewlines_append {line : List Char} (hline : '\r' ∉ line) (rest : List Char) :
    unifyNewlines (line ++ rest) = line ++ unifyNewlines rest := by
  induction line with
  | nil => rfl
  | cons c line ih =>
    obtain ⟨hc, hline⟩ := not_or.mp (mt List.mem_cons.mpr hline)
    rw [List.cons_append, unifyNewlines, ih hline, List.cons_append]
    · rintro _ rfl
      exact absurd rfl hc
    · rintro rfl
      exact absurd rfl hc

/-- What is read of a line so far stands before the rest of the text. -/
theorem isLines_append {front : List Char} (hfront : '\n' ∉ front ∧ '\r' ∉ front) (cs : List Char) :
    IsLines (front ++ cs) (withoutEmptyEnd (splitAt '\n' (front ++ unifyNewlines cs))) := by
  fun_induction unifyNewlines cs generalizing front with
  | case1 rest ih =>
    rw [withoutEmptyEnd_splitAt hfront.1]
    exact .returnFeed hfront (ih ⟨List.not_mem_nil, List.not_mem_nil⟩)
  | case2 rest hrest ih =>
    rw [withoutEmptyEnd_splitAt hfront.1]
    refine .carriage hfront (fun hhead => ?_) (ih ⟨List.not_mem_nil, List.not_mem_nil⟩)
    obtain ⟨tail, rfl⟩ := List.head?_eq_some_iff.mp hhead
    exact hrest tail rfl
  | case3 c rest hreturnFeed hreturn ih =>
    by_cases hc : c = '\n'
    · rw [hc, withoutEmptyEnd_splitAt hfront.1]
      exact .feed hfront (ih ⟨List.not_mem_nil, List.not_mem_nil⟩)
    · have hlonger : '\n' ∉ front ++ [c] ∧ '\r' ∉ front ++ [c] := by
        simp only [List.mem_append, List.mem_singleton, not_or]
        exact ⟨⟨hfront.1, Ne.symm hc⟩, hfront.2, fun h => hreturn h.symm⟩
      simpa using ih hlonger
  | case4 =>
    rw [List.append_nil, splitAt_of_notMem hfront.1]
    cases front with
    | nil => exact .nil
    | cons c front => exact .last (List.cons_ne_nil c front) hfront

theorem isLines_iff {cs : List Char} {lines : List (List Char)} :
    IsLines cs lines ↔ lines = endedLines cs := by
  constructor
  · intro h
    unfold endedLines
    induction h with
    | nil => rfl
    | @last line hne hline =>
      have hunified := unifyNewlines_append hline.2 []
      rw [List.append_nil] at hunified
      rw [hunified, unifyNewlines, List.append_nil, splitAt_of_notMem hline.1]
      simp [withoutEmptyEnd, hne]
    | feed hline _ ih =>
      rw [unifyNewlines_append hline.2, unifyNewlines, withoutEmptyEnd_splitAt hline.1, ← ih]
      · rintro _ ⟨⟩
      · rintro ⟨⟩
    | returnFeed hline _ ih =>
      rw [unifyNewlines_append hline.2, unifyNewlines, withoutEmptyEnd_splitAt hline.1, ← ih]
    | carriage hline hrest _ ih =>
      rw [unifyNewlines_append hline.2, unifyNewlines, withoutEmptyEnd_splitAt hline.1, ← ih]
      rintro tail rfl
      exact hrest rfl
  · rintro rfl
    exact isLines_append ⟨List.not_mem_nil, List.not_mem_nil⟩ cs

theorem intercalate_splitAt (sep : Char) (cs : List Char) :
    [sep].intercalate (splitAt sep cs) = cs := by
  induction cs with
  | nil => rfl
  | cons c cs ih =>
    obtain ⟨piece, pieces, hsplit, hcons⟩ := exists_splitAt_cons sep c cs
    rw [hsplit] at ih
    rw [hcons]
    split
    next hc =>
      rw [List.intercalate_cons_cons, ih, beq_iff_eq.mp hc, List.nil_append, List.singleton_append]
    next =>
      cases pieces with
      | nil =>
        rw [List.intercalate_singleton] at ih ⊢
        rw [ih]
      | cons second pieces =>
        rw [List.intercalate_cons_cons] at ih ⊢
        rw [List.cons_append, List.cons_append, ih]

end Keyforge.Text
