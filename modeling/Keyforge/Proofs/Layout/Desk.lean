import Keyforge.Proofs.Layout.Session
import Mathlib.Data.List.InsertIdx

/-!
# Sessions in which keys are objects

A `Desk` has its keys on one side and sheets that refer to them on the other, and shows a layout
(`Desk.view`). A step on it is compared with the same step on that layout, in which keys are values:
`shows_perform` says that both are refused alike, that they come to the same but for slots, and that
they come to the same altogether as long as no two sheets have a key in common (`Desk.Apart`). For
bringing a sheet into order writes the slots of its own keys only (`Sheet.seen_view_settle`), and if it
refers to each of them once, what is written are their places (`Sheet.view_settle`).

What the steps keep if keys are values is known from `Layout.Kept` and `Layout.Resolved`. So whatever
does not depend on slots is kept along every session, and slots are kept along sessions that share no
keys (`session_keeps_orderly`).
-/

namespace Keyforge

namespace Pairs

variable {α : Type u} {β : Type v} {γ : Type w} [BEq α]

theorem map_put (f : β → γ) (name : α) (value : β) (pairs : List (α × β)) :
    (put name value pairs).map (fun pair => (pair.1, f pair.2)) =
      put name (f value) (pairs.map fun pair => (pair.1, f pair.2)) := by
  induction pairs with
  | nil => rfl
  | cons pair pairs ih =>
    rw [put_cons, List.map_cons, put_cons]
    split
    · rfl
    · rw [List.map_cons, ih]

theorem map_ofList (f : β → γ) (items : List (α × β)) :
    (ofList items).map (fun pair => (pair.1, f pair.2)) =
      ofList (items.map fun pair => (pair.1, f pair.2)) := by
  have hputAll : ∀ pairs : List (α × β), (putAll pairs items).map (fun pair => (pair.1, f pair.2)) =
      putAll (pairs.map fun pair => (pair.1, f pair.2)) (items.map fun pair => (pair.1, f pair.2)) := by
    induction items with
    | nil => exact fun _ => rfl
    | cons item items ih =>
      intro pairs
      rw [List.map_cons]
      refine (ih (put item.1 item.2 pairs)).trans ?_
      rw [map_put]
      rfl
  exact hputAll []

theorem mem_of_mem_ofList [LawfulBEq α] {items : List (α × β)} {pair : α × β}
    (h : pair ∈ ofList items) : pair ∈ items := by
  refine List.foldlRecOn (motive := fun pairs : List (α × β) => ∀ p ∈ pairs, p ∈ items) items _
    (List.forall_mem_nil _) (fun pairs hpairs item hitem p hp => ?_) pair h
  rcases mem_put hp with rfl | hp
  · exact hitem
  · exact hpairs p hp

theorem map_erase (f : β → γ) (name : α) (pairs : List (α × β)) :
    (erase name pairs).map (fun pair => (pair.1, f pair.2)) =
      erase name (pairs.map fun pair => (pair.1, f pair.2)) := by
  rw [erase, erase, List.filter_map]
  rfl

end Pairs

/-! ### Keys and their numbers -/

variable {keys more : List Key} {n m : Nat}

theorem keyAt_of_more (h : keys <+: more) (hn : n < keys.length) :
    keyAt more n = keyAt keys n := by
  obtain ⟨others, rfl⟩ := h
  rw [keyAt, keyAt, List.getElem?_append_left hn]

theorem keyAt_concat (keys : List Key) (key : Key) : keyAt (keys ++ [key]) keys.length = key := by
  simp [keyAt]

theorem keyAt_modify_self (f : Key → Key) (hn : n < keys.length) :
    keyAt (keys.modify n f) n = f (keyAt keys n) := by
  simp [keyAt, hn]

theorem keyAt_modify_of_ne (f : Key → Key) (hne : n ≠ m) :
    keyAt (keys.modify n f) m = keyAt keys m := by
  simp [keyAt, hne]

def Key.unslotted (key : Key) : Key := { key with slot := 0 }

theorem unslotted_keyAt_modify (n m : Nat) (slot : Int) :
    (keyAt (keys.modify n fun key => { key with slot }) m).unslotted = (keyAt keys m).unslotted := by
  by_cases hne : n = m
  · subst hne
    by_cases hn : n < keys.length
    · rw [keyAt_modify_self _ hn]
      rfl
    · simp [keyAt, hn]
  · rw [keyAt_modify_of_ne _ hne]

/-! ### Keys that are handed in -/

namespace Given

variable {known : List Key}

def isHeldBy (refs : List Nat) : Given → Bool
  | .fresh _ => false
  | .held n => refs.contains n

/-- A number that is taken has the key that was handed in, and is none of those that other keys have. -/
theorem take_spec (hknown : known <+: keys) {given : Given}
    (h : given.take known.length keys = (n, more)) :
    keys <+: more ∧ n < more.length ∧ keyAt more n = given.value known ∧
      ∀ refs : List Nat, (∀ r ∈ refs, r < known.length) → given.isHeldBy refs = false → n ∉ refs := by
  have hnew : ∀ refs : List Nat, (∀ r ∈ refs, r < known.length) → keys.length ∉ refs :=
    fun refs hrefs hmem => absurd (hrefs _ hmem) (Nat.not_lt.mpr hknown.length_le)
  cases given with
  | fresh key =>
    cases h
    exact ⟨List.prefix_append _ _, by simp, keyAt_concat keys key, fun refs hrefs _ => hnew refs hrefs⟩
  | held r =>
    rw [take] at h
    by_cases hr : r < known.length
    · rw [if_pos hr] at h
      cases h
      exact ⟨List.prefix_rfl, Nat.lt_of_lt_of_le hr hknown.length_le, keyAt_of_more hknown hr,
        fun refs _ hother => by simpa [isHeldBy] using hother⟩
    · rw [if_neg hr] at h
      cases h
      have hblank : keyAt known r = default := by simp [keyAt, hr]
      exact ⟨List.prefix_append _ _, by simp, (keyAt_concat keys default).trans hblank.symm,
        fun refs hrefs _ => hnew refs hrefs⟩

theorem takeAll_spec (hknown : known <+: keys) {given : List (Position × Given)}
    {cells : List (Position × Nat)} (h : takeAll known.length keys given = (cells, more)) :
    keys <+: more ∧ (∀ cell ∈ cells, cell.2 < more.length) ∧
      cells.map (fun cell => (cell.1, keyAt more cell.2)) =
        given.map (fun entry => (entry.1, entry.2.value known)) ∧
      ∀ refs : List Nat, (∀ r ∈ refs, r < known.length) →
        (∀ entry ∈ given, entry.2.isHeldBy refs = false) → ∀ cell ∈ cells, cell.2 ∉ refs := by
  induction given generalizing keys cells more with
  | nil =>
    cases h
    exact ⟨List.prefix_rfl, List.forall_mem_nil _, rfl, fun _ _ _ => List.forall_mem_nil _⟩
  | cons entry others ih =>
    cases h
    obtain ⟨hfront, hmade, hvalue, hfree⟩ := take_spec hknown (rfl : entry.2.take _ _ = _)
    obtain ⟨hothers, hmades, hvalues, hfrees⟩ := ih (hknown.trans hfront) rfl
    refine ⟨hfront.trans hothers, List.forall_mem_cons.mpr
      ⟨Nat.lt_of_lt_of_le hmade hothers.length_le, hmades⟩, ?_, fun refs hrefs hother => ?_⟩
    · rw [List.map_cons, List.map_cons, ← hvalues, ← hvalue, ← keyAt_of_more hothers hmade]
    · obtain ⟨hfirst, hrest⟩ := List.forall_mem_cons.mp hother
      exact List.forall_mem_cons.mpr ⟨hfree refs hrefs hfirst, hfrees refs hrefs hrest⟩

theorem value_ofDraft {draft : Layer} {keys? : Option (List (Position × Given))}
    (h : ∀ given, keys? = some given →
      draft.keys = Pairs.ofList (given.map fun entry => (entry.1, entry.2.value known))) :
    (ofDraft draft keys?).map (fun entry => (entry.1, entry.2.value known)) = draft.keys := by
  cases keys? with
  | none =>
    rw [ofDraft, List.map_map]
    exact List.map_id _
  | some given => rw [h given rfl, ofDraft, Pairs.map_ofList]

theorem isHeldBy_ofDraft {draft : Layer} {keys? : Option (List (Position × Given))}
    {refs : List Nat} (h : (keys?.getD []).any (fun entry => entry.2.isHeldBy refs) = false) :
    ∀ entry ∈ ofDraft draft keys?, entry.2.isHeldBy refs = false := by
  intro entry hentry
  cases keys? with
  | none =>
    obtain ⟨original, -, rfl⟩ := List.mem_map.mp hentry
    rfl
  | some given => simpa using List.any_eq_false.mp h entry (Pairs.mem_of_mem_ofList hentry)

end Given

/-! ### Sheets -/

namespace Sheet

variable {s : Sheet} {cells : List (Position × Nat)}

@[simp] theorem length_assignSlots (slot : Nat) (cells : List (Position × Nat)) (keys : List Key) :
    (assignSlots slot cells keys).length = keys.length := by
  induction cells generalizing slot keys with
  | nil => rfl
  | cons cell cells ih => rw [assignSlots, ih, List.length_modify]

theorem unslotted_assignSlots (slot : Nat) (cells : List (Position × Nat)) (keys : List Key)
    (n : Nat) : (keyAt (assignSlots slot cells keys) n).unslotted = (keyAt keys n).unslotted := by
  induction cells generalizing slot keys with
  | nil => rfl
  | cons cell cells ih => rw [assignSlots, ih, unslotted_keyAt_modify]

theorem keyAt_assignSlots_of_notMem (slot : Nat) (keys : List Key) (h : n ∉ cells.map Prod.snd) :
    keyAt (assignSlots slot cells keys) n = keyAt keys n := by
  induction cells generalizing slot keys with
  | nil => rfl
  | cons cell cells ih =>
    rw [List.map_cons, List.mem_cons, not_or] at h
    rw [assignSlots, ih _ _ h.2, keyAt_modify_of_ne _ (Ne.symm h.1)]

/-- Slots that are assigned one by one number the keys, if each of them is referred to once. -/
theorem view_assignSlots (slot : Nat) (hnodup : (cells.map Prod.snd).Nodup)
    (hmade : ∀ cell ∈ cells, cell.2 < keys.length) :
    cells.map (fun cell => (cell.1, keyAt (assignSlots slot cells keys) cell.2)) =
      Layer.numberFrom slot (cells.map fun cell => (cell.1, keyAt keys cell.2)) := by
  induction cells generalizing slot keys with
  | nil => rfl
  | cons cell cells ih =>
    obtain ⟨hnotMem, hnodup⟩ := List.nodup_cons.mp hnodup
    obtain ⟨hcell, hmade⟩ := List.forall_mem_cons.mp hmade
    have hfirst : keyAt (assignSlots slot (cell :: cells) keys) cell.2 =
        { keyAt keys cell.2 with slot := (slot : Int) } := by
      rw [assignSlots, keyAt_assignSlots_of_notMem _ _ hnotMem, keyAt_modify_self _ hcell]
    have hothers : (cells.map fun other => (other.1,
        keyAt (keys.modify cell.2 fun key => { key with slot := (slot : Int) }) other.2)) =
          cells.map fun other => (other.1, keyAt keys other.2) := by
      refine List.map_congr_left fun other hother => ?_
      rw [keyAt_modify_of_ne]
      rintro heq
      exact hnotMem (heq ▸ List.mem_map_of_mem hother)
    rw [List.map_cons, hfirst, List.map_cons, Layer.numberFrom_cons, assignSlots,
      ih _ hnodup (by simpa using hmade), hothers]

theorem nodup_refs (h : Layer.Filed (s.view keys).keys) : s.refs.Nodup := by
  have hnodup := h.nodup
  rw [view, List.map_map] at hnodup
  refine List.pairwise_map.mpr ((List.pairwise_map.mp hnodup).imp_of_mem ?_)
  intro a b ha hb hne heq
  have hposition : ∀ cell ∈ s.cells, cell.1 = (keyAt keys cell.2).position :=
    fun cell hcell => h.own _ (List.mem_map_of_mem hcell)
  exact hne ((hposition a ha).trans (heq ▸ (hposition b hb).symm))

/-- A sheet that is brought into order shows its keys arranged. -/
theorem view_settle (h : Layer.Filed (s.view keys).keys) (hmade : ∀ n ∈ s.refs, n < keys.length) :
    s.sorted.view (s.settle keys) = (s.view keys).arranged := by
  have hperm : s.sorted.cells.Perm s.cells := List.mergeSort_perm _ _
  have hsorted : s.sorted.cells.map (fun cell => (cell.1, keyAt keys cell.2)) =
      (s.view keys).keys.mergeSort fun a b => a.1.atMost b.1 :=
    List.map_mergeSort fun _ _ _ _ => rfl
  have hmade' : ∀ cell ∈ s.sorted.cells, cell.2 < keys.length := fun cell hcell =>
    hmade _ (List.mem_map_of_mem (hperm.mem_iff.mp hcell))
  have hkeys := view_assignSlots 0 ((hperm.map Prod.snd).nodup_iff.mpr (nodup_refs h)) hmade'
  rw [hsorted] at hkeys
  exact congrArg (fun keys => { s.layer with keys }) hkeys

theorem sorted_eq_self (h : s.cells.Pairwise fun a b => a.1.atMost b.1 = true) : s.sorted = s := by
  rw [sorted, List.mergeSort_of_pairwise h]

theorem mem_refs_sorted : n ∈ s.sorted.refs ↔ n ∈ s.refs :=
  ((List.mergeSort_perm _ _).map Prod.snd).mem_iff

theorem keyAt_settle_of_notMem (keys : List Key) (h : n ∉ s.refs) :
    keyAt (s.settle keys) n = keyAt keys n :=
  keyAt_assignSlots_of_notMem 0 keys (mt mem_refs_sorted.mp h)

end Sheet

/-! ### What is seen of keys -/

/-- A layer of which each key is seen as `g` shows it. -/
def Layer.seen (g : Key → Key) (layer : Layer) : Layer :=
  { layer with keys := layer.keys.map fun entry => (entry.1, g entry.2) }

def Layout.seen (g : Key → Key) (l : Layout) : Layout := { l with layers := l.layers.map (·.seen g) }

theorem Layout.seen_id (l : Layout) : l.seen id = l := by
  have hlayer : (fun layer : Layer => layer.seen id) = id := by
    funext layer
    simp [Layer.seen]
  rw [seen, hlayer, List.map_id]

def ForgetsSlots (g : Key → Key) : Prop := ∀ (key : Key) (slot : Int), g { key with slot } = g key

theorem ForgetsSlots.eq_of_unslotted {g : Key → Key} (h : ForgetsSlots g) {key other : Key}
    (heq : key.unslotted = other.unslotted) : g key = g other := by
  rw [← h key 0, ← h other 0]
  exact congrArg g heq

theorem forgetsSlots_unslotted : ForgetsSlots Key.unslotted := fun _ _ => rfl

namespace Sheet

variable {g : Key → Key} {s t : Sheet}

theorem seen_view_congr
    (h : ∀ n ∈ t.refs, g (keyAt more n) = g (keyAt keys n)) :
    (t.view more).seen g = (t.view keys).seen g := by
  have hcells : (t.view more).keys.map (fun entry => (entry.1, g entry.2)) =
      (t.view keys).keys.map fun entry => (entry.1, g entry.2) := by
    rw [view, view, List.map_map, List.map_map]
    exact List.map_congr_left fun cell hcell =>
      congrArg (Prod.mk cell.1) (h cell.2 (List.mem_map_of_mem hcell))
  exact congrArg (fun keys => { t.layer with keys }) hcells

theorem view_congr (h : ∀ n ∈ t.refs, keyAt more n = keyAt keys n) : t.view more = t.view keys := by
  refine congrArg (fun keys => { t.layer with keys }) (List.map_congr_left fun cell hcell => ?_)
  rw [h cell.2 (List.mem_map_of_mem hcell)]

/-- A sheet that is brought into order is not noticed on another one, unless slots are seen and both
have a key in common. -/
theorem seen_view_settle (h : ForgetsSlots g ∨ ∀ n ∈ t.refs, n ∉ s.refs) (keys : List Key) :
    (t.view (s.settle keys)).seen g = (t.view keys).seen g := by
  refine seen_view_congr fun n hn => ?_
  rcases h with hg | hother
  · exact hg.eq_of_unslotted (unslotted_assignSlots 0 _ keys n)
  · rw [keyAt_settle_of_notMem keys (hother n hn)]

end Sheet

/-! ### Desks -/

namespace Desk

variable {d : Desk} {g : Key → Key} {place : Nat} {s : Sheet}

/-- Every reference is one to a key that was made. -/
def Sound (d : Desk) : Prop := ∀ n ∈ d.refs, n < d.keys.length

/-- No two sheets have a key in common. -/
def Apart (d : Desk) : Prop := (d.sheets.map Sheet.refs).Pairwise List.Disjoint

/-- The references from all sheets but the one at a place. -/
def refsBeside (d : Desk) (place : Nat) : List Nat := (d.sheets.eraseIdx place).flatMap Sheet.refs

theorem mem_refs {n : Nat} : n ∈ d.refs ↔ ∃ s ∈ d.sheets, n ∈ s.refs := List.mem_flatMap

theorem refsBeside_subset (d : Desk) (place : Nat) : d.refsBeside place ⊆ d.refs := by
  intro n hn
  obtain ⟨s, hs, hn⟩ := List.mem_flatMap.mp hn
  exact mem_refs.mpr ⟨s, List.mem_of_mem_eraseIdx hs, hn⟩

theorem mem_refsBeside {i n : Nat} (hs : d.sheets[i]? = some s) (hi : i ≠ place) (hn : n ∈ s.refs) :
    n ∈ d.refsBeside place :=
  List.mem_flatMap.mpr ⟨s, List.mem_eraseIdx_iff_getElem?.mpr ⟨i, hi, hs⟩, hn⟩

theorem exists_of_mem_refsBeside {n : Nat} (hn : n ∈ d.refsBeside place) :
    ∃ i s, i ≠ place ∧ d.sheets[i]? = some s ∧ n ∈ s.refs := by
  obtain ⟨s, hs, hn⟩ := List.mem_flatMap.mp hn
  obtain ⟨i, hi, hs⟩ := List.mem_eraseIdx_iff_getElem?.mp hs
  exact ⟨i, s, hi, hs, hn⟩

theorem apart_iff : d.Apart ↔ ∀ (i : Nat) (s : Sheet), d.sheets[i]? = some s →
    ∀ n ∈ s.refs, n ∉ d.refsBeside i := by
  rw [Apart, List.pairwise_map, List.pairwise_iff_getElem]
  constructor
  · intro h i s hs n hn hbeside
    obtain ⟨j, t, hj, ht, hn'⟩ := exists_of_mem_refsBeside hbeside
    obtain ⟨hi, rfl⟩ := List.getElem?_eq_some_iff.mp hs
    obtain ⟨hj', rfl⟩ := List.getElem?_eq_some_iff.mp ht
    rcases Nat.lt_or_gt_of_ne hj with hlt | hlt
    · exact h j i hj' hi hlt hn' hn
    · exact h i j hi hj' hlt hn hn'
  · intro h i j hi hj hlt n hn hn'
    exact h i _ (List.getElem?_eq_getElem hi) n hn
      (mem_refsBeside (List.getElem?_eq_getElem hj) (Nat.ne_of_gt hlt) hn')

theorem Sound.of_sheet (h : d.Sound) (hs : s ∈ d.sheets) : ∀ n ∈ s.refs, n < d.keys.length :=
  fun n hn => h n (mem_refs.mpr ⟨s, hs, hn⟩)

/-- More keys do not change what a desk shows. -/
theorem view_more (h : d.Sound) (hmore : d.keys <+: more) : { d with keys := more }.view = d.view := by
  refine congrArg (fun layers => { d.rest with layers }) (List.map_congr_left fun s hs => ?_)
  exact Sheet.view_congr fun n hn => keyAt_of_more hmore (h.of_sheet hs n hn)

/-! ### Each step -/

/-- A desk shows a layout, but for the slots of its keys unless sheets are kept apart, as is the case
under the condition `A`. -/
structure Shows (A : Prop) (d : Desk) (l : Layout) : Prop where
  sound : d.Sound
  apart : A → d.Apart
  unslotted : d.view.seen Key.unslotted = l.seen Key.unslotted
  exact : A → d.view = l

variable {A : Prop} {l : Layout}

theorem Shows.of_seen (hsound : d.Sound) (hapart : A → d.Apart)
    (hseen : ∀ g, ForgetsSlots g ∨ A → d.view.seen g = l.seen g) : Shows A d l where
  sound := hsound
  apart := hapart
  unslotted := hseen _ (.inl forgetsSlots_unslotted)
  exact h := by
    rw [← d.view.seen_id, hseen id (.inr h), l.seen_id]

theorem Shows.imp {B : Prop} (h : Shows A d l) (hA : B → A) : Shows B d l :=
  { h with apart := fun hb => h.apart (hA hb), exact := fun hb => h.exact (hA hb) }

theorem Shows.of_view (hsound : d.Sound) (hapart : A → d.Apart) (hview : d.view = l) :
    Shows A d l :=
  .of_seen hsound hapart fun g _ => by rw [hview]

/-- Whether a step gives a layer a key that another layer has already. -/
def shares (d : Desk) : Edit Given → Bool
  | .addLayer _ _ keys? => (keys?.getD []).any fun entry => entry.2.isHeldBy d.refs
  | .setKey place given => given.isHeldBy (d.refsBeside place)
  | _ => false

/-! ### Changes of one sheet -/

/-- A sheet can be put in the place of another one and brought into order, and then shows the other
one's layer as `F` changes it. -/
structure Replaces (A : Prop) (d : Desk) (place : Nat) (F : Layer → Layer) (s t : Sheet) : Prop where
  view : (t.view d.keys).arranged = F (s.view d.keys)
  filed : Layer.Filed (t.view d.keys).keys
  made : ∀ n ∈ t.refs, n < d.keys.length
  beside : A → ∀ n ∈ t.refs, n ∉ d.refsBeside place

section ChangeSheet

variable {F : Layer → Layer} {t : Sheet} (h : d.Sound) (hs : d.sheets[place]? = some s)
  (hreplaces : Replaces A d place F s t)

theorem getElem?_set_cases {items : List α} {i : Nat} {a b : α} (h : (items.set place a)[i]? = some b) :
    i = place ∧ b = a ∨ i ≠ place ∧ items[i]? = some b := by
  by_cases hi : place = i
  · subst hi
    rw [List.getElem?_set_self'] at h
    obtain ⟨_, -, rfl⟩ := Option.map_eq_some_iff.mp h
    exact .inl ⟨rfl, rfl⟩
  · rw [List.getElem?_set_ne hi] at h
    exact .inr ⟨Ne.symm hi, h⟩

include hreplaces

include h in
theorem Replaces.sound :
    Desk.Sound { d with sheets := d.sheets.set place t.sorted, keys := t.settle d.keys } := by
  intro n hn
  show n < (t.settle d.keys).length
  rw [Sheet.settle, Sheet.length_assignSlots]
  obtain ⟨u, hu, hn⟩ := mem_refs.mp hn
  rcases List.mem_or_eq_of_mem_set hu with hu | rfl
  · exact h.of_sheet hu n hn
  · exact hreplaces.made n (Sheet.mem_refs_sorted.mp hn)

theorem Replaces.apart (hA : A) (hapart : d.Apart) :
    Desk.Apart { d with sheets := d.sheets.set place t.sorted, keys := t.settle d.keys } := by
  have hbeside := hreplaces.beside hA
  refine apart_iff.mpr fun i u hu n hn hshared => ?_
  obtain ⟨j, other, hj, hother, hn'⟩ := exists_of_mem_refsBeside hshared
  rcases getElem?_set_cases hu with ⟨rfl, rfl⟩ | ⟨hi, hunchanged⟩
  · rcases getElem?_set_cases hother with ⟨rfl, -⟩ | ⟨-, hunchanged⟩
    · exact hj rfl
    · exact hbeside n (Sheet.mem_refs_sorted.mp hn) (mem_refsBeside hunchanged hj hn')
  · rcases getElem?_set_cases hother with ⟨rfl, rfl⟩ | ⟨-, hother⟩
    · exact hbeside n (Sheet.mem_refs_sorted.mp hn') (mem_refsBeside hunchanged hi hn)
    · exact apart_iff.mp hapart i u hunchanged n hn (mem_refsBeside hother hj hn')

include hs in
theorem Replaces.seen (hg : ForgetsSlots g ∨ A) :
    (Desk.view { d with sheets := d.sheets.set place t.sorted, keys := t.settle d.keys }).seen g =
      (d.view.modifyLayer place F).seen g := by
  refine congrArg (fun layers => { d.rest with layers }) (List.ext_getElem? fun i => ?_)
  simp only [Desk.view, Layout.modifyLayer, List.getElem?_map, List.getElem?_set,
    List.getElem?_modify]
  by_cases hi : place = i
  · subst hi
    obtain ⟨hlt, hget⟩ := List.getElem?_eq_some_iff.mp hs
    simp [hlt, hget, Sheet.view_settle hreplaces.filed hreplaces.made, hreplaces.view]
  · cases hu : d.sheets[i]? with
    | none => simp [hi]
    | some u =>
      have hseen : (u.view (t.settle d.keys)).seen g = (u.view d.keys).seen g :=
        Sheet.seen_view_settle (hg.imp id fun hA n hn hn' =>
          hreplaces.beside hA n hn' (mem_refsBeside hu (Ne.symm hi) hn)) d.keys
      simp [hi, hseen]

end ChangeSheet

theorem changeSheet_of_some {f : Sheet → Sheet} (hs : d.sheets[place]? = some s) :
    d.changeSheet place f =
      { d with sheets := d.sheets.set place (f s).sorted, keys := (f s).settle d.keys } := by
  rw [changeSheet, hs]

theorem shows_changeSheet {f : Sheet → Sheet} {F : Layer → Layer} (h : d.Sound)
    (hapart : A → d.Apart)
    (hreplaces : ∀ s, d.sheets[place]? = some s → Replaces A d place F s (f s)) :
    Shows A (d.changeSheet place f) (d.view.modifyLayer place F) := by
  cases hs : d.sheets[place]? with
  | none =>
    have hlength : d.view.layers.length ≤ place := by
      rw [view, List.length_map]
      exact List.getElem?_eq_none_iff.mp hs
    rw [changeSheet, hs, Layout.modifyLayer, List.modify_eq_self hlength]
    exact .of_view h hapart rfl
  | some s =>
    rw [changeSheet_of_some hs]
    have hnew := hreplaces s hs
    exact .of_seen (hnew.sound h) (fun hA => hnew.apart hA (hapart hA)) fun g hg => hnew.seen hs hg

theorem placed_of_getElem? (hplaced : ∀ layer ∈ d.view.layers, Layer.Placed layer.keys)
    (hs : d.sheets[place]? = some s) : Layer.Placed (s.view d.keys).keys :=
  hplaced _ (List.mem_map_of_mem (List.mem_of_getElem? hs))

theorem shows_setKey (h : d.Sound) (hplaced : ∀ layer ∈ d.view.layers, Layer.Placed layer.keys)
    (place : Nat) (given : Given) :
    Shows (d.Apart ∧ given.isHeldBy (d.refsBeside place) = false) (d.setKey place given)
      (d.view.setKey place (given.value d.keys)) := by
  unfold setKey
  dsimp only
  cases htaken : given.take d.keys.length d.keys with
  | mk m more =>
  obtain ⟨hfront, hmade, hvalue, hfree⟩ := Given.take_spec List.prefix_rfl htaken
  have hsame := view_more h hfront
  have hsound : { d with keys := more }.Sound :=
    fun n hn => Nat.lt_of_lt_of_le (h n hn) hfront.length_le
  rw [← hsame]
  refine shows_changeSheet hsound And.left fun s hs => ?_
  -- the cells of the changed sheet show the changed keys
  have hcells : (Pairs.put (keyAt more m).position m s.cells).map
      (fun cell => (cell.1, keyAt more cell.2)) =
        Pairs.put (given.value d.keys).position (given.value d.keys) (s.view more).keys := by
    rw [Pairs.map_put, hvalue]
    rfl
  have hrefs : ∀ n ∈ (Pairs.put (keyAt more m).position m s.cells).map Prod.snd,
      n = m ∨ n ∈ s.refs := by
    refine List.forall_mem_map.mpr fun cell hcell => ?_
    rcases Pairs.mem_put hcell with rfl | hcell
    · exact .inl rfl
    · exact .inr (List.mem_map_of_mem hcell)
  refine ⟨?_, ?_, fun n hn => ?_, fun hA n hn => ?_⟩
  · rw [Layer.arranged, Layer.setKey, Sheet.view, hcells]
    rfl
  · have hkeys : Layer.Placed (s.view more).keys := placed_of_getElem? (hsame ▸ hplaced) hs
    rw [Sheet.view, hcells]
    exact hkeys.filed_put _
  · rcases hrefs n hn with rfl | hn
    · exact hmade
    · exact hsound.of_sheet (List.mem_of_getElem? hs) n hn
  · rcases hrefs n hn with rfl | hn
    · exact hfree _ (fun n hn => h n (refsBeside_subset d place hn)) hA.2
    · exact apart_iff.mp hA.1 place s hs n hn

theorem shows_removeKey (h : d.Sound) (hplaced : ∀ layer ∈ d.view.layers, Layer.Placed layer.keys)
    (place : Nat) (p : Position) :
    Shows d.Apart (d.removeKey place p) (d.view.removeKey place p) := by
  refine shows_changeSheet h id fun s hs => ?_
  have hcells : (Pairs.erase p s.cells).map (fun cell => (cell.1, keyAt d.keys cell.2)) =
      Pairs.erase p (s.view d.keys).keys := Pairs.map_erase _ p s.cells
  have hrefs : (Pairs.erase p s.cells).map Prod.snd ⊆ s.refs :=
    (List.filter_sublist.map Prod.snd).subset
  refine ⟨?_, ?_, fun n hn => h.of_sheet (List.mem_of_getElem? hs) n (hrefs hn),
    fun hapart n hn => apart_iff.mp hapart place s hs n (hrefs hn)⟩
  · rw [Layer.arranged, Layer.removeKey, Sheet.view, hcells]
    rfl
  · rw [Sheet.view, hcells]
    exact (placed_of_getElem? hplaced hs).filed_erase p

theorem shows_addSheet (sheet : Sheet) (h : d.Sound) (hmore : d.keys <+: more)
    (hfiled : Layer.Filed (sheet.view more).keys) (hmade : ∀ n ∈ sheet.refs, n < more.length)
    (hapart : A → d.Apart) (hfree : A → ∀ n ∈ sheet.refs, n ∉ d.refs) :
    Shows A { d with keys := sheet.settle more } d.view ∧
      Shows A { d with sheets := d.sheets ++ [sheet.sorted], keys := sheet.settle more }
        { d.view with layers := d.view.layers ++ [(sheet.view more).arranged] } := by
  have hlength : (sheet.settle more).length = more.length := Sheet.length_assignSlots 0 _ _
  have hsound : ∀ n ∈ d.refs, n < (sheet.settle more).length := fun n hn =>
    hlength ▸ Nat.lt_of_lt_of_le (h n hn) hmore.length_le
  have hseen : ∀ g, ForgetsSlots g ∨ A → d.sheets.map (fun s => (s.view (sheet.settle more)).seen g) =
      d.sheets.map fun s => (s.view d.keys).seen g := by
    intro g hg
    refine List.map_congr_left fun s hs => ?_
    rw [Sheet.seen_view_settle (hg.imp id fun ha n hn hn' => hfree ha n hn' (mem_refs.mpr ⟨s, hs, hn⟩)),
      Sheet.view_congr fun n hn => keyAt_of_more hmore (h.of_sheet hs n hn)]
  refine ⟨.of_seen hsound hapart fun g hg => ?_, .of_seen ?_ ?_ fun g hg => ?_⟩
  · refine congrArg (fun layers => { d.rest with layers }) ?_
    simpa [view, Function.comp_def] using hseen g hg
  · intro n hn
    obtain ⟨s, hs, hn⟩ := mem_refs.mp hn
    rcases List.mem_append.mp hs with hs | hs
    · exact hsound n (mem_refs.mpr ⟨s, hs, hn⟩)
    · rw [List.mem_singleton.mp hs] at hn
      exact hlength ▸ hmade n (Sheet.mem_refs_sorted.mp hn)
  · intro ha
    rw [Apart, List.map_append]
    refine List.pairwise_append.mpr ⟨hapart ha, List.pairwise_singleton _ _, ?_⟩
    intro refs hrefs other hother n hn hn'
    obtain ⟨s, hs, rfl⟩ := List.mem_map.mp hrefs
    rw [List.mem_singleton.mp hother] at hn'
    exact hfree ha n (Sheet.mem_refs_sorted.mp hn') (mem_refs.mpr ⟨s, hs, hn⟩)
  · refine congrArg (fun layers => { d.rest with layers }) ?_
    simpa [view, Function.comp_def, Sheet.view_settle hfiled hmade] using hseen g hg

theorem shows_addLayer (h : d.Sound) (name : Datum) (options : List (Datum × Datum))
    (keys? : Option (List (Position × Given))) :
    Shows (d.Apart ∧ (keys?.getD []).any (fun entry => entry.2.isHeldBy d.refs) = false)
      (d.addLayer name options keys?).1
      (d.view.perform ((Edit.addLayer name options keys?).map (·.value d.keys))).1 ∧
    (d.addLayer name options keys?).2 =
      (d.view.perform ((Edit.addLayer name options keys?).map (·.value d.keys))).2 := by
  have htwice : isGivenTwice options (keys?.map fun keys =>
      keys.map fun entry => (entry.1, entry.2.value d.keys)) = isGivenTwice options keys? := by
    cases keys? <;> rfl
  simp only [addLayer, Edit.map, Layout.perform, Layout.edited, Layout.appendLayer, Layout.newLayer,
    htwice]
  split
  · exact ⟨.of_view h And.left rfl, rfl⟩
  cases hdraft : d.view.draftLayer name options (keys?.map fun keys =>
      keys.map fun entry => (entry.1, entry.2.value d.keys)) with
  | faults issues => exact ⟨.of_view h And.left rfl, rfl⟩
  | ok draft =>
    simp only [Datum.Verdict.andThen]
    cases hchecked : draft.checkKeys with
    | faults issues => exact ⟨.of_view h And.left rfl, rfl⟩
    | ok layer =>
      obtain ⟨-, hnodup, hgiven⟩ := Layout.draftLayer_eq_ok hdraft
      obtain ⟨rfl, hfiled⟩ := Layer.filed_of_checkKeys hchecked hnodup
      cases htaken : Given.takeAll d.keys.length d.keys (Given.ofDraft draft keys?) with
      | mk cells more =>
      obtain ⟨hmore, hmade, hcells, hfree⟩ := Given.takeAll_spec List.prefix_rfl htaken
      rw [Given.value_ofDraft fun keys hkeys => hgiven _ (by rw [hkeys]; rfl)] at hcells
      have hsheet : (Sheet.mk { draft with keys := [] } cells).view more = draft :=
        congrArg (fun keys => { draft with keys }) hcells
      have hadded := shows_addSheet ⟨{ draft with keys := [] }, cells⟩
        (A := d.Apart ∧ (keys?.getD []).any (fun entry => entry.2.isHeldBy d.refs) = false) h hmore
        (hsheet ▸ hfiled) (List.forall_mem_map.mpr hmade) And.left fun ha =>
          List.forall_mem_map.mpr (hfree d.refs h (Given.isHeldBy_ofDraft ha.2))
      rw [hsheet] at hadded
      dsimp only
      cases hlayer : d.view.addLayer draft.arranged with
      | error e => exact ⟨hadded.1, rfl⟩
      | ok changed =>
        obtain ⟨rfl, -⟩ := Layout.addLayer_eq_ok_iff.mp hlayer
        exact ⟨hadded.2, rfl⟩

theorem keyAt_foldl_modify {f : Key → Key} (hf : ∀ key, f (f key) = f key) (refs : List Nat)
    (hn : n < keys.length) : keyAt (refs.foldl (fun keys n => keys.modify n f) keys) n =
      if n ∈ refs then f (keyAt keys n) else keyAt keys n := by
  induction refs generalizing keys with
  | nil => rfl
  | cons m refs ih =>
    rw [List.foldl_cons, ih (by rwa [List.length_modify])]
    by_cases hm : m = n
    · subst hm
      simp [keyAt_modify_self f hn, hf]
    · simp [keyAt_modify_of_ne f hm, Ne.symm hm]

theorem length_foldl_modify (f : Key → Key) (refs : List Nat) (keys : List Key) :
    (refs.foldl (fun keys n => keys.modify n f) keys).length = keys.length := by
  induction refs generalizing keys with
  | nil => rfl
  | cons n refs ih => rw [List.foldl_cons, ih, List.length_modify]

theorem Sound.changeKeys (h : d.Sound) (f : Key → Key) : (d.changeKeys f).Sound := by
  intro n hn
  rw [Desk.changeKeys, length_foldl_modify]
  exact h n hn

/-- A change of all keys that makes no difference the second time is one of each key, though keys that
are shared are changed more than once. -/
theorem view_changeKeys (h : d.Sound) {f : Key → Key} (hf : ∀ key, f (f key) = f key) :
    (d.changeKeys f).view = d.view.seen f := by
  refine congrArg (fun layers => { d.rest with layers }) ?_
  rw [view, List.map_map]
  refine List.map_congr_left fun s hs => ?_
  have hcells : s.cells.map (fun cell => (cell.1, keyAt (d.changeKeys f).keys cell.2)) =
      (s.view d.keys).keys.map fun entry => (entry.1, f entry.2) := by
    rw [Sheet.view, List.map_map]
    refine List.map_congr_left fun cell hcell => ?_
    have hmem : cell.2 ∈ d.refs := mem_refs.mpr ⟨s, hs, List.mem_map_of_mem hcell⟩
    rw [changeKeys, keyAt_foldl_modify hf _ (h _ hmem), if_pos hmem]
    rfl
  exact congrArg (fun keys => { s.layer with keys }) hcells

theorem shows_bindLights (h : d.Sound) (c : Coordinates) :
    Shows d.Apart (d.changeKeys fun key => { key with light? := c.lightOf? key.position })
      (d.view.bindLights c) :=
  .of_view (h.changeKeys _) id (view_changeKeys h fun _ => rfl)

section Sheets

variable {sheets : List Sheet} (hrefs : (sheets.map Sheet.refs).Sublist (d.sheets.map Sheet.refs))

include hrefs

theorem Sound.withSheets (h : d.Sound) (rest : Layout) : Desk.Sound { d with rest, sheets } := by
  intro n hn
  obtain ⟨refs, hmem, hn⟩ := List.mem_flatten.mp hn
  exact h n (List.mem_flatten.mpr ⟨refs, hrefs.subset hmem, hn⟩)

theorem Apart.withSheets (h : d.Apart) (rest : Layout) : Desk.Apart { d with rest, sheets } :=
  List.Pairwise.sublist hrefs h

end Sheets

theorem shows_removeCategory (h : d.Sound) (name : String) :
    Shows d.Apart (d.removeCategory name) (d.view.removeCategory name).2 := by
  unfold removeCategory Layout.removeCategory
  rw [show d.view.category? name = d.rest.category? name from rfl]
  cases d.rest.category? name with
  | none => exact .of_view h id rfl
  | some category =>
    have hrefs : ((d.sheets.map fun s => { s with
        layer := { s.layer with category? := Layout.forget name s.layer.category? } }).map
          Sheet.refs).Sublist (d.sheets.map Sheet.refs) := by
      rw [List.map_map]
      exact .refl _
    have hforget : ∀ key, Layout.forgetInKey name (Layout.forgetInKey name key) =
        Layout.forgetInKey name key := by
      intro key
      have hforget : Layout.forget name (Layout.forget name key.category?) =
          Layout.forget name key.category? := by
        unfold Layout.forget
        split <;> simp_all
      exact congrArg (fun category? => { key with category? }) hforget
    refine .of_view ((h.withSheets hrefs _).changeKeys _) (fun ha => ha.withSheets hrefs d.rest) ?_
    rw [view_changeKeys (h.withSheets hrefs _) hforget]
    refine congrArg (fun layers => { d.rest with
      categories := d.rest.categories.erase category, layers }) ?_
    simp only [view, List.map_map]
    rfl

theorem shows_removeLayer (h : d.Sound) (index : Int) :
    Shows d.Apart (d.removeLayer index).1 (d.view.perform (.removeLayer index)).1 ∧
      (d.removeLayer index).2 = (d.view.perform (.removeLayer index)).2 := by
  simp only [removeLayer, Layout.perform, Layout.edited]
  cases hremoved : d.view.removeLayer index with
  | error e => exact ⟨.of_view h id rfl, rfl⟩
  | ok removed =>
    obtain ⟨-, -, hchanged⟩ := Layout.removeLayer_eq_ok hremoved
    have hrefs : (((d.sheets.eraseIdx index.toNat).mapIdx fun n s =>
        { s with layer := { s.layer with index := (n : Int) } }).map Sheet.refs).Sublist
          (d.sheets.map Sheet.refs) := by
      have hsame : ((d.sheets.eraseIdx index.toNat).mapIdx fun n s =>
          { s with layer := { s.layer with index := (n : Int) } }).map Sheet.refs =
            (d.sheets.eraseIdx index.toNat).map Sheet.refs := by
        refine List.ext_getElem? fun i => ?_
        rw [List.getElem?_map, List.getElem?_mapIdx, List.getElem?_map, Option.map_map]
        rfl
      rw [hsame]
      exact (List.eraseIdx_sublist d.sheets index.toNat).map Sheet.refs
    refine ⟨.of_view (h.withSheets hrefs d.rest) (fun ha => ha.withSheets hrefs d.rest) ?_, rfl⟩
    refine Eq.trans ?_ hchanged.symm
    refine congrArg (fun layers => { d.rest with layers }) (List.ext_getElem? fun i => ?_)
    rw [List.getElem?_map, List.getElem?_mapIdx, Option.map_map, Layout.renumber, List.getElem?_mapIdx,
      view, List.eraseIdx_map, List.getElem?_map, Option.map_map]
    rfl

theorem shows_changeRest (h : d.Sound) {changed : Except EditError Layout} (edit : Edit Key)
    (hedited : d.view.edited edit = changed.map fun rest => { rest with layers := d.view.layers }) :
    Shows d.Apart (d.changeRest changed).1 (d.view.perform edit).1 ∧
      (d.changeRest changed).2 = (d.view.perform edit).2 := by
  rw [Layout.perform, hedited]
  cases changed with
  | error e => exact ⟨.of_view h id rfl, rfl⟩
  | ok rest => exact ⟨.of_view h id rfl, rfl⟩

/-- A step on a desk comes to the step on the layout it shows, and is refused if that is. -/
theorem shows_perform (h : d.Sound) (hplaced : ∀ layer ∈ d.view.layers, Layer.Placed layer.keys)
    (edit : Edit Given) :
    Shows (d.Apart ∧ d.shares edit = false) (d.perform edit).1
        (d.view.perform (edit.map (·.value d.keys))).1 ∧
      (d.perform edit).2 = (d.view.perform (edit.map (·.value d.keys))).2 := by
  cases edit with
  | addLayer name options keys? => exact shows_addLayer h name options keys?
  | removeLayer index =>
    obtain ⟨hshows, hrefused⟩ := shows_removeLayer h index
    exact ⟨hshows.imp And.left, hrefused⟩
  | addCategory category =>
    have hadded : d.view.addCategory category =
        (d.rest.addCategory category).map fun rest => { rest with layers := d.view.layers } := by
      unfold Layout.addCategory
      rw [show d.view.category? category.id = d.rest.category? category.id from rfl]
      split <;> rfl
    obtain ⟨hshows, hrefused⟩ := shows_changeRest h (.addCategory category) hadded
    exact ⟨hshows.imp And.left, hrefused⟩
  | removeCategory id => exact ⟨(shows_removeCategory h id).imp And.left, rfl⟩
  | addTapDance tapDance =>
    have hadded : d.view.addTapDance tapDance =
        (d.rest.addTapDance tapDance).map fun rest => { rest with layers := d.view.layers } := by
      unfold Layout.addTapDance
      rw [show d.view.tapDances = d.rest.tapDances from rfl]
      split <;> rfl
    obtain ⟨hshows, hrefused⟩ := shows_changeRest h (.addTapDance tapDance) hadded
    exact ⟨hshows.imp And.left, hrefused⟩
  | bindLights coordinates => exact ⟨(shows_bindLights h coordinates).imp And.left, rfl⟩
  | setKey place given => exact ⟨shows_setKey h hplaced place given, rfl⟩
  | removeKey place p => exact ⟨(shows_removeKey h hplaced place p).imp And.left, rfl⟩

end Desk

/-! ### What does not depend on slots -/

namespace Layout

variable {l other : Layout} {g : Key → Key}

theorem Kept.of_seen_eq (h : other.Structured)
    (hseen : l.seen Key.unslotted = other.seen Key.unslotted) : l.Structured := by
  have hother : (l.seen Key.unslotted).Structured :=
    hseen ▸ h.mapLayers (f := Layer.seen Key.unslotted) (fun _ => ⟨rfl, rfl⟩)
      fun _ hkeys => hkeys.map fun _ => rfl
  have hindex : l.layers.map Layer.index = (l.seen Key.unslotted).layers.map Layer.index := by
    rw [seen, List.map_map]
    rfl
  have hid : l.layers.map Layer.id? = (l.seen Key.unslotted).layers.map Layer.id? := by
    rw [seen, List.map_map]
    rfl
  refine hother.withLayers hindex hid fun layer hlayer => ?_
  obtain ⟨hown, hincreasing⟩ := hother.keys _ (List.mem_map_of_mem hlayer)
  refine ⟨fun entry hentry => ?_, List.pairwise_map.mp hincreasing⟩
  exact hown (entry.1, entry.2.unslotted) (List.mem_map.mpr ⟨entry, hentry, rfl⟩)

theorem Resolved.of_seen_eq (h : other.Resolved)
    (hseen : l.seen Key.unslotted = other.seen Key.unslotted) : l.Resolved := by
  have hiff : ∀ l : Layout, (l.seen Key.unslotted).Resolved ↔ l.Resolved := by
    intro l
    have hids : ∀ layer : Layer, (layer.seen Key.unslotted).categoryIds = layer.categoryIds := by
      intro layer
      rw [Layer.categoryIds, Layer.seen, List.filterMap_map]
      rfl
    simp only [resolved_iff, seen, List.forall_mem_map, hids]
  exact (hiff l).mp (hseen ▸ (hiff other).mpr h)

end Layout

/-! ### The desk of a layout -/

theorem Sheet.refs_ofLayers (first : Nat) (layers : List Layer) :
    (ofLayers first layers).flatMap refs =
      List.range' first (layers.flatMap fun layer => layer.keys.map Prod.snd).length := by
  induction layers generalizing first with
  | nil => rfl
  | cons layer layers ih =>
    have hrefs : (layer.keys.mapIdx fun i entry => (entry.1, first + i)).map Prod.snd =
        List.range' first layer.keys.length := by
      refine List.ext_getElem (by simp) fun i _ _ => ?_
      simp
    rw [ofLayers, List.flatMap_cons, ih, List.flatMap_cons, List.length_append, List.length_map,
      ← List.range'_append_1, ← hrefs]
    rfl

theorem Sheet.view_ofLayers (before : List Key) (layers : List Layer) :
    (ofLayers before.length layers).map
      (view (before ++ layers.flatMap fun layer => layer.keys.map Prod.snd)) = layers := by
  induction layers generalizing before with
  | nil => rfl
  | cons layer layers ih =>
    have hrest := ih (before ++ layer.keys.map Prod.snd)
    rw [List.append_assoc, List.length_append, List.length_map] at hrest
    have hkeys : (layer.keys.mapIdx fun i entry => (entry.1, before.length + i)).map (fun cell =>
        (cell.1, keyAt (before ++ (layer.keys.map Prod.snd ++
          layers.flatMap fun layer => layer.keys.map Prod.snd)) cell.2)) = layer.keys := by
      refine List.ext_getElem (by simp) fun i _ hi => ?_
      simp [keyAt, List.getElem?_append_right, List.getElem?_append_left, hi]
    rw [ofLayers, List.map_cons, List.flatMap_cons, hrest]
    exact congrArg (fun keys => { layer with keys } :: layers) hkeys

namespace Desk

theorem view_ofLayout (l : Layout) : (ofLayout l).view = l :=
  congrArg (fun layers => { l with layers }) (Sheet.view_ofLayers [] l.layers)

theorem sound_ofLayout (l : Layout) : (ofLayout l).Sound := by
  intro n hn
  rw [refs, ofLayout, Sheet.refs_ofLayers, List.mem_range'_1] at hn
  rw [Nat.zero_add] at hn
  exact hn.2

theorem apart_ofLayout (l : Layout) : (ofLayout l).Apart := by
  have hnodup : (ofLayout l).refs.Nodup := by
    rw [refs, ofLayout, Sheet.refs_ofLayers]
    exact List.nodup_range'
  exact (List.nodup_flatten.mp hnodup).2

/-! ### Sessions -/

variable {d : Desk} {edit : Edit Given} {edits : List (Edit Given)}

def NamesKnown (d : Desk) (edit : Edit Given) : Prop :=
  d.view.NamesKnown (edit.map (·.value d.keys))

instance (d : Desk) (edit : Edit Given) : Decidable (d.NamesKnown edit) :=
  inferInstanceAs (Decidable (d.view.NamesKnown _))

/-- Each step of a session is as `P` says of the desk it is taken on. -/
def Along (P : Desk → Edit Given → Prop) : Desk → List (Edit Given) → Prop
  | _, [] => True
  | d, edit :: edits => P d edit ∧ Along P (d.perform edit).1 edits

instance decidableAlong (P : Desk → Edit Given → Prop) [∀ d edit, Decidable (P d edit)] :
    ∀ (d : Desk) (edits : List (Edit Given)), Decidable (Along P d edits)
  | _, [] => .isTrue trivial
  | d, edit :: edits =>
    have := decidableAlong P (d.perform edit).1 edits
    inferInstanceAs (Decidable (P d edit ∧ Along P (d.perform edit).1 edits))

/-- A step gives no layer a key that another layer has. -/
def Unshared (d : Desk) (edit : Edit Given) : Prop := d.shares edit = false

instance (d : Desk) (edit : Edit Given) : Decidable (d.Unshared edit) :=
  inferInstanceAs (Decidable (_ = _))

section Step

variable (hsound : d.Sound) (h : d.view.Structured)

include hsound h

theorem structured_perform (edit : Edit Given) :
    (d.perform edit).1.Sound ∧ (d.perform edit).1.view.Structured := by
  obtain ⟨hshows, -⟩ := shows_perform hsound h.keys edit
  exact ⟨hshows.sound, (h.perform Layer.stable_placed _).of_seen_eq hshows.unslotted⟩

theorem resolved_perform (hresolved : d.view.Resolved) (hknown : d.NamesKnown edit) :
    (d.perform edit).1.view.Resolved :=
  (hresolved.perform hknown).of_seen_eq (shows_perform hsound h.keys edit).1.unslotted

theorem orderly_perform (horderly : d.view.Orderly) (hapart : d.Apart)
    (hunshared : d.Unshared edit) :
    (d.perform edit).1.view.Orderly ∧ (d.perform edit).1.Apart := by
  obtain ⟨hshows, -⟩ := shows_perform hsound h.keys edit
  refine ⟨?_, hshows.apart ⟨hapart, hunshared⟩⟩
  rw [hshows.exact ⟨hapart, hunshared⟩]
  exact horderly.perform Layer.stable_inOrder _

/-- A step that is refused leaves what the desk shows, but for the slots of keys that are shared. -/
theorem view_perform_of_refused {e : EditError} (hrefused : (d.perform edit).2 = some e) :
    (d.perform edit).1.view.seen Key.unslotted = d.view.seen Key.unslotted ∧
      (d.Apart → d.Unshared edit → (d.perform edit).1.view = d.view) := by
  obtain ⟨hshows, hsame⟩ := shows_perform hsound h.keys edit
  have hleft := Layout.perform_of_refused (hsame ▸ hrefused)
  rw [hleft] at hshows
  exact ⟨hshows.unslotted, fun hapart hunshared => hshows.exact ⟨hapart, hunshared⟩⟩

end Step

theorem structured_session (hsound : d.Sound) (h : d.view.Structured) (edits : List (Edit Given)) :
    (d.session edits).Sound ∧ (d.session edits).view.Structured := by
  induction edits generalizing d with
  | nil => exact ⟨hsound, h⟩
  | cons edit edits ih =>
    obtain ⟨hsound, h⟩ := structured_perform hsound h edit
    exact ih hsound h

theorem resolved_session (hsound : d.Sound) (h : d.view.Structured) (hresolved : d.view.Resolved)
    (hknown : d.Along NamesKnown edits) : (d.session edits).view.Resolved := by
  induction edits generalizing d with
  | nil => exact hresolved
  | cons edit edits ih =>
    obtain ⟨hsound', h'⟩ := structured_perform hsound h edit
    exact ih hsound' h' (resolved_perform hsound h hresolved hknown.1) hknown.2

theorem orderly_session (hsound : d.Sound) (h : d.view.Structured) (horderly : d.view.Orderly)
    (hapart : d.Apart) (hunshared : d.Along Unshared edits) :
    (d.session edits).view.Orderly ∧ (d.session edits).Apart := by
  induction edits generalizing d with
  | nil => exact ⟨horderly, hapart⟩
  | cons edit edits ih =>
    obtain ⟨hsound', h'⟩ := structured_perform hsound h edit
    obtain ⟨horderly', hapart'⟩ := orderly_perform hsound h horderly hapart hunshared.1
    exact ih hsound' h' horderly' hapart' hunshared.2

/-- Two layers are added and the first of them is removed again, as is the category. -/
def letterSession : List (Edit Given) := [
  .addLayer (.text "Nav") [(.text "id", .text "nav"), (.text "category_id", .text "letters")],
  .addLayer (.text "Fun") [(.text "category_id", .text "letters")],
  .setKey 0 (.fresh { keycode := "KC_A", position := ⟨0, 0⟩, category? := some "letters" }),
  .addCategory { id := "letters", name := "Others", color := default },
  .removeLayer 1,
  .removeLayer 0,
  .removeCategory "letters",
  .removeKey 0 ⟨0, 1⟩]

/-- A second layer, with a key of its own. -/
def navLayout : Layout := { Layout.letterLayout with
  layers := Layout.letterLayout.layers ++ [{ index := 1, name := "Nav", keys :=
    [(⟨0, 0⟩, { keycode := "KC_A", position := ⟨0, 0⟩ })] }] }

/-- A key that is on two layers: where it is given to the second one, whose last key it becomes, the
slots of the first one are wrong. -/
theorem slots_setKey_of_held :
    ((ofLayout navLayout).perform (.setKey 1 (.held 0))).1.view.layers.map
      (fun layer => layer.keys.map fun entry => entry.2.slot) = [[1], [0, 1]] := by
  let nav : Sheet := ⟨{ index := 1, name := "Nav" }, [(⟨0, 0⟩, 1), (⟨0, 1⟩, 0)]⟩
  have hsorted : nav.sorted = nav := Sheet.sorted_eq_self (by decide)
  have hnav : (ofLayout navLayout).sheets[1]? =
      some ⟨{ index := 1, name := "Nav" }, [(⟨0, 0⟩, 1)]⟩ := rfl
  have hchanged : ((ofLayout navLayout).perform (.setKey 1 (.held 0))).1 =
      { ofLayout navLayout with
        sheets := (ofLayout navLayout).sheets.set 1 nav.sorted
        keys := nav.settle (ofLayout navLayout).keys } :=
    changeSheet_of_some (f := fun s => { s with cells := Pairs.put ⟨0, 1⟩ 0 s.cells }) hnav
  rw [hchanged, Sheet.settle, hsorted]
  rfl

end Desk

end Keyforge
