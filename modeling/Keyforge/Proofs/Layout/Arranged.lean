import Keyforge.Layout.Edit
import Keyforge.Proofs.Board.Position

/-!
# Arranged keys

The keys of a layer are stored under their own positions, in reading order, and their slots count
them (`Layer.InOrder`).
-/

namespace Keyforge.Layer

variable {keys : List (Position × Key)}

/-! ### Numbering -/

theorem numberFrom_cons (n : Nat) (entry : Position × Key) (keys : List (Position × Key)) :
    numberFrom n (entry :: keys) =
      (entry.1, { entry.2 with slot := (n : Int) }) :: numberFrom (n + 1) keys := rfl

theorem numberFrom_append (n : Nat) (keys more : List (Position × Key)) :
    numberFrom n (keys ++ more) = numberFrom n keys ++ numberFrom (n + keys.length) more := by
  induction keys generalizing n with
  | nil => rfl
  | cons entry keys ih =>
    rw [List.cons_append, numberFrom_cons, ih, numberFrom_cons, List.length_cons, List.cons_append,
      Nat.add_assoc, Nat.add_comm 1]

theorem map_fst_numberFrom (n : Nat) (keys : List (Position × Key)) :
    (numberFrom n keys).map Prod.fst = keys.map Prod.fst := by
  induction keys generalizing n with
  | nil => rfl
  | cons entry keys ih => rw [numberFrom_cons, List.map_cons, ih, List.map_cons]

@[simp] theorem length_numberFrom (n : Nat) (keys : List (Position × Key)) :
    (numberFrom n keys).length = keys.length := by
  rw [← List.length_map (f := Prod.fst), map_fst_numberFrom, List.length_map]

theorem mem_numberFrom {n : Nat} {p : Position} {key : Key} (h : (p, key) ∈ numberFrom n keys) :
    ∃ original slot, (p, original) ∈ keys ∧ key = { original with slot := slot } := by
  induction keys generalizing n with
  | nil => cases h
  | cons entry keys ih =>
    rw [numberFrom_cons] at h
    rcases List.mem_cons.mp h with h | h
    · cases h
      exact ⟨entry.2, n, List.mem_cons_self, rfl⟩
    · obtain ⟨original, slot, hmem, rfl⟩ := ih h
      exact ⟨original, slot, List.mem_cons_of_mem entry hmem, rfl⟩

theorem numberFrom_map {f : Position → Key → Key}
    (hf : ∀ p key slot, f p { key with slot } = { f p key with slot }) (n : Nat)
    (keys : List (Position × Key)) :
    numberFrom n (keys.map fun (p, key) => (p, f p key)) =
      (numberFrom n keys).map fun (p, key) => (p, f p key) := by
  induction keys generalizing n with
  | nil => rfl
  | cons entry keys ih =>
    rw [List.map_cons, numberFrom_cons, numberFrom_cons, List.map_cons, ih]
    exact congrArg (fun key => (entry.1, key) :: _) (hf entry.1 entry.2 n).symm

theorem slot_of_getElem?_numberFrom {n i : Nat} {entry : Position × Key}
    (h : (numberFrom n keys)[i]? = some entry) : entry.2.slot = (n + i : Nat) := by
  induction keys generalizing n i with
  | nil => cases h
  | cons first keys ih =>
    rw [numberFrom_cons] at h
    cases i with
    | zero =>
      cases h
      rfl
    | succ i =>
      rw [ih h]
      omega

/-! ### Keys in order -/

/-- Keys are at different positions, each under its own. -/
structure Filed (keys : List (Position × Key)) : Prop where
  own : ∀ entry ∈ keys, entry.1 = entry.2.position
  nodup : (keys.map Prod.fst).Nodup

/-- Keys are stored under their own positions, in reading order. -/
structure Placed (keys : List (Position × Key)) : Prop where
  own : ∀ entry ∈ keys, entry.1 = entry.2.position
  increasing : keys.Pairwise fun a b => a.1.before b.1 = true

/-- Keys are stored under their own positions, in reading order, and their slots are their places in
that order. -/
structure InOrder (keys : List (Position × Key)) : Prop extends Placed keys where
  slots : ∀ (i : Nat) (entry : Position × Key), keys[i]? = some entry → entry.2.slot = i

theorem nodup_of_increasing (h : keys.Pairwise fun a b => a.1.before b.1 = true) :
    (keys.map Prod.fst).Nodup :=
  Position.Ascending.nodup (f := Prod.fst) h

theorem pairwise_before_mergeSort (h : (keys.map Prod.fst).Nodup) :
    (keys.mergeSort fun a b => a.1.atMost b.1).Pairwise fun a b => a.1.before b.1 = true := by
  have htrans : ∀ a b c : Position × Key, a.1.atMost b.1 = true → b.1.atMost c.1 = true →
      a.1.atMost c.1 = true := by
    intro a b c hab hbc
    rw [Position.atMost_iff] at *
    omega
  have htotal : ∀ a b : Position × Key, (a.1.atMost b.1 || b.1.atMost a.1) = true := by
    intro a b
    rw [Bool.or_eq_true, Position.atMost_iff, Position.atMost_iff]
    omega
  have hperm := List.mergeSort_perm keys fun a b => a.1.atMost b.1
  have hdistinct := List.pairwise_map.mp ((hperm.map Prod.fst).nodup_iff.mpr h)
  exact ((List.pairwise_mergeSort htrans htotal keys).and hdistinct).imp fun hab =>
    Position.before_of_atMost hab.1 hab.2

theorem mem_arrange {entry : Position × Key} (h : entry ∈ arrange keys) :
    ∃ original ∈ keys, ∃ slot, entry = (original.1, { original.2 with slot }) := by
  obtain ⟨p, key⟩ := entry
  obtain ⟨original, slot, hmem, rfl⟩ := mem_numberFrom h
  exact ⟨(p, original), (List.mergeSort_perm _ _).mem_iff.mp hmem, slot, rfl⟩

/-- Keys at different positions, each under its own, are in order when they are arranged. -/
theorem inOrder_arrange (h : Filed keys) : InOrder (arrange keys) := by
  refine { own := fun entry hentry => ?_, increasing := ?_, slots := fun i entry hentry => ?_ }
  · obtain ⟨original, hmem, slot, rfl⟩ := mem_arrange hentry
    exact h.own original hmem
  · have hfst : ((keys.mergeSort fun a b => a.1.atMost b.1).map Prod.fst).Pairwise
        fun p q => p.before q = true :=
      List.pairwise_map.mpr (pairwise_before_mergeSort h.nodup)
    rw [← map_fst_numberFrom 0] at hfst
    exact List.pairwise_map.mp hfst
  · rw [slot_of_getElem?_numberFrom hentry, Nat.zero_add]

theorem filed_of_checkKeys {given layer : Layer} (h : given.checkKeys = .ok layer)
    (hnodup : (given.keys.map Prod.fst).Nodup) : layer = given.arranged ∧ Filed given.keys := by
  unfold checkKeys at h
  split at h
  · cases h
  next hnone =>
    cases h
    refine ⟨rfl, fun entry hentry => ?_, hnodup⟩
    simpa using List.find?_eq_none.mp hnone entry hentry

namespace Placed

theorem map (h : Placed keys) {f : Key → Key} (hf : ∀ key, (f key).position = key.position) :
    Placed (keys.map fun entry => (entry.1, f entry.2)) := by
  refine { own := fun entry hentry => ?_, increasing := List.pairwise_map.mpr h.increasing }
  obtain ⟨original, hmem, rfl⟩ := List.mem_map.mp hentry
  exact (h.own original hmem).trans (hf original.2).symm

theorem filed_put (h : Placed keys) (key : Key) : Filed (Pairs.put key.position key keys) := by
  refine ⟨fun entry hentry => ?_, Pairs.nodup_put (nodup_of_increasing h.increasing)⟩
  rcases Pairs.mem_put hentry with rfl | hentry
  · rfl
  · exact h.own entry hentry

theorem filed_erase (h : Placed keys) (p : Position) : Filed (Pairs.erase p keys) := by
  have hsub : (Pairs.erase p keys).Sublist keys := List.filter_sublist
  exact ⟨fun entry hentry => h.own entry (hsub.subset hentry),
    (nodup_of_increasing h.increasing).sublist (hsub.map Prod.fst)⟩

theorem setKey {layer : Layer} (h : Placed layer.keys) (key : Key) :
    InOrder (layer.setKey key).keys :=
  inOrder_arrange (h.filed_put key)

theorem removeKey {layer : Layer} (h : Placed layer.keys) (p : Position) :
    InOrder (layer.removeKey p).keys :=
  inOrder_arrange (h.filed_erase p)

end Placed

/-- What the changes of a layout keep of the keys of its layers. -/
structure Stable (Q : List (Position × Key) → Prop) : Prop where
  of_inOrder : ∀ {keys}, InOrder keys → Q keys
  placed : ∀ {keys}, Q keys → Placed keys
  map : ∀ {keys} {f : Key → Key}, Q keys →
    (∀ key, (f key).position = key.position ∧ (f key).slot = key.slot) →
    Q (keys.map fun entry => (entry.1, f entry.2))

theorem stable_placed : Stable Placed where
  of_inOrder h := h.toPlaced
  placed h := h
  map h hf := h.map fun key => (hf key).1

theorem stable_inOrder : Stable InOrder where
  of_inOrder h := h
  placed h := h.toPlaced
  map {keys f} h hf :=
    { toPlaced := h.toPlaced.map fun key => (hf key).1
      slots := fun i entry hentry => by
        rw [List.getElem?_map, Option.map_eq_some_iff] at hentry
        obtain ⟨original, hmem, rfl⟩ := hentry
        exact (hf original.2).2.trans (h.slots i original hmem) }

end Keyforge.Layer
