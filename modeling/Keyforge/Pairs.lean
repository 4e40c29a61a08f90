/-!
# Ordered pairs

Names with values in the order in which the names first came up. A list of pairs is looked up from
its start; `put` keeps every name once. Whether names differ is decided by `allDistinct`.
-/

namespace Keyforge

theorem forall_mem_concat {P : α → Prop} {as : List α} {a : α} :
    (∀ x ∈ as ++ [a], P x) ↔ (∀ x ∈ as, P x) ∧ P a := by
  rw [List.forall_mem_append, List.forall_mem_singleton]

namespace Pairs

variable {α : Type u} {β : Type v} [BEq α]

def put (name : α) (value : β) : List (α × β) → List (α × β)
  | [] => [(name, value)]
  | (n, v) :: rest => if n == name then (n, value) :: rest else (n, v) :: put name value rest

def putAll (pairs : List (α × β)) (items : List (α × β)) : List (α × β) :=
  items.foldl (fun acc (name, value) => put name value acc) pairs

/-- The pairs of a list, the last value of each name at the place of its first. -/
def ofList (items : List (α × β)) : List (α × β) := putAll [] items

def get? (name : α) (pairs : List (α × β)) : Option β := pairs.lookup name

def has (name : α) (pairs : List (α × β)) : Bool := pairs.any fun (n, _) => n == name

def erase (name : α) (pairs : List (α × β)) : List (α × β) :=
  pairs.filter fun (n, _) => !(n == name)

theorem put_nil (name : α) (value : β) : put name value [] = [(name, value)] := rfl

theorem put_cons (name : α) (value : β) (pair : α × β) (rest : List (α × β)) :
    put name value (pair :: rest) =
      if pair.1 == name then (pair.1, value) :: rest else pair :: put name value rest := rfl

theorem lookup_map_snd {γ : Type w} (f : β → γ) (name : α) (pairs : List (α × β)) :
    (pairs.map fun pair => (pair.1, f pair.2)).lookup name = (pairs.lookup name).map f := by
  induction pairs with
  | nil => rfl
  | cons pair pairs ih =>
    rw [List.map_cons, List.lookup_cons, List.lookup_cons, ih]
    cases name == pair.1 <;> rfl

section Lawful

variable [LawfulBEq α]

theorem put_eq_append {name : α} {value : β} {pairs : List (α × β)}
    (h : ∀ p ∈ pairs, p.1 ≠ name) : put name value pairs = pairs ++ [(name, value)] := by
  induction pairs with
  | nil => rfl
  | cons p rest ih =>
    have hp : ¬(p.1 == name) = true := by simpa using h p List.mem_cons_self
    rw [put_cons, if_neg hp, ih (List.forall_mem_cons.mp h).2, List.cons_append]

theorem mem_put {name : α} {value : β} {pairs : List (α × β)} {p : α × β}
    (h : p ∈ put name value pairs) : p = (name, value) ∨ p ∈ pairs := by
  induction pairs with
  | nil => exact .inl (List.mem_singleton.mp h)
  | cons q rest ih =>
    rw [put_cons] at h
    split at h
    next hq =>
      rcases List.mem_cons.mp h with rfl | h
      · exact .inl (by rw [beq_iff_eq.mp hq])
      · exact .inr (List.mem_cons_of_mem q h)
    next =>
      rcases List.mem_cons.mp h with rfl | h
      · exact .inr List.mem_cons_self
      · rcases ih h with h | h
        · exact .inl h
        · exact .inr (List.mem_cons_of_mem q h)

theorem mem_map_fst_put {name other : α} {value : β} {pairs : List (α × β)} :
    other ∈ (put name value pairs).map Prod.fst ↔ other = name ∨ other ∈ pairs.map Prod.fst := by
  induction pairs with
  | nil => simp [put_nil]
  | cons q rest ih =>
    rw [put_cons]
    split
    next hq =>
      rw [← beq_iff_eq.mp hq]
      simp
    next => simp only [List.map_cons, List.mem_cons, ih, or_left_comm]

theorem has_iff_mem {name : α} {pairs : List (α × β)} :
    has name pairs = true ↔ name ∈ pairs.map Prod.fst := by
  rw [has, List.any_eq_true, List.mem_map]
  exact exists_congr fun pair => and_congr_right fun _ => beq_iff_eq

theorem nodup_put {name : α} {value : β} {pairs : List (α × β)} (h : (pairs.map Prod.fst).Nodup) :
    ((put name value pairs).map Prod.fst).Nodup := by
  induction pairs with
  | nil => simp [put_nil]
  | cons q rest ih =>
    rw [List.map_cons, List.nodup_cons] at h
    rw [put_cons]
    split
    · exact List.nodup_cons.mpr h
    next hq =>
      refine List.nodup_cons.mpr ⟨fun hmem => ?_, ih h.2⟩
      obtain ⟨p, hp, hpq⟩ := List.mem_map.mp hmem
      rcases mem_put hp with rfl | hp
      · exact hq (by simpa using hpq.symm)
      · exact h.1 (hpq ▸ List.mem_map_of_mem hp)

theorem nodup_ofList (items : List (α × β)) : ((ofList items).map Prod.fst).Nodup :=
  List.foldlRecOn (motive := fun pairs : List (α × β) => (pairs.map Prod.fst).Nodup) items _
    List.nodup_nil fun _ hpairs _ _ => nodup_put hpairs

theorem putAll_eq_append {pairs items : List (α × β)} (hitems : (items.map Prod.fst).Nodup)
    (h : ∀ p ∈ pairs, p.1 ∉ items.map Prod.fst) : putAll pairs items = pairs ++ items := by
  induction items generalizing pairs with
  | nil => simp [putAll]
  | cons item items ih =>
    rw [List.map_cons, List.nodup_cons] at hitems
    have hput : put item.1 item.2 pairs = pairs ++ [item] :=
      put_eq_append fun p hp hname => h p hp (by rw [hname]; exact List.mem_cons_self)
    have hstep : putAll pairs (item :: items) = putAll (pairs ++ [item]) items := by
      rw [← hput]
      rfl
    rw [hstep, ih hitems.2, List.append_assoc]
    · rfl
    · exact forall_mem_concat.mpr
        ⟨fun p hp hmem => h p hp (List.mem_cons_of_mem _ hmem), hitems.1⟩

theorem mem_of_lookup {name : α} {value : β} {pairs : List (α × β)}
    (h : pairs.lookup name = some value) : (name, value) ∈ pairs := by
  obtain ⟨before, after, rfl, -⟩ := List.lookup_eq_some_iff.mp h
  exact List.mem_append_right before List.mem_cons_self

theorem exists_lookup_of_has {name : α} {pairs : List (α × β)} (h : has name pairs = true) :
    ∃ value, pairs.lookup name = some value := by
  cases hvalue : pairs.lookup name with
  | some value => exact ⟨value, rfl⟩
  | none =>
    obtain ⟨pair, hpair, hname⟩ := List.any_eq_true.mp h
    have hne := List.lookup_eq_none_iff.mp hvalue pair hpair
    rw [beq_iff_eq.mp hname, bne_self_eq_false] at hne
    cases hne

theorem lookup_eq_some_iff {name : α} {value : β} {pairs : List (α × β)}
    (h : (pairs.map Prod.fst).Nodup) :
    pairs.lookup name = some value ↔ (name, value) ∈ pairs := by
  induction pairs with
  | nil => simp
  | cons q rest ih =>
    rw [List.map_cons, List.nodup_cons] at h
    obtain ⟨n, v⟩ := q
    rw [List.lookup_cons]
    by_cases hn : name = n
    · subst hn
      have hrest : (name, value) ∉ rest := fun hmem =>
        h.1 (List.mem_map.mpr ⟨(name, value), hmem, rfl⟩)
      simp [hrest, eq_comm]
    · have hne : (name == n) = false := by simpa using hn
      simp [hne, ih h.2, hn]

theorem lookup_cons_of_ne {name n : α} (hn : n ≠ name) (v : β) {found? : Option β} {other : α}
    {pairs rest : List (α × β)}
    (h : rest.lookup other = if other == name then found? else pairs.lookup other) :
    ((n, v) :: rest).lookup other = if other == name then found? else ((n, v) :: pairs).lookup other := by
  rw [List.lookup_cons, List.lookup_cons, h]
  cases hother : other == n with
  | false => rfl
  | true =>
    have hne : (other == name) = false := by
      rw [beq_iff_eq.mp hother]
      exact beq_false_of_ne hn
    rw [hne]
    rfl

/-- What is put under a name is found there, and the rest as before. -/
theorem lookup_put (name other : α) (value : β) (pairs : List (α × β)) :
    (put name value pairs).lookup other =
      if other == name then some value else pairs.lookup other := by
  induction pairs with
  | nil =>
    rw [put_nil, List.lookup_cons]
    cases other == name <;> rfl
  | cons pair rest ih =>
    obtain ⟨n, v⟩ := pair
    rw [put_cons]
    dsimp only
    split
    next hn =>
      rw [beq_iff_eq.mp hn, List.lookup_cons, List.lookup_cons]
      cases other == name <;> rfl
    next hn => exact lookup_cons_of_ne (by simpa using hn) v ih

theorem lookup_erase (name other : α) (pairs : List (α × β)) :
    (erase name pairs).lookup other = if other == name then none else pairs.lookup other := by
  induction pairs with
  | nil =>
    cases other == name <;> rfl
  | cons pair rest ih =>
    obtain ⟨n, v⟩ := pair
    rw [erase] at ih ⊢
    rw [List.filter_cons]
    by_cases hn : n = name
    · subst hn
      simp only [beq_self_eq_true, Bool.not_true, Bool.false_eq_true, if_false, ih, List.lookup_cons]
      cases other == n <;> rfl
    · rw [if_pos (by simpa using hn)]
      exact lookup_cons_of_ne hn v ih

end Lawful

end Pairs

/-! ### Distinct items -/

def allDistinct [BEq α] : List α → Bool
  | [] => true
  | a :: rest => !rest.contains a && allDistinct rest

theorem allDistinct_iff_nodup [BEq α] [LawfulBEq α] {as : List α} :
    allDistinct as = true ↔ as.Nodup := by
  induction as with
  | nil => simp [allDistinct]
  | cons a rest ih => simp [allDistinct, ih]

end Keyforge
