import Keyforge.Datum.Issue

/-!
# Taking results apart

What is known of the steps of a computation that gave a value. A verdict accepts exactly if all its
parts do.
-/

namespace Keyforge

variable {α : Type u} {β : Type v} {ε : Type w}

/-! ### Computations that can fail -/

theorem bind_eq_ok_iff {β : Type u} {x : Except ε α} {f : α → Except ε β} {b : β} :
    x >>= f = .ok b ↔ ∃ a, x = .ok a ∧ f a = .ok b := by
  cases x <;> simp [bind, Except.bind]

theorem bind_eq_error_iff {β : Type u} {x : Except ε α} {f : α → Except ε β} {e : ε} :
    x >>= f = .error e ↔ x = .error e ∨ ∃ a, x = .ok a ∧ f a = .error e := by
  cases x <;> simp [bind, Except.bind]

theorem unit_bind_eq_ok_iff {β : Type u} {x : Except ε PUnit} {y : Except ε β} {b : β} :
    (x >>= fun _ => y) = .ok b ↔ x = .ok ⟨⟩ ∧ y = .ok b := by
  cases x <;> simp [bind, Except.bind]

theorem map_eq_ok_iff {x : Except ε α} {f : α → β} {b : β} :
    x.map f = .ok b ↔ ∃ a, x = .ok a ∧ f a = b := by
  cases x <;> simp [Except.map]

theorem map_map {γ : Type x} (x : Except ε α) (f : α → β) (g : β → γ) :
    (x.map f).map g = x.map fun a => g (f a) := by
  cases x <;> rfl

theorem mapError_eq_ok_iff {δ : Type x} {x : Except ε α} {f : ε → δ} {a : α} :
    x.mapError f = .ok a ↔ x = .ok a := by
  cases x with
  | error e => constructor <;> intro h <;> cases h
  | ok b => constructor <;> intro h <;> cases h <;> rfl

theorem toOption_eq_some_iff {x : Except ε α} {a : α} : x.toOption = some a ↔ x = .ok a := by
  cases x <;> simp [Except.toOption]

theorem mapM_eq_ok_map {β : Type v} {f : α → Except ε β} {value : α → β} {items : List α}
    (h : ∀ a ∈ items, f a = .ok (value a)) : items.mapM f = .ok (items.map value) := by
  induction items with
  | nil => rfl
  | cons a items ih =>
    rw [List.mapM_cons, h a List.mem_cons_self, ih (List.forall_mem_cons.mp h).2]
    rfl

theorem exists_mapM {β : Type v} {f : α → Except ε β} {items : List α}
    (h : ∀ a ∈ items, ∃ b, f a = .ok b) :
    ∃ results, items.mapM f = .ok results ∧ results.length = items.length := by
  induction items with
  | nil => exact ⟨[], rfl, rfl⟩
  | cons a items ih =>
    obtain ⟨b, hb⟩ := h a List.mem_cons_self
    obtain ⟨results, hresults, hlength⟩ := ih (List.forall_mem_cons.mp h).2
    refine ⟨b :: results, ?_, congrArg (· + 1) hlength⟩
    rw [List.mapM_cons, hb, hresults]
    rfl

/-- Either every item has a result, or one of them fails and everything with it. -/
theorem mapM_cases {β : Type v} (f : α → Except ε β) (items : List α) :
    (∀ a ∈ items, ∃ b, f a = .ok b) ∨ ∃ a ∈ items, ∃ e, f a = .error e ∧ items.mapM f = .error e := by
  induction items with
  | nil => exact .inl (List.forall_mem_nil _)
  | cons a items ih =>
    rw [List.mapM_cons]
    cases ha : f a with
    | error e => exact .inr ⟨a, List.mem_cons_self, e, ha, rfl⟩
    | ok b =>
      rcases ih with hall | ⟨a', ha', e, he, hitems⟩
      · exact .inl (List.forall_mem_cons.mpr ⟨⟨b, ha⟩, hall⟩)
      · exact .inr ⟨a', List.mem_cons_of_mem a ha', e, he, by rw [hitems]; rfl⟩

theorem forM_eq_ok_iff {f : α → Except ε PUnit} {items : List α} :
    items.forM f = .ok ⟨⟩ ↔ ∀ a ∈ items, f a = .ok ⟨⟩ := by
  induction items with
  | nil => exact ⟨fun _ => List.forall_mem_nil _, fun _ => rfl⟩
  | cons a items ih =>
    show (f a >>= fun _ => items.forM f) = .ok ⟨⟩ ↔ _
    rw [unit_bind_eq_ok_iff, List.forall_mem_cons, ← ih]

theorem exists_of_forM_eq_error {f : α → Except ε PUnit} {items : List α} {e : ε}
    (h : items.forM f = .error e) : ∃ a ∈ items, f a = .error e := by
  induction items with
  | nil => cases h
  | cons a items ih =>
    change (f a >>= fun _ => items.forM f) = .error e at h
    cases ha : f a with
    | error e' =>
      rw [ha] at h
      cases h
      exact ⟨a, List.mem_cons_self, ha⟩
    | ok _ =>
      rw [ha] at h
      obtain ⟨b, hb, he⟩ := ih h
      exact ⟨b, List.mem_cons_of_mem a hb, he⟩

/-- What is known of a computation whether it fails or not: its values satisfy `P`, its errors
`E`. -/
structure Ensures (E : ε → Prop) (P : α → Prop) (x : Except ε α) : Prop where
  ok : ∀ a, x = .ok a → P a
  error : ∀ e, x = .error e → E e

namespace Ensures

variable {E : ε → Prop} {P : α → Prop} {x : Except ε α}

theorem of_ok {a : α} (h : P a) : Ensures E P (.ok a) where
  ok b hb := by
    cases hb
    exact h
  error e he := by cases he

theorem of_error {e : ε} (h : E e) : Ensures E P (.error e) where
  ok a ha := by cases ha
  error e' he := by
    cases he
    exact h

theorem mono {Q : α → Prop} (h : Ensures E P x) (hP : ∀ a, P a → Q a) : Ensures E Q x :=
  ⟨fun a ha => hP a (h.ok a ha), h.error⟩

theorem of_forall_ok (h : ∀ a, x = .ok a → P a) : Ensures (fun _ => True) P x :=
  ⟨h, fun _ _ => trivial⟩

theorem and {F : ε → Prop} {Q : α → Prop} (hP : Ensures F P x) (hQ : Ensures E Q x) :
    Ensures E (fun a => P a ∧ Q a) x :=
  ⟨fun a ha => ⟨hP.ok a ha, hQ.ok a ha⟩, hQ.error⟩

theorem bind {β : Type u} {Q : β → Prop} {f : α → Except ε β} (h : Ensures E P x)
    (hf : ∀ a, P a → Ensures E Q (f a)) : Ensures E Q (x >>= f) := by
  cases x with
  | error e => exact of_error (h.error e rfl)
  | ok a => exact hf a (h.ok a rfl)

theorem map {Q : β → Prop} {f : α → β} (h : Ensures E P x) (hf : ∀ a, P a → Q (f a)) :
    Ensures E Q (x.map f) := by
  cases x with
  | error e => exact of_error (h.error e rfl)
  | ok a => exact of_ok (hf a (h.ok a rfl))

end Ensures

/-- If the first computation gives a value, the second one gives a value that `R` relates to it. -/
def Mirrors {δ : Type x} {γ : Type y} (R : α → γ → Prop) (x : Except ε α) (y : Except δ γ) : Prop :=
  ∀ a, x = .ok a → ∃ b, y = .ok b ∧ R a b

namespace Mirrors

variable {δ : Type x} {γ : Type y} {R : α → γ → Prop} {x : Except ε α} {y : Except δ γ}

theorem of_ok {a : α} {b : γ} (h : R a b) :
    Mirrors R (.ok a : Except ε α) (.ok b : Except δ γ) := by
  intro a' ha'
  cases ha'
  exact ⟨b, rfl, h⟩

theorem of_error {e : ε} : Mirrors R (.error e) y := by
  intro a ha
  cases ha

theorem bind {β : Type u} {ζ : Type y} {Q : β → ζ → Prop} {f : α → Except ε β} {g : γ → Except δ ζ}
    (h : Mirrors R x y) (hf : ∀ a b, R a b → Mirrors Q (f a) (g b)) :
    Mirrors Q (x >>= f) (y >>= g) := by
  intro b hb
  obtain ⟨a, ha, hb⟩ := bind_eq_ok_iff.mp hb
  obtain ⟨a', ha', hR⟩ := h a ha
  obtain ⟨b', hb', hQ⟩ := hf a a' hR b hb
  exact ⟨b', bind_eq_ok_iff.mpr ⟨a', ha', hb'⟩, hQ⟩

theorem map {ζ : Type z} {Q : β → ζ → Prop} {f : α → β} {g : γ → ζ} (h : Mirrors R x y)
    (hf : ∀ a b, R a b → Q (f a) (g b)) : Mirrors Q (x.map f) (y.map g) := by
  intro b hb
  obtain ⟨a, ha, rfl⟩ := map_eq_ok_iff.mp hb
  obtain ⟨a', ha', hR⟩ := h a ha
  exact ⟨g a', map_eq_ok_iff.mpr ⟨a', ha', rfl⟩, hf a a' hR⟩

end Mirrors

namespace Datum.Verdict

/-! ### Verdicts -/

theorem map_eq_ok_iff {f : α → β} {v : Verdict α} {b : β} :
    v.map f = .ok b ↔ ∃ a, v = .ok a ∧ f a = b := by
  cases v <;> simp [Verdict.map]

theorem functor_map_eq {β : Type u} (f : α → β) (v : Verdict α) : f <$> v = v.map f := by
  cases v <;> rfl

theorem seq_eq_ok_iff {β : Type u} {f : Verdict (α → β)} {v : Verdict α} {b : β} :
    f <*> v = .ok b ↔ ∃ g a, f = .ok g ∧ v = .ok a ∧ g a = b := by
  show app f v = .ok b ↔ _
  cases f <;> cases v <;> simp [app]

theorem andThen_eq_ok_iff {f : α → Verdict β} {v : Verdict α} {b : β} :
    v.andThen f = .ok b ↔ ∃ a, v = .ok a ∧ f a = .ok b := by
  cases v <;> simp [andThen]

theorem within_eq_ok_iff {step : Step} {v : Verdict α} {a : α} :
    v.within step = .ok a ↔ v = .ok a := by
  cases v <;> simp [within]

theorem require_eq_ok_iff {condition : Bool} {text : String} {value a : α} :
    require condition text value = .ok a ↔ condition = true ∧ value = a := by
  cases condition <;> simp [require, fault]

end Datum.Verdict

end Keyforge
