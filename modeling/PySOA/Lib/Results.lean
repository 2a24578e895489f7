import Mathlib.Data.List.Forall2

/-! Computations that give a result or an error: when a map, a bind or a pass over a list gives one. -/
namespace Results
universe u
variable {ε : Type*}

lemma map_eq_ok {α β : Type*} {x : Except ε α} {f : α → β} {b : β} :
    x.map f = .ok b ↔ ∃ a, x = .ok a ∧ b = f a := by
  cases x <;> simp [Except.map, eq_comm]

lemma bind_eq_ok {α β : Type u} {x : Except ε α} {f : α → Except ε β} {b : β} :
    x >>= f = .ok b ↔ ∃ a, x = .ok a ∧ f a = .ok b := by
  cases x <;> simp [bind, Except.bind]

section mapM
variable {α : Type*} {β : Type u} {f g : α → Except ε β} {l : List α}

lemma mapM_congr (h : ∀ a ∈ l, f a = g a) : l.mapM f = l.mapM g := by
  induction l with
  | nil => rfl
  | cons a l ih =>
    rw [List.mapM_cons, List.mapM_cons, h a List.mem_cons_self,
      ih fun b hb => h b (List.mem_cons_of_mem a hb)]

/-- A pass gives the results for all elements. -/
theorem mapM_eq_ok {bs : List β} : l.mapM f = .ok bs ↔ l.map f = bs.map .ok := by
  induction l generalizing bs with
  | nil =>
    rw [List.mapM_nil, List.map_nil]
    cases bs <;> simp [pure, Except.pure]
  | cons a l ih =>
    rw [List.mapM_cons, List.map_cons]
    simp only [bind_eq_ok, ih]
    constructor
    · rintro ⟨b, hb, bs', hbs', hlist⟩
      cases hlist
      rw [List.map_cons, hb, hbs']
    · intro h
      cases bs with
      | nil => cases h
      | cons b bs =>
        rw [List.map_cons, List.cons.injEq] at h
        exact ⟨b, h.1, bs, h.2, rfl⟩

lemma exists_mapM_eq_ok (h : ∀ a ∈ l, ∃ b, f a = .ok b) : ∃ bs, l.mapM f = .ok bs := by
  induction l with
  | nil => exact ⟨[], rfl⟩
  | cons a l ih =>
    obtain ⟨b, hb⟩ := h a List.mem_cons_self
    obtain ⟨bs, hbs⟩ := ih fun a ha => h a (List.mem_cons_of_mem _ ha)
    exact ⟨b :: bs, by rw [List.mapM_cons, hb, hbs]; rfl⟩

lemma exists_ok_of_mapM {bs : List β} (h : l.mapM f = .ok bs) : ∀ a ∈ l, ∃ b, f a = .ok b := by
  intro a ha
  have hmem : f a ∈ l.map f := List.mem_map_of_mem ha
  rw [mapM_eq_ok.mp h] at hmem
  obtain ⟨b, -, hb⟩ := List.mem_map.mp hmem
  exact ⟨b, hb.symm⟩

/-- The error of a pass is that of an element. -/
theorem exists_error_of_mapM {e : ε} (h : l.mapM f = .error e) : ∃ a ∈ l, f a = .error e := by
  induction l with
  | nil => cases h
  | cons a l ih =>
    rw [List.mapM_cons] at h
    cases ha : f a with
    | error e' =>
      rw [ha] at h
      cases h
      exact ⟨a, List.mem_cons_self, ha⟩
    | ok b =>
      rw [ha] at h
      cases hl : l.mapM f with
      | error e' =>
        rw [hl] at h
        cases h
        obtain ⟨a', ha', herror⟩ := ih hl
        exact ⟨a', List.mem_cons_of_mem a ha', herror⟩
      | ok bs =>
        rw [hl] at h
        cases h

/-- If related elements have results, these are related to what the elements are related to. -/
lemma mapM_forall₂ {γ : Type*} {R : γ → α → Prop} {Q : γ → β → Prop} {cs : List γ} (h : List.Forall₂ R cs l)
    (hf : ∀ c ∈ cs, ∀ a ∈ l, R c a → ∃ b, f a = .ok b ∧ Q c b) :
    ∃ bs, l.mapM f = .ok bs ∧ List.Forall₂ Q cs bs := by
  induction h with
  | nil => exact ⟨[], rfl, .nil⟩
  | cons hca _ ih =>
    obtain ⟨b, hb, hq⟩ := hf _ List.mem_cons_self _ List.mem_cons_self hca
    obtain ⟨bs, hbs, hqs⟩ := ih fun c hc a ha =>
      hf c (List.mem_cons_of_mem _ hc) a (List.mem_cons_of_mem _ ha)
    refine ⟨b :: bs, ?_, .cons hq hqs⟩
    rw [List.mapM_cons, hb, hbs]
    rfl

end mapM
end Results
