import PySOA.Lib.Documents

/-! Documents whose leaves are replaced by other documents, from the first leaf to the last. Doing it path by
path, with a look at the leaf and a put at its place, comes to the same. -/
namespace Document
variable {τ σ α ρ : Type*} (f : ρ → α → ρ × Document τ σ α)

mutual
/-- Replaces the leaves in order. A state is passed on from leaf to leaf. -/
def graft : ρ → Document τ σ α → ρ × Document τ σ α
  | r, leaf a => f r a
  | r, dict entries => ((graftEntries r entries).1, dict (graftEntries r entries).2)
  | r, seq kind items => ((graftItems r items).1, seq kind (graftItems r items).2)

def graftEntries : ρ → List (Slot τ × Document τ σ α) → ρ × List (Slot τ × Document τ σ α)
  | r, [] => (r, [])
  | r, (s, d) :: entries =>
    ((graftEntries (graft r d).1 entries).1, (s, (graft r d).2) :: (graftEntries (graft r d).1 entries).2)

def graftItems : ρ → List (Document τ σ α) → ρ × List (Document τ σ α)
  | r, [] => (r, [])
  | r, d :: items => ((graftItems (graft r d).1 items).1, (graft r d).2 :: (graftItems (graft r d).1 items).2)
end

section children
variable {f}

/-- The document with other children at the same slots. -/
def withChildren : Document τ σ α → List (Slot τ × Document τ σ α) → Document τ σ α
  | leaf a, _ => leaf a
  | dict _, entries => dict entries
  | seq kind _, entries => seq kind (entries.map Prod.snd)

lemma map_snd_indexed (i : ℕ) (items : List (Document τ σ α)) : (indexed i items).map Prod.snd = items := by
  induction items generalizing i with
  | nil => rfl
  | cons d items ih => rw [indexed, List.map_cons, ih]

lemma indexed_append (i : ℕ) (items items' : List (Document τ σ α)) :
    indexed i (items ++ items') = indexed i items ++ indexed (i + items.length) items' := by
  induction items generalizing i with
  | nil => rfl
  | cons d items ih =>
    have hlength : i + (d :: items).length = i + 1 + items.length := by
      rw [List.length_cons]
      omega
    rw [List.cons_append, indexed, ih, indexed, List.cons_append, hlength]

lemma withChildren_children (d : Document τ σ α) : d.withChildren d.children = d := by
  cases d with
  | leaf a => rfl
  | dict entries => rfl
  | seq kind items => rw [children, withChildren, map_snd_indexed]

lemma indexed_map_snd {i : ℕ} {items : List (Document τ σ α)} {entries : List (Slot τ × Document τ σ α)}
    (h : entries.map Prod.fst = (indexed i items).map Prod.fst) : indexed i (entries.map Prod.snd) = entries := by
  induction items generalizing i entries with
  | nil =>
    rw [List.map_eq_nil_iff.mp h]
    rfl
  | cons d items ih =>
    cases entries with
    | nil => cases h
    | cons entry entries =>
      obtain ⟨hs, hrest⟩ := List.cons.inj h
      rw [List.map_cons, indexed, ih hrest, ← show entry.1 = .index i from hs]

lemma children_withChildren {d : Document τ σ α} {entries : List (Slot τ × Document τ σ α)}
    (h : entries.map Prod.fst = d.children.map Prod.fst) : (d.withChildren entries).children = entries := by
  cases d with
  | leaf a => exact (List.map_eq_nil_iff.mp h).symm
  | dict entries' => rfl
  | seq kind items => exact indexed_map_snd h

lemma slot_of_indexed {i : ℕ} {items : List (Document τ σ α)} {s : Slot τ} {done todo : List (Slot τ)}
    (h : (indexed i items).map Prod.fst = done ++ s :: todo) : s = .index (i + done.length) := by
  induction items generalizing i done with
  | nil => simp [indexed] at h
  | cons d items ih =>
    cases done with
    | nil => exact (List.cons.inj h).1.symm
    | cons s' done =>
      rw [ih (List.cons.inj h).2, List.length_cons]
      congr 1
      omega

lemma graftItems_eq (r : ρ) (i : ℕ) (items : List (Document τ σ α)) :
    graftItems f r items =
      ((graftEntries f r (indexed i items)).1, (graftEntries f r (indexed i items)).2.map Prod.snd) := by
  induction items generalizing r i with
  | nil => rw [graftItems, indexed, graftEntries, List.map_nil]
  | cons d items ih => rw [graftItems, indexed, graftEntries, ih _ (i+1), List.map_cons]

/-- A leaf is replaced, and any other document keeps its slots. -/
lemma graft_eq (r : ρ) {d : Document τ σ α} (h : ∀ a, d ≠ leaf a) :
    graft f r d = ((graftEntries f r d.children).1, d.withChildren (graftEntries f r d.children).2) := by
  cases d with
  | leaf a => exact absurd rfl (h a)
  | dict entries => rw [graft, children, withChildren]
  | seq kind items => rw [graft, graftItems_eq r 0, children, withChildren]

end children

section hole
variable [DecidableEq τ] [DecidableEq σ] {grows : σ}

/-- Putting at a path what is there changes nothing. -/
lemma put?_of_get? {d d' v : Document τ σ α} {p : List (Slot τ)} (hget : d.get? p = some v)
    (hput : put? grows d p v = some d') : d' = d := by
  induction p generalizing d d' with
  | nil =>
    cases hget
    cases hput
    rfl
  | cons s p ih =>
    obtain ⟨child, hchild, hrest⟩ := Option.bind_eq_some_iff.mp hget
    rw [put?] at hput
    cases d with
    | leaf a => cases hchild
    | dict entries =>
      rw [children] at hchild
      rw [putSlot, hchild, Option.getD_some] at hput
      obtain ⟨child', hchild', rfl⟩ := Option.map_eq_some_iff.mp hput
      rw [ih hrest hchild', Assoc.upsert_of_get? hchild]
    | seq kind items =>
      cases s with
      | name t => cases hput
      | index i =>
        have hitem : items[i]? = some child := by
          rw [← hchild, children, ← get?_index_indexed 0 i items, Nat.zero_add]
        obtain ⟨hlt, hget⟩ := List.getElem?_eq_some_iff.mp hitem
        rw [putSlot, hitem, Option.getD_some] at hput
        split_ifs at hput
        obtain ⟨child', hchild', rfl⟩ := Option.map_eq_some_iff.mp hput
        have hnone : i + 1 - items.length = 0 := by omega
        rw [ih hrest hchild', hnone, List.replicate_zero, List.append_nil, ← hget, List.set_getElem_self]

/-- What is at the path can be read and put in place of what is there, and all around it stays. -/
structure Hole (grows : σ) (p : List (Slot τ)) (plug : Document τ σ α → Document τ σ α) : Prop where
  get : ∀ (d : Document τ σ α) (q : List (Slot τ)), (plug d).get? (p ++ q) = d.get? q
  put : ∀ (d : Document τ σ α) (q : List (Slot τ)) (v : Document τ σ α),
    put? grows (plug d) (p ++ q) v = (put? grows d q v).map plug

lemma Hole.root : Hole grows [] (id : Document τ σ α → Document τ σ α) :=
  ⟨fun _ _ => rfl, fun _ _ _ => Option.map_id'.symm⟩

lemma Hole.comp {p q : List (Slot τ)} {plug plug' : Document τ σ α → Document τ σ α} (h : Hole grows p plug)
    (h' : Hole grows q plug') : Hole grows (p ++ q) (plug ∘ plug') := by
  constructor
  · intro d q'
    rw [List.append_assoc, Function.comp, h.get, h'.get]
  · intro d q' v
    rw [List.append_assoc, Function.comp, h.put, h'.put, Option.map_map]

/-- A child of a regular document is in a hole. -/
lemma Hole.child {d : Document τ σ α} (hd : d.Regular grows) {s : Slot τ} {d₀ : Document τ σ α}
    {done todo : List (Slot τ × Document τ σ α)}
    (hchildren : d.children.map Prod.fst = (done ++ (s, d₀) :: todo).map Prod.fst) :
    Hole grows [s] fun v => d.withChildren (done ++ (s, v) :: todo) := by
  have hkeys (v : Document τ σ α) : (done ++ (s, v) :: todo).map Prod.fst = d.children.map Prod.fst := by
    rw [hchildren, List.map_append, List.map_append, List.map_cons, List.map_cons]
  have hnodup (v : Document τ σ α) : ((done ++ (s, v) :: todo).map Prod.fst).Nodup := by
    rw [hkeys v]
    exact hd.named
  have hget (v : Document τ σ α) : Assoc.get? s (done ++ (s, v) :: todo) = some v :=
    Assoc.get?_of_mem (hnodup v) (List.mem_append_right _ List.mem_cons_self)
  constructor
  · intro v q
    rw [List.singleton_append, get?, children_withChildren (hkeys v), hget]
    rfl
  · intro v q w
    rw [List.singleton_append, put?]
    cases d with
    | leaf a =>
      rw [children] at hchildren
      simp at hchildren
    | dict entries =>
      rw [withChildren, putSlot, hget, Option.getD_some]
      congr 1
      funext v'
      have hnew : s ∉ done.map Prod.fst := by
        have h := hnodup v
        rw [List.map_append, List.nodup_append] at h
        intro hmem
        exact h.2.2 s hmem s List.mem_cons_self rfl
      rw [Assoc.upsert_append_of_notMem hnew, Assoc.upsert, if_pos rfl, withChildren]
    | seq kind items =>
      obtain rfl : kind = grows := hd
      have hs : s = .index (done.map Prod.fst).length := by
        rw [List.map_append, List.map_cons] at hchildren
        exact (slot_of_indexed hchildren).trans (by rw [Nat.zero_add])
      rw [List.length_map, ← List.length_map (f := Prod.snd)] at hs
      have hitems (v : Document τ σ α) : (done ++ (s, v) :: todo).map Prod.snd =
          done.map Prod.snd ++ v :: todo.map Prod.snd := by rw [List.map_append, List.map_cons]
      have hnone : (done.map Prod.snd).length + 1 -
          (done.map Prod.snd ++ v :: todo.map Prod.snd).length = 0 := by
        rw [List.length_append, List.length_cons]
        omega
      rw [withChildren, hitems, hs, putSlot, if_pos rfl, List.getElem?_append_right (Nat.le_refl _), Nat.sub_self,
        List.getElem?_cons_zero, Option.getD_some, hnone, List.replicate_zero, List.append_nil]
      congr 1
      funext v'
      rw [withChildren, ← hs, hitems, List.set_append_right _ _ (Nat.le_refl _), Nat.sub_self]
      rfl

/-- A step that, at the path of a leaf, puts in its place what the leaf is replaced by. -/
def Grafts (grows : σ) (step : ρ × Document τ σ α → List (Slot τ) → ρ × Document τ σ α) (p : List (Slot τ))
    (a : α) : Prop :=
  ∀ r out out', get? out p = some (leaf a) → put? grows out p (f r a).2 = some out' →
    step (r, out) p = ((f r a).1, out')

variable {f} {step : ρ × Document τ σ α → List (Slot τ) → ρ × Document τ σ α}

/-- Wherever the document is plugged in, the steps at its leaves replace them. -/
def GraftedBy (f : ρ → α → ρ × Document τ σ α) (grows : σ)
    (step : ρ × Document τ σ α → List (Slot τ) → ρ × Document τ σ α) (d : Document τ σ α) : Prop :=
  ∀ {p plug}, Hole grows p plug →
    (∀ tip ∈ tips false d, ∀ a, tip.2 = leaf a → Grafts f grows step (p ++ tip.1) a) → ∀ r,
      ((tips false d).map fun tip => p ++ tip.1).foldl step (r, plug d) = ((graft f r d).1, plug (graft f r d).2)

lemma foldl_entryTips {d : Document τ σ α} (hd : d.Regular grows) {p : List (Slot τ)}
    {plug : Document τ σ α → Document τ σ α} (hplug : Hole grows p plug)
    {done todo : List (Slot τ × Document τ σ α)} (hchildren : d.children.map Prod.fst = (done ++ todo).map Prod.fst)
    (h : ∀ child ∈ todo, GraftedBy f grows step child.2)
    (hstep : ∀ tip ∈ entryTips false todo, ∀ a, tip.2 = leaf a → Grafts f grows step (p ++ tip.1) a) (r : ρ) :
    ((entryTips false todo).map fun tip => p ++ tip.1).foldl step (r, plug (d.withChildren (done ++ todo))) =
      ((graftEntries f r todo).1, plug (d.withChildren (done ++ (graftEntries f r todo).2))) := by
  induction todo generalizing done r with
  | nil => rw [entryTips, graftEntries, List.map_nil, List.foldl_nil]
  | cons entry todo ih =>
    obtain ⟨s, d₀⟩ := entry
    rw [entryTips] at hstep
    have hbelow : ∀ tip ∈ tips false d₀, ∀ a, tip.2 = leaf a → Grafts f grows step (p ++ [s] ++ tip.1) a := by
      intro tip htip a ha
      have hgrafts := hstep _ (List.mem_append_left _ (List.mem_map_of_mem htip)) a ha
      rwa [Prod.map_fst, List.append_cons] at hgrafts
    have hfirst := h (s, d₀) List.mem_cons_self (hplug.comp (Hole.child hd hchildren)) hbelow r
    have hkeys : d.children.map Prod.fst = (done ++ [(s, (graft f r d₀).2)] ++ todo).map Prod.fst := by
      rw [hchildren]
      simp
    have hrest := ih hkeys (fun child hchild => h child (List.mem_cons_of_mem _ hchild))
      (fun tip htip => hstep tip (List.mem_append_right _ htip)) (graft f r d₀).1
    have hpaths : ((tips false d₀).map (Prod.map (s :: ·) id)).map (fun tip => p ++ tip.1) =
        (tips false d₀).map fun tip => p ++ [s] ++ tip.1 := by
      rw [List.map_map]
      congr 1
      funext tip
      exact List.append_cons p s tip.1
    rw [List.append_assoc, List.append_assoc] at hrest
    rw [entryTips, List.map_append, List.foldl_append, hpaths, graftEntries]
    exact (congrArg (List.foldl step · _) hfirst).trans hrest

theorem graftedBy {d : Document τ σ α} (hd : Everywhere (Regular grows) d) : GraftedBy f grows step d := by
  induction d using of_children with
  | h d ih =>
    obtain ⟨hregular, hbelow⟩ := hd
    intro p plug hplug hstep r
    by_cases hleaf : ∃ a, d = leaf a
    · obtain ⟨a, rfl⟩ := hleaf
      have hgrafts := hstep _ (List.mem_singleton_self ([], leaf a)) a rfl
      rw [tips, List.map_singleton, List.foldl_cons, List.foldl_nil, graft]
      rw [List.append_nil] at hgrafts ⊢
      have hget := hplug.get (leaf a) []
      have hput := hplug.put (leaf a) [] (f r a).2
      rw [List.append_nil] at hget hput
      exact hgrafts r _ _ hget hput
    · push Not at hleaf
      have htip : ¬d.isTip false = true := by
        cases d with
        | leaf a => exact absurd rfl (hleaf a)
        | dict entries => exact Bool.false_ne_true
        | seq kind items => exact Bool.false_ne_true
      rw [tips_eq, if_neg htip] at hstep ⊢
      have hchildren : d.children.map Prod.fst = ([] ++ d.children).map Prod.fst := by rw [List.nil_append]
      have hall := foldl_entryTips hregular hplug hchildren (fun child hchild => ih child hchild
        (hbelow child hchild)) hstep r
      rw [List.nil_append, List.nil_append, withChildren_children] at hall
      rw [hall, graft_eq r hleaf]

/-- Steps that put something in the place of each leaf, in the order of the tips, replace the leaves. -/
theorem foldl_tips_eq_graft {d : Document τ σ α} (hd : Everywhere (Regular grows) d)
    (hstep : ∀ tip ∈ tips false d, ∀ a, tip.2 = leaf a → Grafts f grows step tip.1 a) (r : ρ) :
    ((tips false d).map Prod.fst).foldl step (r, d) = graft f r d :=
  graftedBy hd Hole.root hstep r

end hole
end Document
