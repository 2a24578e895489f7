import Mathlib.Data.List.Perm.Subperm
import PySOA.Lib.Documents

/-! Equality of documents, in which the order of the entries of a mapping does not count, and agreement of
documents up to entries that only one of them has. -/
namespace Document
variable {τ σ α : Type*}

section eqv
variable [DecidableEq τ] [DecidableEq σ] [BEq α]

mutual
def eqv : Document τ σ α → Document τ σ α → Bool
  | leaf a, leaf b => a == b
  | dict entries, dict entries' => entries.length == entries'.length && eqvEntries entries entries'
  | seq kind items, seq kind' items' => decide (kind = kind') && eqvItems items items'
  | _, _ => false

/-- All entries are equal to those with the same slot. -/
def eqvEntries : List (Slot τ × Document τ σ α) → List (Slot τ × Document τ σ α) → Bool
  | [], _ => true
  | (s, d) :: entries, entries' =>
    (match Assoc.get? s entries' with
    | some d' => eqv d d'
    | none => false) && eqvEntries entries entries'

def eqvItems : List (Document τ σ α) → List (Document τ σ α) → Bool
  | [], [] => true
  | d :: items, d' :: items' => eqv d d' && eqvItems items items'
  | _, _ => false
end

end eqv

/-- Both are leaves, and equal, or both are mappings, or sequences of one kind. -/
def SameShape [BEq α] : Document τ σ α → Document τ σ α → Prop
  | leaf a, leaf b => (a == b) = true
  | dict _, dict _ => True
  | seq kind _, seq kind' _ => kind = kind'
  | _, _ => False

section shape
variable [BEq α] {d e f : Document τ σ α}

lemma SameShape.refl [ReflBEq α] (d : Document τ σ α) : SameShape d d := by
  cases d <;> simp [SameShape]

lemma SameShape.symm [PartialEquivBEq α] (h : SameShape d e) : SameShape e d := by
  cases d <;> cases e <;> simp only [SameShape] at h ⊢
  · exact BEq.symm h
  · exact h.symm

lemma SameShape.trans [PartialEquivBEq α] (h : SameShape d e) (h' : SameShape e f) : SameShape d f := by
  cases d <;> cases e <;> simp only [SameShape] at h <;> cases f <;> simp only [SameShape] at h' ⊢
  · exact BEq.trans h h'
  · exact h.trans h'

end shape

section keys
variable {β γ : Type*} {l : List (Slot τ × β)} {l' : List (Slot τ × γ)}

/-- Different slots, as many as others and all among them, are the others. -/
lemma subset_of_length_eq (hl : (l.map Prod.fst).Nodup) (hlength : l.length = l'.length)
    (h : l.map Prod.fst ⊆ l'.map Prod.fst) : l'.map Prod.fst ⊆ l.map Prod.fst := by
  have hsub : (l.map Prod.fst).Subperm (l'.map Prod.fst) := List.subperm_of_subset hl h
  have hperm := hsub.perm_of_length_le (by simp [hlength])
  exact hperm.symm.subset

lemma length_eq_of_subset (hl : (l.map Prod.fst).Nodup) (hl' : (l'.map Prod.fst).Nodup)
    (h : l.map Prod.fst ⊆ l'.map Prod.fst) (h' : l'.map Prod.fst ⊆ l.map Prod.fst) :
    l.length = l'.length := by
  have hle := (List.subperm_of_subset hl h).length_le
  have hge := (List.subperm_of_subset hl' h').length_le
  rw [List.length_map, List.length_map] at hle hge
  omega

end keys

section indexed
variable [DecidableEq τ] {i : ℕ} {items : List (Document τ σ α)}

lemma mem_indexed {child : Slot τ × Document τ σ α} :
    child ∈ indexed i items ↔ ∃ j, child.1 = .index (i+j) ∧ items[j]? = some child.2 := by
  constructor
  · intro h
    obtain ⟨j, hj, hindex⟩ := exists_index_of_mem_indexed h
    have hplace : i + (j-i) = j := by omega
    refine ⟨j-i, by rw [hplace, hindex], ?_⟩
    rw [← get?_index_indexed (τ := τ) i (j-i), hplace, ← hindex]
    exact Assoc.get?_of_mem (nodup_indexed i items) h
  · rintro ⟨j, hindex, hitem⟩
    rw [← get?_index_indexed (τ := τ) i j, ← hindex] at hitem
    exact Assoc.mem_of_get? hitem

lemma get?_indexed (items : List (Document τ σ α)) (j : ℕ) :
    Assoc.get? (.index j : Slot τ) (indexed 0 items) = items[j]? := by
  have h := get?_index_indexed (τ := τ) 0 j items
  rwa [Nat.zero_add] at h

lemma index_mem_indexed {j : ℕ} :
    (Slot.index j : Slot τ) ∈ (indexed 0 items).map Prod.fst ↔ j < items.length := by
  rw [List.mem_map]
  constructor
  · rintro ⟨⟨s, d⟩, hchild, rfl⟩
    obtain ⟨k, hindex, hitem⟩ := mem_indexed.mp hchild
    cases hindex
    rw [Nat.zero_add]
    exact (List.getElem?_eq_some_iff.mp hitem).1
  · intro hj
    refine ⟨(.index j, items[j]), mem_indexed.mpr ⟨j, by simp, ?_⟩, rfl⟩
    exact List.getElem?_eq_getElem hj

end indexed

section equivalence
variable [DecidableEq τ] [DecidableEq σ] [BEq α] {d e f : Document τ σ α}

/-- Each child has an equal one in the same slot, and there are no others. -/
def SameChildren (d e : Document τ σ α) : Prop :=
  (∀ child ∈ d.children, ∃ e', Assoc.get? child.1 e.children = some e' ∧ child.2.eqv e' = true) ∧
    ∀ child ∈ e.children, child.1 ∈ d.children.map Prod.fst

lemma SameChildren.mem_keys (h : SameChildren d e) (s : Slot τ) :
    s ∈ d.children.map Prod.fst ↔ s ∈ e.children.map Prod.fst := by
  constructor
  · intro hs
    obtain ⟨child, hchild, rfl⟩ := List.mem_map.mp hs
    obtain ⟨e', he', -⟩ := h.1 child hchild
    exact Assoc.mem_keys_iff.mpr ⟨e', he'⟩
  · intro hs
    obtain ⟨child, hchild, rfl⟩ := List.mem_map.mp hs
    exact h.2 child hchild

lemma SameChildren.eqv_of_get? (h : SameChildren d e) {s : Slot τ} {d' e' : Document τ σ α}
    (hd : Assoc.get? s d.children = some d') (he : Assoc.get? s e.children = some e') : d'.eqv e' = true := by
  obtain ⟨e'', he'', heqv⟩ := h.1 _ (Assoc.mem_of_get? hd)
  dsimp only at he''
  rw [he] at he''
  cases he''
  exact heqv

lemma eqvEntries_iff {entries entries' : List (Slot τ × Document τ σ α)} :
    eqvEntries entries entries' = true ↔
      ∀ child ∈ entries, ∃ e', Assoc.get? child.1 entries' = some e' ∧ child.2.eqv e' = true := by
  induction entries with
  | nil => simp [eqvEntries]
  | cons entry entries ih =>
    obtain ⟨s, d⟩ := entry
    rw [eqvEntries, Bool.and_eq_true, ih, List.forall_mem_cons]
    apply and_congr_left
    intro _
    cases Assoc.get? s entries' <;> simp

lemma eqvItems_iff {items items' : List (Document τ σ α)} :
    eqvItems items items' = true ↔ items.length = items'.length ∧
      ∀ (j : ℕ) (d d' : Document τ σ α), items[j]? = some d → items'[j]? = some d' → d.eqv d' = true := by
  induction items generalizing items' with
  | nil => cases items' <;> simp [eqvItems]
  | cons d items ih =>
    cases items' with
    | nil => simp [eqvItems]
    | cons d' items' =>
      rw [eqvItems, Bool.and_eq_true, ih, List.length_cons, List.length_cons]
      constructor
      · rintro ⟨hd, hlength, hitems⟩
        refine ⟨by omega, ?_⟩
        intro j e e' he he'
        cases j with
        | zero =>
          cases he
          cases he'
          exact hd
        | succ j => exact hitems j e e' he he'
      · rintro ⟨hlength, hitems⟩
        exact ⟨hitems 0 d d' rfl rfl, by omega, fun j e e' he he' => hitems (j+1) e e' he he'⟩

lemma sameChildren_dict {entries entries' : List (Slot τ × Document τ σ α)}
    (h : (entries.map Prod.fst).Nodup) (h' : (entries'.map Prod.fst).Nodup) :
    SameChildren (dict entries) (dict entries') ↔
      entries.length = entries'.length ∧ eqvEntries entries entries' = true := by
  have hsubset (heqv : eqvEntries entries entries' = true) : entries.map Prod.fst ⊆ entries'.map Prod.fst := by
    intro s hs
    obtain ⟨child, hchild, rfl⟩ := List.mem_map.mp hs
    obtain ⟨e', he', -⟩ := eqvEntries_iff.mp heqv child hchild
    exact Assoc.mem_keys_iff.mpr ⟨e', he'⟩
  constructor
  · rintro ⟨hchildren, hothers⟩
    have heqv := eqvEntries_iff.mpr hchildren
    refine ⟨length_eq_of_subset h h' (hsubset heqv) ?_, heqv⟩
    intro s hs
    obtain ⟨child, hchild, rfl⟩ := List.mem_map.mp hs
    exact hothers child hchild
  · rintro ⟨hlength, heqv⟩
    refine ⟨eqvEntries_iff.mp heqv, ?_⟩
    intro child hchild
    exact subset_of_length_eq h hlength (hsubset heqv) (List.mem_map_of_mem hchild)

lemma sameChildren_seq {kind kind' : σ} {items items' : List (Document τ σ α)} :
    SameChildren (seq kind items : Document τ σ α) (seq kind' items') ↔ eqvItems items items' = true := by
  rw [eqvItems_iff]
  constructor
  · rintro ⟨hchildren, hothers⟩
    have hitems (j : ℕ) (hj : j < items.length) : ∃ e', items'[j]? = some e' ∧ items[j].eqv e' = true := by
      obtain ⟨e', he', heqv⟩ := hchildren (.index j, items[j])
        (mem_indexed.mpr ⟨j, by simp, List.getElem?_eq_getElem hj⟩)
      exact ⟨e', (get?_indexed items' j).symm.trans he', heqv⟩
    refine ⟨?_, ?_⟩
    · apply Nat.le_antisymm
      · by_contra hlt
        obtain ⟨e', he', -⟩ := hitems items'.length (by omega)
        simp at he'
      · by_contra hlt
        have hmem := hothers (.index items.length, items'[items.length])
          (mem_indexed.mpr ⟨items.length, by simp, List.getElem?_eq_getElem (by omega)⟩)
        exact absurd (index_mem_indexed.mp hmem) (Nat.lt_irrefl _)
    · intro j d d' hd hd'
      obtain ⟨hj, rfl⟩ := List.getElem?_eq_some_iff.mp hd
      obtain ⟨e', he', heqv⟩ := hitems j hj
      rw [hd'] at he'
      cases he'
      exact heqv
  · rintro ⟨hlength, hitems⟩
    constructor
    · rintro ⟨s, d⟩ hchild
      obtain ⟨j, hindex, hd⟩ := mem_indexed.mp hchild
      cases hindex
      have hj := (List.getElem?_eq_some_iff.mp hd).1
      have hd' : items'[j]? = some items'[j] := List.getElem?_eq_getElem (by omega)
      refine ⟨items'[j], ?_, hitems j d _ hd hd'⟩
      rw [Nat.zero_add, ← hd']
      exact get?_indexed items' j
    · rintro ⟨s, d⟩ hchild
      obtain ⟨j, hindex, hd⟩ := mem_indexed.mp hchild
      cases hindex
      have hj := (List.getElem?_eq_some_iff.mp hd).1
      rw [Nat.zero_add]
      exact index_mem_indexed.mpr (by omega)

/-- Documents are equal if they have one shape and the same children. -/
theorem eqv_iff (hd : d.Named) (he : e.Named) : d.eqv e = true ↔ SameShape d e ∧ SameChildren d e := by
  cases d with
  | leaf a => cases e <;> simp [eqv, SameShape, SameChildren, children]
  | dict entries =>
    cases e with
    | dict entries' =>
      have hchildren : SameChildren (dict entries) (dict entries') ↔ _ := sameChildren_dict hd he
      rw [hchildren, eqv, Bool.and_eq_true, beq_iff_eq, SameShape, true_and]
    | _ => simp [eqv, SameShape]
  | seq kind items =>
    cases e with
    | seq kind' items' => rw [sameChildren_seq, eqv, Bool.and_eq_true, decide_eq_true_eq, SameShape]
    | _ => simp [eqv, SameShape]

theorem eqv_refl [ReflBEq α] (hd : Everywhere Named d) : d.eqv d = true := by
  induction d using of_children with
  | h d ih =>
    obtain ⟨hnamed, hbelow⟩ := hd
    refine (eqv_iff hnamed hnamed).mpr ⟨SameShape.refl d, ?_, ?_⟩
    · intro child hchild
      exact ⟨child.2, Assoc.get?_of_mem hnamed hchild, ih child hchild (hbelow child hchild)⟩
    · intro child hchild
      exact List.mem_map_of_mem hchild

theorem eqv_symm [PartialEquivBEq α] (hd : Everywhere Named d) (he : Everywhere Named e)
    (h : d.eqv e = true) : e.eqv d = true := by
  induction d using of_children generalizing e with
  | h d ih =>
    obtain ⟨hnamed, hbelow⟩ := hd
    obtain ⟨hnamed', hbelow'⟩ := he
    obtain ⟨hshape, hchildren, hothers⟩ := (eqv_iff hnamed hnamed').mp h
    refine (eqv_iff hnamed' hnamed).mpr ⟨hshape.symm, ?_, ?_⟩
    · intro child' hchild'
      obtain ⟨child, hchild, hslot⟩ := List.mem_map.mp (hothers child' hchild')
      obtain ⟨e', he', heqv⟩ := hchildren child hchild
      have hsame := Assoc.get?_of_mem hnamed' hchild'
      rw [← hslot, he'] at hsame
      cases hsame
      exact ⟨child.2, by rw [← hslot]; exact Assoc.get?_of_mem hnamed hchild,
        ih child hchild (hbelow child hchild) (hbelow' child' hchild') heqv⟩
    · intro child hchild
      obtain ⟨e', he', -⟩ := hchildren child hchild
      exact Assoc.mem_keys_iff.mpr ⟨e', he'⟩

theorem eqv_trans [PartialEquivBEq α] (hd : Everywhere Named d) (he : Everywhere Named e)
    (hf : Everywhere Named f) (h : d.eqv e = true) (h' : e.eqv f = true) : d.eqv f = true := by
  induction d using of_children generalizing e f with
  | h d ih =>
    obtain ⟨hnamed, hbelow⟩ := hd
    obtain ⟨hnamed', hbelow'⟩ := he
    obtain ⟨hnamed'', hbelow''⟩ := hf
    obtain ⟨hshape, hchildren, hothers⟩ := (eqv_iff hnamed hnamed').mp h
    obtain ⟨hshape', hchildren', hothers'⟩ := (eqv_iff hnamed' hnamed'').mp h'
    refine (eqv_iff hnamed hnamed'').mpr ⟨hshape.trans hshape', ?_, ?_⟩
    · intro child hchild
      obtain ⟨e', he', heqv⟩ := hchildren child hchild
      have hmem := Assoc.mem_of_get? he'
      obtain ⟨f', hf', heqv'⟩ := hchildren' _ hmem
      exact ⟨f', hf', ih child hchild (hbelow child hchild) (hbelow' _ hmem)
        (hbelow'' _ (Assoc.mem_of_get? hf')) heqv heqv'⟩
    · intro child hchild
      obtain ⟨child', hchild', hslot⟩ := List.mem_map.mp (hothers' child hchild)
      rw [← hslot]
      exact hothers child' hchild'

end equivalence

/-- A document in which no two children of one place have the same slot. -/
abbrev NamedDocument (τ σ α : Type*) := {d : Document τ σ α // Everywhere Named d}

section instances
variable [DecidableEq τ] [DecidableEq σ] [BEq α]

instance : BEq (NamedDocument τ σ α) where
  beq d e := d.val.eqv e.val

instance [EquivBEq α] : EquivBEq (NamedDocument τ σ α) where
  rfl {d} := eqv_refl d.property
  symm {d e} h := eqv_symm d.property e.property h
  trans {d e f} h h' := eqv_trans d.property e.property f.property h h'

end instances

section agreement
variable [DecidableEq τ] [BEq α] (Spare : Slot τ × Document τ σ α → Prop)

/-- The documents agree but for spare children that only one of them has. Where the first has none, the
second must not have any. -/
inductive AgreeUpTo : Document τ σ α → Document τ σ α → Prop
  | intro {d e : Document τ σ α} (shape : SameShape d e) (bare : d.children = [] → e.children = [])
      (common : ∀ s d' e', Assoc.get? s d.children = some d' → Assoc.get? s e.children = some e' →
        AgreeUpTo d' e')
      (left : ∀ child ∈ d.children, child.1 ∉ e.children.map Prod.fst → Spare child)
      (right : ∀ child ∈ e.children, child.1 ∉ d.children.map Prod.fst → Spare child) : AgreeUpTo d e

/-- The common children agree, and the others are spare. -/
structure ChildrenAgree (d e : Document τ σ α) : Prop where
  common : ∀ s d' e', Assoc.get? s d.children = some d' → Assoc.get? s e.children = some e' →
    AgreeUpTo Spare d' e'
  left : ∀ child ∈ d.children, child.1 ∉ e.children.map Prod.fst → Spare child
  right : ∀ child ∈ e.children, child.1 ∉ d.children.map Prod.fst → Spare child

variable {Spare} {d e : Document τ σ α}

lemma agreeUpTo_iff : AgreeUpTo Spare d e ↔
    SameShape d e ∧ (d.children = [] → e.children = []) ∧ ChildrenAgree Spare d e := by
  constructor
  · rintro ⟨shape, bare, common, left, right⟩
    exact ⟨shape, bare, common, left, right⟩
  · rintro ⟨shape, bare, common, left, right⟩
    exact .intro shape bare common left right

/-- The same children agree if equal ones do. -/
lemma SameChildren.agree [DecidableEq σ] (h : SameChildren d e)
    (hagree : ∀ child ∈ d.children, ∀ e', Assoc.get? child.1 e.children = some e' →
      child.2.eqv e' = true → AgreeUpTo Spare child.2 e') : ChildrenAgree Spare d e := by
  constructor
  · intro s d' e' hd' he'
    exact hagree _ (Assoc.mem_of_get? hd') e' he' (h.eqv_of_get? hd' he')
  · intro child hchild hmissing
    exact absurd ((h.mem_keys child.1).mp (List.mem_map_of_mem hchild)) hmissing
  · intro child hchild hmissing
    exact absurd ((h.mem_keys child.1).mpr (List.mem_map_of_mem hchild)) hmissing

/-- Equal documents agree. -/
theorem AgreeUpTo.of_eqv [DecidableEq σ] (hd : Everywhere Named d) (he : Everywhere Named e)
    (h : d.eqv e = true) : AgreeUpTo Spare d e := by
  induction d using of_children generalizing e with
  | h d ih =>
    obtain ⟨hnamed, hbelow⟩ := hd
    obtain ⟨hnamed', hbelow'⟩ := he
    obtain ⟨hshape, hchildren⟩ := (eqv_iff hnamed hnamed').mp h
    refine agreeUpTo_iff.mpr ⟨hshape, ?_, ?_⟩
    · intro hnil
      apply List.eq_nil_iff_forall_not_mem.mpr
      intro child hchild
      have hmem := hchildren.2 child hchild
      rw [hnil] at hmem
      cases hmem
    · apply hchildren.agree
      intro child hchild e' he' heqv
      exact ih child hchild (hbelow child hchild) (hbelow' _ (Assoc.mem_of_get? he')) heqv

theorem ChildrenAgree.of_eqv [DecidableEq σ] (hd : Everywhere Named d) (he : Everywhere Named e)
    (h : d.eqv e = true) : ChildrenAgree Spare d e :=
  (agreeUpTo_iff.mp (AgreeUpTo.of_eqv hd he h)).2.2

end agreement
end Document
