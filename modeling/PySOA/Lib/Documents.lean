import Mathlib.Data.List.Nodup
import PySOA.Lib.Assoc

/-! Documents of nested mappings and sequences: what is at a path, the paths to the tips, and putting
values at paths. Putting the tips of a document into an empty one, one after the other, rebuilds it. -/

/-- A step into a document. -/
inductive Slot (τ : Type*)
  | name (t : τ)
  | index (i : ℕ)
  deriving DecidableEq, Repr

/-- Sequences come in kinds `σ`. -/
inductive Document (τ σ α : Type*)
  | leaf (a : α)
  | dict (entries : List (Slot τ × Document τ σ α))
  | seq (kind : σ) (items : List (Document τ σ α))

namespace Document
variable {τ σ α : Type*}

/-- Items with their places, counted from `i`. -/
def indexed (i : ℕ) : List (Document τ σ α) → List (Slot τ × Document τ σ α)
  | [] => []
  | d :: items => (.index i, d) :: indexed (i+1) items

def children : Document τ σ α → List (Slot τ × Document τ σ α)
  | leaf _ => []
  | dict entries => entries
  | seq _ items => indexed 0 items

/-- A property of a document and of all that is nested in it. -/
inductive Everywhere (P : Document τ σ α → Prop) : Document τ σ α → Prop
  | intro {d : Document τ σ α} (here : P d) (below : ∀ child ∈ d.children, Everywhere P child.2) :
      Everywhere P d

/-- The document at a path. -/
def get? [DecidableEq τ] : Document τ σ α → List (Slot τ) → Option (Document τ σ α)
  | d, [] => some d
  | d, s :: p => (Assoc.get? s d.children).bind fun child => get? child p

/-- Leaves are tips; if `blank` is set then so are empty mappings and sequences. -/
def isTip (blank : Bool) : Document τ σ α → Bool
  | leaf _ => true
  | dict entries => blank && entries.isEmpty
  | seq _ items => blank && items.isEmpty

mutual
/-- The tips of a document with the paths to them. -/
def tips (blank : Bool) : Document τ σ α → List (List (Slot τ) × Document τ σ α)
  | leaf a => [([], leaf a)]
  | dict entries => if blank && entries.isEmpty then [([], dict entries)] else entryTips blank entries
  | seq kind items => if blank && items.isEmpty then [([], seq kind items)] else itemTips blank 0 items

def entryTips (blank : Bool) :
    List (Slot τ × Document τ σ α) → List (List (Slot τ) × Document τ σ α)
  | [] => []
  | (s, d) :: entries => (tips blank d).map (Prod.map (s :: ·) id) ++ entryTips blank entries

def itemTips (blank : Bool) (i : ℕ) : List (Document τ σ α) → List (List (Slot τ) × Document τ σ α)
  | [] => []
  | d :: items => (tips blank d).map (Prod.map (.index i :: ·) id) ++ itemTips blank (i+1) items
end

section induction
variable {P : Document τ σ α → Prop}

mutual
theorem of_children (h : ∀ d, (∀ child ∈ d.children, P child.2) → P d) : ∀ d, P d
  | leaf _ => h _ fun _ hchild => nomatch hchild
  | dict entries => h _ (of_children_entries h entries)
  | seq _ items => h _ (of_children_items h 0 items)

theorem of_children_entries (h : ∀ d, (∀ child ∈ d.children, P child.2) → P d) :
    ∀ entries : List (Slot τ × Document τ σ α), ∀ child ∈ entries, P child.2
  | [], _, hchild => nomatch hchild
  | (_, d) :: entries, child, hchild => by
    obtain rfl | hchild := List.mem_cons.mp hchild
    · exact of_children h d
    · exact of_children_entries h entries child hchild

theorem of_children_items (h : ∀ d, (∀ child ∈ d.children, P child.2) → P d) (i : ℕ) :
    ∀ items : List (Document τ σ α), ∀ child ∈ indexed i items, P child.2
  | [], _, hchild => nomatch hchild
  | d :: items, child, hchild => by
    obtain rfl | hchild := List.mem_cons.mp hchild
    · exact of_children h d
    · exact of_children_items h (i+1) items child hchild
end

lemma Everywhere.leaf {a : α} (h : P (leaf a)) : Everywhere P (leaf a) := .intro h fun _ hchild => nomatch hchild

lemma Everywhere.mono {Q : Document τ σ α → Prop} (h : ∀ {d}, P d → Q d) {d : Document τ σ α}
    (hd : Everywhere P d) : Everywhere Q d := by
  induction hd with
  | intro here below ih => exact .intro (h here) ih

end induction

section children
variable {d : Document τ σ α}

lemma exists_index_of_mem_indexed {i : ℕ} {items : List (Document τ σ α)} {child : Slot τ × Document τ σ α}
    (h : child ∈ indexed i items) : ∃ j, i ≤ j ∧ child.1 = .index j := by
  induction items generalizing i with
  | nil => cases h
  | cons d items ih =>
    obtain rfl | h := List.mem_cons.mp h
    · exact ⟨i, Nat.le_refl i, rfl⟩
    · obtain ⟨j, hj, heq⟩ := ih h
      exact ⟨j, by omega, heq⟩

lemma nodup_indexed (i : ℕ) (items : List (Document τ σ α)) : ((indexed i items).map Prod.fst).Nodup := by
  induction items generalizing i with
  | nil => exact List.nodup_nil
  | cons d items ih =>
    rw [indexed, List.map_cons, List.nodup_cons]
    refine ⟨?_, ih (i+1)⟩
    intro hmem
    obtain ⟨child, hchild, heq⟩ := List.mem_map.mp hmem
    obtain ⟨j, hj, hindex⟩ := exists_index_of_mem_indexed hchild
    cases heq.symm.trans hindex
    omega

lemma get?_index_indexed [DecidableEq τ] (i j : ℕ) (items : List (Document τ σ α)) :
    Assoc.get? (Slot.index (i+j) : Slot τ) (indexed i items) = items[j]? := by
  induction items generalizing i j with
  | nil => rfl
  | cons d items ih =>
    rw [indexed, Assoc.get?_cons]
    cases j with
    | zero => rw [Nat.add_zero, if_pos rfl, List.getElem?_cons_zero]
    | succ j =>
      have hne : (Slot.index i : Slot τ) ≠ .index (i + (j+1)) := by
        intro h
        cases h
      have hplace : i + (j+1) = i + 1 + j := by omega
      rw [if_neg hne, hplace, ih, List.getElem?_cons_succ]

lemma itemTips_eq (blank : Bool) (i : ℕ) (items : List (Document τ σ α)) :
    itemTips blank i items = entryTips blank (indexed i items) := by
  induction items generalizing i with
  | nil => rw [itemTips, indexed, entryTips]
  | cons d items ih => rw [itemTips, indexed, entryTips, ih]

/-- A document is a tip, or its tips are those of its children. -/
lemma tips_eq (blank : Bool) (d : Document τ σ α) :
    tips blank d = if d.isTip blank then [([], d)] else entryTips blank d.children := by
  cases d with
  | leaf a => rw [tips, isTip, if_pos rfl]
  | dict entries => rw [tips, isTip, children]
  | seq kind items => rw [tips, isTip, children, itemTips_eq]

lemma children_of_isTip {blank : Bool} (h : d.isTip blank = true) : d.children = [] := by
  cases d with
  | leaf a => rfl
  | dict entries => exact List.isEmpty_iff.mp (Bool.and_eq_true_iff.mp h).2
  | seq kind items =>
    have hitems : items = [] := List.isEmpty_iff.mp (Bool.and_eq_true_iff.mp h).2
    rw [hitems]
    rfl

lemma mem_entryTips {blank : Bool} {entries : List (Slot τ × Document τ σ α)} {p : List (Slot τ)}
    {v : Document τ σ α} : (p, v) ∈ entryTips blank entries ↔
      ∃ child ∈ entries, ∃ q, p = child.1 :: q ∧ (q, v) ∈ tips blank child.2 := by
  induction entries with
  | nil => simp [entryTips]
  | cons entry entries ih =>
    obtain ⟨s, d⟩ := entry
    rw [entryTips, List.mem_append, ih, List.exists_mem_cons_iff]
    apply or_congr_left
    constructor
    · intro h
      obtain ⟨⟨q, w⟩, hq, heq⟩ := List.mem_map.mp h
      cases heq
      exact ⟨q, rfl, hq⟩
    · rintro ⟨q, rfl, hq⟩
      exact List.mem_map.mpr ⟨(q, v), hq, rfl⟩

end children

section Named

/-- No two children have the same slot. -/
def Named (d : Document τ σ α) : Prop := (d.children.map Prod.fst).Nodup

variable {d : Document τ σ α} {blank : Bool}

/-- The tips below the children are what the document has at their paths, if this is so for the
children. -/
lemma mem_entryTips_children [DecidableEq τ] (hnamed : d.Named)
    (h : ∀ child ∈ d.children, ∀ {q v}, (q, v) ∈ tips blank child.2 ↔
      child.2.get? q = some v ∧ v.isTip blank = true) {p : List (Slot τ)} {v : Document τ σ α} :
    (p, v) ∈ entryTips blank d.children ↔ p ≠ [] ∧ d.get? p = some v ∧ v.isTip blank = true := by
  rw [mem_entryTips]
  constructor
  · rintro ⟨child, hchild, q, rfl, hq⟩
    obtain ⟨hget, hv⟩ := (h child hchild).mp hq
    refine ⟨List.cons_ne_nil _ _, ?_, hv⟩
    rw [get?, Assoc.get?_of_mem hnamed hchild]
    exact hget
  · rintro ⟨hne, hget, hv⟩
    obtain ⟨s, q, rfl⟩ := List.exists_cons_of_ne_nil hne
    obtain ⟨child, hchild, hget⟩ := Option.bind_eq_some_iff.mp hget
    have hmem := Assoc.mem_of_get? hchild
    exact ⟨(s, child), hmem, q, rfl, (h _ hmem).mpr ⟨hget, hv⟩⟩

/-- The tips are what the document has at their paths. -/
theorem mem_tips [DecidableEq τ] (hd : Everywhere Named d) {p : List (Slot τ)} {v : Document τ σ α} :
    (p, v) ∈ d.tips blank ↔ d.get? p = some v ∧ v.isTip blank = true := by
  induction d using of_children generalizing p v with
  | h d ih =>
    obtain ⟨hnamed, hbelow⟩ := hd
    rw [tips_eq]
    by_cases htip : d.isTip blank = true
    · rw [if_pos htip, List.mem_singleton, Prod.mk.injEq]
      constructor
      · rintro ⟨rfl, rfl⟩
        exact ⟨rfl, htip⟩
      · rintro ⟨hget, -⟩
        cases p with
        | nil => exact ⟨rfl, (Option.some.inj hget).symm⟩
        | cons s p =>
          rw [get?, children_of_isTip htip] at hget
          cases hget
    · rw [if_neg htip, mem_entryTips_children hnamed fun child hchild => ih child hchild (hbelow child hchild)]
      apply and_iff_right_of_imp
      rintro ⟨hget, hv⟩ rfl
      cases hget
      exact htip hv

lemma nodup_entryTips {entries : List (Slot τ × Document τ σ α)} (hnodup : (entries.map Prod.fst).Nodup)
    (h : ∀ child ∈ entries, ((tips blank child.2).map Prod.fst).Nodup) :
    ((entryTips blank entries).map Prod.fst).Nodup := by
  induction entries with
  | nil =>
    rw [entryTips]
    exact List.nodup_nil
  | cons entry entries ih =>
    obtain ⟨s, d⟩ := entry
    rw [List.map_cons, List.nodup_cons] at hnodup
    have hfirst : ((tips blank d).map (Prod.map (s :: ·) id)).map Prod.fst =
        ((tips blank d).map Prod.fst).map (s :: ·) := by
      rw [List.map_map, List.map_map]
      rfl
    rw [entryTips, List.map_append, hfirst, List.nodup_append]
    refine ⟨?_, ih hnodup.2 fun child hchild => h child (List.mem_cons_of_mem _ hchild), ?_⟩
    · exact (h (s, d) List.mem_cons_self).map (List.cons_injective)
    · rintro p hp q hq rfl
      obtain ⟨p', -, rfl⟩ := List.mem_map.mp hp
      obtain ⟨⟨_, v⟩, htip, heq⟩ := List.mem_map.mp hq
      cases heq
      obtain ⟨child, hchild, q, hcons, -⟩ := mem_entryTips.mp htip
      apply hnodup.1
      rw [(List.cons.inj hcons).1]
      exact List.mem_map.mpr ⟨child, hchild, rfl⟩

theorem nodup_tips (hd : Everywhere Named d) : ((d.tips blank).map Prod.fst).Nodup := by
  induction d using of_children with
  | h d ih =>
    obtain ⟨hnamed, hbelow⟩ := hd
    rw [tips_eq]
    split_ifs with htip
    · exact List.nodup_singleton _
    · exact nodup_entryTips hnamed fun child hchild => ih child hchild (hbelow child hchild)

end Named

section put
variable [DecidableEq τ] [DecidableEq σ] (grows : σ)

/-- The empty document in which a path can start. -/
def blankFor : List (Slot τ) → Document τ σ α
  | .index _ :: _ => seq grows []
  | _ => dict []

/-- Changes what is at a slot. A new entry starts as the blank document, and a sequence of the kind
that grows is filled up with it. -/
def putSlot (s : Slot τ) (blank : Document τ σ α) (f : Document τ σ α → Option (Document τ σ α)) :
    Document τ σ α → Option (Document τ σ α)
  | leaf _ => none
  | dict entries =>
    (f ((Assoc.get? s entries).getD blank)).map fun d => dict (Assoc.upsert s (fun _ => d) entries)
  | seq kind items =>
    match s with
    | .name _ => none
    | .index i =>
      if kind = grows then
        (f (items[i]?.getD blank)).map fun d =>
          seq kind ((items ++ List.replicate (i + 1 - items.length) blank).set i d)
      else none

/-- Puts a value at a path. -/
def put? : Document τ σ α → List (Slot τ) → Document τ σ α → Option (Document τ σ α)
  | _, [], v => some v
  | out, s :: p, v => putSlot grows s (blankFor grows p) (fun d => put? d p v) out

/-- Puts values at their paths, one after the other. -/
def putAll (out : Document τ σ α) (l : List (List (Slot τ) × Document τ σ α)) : Option (Document τ σ α) :=
  l.foldlM (fun out tip => put? grows out tip.1 tip.2) out

/-- The document with one more child. -/
def addChild (s : Slot τ) (d : Document τ σ α) : Document τ σ α → Document τ σ α
  | leaf a => leaf a
  | dict entries => dict (entries ++ [(s, d)])
  | seq kind items => seq kind (items ++ [d])

/-- The slot is that of the next child. -/
def Fresh (s : Slot τ) : Document τ σ α → Prop
  | leaf _ => False
  | dict entries => s ∉ entries.map Prod.fst
  | seq kind items => kind = grows ∧ s = .index items.length

variable {grows} {out d : Document τ σ α} {s : Slot τ} {blank : Document τ σ α}
  {f : Document τ σ α → Option (Document τ σ α)}

lemma putSlot_fresh (h : Fresh grows s out) :
    putSlot grows s blank f out = (f blank).map (addChild s · out) := by
  cases out with
  | leaf a => exact h.elim
  | dict entries =>
    rw [putSlot, Assoc.get?_of_notMem h, Option.getD_none]
    congr 1
    funext d
    rw [Assoc.upsert_of_notMem h, addChild]
  | seq kind items =>
    obtain ⟨hkind, rfl⟩ := h
    have hone : items.length + 1 - items.length = 1 := by omega
    rw [putSlot, if_pos hkind, List.getElem?_eq_none (Nat.le_refl _), Option.getD_none, hone]
    congr 1
    funext d
    rw [List.replicate_one, List.set_append_right _ _ (Nat.le_refl _), Nat.sub_self, addChild]
    rfl

lemma putSlot_addChild (h : Fresh grows s out) :
    putSlot grows s blank f (addChild s d out) = (f d).map (addChild s · out) := by
  cases out with
  | leaf a => exact h.elim
  | dict entries =>
    rw [addChild, putSlot, Assoc.get?_append_of_notMem h, Assoc.get?_cons, if_pos rfl, Option.getD_some]
    congr 1
    funext d'
    rw [Assoc.upsert_append_of_notMem h, Assoc.upsert, if_pos rfl, addChild]
  | seq kind items =>
    obtain ⟨hkind, rfl⟩ := h
    have hnone : items.length + 1 - (items ++ [d]).length = 0 := by
      rw [List.length_append, List.length_singleton, Nat.sub_self]
    rw [addChild, putSlot, if_pos hkind, List.getElem?_append_right (Nat.le_refl _), Nat.sub_self,
      List.getElem?_cons_zero, Option.getD_some, hnone]
    congr 1
    funext d'
    rw [List.replicate_zero, List.append_nil, List.set_append_right _ _ (Nat.le_refl _), Nat.sub_self,
      addChild]
    rfl

lemma putAll_cons (tip : List (Slot τ) × Document τ σ α) (l : List (List (Slot τ) × Document τ σ α)) :
    putAll grows out (tip :: l) = (put? grows out tip.1 tip.2).bind fun out => putAll grows out l := rfl

lemma putAll_append (l l' : List (List (Slot τ) × Document τ σ α)) :
    putAll grows out (l ++ l') = (putAll grows out l).bind fun out => putAll grows out l' :=
  List.foldlM_append

/-- What is put below the last child changes that child only. -/
lemma putAll_addChild (h : Fresh grows s out) (l : List (List (Slot τ) × Document τ σ α)) :
    putAll grows (addChild s d out) (l.map (Prod.map (s :: ·) id)) =
      (putAll grows d l).map (addChild s · out) := by
  induction l generalizing d with
  | nil => rfl
  | cons tip l ih =>
    rw [List.map_cons, putAll_cons, putAll_cons, Prod.map_fst, put?, putSlot_addChild h, Option.bind_map,
      Option.map_bind, Prod.map_snd, id]
    congr 1
    funext d'
    exact ih

/-- What is put below a new slot makes a new child. -/
lemma putAll_fresh (h : Fresh grows s out) (tip : List (Slot τ) × Document τ σ α)
    (l : List (List (Slot τ) × Document τ σ α)) :
    putAll grows out ((tip :: l).map (Prod.map (s :: ·) id)) =
      (putAll grows (blankFor grows tip.1) (tip :: l)).map (addChild s · out) := by
  rw [List.map_cons, putAll_cons, putAll_cons, Prod.map_fst, put?, putSlot_fresh h, Option.bind_map,
    Option.map_bind, Prod.map_snd, id]
  congr 1
  funext d
  exact putAll_addChild h l

end put

section rebuild
variable (grows : σ)

/-- The keys of a mapping are different names, and a sequence is of the kind that grows. -/
def Regular : Document τ σ α → Prop
  | leaf _ => True
  | dict entries => (entries.map Prod.fst).Nodup ∧ ∀ entry ∈ entries, ∃ t, entry.1 = .name t
  | seq kind _ => kind = grows

lemma Regular.named {grows : σ} {d : Document τ σ α} (h : Regular grows d) : Named d := by
  cases d with
  | leaf a => exact List.nodup_nil
  | dict entries => exact h.1
  | seq kind items => exact nodup_indexed 0 items

def addChildren : List (Slot τ × Document τ σ α) → Document τ σ α → Document τ σ α
  | [], out => out
  | (s, d) :: entries, out => addChildren entries (addChild s d out)

/-- Each of the slots is that of the next child, once the children before it are there. -/
def FreshAll : List (Slot τ × Document τ σ α) → Document τ σ α → Prop
  | [], _ => True
  | (s, d) :: entries, out => Fresh grows s out ∧ FreshAll entries (addChild s d out)

variable {grows}

lemma addChildren_dict (entries entries' : List (Slot τ × Document τ σ α)) :
    addChildren entries' (dict entries) = dict (entries ++ entries') := by
  induction entries' generalizing entries with
  | nil => rw [addChildren, List.append_nil]
  | cons entry entries' ih => rw [addChildren, addChild, ih, List.append_cons entries entry entries']

lemma freshAll_dict (entries : List (Slot τ × Document τ σ α)) {entries' : List (Slot τ × Document τ σ α)}
    (h : ((entries ++ entries').map Prod.fst).Nodup) : FreshAll grows entries' (dict entries) := by
  induction entries' generalizing entries with
  | nil => trivial
  | cons entry entries' ih =>
    rw [List.append_cons] at h
    refine ⟨?_, ih _ h⟩
    rw [List.map_append, List.map_append, List.nodup_append, List.nodup_append] at h
    intro hmem
    exact h.1.2.2 _ hmem _ (List.mem_singleton_self _) rfl

lemma addChildren_seq (kind : σ) (items items' : List (Document τ σ α)) (i : ℕ) :
    addChildren (indexed i items') (seq kind items) = seq kind (items ++ items') := by
  induction items' generalizing items i with
  | nil => rw [indexed, addChildren, List.append_nil]
  | cons d items' ih => rw [indexed, addChildren, addChild, ih, List.append_cons items d items']

lemma freshAll_seq (items items' : List (Document τ σ α)) :
    FreshAll grows (indexed items.length items') (seq grows items) := by
  induction items' generalizing items with
  | nil => trivial
  | cons d items' ih =>
    refine ⟨⟨rfl, rfl⟩, ?_⟩
    have hrest := ih (items ++ [d])
    rw [List.length_append, List.length_singleton] at hrest
    exact hrest

variable [DecidableEq τ] [DecidableEq σ]

/-- The tips of a document rebuild it from the document in which their first path can start. -/
def Rebuilt (grows : σ) (d : Document τ σ α) : Prop :=
  ∃ tip l, tips true d = tip :: l ∧ putAll grows (blankFor grows tip.1) (tip :: l) = some d

lemma putAll_entryTips {entries : List (Slot τ × Document τ σ α)}
    (h : ∀ child ∈ entries, Rebuilt grows child.2) {out : Document τ σ α} (hout : FreshAll grows entries out) :
    putAll grows out (entryTips true entries) = some (addChildren entries out) := by
  induction entries generalizing out with
  | nil =>
    rw [entryTips]
    rfl
  | cons entry entries ih =>
    obtain ⟨s, d⟩ := entry
    obtain ⟨hfresh, hrest⟩ := hout
    obtain ⟨tip, l, htips, hput⟩ := h (s, d) List.mem_cons_self
    rw [entryTips, htips, putAll_append, putAll_fresh hfresh, hput]
    exact ih (fun child hchild => h child (List.mem_cons_of_mem _ hchild)) hrest

/-- The first path to a tip below a child starts with the slot of the first child. -/
lemma exists_entryTips_eq_cons {s : Slot τ} {d : Document τ σ α} (h : Rebuilt grows d)
    (entries : List (Slot τ × Document τ σ α)) :
    ∃ p v l, entryTips true ((s, d) :: entries) = (s :: p, v) :: l := by
  obtain ⟨⟨p, v⟩, l, htips, -⟩ := h
  exact ⟨p, v, _, by rw [entryTips, htips]; rfl⟩

theorem rebuilt {d : Document τ σ α} (hd : Everywhere (Regular grows) d) : Rebuilt grows d := by
  induction d using of_children with
  | h d ih =>
    obtain ⟨hregular, hbelow⟩ := hd
    have hchildren : ∀ child ∈ d.children, Rebuilt grows child.2 := fun child hchild =>
      ih child hchild (hbelow child hchild)
    by_cases htip : d.isTip true = true
    · exact ⟨([], d), [], by rw [tips_eq, if_pos htip], rfl⟩
    · cases d with
      | leaf a => exact absurd rfl htip
      | dict entries =>
        cases entries with
        | nil => exact absurd rfl htip
        | cons entry entries =>
          obtain ⟨s, d⟩ := entry
          obtain ⟨t, rfl⟩ : ∃ t, s = .name t := hregular.2 (s, d) List.mem_cons_self
          obtain ⟨p, v, l, hcons⟩ := exists_entryTips_eq_cons (s := .name t)
            (hchildren (.name t, d) List.mem_cons_self) entries
          have hput := putAll_entryTips hchildren (freshAll_dict [] hregular.1)
          rw [addChildren_dict, List.nil_append] at hput
          refine ⟨_, l, (tips_eq true _).trans ((if_neg htip).trans hcons), ?_⟩
          rw [← hcons]
          exact hput
      | seq kind items =>
        cases items with
        | nil => exact absurd rfl htip
        | cons d items =>
          obtain rfl : kind = grows := hregular
          obtain ⟨p, v, l, hcons⟩ := exists_entryTips_eq_cons (s := .index 0)
            (hchildren (.index 0, d) List.mem_cons_self) (indexed 1 items)
          have hput := putAll_entryTips hchildren (freshAll_seq [] (d :: items))
          rw [children, addChildren_seq, List.nil_append] at hput
          refine ⟨_, l, (tips_eq true _).trans ((if_neg htip).trans hcons), ?_⟩
          rw [← hcons]
          exact hput

/-- Putting the tips of the entries of a mapping into an empty one, in order, rebuilds it. -/
theorem putAll_tips_dict {entries : List (Slot τ × Document τ σ α)}
    (h : Everywhere (Regular grows) (dict entries)) :
    putAll grows (dict []) (entryTips true entries) = some (dict entries) := by
  obtain ⟨hregular, hbelow⟩ := h
  have hput := putAll_entryTips (fun child hchild => rebuilt (hbelow child hchild))
    (freshAll_dict [] hregular.1)
  rwa [addChildren_dict, List.nil_append] at hput

end rebuild
end Document
