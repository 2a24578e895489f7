import PySOA.Client.Expansions

/-! What `find_objects` finds: the outermost objects of a type, each at its own position, in the order of
the document. -/
namespace PySOA

namespace Value

/-- The values of a dict or the elements of a list, in their order. -/
def children : Value → List Value
  | dict kvs => kvs.map Prod.snd
  | list vs => vs
  | _ => []

/-- What is at a position: the way down to it, by the places among the children. -/
def descend : Value → List ℕ → Option Value
  | v, [] => some v
  | v, i :: p => v.children[i]?.bind fun child => descend child p

section induction
variable {P : Value → Prop}

mutual
theorem of_children (h : ∀ v, (∀ child ∈ v.children, P child) → P v) : ∀ v, P v
  | none => h _ fun _ hchild => nomatch hchild
  | bool _ => h _ fun _ hchild => nomatch hchild
  | int _ => h _ fun _ hchild => nomatch hchild
  | float _ => h _ fun _ hchild => nomatch hchild
  | text _ => h _ fun _ hchild => nomatch hchild
  | bytes _ => h _ fun _ hchild => nomatch hchild
  | list vs => h _ (of_children_items h vs)
  | dict kvs => h _ (of_children_entries h kvs)
  | object _ => h _ fun _ hchild => nomatch hchild
  | unconvertible _ => h _ fun _ hchild => nomatch hchild

theorem of_children_items (h : ∀ v, (∀ child ∈ v.children, P child) → P v) :
    ∀ vs : List Value, ∀ child ∈ vs, P child
  | [] => fun _ hchild => nomatch hchild
  | v :: vs => List.forall_mem_cons.mpr ⟨of_children h v, of_children_items h vs⟩

theorem of_children_entries (h : ∀ v, (∀ child ∈ v.children, P child) → P v) :
    ∀ kvs : List (Key × Value), ∀ child ∈ kvs.map Prod.snd, P child
  | [] => fun _ hchild => nomatch hchild
  | (_, v) :: kvs => List.forall_mem_cons.mpr ⟨of_children h v, of_children_entries h kvs⟩
end

end induction

end Value

/-- The `_type` of a dict is equal to the type of a node; a dict without one has `None`. -/
def OfType (type : Option String) (kvs : Dict) : Prop :=
  (Dict.get? kvs "_type").getD .none = type.elim .none .text

lemma hasType_iff {type : Option String} {kvs : Dict} : hasType type kvs = true ↔ OfType type kvs := by
  unfold hasType OfType
  generalize (Dict.get? kvs "_type").getD .none = v
  cases type <;> cases v <;> simp

/-- At the position is a dict of the type, and that is not inside another such dict. -/
def Outermost (type : Option String) (v : Value) (p : List ℕ) (kvs : Dict) : Prop :=
  v.descend p = some (.dict kvs) ∧ OfType type kvs ∧
    ∀ q kvs', q <+: p → q ≠ p → v.descend q = some (.dict kvs') → ¬OfType type kvs'

section step
variable {type : Option String} {v : Value}

lemma outermost_nil {kvs : Dict} : Outermost type v [] kvs ↔ v = .dict kvs ∧ OfType type kvs := by
  constructor
  · rintro ⟨hv, htype, -⟩
    exact ⟨Option.some.inj hv, htype⟩
  · rintro ⟨rfl, htype⟩
    refine ⟨rfl, htype, ?_⟩
    intro q kvs' hq hne
    exact absurd (List.prefix_nil.mp hq) hne

/-- Further down only what is not itself of the type is searched. -/
lemma outermost_cons {i : ℕ} {p : List ℕ} {kvs : Dict} :
    Outermost type v (i :: p) kvs ↔ (∀ kvs', v = .dict kvs' → ¬OfType type kvs') ∧
      ∃ child, v.children[i]? = some child ∧ Outermost type child p kvs := by
  constructor
  · rintro ⟨hv, htype, hfront⟩
    obtain ⟨child, hchild, hv⟩ := Option.bind_eq_some_iff.mp hv
    refine ⟨?_, child, hchild, hv, htype, ?_⟩
    · rintro kvs' rfl
      exact hfront [] kvs' List.nil_prefix (List.cons_ne_nil i p).symm rfl
    · intro q kvs' hq hne hat
      apply hfront (i :: q) kvs' (List.cons_prefix_cons.mpr ⟨rfl, hq⟩)
      · intro h
        exact hne (List.cons.inj h).2
      · rw [Value.descend, hchild]
        exact hat
  · rintro ⟨hself, child, hchild, hv, htype, hfront⟩
    refine ⟨?_, htype, ?_⟩
    · rw [Value.descend, hchild]
      exact hv
    · intro q kvs' hq hne hat
      cases q with
      | nil => exact hself kvs' (Option.some.inj hat)
      | cons j q =>
        obtain ⟨rfl, hfrontq⟩ := List.cons_prefix_cons.mp hq
        rw [Value.descend, hchild] at hat
        apply hfront q kvs' hfrontq _ hat
        rintro rfl
        exact hne rfl

end step

section search
variable (type : Option String)

/-- The entries of a dict are searched as the list of its values. -/
lemma findInEntries_eq (path : List ℕ) (i : ℕ) (kvs : Dict) :
    findInEntries type path i kvs = findInItems type path i (kvs.map Prod.snd) := by
  induction kvs generalizing i with
  | nil => simp [findInEntries, findInItems]
  | cons entry kvs ih =>
    obtain ⟨k, v⟩ := entry
    simp [findInEntries, findInItems, ih]

/-- The search finds the value itself, if it is of the type, or searches its children. -/
lemma findObjects_eq (path : List ℕ) (v : Value) :
    (∃ kvs, v = .dict kvs ∧ OfType type kvs ∧ findObjects type path v = [(path, kvs)]) ∨
      (∀ kvs, v = .dict kvs → ¬OfType type kvs) ∧
        findObjects type path v = findInItems type path 0 v.children := by
  cases v with
  | dict kvs =>
    by_cases htype : OfType type kvs
    · exact .inl ⟨kvs, rfl, htype, by rw [findObjects, if_pos (hasType_iff.mpr htype)]⟩
    · right
      constructor
      · intro kvs' h
        cases h
        exact htype
      · rw [findObjects, if_neg (hasType_iff.not.mpr htype), findInEntries_eq]
        rfl
  | list vs =>
    right
    constructor
    · intro kvs h
      cases h
    · rw [findObjects]
      rfl
  | _ =>
    right
    constructor
    · intro kvs h
      cases h
    · simp [findObjects, Value.children, findInItems]

lemma mem_findInItems {vs : List Value}
    (h : ∀ child ∈ vs, ∀ {path p kvs}, (p, kvs) ∈ findObjects type path child ↔
      ∃ q, p = path ++ q ∧ Outermost type child q kvs) {path p : List ℕ} {i : ℕ} {kvs : Dict} :
    (p, kvs) ∈ findInItems type path i vs ↔
      ∃ j child q, vs[j]? = some child ∧ p = path ++ (i+j) :: q ∧ Outermost type child q kvs := by
  induction vs generalizing i with
  | nil => simp [findInItems]
  | cons v vs ih =>
    rw [findInItems, List.mem_append, h v List.mem_cons_self,
      ih fun child hchild => h child (List.mem_cons_of_mem _ hchild)]
    constructor
    · rintro (⟨q, rfl, hq⟩ | ⟨j, child, q, hchild, rfl, hq⟩)
      · exact ⟨0, v, q, rfl, by simp, hq⟩
      · exact ⟨j+1, child, q, hchild, by rw [Nat.add_assoc, Nat.add_comm 1 j], hq⟩
    · rintro ⟨j, child, q, hchild, rfl, hq⟩
      cases j with
      | zero =>
        cases hchild
        exact .inl ⟨q, by simp, hq⟩
      | succ j => exact .inr ⟨j, child, q, hchild, by rw [Nat.add_assoc, Nat.add_comm 1 j], hq⟩

lemma mem_findObjects {path p : List ℕ} {v : Value} {kvs : Dict} :
    (p, kvs) ∈ findObjects type path v ↔ ∃ q, p = path ++ q ∧ Outermost type v q kvs := by
  induction v using Value.of_children generalizing path p kvs with
  | h v ih =>
    obtain ⟨kvs', rfl, htype, hfound⟩ | ⟨hself, hfound⟩ := findObjects_eq type path v
    · rw [hfound, List.mem_singleton, Prod.mk.injEq]
      constructor
      · rintro ⟨rfl, rfl⟩
        exact ⟨[], by simp, outermost_nil.mpr ⟨rfl, htype⟩⟩
      · rintro ⟨q, rfl, hq⟩
        cases q with
        | nil =>
          obtain ⟨heq, -⟩ := outermost_nil.mp hq
          cases heq
          exact ⟨by simp, rfl⟩
        | cons i q => exact absurd htype ((outermost_cons.mp hq).1 kvs' rfl)
    · rw [hfound, mem_findInItems type fun child hchild => ih child hchild]
      constructor
      · rintro ⟨j, child, q, hchild, rfl, hq⟩
        exact ⟨j :: q, by simp, outermost_cons.mpr ⟨hself, child, hchild, hq⟩⟩
      · rintro ⟨q, rfl, hq⟩
        cases q with
        | nil =>
          obtain ⟨rfl, htype⟩ := outermost_nil.mp hq
          exact absurd htype (hself kvs rfl)
        | cons i q =>
          obtain ⟨-, child, hchild, hq⟩ := outermost_cons.mp hq
          exact ⟨i, child, q, hchild, by simp, hq⟩

lemma ordered_findInItems {vs : List Value} (path : List ℕ) (i : ℕ)
    (h : ∀ child ∈ vs, ∀ path, ((findObjects type path child).map Prod.fst).Pairwise (· < ·)) :
    ((findInItems type path i vs).map Prod.fst).Pairwise (· < ·) := by
  induction vs generalizing i with
  | nil => simp [findInItems]
  | cons v vs ih =>
    rw [findInItems, List.map_append, List.pairwise_append]
    refine ⟨h v List.mem_cons_self _, ih _ fun child hchild => h child (List.mem_cons_of_mem _ hchild), ?_⟩
    intro p hp q hq
    obtain ⟨⟨p, kvs⟩, hfirst, rfl⟩ := List.mem_map.mp hp
    obtain ⟨⟨q, kvs'⟩, hlater, rfl⟩ := List.mem_map.mp hq
    obtain ⟨p, rfl, -⟩ := (mem_findObjects type).mp hfirst
    obtain ⟨j, child, q, -, rfl, -⟩ :=
      (mem_findInItems type fun child _ => mem_findObjects type).mp hlater
    rw [List.append_assoc]
    apply List.append_left_lt
    apply List.cons_lt_cons_iff.mpr
    left
    omega

lemma ordered_findObjects (path : List ℕ) (v : Value) :
    ((findObjects type path v).map Prod.fst).Pairwise (· < ·) := by
  induction v using Value.of_children generalizing path with
  | h v ih =>
    obtain ⟨kvs, rfl, -, hfound⟩ | ⟨-, hfound⟩ := findObjects_eq type path v
    · rw [hfound]
      exact List.pairwise_singleton _ _
    · rw [hfound]
      exact ordered_findInItems type path 0 ih

/-- `find_objects` gives the outermost dicts of the type, by position, each once and in the order of the
document, in which positions are compared from the left. -/
theorem findObjects_outermost (v : Value) :
    (∀ p kvs, (p, kvs) ∈ findObjects type [] v ↔ Outermost type v p kvs) ∧
    ((findObjects type [] v).map Prod.fst).Nodup ∧
    ((findObjects type [] v).map Prod.fst).Pairwise (· < ·) := by
  have hordered := ordered_findObjects type [] v
  refine ⟨?_, hordered.imp fun h => ne_of_lt h, hordered⟩
  intro p kvs
  rw [mem_findObjects]
  simp

end search
end PySOA
