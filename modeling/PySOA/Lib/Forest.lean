import Mathlib.Data.List.Nodup
import PySOA.Lib.Results

/-! Forests whose nodes have names: paths and leaves, adding nodes to a forest, and growing it
along a path where the name of a node is resolved in the context of its parent. -/

inductive Forest (α : Type*)
  | nil
  | cons (label : α) (children siblings : Forest α)

namespace Forest
variable {α κ γ ε : Type*}

/-- The nodes at the top, each with what is below it. -/
def nodes : Forest α → List (α × Forest α)
  | nil => []
  | cons a children siblings => (a, children) :: siblings.nodes

/-- The labels of all nodes. -/
def labels : Forest α → List α
  | nil => []
  | cons a children siblings => a :: (children.labels ++ siblings.labels)

variable (name : α → κ)

/-- The paths from the top to the nodes. -/
def paths : Forest α → List (List κ)
  | nil => []
  | cons a children siblings => [name a] :: (children.paths.map (name a :: ·) ++ siblings.paths)

/-- The paths from the top to the nodes that have none below them. -/
def leaves : Forest α → List (List κ)
  | nil => []
  | cons a children siblings =>
    match children with
    | nil => [name a] :: siblings.leaves
    | cons .. => children.leaves.map (name a :: ·) ++ siblings.leaves

/-- No two nodes below the same node, or at the top, have one name. -/
def Named : Forest α → Prop
  | nil => True
  | cons a children siblings =>
    (∀ node ∈ siblings.nodes, name node.1 ≠ name a) ∧ children.Named ∧ siblings.Named

section paths
variable {name}

lemma mem_paths_cons {a : α} {children siblings : Forest α} {p : List κ} :
    p ∈ (cons a children siblings).paths name ↔
      (∃ q, p = name a :: q ∧ (q = [] ∨ q ∈ children.paths name)) ∨ p ∈ siblings.paths name := by
  simp only [paths, List.mem_cons, List.mem_append, List.mem_map]
  constructor
  · rintro (rfl | ⟨q, hq, rfl⟩ | h)
    · exact .inl ⟨[], rfl, .inl rfl⟩
    · exact .inl ⟨q, rfl, .inr hq⟩
    · exact .inr h
  · rintro (⟨q, rfl, rfl | hq⟩ | h)
    · exact .inl rfl
    · exact .inr (.inl ⟨q, hq, rfl⟩)
    · exact .inr (.inr h)

lemma mem_leaves_cons {a : α} {children siblings : Forest α} {p : List κ} :
    p ∈ (cons a children siblings).leaves name ↔
      (∃ q, p = name a :: q ∧ (q = [] ∧ children = nil ∨ q ∈ children.leaves name)) ∨
        p ∈ siblings.leaves name := by
  cases children with
  | nil => simp [leaves]
  | cons b children' siblings' =>
    have hcons : (cons a (cons b children' siblings') siblings).leaves name =
        ((cons b children' siblings').leaves name).map (name a :: ·) ++ siblings.leaves name := rfl
    rw [hcons, List.mem_append, List.mem_map]
    apply or_congr_left
    constructor
    · rintro ⟨q, hq, rfl⟩
      exact ⟨q, rfl, .inr hq⟩
    · rintro ⟨q, rfl, ⟨-, hnil⟩ | hq⟩
      · cases hnil
      · exact ⟨q, hq, rfl⟩

lemma ne_nil_of_mem_paths {f : Forest α} {p : List κ} (h : p ∈ f.paths name) : p ≠ [] := by
  induction f with
  | nil => cases h
  | cons a children siblings _ ih =>
    rcases mem_paths_cons.mp h with ⟨q, rfl, -⟩ | h
    · exact List.cons_ne_nil _ _
    · exact ih h

/-- The first name of a path is that of a node at the top. -/
lemma exists_node_of_mem_paths {f : Forest α} {k : κ} {p : List κ} (h : k :: p ∈ f.paths name) :
    ∃ node ∈ f.nodes, name node.1 = k := by
  induction f with
  | nil => cases h
  | cons a children siblings _ ih =>
    rcases mem_paths_cons.mp h with ⟨q, heq, -⟩ | h
    · exact ⟨_, List.mem_cons_self, (List.cons.inj heq).1.symm⟩
    · obtain ⟨node, hnode, hk⟩ := ih h
      exact ⟨node, List.mem_cons_of_mem _ hnode, hk⟩

lemma mem_paths_of_mem_leaves {f : Forest α} {p : List κ} (h : p ∈ f.leaves name) : p ∈ f.paths name := by
  induction f generalizing p with
  | nil => cases h
  | cons a children siblings ihc ihs =>
    rcases mem_leaves_cons.mp h with ⟨q, rfl, ⟨rfl, -⟩ | hq⟩ | h
    · exact mem_paths_cons.mpr (.inl ⟨[], rfl, .inl rfl⟩)
    · exact mem_paths_cons.mpr (.inl ⟨q, rfl, .inr (ihc hq)⟩)
    · exact mem_paths_cons.mpr (.inr (ihs h))

/-- Every prefix of a path is a path. -/
theorem mem_paths_of_prefix {f : Forest α} {p q : List κ} (h : q ∈ f.paths name) (hp : p ≠ [])
    (hpq : p <+: q) : p ∈ f.paths name := by
  induction f generalizing p q with
  | nil => cases h
  | cons a children siblings ihc ihs =>
    obtain ⟨k, p, rfl⟩ := List.exists_cons_of_ne_nil hp
    rcases mem_paths_cons.mp h with ⟨q, rfl, hq⟩ | h
    · obtain ⟨rfl, htail⟩ := List.cons_prefix_cons.mp hpq
      refine mem_paths_cons.mpr (.inl ⟨p, rfl, ?_⟩)
      by_cases hp : p = []
      · exact .inl hp
      · rcases hq with rfl | hq
        · exact absurd (List.prefix_nil.mp htail) hp
        · exact .inr (ihc hq hp htail)
    · exact mem_paths_cons.mpr (.inr (ihs h hp hpq))

/-- Every path goes on to a leaf. -/
lemma exists_leaf {f : Forest α} {p : List κ} (h : p ∈ f.paths name) :
    ∃ q ∈ f.leaves name, p <+: q := by
  induction f generalizing p with
  | nil => cases h
  | cons a children siblings ihc ihs =>
    rcases mem_paths_cons.mp h with ⟨p, rfl, hp⟩ | h
    · cases children with
      | nil =>
        have hp : p = [] := hp.resolve_right (by simp [paths])
        rw [hp]
        exact ⟨[name a], mem_leaves_cons.mpr (.inl ⟨[], rfl, .inl ⟨rfl, rfl⟩⟩), List.prefix_rfl⟩
      | cons b children' siblings' =>
        obtain ⟨r, hr, hpr⟩ : ∃ r ∈ (cons b children' siblings').paths name, p <+: r := by
          rcases hp with rfl | hp
          · exact ⟨[name b], List.mem_cons_self, List.nil_prefix⟩
          · exact ⟨p, hp, List.prefix_rfl⟩
        obtain ⟨q, hq, hrq⟩ := ihc hr
        refine ⟨name a :: q, mem_leaves_cons.mpr (.inl ⟨q, rfl, .inr hq⟩), ?_⟩
        exact List.cons_prefix_cons.mpr ⟨rfl, hpr.trans hrq⟩
    · obtain ⟨q, hq, hpq⟩ := ihs h
      exact ⟨q, mem_leaves_cons.mpr (.inr hq), hpq⟩

/-- The paths of a forest are the prefixes of its leaves. -/
theorem mem_paths_iff_leaf {f : Forest α} {p : List κ} :
    p ∈ f.paths name ↔ p ≠ [] ∧ ∃ q ∈ f.leaves name, p <+: q := by
  constructor
  · exact fun h => ⟨ne_nil_of_mem_paths h, exists_leaf h⟩
  · rintro ⟨hp, q, hq, hpq⟩
    exact mem_paths_of_prefix (mem_paths_of_mem_leaves hq) hp hpq

/-- A path of the siblings does not begin with the name of the node before them. -/
lemma Named.head_ne {a : α} {children siblings : Forest α} (h : (cons a children siblings).Named name)
    {p : List κ} (hp : p ∈ siblings.paths name) (q : List κ) : ¬ p <+: name a :: q ∧ ¬ name a :: q <+: p := by
  obtain ⟨k, p, rfl⟩ := List.exists_cons_of_ne_nil (ne_nil_of_mem_paths hp)
  obtain ⟨node, hnode, rfl⟩ := exists_node_of_mem_paths hp
  have hne := h.1 node hnode
  constructor
  · exact fun hpq => hne (List.cons_prefix_cons.mp hpq).1
  · exact fun hqp => hne (List.cons_prefix_cons.mp hqp).1.symm

/-- The leaves are the paths that no other path extends. -/
theorem mem_leaves_iff {f : Forest α} (hf : f.Named name) {p : List κ} :
    p ∈ f.leaves name ↔ p ∈ f.paths name ∧ ∀ q ∈ f.paths name, p <+: q → q = p := by
  induction f generalizing p with
  | nil => simp [leaves, paths]
  | cons a children siblings ihc ihs =>
    constructor
    · intro h
      refine ⟨mem_paths_of_mem_leaves h, ?_⟩
      intro q hq hpq
      rcases mem_leaves_cons.mp h with ⟨p, rfl, hp⟩ | h
      · rcases mem_paths_cons.mp hq with ⟨q, rfl, hchild⟩ | hsibling
        · have htail := (List.cons_prefix_cons.mp hpq).2
          rcases hp with ⟨rfl, rfl⟩ | hp
          · rw [hchild.resolve_right (by simp [paths])]
          · rcases hchild with rfl | hchild
            · rw [List.prefix_nil.mp htail]
            · rw [((ihc hf.2.1).mp hp).2 q hchild htail]
        · exact absurd hpq (hf.head_ne hsibling p).2
      · rcases mem_paths_cons.mp hq with ⟨q, rfl, -⟩ | hsibling
        · exact absurd hpq (hf.head_ne (mem_paths_of_mem_leaves h) q).1
        · exact ((ihs hf.2.2).mp h).2 q hsibling hpq
    · rintro ⟨h, hmax⟩
      rcases mem_paths_cons.mp h with ⟨p, rfl, hp⟩ | h
      · refine mem_leaves_cons.mpr (.inl ⟨p, rfl, ?_⟩)
        rcases hp with rfl | hp
        · -- a node below would continue the path
          cases children with
          | nil => exact .inl ⟨rfl, rfl⟩
          | cons b children' siblings' =>
            have hlonger : [name a, name b] ∈
                (cons a (cons b children' siblings') siblings).paths name :=
              mem_paths_cons.mpr (.inl ⟨[name b], rfl, .inr List.mem_cons_self⟩)
            have heq := hmax _ hlonger (List.cons_prefix_cons.mpr ⟨rfl, List.nil_prefix⟩)
            cases (List.cons.inj heq).2
        · right
          refine (ihc hf.2.1).mpr ⟨hp, fun q hq hpq => ?_⟩
          have heq := hmax (name a :: q) (mem_paths_cons.mpr (.inl ⟨q, rfl, .inr hq⟩))
            (List.cons_prefix_cons.mpr ⟨rfl, hpq⟩)
          exact (List.cons.inj heq).2
      · refine mem_leaves_cons.mpr (.inr ((ihs hf.2.2).mpr ⟨h, fun q hq => ?_⟩))
        exact hmax q (mem_paths_cons.mpr (.inr hq))

theorem nodup_leaves {f : Forest α} (hf : f.Named name) : (f.leaves name).Nodup := by
  induction f with
  | nil => exact List.nodup_nil
  | cons a children siblings ihc ihs =>
    have hdisjoint : ∀ q : List κ, name a :: q ∉ siblings.leaves name := fun q hq =>
      (hf.head_ne (mem_paths_of_mem_leaves hq) q).1 List.prefix_rfl
    cases children with
    | nil => exact List.nodup_cons.mpr ⟨hdisjoint [], ihs hf.2.2⟩
    | cons b children' siblings' =>
      apply List.Nodup.append
      · exact (ihc hf.2.1).map (List.cons_injective)
      · exact ihs hf.2.2
      · intro p hp hps
        obtain ⟨q, -, rfl⟩ := List.mem_map.mp hp
        exact hdisjoint q hps

end paths

section add

/-- The node with the given name at the top, with what is below it. -/
def find? [DecidableEq κ] (k : κ) : Forest α → Option (α × Forest α)
  | nil => none
  | cons a children siblings => if name a = k then some (a, children) else siblings.find? k

/-- Put a node with the given children at the top. If there is a node of its name, that node stays
and the children are added to its own. -/
def insert [DecidableEq κ] (a : α) (children : Forest α) (addChildren : Forest α → Forest α) :
    Forest α → Forest α
  | nil => cons a children nil
  | cons b children' siblings =>
    if name b = name a then cons b (addChildren children') siblings
    else cons b children' (insert a children addChildren siblings)

/-- Add all nodes of one forest to another. -/
def addAll [DecidableEq κ] : Forest α → Forest α → Forest α
  | nil, f => f
  | cons a children siblings, f => addAll siblings (insert name a children (addAll children) f)

variable {name} [DecidableEq κ]

lemma mem_paths_insert {a : α} {children : Forest α} {addChildren : Forest α → Forest α}
    (h : ∀ (f : Forest α) (p : List κ), p ∈ (addChildren f).paths name ↔
      p ∈ f.paths name ∨ p ∈ children.paths name) (f : Forest α) (p : List κ) :
    p ∈ (insert name a children addChildren f).paths name ↔
      p ∈ f.paths name ∨ ∃ q, p = name a :: q ∧ (q = [] ∨ q ∈ children.paths name) := by
  induction f with
  | nil => rw [insert, mem_paths_cons, or_comm]
  | cons b children' siblings _ ih =>
    unfold insert
    split_ifs with hname
    · simp only [mem_paths_cons, h, hname]
      constructor
      · rintro (⟨q, rfl, hq | hq | hq⟩ | hs)
        · exact .inl (.inl ⟨q, rfl, .inl hq⟩)
        · exact .inl (.inl ⟨q, rfl, .inr hq⟩)
        · exact .inr ⟨q, rfl, .inr hq⟩
        · exact .inl (.inr hs)
      · rintro ((⟨q, rfl, hq | hq⟩ | hs) | ⟨q, rfl, hq | hq⟩)
        · exact .inl ⟨q, rfl, .inl hq⟩
        · exact .inl ⟨q, rfl, .inr (.inl hq)⟩
        · exact .inr hs
        · exact .inl ⟨q, rfl, .inl hq⟩
        · exact .inl ⟨q, rfl, .inr (.inr hq)⟩
    · rw [mem_paths_cons, ih, mem_paths_cons, or_assoc]

/-- Adding merges: the paths are those of both forests. -/
theorem mem_paths_addAll (g f : Forest α) (p : List κ) :
    p ∈ (addAll name g f).paths name ↔ p ∈ f.paths name ∨ p ∈ g.paths name := by
  induction g generalizing f p with
  | nil => simp [addAll, paths]
  | cons a children siblings ihc ihs =>
    rw [addAll, ihs, mem_paths_insert ihc, mem_paths_cons, or_assoc]

/-- A node of the result is a node of the forest, perhaps with more below it, or the new one. -/
lemma name_of_mem_nodes_insert {a : α} {children f : Forest α} {addChildren : Forest α → Forest α}
    {node : α × Forest α} (h : node ∈ (insert name a children addChildren f).nodes) :
    name node.1 = name a ∨ ∃ old ∈ f.nodes, name old.1 = name node.1 := by
  induction f with
  | nil =>
    left
    rw [List.mem_singleton.mp h]
  | cons b children' siblings _ ih =>
    unfold insert at h
    split_ifs at h
    · obtain rfl | h := List.mem_cons.mp h
      · exact .inr ⟨_, List.mem_cons_self, rfl⟩
      · exact .inr ⟨node, List.mem_cons_of_mem _ h, rfl⟩
    · obtain rfl | h := List.mem_cons.mp h
      · exact .inr ⟨_, List.mem_cons_self, rfl⟩
      · obtain heq | ⟨old, hold, heq⟩ := ih h
        · exact .inl heq
        · exact .inr ⟨old, List.mem_cons_of_mem _ hold, heq⟩

lemma named_insert {a : α} {children f : Forest α} {addChildren : Forest α → Forest α}
    (hchildren : children.Named name)
    (hadd : ∀ {g : Forest α}, g.Named name → (addChildren g).Named name) (hf : f.Named name) :
    (insert name a children addChildren f).Named name := by
  induction f with
  | nil =>
    refine ⟨?_, hchildren, trivial⟩
    intro node hnode
    cases hnode
  | cons b children' siblings _ ih =>
    obtain ⟨hne, hchildren', hsiblings⟩ := hf
    unfold insert
    split_ifs with hname
    · exact ⟨hne, hadd hchildren', hsiblings⟩
    · refine ⟨?_, hchildren', ih hsiblings⟩
      intro node hnode
      obtain heq | ⟨old, hold, heq⟩ := name_of_mem_nodes_insert hnode
      · rw [heq]
        exact Ne.symm hname
      · rw [← heq]
        exact hne old hold

theorem named_addAll {g f : Forest α} (hg : g.Named name) (hf : f.Named name) :
    (addAll name g f).Named name := by
  induction g generalizing f with
  | nil => exact hf
  | cons a children siblings ihc ihs =>
    obtain ⟨-, hchildren, hsiblings⟩ := hg
    exact ihs hsiblings (named_insert hchildren (ihc hchildren) hf)

/-- A node whose name and paths are there already leaves the forest as it is. -/
lemma insert_of_mem_paths {a : α} {children f : Forest α} {addChildren : Forest α → Forest α}
    (hadd : ∀ {g : Forest α}, g.Named name → (∀ p ∈ children.paths name, p ∈ g.paths name) →
      addChildren g = g)
    (hf : f.Named name) (ha : [name a] ∈ f.paths name)
    (hchildren : ∀ p ∈ children.paths name, name a :: p ∈ f.paths name) :
    insert name a children addChildren f = f := by
  induction f with
  | nil => cases ha
  | cons b children' siblings _ ih =>
    have hnamed := hf
    obtain ⟨hne, hchildren', hsiblings⟩ := hf
    unfold insert
    split_ifs with hname
    · rw [hadd hchildren']
      intro p hp
      obtain ⟨q, hq, hnil | hmem⟩ | hmem := mem_paths_cons.mp (hchildren p hp)
      · rw [← (List.cons.inj hq).2] at hnil
        exact absurd hnil (ne_nil_of_mem_paths hp)
      · rwa [← (List.cons.inj hq).2] at hmem
      · rw [← hname] at hmem
        exact absurd List.prefix_rfl (hnamed.head_ne hmem p).1
    · have hbelow {p : List κ} (hp : name a :: p ∈ (cons b children' siblings).paths name) :
          name a :: p ∈ siblings.paths name := by
        obtain ⟨q, hq, -⟩ | hmem := mem_paths_cons.mp hp
        · exact absurd (List.cons.inj hq).1.symm hname
        · exact hmem
      rw [ih hsiblings (hbelow ha) fun p hp => hbelow (hchildren p hp)]

/-- Adding what is there already changes nothing. -/
theorem addAll_of_subset {g f : Forest α} (hf : f.Named name)
    (h : ∀ p ∈ g.paths name, p ∈ f.paths name) : addAll name g f = f := by
  induction g generalizing f with
  | nil => rfl
  | cons a children siblings ihc ihs =>
    rw [addAll, insert_of_mem_paths ihc hf]
    · exact ihs hf fun p hp => h p (mem_paths_cons.mpr (.inr hp))
    · exact h _ (mem_paths_cons.mpr (.inl ⟨[], rfl, .inl rfl⟩))
    · intro p hp
      exact h _ (mem_paths_cons.mpr (.inl ⟨p, rfl, .inr hp⟩))

end add

section graft
variable (make : γ → κ → Except ε α) (next : α → γ)

/-- A path of new nodes. Each is made from its name in the context of the node above it. -/
def graft : γ → List κ → Except ε (Forest α)
  | _, [] => .ok nil
  | c, k :: ks =>
    match make c k with
    | .error e => .error e
    | .ok a => (graft (next a) ks).map (cons a · nil)

/-- The names of the path are all resolved, each in the context of the one before. -/
def Resolves : γ → List κ → Prop
  | _, [] => True
  | c, k :: ks => ∃ a, make c k = .ok a ∧ Resolves (next a) ks

/-- Every node of the forest is the one that its name is resolved to. -/
def Made : γ → Forest α → Prop
  | _, nil => True
  | c, cons a children siblings => make c (name a) = .ok a ∧ Made (next a) children ∧ Made c siblings

variable {name make next}

lemma resolves_cons {c : γ} {k : κ} {ks : List κ} :
    Resolves make next c (k :: ks) ↔ ∃ a, make c k = .ok a ∧ Resolves make next (next a) ks := Iff.rfl

lemma graft_cons_eq_ok {c : γ} {k : κ} {ks : List κ} {g : Forest α} :
    graft make next c (k :: ks) = .ok g ↔
      ∃ a children, make c k = .ok a ∧ graft make next (next a) ks = .ok children ∧ g = cons a children nil := by
  rw [graft]
  cases make c k with
  | error e => simp
  | ok a => simp [Results.map_eq_ok]

/-- A path of new nodes exists exactly when its names are resolved. -/
lemma exists_graft_iff (c : γ) (ks : List κ) : (∃ g, graft make next c ks = .ok g) ↔ Resolves make next c ks := by
  induction ks generalizing c with
  | nil => exact iff_of_true ⟨nil, rfl⟩ trivial
  | cons k ks ih =>
    simp only [graft_cons_eq_ok, resolves_cons, ← ih]
    constructor
    · rintro ⟨g, a, children, ha, hchildren, -⟩
      exact ⟨a, ha, children, hchildren⟩
    · rintro ⟨a, ha, children, hchildren⟩
      exact ⟨_, a, children, ha, hchildren, rfl⟩

lemma named_graft {c : γ} {ks : List κ} {g : Forest α} (h : graft make next c ks = .ok g) : g.Named name := by
  induction ks generalizing c g with
  | nil =>
    cases h
    trivial
  | cons k ks ih =>
    obtain ⟨a, children, -, hchildren, rfl⟩ := graft_cons_eq_ok.mp h
    exact ⟨by simp [nodes], ih hchildren, trivial⟩

section resolved
variable (hname : ∀ ⦃c k a⦄, make c k = .ok a → name a = k)
include hname

/-- A path of new nodes has the prefixes of the path. -/
lemma mem_paths_graft {c : γ} {ks : List κ} {g : Forest α} (h : graft make next c ks = .ok g) (p : List κ) :
    p ∈ g.paths name ↔ p ≠ [] ∧ p <+: ks := by
  induction ks generalizing c g p with
  | nil =>
    cases h
    simp [paths]
  | cons k ks ih =>
    obtain ⟨a, children, ha, hchildren, rfl⟩ := graft_cons_eq_ok.mp h
    rw [mem_paths_cons, hname ha]
    constructor
    · rintro (⟨q, rfl, rfl | hq⟩ | hnil)
      · exact ⟨List.cons_ne_nil _ _, List.cons_prefix_cons.mpr ⟨rfl, List.nil_prefix⟩⟩
      · exact ⟨List.cons_ne_nil _ _, List.cons_prefix_cons.mpr ⟨rfl, ((ih hchildren q).mp hq).2⟩⟩
      · cases hnil
    · rintro ⟨hp, hpre⟩
      obtain ⟨k', p, rfl⟩ := List.exists_cons_of_ne_nil hp
      obtain ⟨rfl, htail⟩ := List.cons_prefix_cons.mp hpre
      refine .inl ⟨p, rfl, ?_⟩
      by_cases hp : p = []
      · exact .inl hp
      · exact .inr ((ih hchildren p).mpr ⟨hp, htail⟩)

lemma made_graft {c : γ} {ks : List κ} {g : Forest α} (h : graft make next c ks = .ok g) :
    g.Made name make next c := by
  induction ks generalizing c g with
  | nil =>
    cases h
    trivial
  | cons k ks ih =>
    obtain ⟨a, children, ha, hchildren, rfl⟩ := graft_cons_eq_ok.mp h
    refine ⟨?_, ih hchildren, trivial⟩
    rw [hname ha, ha]

lemma name_of_mem_nodes_graft {c : γ} {k : κ} {ks : List κ} {g : Forest α}
    (h : graft make next c (k :: ks) = .ok g) : ∀ node ∈ g.nodes, name node.1 = k := by
  obtain ⟨a, children, ha, -, rfl⟩ := graft_cons_eq_ok.mp h
  intro node hnode
  rw [List.mem_singleton.mp hnode]
  exact hname ha

end resolved
end graft

section grow
variable [DecidableEq κ] (make : γ → κ → Except ε α) (next : α → γ)

/-- Walk along a path, and make the nodes that are missing. -/
def grow : Forest α → γ → List κ → Except ε (Forest α)
  | f, _, [] => .ok f
  | nil, c, k :: ks => graft make next c (k :: ks)
  | cons a children siblings, c, k :: ks =>
    if name a = k then (grow children (next a) ks).map (cons a · siblings)
    else (grow siblings c (k :: ks)).map (cons a children ·)

variable {name make next}

lemma grow_nil (f : Forest α) (c : γ) : grow name make next f c [] = .ok f := by
  cases f <;> rfl

lemma grow_cons (a : α) (children siblings : Forest α) (c : γ) (k : κ) (ks : List κ) :
    grow name make next (cons a children siblings) c (k :: ks) =
      if name a = k then (grow name make next children (next a) ks).map (cons a · siblings)
      else (grow name make next siblings c (k :: ks)).map (cons a children ·) := rfl

lemma grow_cons_eq_ok {a : α} {children siblings : Forest α} {c : γ} {k : κ} {ks : List κ} {f' : Forest α} :
    grow name make next (cons a children siblings) c (k :: ks) = .ok f' ↔
      (name a = k ∧ ∃ children', grow name make next children (next a) ks = .ok children' ∧
        f' = cons a children' siblings) ∨
      (name a ≠ k ∧ ∃ siblings', grow name make next siblings c (k :: ks) = .ok siblings' ∧
        f' = cons a children siblings') := by
  rw [grow_cons]
  split_ifs with hname <;> simp [hname, Results.map_eq_ok]

/-- Walking along a path succeeds exactly when its names are resolved. -/
theorem exists_grow_iff {f : Forest α} {c : γ} (hf : f.Made name make next c) (ks : List κ) :
    (∃ f', grow name make next f c ks = .ok f') ↔ Resolves make next c ks := by
  induction f generalizing c ks with
  | nil =>
    cases ks with
    | nil => exact iff_of_true ⟨_, grow_nil _ c⟩ trivial
    | cons k ks => exact exists_graft_iff c (k :: ks)
  | cons a children siblings ihc ihs =>
    obtain ⟨ha, hchildren, hsiblings⟩ := hf
    cases ks with
    | nil => exact iff_of_true ⟨_, grow_nil _ c⟩ trivial
    | cons k ks =>
      simp only [grow_cons_eq_ok]
      by_cases hname : name a = k
      · -- the node that is there is the one that would be made
        subst hname
        rw [resolves_cons, ha]
        simp only [true_and, ne_eq, not_true_eq_false, false_and, or_false, Except.ok.injEq,
          exists_eq_left', ← ihc hchildren ks]
        exact ⟨fun ⟨_, f', h, _⟩ => ⟨f', h⟩, fun ⟨f', h⟩ => ⟨_, f', h, rfl⟩⟩
      · simp only [hname, false_and, false_or, ne_eq, not_false_eq_true, true_and,
          ← ihs hsiblings (k :: ks)]
        exact ⟨fun ⟨_, f', h, _⟩ => ⟨f', h⟩, fun ⟨f', h⟩ => ⟨_, f', h, rfl⟩⟩

section resolved
variable (hname : ∀ ⦃c k a⦄, make c k = .ok a → name a = k)
include hname

/-- Walking along a path adds its prefixes. -/
theorem mem_paths_grow {f f' : Forest α} {c : γ} {ks : List κ} (h : grow name make next f c ks = .ok f')
    (p : List κ) : p ∈ f'.paths name ↔ p ∈ f.paths name ∨ p ≠ [] ∧ p <+: ks := by
  induction f generalizing f' c ks p with
  | nil =>
    cases ks with
    | nil =>
      cases h
      simp [paths]
    | cons k ks => simp [mem_paths_graft hname h, paths]
  | cons a children siblings ihc ihs =>
    cases ks with
    | nil =>
      cases h
      simp
    | cons k ks =>
      rcases grow_cons_eq_ok.mp h with ⟨rfl, children', hchildren, rfl⟩ | ⟨-, siblings', hsiblings, rfl⟩
      · simp only [mem_paths_cons, ihc hchildren]
        constructor
        · rintro (⟨q, rfl, rfl | hq | ⟨-, hq⟩⟩ | hs)
          · exact .inl (.inl ⟨[], rfl, .inl rfl⟩)
          · exact .inl (.inl ⟨q, rfl, .inr hq⟩)
          · exact .inr ⟨List.cons_ne_nil _ _, List.cons_prefix_cons.mpr ⟨rfl, hq⟩⟩
          · exact .inl (.inr hs)
        · rintro ((⟨q, rfl, rfl | hq⟩ | hs) | ⟨hp, hpre⟩)
          · exact .inl ⟨[], rfl, .inl rfl⟩
          · exact .inl ⟨q, rfl, .inr (.inl hq)⟩
          · exact .inr hs
          · obtain ⟨k, q, rfl⟩ := List.exists_cons_of_ne_nil hp
            obtain ⟨rfl, hq⟩ := List.cons_prefix_cons.mp hpre
            refine .inl ⟨q, rfl, ?_⟩
            by_cases hnil : q = []
            · exact .inl hnil
            · exact .inr (.inr ⟨hnil, hq⟩)
      · rw [mem_paths_cons, ihs hsiblings, mem_paths_cons, or_assoc]

lemma made_grow {f f' : Forest α} {c : γ} (hf : f.Made name make next c) {ks : List κ}
    (h : grow name make next f c ks = .ok f') : f'.Made name make next c := by
  induction f generalizing f' c ks with
  | nil =>
    cases ks with
    | nil =>
      cases h
      trivial
    | cons k ks => exact made_graft hname h
  | cons a children siblings ihc ihs =>
    obtain ⟨ha, hchildren, hsiblings⟩ := hf
    cases ks with
    | nil =>
      cases h
      exact ⟨ha, hchildren, hsiblings⟩
    | cons k ks =>
      rcases grow_cons_eq_ok.mp h with ⟨-, children', hgrow, rfl⟩ | ⟨-, siblings', hgrow, rfl⟩
      · exact ⟨ha, ihc hchildren hgrow, hsiblings⟩
      · exact ⟨ha, hchildren, ihs hsiblings hgrow⟩

/-- A name at the top of the grown forest was there before or is the first of the path. -/
lemma name_of_mem_nodes_grow {f f' : Forest α} {c : γ} {k : κ} {ks : List κ}
    (h : grow name make next f c (k :: ks) = .ok f') :
    ∀ node ∈ f'.nodes, name node.1 = k ∨ ∃ old ∈ f.nodes, name old.1 = name node.1 := by
  induction f generalizing f' with
  | nil => exact fun node hnode => .inl (name_of_mem_nodes_graft hname h node hnode)
  | cons a children siblings _ ih =>
    intro node hnode
    rcases grow_cons_eq_ok.mp h with ⟨-, children', -, rfl⟩ | ⟨-, siblings', hgrow, rfl⟩
    · rcases List.mem_cons.mp hnode with rfl | hnode
      · exact .inr ⟨_, List.mem_cons_self, rfl⟩
      · exact .inr ⟨node, List.mem_cons_of_mem _ hnode, rfl⟩
    · rcases List.mem_cons.mp hnode with rfl | hnode
      · exact .inr ⟨_, List.mem_cons_self, rfl⟩
      · rcases ih hgrow node hnode with hk | ⟨old, hold, heq⟩
        · exact .inl hk
        · exact .inr ⟨old, List.mem_cons_of_mem _ hold, heq⟩

lemma named_grow {f f' : Forest α} (hf : f.Named name) {c : γ} {ks : List κ}
    (h : grow name make next f c ks = .ok f') : f'.Named name := by
  induction f generalizing f' c ks with
  | nil =>
    cases ks with
    | nil =>
      cases h
      trivial
    | cons k ks => exact named_graft h
  | cons a children siblings ihc ihs =>
    obtain ⟨hne, hchildren, hsiblings⟩ := hf
    cases ks with
    | nil =>
      cases h
      exact ⟨hne, hchildren, hsiblings⟩
    | cons k ks =>
      rcases grow_cons_eq_ok.mp h with ⟨-, children', hgrow, rfl⟩ | ⟨hk, siblings', hgrow, rfl⟩
      · exact ⟨hne, ihc hchildren hgrow, hsiblings⟩
      · refine ⟨?_, hchildren, ihs hsiblings hgrow⟩
        intro node hnode
        rcases name_of_mem_nodes_grow hname hgrow node hnode with heq | ⟨old, hold, heq⟩
        · rw [heq]
          exact hk.symm
        · rw [← heq]
          exact hne old hold

/-- What is missing is added to the forest as one path of new nodes. -/
theorem grow_of_find?_eq_none {f : Forest α} {c : γ} {k : κ} {ks : List κ} (h : f.find? name k = none) :
    grow name make next f c (k :: ks) = (graft make next c (k :: ks)).map (addAll name · f) := by
  cases hgraft : graft make next c (k :: ks) with
  | error e =>
    induction f with
    | nil => exact hgraft
    | cons b children siblings _ ih =>
      rw [find?] at h
      split_ifs at h with hb
      rw [grow_cons, if_neg hb, ih h]
      rfl
  | ok g =>
    obtain ⟨a, below, ha, -, rfl⟩ := graft_cons_eq_ok.mp hgraft
    have hk : name a = k := hname ha
    induction f with
    | nil => exact hgraft
    | cons b children siblings _ ih =>
      rw [find?] at h
      split_ifs at h with hb
      rw [grow_cons, if_neg hb, ih h]
      simp only [Except.map, addAll, insert, hk, if_neg hb]

end resolved

/-- Grow a forest along several paths. -/
def growAll (name : α → κ) (make : γ → κ → Except ε α) (next : α → γ) (c : γ) :
    Forest α → List (List κ) → Except ε (Forest α)
  | f, [] => .ok f
  | f, ks :: pss =>
    match grow name make next f c ks with
    | .error e => .error e
    | .ok f => growAll name make next c f pss

lemma growAll_cons_eq_ok {c : γ} {f f' : Forest α} {ks : List κ} {pss : List (List κ)} :
    growAll name make next c f (ks :: pss) = .ok f' ↔
      ∃ g, grow name make next f c ks = .ok g ∧ growAll name make next c g pss = .ok f' := by
  rw [growAll]
  cases grow name make next f c ks <;> simp

section resolved
variable (hname : ∀ ⦃c k a⦄, make c k = .ok a → name a = k)
include hname

/-- Growing along several paths succeeds exactly when the names of all of them are resolved. -/
theorem exists_growAll_iff {c : γ} {f : Forest α} (hf : f.Made name make next c) (pss : List (List κ)) :
    (∃ f', growAll name make next c f pss = .ok f') ↔ ∀ ks ∈ pss, Resolves make next c ks := by
  induction pss generalizing f with
  | nil => simp [growAll]
  | cons ks pss ih =>
    simp only [growAll_cons_eq_ok, List.forall_mem_cons, ← exists_grow_iff hf ks]
    constructor
    · rintro ⟨f', g, hg, hf'⟩
      exact ⟨⟨g, hg⟩, (ih (made_grow hname hf hg)).mp ⟨f', hf'⟩⟩
    · rintro ⟨⟨g, hg⟩, hrest⟩
      obtain ⟨f', hf'⟩ := (ih (made_grow hname hf hg)).mpr hrest
      exact ⟨f', g, hg, hf'⟩

/-- Growing along several paths closes them under prefixes. -/
theorem mem_paths_growAll {c : γ} {f f' : Forest α} {pss : List (List κ)}
    (h : growAll name make next c f pss = .ok f') (p : List κ) :
    p ∈ f'.paths name ↔ p ∈ f.paths name ∨ p ≠ [] ∧ ∃ ks ∈ pss, p <+: ks := by
  induction pss generalizing f with
  | nil =>
    cases h
    simp
  | cons ks pss ih =>
    obtain ⟨g, hg, hf'⟩ := growAll_cons_eq_ok.mp h
    rw [ih hf', mem_paths_grow hname hg, or_assoc, ← and_or_left]
    simp only [List.exists_mem_cons_iff]

lemma named_growAll {c : γ} {f f' : Forest α} (hf : f.Named name) {pss : List (List κ)}
    (h : growAll name make next c f pss = .ok f') : f'.Named name := by
  induction pss generalizing f with
  | nil =>
    cases h
    exact hf
  | cons ks pss ih =>
    obtain ⟨g, hg, hf'⟩ := growAll_cons_eq_ok.mp h
    exact ih (named_grow hname hf hg) hf'

/-- The leaves of what has grown along non-empty paths are those paths that no other extends. -/
theorem mem_leaves_growAll {c : γ} {f : Forest α} {pss : List (List κ)} (hne : ∀ ks ∈ pss, ks ≠ [])
    (h : growAll name make next c nil pss = .ok f) (p : List κ) :
    p ∈ f.leaves name ↔ p ∈ pss ∧ ∀ q ∈ pss, p <+: q → q = p := by
  have hpaths : ∀ p, p ∈ f.paths name ↔ p ≠ [] ∧ ∃ ks ∈ pss, p <+: ks := fun p => by
    simpa [paths] using mem_paths_growAll hname h p
  have hmem : ∀ q ∈ pss, q ∈ f.paths name := fun q hq => (hpaths q).mpr ⟨hne q hq, q, hq, List.prefix_rfl⟩
  have hnamed : f.Named name := named_growAll hname (show Named name nil from trivial) h
  rw [mem_leaves_iff hnamed]
  constructor
  · rintro ⟨hp, hmax⟩
    obtain ⟨-, ks, hks, hpre⟩ := (hpaths p).mp hp
    have heq := hmax ks (hmem ks hks) hpre
    exact ⟨heq ▸ hks, fun q hq => hmax q (hmem q hq)⟩
  · rintro ⟨hp, hmax⟩
    refine ⟨hmem p hp, fun q hq hpq => ?_⟩
    obtain ⟨-, ks, hks, hqks⟩ := (hpaths q).mp hq
    -- the path that extends q extends p too, so it is p
    have heq := hmax ks hks (hpq.trans hqks)
    rw [heq] at hqks
    exact hpq.eq_of_length_le hqks.length_le |>.symm

/-- What grows along the leaves has the same paths. -/
theorem growAll_leaves {c : γ} {f : Forest α} {pss : List (List κ)} (hne : ∀ ks ∈ pss, ks ≠ [])
    (h : growAll name make next c nil pss = .ok f) :
    ∃ f', growAll name make next c nil (f.leaves name) = .ok f' ∧
      ∀ p, p ∈ f'.paths name ↔ p ∈ f.paths name := by
  have hresolves := (exists_growAll_iff hname (show Made name make next c nil from trivial) pss).mp ⟨f, h⟩
  obtain ⟨f', hf'⟩ := (exists_growAll_iff hname
    (show Made name make next c nil from trivial) (f.leaves name)).mpr
    fun ks hks => hresolves ks ((mem_leaves_growAll hname hne h ks).mp hks).1
  refine ⟨f', hf', fun p => ?_⟩
  rw [mem_paths_growAll hname hf', mem_paths_iff_leaf (f := f)]
  simp [paths]

end resolved

end grow
end Forest
