import PySOA.Client.ExpansionTrees

/-! Trees of expansions that are added to a type node one by one merge, as sets of paths. -/
namespace PySOA

/-- The expansions of a node: those of each level are kept in a dict, by their names. -/
structure NamedExpansions where
  forest : Forest ExpansionNode
  named : forest.Named ExpansionNode.name

/-- An expansion node with the expansions below it. -/
structure ExpansionTree where
  node : ExpansionNode
  below : NamedExpansions

/-- The paths of a tree start at its own node. -/
def ExpansionTree.paths (tree : ExpansionTree) : List (List String) :=
  (Forest.cons tree.node tree.below.forest .nil).paths ExpansionNode.name

namespace NamedExpansions

/-- The paths to the expansions below a node. -/
def paths (expansions : NamedExpansions) : List (List String) := expansions.forest.paths ExpansionNode.name

lemma named_tree (tree : ExpansionTree) :
    (Forest.cons tree.node tree.below.forest .nil).Named ExpansionNode.name := by
  refine ⟨?_, tree.below.named, trivial⟩
  intro node hnode
  cases hnode

/-- `add_expansion` of the node. -/
def addExpansion (expansions : NamedExpansions) (tree : ExpansionTree) : NamedExpansions where
  forest := PySOA.addExpansion tree.node tree.below.forest expansions.forest
  named := Forest.named_addAll (named_tree tree) expansions.named

/-- The trees are added one after the other. -/
def addExpansions (expansions : NamedExpansions) (trees : List ExpansionTree) : NamedExpansions :=
  trees.foldl addExpansion expansions

variable (expansions : NamedExpansions)

lemma mem_paths_add (tree : ExpansionTree) (p : List String) :
    p ∈ (expansions.addExpansion tree).paths ↔ p ∈ expansions.paths ∨ p ∈ tree.paths :=
  mem_paths_addExpansion _ _ _ p

lemma mem_paths_addExpansions (trees : List ExpansionTree) (p : List String) :
    p ∈ (expansions.addExpansions trees).paths ↔ p ∈ expansions.paths ∨ ∃ tree ∈ trees, p ∈ tree.paths := by
  induction trees generalizing expansions with
  | nil => simp [addExpansions]
  | cons tree trees ih =>
    have hcons : expansions.addExpansions (tree :: trees) =
        (expansions.addExpansion tree).addExpansions trees := rfl
    rw [hcons, ih, mem_paths_add, List.exists_mem_cons_iff, or_assoc]

lemma addExpansion_of_subset {tree : ExpansionTree} (h : ∀ p ∈ tree.paths, p ∈ expansions.paths) :
    expansions.addExpansion tree = expansions := by
  have hforest : PySOA.addExpansion tree.node tree.below.forest expansions.forest = expansions.forest :=
    Forest.addAll_of_subset expansions.named h
  obtain ⟨forest, named⟩ := expansions
  unfold addExpansion
  congr

/-- The paths after trees have been added are those of the node and of all trees, a tree that has no new
path changes nothing, and the order of the trees does not matter. -/
theorem addExpansions_merges (trees : List ExpansionTree) :
    (∀ p, p ∈ (expansions.addExpansions trees).paths ↔
      p ∈ expansions.paths ∨ ∃ tree ∈ trees, p ∈ tree.paths) ∧
    (∀ tree : ExpansionTree, (∀ p ∈ tree.paths, p ∈ (expansions.addExpansions trees).paths) →
      (expansions.addExpansions trees).addExpansion tree = expansions.addExpansions trees) ∧
    ∀ trees' : List ExpansionTree, trees'.Perm trees → ∀ p,
      p ∈ (expansions.addExpansions trees').paths ↔ p ∈ (expansions.addExpansions trees).paths := by
  refine ⟨mem_paths_addExpansions expansions trees, ?_, ?_⟩
  · intro tree h
    exact addExpansion_of_subset _ h
  · intro trees' hperm p
    rw [mem_paths_addExpansions, mem_paths_addExpansions]
    apply or_congr_right
    constructor
    · rintro ⟨tree, htree, hp⟩
      exact ⟨tree, hperm.mem_iff.mp htree, hp⟩
    · rintro ⟨tree, htree, hp⟩
      exact ⟨tree, hperm.mem_iff.mpr htree, hp⟩

end NamedExpansions
end PySOA
