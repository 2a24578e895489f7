import PySOA.Client.Expander

/-! The trees of a request for expansions and its dotted strings determine each other. -/
namespace PySOA

/-- Adding a node merges: the paths are those of both. -/
theorem mem_paths_addExpansion (node : ExpansionNode) (below expansions : Forest ExpansionNode)
    (p : List String) : p ∈ (addExpansion node below expansions).paths ExpansionNode.name ↔
      p ∈ expansions.paths ExpansionNode.name ∨
        p ∈ (Forest.cons node below .nil).paths ExpansionNode.name :=
  Forest.mem_paths_addAll _ _ p

/-- The strings of an expansion tree are its leaves, written with dots. -/
lemma toStrings_eq (expansions : Forest ExpansionNode) :
    toStrings expansions = (expansions.leaves ExpansionNode.name).map (".".intercalate ·) := by
  induction expansions with
  | nil => rfl
  | cons node expansions siblings ihe ihs =>
    cases expansions with
    | nil => simp [toStrings, Forest.leaves, ihs]
    | cons below expansions' siblings' =>
      have hleaves : (Forest.cons node (.cons below expansions' siblings') siblings).leaves ExpansionNode.name =
          ((Forest.cons below expansions' siblings').leaves ExpansionNode.name).map (node.name :: ·) ++
            siblings.leaves ExpansionNode.name := rfl
      have hstrings : toStrings (Forest.cons node (.cons below expansions' siblings') siblings) =
          (toStrings (.cons below expansions' siblings')).map (node.name ++ "." ++ ·) ++ toStrings siblings := rfl
      rw [hleaves, hstrings, ihe, ihs, List.map_append, List.map_map, List.map_map]
      congr 1
      apply List.map_congr_left
      intro p hp
      have hne : p ≠ [] := Forest.ne_nil_of_mem_paths (Forest.mem_paths_of_mem_leaves hp)
      exact (String.intercalate_cons_of_ne_nil hne).symm

lemma segments_ne_nil (s : String) : segments s ≠ [] := by
  rw [segments, Ne, List.map_eq_nil_iff]
  exact List.splitOn_ne_nil _ _

/-- Joining the segments of a string gives the string back. -/
lemma intercalate_segments (s : String) : ".".intercalate (segments s) = s := by
  apply String.toList_injective
  rw [String.toList_intercalate, segments, List.map_map]
  have hmap : (s.toList.splitOn '.').map (String.toList ∘ String.ofList) = s.toList.splitOn '.' := by
    simp [Function.comp_def]
  rw [hmap]
  exact List.intercalate_splitOn _

lemma segments_injective : Function.Injective segments := by
  intro s s' h
  rw [← intercalate_segments s, h, intercalate_segments]

namespace Expansions

lemma setEntry_of_notMem {type : String} (strings : List String) {entries : List (String × List String)}
    (h : type ∉ entries.map Prod.fst) : setEntry type strings entries = entries ++ [(type, strings)] := by
  induction entries with
  | nil => rfl
  | cons entry entries ih =>
    obtain ⟨key, value⟩ := entry
    simp only [List.map_cons, List.mem_cons, not_or] at h
    rw [setEntry, if_neg (Ne.symm h.1), ih h.2, List.cons_append]

end Expansions

/-- Trees of different types each have an entry in the dict, in their order. -/
lemma entries_treesToDict {trees : List TypeNode} (h : (trees.map TypeNode.type).Nodup) :
    (treesToDict trees).entries = trees.map TypeNode.toDict := by
  suffices hgen : ∀ result : Expansions,
      (∀ tree ∈ trees, tree.type ∉ result.entries.map Prod.fst) →
        (trees.foldl (fun result tree => result.set tree.toDict.1 tree.toDict.2) result).entries =
          result.entries ++ trees.map TypeNode.toDict from hgen {} (by simp)
  induction trees with
  | nil => simp
  | cons tree trees ih =>
    intro result hresult
    obtain ⟨hnotMem, hnodup⟩ := List.nodup_cons.mp h
    have hset : (result.set tree.toDict.1 tree.toDict.2).entries = result.entries ++ [tree.toDict] :=
      Expansions.setEntry_of_notMem _ (hresult tree List.mem_cons_self)
    rw [List.foldl_cons, ih hnodup, hset, List.map_cons, List.append_assoc, List.singleton_append]
    intro tree' htree'
    rw [hset, List.map_append, List.mem_append, not_or]
    refine ⟨hresult tree' (List.mem_cons_of_mem _ htree'), ?_⟩
    intro heq
    rw [List.map_singleton, List.mem_singleton] at heq
    exact hnotMem (List.mem_map.mpr ⟨tree', htree', heq⟩)

namespace ExpansionConverter
variable (converter : ExpansionConverter)

/-- The configuration has all that an expansion path for a type needs: at each name an expansion
of the type reached so far and its route, which do not expand a field into itself. -/
def Configured : Option String → List String → Prop
  | _, [] => True
  | nodeType, expansionName :: expansionNames =>
    ∃ expansions typeExpansion typeRoute, nodeType.bind (converter.typeExpansions.lookup ·) = some expansions ∧
      expansions.lookup expansionName = some typeExpansion ∧
      converter.typeRoutes.lookup typeExpansion.route = some typeRoute ∧
      typeExpansion.destinationField ≠ typeExpansion.sourceField ∧
      Configured typeExpansion.type expansionNames

/-- All strings of the dict are valid for the configuration. -/
def Valid (expansionDict : Expansions) : Prop :=
  ∀ entry ∈ expansionDict.entries, ∀ s ∈ entry.2, converter.Configured (some entry.1) (segments s)

variable {converter}

lemma makeNode_name ⦃nodeType : Option String⦄ ⦃expansionName : String⦄ ⦃node : ExpansionNode⦄
    (h : converter.makeNode nodeType expansionName = .ok node) : node.name = expansionName := by
  unfold makeNode at h
  split at h
  · cases h
  · split at h
    · cases h
    · split at h
      · cases h
      · split_ifs at h
        cases h
        rfl

/-- A node that a walk does not find is added with the nodes that the rest of the path makes. -/
theorem grow_addExpansion {nodeType : Option String} {name : String} {names : List String}
    {node : ExpansionNode} {below expansions : Forest ExpansionNode}
    (hmissing : getExpansion name expansions = none) (hnode : converter.makeNode nodeType name = .ok node)
    (hbelow : Forest.graft converter.makeNode ExpansionNode.type node.type names = .ok below) :
    Forest.grow ExpansionNode.name converter.makeNode ExpansionNode.type expansions nodeType (name :: names) =
      .ok (addExpansion node below expansions) := by
  rw [Forest.grow_of_find?_eq_none makeNode_name hmissing, Forest.graft, hnode]
  simp only [hbelow, Except.map]
  rfl

lemma makeNode_eq_ok {nodeType : Option String} {expansionName : String} {P : Option String → Prop} :
    (∃ node, converter.makeNode nodeType expansionName = .ok node ∧ P node.type) ↔
      ∃ expansions typeExpansion typeRoute,
        nodeType.bind (converter.typeExpansions.lookup ·) = some expansions ∧
        expansions.lookup expansionName = some typeExpansion ∧
        converter.typeRoutes.lookup typeExpansion.route = some typeRoute ∧
        typeExpansion.destinationField ≠ typeExpansion.sourceField ∧ P typeExpansion.type := by
  unfold makeNode
  cases nodeType.bind (converter.typeExpansions.lookup ·) with
  | none => simp
  | some expansions =>
    cases hexpansion : expansions.lookup expansionName with
    | none => simp [hexpansion]
    | some typeExpansion =>
      cases hroute : converter.typeRoutes.lookup typeExpansion.route with
      | none => simp [hexpansion, hroute]
      | some typeRoute =>
        by_cases hfields : typeExpansion.destinationField = typeExpansion.sourceField <;>
          simp [hexpansion, hroute, hfields]

lemma resolves_iff_configured (nodeType : Option String) (names : List String) :
    Forest.Resolves converter.makeNode ExpansionNode.type nodeType names ↔
      converter.Configured nodeType names := by
  induction names generalizing nodeType with
  | nil => rfl
  | cons name names ih =>
    simp only [Forest.Resolves, ih, Configured]
    exact makeNode_eq_ok (P := (converter.Configured · names))

lemma exists_addStrings_iff (nodeType : String) (expansionList : List String) :
    (∃ expansions, converter.addStrings nodeType expansionList = .ok expansions) ↔
      ∀ s ∈ expansionList, converter.Configured (some nodeType) (segments s) := by
  unfold addStrings
  rw [Forest.exists_growAll_iff makeNode_name (show Forest.Made _ _ _ _ .nil from trivial)]
  simp only [List.forall_mem_map, resolves_iff_configured]

/-- The trees stand in the order of the entries. -/
lemma typeNodes_eq_ok {entries : List (String × List String)} {trees : List TypeNode} :
    converter.typeNodes entries = .ok trees ↔
      List.Forall₂ (fun entry tree => tree.type = entry.1 ∧
        converter.addStrings entry.1 entry.2 = .ok tree.expansions) entries trees := by
  induction entries generalizing trees with
  | nil => simp [typeNodes, eq_comm]
  | cons entry entries ih =>
    obtain ⟨nodeType, expansionList⟩ := entry
    rw [typeNodes]
    cases hadd : converter.addStrings nodeType expansionList with
    | error e =>
      simp only [reduceCtorEq, false_iff]
      intro hall
      cases hall with
      | cons hhead _ =>
        rw [hadd] at hhead
        cases hhead.2
    | ok expansions =>
      rw [Results.map_eq_ok]
      constructor
      · rintro ⟨rest, hrest, rfl⟩
        exact .cons ⟨rfl, hadd⟩ (ih.mp hrest)
      · intro hall
        cases hall with
        | @cons _ tree _ rest hhead htail =>
          refine ⟨rest, ih.mpr htail, ?_⟩
          obtain ⟨htype, hexpansions⟩ := hhead
          rw [hadd] at hexpansions
          obtain ⟨type, expansions'⟩ := tree
          cases hexpansions
          cases htype
          rfl

/-- Conversion succeeds exactly for valid strings. -/
lemma exists_dictToTrees_iff (expansionDict : Expansions) :
    (∃ trees, converter.dictToTrees expansionDict = .ok trees) ↔ converter.Valid expansionDict := by
  unfold dictToTrees Valid
  generalize expansionDict.entries = entries
  induction entries with
  | nil => simp [typeNodes]
  | cons entry entries ih =>
    rw [List.forall_mem_cons, ← ih, ← exists_addStrings_iff]
    simp only [typeNodes_eq_ok]
    constructor
    · rintro ⟨trees, hall⟩
      cases hall with
      | cons hhead htail => exact ⟨⟨_, hhead.2⟩, _, htail⟩
    · rintro ⟨⟨expansions, hadd⟩, trees, hall⟩
      exact ⟨⟨entry.1, expansions⟩ :: trees, .cons ⟨rfl, hadd⟩ hall⟩

/-- The leaves of what has been added for one type are the requested paths that no other requested
path extends. -/
lemma mem_leaves_addStrings {nodeType : String} {expansionList : List String}
    {expansions : Forest ExpansionNode} (h : converter.addStrings nodeType expansionList = .ok expansions)
    (p : List String) : p ∈ expansions.leaves ExpansionNode.name ↔
      ∃ s ∈ expansionList, segments s = p ∧ ∀ s' ∈ expansionList, segments s <+: segments s' → s' = s := by
  have hne : ∀ p ∈ expansionList.map segments, p ≠ [] := by
    intro p hp
    obtain ⟨s, -, rfl⟩ := List.mem_map.mp hp
    exact segments_ne_nil s
  rw [Forest.mem_leaves_growAll makeNode_name hne h, List.mem_map]
  constructor
  · rintro ⟨⟨s, hs, rfl⟩, hmax⟩
    refine ⟨s, hs, rfl, fun s' hs' hpre => segments_injective ?_⟩
    exact hmax _ (List.mem_map_of_mem hs') hpre
  · rintro ⟨s, hs, rfl, hmax⟩
    refine ⟨⟨s, hs, rfl⟩, fun q hq hpre => ?_⟩
    obtain ⟨s', hs', rfl⟩ := List.mem_map.mp hq
    rw [hmax s' hs' hpre]

lemma mem_toStrings {nodeType : String} {expansionList : List String} {expansions : Forest ExpansionNode}
    (h : converter.addStrings nodeType expansionList = .ok expansions) (s : String) :
    s ∈ toStrings expansions ↔
      s ∈ expansionList ∧ ∀ s' ∈ expansionList, segments s <+: segments s' → s' = s := by
  rw [toStrings_eq, List.mem_map]
  constructor
  · rintro ⟨p, hp, rfl⟩
    obtain ⟨s, hs, rfl, hmax⟩ := (mem_leaves_addStrings h p).mp hp
    rw [intercalate_segments]
    exact ⟨hs, hmax⟩
  · rintro ⟨hs, hmax⟩
    exact ⟨segments s, (mem_leaves_addStrings h _).mpr ⟨s, hs, rfl, hmax⟩, intercalate_segments s⟩

/-- Splitting the strings of what has been added gives the leaves. -/
lemma map_segments_toStrings {nodeType : String} {expansionList : List String}
    {expansions : Forest ExpansionNode} (h : converter.addStrings nodeType expansionList = .ok expansions) :
    (toStrings expansions).map segments = expansions.leaves ExpansionNode.name := by
  rw [toStrings_eq, List.map_map]
  conv_rhs => rw [← List.map_id (expansions.leaves ExpansionNode.name)]
  apply List.map_congr_left
  intro p hp
  obtain ⟨s, -, rfl, -⟩ := (mem_leaves_addStrings h p).mp hp
  simp [intercalate_segments]

lemma nodup_toStrings {nodeType : String} {expansionList : List String} {expansions : Forest ExpansionNode}
    (h : converter.addStrings nodeType expansionList = .ok expansions) : (toStrings expansions).Nodup := by
  have hnamed : expansions.Named ExpansionNode.name :=
    Forest.named_growAll makeNode_name (show Forest.Named _ .nil from trivial) h
  have hleaves := Forest.nodup_leaves hnamed
  rw [← map_segments_toStrings h] at hleaves
  exact hleaves.of_map

/-- Adding the strings of what has been added gives the same paths. -/
lemma addStrings_toStrings {nodeType : String} {expansionList : List String}
    {expansions : Forest ExpansionNode} (h : converter.addStrings nodeType expansionList = .ok expansions) :
    ∃ expansions', converter.addStrings nodeType (toStrings expansions) = .ok expansions' ∧
      ∀ p, p ∈ expansions'.paths ExpansionNode.name ↔ p ∈ expansions.paths ExpansionNode.name := by
  have hne : ∀ p ∈ expansionList.map segments, p ≠ [] := by
    intro p hp
    obtain ⟨s, -, rfl⟩ := List.mem_map.mp hp
    exact segments_ne_nil s
  rw [addStrings, map_segments_toStrings h]
  exact Forest.growAll_leaves makeNode_name hne h

/-- The trees contain for each type the prefixes of the requested paths, their strings are the
requested paths that no other one extends, and lead to trees with the same paths. -/
structure Represents (converter : ExpansionConverter) (expansionDict : Expansions)
    (trees : List TypeNode) : Prop where
  paths : List.Forall₂ (fun entry tree => tree.type = entry.1 ∧
    ∀ p, p ∈ tree.expansions.paths ExpansionNode.name ↔ p ≠ [] ∧ ∃ s ∈ entry.2, p <+: segments s)
    expansionDict.entries trees
  strings : List.Forall₂ (fun entry listed => listed.1 = entry.1 ∧ listed.2.Nodup ∧
    ∀ s, s ∈ listed.2 ↔ s ∈ entry.2 ∧ ∀ s' ∈ entry.2, segments s <+: segments s' → s' = s)
    expansionDict.entries (treesToDict trees).entries
  again : ∃ trees', converter.dictToTrees (treesToDict trees) = .ok trees' ∧
    List.Forall₂ (fun tree tree' => tree'.type = tree.type ∧ ∀ p,
      p ∈ tree'.expansions.paths ExpansionNode.name ↔ p ∈ tree.expansions.paths ExpansionNode.name)
      trees trees'

lemma map_type_of_typeNodes {entries : List (String × List String)} {trees : List TypeNode}
    (h : converter.typeNodes entries = .ok trees) : trees.map TypeNode.type = entries.map Prod.fst := by
  have hall := typeNodes_eq_ok.mp h
  clear h
  induction hall with
  | nil => rfl
  | cons hhead _ ih => rw [List.map_cons, List.map_cons, hhead.1, ih]

/-- The strings of the trees lead to trees with the same paths. -/
lemma typeNodes_toDict {entries : List (String × List String)} {trees : List TypeNode}
    (h : converter.typeNodes entries = .ok trees) :
    ∃ trees', converter.typeNodes (trees.map TypeNode.toDict) = .ok trees' ∧
      List.Forall₂ (fun tree tree' => tree'.type = tree.type ∧ ∀ p,
        p ∈ tree'.expansions.paths ExpansionNode.name ↔ p ∈ tree.expansions.paths ExpansionNode.name)
        trees trees' := by
  have hall := typeNodes_eq_ok.mp h
  clear h
  induction hall with
  | nil => exact ⟨[], rfl, .nil⟩
  | @cons entry tree entries trees hhead _ ih =>
    obtain ⟨trees', htrees', hsame⟩ := ih
    obtain ⟨htype, hadd⟩ := hhead
    rw [← htype] at hadd
    obtain ⟨expansions', hexpansions', hpaths⟩ := addStrings_toStrings hadd
    refine ⟨⟨tree.type, expansions'⟩ :: trees', ?_, .cons ⟨rfl, hpaths⟩ hsame⟩
    rw [List.map_cons, TypeNode.toDict, typeNodes, hexpansions', htrees']
    rfl

lemma represents_of_ok {expansionDict : Expansions} {trees : List TypeNode}
    (h : converter.dictToTrees expansionDict = .ok trees) : converter.Represents expansionDict trees := by
  have hall := typeNodes_eq_ok.mp h
  have htypes := map_type_of_typeNodes h
  have hentries := entries_treesToDict (htypes ▸ expansionDict.nodup)
  refine ⟨?_, ?_, ?_⟩
  · refine hall.imp fun entry tree ⟨htype, hadd⟩ => ⟨htype, fun p => ?_⟩
    rw [Forest.mem_paths_growAll makeNode_name hadd]
    simp [Forest.paths]
  · rw [hentries, List.forall₂_map_right_iff]
    exact hall.imp fun entry tree ⟨htype, hadd⟩ => ⟨htype, nodup_toStrings hadd, mem_toStrings hadd⟩
  · rw [dictToTrees, hentries]
    exact typeNodes_toDict h

/-- The conversions agree: for valid strings the trees represent the dict, and for all others
there are no trees. -/
theorem dictToTrees_represents (converter : ExpansionConverter) (expansionDict : Expansions) :
    (converter.Valid expansionDict ∧
        ∃ trees, converter.dictToTrees expansionDict = .ok trees ∧ converter.Represents expansionDict trees) ∨
      (¬ converter.Valid expansionDict ∧ ∃ e, converter.dictToTrees expansionDict = .error e) := by
  rw [← exists_dictToTrees_iff]
  cases h : converter.dictToTrees expansionDict with
  | ok trees => exact .inl ⟨⟨trees, rfl⟩, trees, rfl, represents_of_ok h⟩
  | error e => exact .inr ⟨by simp, e, rfl⟩

end ExpansionConverter
end PySOA
