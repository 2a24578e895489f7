import PySOA.Common.Errors
import PySOA.Lib.Forest

/-! Expansions: the configuration of routes and types, the trees of a request for expansions, and
the conversion between these trees and the compact form with dotted strings. -/
namespace PySOA

/-- An entry of `type_routes`. -/
structure TypeRoute where
  service : String
  action : String
  requestField : String
  responseField : String
  deriving DecidableEq

/-- An entry of `type_expansions` for one type. -/
structure TypeExpansion where
  type : Option String
  route : String
  sourceField : String
  destinationField : String
  raiseActionErrors : Option Bool := none
  deriving DecidableEq

/-- An expansion node without the nodes below it, which are kept in the forest. -/
structure ExpansionNode where
  type : Option String
  name : String
  sourceField : String
  destinationField : String
  service : String
  action : String
  requestField : String
  responseField : String
  raiseActionErrors : Bool
  deriving DecidableEq

/-- A type node: the root of an expansion tree. -/
structure TypeNode where
  type : String
  expansions : Forest ExpansionNode := .nil

/-- `Expansions`: a dict from types to lists of expansion strings. -/
structure Expansions where
  entries : List (String × List String) := []
  nodup : (entries.map Prod.fst).Nodup := by simp

namespace Expansions

def setEntry (type : String) (strings : List String) :
    List (String × List String) → List (String × List String)
  | [] => [(type, strings)]
  | (key, value) :: entries =>
    if key = type then (key, strings) :: entries else (key, value) :: setEntry type strings entries

lemma map_fst_setEntry (type : String) (strings : List String) (entries : List (String × List String)) :
    (setEntry type strings entries).map Prod.fst =
      if type ∈ entries.map Prod.fst then entries.map Prod.fst else entries.map Prod.fst ++ [type] := by
  induction entries with
  | nil => simp [setEntry]
  | cons entry entries ih =>
    obtain ⟨key, value⟩ := entry
    unfold setEntry
    split_ifs with hkey hmem hmem
    · simp
    · exact absurd (by simp [hkey]) hmem
    · simp only [List.map_cons, List.mem_cons, Ne.symm hkey, false_or] at hmem ⊢
      rw [ih, if_pos hmem]
    · simp only [List.map_cons, List.mem_cons, Ne.symm hkey, false_or] at hmem ⊢
      rw [ih, if_neg hmem, List.cons_append]

/-- `result[type] = strings`. -/
def set (expansions : Expansions) (type : String) (strings : List String) : Expansions where
  entries := setEntry type strings expansions.entries
  nodup := by
    rw [map_fst_setEntry]
    split_ifs with hmem
    · exact expansions.nodup
    · apply List.Nodup.append expansions.nodup (List.nodup_singleton type)
      simpa using hmem

end Expansions

/-- `expansion_string.split('.')`. -/
def segments (expansionString : String) : List String :=
  (expansionString.toList.splitOn '.').map String.ofList

/-- `to_strings` of the expansions of a node: the strings of the nodes that have none below them. -/
def toStrings : Forest ExpansionNode → List String
  | .nil => []
  | .cons node expansions siblings =>
    match expansions with
    | .nil => node.name :: toStrings siblings
    | .cons .. => (toStrings expansions).map (node.name ++ "." ++ ·) ++ toStrings siblings

/-- `TypeNode.to_dict`: the only entry of the dict. -/
def TypeNode.toDict (node : TypeNode) : String × List String := (node.type, toStrings node.expansions)

/-- `TypeNode.get_expansion`. -/
def getExpansion (name : String) (expansions : Forest ExpansionNode) :
    Option (ExpansionNode × Forest ExpansionNode) :=
  expansions.find? ExpansionNode.name name

/-- `TypeNode.add_expansion`: the expansions below a node of a name that is there are merged. -/
def addExpansion (node : ExpansionNode) (below : Forest ExpansionNode) (expansions : Forest ExpansionNode) :
    Forest ExpansionNode :=
  Forest.addAll ExpansionNode.name (.cons node below .nil) expansions

structure ExpansionConverter where
  typeRoutes : List (String × TypeRoute)
  typeExpansions : List (String × List (String × TypeExpansion))

namespace ExpansionConverter
variable (converter : ExpansionConverter)

/-- The node for an expansion of a type, from the configuration. -/
def makeNode (nodeType : Option String) (expansionName : String) : Except Exc ExpansionNode :=
  match nodeType.bind (converter.typeExpansions.lookup ·) with
  | none => .error (.keyError (nodeType.getD "None"))
  | some expansions =>
    match expansions.lookup expansionName with
    | none => .error (.keyError expansionName)
    | some typeExpansion =>
      match converter.typeRoutes.lookup typeExpansion.route with
      | none => .error (.keyError typeExpansion.route)
      | some typeRoute =>
        if typeExpansion.destinationField = typeExpansion.sourceField then
          .error (.valueError ("Expansion configuration destination_field error: destination_field " ++
            "can not have the same name as the source_field: " ++ typeExpansion.sourceField))
        else
          .ok {
            type := typeExpansion.type
            name := expansionName
            sourceField := typeExpansion.sourceField
            destinationField := typeExpansion.destinationField
            service := typeRoute.service
            action := typeRoute.action
            requestField := typeRoute.requestField
            responseField := typeRoute.responseField
            raiseActionErrors := typeExpansion.raiseActionErrors.getD false }

/-- The loop over the expansion strings of one type. Each walks down from the type node, and the
nodes that it does not find are made and added. -/
def addStrings (nodeType : String) (expansionList : List String) : Except Exc (Forest ExpansionNode) :=
  Forest.growAll ExpansionNode.name converter.makeNode ExpansionNode.type (some nodeType) .nil
    (expansionList.map segments)

/-- The loop over the types. -/
def typeNodes : List (String × List String) → Except Exc (List TypeNode)
  | [] => .ok []
  | (nodeType, expansionList) :: entries =>
    match converter.addStrings nodeType expansionList with
    | .error e => .error e
    | .ok expansions => (typeNodes entries).map (⟨nodeType, expansions⟩ :: ·)

def dictToTrees (expansionDict : Expansions) : Except Exc (List TypeNode) :=
  converter.typeNodes expansionDict.entries

end ExpansionConverter

/-- `ExpansionConverter.trees_to_dict`, a static method. -/
def treesToDict (treesList : List TypeNode) : Expansions :=
  treesList.foldl (fun result tree => result.set tree.toDict.1 tree.toDict.2) {}

end PySOA
