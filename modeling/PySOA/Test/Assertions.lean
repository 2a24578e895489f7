import Mathlib.Data.List.Sort
import PySOA.Lib.DocumentEquality
import PySOA.Test.Paths

/-! The assertions of test plans about data: the comparison that collects the paths at which two structures
differ, and the assertions that read it. -/
namespace PySOA
open Utf8 (Text)

/-- What the assertions use of leaves: which of them is `None` and which are truthy; and the texts of
values and of their types in messages. -/
structure AssertionBuiltins (α : Type) extends Builtins α where
  isNone : α → Bool
  truthy : α → Bool
  str : Data α → Text
  typeRepr : Data α → Text
  pformat : Data α → Text

/-- What is noted for a path with two different values. -/
structure Mismatch (α : Type) where
  expected : Data α
  actual : Data α

/-- `CompareReturn`. The dict of the mismatching values is kept as the assignments to it, the later of
which take the place of earlier ones for the same path. -/
structure Comparison (α : Type) where
  missing : List Text := []
  mismatching : List Text := []
  mismatchingValues : List (Text × Mismatch α) := []
  extra : List Text := []

/-- `sorted` for texts. -/
def sorted (l : List Text) : List Text := l.insertionSort (· ≤ ·)

namespace Comparison
variable {α : Type}

/-- The lists are extended, and the dict is updated. -/
def extend (c sub : Comparison α) : Comparison α where
  missing := c.missing ++ sub.missing
  mismatching := c.mismatching ++ sub.mismatching
  mismatchingValues := c.mismatchingValues ++ sub.mismatchingValues
  extra := c.extra ++ sub.extra

/-- The lists are returned sorted. -/
def sort (c : Comparison α) : Comparison α :=
  { c with missing := sorted c.missing, mismatching := sorted c.mismatching, extra := sorted c.extra }

def mismatch (fullPath : Text) (expectedVal actualVal : Data α) : Comparison α where
  mismatching := [fullPath]
  mismatchingValues := [(fullPath, ⟨expectedVal, actualVal⟩)]

/-- The dict of the mismatching values. -/
def values (c : Comparison α) : List (Text × Mismatch α) := Assoc.ofPairs c.mismatchingValues

end Comparison

namespace Assertions
open Paths (text dot openBrace closeBrace decimal getAllPaths)
variable {α : Type}

/-- The path of an entry: a key with a dot and no brace is put in braces. -/
def keyPath (pre : Option Text) : Slot Text → Except PathError Text
  | .index _ => .error (.builtin "TypeError" "argument of type 'int' is not iterable")
  | .name k =>
    let fullPath := if k.contains dot && !k.contains openBrace then openBrace :: (k ++ [closeBrace]) else k
    .ok (match pre with
      | some path => path ++ dot :: fullPath
      | none => fullPath)

def itemPath (pre : Option Text) (i : ℕ) : Text :=
  match pre with
  | some path => path ++ dot :: decimal i
  | none => decimal i

def isContainer : Data α → Bool
  | .leaf _ => false
  | .dict _ => true
  | .seq kind _ => kind = .list

section compare
variable [BEq α] (py : AssertionBuiltins α)

/-- `bool(value)`. -/
def truthy : Data α → Bool
  | .leaf a => py.truthy a
  | .dict entries => !entries.isEmpty
  | .seq _ items => !items.isEmpty

/-- `value in items`. -/
def isIn (value : Data α) (items : List (Data α)) : Bool := items.any fun item => item.eqv value

/-- Nothing was expected, and there is something. -/
def unexpected (fullPath : Text) (expectedVal actualVal : Data α) : Comparison α :=
  { Comparison.mismatch fullPath expectedVal actualVal with
    extra := getAllPaths py.toBuiltins fullPath false actualVal }

/-- A single value is to be found in a list, if lists are compared as subsets; other values are to be
equal. -/
def compareOther (subsetLists : Bool) (expectedVal actualVal : Data α) (fullPath : Text) : Comparison α :=
  let equal : Comparison α := if expectedVal.eqv actualVal then {} else .mismatch fullPath expectedVal actualVal
  match actualVal with
  | .seq .list items =>
    if subsetLists then
      if truthy py expectedVal then
        if isIn expectedVal items then {} else { missing := [fullPath ++ dot :: py.str expectedVal] }
      else if items.isEmpty then {}
      else (unexpected py fullPath expectedVal actualVal).sort
    else equal
  | _ => equal

/-- The paths of the entries that are not expected. -/
def extraEntries (pre : Option Text) (expected : List (Slot Text × Data α)) :
    List (Slot Text × Data α) → Except PathError (List Text)
  | [] => .ok []
  | (actualKey, actualVal) :: actual =>
    match keyPath pre actualKey with
    | .error e => .error e
    | .ok fullPath =>
      let paths := if actualKey ∈ expected.map Prod.fst then []
        else getAllPaths py.toBuiltins fullPath false actualVal
      (extraEntries pre expected actual).map (paths ++ ·)

/-- The end of `_check_subset_dict`, behind the loop over the expected entries. -/
def finishEntries (pre : Option Text) (expected actual : List (Slot Text × Data α))
    (compared : Except PathError (Comparison α)) : Except PathError (Comparison α) :=
  match compared, extraEntries py pre expected actual with
  | .error e, _ => .error e
  | .ok _, .error e => .error e
  | .ok c, .ok extra => .ok (c.extend { extra }).sort

/-- The end of `_check_subset_list`, behind the loop over the expected items. -/
def finishItems (pre : Option Text) (expected actual : List (Data α)) (c : Comparison α) : Comparison α :=
  let pathOf (i : ℕ) : Text := itemPath (pre.filter (!·.isEmpty)) i
  let places := List.range' expected.length (actual.length - expected.length)
  (c.extend { extra := places.map pathOf }).sort

/-- The paths to the leaves of an expected value without an actual one. -/
def missingPaths (fullPath : Text) (expectedVal : Data α) : List Text :=
  (getAllPaths py.toBuiltins [] false expectedVal).map fun missingSubPath =>
    if missingSubPath.isEmpty then fullPath else fullPath ++ dot :: missingSubPath

variable (subsetLists : Bool)

mutual
/-- `_compare_values`. -/
def compareValues : Data α → Data α → Text → Except PathError (Comparison α)
  | .dict entries, .dict actualEntries, fullPath =>
    if entries.isEmpty then
      if actualEntries.isEmpty then .ok {}
      else .ok (unexpected py fullPath (.dict entries) (.dict actualEntries)).sort
    else
      finishEntries py (some fullPath) entries actualEntries
        (compareEntries entries actualEntries (some fullPath))
  | .seq .list items, .seq .list actualItems, fullPath =>
    if items.isEmpty then
      if actualItems.isEmpty then .ok {}
      else .ok (unexpected py fullPath (.seq .list items) (.seq .list actualItems)).sort
    else
      (compareItems items actualItems (some fullPath) 0).map
        (finishItems (some fullPath) items actualItems)
  | expectedVal, actualVal, fullPath => .ok (compareOther py subsetLists expectedVal actualVal fullPath)

/-- The loop of `_check_subset_dict` over the expected entries. -/
def compareEntries : List (Slot Text × Data α) → List (Slot Text × Data α) → Option Text →
    Except PathError (Comparison α)
  | [], _, _ => .ok {}
  | (expectedKey, expectedVal) :: expected, actual, pre =>
    match keyPath pre expectedKey with
    | .error e => .error e
    | .ok fullPath =>
      let sub : Except PathError (Comparison α) := match Assoc.get? expectedKey actual with
        | none => .ok { missing := missingPaths py fullPath expectedVal }
        | some actualVal => compareValues expectedVal actualVal fullPath
      match sub with
      | .error e => .error e
      | .ok sub => (compareEntries expected actual pre).map sub.extend

/-- The loop of `_check_subset_list` over the expected items, from place `i` on. -/
def compareItems : List (Data α) → List (Data α) → Option Text → ℕ → Except PathError (Comparison α)
  | [], _, _, _ => .ok {}
  | expectedVal :: expected, actual, pre, i =>
    let sub : Except PathError (Comparison α) :=
      if subsetLists && !isContainer expectedVal then
        .ok (if isIn expectedVal actual then {}
          else { missing := [itemPath pre i ++ dot :: py.str expectedVal] })
      else
        match actual[i]? with
        | none => .ok { missing := [itemPath pre i] }
        | some actualVal => compareValues expectedVal actualVal (itemPath pre i)
    match sub with
    | .error e => .error e
    | .ok sub => (compareItems expected actual pre (i+1)).map sub.extend
end

/-- `_check_subset_dict` without a prefix. -/
def checkSubsetDict (expected actual : Data α) : Except PathError (Comparison α) :=
  match expected, actual with
  | .dict entries, .dict actualEntries =>
    finishEntries py none entries actualEntries (compareEntries py subsetLists entries actualEntries none)
  | .dict _, _ => .error (.assertionError (text "actual value is not a dict"))
  | _, _ => .error (.assertionError (text "expected value is not a dict"))

end compare

section messages
variable (py : AssertionBuiltins α)

/-- `separator.join(sorted(paths))`. -/
def joinSorted (separator : Text) (paths : List Text) : Text := separator.intercalate (sorted paths)

def makeErrorMsgHeader (msg : Option Text) : Text :=
  match msg with
  | some msg => msg ++ text "\n" ++ List.replicate 70 45 ++ text "\nDATA ERROR:"
  | none => []

def makeMissingErrorMessage (missing : List Text) (msg : Text) : Text :=
  msg ++ text "\nMissing values:\n  \x60" ++ joinSorted (text "\x60\n  \x60") missing ++ text "\x60"

def makeMismatchErrorMessage (mismatch : List Text) (mismatchValues : List (Text × Mismatch α)) (msg : Text) :
    Text :=
  let field (entry : Text × Mismatch α) : Text :=
    text "\n\x60" ++ entry.1 ++ text "\x60 is incorrect:\n  Expected: " ++ py.str entry.2.expected ++
      text " (" ++ py.typeRepr entry.2.expected ++ text ")\n  Actual:   " ++ py.str entry.2.actual ++
      text " (" ++ py.typeRepr entry.2.actual ++ text ")\n"
  let fields := mismatchValues.insertionSort fun a b => a.1 ≤ b.1
  msg ++ text "\nMismatch values:\n  \x60" ++ joinSorted (text "\x60\n  \x60") mismatch ++ text "\x60" ++
    text "\n" ++ fields.flatMap field

def makeNotExpectedErrorMessage (notExpectedFields : List Text) (msg : Text) : Text :=
  msg ++ text "\nNot Expected fields present:\n   \x60" ++
    joinSorted (text "\x60\n   \x60") notExpectedFields ++ text "\x60"

def makeFailedComparisionErrorMessage (expectedKey : String) (expected actual : Data α) : Text :=
  text "\nFull body " ++ text expectedKey ++ text ":\n" ++ py.pformat expected ++
    text "\n\nFull body actual:\n" ++ py.pformat actual ++ text "\n"

end messages

section assertions
variable [BEq α] (py : AssertionBuiltins α)

def assertExactStructure (expected actual : Data α) (msg : Option Text) : Except PathError Unit :=
  match checkSubsetDict py false expected actual with
  | .error e => .error e
  | .ok c =>
    if c.missing ≠ [] ∨ c.mismatching ≠ [] ∨ c.extra ≠ [] then
      let header := makeErrorMsgHeader msg
      let missing := if c.missing ≠ [] then makeMissingErrorMessage c.missing header else header
      let mismatch := if c.mismatching ≠ [] then makeMismatchErrorMessage py c.mismatching c.values missing
        else missing
      let extra := if c.extra ≠ [] then
          mismatch ++ text "\nExtra values:\n" ++
            c.extra.flatMap fun field => text "   \x60" ++ field ++ text "\x60\n"
        else mismatch
      .error (.assertionError (extra ++ makeFailedComparisionErrorMessage py "expected" expected actual))
    else .ok ()

/-- `value is None`. -/
def isNone : Data α → Bool
  | .leaf a => py.isNone a
  | _ => false

/-- The fields of the mismatching values that count as missing: `None` is there, and something else was not
to be there. -/
def noneFields (values : List (Text × Mismatch α)) : List Text :=
  (values.filter fun entry => isNone py entry.2.actual && !isNone py entry.2.expected).map Prod.fst

def assertNotExpected (notExpected actual : Data α) (msg : Option Text) : Except PathError Unit :=
  match checkSubsetDict py true notExpected actual with
  | .error e => .error e
  | .ok c =>
    let paths := getAllPaths py.toBuiltins [] false notExpected
    let missing := c.missing ++ noneFields py c.values
    if missing.length ≠ paths.length then
      let present := (paths.filter fun path => !missing.contains path).dedup
      .error (.assertionError (makeNotExpectedErrorMessage present (makeErrorMsgHeader msg) ++
        makeFailedComparisionErrorMessage py "NOT expected" notExpected actual))
    else .ok ()

/-- `_assert_lists_match_any_order`; without `subset` this is `assert_lists_match_any_order`. -/
def assertListsMatchAnyOrder (expected actual : Data α) (subset : Bool) (msg : Option Text) :
    Except PathError Unit :=
  match expected, actual with
  | .seq .list expectedItems, .seq .list actualItems =>
    let missing := expectedItems.filter fun expectedValue => !isIn expectedValue actualItems
    if missing ≠ [] ∨ (subset = false ∧ expectedItems.length ≠ actualItems.length) then
      .error (.assertionError (makeErrorMsgHeader msg ++
        text "\nEncountered values were incorrect:\n  Expected " ++
        (if subset then text "subset: " else text "exact:  ") ++
        py.str expected ++ text " (" ++ py.typeRepr expected ++ text ")\n  Actual:          " ++
        py.str actual ++ text " (" ++ py.typeRepr actual ++ text ")\n"))
    else .ok ()
  | .seq .list _, _ => .error (.assertionError (text "actual value is not a list"))
  | _, _ => .error (.assertionError (text "expected value is not a list"))

end assertions

/-- Leaves that are `None` or natural numbers. -/
def numberBuiltins : AssertionBuiltins (Option ℕ) where
  isDigit c := 48 ≤ c.val && c.val ≤ 57
  digit? c := if 48 ≤ c.val ∧ c.val ≤ 57 then some (c.val - 48) else none
  isDigit_ascii := Paths.isDigit_ascii
  digit?_ascii := Paths.digit?_ascii
  getItem _ _ := .error (.builtin "TypeError" "object is not subscriptable")
  isNone := Option.isNone
  truthy a := a.any (· ≠ 0)
  str
    | .leaf none => text "None"
    | .leaf (some n) => decimal n
    | _ => text "..."
  typeRepr
    | .leaf none => text "<class 'NoneType'>"
    | .leaf (some _) => text "<class 'int'>"
    | .dict _ => text "<class 'dict'>"
    | .seq .list _ => text "<class 'list'>"
    | .seq .tuple _ => text "<class 'tuple'>"
    | .seq .set _ => text "<class 'set'>"
  pformat _ := text "..."

end Assertions
end PySOA
