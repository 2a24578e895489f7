import PySOA.Common.Bytes
import PySOA.Lib.Documents
import PySOA.Lib.Utf8

/-! The paths into the data of test plans: their texts, listing them, and getting and putting data. -/
namespace PySOA
open Utf8 (Text CodePoint)

inductive SequenceKind
  | list
  | tuple
  | set
  deriving DecidableEq

/-- Nested data with leaves of any type. The keys of a dict are texts or numbers. A set has its items in
the order in which `sorted` puts them, the only one in which they are read. -/
abbrev Data (α : Type) := Document Text SequenceKind α

/-- `builtin` is an error of the language's own operators, with its class. -/
inductive PathError
  | keyError (slot : Slot Text)
  | indexError (slot : Slot Text)
  | typeError (message : Text)
  | assertionError (path : Text)
  | builtin (cls : String) (message : String)

/-- The digits that `isdigit` knows and the values of those that `int` reads, and what subscripting a
leaf gives. The digits from 0 to 9 are among both. -/
structure Builtins (α : Type) where
  isDigit : CodePoint → Bool
  digit? : CodePoint → Option ℕ
  isDigit_ascii : ∀ c, 48 ≤ c.val → c.val ≤ 57 → isDigit c = true
  digit?_ascii : ∀ c, 48 ≤ c.val → c.val ≤ 57 → digit? c = some (c.val - 48)
  getItem : α → Slot Text → Except PathError (Data α)

namespace Paths

/-! ASCII digits are digits by their places alone. -/

lemma isDigit_ascii (c : CodePoint) (hlow : 48 ≤ c.val) (hhigh : c.val ≤ 57) :
    (48 ≤ c.val && c.val ≤ 57) = true := by
  rw [decide_eq_true hlow, decide_eq_true hhigh]
  rfl

lemma digit?_ascii (c : CodePoint) (hlow : 48 ≤ c.val) (hhigh : c.val ≤ 57) :
    (if 48 ≤ c.val ∧ c.val ≤ 57 then some (c.val - 48) else none) = some (c.val - 48) := if_pos ⟨hlow, hhigh⟩

def dot : CodePoint := 46
def openBrace : CodePoint := 123
def closeBrace : CodePoint := 125

/-- The text of a literal. -/
def text (s : String) : Text := s.toList.map fun c => Fin.ofNat _ c.toNat

/-- `six.text_type` of a natural number. -/
def decimal (n : ℕ) : Text := (Bytes.decimal n).map fun b => Fin.ofNat _ b.toNat

/-- The loop of `_path_get_next_path_element`: the characters of the element, whether there was a brace,
and what is behind the dot that ends the element. -/
def scan : Text → Text → ℤ → Bool → Text × Bool × Text
  | [], nextElementChars, _, wasInBrace => (nextElementChars, wasInBrace, [])
  | char :: path, nextElementChars, brace, wasInBrace =>
    if char = openBrace then
      if brace + 1 = 1 then scan path nextElementChars (brace+1) true
      else scan path (nextElementChars ++ [char]) (brace+1) true
    else if char = closeBrace then
      if brace - 1 = 0 then scan path nextElementChars (brace-1) wasInBrace
      else scan path (nextElementChars ++ [char]) (brace-1) wasInBrace
    else if char = dot ∧ brace = 0 then (nextElementChars, wasInBrace, path)
    else scan path (nextElementChars ++ [char]) brace wasInBrace

variable {α : Type} (py : Builtins α)

/-- `t.isdigit()`. -/
def isDigits (t : Text) : Bool := !t.isEmpty && t.all py.isDigit

/-- `int` of a text for which `isdigit` holds. -/
def toInt (t : Text) : Except PathError ℕ :=
  t.foldlM (fun n c =>
    match py.digit? c with
    | some d => .ok (10*n + d)
    | none => .error (.builtin "ValueError" "invalid literal for int() with base 10")) 0

/-- `_path_get_next_path_element`; there is no element in an empty path. -/
def pathGetNextPathElement (path : Text) : Except PathError (Option (Slot Text × Option Text)) :=
  if path.isEmpty then .ok none
  else
    let (nextElement, wasInBrace, rest) := scan path [] 0 false
    let remainder := if rest.isEmpty then none else some rest
    if !wasInBrace && isDigits py nextElement then
      (toInt py nextElement).map fun n => some (.index n, remainder)
    else .ok (some (.name nextElement, remainder))

/-- `_dot_join`. -/
def dotJoin (a b : Text) : Text := if a.isEmpty then b else a ++ dot :: b

/-- The element of a path that stands for a slot: keys that would be read as a number or as several
elements are put in braces. -/
def element : Slot Text → Text
  | .name k => if isDigits py k || k.contains dot then openBrace :: (k ++ [closeBrace]) else k
  | .index i => decimal i

mutual
/-- `get_all_paths`. A leaf is listed whether it is blank or not. -/
def getAllPaths (currentPath : Text) (allowBlank : Bool) : Data α → List Text
  | .leaf _ => [currentPath]
  | .dict entries =>
    if allowBlank && !currentPath.isEmpty && entries.isEmpty then [currentPath]
    else getEntryPaths currentPath allowBlank entries
  | .seq _ items =>
    if allowBlank && !currentPath.isEmpty && items.isEmpty then [currentPath]
    else getItemPaths currentPath allowBlank 0 items

def getEntryPaths (currentPath : Text) (allowBlank : Bool) : List (Slot Text × Data α) → List Text
  | [] => []
  | (k, v) :: entries =>
    getAllPaths (dotJoin currentPath (element py k)) allowBlank v ++
      getEntryPaths currentPath allowBlank entries

def getItemPaths (currentPath : Text) (allowBlank : Bool) (i : ℕ) : List (Data α) → List Text
  | [] => []
  | v :: items =>
    getAllPaths (dotJoin currentPath (decimal i)) allowBlank v ++
      getItemPaths currentPath allowBlank (i+1) items
end

/-- What is at a slot of the data; sequences and sets have numbered slots. -/
def getSlot : Data α → Slot Text → Except PathError (Data α)
  | .leaf a, slot => py.getItem a slot
  | .dict entries, slot =>
    match Assoc.get? slot entries with
    | some v => .ok v
    | none => .error (.keyError slot)
  | .seq _ _, .name t => .error (.typeError (t ++ text " should be an integer for sequences and sets"))
  | .seq _ items, .index i =>
    match items[i]? with
    | some v => .ok v
    | none => .error (.indexError (.index i))

/-- `_vivify_array`. -/
def vivifyArray (array : List (Data α)) (count : ℕ) (prototype : Data α) : List (Data α) :=
  array ++ List.replicate (count + 1 - array.length) prototype

/-- `out[slot] = value` at the end of a path. -/
def setSlot (out : Data α) (slot : Slot Text) (path : Text) (value : Data α) : Except PathError (Data α) :=
  match out, slot with
  | .dict entries, slot => .ok (.dict (Assoc.upsert slot (fun _ => value) entries))
  | .seq .list _, .name _ => .error (.assertionError path)
  | .seq .list items, .index i => .ok (.seq .list ((vivifyArray items i (.dict [])).set i value))
  | .seq .tuple _, _ => .error (.builtin "TypeError" "'tuple' object does not support item assignment")
  | .seq .set _, _ => .error (.builtin "TypeError" "'set' object does not support item assignment")
  | .leaf _, _ => .error (.builtin "TypeError" "object does not support item assignment")

/-- What grows at a slot whose next element is the given one. -/
def prototypeFor : Option (Slot Text × Option Text) → Data α
  | some (.index _, _) => .seq .list []
  | _ => .dict []

/-- Changes what is at a slot in place, after it has been made from the prototype if it was missing. The
items of a leaf are made when it is subscripted, so that the leaf stays as it is. -/
def changeSlot (out : Data α) (slot : Slot Text) (path : Text) (prototype : Data α)
    (change : Data α → Except PathError (Data α)) : Except PathError (Data α) :=
  match out, slot with
  | .dict entries, slot =>
    (change ((Assoc.get? slot entries).getD prototype)).map fun v =>
      .dict (Assoc.upsert slot (fun _ => v) entries)
  | .seq .list _, .name _ => .error (.assertionError path)
  | .seq .list items, .index i =>
    (change (items[i]?.getD prototype)).map fun v =>
      .seq .list ((vivifyArray items i prototype).set i v)
  | .seq .tuple _, .name _ =>
    .error (.builtin "TypeError" "tuple indices must be integers or slices, not str")
  | .seq .tuple items, .index i =>
    match items[i]? with
    | some v => (change v).map fun v => .seq .tuple (items.set i v)
    | none => .error (.builtin "IndexError" "tuple index out of range")
  | .seq .set _, _ => .error (.builtin "TypeError" "'set' object is not subscriptable")
  | .leaf a, slot =>
    match py.getItem a slot with
    | .ok v => (change v).map fun _ => .leaf a
    | .error e => .error e

lemma length_scan_le (path chars : Text) (brace : ℤ) (was : Bool) :
    (scan path chars brace was).2.2.length ≤ path.length - 1 := by
  induction path generalizing chars brace was with
  | nil => exact Nat.le_refl _
  | cons char path ih =>
    have hle (chars : Text) (brace : ℤ) (was : Bool) :
        (scan path chars brace was).2.2.length ≤ (char :: path).length - 1 := by
      have h := ih chars brace was
      rw [List.length_cons]
      omega
    unfold scan
    split_ifs
    · exact hle _ _ _
    · exact hle _ _ _
    · exact hle _ _ _
    · exact hle _ _ _
    · exact Nat.le_refl _
    · exact hle _ _ _

/-- What remains of a path is shorter. -/
lemma length_lt_of_remainder {path rest : Text} {slot : Slot Text}
    (h : pathGetNextPathElement py path = .ok (some (slot, some rest))) : rest.length < path.length := by
  cases path with
  | nil => cases h
  | cons char path =>
    have hrest : rest = (scan (char :: path) [] 0 false).2.2 := by
      have hremainder (slot' : Slot Text)
          (heq : some (slot', if (scan (char :: path) [] 0 false).2.2.isEmpty then none
            else some (scan (char :: path) [] 0 false).2.2) = some (slot, some rest)) :
          rest = (scan (char :: path) [] 0 false).2.2 := by
        split_ifs at heq
        · cases heq
        · cases heq
          rfl
      unfold pathGetNextPathElement at h
      simp only [List.isEmpty_cons, Bool.false_eq_true, if_false] at h
      by_cases hdigits : (!(scan (char :: path) [] 0 false).2.1 &&
          isDigits py (scan (char :: path) [] 0 false).1) = true
      · rw [if_pos hdigits] at h
        cases hn : toInt py (scan (char :: path) [] 0 false).1 with
        | error e =>
          rw [hn] at h
          cases h
        | ok n =>
          rw [hn] at h
          exact hremainder _ (Except.ok.inj h)
      · rw [if_neg hdigits] at h
        exact hremainder _ (Except.ok.inj h)
    have hle := length_scan_le (char :: path) [] 0 false
    rw [hrest]
    rw [List.length_cons] at hle ⊢
    omega

/-- `path_get`. -/
def pathGet (data : Data α) (path : Text) : Except PathError (Data α) :=
  match _h : pathGetNextPathElement py path with
  | .error e => .error e
  | .ok none => .error (.assertionError path)
  | .ok (some (slot, none)) => getSlot py data slot
  | .ok (some (slot, some pathRest)) =>
    match getSlot py data slot with
    | .error e => .error e
    | .ok newData => pathGet newData pathRest
termination_by path.length
decreasing_by exact length_lt_of_remainder py _h

/-- `path_put`: the data afterwards. -/
def pathPut (out : Data α) (path : Text) (value : Data α) : Except PathError (Data α) :=
  match _h : pathGetNextPathElement py path with
  | .error e => .error e
  | .ok none => .ok out
  | .ok (some (slot, none)) => setSlot out slot path value
  | .ok (some (slot, some pathRest)) =>
    match pathGetNextPathElement py pathRest with
    | .error e => .error e
    | .ok next => changeSlot py out slot path (prototypeFor next) fun v => pathPut v pathRest value
termination_by path.length
decreasing_by exact length_lt_of_remainder py _h

/-- Putting what the data has at each of the paths into `out`, as test cases are merged. -/
def putPaths (data out : Data α) (paths : List Text) : Except PathError (Data α) :=
  paths.foldlM (fun out path => do pathPut py out path (← pathGet py data path)) out

end Paths
end PySOA
