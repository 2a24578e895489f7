import PySOA.Test.Paths

/-! The variables in the data of test plans: finding the tokens in a text, finding their values in the sources,
and putting them in. -/
namespace PySOA
open Utf8 (Text CodePoint)

/-- Leaves of which some are texts. `toText` is `six.text_type`, `replace` what the method of this name gives
for a leaf that is not a text, `contains` the operator `in` for a leaf, and `reprSources` the text of the sources
in an error. The digits in ASCII are those from 0 to 9. -/
structure Leaves (α : Type) extends Builtins α where
  text? : α → Option Text
  ofText : Text → α
  toText : Data α → Text
  replace : α → Text → Text → Except PathError (Data α)
  contains : α → Text → Except PathError Bool
  reprSources : List (Data α) → Text
  digit?_of_lt : ∀ c, c.val < 128 → (digit? c).isSome = true → 48 ≤ c.val ∧ c.val ≤ 57
  text?_ofText : ∀ t, text? (ofText t) = some t

/-- The class is that of errors of a lookup, `KeyError` or `IndexError`. -/
def PathError.isLookup : PathError → Bool
  | .keyError _ | .indexError _ => true
  | .builtin cls _ => cls = "KeyError" || cls = "IndexError"
  | .typeError _ | .assertionError _ => false

inductive SubstitutionError
  | statusError (message : Text)
  | error (e : PathError)

/-- A match of `VARIABLE_SUBSTITUTION_RE`: the token with its brackets, what is inside, and the action at the start
of it with what is behind. -/
structure Replacement where
  token : Text
  fullPath : Text
  action : Option (Text × Text)

namespace Paths

def openBracket : CodePoint := 91
def closeBracket : CodePoint := 93

def isUpper (c : CodePoint) : Bool := 65 ≤ c.val && c.val ≤ 90
def isLower (c : CodePoint) : Bool := 97 ≤ c.val && c.val ≤ 122

/-- `[a-zA-Z_-]`. -/
def isActionChar (c : CodePoint) : Bool := isUpper c || isLower c || c.val = 95 || c.val = 45

/-- `[a-zA-Z0-9_.{}-]`. -/
def isPathChar (c : CodePoint) : Bool :=
  isActionChar c || (48 ≤ c.val && c.val ≤ 57) || c = dot || c = openBrace || c = closeBrace

/-- `t.lower()` of a text whose other characters than those of ASCII are digits. -/
def lower (t : Text) : Text := t.map fun c => if isUpper c then Fin.ofNat _ (c.val + 32) else c

section tokens
variable {α : Type} (py : Builtins α)

/-- `\d`. -/
def isDecimal (c : CodePoint) : Bool := (py.digit? c).isSome

/-- `\w`, for the characters that are in a path. -/
def isWord (c : CodePoint) : Bool := isUpper c || isLower c || c.val = 95 || isDecimal py c

/-- `[a-zA-Z_-]+\.\d+` at the start of a text, and what is behind it. -/
def matchAction (t : Text) : Option (Text × Text) :=
  let name := t.takeWhile isActionChar
  match t.dropWhile isActionChar with
  | [] => none
  | c :: rest =>
    let index := rest.takeWhile (isDecimal py)
    if c = dot ∧ name ≠ [] ∧ index ≠ [] then some (name ++ dot :: index, rest.dropWhile (isDecimal py)) else none

/-- What is between the brackets of a token at the start of a text, and what is behind them. What the regular
expression matches first is what it can match at all, as no bracket is in a path. -/
def matchInside (t : Text) : Option Replacement :=
  let action := matchAction py t
  let tail := (action.map Prod.snd).getD t
  let path := tail.takeWhile isPathChar
  match tail.dropWhile isPathChar with
  | c :: c' :: _ =>
    if c = closeBracket ∧ c' = closeBracket then
      let fullPath := (action.map Prod.fst).getD [] ++ path
      some ⟨openBracket :: openBracket :: (fullPath ++ [closeBracket, closeBracket]), fullPath,
        action.map fun action => (action.1, path)⟩
    else none
  | _ => none

def matchToken (t : Text) : Option Replacement :=
  match t with
  | c :: c' :: rest => if c = openBracket ∧ c' = openBracket then matchInside py rest else none
  | _ => none

/-- `VARIABLE_SUBSTITUTION_RE.findall`, behind so many more characters of the last match. -/
def findTokens : ℕ → Text → List Replacement
  | _, [] => []
  | n+1, _ :: t => findTokens n t
  | 0, c :: t =>
    match matchToken py (c :: t) with
    | some replacement => replacement :: findTokens (replacement.token.length - 1) t
    | none => findTokens 0 t

/-- `t.replace(old, new)`, behind so many more characters of the last occurrence. -/
def replaceAll (old new : Text) : ℕ → Text → Text
  | _, [] => []
  | n+1, _ :: t => replaceAll old new n t
  | 0, c :: t =>
    if old.isPrefixOf (c :: t) then new ++ replaceAll old new (old.length - 1) t else c :: replaceAll old new 0 t

/-- `SOURCE_PATH_FIND_PATH_WITHOUT_INDEX_TO_ADD_INDEX_ZERO.sub(r'{\1.0}.', t)`. -/
def addIndexZero (t : Text) : Text :=
  let name := t.takeWhile (isWord py)
  match t.dropWhile (isWord py) with
  | [] => t
  | c :: rest =>
    let indexed := !(rest.takeWhile (isDecimal py)).isEmpty && (rest.dropWhile (isDecimal py)).head? = some dot
    if c = dot ∧ name ≠ [] ∧ indexed = false then
      openBrace :: (name ++ text ".0" ++ closeBrace :: dot :: rest)
    else t

end tokens

variable {α : Type} (py : Leaves α)

/-- `path_get` for the first of the paths at which there is something. -/
def getFirst (source : Data α) : List Text → Except PathError (Option (Data α))
  | [] => .ok none
  | path :: paths =>
    match pathGet py.toBuiltins source path with
    | .ok v => .ok (some v)
    | .error e => if e.isLookup then getFirst source paths else .error e

/-- `_find_path_in_sources`; `none` stands for its `KeyError`. -/
def findPathInSources (sourcePath : Text) : List (Data α) → Except PathError (Option (Data α))
  | [] => .ok none
  | source :: sources =>
    match getFirst py source [sourcePath, lower sourcePath, addIndexZero py.toBuiltins (lower sourcePath)] with
    | .ok (some v) => .ok (some v)
    | .ok none => findPathInSources sourcePath sources
    | .error e => .error e

/-- `potential_action_name in source`. -/
def isIn (name : Text) : Data α → Except PathError Bool
  | .leaf a => py.contains a name
  | .dict entries => .ok (entries.any fun entry => entry.1 = .name name)
  | .seq _ items => .ok (items.any fun item =>
      match item with
      | .leaf a => py.text? a = some name
      | _ => false)

/-- The path that is looked up for a token: the action with its index is one element of it, if a source has
that. -/
def findPath (sources : List (Data α)) (replacement : Replacement) : Except PathError Text :=
  match replacement.action with
  | none => .ok replacement.fullPath
  | some (action, actionPath) => do
    let found ← sources.foldlM (fun found source => do return (← isIn py (lower action) source) || found) false
    return if found then openBrace :: (lower action ++ closeBrace :: actionPath) else replacement.fullPath

/-- The value for a token. -/
def valueFor (sources : List (Data α)) (replacement : Replacement) : Except SubstitutionError (Data α) :=
  match findPath py sources replacement with
  | .error e => .error (.error e)
  | .ok path =>
    match findPathInSources py path sources with
    | .error e => .error (.error e)
    | .ok (some v) => .ok v
    | .ok none => .error (.statusError (text "Could not find value " ++ path ++ text " for " ++ replacement.token ++
        text " in sources " ++ py.reprSources sources))

/-- Puts a value in for a token. A value that is the token gives way to it. -/
def putIn (value : Data α) (token : Text) (replaceWith : Data α) : Except SubstitutionError (Data α) :=
  match value with
  | .leaf a =>
    match py.text? a with
    | some t =>
      if t = token then .ok replaceWith
      else .ok (.leaf (py.ofText (replaceAll token (py.toText replaceWith) 0 t)))
    | none => (py.replace a token (py.toText replaceWith)).mapError .error
  | _ => .error (.error (.builtin "AttributeError" "object has no attribute 'replace'"))

/-- Puts in the values for the tokens, one after the other. -/
def putAllIn (sources : List (Data α)) (value : Data α) (replacements : List Replacement) :
    Except SubstitutionError (Data α) :=
  replacements.foldlM (fun value replacement => do
    putIn py value replacement.token (← valueFor py sources replacement)) value

/-- What is put in the place of a value, if it is a text with tokens. -/
def substituteValue (sources : List (Data α)) : Data α → Except SubstitutionError (Option (Data α))
  | .leaf a =>
    match py.text? a with
    | some t =>
      match findTokens py.toBuiltins 0 t with
      | [] => .ok none
      | replacements => (putAllIn py sources (.leaf a) replacements).map some
    | none => .ok none
  | _ => .ok none

/-- The loop of `substitute_variables`. The data is changed in place, so the caller sees it also when the call
raises; the sources are other objects than the data. -/
def substitutePaths (sources : List (Data α)) :
    List Text → Data α → Except SubstitutionError Unit × Data α
  | [], data => (.ok (), data)
  | path :: paths, data =>
    match pathGet py.toBuiltins data path with
    | .error e => if e.isLookup then substitutePaths sources paths data else (.error (.error e), data)
    | .ok value =>
      match substituteValue py sources value with
      | .error e => (.error e, data)
      | .ok none => substitutePaths sources paths data
      | .ok (some value) =>
        match pathPut py.toBuiltins data path value with
        | .error e => (.error (.error e), data)
        | .ok data => substitutePaths sources paths data

def substituteVariables (data : Data α) (sources : List (Data α)) : Except SubstitutionError Unit × Data α :=
  substitutePaths py sources (getAllPaths py.toBuiltins [] false data) data

/-- Texts and numbers. -/
def plainLeaves : Leaves (Text ⊕ ℕ) where
  isDigit c := 48 ≤ c.val && c.val ≤ 57
  digit? c := if 48 ≤ c.val ∧ c.val ≤ 57 then some (c.val - 48) else none
  isDigit_ascii := isDigit_ascii
  digit?_ascii := digit?_ascii
  digit?_of_lt c _ h := by
    by_contra hnot
    rw [if_neg hnot] at h
    cases h
  getItem
    | .inl t, .index i =>
      match t[i]? with
      | some c => .ok (.leaf (.inl [c]))
      | none => .error (.builtin "IndexError" "string index out of range")
    | .inl _, .name _ => .error (.builtin "TypeError" "string indices must be integers")
    | .inr _, _ => .error (.builtin "TypeError" "'int' object is not subscriptable")
  text?
    | .inl t => some t
    | .inr _ => none
  ofText := .inl
  toText
    | .leaf (.inl t) => t
    | .leaf (.inr n) => decimal n
    | .dict _ => text "{}"
    | .seq _ _ => text "[]"
  replace _ _ _ := .error (.builtin "AttributeError" "'int' object has no attribute 'replace'")
  contains
    | .inl t, name => .ok (t.tails.any name.isPrefixOf)
    | .inr _, _ => .error (.builtin "TypeError" "argument of type 'int' is not iterable")
  reprSources _ := text "([],)"
  text?_ofText _ := rfl

end Paths
end PySOA
