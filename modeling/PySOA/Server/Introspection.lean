import PySOA.Lib.Assoc
import PySOA.Server.Switched

/-! The introspection action: the descriptions of the actions of a server, all of them or those for
one name. -/
namespace PySOA

/-- An action class, as far as introspection reads it: its attribute `description`, its docstring and
what its schemas return for their own introspection. -/
structure ActionClass where
  description : Option String := none
  doc : Option String := none
  requestSchema : Option Value := none
  responseSchema : Option Value := none
  truthy : Bool := true

/-- The description of an action. -/
structure ActionDescription where
  documentation : Option String
  requestSchema : Option Value
  responseSchema : Option Value

/-- `_introspect_action`. -/
def introspectAction (actionClass : ActionClass) : ActionDescription where
  documentation := (actionClass.description.filter (· ≠ "")).or (actionClass.doc.filter (· ≠ ""))
  requestSchema := actionClass.requestSchema
  responseSchema := actionClass.responseSchema

/-- A value of `action_class_map`. -/
inductive ServerAction
  | action (actionClass : ActionClass)
  | switched (action : SwitchedAction ActionClass)

/-- A server, as far as introspection reads it. The keys of its map are distinct; `description` is the
attribute of its class, if that has one. -/
structure IntrospectedServer where
  actionClassMap : List (String × ServerAction)
  nodup : (actionClassMap.map Prod.fst).Nodup
  introspectionAction : ActionClass
  baseStatusAction : ActionClass
  description : Option (Option String) := none
  doc : Option String := none

/-- The body of an introspection response; the documentation may be omitted. -/
structure IntrospectionResponse where
  actionNames : List String
  actions : List (String × ActionDescription)
  documentation : Option (Option String) := none

/-- The decimal digits that `\d` matches and their values. Among the ASCII characters these are the
digits from 0 to 9. -/
structure DecimalDigits where
  value : Char → Option ℕ
  value_ascii : ∀ c, c.toNat < 128 → value c = if c.isDigit then some (c.toNat - '0'.toNat) else none

namespace DecimalDigits
variable (digits : DecimalDigits)

def isDigit (c : Char) : Bool := (digits.value c).isSome

/-- `int` of digits. -/
def toNat (cs : List Char) : ℕ := cs.foldl (fun n c => 10 * n + (digits.value c).getD 0) 0

end DecimalDigits

namespace SwitchedAction

/-- What is in the brackets of the name of a sub-action, other than for the default action. -/
def label (foundDefault last : Bool) : SwitchKey → Option ℤ
  | .defaultAction => none
  | .switch switch => if !foundDefault && last then none else some switch.getSwitch

/-- The loop of `_iterate_switched_actions`. -/
def iterate {α : Type} (foundDefault : Bool) : List (SwitchKey × α) → List (Option ℤ × α)
  | [] => []
  | (key, subActionClass) :: entries =>
    (label foundDefault entries.isEmpty key, subActionClass) ::
      iterate (foundDefault || key.isDefault) entries

/-- The name of a sub-action. -/
def subActionName (actionName : String) : Option ℤ → String
  | none => actionName ++ "[DEFAULT]"
  | some n => actionName ++ ("[switch:" ++ (n.repr ++ "]"))

/-- `_iterate_switched_actions`. -/
def iterateSwitchedActions {α : Type} (actionName : String) (action : SwitchedAction α) : List (String × α) :=
  (iterate false action.switchToActionMap).map fun entry => (subActionName actionName entry.1, entry.2)

/-- `switch == matching_switch` for an integer. -/
def equalsInt (n : ℕ) : SwitchKey → Bool
  | .defaultAction => false
  | .switch switch => switch.equalsInt && switch.getSwitch == n

/-- The class that the loop over the map ends with: that of the first equal switch, else of the last
entry. -/
def classFor {α : Type} (action : SwitchedAction α) (n : ℕ) : α :=
  match action.switchToActionMap.find? (fun entry => equalsInt n entry.1) with
  | some entry => entry.2
  | none => (action.switchToActionMap.getLast action.ne_nil).2

end SwitchedAction

/-- The bracketed part of the name of a sub-action. -/
inductive NamedSwitch
  | defaultAction
  | switch (n : ℕ)

/-- The characters of the action names that `SWITCHED_ACTION_RE` matches. -/
def isNameChar (c : Char) : Bool := c.isAlphanum || c == '_' || c == '-'

/-- `$` behind a bracket: the end, or a newline that ends the text. -/
def endsBracket (cs : List Char) : Bool := cs == [']'] || cs == [']', '\n']

/-- What follows a text at the start of another. -/
def afterText (text : String) (cs : List Char) : Option (List Char) :=
  if text.toList.isPrefixOf cs then some (cs.drop text.toList.length) else none

/-- `SWITCHED_ACTION_RE.match`. -/
def matchSwitchedAction (digits : DecimalDigits) (name : String) : Option (String × NamedSwitch) :=
  let action := name.toList.takeWhile isNameChar
  let bracket := name.toList.dropWhile isNameChar
  if action = [] then none
  else
    match afterText "[switch:" bracket with
    | some cs =>
      let number := cs.takeWhile digits.isDigit
      if number ≠ [] ∧ endsBracket (cs.dropWhile digits.isDigit) then
        some (String.ofList action, .switch (digits.toNat number))
      else none
    | none =>
      match afterText "[DEFAULT" bracket with
      | some cs => if endsBracket cs then some (String.ofList action, .defaultAction) else none
      | none => none

namespace IntrospectedServer
variable (server : IntrospectedServer)

/-- The names under which the actions of an entry of the map are listed. -/
def listed : String × ServerAction → List (String × ActionClass)
  | (actionName, .action actionClass) => [(actionName, actionClass)]
  | (actionName, .switched action) => action.iterateSwitchedActions actionName

/-- A response with the given names and descriptions. -/
def responseFor (entries : List (String × ActionClass)) : IntrospectionResponse where
  actionNames := (entries.map Prod.fst).mergeSort fun a b => decide (a ≤ b)
  actions := Assoc.ofPairs (entries.map fun entry => (entry.1, introspectAction entry.2))

/-- The entries of `action_class_map`, behind those that the server adds. -/
def allActions : List (String × ServerAction) :=
  (if (server.actionClassMap.map Prod.fst).contains "introspect" then []
    else [("introspect", .action server.introspectionAction)]) ++
  (if (server.actionClassMap.map Prod.fst).contains "status" then []
    else [("status", .action server.baseStatusAction)]) ++ server.actionClassMap

/-- `_get_response_for_all_actions`. -/
def getResponseForAllActions : IntrospectionResponse :=
  { responseFor (server.allActions.flatMap listed) with
    documentation := some ((server.description.getD server.doc).filter (· ≠ "")) }

/-- `_get_response_for_single_action`. -/
def getResponseForSingleAction (digits : DecimalDigits) (requestActionName : String) :
    Except Exc IntrospectionResponse :=
  let (actionName, switch) : String × Option NamedSwitch :=
    match matchSwitchedAction digits requestActionName with
    | some (actionName, switch) => (actionName, some switch)
    | none => (requestActionName, none)
  let single (actionClass : ActionClass) := responseFor [(requestActionName, actionClass)]
  match Assoc.get? actionName server.actionClassMap with
  | some (.action actionClass) => .ok (single actionClass)
  | some (.switched action) =>
    match switch with
    | some .defaultAction => .ok (single (action.switchToActionMap.getLast action.ne_nil).2)
    -- the number 0 is false, so it counts as no switch at all
    | some (.switch 0) | none => .ok (responseFor (action.iterateSwitchedActions actionName))
    | some (.switch n) => .ok (single (action.classFor n))
  | none =>
    if actionName = "introspect" then .ok (single server.introspectionAction)
    else if actionName = "status" then .ok (single server.baseStatusAction)
    else .error (.actionError [{
      code := .text "INVALID"
      message := .text "Action not defined in service"
      field := .text "action_name"
      isCallerError := .bool true }])

/-- `run`; the argument is `action_name` of the request body. -/
def run (digits : DecimalDigits) : Option String → Except Exc IntrospectionResponse
  | none | some "" => .ok server.getResponseForAllActions
  | some actionName => server.getResponseForSingleAction digits actionName

end IntrospectedServer

/-- A name of letters, digits, `_` and `-`. -/
def PlainName (name : String) : Prop := name ≠ "" ∧ ∀ c ∈ name.toList, isNameChar c = true

section names
variable {name : String}

lemma takeWhile_name (hname : ∀ c ∈ name.toList, isNameChar c = true) (cs : List Char) :
    (name.toList ++ '[' :: cs).takeWhile isNameChar = name.toList := by
  rw [List.takeWhile_append_of_pos hname, List.takeWhile_cons_of_neg (by decide), List.append_nil]

lemma dropWhile_name (hname : ∀ c ∈ name.toList, isNameChar c = true) (cs : List Char) :
    (name.toList ++ '[' :: cs).dropWhile isNameChar = '[' :: cs := by
  rw [List.dropWhile_append_of_pos hname, List.dropWhile_cons_of_neg (by decide)]

lemma afterText_append (text : String) (cs : List Char) : afterText text (text.toList ++ cs) = some cs := by
  unfold afterText
  rw [if_pos (List.isPrefixOf_iff_prefix.mpr (List.prefix_append _ _)), List.drop_left]

/-- The name of a sub-action: the name of the action, and a bracket. -/
lemma toList_subActionName (name : String) (label : Option ℤ) :
    ∃ cs, (SwitchedAction.subActionName name label).toList = name.toList ++ '[' :: cs := by
  cases label with
  | none => exact ⟨"DEFAULT]".toList, String.toList_append⟩
  | some n => exact ⟨"switch:".toList ++ (n.repr ++ "]").toList, by simp [SwitchedAction.subActionName]⟩

lemma takeWhile_subActionName (hname : ∀ c ∈ name.toList, isNameChar c = true) (label : Option ℤ) :
    (SwitchedAction.subActionName name label).toList.takeWhile isNameChar = name.toList := by
  obtain ⟨cs, hcs⟩ := toList_subActionName name label
  rw [hcs, takeWhile_name hname]

lemma digits_repr (n : ℕ) : Nat.ofDigitChars 10 n.repr.toList 0 = n := by
  rw [Nat.toList_repr, Nat.ofDigitChars_ten_toDigits]

lemma minus_notMem_repr (n : ℕ) : '-' ∉ n.repr.toList := by
  intro h
  rw [Nat.toList_repr] at h
  have hdigit := Nat.isDigit_of_mem_toDigits (by norm_num) (le_refl 10) h
  exact absurd hdigit (by decide)

lemma repr_inj {m n : ℤ} (h : m.repr = n.repr) : m = n := by
  have hlist := congrArg String.toList h
  cases m with
  | ofNat m =>
    cases n with
    | ofNat n =>
      have hvalue := congrArg (fun cs => Nat.ofDigitChars 10 cs 0) hlist
      simp only [Int.repr, digits_repr] at hvalue
      rw [hvalue]
    | negSucc n =>
      have hmem : '-' ∈ (Int.negSucc n).repr.toList := by simp [Int.repr]
      rw [← hlist] at hmem
      exact absurd hmem (minus_notMem_repr m)
  | negSucc m =>
    cases n with
    | ofNat n =>
      have hmem : '-' ∈ (Int.negSucc m).repr.toList := by simp [Int.repr]
      rw [hlist] at hmem
      exact absurd hmem (minus_notMem_repr n)
    | negSucc n =>
      simp only [Int.repr, String.toList_append, List.append_cancel_left_eq] at hlist
      have hvalue := congrArg (fun cs => Nat.ofDigitChars 10 cs 0) hlist
      simp only [digits_repr, Nat.succ_eq_add_one, Nat.add_right_cancel_iff] at hvalue
      rw [hvalue]

lemma subActionName_inj {label label' : Option ℤ}
    (h : SwitchedAction.subActionName name label = SwitchedAction.subActionName name label') :
    label = label' := by
  have hlist := congrArg String.toList h
  cases label with
  | none =>
    cases label' with
    | none => rfl
    | some n' => simp [SwitchedAction.subActionName] at hlist
  | some n =>
    cases label' with
    | none => simp [SwitchedAction.subActionName] at hlist
    | some n' =>
      simp only [SwitchedAction.subActionName, String.toList_append, List.append_cancel_left_eq,
        List.append_cancel_right_eq] at hlist
      rw [repr_inj (String.toList_inj.mp hlist)]

variable (digits : DecimalDigits)

lemma DecimalDigits.value_of_isDigit {c : Char} (h : c.isDigit = true) :
    digits.value c = some (c.toNat - '0'.toNat) := by
  have hascii : c.toNat < 128 := by
    have hrange : '0'.toNat ≤ c.toNat ∧ c.toNat ≤ '9'.toNat := Char.isDigit_iff_toNat.mp h
    exact lt_of_le_of_lt hrange.2 (by decide)
  rw [digits.value_ascii c hascii, if_pos h]

/-- A digit string of Lean denotes the same number for `int`. -/
lemma DecimalDigits.toNat_of_isDigit {cs : List Char} (h : ∀ c ∈ cs, c.isDigit = true) :
    digits.toNat cs = Nat.ofDigitChars 10 cs 0 := by
  rw [Nat.ofDigitChars_eq_foldl]
  unfold DecimalDigits.toNat
  apply List.foldl_ext
  intro n c hc
  rw [digits.value_of_isDigit (h c hc)]
  rfl

lemma matchSwitchedAction_bracket (hname : PlainName name) (cs : List Char) :
    matchSwitchedAction digits (name ++ String.ofList ('[' :: cs)) =
      match afterText "[switch:" ('[' :: cs) with
      | some cs =>
        if cs.takeWhile digits.isDigit ≠ [] ∧ endsBracket (cs.dropWhile digits.isDigit) then
          some (name, .switch (digits.toNat (cs.takeWhile digits.isDigit)))
        else none
      | none =>
        match afterText "[DEFAULT" ('[' :: cs) with
        | some cs => if endsBracket cs then some (name, .defaultAction) else none
        | none => none := by
  have hne : name.toList ≠ [] := by
    intro h
    exact hname.1 (String.toList_eq_nil_iff.mp h)
  unfold matchSwitchedAction
  simp only [String.toList_append, String.toList_ofList, takeWhile_name hname.2, dropWhile_name hname.2,
    if_neg hne, String.ofList_toList]

theorem matchSwitchedAction_default (hname : PlainName name) :
    matchSwitchedAction digits (SwitchedAction.subActionName name none) = some (name, .defaultAction) := by
  exact matchSwitchedAction_bracket digits hname "DEFAULT]".toList

theorem matchSwitchedAction_switch (hname : PlainName name) (n : ℕ) :
    matchSwitchedAction digits (SwitchedAction.subActionName name (some n)) = some (name, .switch n) := by
  have hdigits : ∀ c ∈ Nat.toDigits 10 n, c.isDigit = true := by
    intro c hc
    exact Nat.isDigit_of_mem_toDigits (by norm_num) (le_refl 10) hc
  have hisDigit : ∀ c ∈ Nat.toDigits 10 n, digits.isDigit c = true := by
    intro c hc
    unfold DecimalDigits.isDigit
    rw [digits.value_of_isDigit (hdigits c hc)]
    rfl
  have hend : ¬digits.isDigit ']' = true := by
    unfold DecimalDigits.isDigit
    rw [digits.value_ascii ']' (by decide)]
    exact Bool.false_ne_true
  have hlabel : SwitchedAction.subActionName name (some n) =
      name ++ String.ofList ('[' :: ("switch:".toList ++ (Nat.toDigits 10 n ++ [']']))) := by
    rw [← String.toList_inj]
    simp [SwitchedAction.subActionName, Int.repr]
  have hafter : afterText "[switch:" ('[' :: ("switch:".toList ++ (Nat.toDigits 10 n ++ [']']))) =
      some (Nat.toDigits 10 n ++ [']']) := afterText_append "[switch:" _
  rw [hlabel, matchSwitchedAction_bracket digits hname, hafter]
  simp only [List.takeWhile_append_of_pos hisDigit, List.dropWhile_append_of_pos hisDigit,
    List.takeWhile_cons_of_neg hend, List.dropWhile_cons_of_neg hend, List.append_nil]
  rw [if_pos ⟨Nat.toDigits_ne_nil, rfl⟩, digits.toNat_of_isDigit hdigits, Nat.ofDigitChars_ten_toDigits]

/-- The pattern has no minus sign. -/
theorem matchSwitchedAction_negative (hname : PlainName name) {n : ℤ} (hn : n < 0) :
    matchSwitchedAction digits (SwitchedAction.subActionName name (some n)) = none := by
  obtain ⟨k, rfl⟩ := Int.eq_negSucc_of_lt_zero hn
  have hsign : ¬digits.isDigit '-' = true := by
    unfold DecimalDigits.isDigit
    rw [digits.value_ascii '-' (by decide)]
    exact Bool.false_ne_true
  have hlabel : SwitchedAction.subActionName name (some (Int.negSucc k)) =
      name ++ String.ofList ('[' :: ("switch:".toList ++ ('-' :: (Nat.toDigits 10 (k + 1) ++ [']'])))) := by
    rw [← String.toList_inj]
    simp [SwitchedAction.subActionName, Int.repr]
  have hafter : afterText "[switch:" ('[' :: ("switch:".toList ++ ('-' :: (Nat.toDigits 10 (k + 1) ++ [']'])))) =
      some ('-' :: (Nat.toDigits 10 (k + 1) ++ [']'])) := afterText_append "[switch:" _
  rw [hlabel, matchSwitchedAction_bracket digits hname, hafter]
  simp only [List.takeWhile_cons_of_neg hsign]
  rw [if_neg (by simp)]

end names
end PySOA
