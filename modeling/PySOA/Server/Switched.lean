import Mathlib.Data.List.TakeWhile
import PySOA.Server.Server

/-! Switched actions: actions that stand for other actions, one of which is chosen by the switches
of the request. -/
namespace PySOA

/-- A switch: an integer, or an object over one. An object has a truth value of its own, and it is
equal to its integer or it is not; no object is equal to `DEFAULT_ACTION`. -/
structure Switch where
  value : ℤ
  truthy : Bool := true
  equalsInt : Bool := false
  deriving DecidableEq, Repr

/-- `get_switch`. -/
abbrev Switch.getSwitch (switch : Switch) : ℤ := switch.value

/-- An integer as a switch. -/
def Switch.int (n : ℤ) : Switch := { value := n, truthy := n != 0, equalsInt := true }

/-- `RequestSwitchSet.is_active`. -/
def Switch.isActive (switches : List ℤ) (switch : Switch) : Bool := switches.contains switch.getSwitch

/-- What stands for a switch in a `switch_to_action_map`. -/
inductive SwitchKey
  | defaultAction
  | switch (switch : Switch)
  deriving DecidableEq, Repr

namespace SwitchKey

/-- `key == SwitchedAction.DEFAULT_ACTION`. -/
def isDefault : SwitchKey → Bool
  | defaultAction => true
  | switch _ => false

/-- The key is a switch with the property. -/
def counts (p : Switch → Bool) : SwitchKey → Bool
  | defaultAction => false
  | switch s => p s

/-- The truth value of the key. -/
def truthy : SwitchKey → Bool
  | defaultAction => true
  | switch s => s.truthy

end SwitchKey

/-- A switched action that its metaclass accepts. -/
structure SwitchedAction (α : Type) where
  switchToActionMap : List (SwitchKey × α)
  two_le_length : 2 ≤ switchToActionMap.length

namespace SwitchedAction
variable {α : Type}

/-- The three variables of `get_uninitialized_action`. -/
@[ext] structure Found (α : Type) where
  matchedAction : Option α := none
  defaultAction : Option α := none
  lastAction : Option α := none

/-- The loop of `get_uninitialized_action`, which stops at a match. -/
def search (switches : List ℤ) : List (SwitchKey × α) → Found α → Found α
  | [], found => found
  | (.defaultAction, action) :: entries, found =>
    search switches entries { found with defaultAction := some action }
  | (.switch switch, action) :: entries, found =>
    if switch.truthy && switch.isActive switches then { found with matchedAction := some action }
    else search switches entries { found with lastAction := some action }

/-- The first of the three actions that is there and true. -/
def Found.action (truthy : α → Bool) (found : Found α) : Option α :=
  (found.matchedAction.filter truthy).or
    ((found.defaultAction.filter truthy).or (found.lastAction.filter truthy))

/-- `get_uninitialized_action`; `truthy` is the truth value of an action. -/
def getUninitializedAction (truthy : α → Bool) (action : SwitchedAction α)
    (actionRequest : EnrichedActionRequest) : Except Exc α :=
  match (search actionRequest.switches action.switchToActionMap {}).action truthy with
  | some action => .ok action
  | none => .error (.typeError "Metaclass validation makes this error impossible")

section entries
variable (p : Switch → Bool) (entries : List (SwitchKey × α))

/-- The first entry whose switch has the property. -/
def firstEntry : Option (SwitchKey × α) := entries.find? fun entry => entry.1.counts p

/-- The action of the `DEFAULT_ACTION` entry, the last one if there are several. -/
def defaultEntry : Option α := (entries.filter fun entry => entry.1.isDefault).getLast?.map Prod.snd

/-- The action of the last entry with a switch. -/
def lastSwitchEntry : Option α := (entries.filter fun entry => !entry.1.isDefault).getLast?.map Prod.snd

/-- The entries before the first one whose switch has the property. -/
def before : List (SwitchKey × α) := entries.takeWhile fun entry => !entry.1.counts p

/-- What a search for a switch with the property finds. -/
def found : Found α where
  matchedAction := (firstEntry p entries).map Prod.snd
  defaultAction := defaultEntry (before p entries)
  lastAction := lastSwitchEntry (before p entries)

end entries

lemma ne_nil (action : SwitchedAction α) : action.switchToActionMap ≠ [] := by
  intro h
  have hlength := action.two_le_length
  rw [h] at hlength
  cases hlength

/-- The action to dispatch to: that of the first active switch, else that of `DEFAULT_ACTION`, else
that of the last entry. -/
def dispatched (action : SwitchedAction α) (switches : List ℤ) : α :=
  match firstEntry (Switch.isActive switches) action.switchToActionMap with
  | some entry => entry.2
  | none => (defaultEntry action.switchToActionMap).getD (action.switchToActionMap.getLast action.ne_nil).2

/-- The switches that the search matches. -/
def isMatched (switches : List ℤ) (switch : Switch) : Bool := switch.truthy && switch.isActive switches

section search
variable (switches : List ℤ) (entries : List (SwitchKey × α))

lemma getLast?_cons_map (entry : SwitchKey × α) (rest : List (SwitchKey × α)) (last : Option α) :
    ((entry :: rest).getLast?.map Prod.snd).or last =
      (rest.getLast?.map Prod.snd).or (some entry.2) := by
  cases rest with
  | nil => rfl
  | cons next rest =>
    rw [List.getLast?_cons_cons]
    obtain ⟨entry', hentry'⟩ := Option.isSome_iff_exists.mp (List.getLast?_isSome.mpr (List.cons_ne_nil next rest))
    rw [hentry']
    rfl

lemma defaultEntry_cons (action : α) (rest : List (SwitchKey × α)) (last : Option α) :
    (defaultEntry ((.defaultAction, action) :: rest)).or last = (defaultEntry rest).or (some action) :=
  getLast?_cons_map (.defaultAction, action) (rest.filter fun entry => entry.1.isDefault) last

lemma lastSwitchEntry_cons (switch : Switch) (action : α) (rest : List (SwitchKey × α)) (last : Option α) :
    (lastSwitchEntry ((.switch switch, action) :: rest)).or last = (lastSwitchEntry rest).or (some action) :=
  getLast?_cons_map (.switch switch, action) (rest.filter fun entry => !entry.1.isDefault) last

/-- The search, from what has been found so far. -/
lemma search_eq (start : Found α) :
    search switches entries start = {
      matchedAction := (found (isMatched switches) entries).matchedAction.or start.matchedAction
      defaultAction := (found (isMatched switches) entries).defaultAction.or start.defaultAction
      lastAction := (found (isMatched switches) entries).lastAction.or start.lastAction } := by
  induction entries generalizing start with
  | nil => rfl
  | cons entry entries ih =>
    obtain ⟨key, action⟩ := entry
    cases key with
    | defaultAction =>
      rw [search, ih]
      ext1
      · rfl
      · exact (defaultEntry_cons action (before (isMatched switches) entries) start.defaultAction).symm
      · rfl
    | switch switch =>
      rw [search]
      by_cases h : isMatched switches switch
      · have h' : (switch.truthy && switch.isActive switches) = true := h
        rw [if_pos h']
        simp [found, firstEntry, before, defaultEntry, lastSwitchEntry, SwitchKey.counts, h]
      · have h' : ¬(switch.truthy && switch.isActive switches) = true := h
        rw [if_neg h', ih]
        ext1
        · simp [found, firstEntry, SwitchKey.counts, h]
        · simp [found, before, defaultEntry, SwitchKey.counts, SwitchKey.isDefault, h]
        · have hcons : before (isMatched switches) ((.switch switch, action) :: entries) =
              (.switch switch, action) :: before (isMatched switches) entries := by
            simp [before, SwitchKey.counts, h]
          change _ = (lastSwitchEntry (before _ _)).or _
          rw [hcons]
          exact (lastSwitchEntry_cons switch action _ _).symm

end search

/-- What `get_uninitialized_action` returns. -/
theorem getUninitializedAction_eq (truthy : α → Bool) (action : SwitchedAction α)
    (actionRequest : EnrichedActionRequest) :
    action.getUninitializedAction truthy actionRequest =
      match (found (isMatched actionRequest.switches) action.switchToActionMap).action truthy with
      | some action => .ok action
      | none => .error (.typeError "Metaclass validation makes this error impossible") := by
  unfold getUninitializedAction
  rw [search_eq]
  simp

section dispatch
variable (truthy : α → Bool) (action : SwitchedAction α) (switches : List ℤ)

lemma Found.truthy_of_action {found : Found α} {chosen : α} (h : found.action truthy = some chosen) :
    truthy chosen = true := by
  unfold Found.action at h
  obtain h | ⟨-, h⟩ := Option.or_eq_some_iff.mp h
  · exact (Option.filter_eq_some_iff.mp h).2
  · obtain h | ⟨-, h⟩ := Option.or_eq_some_iff.mp h
    · exact (Option.filter_eq_some_iff.mp h).2
    · exact (Option.filter_eq_some_iff.mp h).2

lemma Found.action_of_matched {found : Found α} {chosen : α} (h : found.matchedAction = some chosen)
    (htruthy : truthy chosen = true) : found.action truthy = some chosen := by
  unfold Found.action
  rw [h, Option.filter_some, if_pos htruthy, Option.some_or]

/-- An active switch that is true is the first that the search matches, if it is the first active
one. -/
lemma firstEntry_isMatched {entries : List (SwitchKey × α)} {entry : SwitchKey × α}
    (hentry : firstEntry (Switch.isActive switches) entries = some entry)
    (htruthy : entry.1.truthy = true) : firstEntry (isMatched switches) entries = some entry := by
  induction entries with
  | nil => cases hentry
  | cons next entries ih =>
    unfold firstEntry at hentry ih ⊢
    rw [List.find?_cons] at hentry ⊢
    obtain ⟨key, next⟩ := next
    cases key with
    | defaultAction => exact ih hentry
    | switch switch =>
      by_cases hactive : switch.isActive switches = true
      · simp only [SwitchKey.counts, hactive, Option.some.injEq] at hentry
        subst hentry
        have hmatched : isMatched switches switch = true := by
          unfold isMatched
          rw [hactive, Bool.and_true]
          exact htruthy
        simp only [SwitchKey.counts, hmatched]
      · rw [Bool.not_eq_true] at hactive
        have hmatched : isMatched switches switch = false := by
          unfold isMatched
          rw [hactive, Bool.and_false]
        simp only [SwitchKey.counts, hactive] at hentry
        simp only [SwitchKey.counts, hmatched]
        exact ih hentry

lemma counts_isMatched {key : SwitchKey} (h : key.counts (Switch.isActive switches) = false) :
    key.counts (isMatched switches) = false := by
  cases key with
  | defaultAction => rfl
  | switch switch =>
    change (switch.truthy && switch.isActive switches) = false
    change switch.isActive switches = false at h
    rw [h, Bool.and_false]

/-- If no switch is matched, all entries are before a match. -/
lemma found_of_forall {p : Switch → Bool} {entries : List (SwitchKey × α)}
    (h : ∀ entry ∈ entries, entry.1.counts p = false) :
    found p entries = { defaultAction := defaultEntry entries, lastAction := lastSwitchEntry entries } := by
  have hbefore : before p entries = entries := by
    apply List.takeWhile_eq_self_iff.mpr
    intro entry hentry
    rw [h entry hentry]
    rfl
  have hfirst : firstEntry p entries = none := by
    apply List.find?_eq_none.mpr
    intro entry hentry
    rw [h entry hentry]
    exact Bool.false_ne_true
  unfold found
  rw [hfirst, hbefore]
  rfl

/-- The action that is chosen where no switch is matched. -/
def standIn (entries : List (SwitchKey × α)) : Option α :=
  ((defaultEntry entries).filter truthy).or ((lastSwitchEntry entries).filter truthy)

lemma action_of_forall {p : Switch → Bool} {entries : List (SwitchKey × α)}
    (h : ∀ entry ∈ entries, entry.1.counts p = false) :
    (found p entries).action truthy = standIn truthy entries := by
  rw [found_of_forall h]
  rfl

lemma found_split {pre rest : List (SwitchKey × α)} {p : Switch → Bool} {entry : SwitchKey × α}
    (hpre : ∀ entry ∈ pre, entry.1.counts p = false) (hentry : entry.1.counts p = true) :
    found p (pre ++ entry :: rest) =
      { matchedAction := some entry.2
        defaultAction := defaultEntry pre
        lastAction := lastSwitchEntry pre } := by
  have hnone : pre.find? (fun entry => entry.1.counts p) = none := by
    apply List.find?_eq_none.mpr
    intro entry hentry
    rw [hpre entry hentry]
    exact Bool.false_ne_true
  have hfirst : firstEntry p (pre ++ entry :: rest) = some entry := by
    unfold firstEntry
    rw [List.find?_append, hnone, Option.none_or, List.find?_cons, hentry]
  have hbefore : before p (pre ++ entry :: rest) = pre := by
    unfold before
    rw [List.takeWhile_append_of_pos (by simpa using hpre), List.takeWhile_cons_of_neg (by simpa using hentry),
      List.append_nil]
  unfold found
  rw [hfirst, hbefore]
  rfl

/-- The action stands in for a match behind the entries: it is their default action, or, if they have none or
that is false, it is the action of the last of them with a switch; and it is true. -/
def StandsIn (entries : List (SwitchKey × α)) (chosen : α) : Prop :=
  truthy chosen = true ∧ (defaultEntry entries = some chosen ∨
    (∀ default, defaultEntry entries = some default → truthy default = false) ∧
      lastSwitchEntry entries = some chosen)

/-- The entries lead to the action: the first entry whose switch has the property has it, and it is true; or,
if the action of that entry is false or there is no such entry, it stands in behind the entries in front. -/
def LeadsTo (p : Switch → Bool) (entries : List (SwitchKey × α)) (chosen : α) : Prop :=
  (∃ pre entry rest, entries = pre ++ entry :: rest ∧ (∀ entry ∈ pre, entry.1.counts p = false) ∧
    entry.1.counts p = true ∧ (entry.2 = chosen ∧ truthy chosen = true ∨
      truthy entry.2 = false ∧ StandsIn truthy pre chosen)) ∨
  (∀ entry ∈ entries, entry.1.counts p = false) ∧ StandsIn truthy entries chosen

lemma standIn_eq_some_iff {entries : List (SwitchKey × α)} {chosen : α} :
    standIn truthy entries = some chosen ↔ StandsIn truthy entries chosen := by
  unfold standIn StandsIn
  cases hdefault : defaultEntry entries with
  | none =>
    rw [Option.filter_none, Option.none_or, Option.filter_eq_some_iff]
    simp [and_comm]
  | some default =>
    by_cases htruthy : truthy default = true
    · rw [Option.filter_some, if_pos htruthy, Option.some_or]
      constructor
      · rintro ⟨⟩
        exact ⟨htruthy, .inl rfl⟩
      · rintro ⟨-, h | ⟨h, -⟩⟩
        · exact h
        · exact absurd (h default rfl) (by simp [htruthy])
    · rw [Option.filter_some, if_neg htruthy, Option.none_or, Option.filter_eq_some_iff]
      rw [Bool.not_eq_true] at htruthy
      constructor
      · intro ⟨hlast, hchosen⟩
        refine ⟨hchosen, .inr ⟨?_, hlast⟩⟩
        rintro default' ⟨⟩
        exact htruthy
      · rintro ⟨hchosen, h | ⟨-, hlast⟩⟩
        · cases h
          exact absurd hchosen (by simp [htruthy])
        · exact ⟨hlast, hchosen⟩

/-- What is chosen after a search that finds a switch. -/
lemma action_found_split {pre rest : List (SwitchKey × α)} {p : Switch → Bool} {entry : SwitchKey × α}
    (hpre : ∀ entry ∈ pre, entry.1.counts p = false) (hentry : entry.1.counts p = true) :
    (found p (pre ++ entry :: rest)).action truthy =
      if truthy entry.2 then some entry.2 else standIn truthy pre := by
  rw [found_split hpre hentry]
  unfold Found.action standIn
  dsimp only
  split_ifs with htruthy
  · rw [Option.filter_some, if_pos htruthy, Option.some_or]
  · rw [Option.filter_some, if_neg htruthy, Option.none_or]

/-- What is chosen after a search is what the entries lead to. -/
theorem action_found_eq_some_iff {p : Switch → Bool} {entries : List (SwitchKey × α)} {chosen : α} :
    (found p entries).action truthy = some chosen ↔ LeadsTo truthy p entries chosen := by
  constructor
  · intro h
    cases hfirst : entries.find? (fun entry => entry.1.counts p) with
    | none =>
      have hnone : ∀ entry ∈ entries, entry.1.counts p = false := by
        simpa using List.find?_eq_none.mp hfirst
      rw [action_of_forall truthy hnone] at h
      exact .inr ⟨hnone, (standIn_eq_some_iff truthy).mp h⟩
    | some entry =>
      obtain ⟨hentry, pre, rest, rfl, hothers⟩ := List.find?_eq_some_iff_append.mp hfirst
      have hpre : ∀ entry ∈ pre, entry.1.counts p = false := by simpa using hothers
      rw [action_found_split truthy hpre hentry] at h
      refine .inl ⟨pre, entry, rest, rfl, hpre, hentry, ?_⟩
      split_ifs at h with htruthy
      · cases h
        exact .inl ⟨rfl, htruthy⟩
      · exact .inr ⟨by simpa using htruthy, (standIn_eq_some_iff truthy).mp h⟩
  · rintro (⟨pre, entry, rest, rfl, hpre, hentry, ⟨rfl, htruthy⟩ | ⟨hfalse, h⟩⟩ | ⟨hnone, h⟩)
    · rw [action_found_split truthy hpre hentry, if_pos htruthy]
    · rw [action_found_split truthy hpre hentry, if_neg (by simp [hfalse])]
      exact (standIn_eq_some_iff truthy).mpr h
    · rw [action_of_forall truthy hnone]
      exact (standIn_eq_some_iff truthy).mpr h

/-- Without `DEFAULT_ACTION`, the last entry with a switch is the last entry. -/
lemma lastSwitchEntry_of_default {entries : List (SwitchKey × α)} (h : defaultEntry entries = none) :
    lastSwitchEntry entries = entries.getLast?.map Prod.snd := by
  have hnil : entries.filter (fun entry => entry.1.isDefault) = [] := by
    apply List.getLast?_eq_none_iff.mp
    exact Option.map_eq_none_iff.mp h
  have hself : entries.filter (fun entry => !entry.1.isDefault) = entries := by
    apply List.filter_eq_self.mpr
    intro entry hentry
    have hfalse := List.filter_eq_nil_iff.mp hnil entry hentry
    rw [Bool.not_eq_true] at hfalse
    rw [hfalse]
    rfl
  unfold lastSwitchEntry
  rw [hself]

/-- With no active switch the search finds the action to dispatch to, if that is true. -/
lemma action_found_of_none (htruthy : truthy (action.dispatched switches) = true)
    (hnone : firstEntry (Switch.isActive switches) action.switchToActionMap = none) :
    (found (isMatched switches) action.switchToActionMap).action truthy =
      some (action.dispatched switches) := by
  have hcounts : ∀ entry ∈ action.switchToActionMap, entry.1.counts (isMatched switches) = false := by
    intro entry hentry
    apply counts_isMatched
    have h := List.find?_eq_none.mp hnone entry hentry
    rwa [Bool.not_eq_true] at h
  rw [found_of_forall hcounts]
  unfold dispatched at htruthy ⊢
  rw [hnone] at htruthy ⊢
  dsimp only at htruthy ⊢
  unfold Found.action
  cases hdefault : defaultEntry action.switchToActionMap with
  | some chosen =>
    rw [hdefault, Option.getD_some] at htruthy
    simp [htruthy]
  | none =>
    rw [hdefault, Option.getD_none] at htruthy
    rw [lastSwitchEntry_of_default hdefault, List.getLast?_eq_some_getLast action.ne_nil]
    simp [htruthy]

/-- **Dispatch of a switched action.** It is to the action of the first active switch, else of
`DEFAULT_ACTION`, else of the last entry, exactly if that action is true and the first active switch is
true as well, or the entries lead to the same action without it. -/
theorem getUninitializedAction_eq_iff (actionRequest : EnrichedActionRequest) :
    action.getUninitializedAction truthy actionRequest = .ok (action.dispatched actionRequest.switches) ↔
      truthy (action.dispatched actionRequest.switches) = true ∧
      ∀ entry, firstEntry (Switch.isActive actionRequest.switches) action.switchToActionMap = some entry →
        entry.1.truthy = true ∨
        LeadsTo truthy (isMatched actionRequest.switches) action.switchToActionMap entry.2 := by
  set switches := actionRequest.switches with hswitches
  have hok : action.getUninitializedAction truthy actionRequest = .ok (action.dispatched switches) ↔
      (found (isMatched switches) action.switchToActionMap).action truthy =
        some (action.dispatched switches) := by
    rw [getUninitializedAction_eq, ← hswitches]
    cases (found (isMatched switches) action.switchToActionMap).action truthy with
    | none => simp
    | some chosen => simp
  rw [hok]
  constructor
  · intro h
    refine ⟨Found.truthy_of_action truthy h, ?_⟩
    intro entry hentry
    right
    rw [← action_found_eq_some_iff, h]
    unfold dispatched
    rw [hentry]
  · intro ⟨htruthy, h⟩
    cases hfirst : firstEntry (Switch.isActive switches) action.switchToActionMap with
    | none => exact action_found_of_none truthy action switches htruthy hfirst
    | some entry =>
      have hdispatched : action.dispatched switches = entry.2 := by
        unfold dispatched
        rw [hfirst]
      rw [hdispatched] at htruthy ⊢
      obtain hkey | hfound := h entry hfirst
      · apply Found.action_of_matched truthy _ htruthy
        change (firstEntry _ _).map Prod.snd = _
        rw [firstEntry_isMatched switches hfirst hkey]
        rfl
      · exact (action_found_eq_some_iff truthy).mpr hfound

end dispatch

/-- The action for the switch 0 and the default action. -/
def zeroSwitched : SwitchedAction String where
  switchToActionMap := [(.switch (.int 0), "Zero"), (.defaultAction, "Default")]
  two_le_length := le_refl 2

/-- The switch 0 is active, but it is false, and the search passes over it. -/
theorem getUninitializedAction_zero :
    let actionRequest : EnrichedActionRequest := {
      action := .text "run", switches := [0], context := [], control := [], client := [] }
    zeroSwitched.dispatched actionRequest.switches = "Zero" ∧
      zeroSwitched.getUninitializedAction (fun _ => true) actionRequest = .ok "Default" := by
  exact ⟨by decide, rfl⟩

end SwitchedAction
end PySOA
