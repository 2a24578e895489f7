import PySOA.Server.Introspection

/-! Introspection of a switched action: what is listed for all actions, what is returned for a name from
that list, and what dispatch comes to. -/
namespace PySOA
namespace SwitchKey

/-- The number of the switch. -/
def number : SwitchKey → Option ℤ
  | defaultAction => none
  | switch s => some s.getSwitch

end SwitchKey

namespace SwitchedAction
variable {α : Type}

/-- No switch occurs twice. -/
def Distinct (action : SwitchedAction α) : Prop :=
  (action.switchToActionMap.map fun entry => entry.1.number).Nodup

section iterate
variable (foundDefault : Bool) (entries : List (SwitchKey × α))

/-- The label of an entry behind others. -/
def labelBehind (pre : List (SwitchKey × α)) (entry : SwitchKey × α) (rest : List (SwitchKey × α)) : Option ℤ :=
  label (pre.any fun entry => entry.1.isDefault) rest.isEmpty entry.1

lemma mem_iterate {entries} {listed : Option ℤ × α} :
    listed ∈ iterate foundDefault entries ↔
      ∃ pre entry rest, entries = pre ++ entry :: rest ∧
        listed = (label (foundDefault || pre.any fun entry => entry.1.isDefault) rest.isEmpty entry.1, entry.2) := by
  induction entries generalizing foundDefault with
  | nil => simp [iterate]
  | cons head entries ih =>
    rw [iterate, List.mem_cons]
    constructor
    · intro h
      obtain rfl | h := h
      · exact ⟨[], head, entries, rfl, by simp⟩
      · obtain ⟨pre, entry, rest, rfl, rfl⟩ := (ih _).mp h
        exact ⟨head :: pre, entry, rest, rfl, by rw [List.any_cons, Bool.or_assoc]⟩
    · intro ⟨pre, entry, rest, hsplit, hlisted⟩
      cases pre with
      | nil =>
        obtain ⟨rfl, rfl⟩ := List.cons.inj hsplit
        left
        simpa using hlisted
      | cons _ pre =>
        obtain ⟨rfl, rfl⟩ := List.cons.inj hsplit
        right
        apply (ih _).mpr
        exact ⟨pre, entry, rest, rfl, by rw [hlisted, List.any_cons, Bool.or_assoc]⟩

lemma labels_true : (iterate true entries).map Prod.fst = entries.map fun entry => entry.1.number := by
  induction entries with
  | nil => rfl
  | cons head entries ih =>
    rw [iterate, List.map_cons, List.map_cons, Bool.true_or, ih]
    obtain ⟨key, _⟩ := head
    cases key with
    | defaultAction => rfl
    | switch switch => rfl

lemma mem_labels {entries : List (SwitchKey × α)} {l : Option ℤ}
    (h : l ∈ (iterate foundDefault entries).map Prod.fst) :
    l = none ∨ l ∈ entries.map fun entry => entry.1.number := by
  obtain ⟨listed, hlisted, rfl⟩ := List.mem_map.mp h
  obtain ⟨pre, ⟨key, action⟩, rest, rfl, rfl⟩ := (mem_iterate foundDefault).mp hlisted
  cases key with
  | defaultAction => exact Or.inl rfl
  | switch switch =>
    dsimp only [label]
    split_ifs
    · exact Or.inl rfl
    · right
      apply List.mem_map.mpr
      exact ⟨(.switch switch, action), by simp, rfl⟩

/-- Entries for distinct switches are listed under distinct labels. -/
theorem nodup_labels {entries : List (SwitchKey × α)}
    (h : (entries.map fun entry => entry.1.number).Nodup) : ((iterate false entries).map Prod.fst).Nodup := by
  induction entries with
  | nil => exact List.nodup_nil
  | cons head entries ih =>
    rw [List.map_cons, List.nodup_cons] at h
    obtain ⟨key, action⟩ := head
    rw [iterate, List.map_cons, List.nodup_cons]
    cases key with
    | defaultAction =>
      change none ∉ (iterate true entries).map Prod.fst ∧ ((iterate true entries).map Prod.fst).Nodup
      rw [labels_true]
      exact h
    | switch switch =>
      refine ⟨?_, ih h.2⟩
      cases entries with
      | nil => exact List.not_mem_nil
      | cons next entries =>
        intro hmem
        obtain hnone | hmem := mem_labels _ hmem
        · cases hnone
        · exact h.1 hmem

end iterate

section dispatch
variable (truthy : α → Bool) {pre rest : List (SwitchKey × α)} {switch : Switch} {chosen : α}

/-- No other entry is for the same switch. -/
lemma number_ne_of_distinct {action : SwitchedAction α} (haction : action.Distinct)
    (hsplit : action.switchToActionMap = pre ++ (.switch switch, chosen) :: rest) :
    ∀ entry ∈ pre ++ rest, entry.1.number ≠ some switch.getSwitch := by
  unfold Distinct at haction
  rw [hsplit, List.map_append, List.map_cons] at haction
  have hnotMem := (List.nodup_cons.mp (List.perm_middle.nodup_iff.mp haction)).1
  intro entry hentry heq
  apply hnotMem
  change some switch.getSwitch ∈ _
  rw [← List.map_append, ← heq]
  exact List.mem_map.mpr ⟨entry, hentry, rfl⟩

lemma isMatched_singleton {n : ℤ} {key : SwitchKey} (h : key.number ≠ some n) :
    key.counts (isMatched [n]) = false := by
  cases key with
  | defaultAction => rfl
  | switch s =>
    have hne : s.value ≠ n := by
      intro heq
      exact h (congrArg some heq)
    simp [SwitchKey.counts, isMatched, Switch.isActive, hne]

/-- What is chosen for a request with exactly the switch of an entry. -/
theorem action_active {action : SwitchedAction α} (haction : action.Distinct)
    (hsplit : action.switchToActionMap = pre ++ (.switch switch, chosen) :: rest) :
    (found (isMatched [switch.getSwitch]) action.switchToActionMap).action truthy =
      if switch.truthy then (if truthy chosen then some chosen else standIn truthy pre)
      else standIn truthy action.switchToActionMap := by
  have hothers : ∀ entry ∈ pre ++ rest, entry.1.counts (isMatched [switch.getSwitch]) = false := by
    intro entry hentry
    exact isMatched_singleton (number_ne_of_distinct haction hsplit entry hentry)
  by_cases hswitch : switch.truthy = true
  · rw [if_pos hswitch, hsplit, action_found_split]
    · intro entry hentry
      exact hothers entry (List.mem_append_left _ hentry)
    · simp [SwitchKey.counts, isMatched, Switch.isActive, hswitch]
  · rw [if_neg hswitch]
    apply action_of_forall
    intro entry hentry
    rw [hsplit, List.mem_append, List.mem_cons] at hentry
    obtain hentry | rfl | hentry := hentry
    · exact hothers entry (List.mem_append_left _ hentry)
    · simp [SwitchKey.counts, isMatched, hswitch]
    · exact hothers entry (List.mem_append_right _ hentry)

lemma action_inactive (entries : List (SwitchKey × α)) :
    (found (isMatched []) entries).action truthy = standIn truthy entries := by
  apply action_of_forall
  intro entry _
  cases entry.1 with
  | defaultAction => rfl
  | switch s => simp [SwitchKey.counts, isMatched, Switch.isActive]

/-- The class that a query for the switch of an entry finds. -/
theorem classFor_split {action : SwitchedAction α} (haction : action.Distinct)
    (hsplit : action.switchToActionMap = pre ++ (.switch switch, chosen) :: rest) {n : ℕ}
    (hn : switch.getSwitch = n) :
    action.classFor n =
      if switch.equalsInt then chosen else (action.switchToActionMap.getLast action.ne_nil).2 := by
  have hothers : ∀ entry ∈ pre ++ rest, ¬equalsInt n entry.1 = true := by
    intro entry hentry heq
    apply number_ne_of_distinct haction hsplit entry hentry
    rw [hn]
    obtain ⟨key, _⟩ := entry
    cases key with
    | defaultAction => cases heq
    | switch s =>
      simp only [equalsInt, Bool.and_eq_true, beq_iff_eq] at heq
      exact congrArg some heq.2
  have hfind : action.switchToActionMap.find? (fun entry => equalsInt n entry.1) =
      if switch.equalsInt then some (.switch switch, chosen) else none := by
    rw [hsplit, List.find?_append, List.find?_eq_none.mpr, Option.none_or, List.find?_cons]
    · have hself : equalsInt n (.switch switch) = switch.equalsInt := by
        simp [equalsInt, hn]
      rw [hself]
      cases switch.equalsInt with
      | true => rfl
      | false =>
        apply List.find?_eq_none.mpr
        intro entry hentry
        exact hothers entry (List.mem_append_right _ hentry)
    · intro entry hentry
      exact hothers entry (List.mem_append_left _ hentry)
  unfold classFor
  rw [hfind]
  by_cases hequals : switch.equalsInt = true
  · rw [if_pos hequals, if_pos hequals]
  · rw [if_neg hequals, if_neg hequals]

end dispatch
end SwitchedAction

/-- What can be introspected: plain names, and switched actions without a switch that occurs twice. -/
structure IntrospectedServer.WellFormed (server : IntrospectedServer) : Prop where
  plainName : ∀ entry ∈ server.actionClassMap, PlainName entry.1
  distinct : ∀ actionName action, (actionName, ServerAction.switched action) ∈ server.actionClassMap →
    action.Distinct

namespace IntrospectedServer
open SwitchedAction
variable {server : IntrospectedServer}

lemma plainName_introspect : PlainName "introspect" := ⟨by decide, List.all_eq_true.mp (by decide)⟩
lemma plainName_status : PlainName "status" := ⟨by decide, List.all_eq_true.mp (by decide)⟩

lemma mem_allActions {entry : String × ServerAction} (h : entry ∈ server.allActions) :
    entry = ("introspect", .action server.introspectionAction) ∨
      entry = ("status", .action server.baseStatusAction) ∨ entry ∈ server.actionClassMap := by
  unfold allActions at h
  rw [List.mem_append, List.mem_append] at h
  obtain (h | h) | h := h
  · split_ifs at h
    · cases h
    · exact Or.inl (List.mem_singleton.mp h)
  · split_ifs at h
    · cases h
    · exact Or.inr (Or.inl (List.mem_singleton.mp h))
  · exact Or.inr (Or.inr h)

lemma nodup_allActions (server : IntrospectedServer) : (server.allActions.map Prod.fst).Nodup := by
  have hnodup := server.nodup
  unfold allActions
  split_ifs with hintrospect hstatus hstatus
  · exact hnodup
  · simpa using ⟨by simpa using hstatus, hnodup⟩
  · simpa using ⟨by simpa using hintrospect, hnodup⟩
  · rw [List.contains_iff_mem] at hintrospect hstatus
    change ("introspect" :: "status" :: server.actionClassMap.map Prod.fst).Nodup
    rw [List.nodup_cons, List.nodup_cons, List.mem_cons, not_or]
    exact ⟨⟨by decide, hintrospect⟩, hstatus, hnodup⟩

lemma plainName_allActions (hserver : server.WellFormed) {entry : String × ServerAction}
    (h : entry ∈ server.allActions) : PlainName entry.1 := by
  obtain rfl | rfl | h := mem_allActions h
  · exact plainName_introspect
  · exact plainName_status
  · exact hserver.plainName entry h

/-- The name of the action can be read off the listed name. -/
lemma takeWhile_listed {entry : String × ServerAction} (hname : PlainName entry.1) {name : String}
    (h : name ∈ (listed entry).map Prod.fst) : name.toList.takeWhile isNameChar = entry.1.toList := by
  obtain ⟨actionName, action⟩ := entry
  cases action with
  | action actionClass =>
    rw [List.mem_singleton.mp h]
    exact List.takeWhile_eq_self_iff.mpr hname.2
  | switched action =>
    simp only [listed, iterateSwitchedActions, List.map_map, List.mem_map] at h
    obtain ⟨entry, -, rfl⟩ := h
    exact takeWhile_subActionName hname.2 entry.1

lemma map_fst_iterateSwitchedActions (actionName : String) (action : SwitchedAction ActionClass) :
    (action.iterateSwitchedActions actionName).map Prod.fst =
      ((SwitchedAction.iterate false action.switchToActionMap).map Prod.fst).map (subActionName actionName) := by
  unfold iterateSwitchedActions
  rw [List.map_map, List.map_map]
  rfl

lemma nodup_iterateSwitchedActions (actionName : String) {action : SwitchedAction ActionClass}
    (haction : action.Distinct) : ((action.iterateSwitchedActions actionName).map Prod.fst).Nodup := by
  rw [map_fst_iterateSwitchedActions]
  apply List.Nodup.map
  · intro l l' h
    exact subActionName_inj h
  · exact nodup_labels haction

/-- All listed names are different. -/
theorem nodup_listed (hserver : server.WellFormed) :
    ((server.allActions.flatMap listed).map Prod.fst).Nodup := by
  rw [List.map_flatMap, List.nodup_flatMap]
  constructor
  · intro entry hentry
    obtain ⟨actionName, action⟩ := entry
    cases action with
    | action actionClass => exact List.nodup_singleton _
    | switched action =>
      apply nodup_iterateSwitchedActions
      obtain h | h | h := mem_allActions hentry
      · cases h
      · cases h
      · exact hserver.distinct actionName action h
  · have hnodup := List.pairwise_map.mp (server.nodup_allActions)
    apply List.Pairwise.imp_of_mem _ hnodup
    intro entry entry' hentry hentry' hne name hname hname'
    apply hne
    rw [← String.toList_inj, ← takeWhile_listed (plainName_allActions hserver hentry) hname,
      takeWhile_listed (plainName_allActions hserver hentry') hname']

lemma get?_responseFor {entries : List (String × ActionClass)} (hnodup : (entries.map Prod.fst).Nodup)
    {name : String} {actionClass : ActionClass} (h : (name, actionClass) ∈ entries) :
    Assoc.get? name (responseFor entries).actions = some (introspectAction actionClass) := by
  have hkeys : ((entries.map fun entry => (entry.1, introspectAction entry.2)).map Prod.fst).Nodup := by
    rw [List.map_map]
    exact hnodup
  unfold responseFor
  dsimp only
  rw [Assoc.ofPairs_of_nodup hkeys]
  apply Assoc.get?_of_mem hkeys
  exact List.mem_map.mpr ⟨_, h, rfl⟩

lemma get?_single (name : String) (actionClass : ActionClass) :
    Assoc.get? name (responseFor [(name, actionClass)]).actions = some (introspectAction actionClass) := by
  apply get?_responseFor
  · exact List.nodup_singleton name
  · exact List.mem_singleton_self _

lemma run_subActionName (server : IntrospectedServer) (digits : DecimalDigits) (actionName : String) (l : Option ℤ) :
    server.run digits (some (subActionName actionName l)) =
      server.getResponseForSingleAction digits (subActionName actionName l) := by
  have hne : subActionName actionName l ≠ "" := by
    intro h
    obtain ⟨cs, hcs⟩ := toList_subActionName actionName l
    rw [h] at hcs
    simp at hcs
  unfold run
  split
  · rename_i h
    cases h
  · rename_i h
    exact absurd (Option.some.inj h) hne
  · rename_i h
    cases h
    rfl

section switched
variable (hserver : server.WellFormed) (digits : DecimalDigits) {actionName : String}
  {action : SwitchedAction ActionClass} (hmem : (actionName, .switched action) ∈ server.actionClassMap)
include hserver hmem

/-- The description in the response for all actions. -/
theorem get?_all {name : String} {actionClass : ActionClass}
    (h : (name, actionClass) ∈ action.iterateSwitchedActions actionName) :
    Assoc.get? name server.getResponseForAllActions.actions = some (introspectAction actionClass) := by
  apply get?_responseFor (nodup_listed hserver)
  apply List.mem_flatMap.mpr
  refine ⟨(actionName, .switched action), ?_, h⟩
  unfold allActions
  exact List.mem_append_right _ hmem

/-- The response for the default action. -/
theorem run_default :
    server.run digits (some (subActionName actionName none)) =
      .ok (responseFor [(subActionName actionName none,
        (action.switchToActionMap.getLast action.ne_nil).2)]) := by
  have hname := hserver.plainName _ hmem
  rw [run_subActionName]
  unfold getResponseForSingleAction
  rw [matchSwitchedAction_default digits hname]
  dsimp only
  rw [Assoc.get?_of_mem server.nodup hmem]

theorem run_zero :
    server.run digits (some (subActionName actionName (some 0))) =
      .ok (responseFor (action.iterateSwitchedActions actionName)) := by
  have hname := hserver.plainName _ hmem
  rw [run_subActionName]
  unfold getResponseForSingleAction
  have hmatch := matchSwitchedAction_switch digits hname 0
  rw [Nat.cast_zero] at hmatch
  rw [hmatch]
  dsimp only
  rw [Assoc.get?_of_mem server.nodup hmem]
  rfl

theorem run_positive {n : ℕ} (hn : n ≠ 0) :
    server.run digits (some (subActionName actionName (some n))) =
      .ok (responseFor [(subActionName actionName (some n), action.classFor n)]) := by
  have hname := hserver.plainName _ hmem
  rw [run_subActionName]
  unfold getResponseForSingleAction
  rw [matchSwitchedAction_switch digits hname n]
  dsimp only
  rw [Assoc.get?_of_mem server.nodup hmem]
  cases n with
  | zero => exact absurd rfl hn
  | succ n => rfl

/-- A name with a negative number is not understood, so it is taken for the name of an action. -/
theorem run_negative {n : ℤ} (hn : n < 0) :
    ∃ e, server.run digits (some (subActionName actionName (some n))) = .error e := by
  have hname := hserver.plainName _ hmem
  have hnot : ∀ {name}, PlainName name → subActionName actionName (some n) ≠ name := by
    intro name hplain heq
    obtain ⟨cs, hcs⟩ := toList_subActionName actionName (some n)
    have hbracket := hplain.2 '[' (by rw [← heq, hcs]; simp)
    exact absurd hbracket (by decide)
  have hget : Assoc.get? (subActionName actionName (some n)) server.actionClassMap = none := by
    apply Assoc.get?_of_notMem
    intro h
    obtain ⟨entry, hentry, heq⟩ := List.mem_map.mp h
    exact hnot (hserver.plainName entry hentry) heq.symm
  rw [run_subActionName]
  unfold getResponseForSingleAction
  rw [matchSwitchedAction_negative digits hname hn]
  dsimp only
  rw [hget]
  dsimp only
  rw [if_neg (hnot plainName_introspect), if_neg (hnot plainName_status)]
  exact ⟨_, rfl⟩

end switched

/-- The class is there and has the same description. -/
def SameAs (actionClass : ActionClass) (other : Option ActionClass) : Prop :=
  ∃ otherClass, other = some otherClass ∧ introspectAction otherClass = introspectAction actionClass

/-- The sub-action that is listed for a label can be queried singly; its description is then the same as
in the response for all actions, and it is that of the action that is chosen for requests whose active
switches are exactly the one of the label. -/
def Agrees (server : IntrospectedServer) (digits : DecimalDigits) (actionName : String)
    (action : SwitchedAction ActionClass) (l : Option ℤ) : Prop :=
  ∃ response description chosen,
    server.run digits (some (subActionName actionName l)) = .ok response ∧
    Assoc.get? (subActionName actionName l) response.actions = some description ∧
    Assoc.get? (subActionName actionName l) server.getResponseForAllActions.actions = some description ∧
    (∀ actionRequest : EnrichedActionRequest, actionRequest.switches = l.toList →
      action.getUninitializedAction ActionClass.truthy actionRequest = .ok chosen) ∧
    introspectAction chosen = description

/-- What the query for the label of an entry needs: the last entry for the default action; for a switch
that its number is not negative, and that it is 0, or that the switch is equal to it. Another entry with
the same description will do for the one that is needed. -/
def QueryFinds (action : SwitchedAction ActionClass) (entry : SwitchKey × ActionClass) : Option ℤ → Prop
  | none => introspectAction (action.switchToActionMap.getLast action.ne_nil).2 = introspectAction entry.2
  | some n => 0 ≤ n ∧ (n = 0 ∨ equalsInt n.toNat entry.1 = true ∨
      introspectAction (action.switchToActionMap.getLast action.ne_nil).2 = introspectAction entry.2)

/-- What dispatch for the label of an entry needs: that the switch and the action are true, or that the
action which is chosen instead has the same description. -/
def DispatchFinds (action : SwitchedAction ActionClass) (pre : List (SwitchKey × ActionClass))
    (entry : SwitchKey × ActionClass) : Option ℤ → Prop
  | none => SameAs entry.2 (standIn ActionClass.truthy action.switchToActionMap)
  | some _ => (entry.1.truthy = true ∧ entry.2.truthy = true) ∨
      SameAs entry.2 (standIn ActionClass.truthy (if entry.1.truthy then pre else action.switchToActionMap))

section finds
variable {digits : DecimalDigits} {actionName : String} {action : SwitchedAction ActionClass}
  {pre rest : List (SwitchKey × ActionClass)} {entry : SwitchKey × ActionClass}

lemma some_labelBehind {n : ℤ} (h : labelBehind pre entry rest = some n) :
    ∃ switch, entry.1 = .switch switch ∧ switch.getSwitch = n := by
  unfold labelBehind at h
  cases hkey : entry.1 with
  | defaultAction =>
    rw [hkey] at h
    cases h
  | switch switch =>
    rw [hkey] at h
    dsimp only [label] at h
    split_ifs at h
    exact ⟨switch, rfl, Option.some.inj h⟩

/-- The names under which a switched action is listed are those of its entries. -/
theorem mem_iterateSwitchedActions {listed : String × ActionClass} :
    listed ∈ action.iterateSwitchedActions actionName ↔
      ∃ pre entry rest, action.switchToActionMap = pre ++ entry :: rest ∧
        listed = (subActionName actionName (labelBehind pre entry rest), entry.2) := by
  unfold iterateSwitchedActions
  rw [List.mem_map]
  constructor
  · intro ⟨labelled, hlabelled, heq⟩
    obtain ⟨pre, entry, rest, hsplit, rfl⟩ := (mem_iterate false).mp hlabelled
    rw [Bool.false_or] at heq
    exact ⟨pre, entry, rest, hsplit, heq.symm⟩
  · intro ⟨pre, entry, rest, hsplit, heq⟩
    refine ⟨(labelBehind pre entry rest, entry.2), ?_, heq.symm⟩
    exact (mem_iterate false).mpr ⟨pre, entry, rest, hsplit, by rw [Bool.false_or]; rfl⟩

lemma listed_labelBehind (actionName : String) (hsplit : action.switchToActionMap = pre ++ entry :: rest) :
    (subActionName actionName (labelBehind pre entry rest), entry.2) ∈
      action.iterateSwitchedActions actionName :=
  mem_iterateSwitchedActions.mpr ⟨pre, entry, rest, hsplit, rfl⟩

lemma get?_listed (actionName : String) (haction : action.Distinct) (hsplit : action.switchToActionMap = pre ++ entry :: rest) :
    Assoc.get? (subActionName actionName (labelBehind pre entry rest))
      (responseFor (action.iterateSwitchedActions actionName)).actions = some (introspectAction entry.2) :=
  get?_responseFor (nodup_iterateSwitchedActions actionName haction) (listed_labelBehind actionName hsplit)

/-- The query returns the description of the entry. -/
theorem queryFinds_iff (hserver : server.WellFormed) (digits : DecimalDigits)
    (hmem : (actionName, .switched action) ∈ server.actionClassMap)
    (hsplit : action.switchToActionMap = pre ++ entry :: rest) :
    (∃ response, server.run digits (some (subActionName actionName (labelBehind pre entry rest))) = .ok response ∧
      Assoc.get? (subActionName actionName (labelBehind pre entry rest)) response.actions =
        some (introspectAction entry.2)) ↔
      QueryFinds action entry (labelBehind pre entry rest) := by
  have haction := hserver.distinct actionName action hmem
  have hlisted := get?_listed actionName haction hsplit
  cases hlabel : labelBehind pre entry rest with
  | none =>
    rw [run_default hserver digits hmem]
    simp only [Except.ok.injEq, exists_eq_left', get?_single, Option.some.injEq]
    rfl
  | some n =>
    obtain ⟨switch, hkey, hswitch⟩ := some_labelBehind hlabel
    rw [hlabel] at hlisted
    unfold QueryFinds
    dsimp only
    obtain hneg | hnonneg := lt_or_ge n 0
    · obtain ⟨e, he⟩ := run_negative hserver digits hmem hneg
      rw [he]
      constructor
      · rintro ⟨response, hresponse, -⟩
        cases hresponse
      · rintro ⟨hn, -⟩
        omega
    · obtain ⟨k, rfl⟩ := Int.eq_ofNat_of_zero_le hnonneg
      by_cases hk : k = 0
      · subst hk
        rw [Nat.cast_zero] at hlisted ⊢
        rw [run_zero hserver digits hmem]
        constructor
        · intro _
          exact ⟨le_refl 0, Or.inl rfl⟩
        · intro _
          exact ⟨_, rfl, hlisted⟩
      · have hequals : equalsInt k entry.1 = switch.equalsInt := by
          rw [hkey]
          simp [equalsInt, hswitch]
        have hentry : entry = (.switch switch, entry.2) := by
          rw [← hkey]
        rw [hentry] at hsplit
        rw [run_positive hserver digits hmem hk, classFor_split haction hsplit hswitch, Int.toNat_natCast, hequals]
        simp only [Except.ok.injEq, exists_eq_left', get?_single, Option.some.injEq]
        cases switch.equalsInt with
        | true => simp
        | false => simp [hk]

lemma getUninitializedAction_ok_iff {actionRequest : EnrichedActionRequest} {chosen : ActionClass} :
    action.getUninitializedAction ActionClass.truthy actionRequest = .ok chosen ↔
      (found (isMatched actionRequest.switches) action.switchToActionMap).action ActionClass.truthy =
        some chosen := by
  rw [getUninitializedAction_eq]
  cases (found (isMatched actionRequest.switches) action.switchToActionMap).action ActionClass.truthy with
  | none => simp
  | some other => simp

/-- The action that is chosen for the label of an entry has the description of the entry. -/
theorem dispatchFinds_iff (haction : action.Distinct)
    (hsplit : action.switchToActionMap = pre ++ entry :: rest) :
    SameAs entry.2 ((found (isMatched (labelBehind pre entry rest).toList) action.switchToActionMap).action
      ActionClass.truthy) ↔ DispatchFinds action pre entry (labelBehind pre entry rest) := by
  cases hlabel : labelBehind pre entry rest with
  | none =>
    rw [Option.toList_none, action_inactive]
    rfl
  | some n =>
    obtain ⟨switch, hkey, hswitch⟩ := some_labelBehind hlabel
    have hentry : entry = (.switch switch, entry.2) := by
      rw [← hkey]
    have hsplit' := hsplit
    rw [hentry] at hsplit'
    rw [Option.toList_some, ← hswitch, action_active ActionClass.truthy haction hsplit']
    unfold DispatchFinds
    rw [hkey]
    change _ ↔ (switch.truthy = true ∧ _) ∨ SameAs _ (standIn _ (if switch.truthy then _ else _))
    by_cases hsw : switch.truthy = true
    · rw [if_pos hsw, if_pos hsw]
      by_cases hchosen : entry.2.truthy = true
      · rw [if_pos hchosen]
        constructor
        · intro _
          exact Or.inl ⟨hsw, hchosen⟩
        · intro _
          exact ⟨entry.2, rfl, rfl⟩
      · rw [if_neg hchosen]
        simp [hchosen]
    · rw [if_neg hsw, if_neg hsw]
      simp [hsw]

/-- **Introspection agrees with itself and with dispatch** for a sub-action exactly if the query for its
label finds the entry, or one with the same description, and dispatch does as well. -/
theorem agrees_iff (hserver : server.WellFormed) (digits : DecimalDigits)
    (hmem : (actionName, .switched action) ∈ server.actionClassMap)
    (hsplit : action.switchToActionMap = pre ++ entry :: rest) :
    server.Agrees digits actionName action (labelBehind pre entry rest) ↔
      QueryFinds action entry (labelBehind pre entry rest) ∧
        DispatchFinds action pre entry (labelBehind pre entry rest) := by
  have hall := get?_all hserver hmem (listed_labelBehind actionName hsplit)
  rw [← queryFinds_iff hserver digits hmem hsplit,
    ← dispatchFinds_iff (hserver.distinct actionName action hmem) hsplit]
  constructor
  · intro ⟨response, description, chosen, hrun, hget, hgetAll, hchosen, hdescription⟩
    rw [hall] at hgetAll
    cases hgetAll
    refine ⟨⟨response, hrun, hget⟩, chosen, ?_, hdescription⟩
    let actionRequest : EnrichedActionRequest := {
      action := .none, switches := (labelBehind pre entry rest).toList, context := [], control := [], client := [] }
    exact getUninitializedAction_ok_iff.mp (hchosen actionRequest rfl)
  · intro ⟨⟨response, hrun, hget⟩, chosen, hchosen, hdescription⟩
    refine ⟨response, introspectAction entry.2, chosen, hrun, hget, hall, ?_, hdescription⟩
    intro actionRequest hswitches
    apply getUninitializedAction_ok_iff.mpr
    rw [hswitches]
    exact hchosen

end finds

/-- The ASCII digits alone. -/
def asciiDigits : DecimalDigits where
  value c := if c.isDigit then some (c.toNat - '0'.toNat) else none
  value_ascii _ _ := rfl

/-- An action whose default stands in front of the switch 5. -/
def defaultFirst : SwitchedAction ActionClass where
  switchToActionMap := [
    (.defaultAction, { doc := some "The default" }),
    (.switch (.int 5), { doc := some "The action for 5" })]
  two_le_length := by decide

/-- A server with this action alone. -/
def defaultFirstServer : IntrospectedServer where
  actionClassMap := [("run", .switched defaultFirst)]
  nodup := List.nodup_singleton "run"
  introspectionAction := {}
  baseStatusAction := {}

lemma wellFormed_defaultFirstServer : defaultFirstServer.WellFormed where
  plainName := by
    intro entry hentry
    obtain rfl := List.mem_singleton.mp hentry
    exact ⟨by decide, List.all_eq_true.mp (by decide)⟩
  distinct := by
    intro actionName action hmem
    cases List.mem_singleton.mp hmem
    exact (by decide : [none, some (5 : ℤ)].Nodup)

theorem agrees_iff_switch :
    defaultFirstServer.Agrees asciiDigits "run" defaultFirst (some 5) := by
  refine (agrees_iff wellFormed_defaultFirstServer asciiDigits (List.mem_singleton_self _)
    (show defaultFirst.switchToActionMap = [(.defaultAction, { doc := some "The default" })] ++
      (.switch (.int 5), { doc := some "The action for 5" }) :: [] from rfl)).mpr ⟨⟨?_, ?_⟩, ?_⟩
  · decide
  · exact Or.inr (Or.inl rfl)
  · exact Or.inl ⟨rfl, rfl⟩

/-- The query for the default action describes the last entry of the map. -/
theorem not_agrees_default :
    defaultFirstServer.WellFormed ∧
      ("run[DEFAULT]", { doc := some "The default" }) ∈ defaultFirst.iterateSwitchedActions "run" ∧
      ¬defaultFirstServer.Agrees asciiDigits "run" defaultFirst none := by
  have hmem : ("run", .switched defaultFirst) ∈ defaultFirstServer.actionClassMap := List.mem_singleton_self _
  have hsplit : defaultFirst.switchToActionMap = [] ++ (.defaultAction, { doc := some "The default" }) ::
      [(.switch (.int 5), { doc := some "The action for 5" })] := rfl
  have hall := get?_all wellFormed_defaultFirstServer hmem (listed_labelBehind "run" hsplit)
  refine ⟨wellFormed_defaultFirstServer, List.mem_cons_self, ?_⟩
  intro ⟨response, description, _, hrun, hget, hgetAll, _⟩
  have hdescription : description = introspectAction { doc := some "The default" } :=
    Option.some.inj (hgetAll.symm.trans hall)
  rw [hdescription] at hget
  have hquery := (queryFinds_iff wellFormed_defaultFirstServer asciiDigits hmem hsplit).mp ⟨response, hrun, hget⟩
  have hdocumentation := congrArg ActionDescription.documentation hquery
  exact absurd hdocumentation (by decide)

end IntrospectedServer
end PySOA
