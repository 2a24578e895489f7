import PySOA.Client.Expansions

/-! One round of expansion requests: which values are pending, and under which fields they are
requested. -/
namespace PySOA

/-- The service, the action and the field that the identifiers of a node are for. -/
def ExpansionNode.target (node : ExpansionNode) : String × String × String :=
  (node.service, node.action, node.requestField)

def SentExpansion.target (request : SentExpansion) : String × String × String :=
  (request.serviceName, request.actionName, request.field)

/-- The cache key of a service, an action and a field. -/
def targetKey (target : String × String × String) : String := cacheKey target.1 target.2.1 target.2.2

namespace Value

lemma mem_hashKeys {values : List Value} {key : HashKey} :
    key ∈ hashKeys values ↔ some key ∈ values.map hashKey? := by
  simp [hashKeys]

lemma hashKey?_mem_addTo (value : Value) (values : List Value) :
    value.hashKey? ∈ (value.addTo values).map hashKey? := by
  unfold addTo
  split_ifs with h
  · exact h
  · simp

lemma subset_addTo (value : Value) (values : List Value) : values ⊆ value.addTo values := by
  intro v hv
  unfold addTo
  split_ifs
  · exact hv
  · exact List.mem_append_left _ hv

lemma mem_addTo {value v : Value} {values : List Value} (h : v ∈ value.addTo values) :
    v ∈ values ∨ v = value := by
  unfold addTo at h
  split_ifs at h
  · exact .inl h
  · exact (List.mem_append.mp h).imp_right List.mem_singleton.mp

lemma nodup_addTo {value : Value} {values : List Value} (h : (values.map hashKey?).Nodup) :
    ((value.addTo values).map hashKey?).Nodup := by
  unfold addTo
  split_ifs with hmem
  · exact h
  · rw [List.map_append]
    apply List.Nodup.append h (List.nodup_singleton _)
    simpa using hmem

end Value

/-- An instruction for an action, made of the pending pairs: its field is that of one of them for
the action, its values are theirs and it has each once, and so are its objects. -/
structure RequestInstruction.MadeOf (P : ObjectNode → Value → Prop) (serviceName actionName : String)
    (instruction : RequestInstruction) : Prop where
  field : ∃ objectNode value, P objectNode value ∧ objectNode.expansion.service = serviceName ∧
    objectNode.expansion.action = actionName ∧ objectNode.expansion.requestField = instruction.field
  ne_nil : instruction.values ≠ []
  values : ∀ value ∈ instruction.values, value.hashKey?.isSome = true ∧
    ∃ objectNode, P objectNode value ∧ objectNode.expansion.service = serviceName ∧
      objectNode.expansion.action = actionName
  nodup : (instruction.values.map Value.hashKey?).Nodup
  objectNodes : ∀ objectNode ∈ instruction.objectNodes, ∃ value, P objectNode value

/-- All pending requests are made of the pending pairs. -/
def MadeOf (P : ObjectNode → Value → Prop) (pending : PendingRequests) : Prop :=
  ∀ serviceName actions, (serviceName, actions) ∈ pending →
    ∀ actionName instruction, (actionName, instruction) ∈ actions →
      instruction.MadeOf P serviceName actionName

/-- There is an instruction for the action with the value. -/
def Holds (pending : PendingRequests) (serviceName actionName : String) (key : Option HashKey) : Prop :=
  ∃ actions, (serviceName, actions) ∈ pending ∧ ∃ instruction, (actionName, instruction) ∈ actions ∧
    key ∈ instruction.values.map Value.hashKey?

/-- The pending requests with one more pair. -/
def addPending (objectNode : ObjectNode) (value : Value) (pending : PendingRequests) : PendingRequests :=
  Assoc.upsert objectNode.expansion.service (fun actions => Assoc.upsert objectNode.expansion.action
    (.add objectNode value) (actions.getD [])) pending

section pending
variable {P : ObjectNode → Value → Prop} {objectNode : ObjectNode} {value : Value}

lemma RequestInstruction.madeOf_add_none (hP : P objectNode value) (hash : value.hashKey?.isSome = true) :
    (RequestInstruction.add objectNode value none).MadeOf P objectNode.expansion.service
      objectNode.expansion.action where
  field := ⟨objectNode, value, hP, rfl, rfl, rfl⟩
  ne_nil := by simp [add, Value.addTo]
  values := by
    intro v hv
    have hv : v = value := by simpa [add, Value.addTo] using hv
    rw [hv]
    exact ⟨hash, objectNode, hP, rfl, rfl⟩
  nodup := by simp [add, Value.addTo]
  objectNodes := by
    intro node hnode
    have hnode : node = objectNode := by simpa [add] using hnode
    rw [hnode]
    exact ⟨value, hP⟩

lemma RequestInstruction.MadeOf.add {instruction : RequestInstruction}
    (h : instruction.MadeOf P objectNode.expansion.service objectNode.expansion.action)
    (hP : P objectNode value) (hash : value.hashKey?.isSome = true) :
    (RequestInstruction.add objectNode value (some instruction)).MadeOf P objectNode.expansion.service
      objectNode.expansion.action where
  field := h.field
  ne_nil := by
    obtain ⟨v, hv⟩ := List.exists_mem_of_ne_nil _ h.ne_nil
    exact List.ne_nil_of_mem (Value.subset_addTo value _ hv)
  values := by
    intro v hv
    rcases Value.mem_addTo hv with hv | rfl
    · exact h.values v hv
    · exact ⟨hash, objectNode, hP, rfl, rfl⟩
  nodup := Value.nodup_addTo h.nodup
  objectNodes := by
    intro node hnode
    rcases List.mem_append.mp hnode with hnode | hnode
    · exact h.objectNodes node hnode
    · rw [List.mem_singleton.mp hnode]
      exact ⟨value, hP⟩

lemma MadeOf.addPending {pending : PendingRequests} (h : MadeOf P pending) (hP : P objectNode value)
    (hash : value.hashKey?.isSome = true) : MadeOf P (addPending objectNode value pending) := by
  have hactions : ∀ actions : List (String × RequestInstruction),
      (∀ actionName instruction, (actionName, instruction) ∈ actions →
        instruction.MadeOf P objectNode.expansion.service actionName) →
      ∀ actionName instruction,
        (actionName, instruction) ∈ Assoc.upsert objectNode.expansion.action (.add objectNode value) actions →
          instruction.MadeOf P objectNode.expansion.service actionName := by
    intro actions hold actionName instruction hmem
    rcases Assoc.mem_upsert hmem with hmem | heq | ⟨b, hb, heq⟩
    · exact hold actionName instruction hmem
    · cases heq
      exact RequestInstruction.madeOf_add_none hP hash
    · cases heq
      exact (hold _ _ hb).add hP hash
  intro serviceName actions hmem
  rcases Assoc.mem_upsert hmem with hmem | heq | ⟨b, hb, heq⟩
  · exact h serviceName actions hmem
  · cases heq
    exact hactions [] (by simp)
  · cases heq
    exact hactions b (h _ _ hb)

/-- The new pair is held. -/
lemma holds_addPending (objectNode : ObjectNode) (value : Value) (pending : PendingRequests) :
    Holds (addPending objectNode value pending) objectNode.expansion.service objectNode.expansion.action
      value.hashKey? := by
  have hactions : ∀ actions : List (String × RequestInstruction), ∃ instruction,
      (objectNode.expansion.action, instruction) ∈
        Assoc.upsert objectNode.expansion.action (.add objectNode value) actions ∧
      value.hashKey? ∈ instruction.values.map Value.hashKey? := by
    intro actions
    rcases Assoc.exists_mem_upsert objectNode.expansion.action (.add objectNode value) actions with
      h | ⟨b, -, h⟩
    · exact ⟨_, h, Value.hashKey?_mem_addTo value []⟩
    · exact ⟨_, h, Value.hashKey?_mem_addTo value b.values⟩
  rcases Assoc.exists_mem_upsert objectNode.expansion.service (fun actions => Assoc.upsert
      objectNode.expansion.action (.add objectNode value) (actions.getD [])) pending with h | ⟨b, -, h⟩
  · exact ⟨_, h, hactions _⟩
  · exact ⟨_, h, hactions _⟩

/-- What is held stays held. -/
lemma Holds.addPending {pending : PendingRequests} {serviceName actionName : String}
    {key : Option HashKey} (h : Holds pending serviceName actionName key) (objectNode : ObjectNode)
    (value : Value) : Holds (addPending objectNode value pending) serviceName actionName key := by
  obtain ⟨actions, hactions, instruction, hinstruction, hkey⟩ := h
  rcases Assoc.mem_upsert_of_mem objectNode.expansion.service (fun actions => Assoc.upsert
      objectNode.expansion.action (.add objectNode value) (actions.getD [])) hactions with hsame | ⟨heq, hchanged⟩
  · exact ⟨actions, hsame, instruction, hinstruction, hkey⟩
  · dsimp only at heq hchanged
    subst heq
    refine ⟨_, hchanged, ?_⟩
    rcases Assoc.mem_upsert_of_mem objectNode.expansion.action (.add objectNode value) hinstruction with hsame | ⟨heq, hchanged⟩
    · exact ⟨instruction, hsame, hkey⟩
    · dsimp only at heq hchanged
      subst heq
      refine ⟨_, hchanged, ?_⟩
      obtain ⟨v, hv, rfl⟩ := List.mem_map.mp hkey
      exact List.mem_map_of_mem (Value.subset_addTo value _ hv)

lemma formulate_cons {assignments : Assignments} {rest : List ObjectNode} {pending : PendingRequests} :
    formulate assignments (objectNode :: rest) pending =
      match objectNode.identifier? assignments with
      | none => formulate assignments rest pending
      | some value =>
        if value.hashKey?.isSome then formulate assignments rest (addPending objectNode value pending)
        else .error (.typeError "unhashable type") := rfl

/-- The requests of a round are made of its pending pairs, and hold them all. -/
theorem formulate_eq_ok {assignments : Assignments} {nodes : List ObjectNode}
    {pending pending' : PendingRequests} (h : formulate assignments nodes pending = .ok pending')
    (hP : ∀ node ∈ nodes, ∀ v, node.identifier? assignments = some v → P node v)
    (hmade : MadeOf P pending) :
    MadeOf P pending' ∧
      (∀ serviceName actionName key, Holds pending serviceName actionName key →
        Holds pending' serviceName actionName key) ∧
      ∀ node ∈ nodes, ∀ v, node.identifier? assignments = some v →
        Holds pending' node.expansion.service node.expansion.action v.hashKey? := by
  induction nodes generalizing pending with
  | nil =>
    cases h
    exact ⟨hmade, fun _ _ _ h => h, by simp⟩
  | cons node nodes ih =>
    have hrest : ∀ n ∈ nodes, ∀ v, n.identifier? assignments = some v → P n v :=
      fun n hn => hP n (List.mem_cons_of_mem _ hn)
    rw [formulate_cons] at h
    cases hid : node.identifier? assignments with
    | none =>
      rw [hid] at h
      obtain ⟨hmade', hkeep, hall⟩ := ih h hrest hmade
      refine ⟨hmade', hkeep, ?_⟩
      intro n hn v hv
      rcases List.mem_cons.mp hn with rfl | hn
      · rw [hid] at hv
        cases hv
      · exact hall n hn v hv
    | some v₀ =>
      simp only [hid] at h
      split_ifs at h with hash
      obtain ⟨hmade', hkeep, hall⟩ := ih h hrest (hmade.addPending (hP node List.mem_cons_self v₀ hid) hash)
      refine ⟨hmade', fun s a k hk => hkeep s a k (hk.addPending node v₀), ?_⟩
      intro n hn v hv
      rcases List.mem_cons.mp hn with rfl | hn
      · rw [hid] at hv
        cases hv
        exact hkeep _ _ _ (holds_addPending _ _ _)
      · exact hall n hn v hv

lemma mem_instructions {pending : PendingRequests} {serviceName actionName : String}
    {instruction : RequestInstruction} : (serviceName, actionName, instruction) ∈ instructions pending ↔
      ∃ actions, (serviceName, actions) ∈ pending ∧ (actionName, instruction) ∈ actions := by
  simp [instructions]

end pending

namespace SentExpansion

def keys (request : SentExpansion) : List HashKey := Value.hashKeys request.values

/-- The identifiers that were requested, each with the service, the action and the field. -/
def pairs (request : SentExpansion) : List ((String × String × String) × HashKey) :=
  request.keys.map (request.target, ·)

end SentExpansion

namespace ExpandState

/-- The values that have been requested under a cache key. -/
def made (s : ExpandState) (cacheKey : String) : List HashKey := (Assoc.get? cacheKey s.requestsMade).getD []

def sentPairs (s : ExpandState) : List ((String × String × String) × HashKey) :=
  s.sent.flatMap SentExpansion.pairs

/-- The cache holds what the requests were for, and no request was for the same twice. -/
structure Recorded (s : ExpandState) : Prop where
  cached : ∀ request ∈ s.sent, ∀ key ∈ request.keys, key ∈ s.made (targetKey request.target)
  sent : ∀ cacheKey, ∀ key ∈ s.made cacheKey,
    ∃ request ∈ s.sent, targetKey request.target = cacheKey ∧ key ∈ request.keys
  nodup : s.sentPairs.Nodup
  faithful : ∀ request ∈ s.sent, request.jobRequest.actions =
    [⟨.text request.actionName, .dict [(.text request.field, .list request.values)]⟩]

/-- A request for the new values of an instruction has been handed to the client. -/
structure Sends (serviceName actionName : String) (instruction : RequestInstruction)
    (request : SentExpansion) (s s' : ExpandState) : Prop where
  sent : s'.sent = s.sent ++ [request]
  target : request.target = (serviceName, actionName, instruction.field)
  actions : request.jobRequest.actions =
    [⟨.text actionName, .dict [(.text instruction.field, .list request.values)]⟩]
  values : request.values = instruction.values.filter (fun value => value.hashKey? ∉
    (s.made (cacheKey serviceName actionName instruction.field)).map some)
  requestsMade : s'.requestsMade = Assoc.upsert (cacheKey serviceName actionName instruction.field)
    (fun made => made.getD [] ++ request.keys) s.requestsMade
  objectsToExpand : s'.objectsToExpand = s.objectsToExpand
  assignments : s'.assignments = s.assignments

/-- Sending one instruction: all its values have been requested, or a request is made. -/
lemma sendExpansion_cases (arguments : RequestArguments) (serviceName actionName : String)
    (instruction : RequestInstruction) (requests : ServiceRequests) (s : ExpandState) :
    (s.sendExpansion arguments serviceName actionName instruction requests = (.ok requests, s) ∧
        s.made (cacheKey serviceName actionName instruction.field) ≠ [] ∧
        ∀ value ∈ instruction.values, value.hashKey? ∈
          (s.made (cacheKey serviceName actionName instruction.field)).map some) ∨
      ((s.made (cacheKey serviceName actionName instruction.field) = [] ∨
          ∃ value ∈ instruction.values, value.hashKey? ∉
            (s.made (cacheKey serviceName actionName instruction.field)).map some) ∧
        (∃ request, Sends serviceName actionName instruction request s
          (s.sendExpansion arguments serviceName actionName instruction requests).2) ∧
        ((∃ e, (s.sendExpansion arguments serviceName actionName instruction requests).1 = .error e) ∨
          ∃ requestId, (s.sendExpansion arguments serviceName actionName instruction requests).1 =
            .ok (Assoc.upsert serviceName
              (fun sent => sent.getD [] ++ [(requestId, instruction.objectNodes)]) requests))) := by
  unfold sendExpansion
  dsimp only
  rw [← made]
  by_cases hskip : s.made (cacheKey serviceName actionName instruction.field) ≠ [] ∧
      instruction.values.filter (fun value => value.hashKey? ∉
        (s.made (cacheKey serviceName actionName instruction.field)).map some) = []
  · left
    rw [if_pos hskip]
    refine ⟨rfl, hskip.1, ?_⟩
    intro value hvalue
    simpa using List.filter_eq_nil_iff.mp hskip.2 value hvalue
  · right
    rw [if_neg hskip]
    refine ⟨?_, ?_⟩
    · by_cases hmade : s.made (cacheKey serviceName actionName instruction.field) = []
      · exact .inl hmade
      · right
        obtain ⟨value, hvalue⟩ := List.exists_mem_of_ne_nil _ fun hnil => hskip ⟨hmade, hnil⟩
        obtain ⟨hmem, hnew⟩ := List.mem_filter.mp hvalue
        exact ⟨value, hmem, by simpa using hnew⟩
    · generalize s.client.sendRequest serviceName _ _ false = out
      obtain ⟨result, context, client⟩ := out
      cases result with
      | error e => exact ⟨⟨_, rfl, rfl, rfl, rfl, rfl, rfl, rfl⟩, .inl ⟨e, rfl⟩⟩
      | ok requestId => exact ⟨⟨_, rfl, rfl, rfl, rfl, rfl, rfl, rfl⟩, .inr ⟨requestId, rfl⟩⟩

section sends
variable {serviceName actionName : String} {instruction : RequestInstruction} {request : SentExpansion}
  {s s' : ExpandState}

lemma Sends.targetKey_eq (h : Sends serviceName actionName instruction request s s') :
    targetKey request.target = cacheKey serviceName actionName instruction.field := by
  rw [h.target]
  rfl

lemma Sends.made_self (h : Sends serviceName actionName instruction request s s') :
    s'.made (targetKey request.target) = s.made (targetKey request.target) ++ request.keys := by
  rw [h.targetKey_eq, made, h.requestsMade, Assoc.get?_upsert_self]
  rfl

lemma Sends.made_of_ne (h : Sends serviceName actionName instruction request s s') {key : String}
    (hne : key ≠ targetKey request.target) : s'.made key = s.made key := by
  rw [made, h.requestsMade, Assoc.get?_upsert_of_ne (h.targetKey_eq ▸ hne)]
  rfl

lemma Sends.made_subset (h : Sends serviceName actionName instruction request s s') (key : String) :
    s.made key ⊆ s'.made key := by
  intro k hk
  by_cases hkey : key = targetKey request.target
  · subst hkey
    rw [h.made_self]
    exact List.mem_append_left _ hk
  · rwa [h.made_of_ne hkey]

/-- A request has the values that have not been requested. -/
lemma Sends.mem_keys_iff (h : Sends serviceName actionName instruction request s s') {key : HashKey} :
    key ∈ request.keys ↔ (∃ value ∈ instruction.values, value.hashKey? = some key) ∧
      key ∉ s.made (targetKey request.target) := by
  unfold SentExpansion.keys
  rw [Value.mem_hashKeys, h.values, List.mem_map, h.targetKey_eq]
  constructor
  · rintro ⟨value, hvalue, hhash⟩
    obtain ⟨hmem, hnew⟩ := List.mem_filter.mp hvalue
    refine ⟨⟨value, hmem, hhash⟩, ?_⟩
    simpa [hhash] using hnew
  · rintro ⟨⟨value, hmem, hhash⟩, hnew⟩
    refine ⟨value, List.mem_filter.mpr ⟨hmem, ?_⟩, hhash⟩
    simpa [hhash] using hnew

lemma Sends.nodup_keys (h : Sends serviceName actionName instruction request s s')
    (hnodup : (instruction.values.map Value.hashKey?).Nodup) : request.keys.Nodup := by
  have hfilter : (request.values.map Value.hashKey?).Nodup := by
    rw [h.values]
    exact hnodup.sublist (List.filter_sublist.map _)
  have hkeys : request.keys = (request.values.map Value.hashKey?).filterMap id := by
    rw [List.filterMap_map]
    rfl
  rw [hkeys]
  apply hfilter.filterMap
  intro a a' b hb hb'
  exact (Option.mem_def.mp hb).trans (Option.mem_def.mp hb').symm

/-- Afterwards all values of the instruction have been requested. -/
lemma Sends.made_of_mem (h : Sends serviceName actionName instruction request s s') {value : Value}
    (hvalue : value ∈ instruction.values) {key : HashKey} (hhash : value.hashKey? = some key) :
    key ∈ s'.made (targetKey request.target) := by
  rw [h.made_self]
  by_cases hold : key ∈ s.made (targetKey request.target)
  · exact List.mem_append_left _ hold
  · exact List.mem_append_right _ (h.mem_keys_iff.mpr ⟨⟨value, hvalue, hhash⟩, hold⟩)

lemma Sends.sentPairs_eq (h : Sends serviceName actionName instruction request s s') :
    s'.sentPairs = s.sentPairs ++ request.pairs := by
  unfold sentPairs
  rw [h.sent, List.flatMap_append, List.flatMap_singleton]

lemma Sends.recorded (h : Sends serviceName actionName instruction request s s')
    (hnodup : (instruction.values.map Value.hashKey?).Nodup) (hs : s.Recorded) : s'.Recorded where
  cached := by
    intro r hr key hkey
    rw [h.sent] at hr
    rcases List.mem_append.mp hr with hr | hr
    · exact h.made_subset _ (hs.cached r hr key hkey)
    · rw [List.mem_singleton.mp hr] at hkey ⊢
      rw [h.made_self]
      exact List.mem_append_right _ hkey
  sent := by
    intro cacheKey key hkey
    rw [h.sent]
    by_cases hcache : cacheKey = targetKey request.target
    · subst hcache
      rw [h.made_self] at hkey
      rcases List.mem_append.mp hkey with hkey | hkey
      · obtain ⟨r, hr, htarget, hmem⟩ := hs.sent _ key hkey
        exact ⟨r, List.mem_append_left _ hr, htarget, hmem⟩
      · exact ⟨request, by simp, rfl, hkey⟩
    · rw [h.made_of_ne hcache] at hkey
      obtain ⟨r, hr, htarget, hmem⟩ := hs.sent _ key hkey
      exact ⟨r, List.mem_append_left _ hr, htarget, hmem⟩
  nodup := by
    rw [h.sentPairs_eq]
    apply hs.nodup.append
    · apply (h.nodup_keys hnodup).map
      intro key key' heq
      exact (Prod.mk.inj heq).2
    · rintro ⟨target, key⟩ hold hnew
      obtain ⟨r, hr, hpair⟩ := List.mem_flatMap.mp hold
      obtain ⟨key', hkey', heq⟩ := List.mem_map.mp hpair
      obtain ⟨key'', hkey'', heq'⟩ := List.mem_map.mp hnew
      cases heq
      obtain ⟨htarget, rfl⟩ := Prod.mk.inj heq'
      exact (h.mem_keys_iff.mp hkey'').2 (htarget ▸ hs.cached r hr _ hkey')
  faithful := by
    intro r hr
    rw [h.sent] at hr
    rcases List.mem_append.mp hr with hr | hr
    · exact hs.faithful r hr
    · obtain ⟨-, hrest⟩ := Prod.mk.inj h.target
      obtain ⟨haction, hfield⟩ := Prod.mk.inj hrest
      rw [List.mem_singleton.mp hr, haction, hfield]
      exact h.actions

lemma Sends.keys_ne_nil (h : Sends serviceName actionName instruction request s s')
    {P : ObjectNode → Value → Prop} (hmade : instruction.MadeOf P serviceName actionName)
    (hnew : s.made (cacheKey serviceName actionName instruction.field) = [] ∨
      ∃ value ∈ instruction.values, value.hashKey? ∉
        (s.made (cacheKey serviceName actionName instruction.field)).map some) : request.keys ≠ [] := by
  have hexists : ∃ value ∈ instruction.values, value.hashKey? ∉
      (s.made (cacheKey serviceName actionName instruction.field)).map some := by
    rcases hnew with hnil | hnew
    · obtain ⟨value, hvalue⟩ := List.exists_mem_of_ne_nil _ hmade.ne_nil
      exact ⟨value, hvalue, by simp [hnil]⟩
    · exact hnew
  obtain ⟨value, hvalue, hnew⟩ := hexists
  obtain ⟨key, hkey⟩ := Option.isSome_iff_exists.mp (hmade.values value hvalue).1
  apply List.ne_nil_of_mem (a := key)
  refine h.mem_keys_iff.mpr ⟨⟨value, hvalue, hkey⟩, ?_⟩
  rw [h.targetKey_eq]
  simpa [hkey] using hnew

end sends

end ExpandState

/-- The request is for one of the instructions: it calls the action of the instruction with values
of the instruction, under the field of the instruction. -/
def SentExpansion.For (instructions : List (String × String × RequestInstruction))
    (request : SentExpansion) : Prop :=
  ∃ serviceName actionName instruction, (serviceName, actionName, instruction) ∈ instructions ∧
    request.target = (serviceName, actionName, instruction.field) ∧ request.keys ≠ [] ∧
    ∀ key ∈ request.keys, ∃ value ∈ instruction.values, value.hashKey? = some key

lemma SentExpansion.For.mono {L L' : List (String × String × RequestInstruction)} {request : SentExpansion}
    (h : request.For L) (hsub : L ⊆ L') : request.For L' := by
  obtain ⟨serviceName, actionName, instruction, hmem, hrest⟩ := h
  exact ⟨serviceName, actionName, instruction, hsub hmem, hrest⟩

namespace ExpandState

/-- What sending instructions does: it hands requests for them to the client and records them. -/
structure Requested (L : List (String × String × RequestInstruction)) (s s' : ExpandState) : Prop where
  recorded : s'.Recorded
  exists_new : ∃ new, s'.sent = s.sent ++ new ∧ ∀ request ∈ new, request.For L
  made : ∀ cacheKey, s.made cacheKey ⊆ s'.made cacheKey
  objectsToExpand : s'.objectsToExpand = s.objectsToExpand
  assignments : s'.assignments = s.assignments

section requested
variable {L L' : List (String × String × RequestInstruction)} {s s' s'' : ExpandState}

lemma Requested.refl (hs : s.Recorded) : Requested L s s :=
  ⟨hs, ⟨[], by simp⟩, fun _ => List.Subset.refl _, rfl, rfl⟩

lemma Requested.trans (h : Requested L s s') (h' : Requested L s' s'') : Requested L s s'' where
  recorded := h'.recorded
  exists_new := by
    obtain ⟨new, hsent, hnew⟩ := h.exists_new
    obtain ⟨new', hsent', hnew'⟩ := h'.exists_new
    refine ⟨new ++ new', by rw [hsent', hsent, List.append_assoc], ?_⟩
    intro request hrequest
    exact (List.mem_append.mp hrequest).elim (hnew request) (hnew' request)
  made := fun key => List.Subset.trans (h.made key) (h'.made key)
  objectsToExpand := h'.objectsToExpand.trans h.objectsToExpand
  assignments := h'.assignments.trans h.assignments

lemma Requested.mono (h : Requested L s s') (hsub : L ⊆ L') : Requested L' s s' where
  recorded := h.recorded
  exists_new := by
    obtain ⟨new, hsent, hnew⟩ := h.exists_new
    exact ⟨new, hsent, fun request hrequest => (hnew request hrequest).mono hsub⟩
  made := h.made
  objectsToExpand := h.objectsToExpand
  assignments := h.assignments

variable {P : ObjectNode → Value → Prop} {serviceName actionName : String}
  {instruction : RequestInstruction}

lemma requested_sendExpansion (arguments : RequestArguments) (requests : ServiceRequests)
    (hmade : instruction.MadeOf P serviceName actionName) (hs : s.Recorded) :
    Requested [(serviceName, actionName, instruction)] s
      (s.sendExpansion arguments serviceName actionName instruction requests).2 := by
  rcases sendExpansion_cases arguments serviceName actionName instruction requests s with
    ⟨hout, -, -⟩ | ⟨hnew, ⟨request, hsends⟩, -⟩
  · rw [hout]
    exact .refl hs
  · refine ⟨hsends.recorded hmade.nodup hs, ⟨[request], hsends.sent, ?_⟩, hsends.made_subset,
      hsends.objectsToExpand, hsends.assignments⟩
    intro r hr
    rw [List.mem_singleton.mp hr]
    exact ⟨serviceName, actionName, instruction, by simp, hsends.target, hsends.keys_ne_nil hmade hnew,
      fun key hkey => (hsends.mem_keys_iff.mp hkey).1⟩

/-- Even when sending raises, the values of the instruction are recorded. -/
lemma made_sendExpansion (arguments : RequestArguments) (requests : ServiceRequests)
    {value : Value} (hvalue : value ∈ instruction.values) {key : HashKey} (hhash : value.hashKey? = some key) :
    key ∈ (s.sendExpansion arguments serviceName actionName instruction requests).2.made
      (cacheKey serviceName actionName instruction.field) := by
  rcases sendExpansion_cases arguments serviceName actionName instruction requests s with
    ⟨hout, -, hall⟩ | ⟨-, ⟨request, hsends⟩, -⟩
  · rw [hout]
    simpa [hhash] using hall value hvalue
  · rw [← hsends.targetKey_eq]
    exact hsends.made_of_mem hvalue hhash

lemma sendExpansions_cons (arguments : RequestArguments) (serviceName actionName : String)
    (instruction : RequestInstruction) (rest : List (String × String × RequestInstruction))
    (requests : ServiceRequests) (s : ExpandState) :
    (∃ e, (s.sendExpansion arguments serviceName actionName instruction requests).1 = .error e ∧
      s.sendExpansions arguments ((serviceName, actionName, instruction) :: rest) requests =
        (.error e, (s.sendExpansion arguments serviceName actionName instruction requests).2)) ∨
    ∃ requests', (s.sendExpansion arguments serviceName actionName instruction requests).1 = .ok requests' ∧
      s.sendExpansions arguments ((serviceName, actionName, instruction) :: rest) requests =
        (s.sendExpansion arguments serviceName actionName instruction requests).2.sendExpansions arguments
          rest requests' := by
  cases hout : s.sendExpansion arguments serviceName actionName instruction requests with
  | mk result s' =>
    cases result with
    | error e => exact .inl ⟨e, rfl, by simp only [sendExpansions, hout]⟩
    | ok requests' => exact .inr ⟨requests', rfl, by simp only [sendExpansions, hout]⟩

theorem requested_sendExpansions (arguments : RequestArguments) (requests : ServiceRequests)
    (hmade : ∀ serviceName actionName instruction, (serviceName, actionName, instruction) ∈ L →
      instruction.MadeOf P serviceName actionName) (hs : s.Recorded) :
    Requested L s (s.sendExpansions arguments L requests).2 := by
  induction L generalizing s requests with
  | nil => exact .refl hs
  | cons head rest ih =>
    obtain ⟨serviceName, actionName, instruction⟩ := head
    have hfirst := (requested_sendExpansion arguments requests
      (hmade serviceName actionName instruction List.mem_cons_self) hs).mono
        (List.cons_subset_cons _ (List.nil_subset rest))
    rcases sendExpansions_cons arguments serviceName actionName instruction rest requests s with
      ⟨e, -, hout⟩ | ⟨requests', -, hout⟩
    · rw [hout]
      exact hfirst
    · rw [hout]
      apply hfirst.trans
      apply Requested.mono _ (List.subset_cons_self _ rest)
      exact ih requests' (fun sn an i hi => hmade sn an i (List.mem_cons_of_mem _ hi)) hfirst.recorded

theorem made_sendExpansions (arguments : RequestArguments) {requests requests' : ServiceRequests}
    (hmade : ∀ serviceName actionName instruction, (serviceName, actionName, instruction) ∈ L →
      instruction.MadeOf P serviceName actionName) (hs : s.Recorded)
    (hok : (s.sendExpansions arguments L requests).1 = .ok requests')
    (hmem : (serviceName, actionName, instruction) ∈ L) {value : Value} (hvalue : value ∈ instruction.values)
    {key : HashKey} (hhash : value.hashKey? = some key) :
    key ∈ (s.sendExpansions arguments L requests).2.made
      (cacheKey serviceName actionName instruction.field) := by
  induction L generalizing s requests with
  | nil => cases hmem
  | cons head rest ih =>
    obtain ⟨sn, an, i⟩ := head
    have hrest : ∀ sn an i, (sn, an, i) ∈ rest → i.MadeOf P sn an :=
      fun sn an i hi => hmade sn an i (List.mem_cons_of_mem _ hi)
    have hfirst := requested_sendExpansion arguments requests (hmade sn an i List.mem_cons_self) hs
    rcases sendExpansions_cons arguments sn an i rest requests s with ⟨e, -, hout⟩ | ⟨between, -, hout⟩
    · rw [hout] at hok
      cases hok
    · rw [hout] at hok ⊢
      rcases List.mem_cons.mp hmem with heq | hmem
      · cases heq
        apply (requested_sendExpansions arguments between hrest hfirst.recorded).made
        exact made_sendExpansion arguments requests hvalue hhash
      · exact ih hrest hfirst.recorded hok hmem

/-- The pairs of an object node and an identifier that a round has to request. -/
def Pending (s : ExpandState) (objectNode : ObjectNode) (value : Value) : Prop :=
  objectNode ∈ objectNodes s.objectsToExpand ∧ objectNode.identifier? s.assignments = some value

/-- The requests of a round are for instructions that are made of the pending pairs and hold them
all; without instructions nothing changes. -/
lemma request_cases (arguments : RequestArguments) (s : ExpandState) :
    (∃ e, s.request arguments = (.error e, s)) ∨
    ∃ pending, MadeOf s.Pending pending ∧
      (∀ objectNode value, s.Pending objectNode value →
        Holds pending objectNode.expansion.service objectNode.expansion.action value.hashKey?) ∧
      s.request arguments = s.sendExpansions arguments (instructions pending) [] := by
  unfold request
  cases hformulate : formulate s.assignments (objectNodes s.objectsToExpand) [] with
  | error e => exact .inl ⟨e, rfl⟩
  | ok pending =>
    obtain ⟨hmade, -, hall⟩ := formulate_eq_ok (P := s.Pending) hformulate
      (fun node hnode v hv => ⟨hnode, hv⟩) (by intro _ _ hmem; cases hmem)
    exact .inr ⟨pending, hmade, fun node v h => hall node h.1 v h.2, rfl⟩

/-- The requests that a round hands to the client. -/
def newRequests (arguments : RequestArguments) (s : ExpandState) : List SentExpansion :=
  (s.request arguments).2.sent.drop s.sent.length

/-- Nothing that is pending in a round is mixed up: the nodes for one action have one request field,
and where an identifier has been requested, or is pending, for two different things, these have
different cache keys. -/
structure Separated (s : ExpandState) : Prop where
  fields : ∀ node₁ value₁ node₂ value₂, s.Pending node₁ value₁ → s.Pending node₂ value₂ →
    node₁.expansion.service = node₂.expansion.service → node₁.expansion.action = node₂.expansion.action →
    node₁.expansion.requestField = node₂.expansion.requestField
  earlier : ∀ node value request, s.Pending node value → request ∈ s.sent →
    targetKey request.target = targetKey node.expansion.target →
    (∃ key ∈ request.keys, value.hashKey? = some key) → request.target = node.expansion.target
  pending : ∀ node₁ value₁ node₂ value₂, s.Pending node₁ value₁ → s.Pending node₂ value₂ →
    targetKey node₁.expansion.target = targetKey node₂.expansion.target →
    value₁.hashKey? = value₂.hashKey? → node₁.expansion.target = node₂.expansion.target

/-- A round that makes requests at all: its instructions and what has come of them. -/
structure Asked (arguments : RequestArguments) (pending : PendingRequests) (s : ExpandState) : Prop where
  madeOf : ∀ serviceName actionName instruction,
    (serviceName, actionName, instruction) ∈ instructions pending →
      instruction.MadeOf s.Pending serviceName actionName
  holds : ∀ objectNode value, s.Pending objectNode value →
    Holds pending objectNode.expansion.service objectNode.expansion.action value.hashKey?
  requested : Requested (instructions pending) s (s.request arguments).2
  sends : s.request arguments = s.sendExpansions arguments (instructions pending) []

lemma asked (arguments : RequestArguments) (hs : s.Recorded) :
    (∃ e, s.request arguments = (.error e, s)) ∨ ∃ pending, s.Asked arguments pending := by
  rcases request_cases arguments s with h | ⟨pending, hmade, hholds, hout⟩
  · exact .inl h
  · right
    have hmade' : ∀ sn an i, (sn, an, i) ∈ instructions pending → i.MadeOf s.Pending sn an := by
      intro sn an i hmem
      obtain ⟨actions, hactions, hi⟩ := mem_instructions.mp hmem
      exact hmade sn actions hactions an i hi
    refine ⟨pending, hmade', hholds, ?_, hout⟩
    rw [hout]
    exact requested_sendExpansions arguments [] hmade' hs

section asked
variable {arguments : RequestArguments} {pending : PendingRequests}

lemma Asked.sent_eq (h : s.Asked arguments pending) :
    (s.request arguments).2.sent = s.sent ++ s.newRequests arguments := by
  obtain ⟨new, hsent, -⟩ := h.requested.exists_new
  unfold newRequests
  rw [hsent, List.drop_left]

lemma Asked.for_of_new (h : s.Asked arguments pending) {request : SentExpansion}
    (hrequest : request ∈ s.newRequests arguments) : request.For (instructions pending) := by
  obtain ⟨new, hsent, hnew⟩ := h.requested.exists_new
  unfold newRequests at hrequest
  rw [hsent, List.drop_left] at hrequest
  exact hnew request hrequest

/-- All instructions for the action of a pending node have the request field of the node. -/
lemma Asked.field_eq (h : s.Asked arguments pending) (hsep : s.Separated) {node : ObjectNode}
    {value : Value} (hpending : s.Pending node value) {instruction : RequestInstruction}
    (hmem : (node.expansion.service, node.expansion.action, instruction) ∈ instructions pending) :
    instruction.field = node.expansion.requestField := by
  obtain ⟨node', value', hpending', hservice, haction, hfield⟩ := (h.madeOf _ _ _ hmem).field
  rw [← hfield]
  exact hsep.fields node' value' node value hpending' hpending hservice haction

/-- An identifier in a new request is that of a pending node for what the request is for. -/
lemma Asked.kept (h : s.Asked arguments pending) (hsep : s.Separated) {request : SentExpansion}
    (hrequest : request ∈ s.newRequests arguments) {key : HashKey} (hkey : key ∈ request.keys) :
    ∃ objectNode value, s.Pending objectNode value ∧ value.hashKey? = some key ∧
      objectNode.expansion.target = request.target := by
  obtain ⟨sn, an, i, hmem, htarget, -, hkeys⟩ := h.for_of_new hrequest
  obtain ⟨value, hvalue, hhash⟩ := hkeys key hkey
  obtain ⟨-, node, hpending, rfl, rfl⟩ := (h.madeOf sn an i hmem).values value hvalue
  refine ⟨node, value, hpending, hhash, ?_⟩
  rw [htarget, h.field_eq hsep hpending hmem]
  rfl

/-- After the requests have been made, the cache has all pending identifiers. -/
lemma Asked.made_of_pending (h : s.Asked arguments pending) (hsep : s.Separated) (hs : s.Recorded)
    {requests : ServiceRequests} (hok : (s.request arguments).1 = .ok requests) {node : ObjectNode}
    {value : Value} (hpending : s.Pending node value) :
    ∃ key, value.hashKey? = some key ∧
      key ∈ (s.request arguments).2.made (targetKey node.expansion.target) := by
  obtain ⟨actions, hactions, i, hi, hkey⟩ := h.holds node value hpending
  have hmem := mem_instructions.mpr ⟨actions, hactions, hi⟩
  obtain ⟨value', hvalue', hhash'⟩ := List.mem_map.mp hkey
  obtain ⟨key, hhash⟩ := Option.isSome_iff_exists.mp ((h.madeOf _ _ i hmem).values value' hvalue').1
  refine ⟨key, hhash' ▸ hhash, ?_⟩
  rw [h.sends] at hok ⊢
  have hdone := made_sendExpansions arguments h.madeOf hs hok hmem hvalue' hhash
  rwa [h.field_eq hsep hpending hmem] at hdone

/-- A pending identifier that was not requested before is in a new request. -/
lemma Asked.sent (h : s.Asked arguments pending) (hsep : s.Separated) (hs : s.Recorded)
    {requests : ServiceRequests} (hok : (s.request arguments).1 = .ok requests) {node : ObjectNode}
    {value : Value} (hpending : s.Pending node value) :
    ∃ key, value.hashKey? = some key ∧ ((node.expansion.target, key) ∉ s.sentPairs →
      ∃ request ∈ s.newRequests arguments, request.target = node.expansion.target ∧ key ∈ request.keys) := by
  obtain ⟨key, hhash, hdone⟩ := h.made_of_pending hsep hs hok hpending
  refine ⟨key, hhash, ?_⟩
  intro hnot
  -- the request that put the identifier into the cache is for the same thing as the node
  obtain ⟨request, hrequest, hcache, hmem⟩ := h.requested.recorded.sent _ key hdone
  rw [h.sent_eq] at hrequest
  rcases List.mem_append.mp hrequest with hold | hnew
  · have htarget := hsep.earlier node value request hpending hold hcache ⟨key, hmem, hhash⟩
    apply absurd _ hnot
    exact List.mem_flatMap.mpr ⟨request, hold, List.mem_map.mpr ⟨key, hmem, by rw [htarget]⟩⟩
  · refine ⟨request, hnew, ?_, hmem⟩
    obtain ⟨node', value', hpending', hhash', htarget'⟩ := h.kept hsep hnew hmem
    rw [← htarget'] at hcache ⊢
    exact hsep.pending node' value' node value hpending' hpending hcache (hhash'.trans hhash.symm)

end asked

end requested

end ExpandState
end PySOA
