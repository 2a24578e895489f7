import PySOA.Client.ExpansionRouting
import PySOA.Client.Resolving

/-! The rounds of an expansion: each identifier is requested at most once, all requests are for
nodes of the trees, and the loop ends. -/
namespace PySOA

/-- An expansion node and the nodes below it are among the given ones. -/
def KnownNode (labels : List ExpansionNode) (node : ExpansionNode × Forest ExpansionNode) : Prop :=
  node.1 ∈ labels ∧ node.2.labels ⊆ labels

def WorkItem.Known (labels : List ExpansionNode) (item : WorkItem) : Prop :=
  ∀ node ∈ item.expansions, KnownNode labels node

def ObjectNode.Known (labels : List ExpansionNode) (objectNode : ObjectNode) : Prop :=
  KnownNode labels (objectNode.expansion, objectNode.expansions)

/-- The nodes of all trees. -/
def treeNodes (expansionTrees : List TypeNode) : List ExpansionNode :=
  expansionTrees.flatMap fun typeNode => typeNode.expansions.labels

lemma knownNode_of_mem_nodes {labels : List ExpansionNode} {expansions : Forest ExpansionNode}
    (h : expansions.labels ⊆ labels) {node : ExpansionNode × Forest ExpansionNode}
    (hnode : node ∈ expansions.nodes) : KnownNode labels node := by
  induction expansions with
  | nil => cases hnode
  | cons label children siblings _ ih =>
    have hsub : children.labels ⊆ labels ∧ siblings.labels ⊆ labels := by
      constructor
      · intro l hl
        exact h (List.mem_cons_of_mem _ (List.mem_append_left _ hl))
      · intro l hl
        exact h (List.mem_cons_of_mem _ (List.mem_append_right _ hl))
    rcases List.mem_cons.mp hnode with rfl | hnode
    · exact ⟨h List.mem_cons_self, hsub.1⟩
    · exact ih hsub.2 hnode

lemma known_expansionObjects {labels : List ExpansionNode} {expansions : Forest ExpansionNode}
    (h : expansions.labels ⊆ labels) (bodyNumber : ℕ) (type : Option String) (body : Value) :
    ∀ item ∈ expansionObjects bodyNumber type expansions body, item.Known labels := by
  intro item hitem
  obtain ⟨⟨path, entries⟩, -, rfl⟩ := List.mem_map.mp hitem
  intro node hnode
  exact knownNode_of_mem_nodes h hnode

lemma labels_subset_treeNodes {expansionTrees : List TypeNode} {typeNode : TypeNode}
    (h : typeNode ∈ expansionTrees) : typeNode.expansions.labels ⊆ treeNodes expansionTrees :=
  fun _ hl => List.mem_flatMap.mpr ⟨typeNode, h, hl⟩

lemma known_extractCandidateObjects (actions : List ActionResponse) (expansionTrees : List TypeNode) :
    ∀ item ∈ extractCandidateObjects actions expansionTrees, item.Known (treeNodes expansionTrees) := by
  intro item hitem
  obtain ⟨typeNode, htype, hitem⟩ := List.mem_flatMap.mp hitem
  obtain ⟨⟨action, i⟩, -, hitem⟩ := List.mem_flatMap.mp hitem
  exact known_expansionObjects (labels_subset_treeNodes htype) i _ _ item hitem

lemma known_objectNodes {labels : List ExpansionNode} {items : List WorkItem}
    (h : ∀ item ∈ items, item.Known labels) : ∀ node ∈ objectNodes items, node.Known labels := by
  intro node hnode
  obtain ⟨item, hitem, hnode⟩ := List.mem_flatMap.mp hnode
  obtain ⟨⟨expansion, expansions⟩, hmem, rfl⟩ := List.mem_map.mp hnode
  exact h item hitem _ hmem

namespace ExpandState

/-- What receiving the responses of a round keeps: the requests that have been made, the contexts,
and that the work is about known nodes. -/
structure Received (labels : List ExpansionNode) (s s' : ExpandState) : Prop where
  sent : s'.sent = s.sent
  requestsMade : s'.requestsMade = s.requestsMade
  contexts : s'.context = s.context ∧ s'.client.context = s.client.context
  known : ∀ item ∈ s'.objectsToExpand, item.Known labels

section received
variable {labels : List ExpansionNode} {s s' s'' : ExpandState}

/-- Changing only what is about errors, the client or the bodies keeps it. -/
lemma Received.ite (h : Received labels s s') (p : Prop) [Decidable p] {s'' : ExpandState}
    (hsent : s''.sent = s'.sent) (hmade : s''.requestsMade = s'.requestsMade)
    (hcontexts : s''.context = s'.context ∧ s''.client.context = s'.client.context)
    (hwork : s''.objectsToExpand = s'.objectsToExpand) : Received labels s (if p then s'' else s') := by
  split_ifs
  · exact ⟨hsent.trans h.sent, hmade.trans h.requestsMade,
      ⟨hcontexts.1.trans h.contexts.1, hcontexts.2.trans h.contexts.2⟩, hwork ▸ h.known⟩
  · exact h

lemma known_nested {objectNode : ObjectNode} (hnode : objectNode.Known labels) (bodyNumber : ℕ)
    (body : Value) : ∀ item ∈ (match objectNode.expansions with
      | .nil => []
      | .cons .. => expansionObjects bodyNumber objectNode.expansion.type objectNode.expansions body),
      item.Known labels := by
  cases hexp : objectNode.expansions with
  | nil =>
    intro item hitem
    cases hitem
  | cons label children siblings =>
    dsimp only
    rw [← hexp]
    exact known_expansionObjects hnode.2 bodyNumber _ body

lemma received_assign (h : Received labels s s') {bodyNumber : ℕ} {objectNode : ObjectNode}
    {body : Value} (hnode : objectNode.Known labels)
    (hout : s'.assign bodyNumber objectNode body = .ok s'') : Received labels s s'' := by
  have hnested := known_nested hnode bodyNumber body
  unfold assign at hout
  split at hout
  · split at hout
    · cases hout
    · split at hout
      · cases hout
      · split at hout
        · cases hout
        · cases hout
          refine ⟨h.sent, h.requestsMade, h.contexts, ?_⟩
          intro item hitem
          exact (List.mem_append.mp hitem).elim (h.known item) (hnested item)
  · cases hout

lemma received_expandObjectNodes {bodyNumber : ℕ} {response : JobResponse} {nodes : List ObjectNode}
    {actionResponse : Option ActionResponse} {out : Option ActionResponse × ExpandState}
    (h : Received labels s s') (hnodes : ∀ node ∈ nodes, node.Known labels)
    (hout : s'.expandObjectNodes bodyNumber response nodes actionResponse = .ok out) :
    Received labels s out.2 := by
  induction nodes generalizing s' actionResponse with
  | nil =>
    cases hout
    exact h
  | cons node rest ih =>
    have hrest : ∀ n ∈ rest, n.Known labels := fun n hn => hnodes n (List.mem_cons_of_mem _ hn)
    unfold expandObjectNodes at hout
    by_cases herrors : (!response.errors.isEmpty) = true
    · rw [if_pos herrors] at hout
      apply ih _ hrest hout
      exact h.ite _ rfl rfl ⟨rfl, rfl⟩ rfl
    · rw [if_neg herrors] at hout
      cases hactions : response.actions with
      | nil =>
        rw [hactions] at hout
        cases hout
      | cons action actions =>
        rw [hactions] at hout
        dsimp only at hout
        generalize hnext : (if (!action.errors.isEmpty && node.expansion.raiseActionErrors) = true then
          { s' with actionErrors := s'.actionErrors ++ [action] } else s') = next at hout
        have hs' : Received labels s next := by
          rw [← hnext]
          exact h.ite _ rfl rfl ⟨rfl, rfl⟩ rfl
        by_cases htruthy : action.body.truthy = true
        · rw [if_pos htruthy] at hout
          cases hassign : next.assign bodyNumber node action.body with
          | error e =>
            rw [hassign] at hout
            cases hout
          | ok s'' =>
            rw [hassign] at hout
            exact ih (received_assign hs' (hnodes node List.mem_cons_self) hassign) hrest hout
        · rw [if_neg htruthy] at hout
          exact ih hs' hrest hout

/-- The body of the loop over the responses of a service, for requests that are about known nodes. -/
lemma received_receiveExpansion {expansionTrees : List TypeNode}
    (htrees : treeNodes expansionTrees ⊆ labels) {w w' : List (ℤ × List ObjectNode) × ExpandState}
    {requestId : Value} {response : JobResponse}
    (h : Received labels s w.2 ∧ ∀ request ∈ w.1, ∀ node ∈ request.2, node.Known labels)
    (hout : receiveExpansion expansionTrees w requestId response = .ok w') :
    Received labels s w'.2 ∧ ∀ request ∈ w'.1, ∀ node ∈ request.2, node.Known labels := by
  unfold receiveExpansion at hout
  cases hfind : w.1.find? (fun request => requestId.eqInt request.1) with
  | none =>
    rw [hfind] at hout
    cases hout
  | some request =>
    obtain ⟨sentId, nodes⟩ := request
    simp only [hfind] at hout
    have hnodes := h.2 _ (List.mem_of_find?_eq_some hfind)
    cases hexpand : w.2.expandObjectNodes w.2.bodies response nodes none with
    | error e =>
      rw [hexpand] at hout
      cases hout
    | ok out =>
      obtain ⟨actionResponse, s₁⟩ := out
      have hs₁ := received_expandObjectNodes h.1 hnodes hexpand
      have hrequests : ∀ request ∈ w.1.filter (fun request => request.1 ≠ sentId),
          ∀ node ∈ request.2, node.Known labels :=
        fun request hrequest => h.2 request (List.mem_of_mem_filter hrequest)
      rw [hexpand] at hout
      cases actionResponse with
      | none =>
        cases hout
        exact ⟨⟨hs₁.sent, hs₁.requestsMade, hs₁.contexts, hs₁.known⟩, hrequests⟩
      | some action =>
        dsimp only at hout
        split_ifs at hout
        · cases hout
          refine ⟨⟨hs₁.sent, hs₁.requestsMade, hs₁.contexts, ?_⟩, hrequests⟩
          intro item hitem
          rcases List.mem_append.mp hitem with hitem | hitem
          · exact hs₁.known item hitem
          · obtain ⟨typeNode, htype, hitem⟩ := List.mem_flatMap.mp hitem
            exact known_expansionObjects (List.Subset.trans (labels_subset_treeNodes htype) htrees) _ _ _ item hitem
        · cases hout
          exact ⟨⟨hs₁.sent, hs₁.requestsMade, hs₁.contexts, hs₁.known⟩, hrequests⟩

/-- Receiving all responses of a round. -/
theorem received_receiveExpansions {expansionTrees : List TypeNode}
    (htrees : treeNodes expansionTrees ⊆ labels) {requests : ServiceRequests}
    (hrequests : ∀ service ∈ requests, ∀ request ∈ service.2, ∀ node ∈ request.2, node.Known labels)
    (h : Received labels s s') :
    Received labels s (s'.receiveExpansions expansionTrees requests).2 := by
  induction requests generalizing s' with
  | nil => exact h
  | cons service rest ih =>
    obtain ⟨serviceName, sent⟩ := service
    have hbody : ∀ (w : List (ℤ × List ObjectNode) × ExpandState) requestId response w',
        (Received labels s w.2 ∧ ∀ request ∈ w.1, ∀ node ∈ request.2, node.Known labels) →
        receiveExpansion expansionTrees w requestId response = .ok w' →
        Received labels s w'.2 ∧ ∀ request ∈ w'.1, ∀ node ∈ request.2, node.Known labels :=
      fun _ _ _ _ hw hout => received_receiveExpansion htrees hw hout
    have hloop := s'.client.getAllResponses_preserves serviceName hbody (s := (sent, s'))
      ⟨h, hrequests (serviceName, sent) List.mem_cons_self⟩
    have hclient := s'.client.context_getAllResponses serviceName (receiveExpansion expansionTrees) (sent, s')
    unfold receiveExpansions
    cases hout : s'.client.getAllResponses serviceName (receiveExpansion expansionTrees) (sent, s') with
    | mk result out =>
      obtain ⟨⟨left, s₁⟩, client⟩ := out
      rw [hout] at hloop hclient
      have hs₁ : Received labels s { s₁ with client } :=
        ⟨hloop.1.sent, hloop.1.requestsMade, ⟨hloop.1.contexts.1, hclient.trans h.contexts.2⟩,
          hloop.1.known⟩
      cases result with
      | error e => exact hs₁
      | ok _ => exact ih (fun service hservice => hrequests service (List.mem_cons_of_mem _ hservice)) hs₁

end received

section rounds
variable {P : ObjectNode → Prop} {L : List (String × String × RequestInstruction)} {s : ExpandState}
  {arguments : RequestArguments}

/-- The objects that are kept for a request are those of its instruction. -/
lemma objectNodes_sendExpansions {requests requests' : ServiceRequests}
    (hL : ∀ serviceName actionName instruction, (serviceName, actionName, instruction) ∈ L →
      ∀ node ∈ instruction.objectNodes, P node)
    (hrequests : ∀ service ∈ requests, ∀ request ∈ service.2, ∀ node ∈ request.2, P node)
    (hok : (s.sendExpansions arguments L requests).1 = .ok requests') :
    ∀ service ∈ requests', ∀ request ∈ service.2, ∀ node ∈ request.2, P node := by
  induction L generalizing s requests with
  | nil =>
    cases hok
    exact hrequests
  | cons head rest ih =>
    obtain ⟨sn, an, i⟩ := head
    have hrest : ∀ sn an i, (sn, an, i) ∈ rest → ∀ node ∈ i.objectNodes, P node :=
      fun sn an i hi => hL sn an i (List.mem_cons_of_mem _ hi)
    have hi := hL sn an i List.mem_cons_self
    rcases sendExpansions_cons arguments sn an i rest requests s with ⟨e, -, hout⟩ | ⟨between, hsent, hout⟩
    · rw [hout] at hok
      cases hok
    · rw [hout] at hok
      apply ih hrest _ hok
      rcases sendExpansion_cases arguments sn an i requests s with
        ⟨hskip, -, -⟩ | ⟨-, -, ⟨e, herror⟩ | ⟨requestId, hid⟩⟩
      · rw [hskip] at hsent
        cases hsent
        exact hrequests
      · rw [herror] at hsent
        cases hsent
      · rw [hid] at hsent
        cases hsent
        have hnew : ∀ sent : List (ℤ × List ObjectNode),
            (∀ request ∈ sent, ∀ node ∈ request.2, P node) →
            ∀ request ∈ sent ++ [(requestId, i.objectNodes)], ∀ node ∈ request.2, P node := by
          intro sent hsent request hrequest
          rcases List.mem_append.mp hrequest with hrequest | hrequest
          · exact hsent request hrequest
          · rw [List.mem_singleton.mp hrequest]
            exact hi
        intro service hservice
        rcases Assoc.mem_upsert hservice with hservice | rfl | ⟨b, hb, rfl⟩
        · exact hrequests service hservice
        · exact hnew [] (by simp)
        · exact hnew b (hrequests _ hb)

/-- Responses are expected only if a request was made. -/
lemma eq_or_sent_ne_of_sendExpansions {requests requests' : ServiceRequests}
    (hmade : ∀ serviceName actionName instruction, (serviceName, actionName, instruction) ∈ L →
      instruction.MadeOf s.Pending serviceName actionName)
    {s' : ExpandState} (hs : s'.Recorded)
    (hok : (s'.sendExpansions arguments L requests).1 = .ok requests') :
    requests' = requests ∨ (s'.sendExpansions arguments L requests).2.sent ≠ s'.sent := by
  induction L generalizing s' requests with
  | nil =>
    cases hok
    exact .inl rfl
  | cons head rest ih =>
    obtain ⟨sn, an, i⟩ := head
    have hrest : ∀ sn an i, (sn, an, i) ∈ rest → i.MadeOf s.Pending sn an :=
      fun sn an i hi => hmade sn an i (List.mem_cons_of_mem _ hi)
    have hfirst := requested_sendExpansion arguments requests (hmade sn an i List.mem_cons_self) hs
    rcases sendExpansions_cons arguments sn an i rest requests s' with ⟨e, -, hout⟩ | ⟨between, hsent, hout⟩
    · rw [hout] at hok
      cases hok
    · rw [hout] at hok ⊢
      rcases sendExpansion_cases arguments sn an i requests s' with
        ⟨hskip, -, -⟩ | ⟨-, ⟨request, hsends⟩, -⟩
      · rw [hskip] at hsent hok hfirst ⊢
        cases hsent
        exact ih hrest hs hok
      · right
        obtain ⟨new, hnew, -⟩ := (requested_sendExpansions arguments between hrest hfirst.recorded).exists_new
        rw [hnew, hsends.sent, List.append_assoc]
        intro heq
        have := congrArg List.length heq
        simp at this

lemma Recorded.congr {s' : ExpandState} (h : s.Recorded) (hsent : s'.sent = s.sent)
    (hmade : s'.requestsMade = s.requestsMade) : s'.Recorded where
  cached := by
    intro request hrequest
    unfold made
    rw [hmade]
    exact h.cached request (hsent ▸ hrequest)
  sent := by
    intro cacheKey key hkey
    unfold made at hkey
    rw [hmade] at hkey
    rw [hsent]
    exact h.sent cacheKey key hkey
  nodup := by
    unfold sentPairs
    rw [hsent]
    exact h.nodup
  faithful := by
    rw [hsent]
    exact h.faithful

end rounds

/-- What holds between the rounds: the cache is right, and all work is about nodes of the trees. -/
structure Sound (expansionTrees : List TypeNode) (s : ExpandState) : Prop where
  recorded : s.Recorded
  known : ∀ item ∈ s.objectsToExpand, item.Known (treeNodes expansionTrees)

lemma sound_initial (client : Client) (context : Option Context) (actions : List ActionResponse)
    (expansionTrees : List TypeNode) : (initial client context actions expansionTrees).Sound expansionTrees where
  recorded :=
    { cached := by
        intro request h
        cases h
      sent := by
        intro cacheKey key h
        cases h
      nodup := List.nodup_nil
      faithful := by
        intro request h
        cases h }
  known := known_extractCandidateObjects actions expansionTrees

section sound
variable {arguments : RequestArguments} {expansionTrees : List TypeNode} {s : ExpandState}

lemma Sound.recorded_request (h : s.Sound expansionTrees) (arguments : RequestArguments) :
    (s.request arguments).2.Recorded ∧
      ∀ item ∈ (s.request arguments).2.objectsToExpand, item.Known (treeNodes expansionTrees) := by
  rcases asked arguments h.recorded with ⟨e, hout⟩ | ⟨pending, hasked⟩
  · rw [hout]
    exact ⟨h.recorded, h.known⟩
  · refine ⟨hasked.requested.recorded, ?_⟩
    rw [hasked.requested.objectsToExpand]
    exact h.known

/-- The requests whose responses a round receives. -/
lemma Sound.known_requests (h : s.Sound expansionTrees) {requests : ServiceRequests}
    (hok : (s.request arguments).1 = .ok requests) :
    (∀ service ∈ requests, ∀ request ∈ service.2, ∀ node ∈ request.2,
      node.Known (treeNodes expansionTrees)) ∧
      (requests = [] ∨ (s.request arguments).2.sent ≠ s.sent) := by
  rcases asked arguments h.recorded with ⟨e, hout⟩ | ⟨pending, hasked⟩
  · rw [hout] at hok
    cases hok
  · rw [hasked.sends] at hok ⊢
    constructor
    · refine objectNodes_sendExpansions (P := fun node => node.Known (treeNodes expansionTrees)) ?_
        (by simp) hok
      intro sn an i hi node hnode
      obtain ⟨value, hpending⟩ := (hasked.madeOf sn an i hi).objectNodes node hnode
      exact known_objectNodes h.known node hpending.1
    · exact eq_or_sent_ne_of_sendExpansions hasked.madeOf h.recorded hok

/-- After the requests of a round its responses are received, and no request is made. -/
theorem Sound.received_round (h : s.Sound expansionTrees) (arguments : RequestArguments) :
    Received (treeNodes expansionTrees) (s.request arguments).2 (s.round arguments expansionTrees).2 := by
  obtain ⟨-, hknown⟩ := h.recorded_request arguments
  unfold round
  cases hrequest : s.request arguments with
  | mk result s₁ =>
    rw [hrequest] at hknown
    cases result with
    | error e => exact ⟨rfl, rfl, ⟨rfl, rfl⟩, hknown⟩
    | ok requests =>
      obtain ⟨hnodes, -⟩ := h.known_requests (congrArg Prod.fst hrequest)
      have hstart : Received (treeNodes expansionTrees) s₁ { s₁ with objectsToExpand := [] } := by
        refine ⟨rfl, rfl, ⟨rfl, rfl⟩, ?_⟩
        intro item hitem
        cases hitem
      have hreceived := received_receiveExpansions (List.Subset.refl (treeNodes expansionTrees)) hnodes hstart
      dsimp only
      cases hreceive : receiveExpansions expansionTrees requests { s₁ with objectsToExpand := [] } with
      | mk result s₂ =>
        rw [hreceive] at hreceived
        cases result with
        | error e => exact hreceived
        | ok _ =>
          dsimp only
          split_ifs <;> exact hreceived

theorem Sound.round (h : s.Sound expansionTrees) (arguments : RequestArguments) :
    (s.round arguments expansionTrees).2.Sound expansionTrees := by
  have hreceived := h.received_round arguments
  exact ⟨(h.recorded_request arguments).1.congr hreceived.sent hreceived.requestsMade, hreceived.known⟩

lemma sent_request (h : s.Recorded) (arguments : RequestArguments) :
    (s.request arguments).2.sent = s.sent ++ s.newRequests arguments := by
  rcases asked arguments h with ⟨e, hout⟩ | ⟨pending, hasked⟩
  · unfold newRequests
    rw [hout, List.drop_length, List.append_nil]
  · exact hasked.sent_eq

/-- The identifiers that have been requested after a round. -/
lemma Sound.sentPairs_round (h : s.Sound expansionTrees) (arguments : RequestArguments) :
    (s.round arguments expansionTrees).2.sentPairs =
      s.sentPairs ++ (s.newRequests arguments).flatMap SentExpansion.pairs := by
  unfold sentPairs
  rw [(h.received_round arguments).sent, sent_request h.recorded, List.flatMap_append]

/-- A round that leaves work has requested something new. -/
theorem Sound.progress (h : s.Sound expansionTrees) (arguments : RequestArguments)
    (hok : (s.round arguments expansionTrees).1 = .ok ()) :
    (s.round arguments expansionTrees).2.objectsToExpand = [] ∨
      s.sentPairs.length < (s.round arguments expansionTrees).2.sentPairs.length := by
  have hsent := sent_request h.recorded arguments
  cases hrequest : s.request arguments with
  | mk result s₁ =>
    cases result with
    | error e =>
      unfold ExpandState.round at hok
      rw [hrequest] at hok
      cases hok
    | ok requests =>
      obtain ⟨-, rfl | hne⟩ := h.known_requests (congrArg Prod.fst hrequest)
      · left
        unfold ExpandState.round
        rw [hrequest]
        simp only [receiveExpansions]
        split_ifs <;> rfl
      · right
        have hnew : s.newRequests arguments ≠ [] := by
          intro hnil
          rw [hnil, List.append_nil] at hsent
          exact hne hsent
        obtain ⟨request, hmem⟩ := List.exists_mem_of_ne_nil _ hnew
        have hkeys : request.keys ≠ [] := by
          rcases asked arguments h.recorded with ⟨e, hout⟩ | ⟨pending, hasked⟩
          · rw [hout] at hrequest
            cases hrequest
          · obtain ⟨-, -, -, -, -, hkeys, -⟩ := hasked.for_of_new hmem
            exact hkeys
        rw [h.sentPairs_round, List.length_append]
        apply Nat.lt_add_of_pos_right
        apply List.length_pos_of_ne_nil
        obtain ⟨key, hkey⟩ := List.exists_mem_of_ne_nil _ hkeys
        apply List.ne_nil_of_mem (a := (request.target, key))
        exact List.mem_flatMap.mpr ⟨request, hmem, List.mem_map_of_mem hkey⟩

/-- The triples of a service, an action and a request field that the nodes of the trees have. -/
def targets (expansionTrees : List TypeNode) : Finset (String × String × String) :=
  ((treeNodes expansionTrees).map ExpansionNode.target).toFinset

/-- A new request is for what a node of the trees is for, and its identifiers are pending. -/
lemma Sound.pair_of_new (h : s.Sound expansionTrees) {request : SentExpansion}
    (hrequest : request ∈ s.newRequests arguments) {key : HashKey} (hkey : key ∈ request.keys) :
    request.target ∈ targets expansionTrees ∧
      ∃ node value, s.Pending node value ∧ value.hashKey? = some key := by
  rcases asked arguments h.recorded with ⟨e, hout⟩ | ⟨pending, hasked⟩
  · unfold newRequests at hrequest
    rw [hout, List.drop_length] at hrequest
    cases hrequest
  · obtain ⟨sn, an, i, hmem, htarget, -, hkeys⟩ := hasked.for_of_new hrequest
    have hmade := hasked.madeOf sn an i hmem
    constructor
    · obtain ⟨node, value, hpending, rfl, rfl, hfield⟩ := hmade.field
      rw [htarget, ← hfield]
      have hnode := known_objectNodes h.known node hpending.1
      exact List.mem_toFinset.mpr (List.mem_map_of_mem hnode.1)
    · obtain ⟨value, hvalue, hhash⟩ := hkeys key hkey
      obtain ⟨-, node, hpending, -⟩ := hmade.values value hvalue
      exact ⟨node, value, hpending, hhash⟩

end sound

/-- The states between the rounds of a run. -/
inductive Reaches (arguments : RequestArguments) (expansionTrees : List TypeNode) (s : ExpandState) :
    ExpandState → Prop
  | refl : Reaches arguments expansionTrees s s
  | round {s' s''} (h : Reaches arguments expansionTrees s s') (hwork : s'.objectsToExpand ≠ [])
      (hround : s'.round arguments expansionTrees = (.ok (), s'')) : Reaches arguments expansionTrees s s''

section run
variable {arguments : RequestArguments} {expansionTrees : List TypeNode} {s s' : ExpandState}

lemma Reaches.sound (h : Reaches arguments expansionTrees s s') (hs : s.Sound expansionTrees) :
    s'.Sound expansionTrees := by
  induction h with
  | refl => exact hs
  | round _ _ hround ih =>
    have hnext := ih.round arguments
    rwa [hround] at hnext

lemma Reaches.head {s₁ : ExpandState} (hwork : s.objectsToExpand ≠ [])
    (hround : s.round arguments expansionTrees = (.ok (), s₁)) (h : Reaches arguments expansionTrees s₁ s') :
    Reaches arguments expansionTrees s s' := by
  induction h with
  | refl => exact .round .refl hwork hround
  | round _ hwork' hround' ih => exact .round ih hwork' hround'

/-- Only the given identifiers are ever pending. -/
def Bounded (arguments : RequestArguments) (expansionTrees : List TypeNode) (V : Finset HashKey)
    (s : ExpandState) : Prop :=
  ∀ s', Reaches arguments expansionTrees s s' → ∀ node value, s'.Pending node value →
    ∀ key, value.hashKey? = some key → key ∈ V

/-- The keys of the identifiers that are pending. -/
def pendingKeys (s : ExpandState) : List HashKey :=
  (objectNodes s.objectsToExpand).filterMap fun node =>
    (node.identifier? s.assignments).bind Value.hashKey?

lemma Pending.mem_pendingKeys {node : ObjectNode} {value : Value} (h : s.Pending node value) {key : HashKey}
    (hhash : value.hashKey? = some key) : key ∈ s.pendingKeys :=
  List.mem_filterMap.mpr ⟨node, h.1, by rw [h.2]; exact hhash⟩

/-- A run has no round, or it goes on after the first. -/
lemma Reaches.cases_head (h : Reaches arguments expansionTrees s s') :
    s' = s ∨ ∃ s₁, s.objectsToExpand ≠ [] ∧ s.round arguments expansionTrees = (.ok (), s₁) ∧
      Reaches arguments expansionTrees s₁ s' := by
  induction h with
  | refl => exact .inl rfl
  | round _ hwork hround ih =>
    rcases ih with rfl | ⟨s₁, hfirst, hround₁, hrest⟩
    · exact .inr ⟨_, hwork, hround, .refl⟩
    · exact .inr ⟨s₁, hfirst, hround₁, .round hrest hwork hround⟩

/-- The identifiers that are pending now and those of the rest of the run. -/
lemma bounded_of_round {V : Finset HashKey} (hkeys : ∀ key ∈ s.pendingKeys, key ∈ V)
    (hrest : s.objectsToExpand ≠ [] →
      Bounded arguments expansionTrees V (s.round arguments expansionTrees).2) :
    Bounded arguments expansionTrees V s := by
  intro s' hreach node value hpending key hhash
  rcases hreach.cases_head with rfl | ⟨s₁, hwork, hround, hreach⟩
  · exact hkeys key (hpending.mem_pendingKeys hhash)
  · have hbounded := hrest hwork
    rw [hround] at hbounded
    exact hbounded s' hreach node value hpending key hhash

/-- All that has been requested is for a node of the trees, with one of the given identifiers. -/
def Within (expansionTrees : List TypeNode) (V : Finset HashKey) (s : ExpandState) : Prop :=
  ∀ pair ∈ s.sentPairs, pair ∈ targets expansionTrees ×ˢ V

lemma Within.round {V : Finset HashKey} (hw : s.Within expansionTrees V) (h : s.Sound expansionTrees)
    (hV : Bounded arguments expansionTrees V s) :
    (s.round arguments expansionTrees).2.Within expansionTrees V := by
  intro pair hpair
  rw [h.sentPairs_round] at hpair
  rcases List.mem_append.mp hpair with hpair | hpair
  · exact hw pair hpair
  · obtain ⟨request, hrequest, hpair⟩ := List.mem_flatMap.mp hpair
    obtain ⟨key, hkey, rfl⟩ := List.mem_map.mp hpair
    obtain ⟨htarget, node, value, hpending, hhash⟩ := h.pair_of_new hrequest hkey
    exact Finset.mk_mem_product htarget (hV s .refl node value hpending key hhash)

/-- No more can be requested than there are triples and identifiers. -/
lemma Within.length_le {V : Finset HashKey} (hw : s.Within expansionTrees V) (hs : s.Recorded) :
    s.sentPairs.length ≤ (targets expansionTrees).card * V.card := by
  rw [← List.toFinset_card_of_nodup hs.nodup, ← Finset.card_product]
  apply Finset.card_le_card
  intro pair hpair
  exact hw pair (List.mem_toFinset.mp hpair)

/-- The rounds that are left are at most one more than the requests that are left. -/
theorem expandObjects_of_bounded {V : Finset HashKey} (hV : Bounded arguments expansionTrees V s)
    (h : s.Sound expansionTrees) (hw : s.Within expansionTrees V) {fuel : ℕ}
    (hfuel : (targets expansionTrees).card * V.card + 1 ≤ fuel + s.sentPairs.length) :
    ∃ out, expandObjects arguments expansionTrees fuel s = some out := by
  induction fuel generalizing s with
  | zero =>
    have := hw.length_le h.recorded
    omega
  | succ fuel ih =>
    unfold expandObjects
    cases hwork : s.objectsToExpand with
    | nil => exact ⟨_, rfl⟩
    | cons item items =>
      have hne : s.objectsToExpand ≠ [] := by simp [hwork]
      have hnext := h.round arguments
      have hwithin := hw.round h hV
      have hprogress := h.progress arguments
      dsimp only
      cases hround : s.round arguments expansionTrees with
      | mk result s₁ =>
        rw [hround] at hnext hwithin hprogress
        cases result with
        | error e => exact ⟨_, rfl⟩
        | ok _ =>
          rcases hprogress rfl with hnil | hlt
          · unfold expandObjects
            dsimp only at hnil ⊢
            rw [hnil]
            exact ⟨_, rfl⟩
          · dsimp only at hlt ⊢
            refine ih (s := s₁) ?_ hnext hwithin (by omega)
            intro s' hreach
            exact hV s' (hreach.head hne hround)

lemma expandObjects_sound (h : s.Sound expansionTrees) {fuel : ℕ} {result : Except Exc Unit}
    (hout : expandObjects arguments expansionTrees fuel s = some (result, s')) : s'.Sound expansionTrees := by
  induction fuel generalizing s with
  | zero =>
    unfold expandObjects at hout
    split at hout
    · cases hout
      exact h
    · cases hout
  | succ fuel ih =>
    have hnext := h.round arguments
    unfold expandObjects at hout
    split at hout
    · cases hout
      exact h
    · dsimp only at hout
      split at hout
      · next hround =>
        cases hout
        rwa [hround] at hnext
      · next hround =>
        rw [hround] at hnext
        exact ih hnext hout

end run

/-- **Expansion requests are made at most once, and the loop ends.** In no run is the same
identifier requested twice under the same field of the same action, not even in a last round that
raises; and if all identifiers that ever are pending are among finitely many, the loop ends after at
most one round more than there are pairs of a triple and an identifier. -/
theorem nodup_sentPairs_and_expandObjects_ends (client : Client) (context : Option Context)
    (actions : List ActionResponse) (expansionTrees : List TypeNode) (arguments : RequestArguments) :
    (∀ s, Reaches arguments expansionTrees (initial client context actions expansionTrees) s →
      (s.round arguments expansionTrees).2.sentPairs.Nodup ∧
        ∀ request ∈ (s.round arguments expansionTrees).2.sent, request.jobRequest.actions =
          [⟨.text request.actionName, .dict [(.text request.field, .list request.values)]⟩]) ∧
    ∀ V : Finset HashKey,
      Bounded arguments expansionTrees V (initial client context actions expansionTrees) →
      ∃ out, expandObjects arguments expansionTrees ((targets expansionTrees).card * V.card + 1)
        (initial client context actions expansionTrees) = some out := by
  have hinitial := sound_initial client context actions expansionTrees
  constructor
  · intro s hreach
    have hrecorded := ((hreach.sound hinitial).round arguments).recorded
    exact ⟨hrecorded.nodup, hrecorded.faithful⟩
  · intro V hV
    apply expandObjects_of_bounded hV hinitial
    · intro pair hpair
      cases hpair
    · exact Nat.le_add_right _ _

/-! Data with a cycle: the author of a post, whose latest post this is. -/

def feedNode (name action sourceField type : String) : ExpansionNode where
  type := some type
  name
  sourceField
  destinationField := name
  service := "feed"
  action
  requestField := "ids"
  responseField := "found"
  raiseActionErrors := false

def feedTrees : List TypeNode :=
  [⟨"post", .cons (feedNode "author" "get_users" "author_id" "user") .nil .nil⟩,
    ⟨"user", .cons (feedNode "latest" "get_posts" "latest_id" "post") .nil .nil⟩]

def feedPost : Value := .dict [(.text "_type", .text "post"), (.text "author_id", .text "eve")]

def feedUser : Value := .dict [(.text "_type", .text "user"), (.text "latest_id", .text "first")]

/-- The envelope of the response with the object that has the identifier. -/
def feedEnvelope (requestId : ℤ) (action identifier : String) (object : Value) : Value :=
  Arrival.envelope requestId [(.text "__expiry__", .float 60)]
    (.dict [(.text "errors", .list []), (.text "context", .dict []),
      (.text "actions", .list [.dict [(.text "action", .text action), (.text "errors", .list []),
        (.text "body", .dict [(.text "found", .dict [(.text identifier, object)])])]])])

def feedEnvelopes : List Value :=
  [feedEnvelope 0 "get_users" "eve" feedUser, feedEnvelope 1 "get_posts" "first" feedPost]

/-- A client that finds the responses to its first two requests in its queue. -/
def feedClient : Client where
  handlers serviceName := some
    { serviceName
      threadId := "1"
      clientVersion := [1, 3, 1]
      transport :=
        { core := .defaultClient (PlainJson.serializer feedEnvelopes) serviceName
          sendQueueName := "service." ++ serviceName
          receiveQueueName := "service." ++ serviceName ++ ".0!"
          isClient := rfl }
      requestCounter := 0
      io := { pops := feedEnvelopes.map fun envelope =>
        .message (RedisTransportCore.unchunkedFrame (PlainJson.serializer feedEnvelopes)
          ((PlainJson.dumps envelope).getD [])) } }
  context := { apart := Context.apart_nil }

/-- The state before the first round for a post. -/
def feedState : ExpandState :=
  initial feedClient none [{ action := .text "read", body := feedPost }] feedTrees

/-- The state after the given number of rounds. -/
def feedRounds : ℕ → ExpandState
  | 0 => feedState
  | n+1 => ((feedRounds n).round {} feedTrees).2

lemma bounded_feedState : Bounded {} feedTrees {.text "eve", .text "first"} feedState := by
  refine bounded_of_round (s := feedRounds 0) (by decide +kernel) fun _ => ?_
  refine bounded_of_round (s := feedRounds 1) (by decide +kernel) fun _ => ?_
  refine bounded_of_round (s := feedRounds 2) (by decide +kernel) fun _ => ?_
  refine bounded_of_round (s := feedRounds 3) (by decide +kernel) fun hwork => ?_
  have hdone : (feedRounds 3).objectsToExpand.length = 0 := by decide +kernel
  exact absurd (List.length_eq_zero_iff.mp hdone) hwork

/-- After two rounds the author of the post is pending again, but not requested again: the third
round is the last. -/
theorem expandObjects_feed_ends :
    (feedRounds 2).pendingKeys = (feedRounds 0).pendingKeys ∧ (feedRounds 3).sent.length = 2 ∧
      ∃ out, expandObjects {} feedTrees ((targets feedTrees).card *
        ({.text "eve", .text "first"} : Finset HashKey).card + 1) feedState = some out :=
  ⟨by decide +kernel, by decide +kernel,
    (nodup_sentPairs_and_expandObjects_ends feedClient none _ feedTrees {}).2 _ bounded_feedState⟩

/-- `_perform_expansion` as a whole: whatever trees the configuration makes of the request, it ends
within the bound, and has requested nothing twice. -/
theorem performExpansion_ends (client : Client) (expansionConverter : Option ExpansionConverter)
    (actions : List ActionResponse) (expansions : Expansions) (arguments : RequestArguments)
    {V : Finset HashKey} {rounds : ℕ}
    (h : ∀ converter trees, expansionConverter = some converter → converter.dictToTrees expansions = .ok trees →
      Bounded arguments trees V (initial client arguments.context actions trees) ∧
        (targets trees).card * V.card + 1 ≤ rounds) :
    ∃ result s, client.performExpansion expansionConverter actions expansions arguments rounds =
      some (result, s) ∧ s.sentPairs.Nodup := by
  unfold Client.performExpansion
  cases hconverter : expansionConverter with
  | none => exact ⟨_, _, rfl, List.nodup_nil⟩
  | some converter =>
    dsimp only
    split_ifs
    · exact ⟨_, _, rfl, List.nodup_nil⟩
    · split
      · exact ⟨_, _, rfl, List.nodup_nil⟩
      · exact ⟨_, _, rfl, List.nodup_nil⟩
      · next trees htrees =>
        obtain ⟨hV, hrounds⟩ := h converter trees hconverter htrees
        have hsound := sound_initial client arguments.context actions trees
        obtain ⟨⟨result, s⟩, hout⟩ := expandObjects_of_bounded hV hsound (fun _ hpair => by cases hpair)
          (Nat.le_add_right_of_le hrounds)
        exact ⟨result, s, hout, (expandObjects_sound hsound hout).recorded.nodup⟩

section routing
variable {arguments : RequestArguments} {expansionTrees : List TypeNode} {s : ExpandState}

end routing

end ExpandState
end PySOA
