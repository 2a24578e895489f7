import PySOA.Lib.Assoc
import PySOA.Client.Client
import PySOA.Client.Expander

/-! Performing expansions: the objects of a response that have identifiers to expand, the requests
for these identifiers, and what the responses put into the objects. -/
namespace PySOA

namespace Value

/-- The keys of the elements of a set. -/
def hashKeys (values : List Value) : List HashKey := values.filterMap hashKey?

/-- `values.add(value)`. The order of a set is that in which its elements were added. -/
def addTo (value : Value) (values : List Value) : List Value :=
  if value.hashKey? ∈ values.map hashKey? then values else values ++ [value]

/-- Whether a value is equal to a key of a dict. -/
def isKey (value : Value) : Key → Bool
  | .text s => value.hashKey? = some (.text s)
  | .other str =>
    match value with
    | text _ => false
    | _ => value.number?.any (fun q => q.den = 1 && toString q.num = str) || value.format = str

mutual
/-- `value == other`; what is hashable is compared by its key, and a list or a dict is equal to
nothing that is hashable. -/
def eqv : Value → Value → Bool
  | list vs, list vs' => eqvItems vs vs'
  | dict kvs, dict kvs' => kvs.length == kvs'.length && eqvEntries kvs kvs'
  | value, other => value.hashKey?.isSome && value.hashKey? = other.hashKey?

def eqvItems : List Value → List Value → Bool
  | [], [] => true
  | v :: vs, v' :: vs' => eqv v v' && eqvItems vs vs'
  | _, _ => false

/-- Every entry is equal to the one with its key. -/
def eqvEntries : List (Key × Value) → List (Key × Value) → Bool
  | [], _ => true
  | (k, v) :: kvs, kvs' =>
    (match Assoc.get? k kvs' with
    | some v' => eqv v v'
    | Option.none => false) && eqvEntries kvs kvs'
end

/-- `operator.index(value)`. -/
def index? : Value → Option ℤ
  | bool b => some (if b then 1 else 0)
  | int n => some n
  | _ => Option.none

/-- `items[i]`, counted from the end for a negative `i`. -/
def getItem? {α : Type*} (items : List α) (i : ℤ) : Option α :=
  if 0 ≤ i then items[i.toNat]?
  else if 0 ≤ items.length + i then items[(items.length + i).toNat]?
  else Option.none

/-- `items[key]` for a list or bytes. -/
def subscript {α : Type*} (key : Value) (items : List α) : Except Exc α :=
  match key.index? with
  | Option.none => .error (.typeError "indices must be integers or slices")
  | some i =>
    match getItem? items i with
    | Option.none => .error (.exception "IndexError" "index out of range")
    | some item => .ok item

/-- `key in b`. -/
def isInBytes (key : Value) (b : Bytes) : Except Exc Bool :=
  match key.index?, key with
  | some i, _ =>
    if 0 ≤ i ∧ i < 256 then .ok (UInt8.ofNat i.toNat ∈ b)
    else .error (.valueError "byte must be in range(0, 256)")
  | Option.none, bytes part => .ok (part <:+: b)
  | Option.none, _ => .error (.typeError "a bytes-like object is required")

/-- `key in values`. -/
def isIn (key : Value) : Value → Except Exc Bool
  | dict kvs =>
    if key.hashKey?.isSome then .ok (kvs.any (fun kv => key.isKey kv.1))
    else .error (.typeError "unhashable type")
  | list vs => .ok (vs.any key.eqv)
  | text s =>
    match key with
    | text part => .ok (part.toList <:+: s.toList)
    | _ => .error (.typeError "'in <string>' requires string as left operand")
  | bytes b => key.isInBytes b
  | _ => .error (.typeError "argument is not iterable")

/-- `values[key]`, of what is in the values. -/
def getFrom (key : Value) : Value → Except Exc Value
  | dict kvs =>
    match kvs.find? (fun kv => key.isKey kv.1) with
    | some kv => .ok kv.2
    | Option.none => .error (.keyError key.format)
  | list vs => key.subscript vs
  | bytes b => (key.subscript b).map (fun byte => int byte.toNat)
  | text _ => .error (.typeError "string indices must be integers")
  | _ => .error (.typeError "object is not subscriptable")

/-- `values[key] if key in values`, for the values of an expansion response. -/
def lookupIn (key values : Value) : Except Exc (Option Value) :=
  match key.isIn values with
  | .error e => .error e
  | .ok false => .ok Option.none
  | .ok true => (key.getFrom values).map some

-- A text is searched, and an index that is an element of a list is an index into it.
example : (text "z").lookupIn (text "abc") = .ok Option.none := rfl
example : (int 1).lookupIn (list [int 1, int 5]) = .ok (some (int 5)) := rfl

end Value

/-- Where a dict stands that was received: the number of the body and the way down from it. -/
structure ObjectRef where
  body : ℕ
  path : List ℕ
  deriving DecidableEq

/-- An object that may be expanded, as it was received. -/
structure ExpansionObject where
  ref : ObjectRef
  entries : Dict

/-- The fields that have been assigned to objects. -/
abbrev Assignments := List ((ObjectRef × String) × Value)

/-- `object_to_expand.get(field)`. -/
def ExpansionObject.get? (assignments : Assignments) (object : ExpansionObject) (field : String) :
    Option Value :=
  (Assoc.get? (object.ref, field) assignments).or (Dict.get? object.entries field)

/-- `obj.get('_type') == self.type`. -/
def hasType (type : Option String) (kvs : Dict) : Bool :=
  match (Dict.get? kvs "_type").getD .none, type with
  | .text s, some type => s = type
  | .none, none => true
  | _, _ => false

mutual
/-- `TypeNode.find_objects`: the way down to each object and its entries. -/
def findObjects (type : Option String) (path : List ℕ) : Value → List (List ℕ × Dict)
  | .dict kvs => if hasType type kvs then [(path, kvs)] else findInEntries type path 0 kvs
  | .list vs => findInItems type path 0 vs
  | _ => []

def findInEntries (type : Option String) (path : List ℕ) (i : ℕ) :
    List (Key × Value) → List (List ℕ × Dict)
  | [] => []
  | (_, v) :: kvs => findObjects type (path ++ [i]) v ++ findInEntries type path (i+1) kvs

def findInItems (type : Option String) (path : List ℕ) (i : ℕ) : List Value → List (List ℕ × Dict)
  | [] => []
  | v :: vs => findObjects type (path ++ [i]) v ++ findInItems type path (i+1) vs
end

/-- An entry of `objects_to_expand`. -/
structure WorkItem where
  object : ExpansionObject
  expansions : List (ExpansionNode × Forest ExpansionNode)

/-- `_extend_expansion_objects`: what is added for one node and the body with the given number. -/
def expansionObjects (bodyNumber : ℕ) (type : Option String) (expansions : Forest ExpansionNode)
    (body : Value) : List WorkItem :=
  (findObjects type [] body).map (fun (path, entries) => ⟨⟨⟨bodyNumber, path⟩, entries⟩, expansions.nodes⟩)

/-- `_extract_candidate_objects`. The body of an action has the number of the action. -/
def extractCandidateObjects (actions : List ActionResponse) (expansionTrees : List TypeNode) :
    List WorkItem :=
  expansionTrees.flatMap fun typeNode => actions.zipIdx.flatMap fun (action, i) =>
    expansionObjects i (some typeNode.type) typeNode.expansions action.body

/-- An entry of `object_nodes`. -/
structure ObjectNode where
  object : ExpansionObject
  expansion : ExpansionNode
  expansions : Forest ExpansionNode

/-- How to call an action, and for which objects. -/
structure RequestInstruction where
  field : String
  values : List Value
  objectNodes : List ObjectNode

/-- The instructions of a round, by service and action. -/
abbrev PendingRequests := List (String × List (String × RequestInstruction))

/-- The first node of a round for an action determines the field of its instruction. -/
def RequestInstruction.add (objectNode : ObjectNode) (value : Value)
    (instruction : Option RequestInstruction) : RequestInstruction :=
  let instruction := instruction.getD ⟨objectNode.expansion.requestField, [], []⟩
  { instruction with
    values := value.addTo instruction.values
    objectNodes := instruction.objectNodes ++ [objectNode] }

/-- The identifier of an object for a node, if the expansion has not been satisfied and the source
field is there and truthy. -/
def ObjectNode.identifier? (assignments : Assignments) (objectNode : ObjectNode) : Option Value :=
  if (objectNode.object.get? assignments objectNode.expansion.destinationField).isSome then none
  else (objectNode.object.get? assignments objectNode.expansion.sourceField).filter Value.truthy

/-- The pairs of an object and an expansion node, in the order of the two nested loops. -/
def objectNodes (objectsToExpand : List WorkItem) : List ObjectNode :=
  objectsToExpand.flatMap fun item => item.expansions.map fun (expansion, expansions) =>
    ⟨item.object, expansion, expansions⟩

/-- Formulate the pending requests. -/
def formulate (assignments : Assignments) : List ObjectNode → PendingRequests → Except Exc PendingRequests
  | [], pending => .ok pending
  | objectNode :: rest, pending =>
    match objectNode.identifier? assignments with
    | none => formulate assignments rest pending
    | some value =>
      if value.hashKey?.isSome then
        formulate assignments rest (Assoc.upsert objectNode.expansion.service
          (fun actions => Assoc.upsert objectNode.expansion.action (.add objectNode value) (actions.getD []))
          pending)
      else .error (.typeError "unhashable type")

/-- The instructions in the order of the two nested loops over the pending requests. -/
def instructions (pending : PendingRequests) : List (String × String × RequestInstruction) :=
  pending.flatMap fun (serviceName, actions) => actions.map (serviceName, ·)

/-- The key under which the values are kept that have been requested. -/
def cacheKey (serviceName actionName field : String) : String :=
  serviceName ++ "." ++ actionName ++ "." ++ field

/-- A request that was handed to `send_request`. -/
structure SentExpansion where
  serviceName : String
  actionName : String
  field : String
  values : List Value
  jobRequest : JobRequest

/-- The variables of `_expand_objects`, with the client and the context argument that it passes on.
The number of bodies tells those apart that have been received; the log of the requests is only
there to speak about. -/
structure ExpandState where
  client : Client
  context : Option Context := none
  objectsToExpand : List WorkItem
  assignments : Assignments := []
  requestsMade : List (String × List HashKey) := []
  jobErrors : List Error := []
  actionErrors : List ActionResponse := []
  bodies : ℕ
  sent : List SentExpansion := []

/-- `expansion_service_requests`. -/
abbrev ServiceRequests := List (String × List (ℤ × List ObjectNode))

namespace Client

/-- The job request that `send_request` builds. -/
def jobRequest (client : Client) (actions : List ActionRequest) (arguments : RequestArguments)
    (suppressResponse : Bool) : JobRequest :=
  let controlExtra :=
    match arguments.timeout.filter (· ≠ 0) with
    | some timeout =>
      if (arguments.controlExtra.get? "timeout").isSome then arguments.controlExtra
      else arguments.controlExtra.set "timeout" (.int timeout)
    | none => arguments.controlExtra
  ⟨.dict (makeControlHeader arguments.continueOnError controlExtra suppressResponse),
    .dict (client.makeContextHeader arguments.switches arguments.correlationId arguments.context).1,
    actions⟩

end Client

namespace ExpandState

/-- One pass of the loop that makes the requests. -/
def sendExpansion (arguments : RequestArguments) (serviceName actionName : String)
    (instruction : RequestInstruction) (requests : ServiceRequests) (s : ExpandState) :
    Except Exc ServiceRequests × ExpandState :=
  let key := cacheKey serviceName actionName instruction.field
  let made := (Assoc.get? key s.requestsMade).getD []
  let values := instruction.values.filter (fun value => value.hashKey? ∉ made.map some)
  if made ≠ [] ∧ values = [] then (.ok requests, s)
  else
    let arguments := { arguments with context := s.context, continueOnError := false }
    let actions : List ActionRequest :=
      [⟨.text actionName, .dict [(.text instruction.field, .list values)]⟩]
    let sent : SentExpansion := ⟨serviceName, actionName, instruction.field, values,
      s.client.jobRequest actions arguments false⟩
    let s := { s with
      requestsMade := Assoc.upsert key (fun made => made.getD [] ++ Value.hashKeys values) s.requestsMade
      sent := s.sent ++ [sent] }
    let (result, context, client) := s.client.sendRequest serviceName actions arguments false
    let s := { s with context, client }
    match result with
    | .error e => (.error e, s)
    | .ok requestId => (.ok (Assoc.upsert serviceName
        (fun sent => sent.getD [] ++ [(requestId, instruction.objectNodes)]) requests), s)

def sendExpansions (arguments : RequestArguments) : List (String × String × RequestInstruction) →
    ServiceRequests → ExpandState → Except Exc ServiceRequests × ExpandState
  | [], requests, s => (.ok requests, s)
  | (serviceName, actionName, instruction) :: rest, requests, s =>
    match s.sendExpansion arguments serviceName actionName instruction requests with
    | (.error e, s) => (.error e, s)
    | (.ok requests, s) => sendExpansions arguments rest requests s

/-- Formulate the requests of a round and send them. -/
def request (arguments : RequestArguments) (s : ExpandState) : Except Exc ServiceRequests × ExpandState :=
  match formulate s.assignments (objectNodes s.objectsToExpand) [] with
  | .error e => (.error e, s)
  | .ok pending => sendExpansions arguments (instructions pending) [] s

/-- What a response with a body means for one object. -/
def assign (bodyNumber : ℕ) (objectNode : ObjectNode) (body : Value) (s : ExpandState) :
    Except Exc ExpandState :=
  match body with
  | .dict kvs =>
    match Dict.get? kvs objectNode.expansion.responseField with
    | none => .error (.keyError objectNode.expansion.responseField)
    | some values =>
      match objectNode.object.get? s.assignments objectNode.expansion.sourceField with
      | none => .error (.keyError objectNode.expansion.sourceField)
      | some responseKey =>
        match responseKey.lookupIn values with
        | .error e => .error e
        | .ok found =>
          let assignments :=
            match found with
            | none => s.assignments
            | some value => Assoc.upsert (objectNode.object.ref, objectNode.expansion.destinationField)
                (fun _ => value) s.assignments
          let nested :=
            match objectNode.expansions with
            | .nil => []
            | .cons .. => expansionObjects bodyNumber objectNode.expansion.type objectNode.expansions body
          .ok { s with assignments, objectsToExpand := s.objectsToExpand ++ nested }
  | _ => .error (.typeError "indices must be integers")

/-- The loop over the objects for which a request was made. The action response is the variable
that the loop leaves. -/
def expandObjectNodes (bodyNumber : ℕ) (response : JobResponse) : List ObjectNode →
    Option ActionResponse → ExpandState → Except Exc (Option ActionResponse × ExpandState)
  | [], actionResponse, s => .ok (actionResponse, s)
  | objectNode :: rest, actionResponse, s =>
    if !response.errors.isEmpty then
      let s := if objectNode.expansion.raiseActionErrors then
        { s with jobErrors := s.jobErrors ++ response.errors } else s
      expandObjectNodes bodyNumber response rest actionResponse s
    else
      match response.actions with
      | [] => .error (.exception "IndexError" "list index out of range")
      | action :: _ =>
        let s := if !action.errors.isEmpty && objectNode.expansion.raiseActionErrors then
          { s with actionErrors := s.actionErrors ++ [action] } else s
        if action.body.truthy then
          match s.assign bodyNumber objectNode action.body with
          | .error e => .error e
          | .ok s => expandObjectNodes bodyNumber response rest (some action) s
        else expandObjectNodes bodyNumber response rest (some action) s

/-- The body of the loop over the responses of a service: the requests that are not answered yet,
and the variables. -/
def receiveExpansion (expansionTrees : List TypeNode) (w : List (ℤ × List ObjectNode) × ExpandState)
    (requestId : Value) (response : JobResponse) : Except Exc (List (ℤ × List ObjectNode) × ExpandState) :=
  match w.1.find? (fun request => requestId.eqInt request.1) with
  | none =>
    .error (if requestId.hashKey?.isSome then .keyError requestId.format else .typeError "unhashable type")
  | some (sentId, objectNodes) =>
    let requests := w.1.filter (fun request => request.1 ≠ sentId)
    match expandObjectNodes w.2.bodies response objectNodes none w.2 with
    | .error e => .error e
    | .ok (actionResponse, s) =>
      let s := { s with bodies := s.bodies+1 }
      match actionResponse with
      | none => .ok (requests, s)
      | some action =>
        if action.errors.isEmpty && action.body.truthy then
          let found := expansionTrees.flatMap fun typeNode =>
            expansionObjects w.2.bodies (some typeNode.type) typeNode.expansions action.body
          .ok (requests, { s with objectsToExpand := s.objectsToExpand ++ found })
        else .ok (requests, s)

/-- The loop over the services from which responses are expected. -/
def receiveExpansions (expansionTrees : List TypeNode) : ServiceRequests → ExpandState →
    Except Exc Unit × ExpandState
  | [], s => (.ok (), s)
  | (serviceName, requests) :: rest, s =>
    let (result, (_, s), client) :=
      s.client.getAllResponses serviceName (receiveExpansion expansionTrees) (requests, s)
    let s := { s with client }
    match result with
    | .error e => (.error e, s)
    | .ok () => receiveExpansions expansionTrees rest s

/-- One pass of the loop in `_expand_objects`. -/
def round (arguments : RequestArguments) (expansionTrees : List TypeNode) (s : ExpandState) :
    Except Exc Unit × ExpandState :=
  match s.request arguments with
  | (.error e, s) => (.error e, s)
  | (.ok requests, s) =>
    match receiveExpansions expansionTrees requests { s with objectsToExpand := [] } with
    | (.error e, s) => (.error e, s)
    | (.ok (), s) =>
      if !s.actionErrors.isEmpty then (.error (.callActionError s.actionErrors), s)
      else if !s.jobErrors.isEmpty then (.error (.callJobError s.jobErrors), s)
      else (.ok (), s)

/-- `_expand_objects` for as many rounds as there is fuel; `none` means that it is used up. -/
def expandObjects (arguments : RequestArguments) (expansionTrees : List TypeNode) :
    ℕ → ExpandState → Option (Except Exc Unit × ExpandState)
  | fuel, s =>
    match s.objectsToExpand with
    | [] => some (.ok (), s)
    | _ :: _ =>
      match fuel with
      | 0 => none
      | fuel+1 =>
        match s.round arguments expansionTrees with
        | (.error e, s) => some (.error e, s)
        | (.ok (), s) => expandObjects arguments expansionTrees fuel s

/-- The state in which `_expand_objects` begins. -/
def initial (client : Client) (context : Option Context) (actions : List ActionResponse)
    (expansionTrees : List TypeNode) : ExpandState where
  client
  context
  objectsToExpand := extractCandidateObjects actions expansionTrees
  bodies := actions.length

end ExpandState

/-- The exception for a key that the configuration of the expansions does not have. -/
def invalidExpansionKey (message : String) : Exc :=
  .exception "InvalidExpansionKey" ("Invalid key in expansion request: " ++ message)

/-- `_perform_expansion`: the outcome, the context argument and the client, or `none` when the fuel
is used up. -/
def Client.performExpansion (client : Client) (expansionConverter : Option ExpansionConverter)
    (actions : List ActionResponse) (expansions : Expansions) (arguments : RequestArguments) (fuel : ℕ) :
    Option (Except Exc Unit × ExpandState) :=
  match expansionConverter with
  | none => some (.ok (), .initial client arguments.context actions [])
  | some expansionConverter =>
    if expansions.entries.isEmpty then some (.ok (), .initial client arguments.context actions [])
    else
      match expansionConverter.dictToTrees expansions with
      | .error (.exception "KeyError" message) =>
        some (.error (invalidExpansionKey message), .initial client arguments.context actions [])
      | .error e => some (.error e, .initial client arguments.context actions [])
      | .ok trees => ExpandState.expandObjects arguments trees fuel
        (.initial client arguments.context actions trees)

end PySOA
