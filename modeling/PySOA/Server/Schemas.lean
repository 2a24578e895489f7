import PySOA.Common.Types
import PySOA.Lib.Results

/-! The schemas of job requests, and the job requests that are made of the dicts they accept. -/
namespace PySOA

/-- The fields of the schemas, each as the test whether it accepts a value. -/
abbrev SchemaField := Value → Bool

namespace SchemaField

def unicodeString : SchemaField
  | .text _ => true
  | _ => false

def boolean : SchemaField
  | .bool _ => true
  | _ => false

/-- A boolean is not accepted as an integer. -/
def integer : SchemaField
  | .int _ => true
  | _ => false

def list (contents : SchemaField) (minLength : ℕ := 0) : SchemaField
  | .list vs => minLength ≤ vs.length && vs.all contents
  | _ => false

def schemalessDictionary : SchemaField
  | .dict d => d.all (·.1.isText)
  | _ => false

def dictionary (contents : List (String × SchemaField)) (optionalKeys : List String)
    (allowExtraKeys : Bool) : SchemaField
  | .dict d =>
    contents.all (fun (key, field) =>
      match Dict.get? d key with
      | some v => field v
      | none => key ∈ optionalKeys) &&
    (allowExtraKeys || d.all fun kv => contents.any fun c => kv.1 = .text c.1)
  | _ => false

end SchemaField

open SchemaField

def actionRequestSchema : SchemaField :=
  dictionary [("action", unicodeString), ("body", schemalessDictionary)] ["body"] false

def controlHeaderSchema : SchemaField :=
  dictionary [("continue_on_error", boolean), ("suppress_response", boolean)]
    ["suppress_response"] true

def contextHeaderSchema : SchemaField :=
  dictionary [("caller", unicodeString), ("calling_service", unicodeString),
    ("correlation_id", unicodeString), ("switches", list integer)]
    ["caller", "calling_service"] true

def jobRequestSchema : SchemaField :=
  dictionary [("control", controlHeaderSchema), ("context", contextHeaderSchema),
    ("actions", list actionRequestSchema 1)] [] false

/-- `conformity.error.Error`. -/
structure ConformityError where
  code : String
  message : String
  pointer : String

/-- `JobRequestSchema.errors`. The validation library is third-party: it finds an error exactly
in the values that the schema does not accept. -/
structure JobRequestErrors where
  errors : Value → List ConformityError
  errors_eq_nil : ∀ v, errors v = [] ↔ jobRequestSchema v = true

/-- `pysoa.server.types.EnrichedJobRequest`. Of `client` this keeps the context header that the
client is made with; the helper that runs coroutines is left out. -/
structure EnrichedJobRequest where
  control : Dict
  context : Dict
  actions : List ActionRequest
  client : Dict

/-- `ActionRequest(**value)`. -/
def ActionRequest.ofKwargs (value : Value) : Except Exc ActionRequest := do
  let d ← kwargs "ActionRequest" ["action"] ["body"] value
  return ⟨(d.get? "action").getD .none, (d.get? "body").getD (.dict [])⟩

/-- `_convert_action_requests`. -/
def convertActionRequests (actions : Value) : Except Exc (List ActionRequest) := do
  (← iterate actions).mapM ActionRequest.ofKwargs

/-- `EnrichedJobRequest(**job_request)`, for job requests that the schema accepts: the headers of
others need not be dicts. -/
def EnrichedJobRequest.ofKwargs (jobRequest client : Dict) : Except Exc EnrichedJobRequest := do
  let actions ← convertActionRequests ((jobRequest.get? "actions").getD (.list []))
  match jobRequest.get? "control", jobRequest.get? "context" with
  | some (.dict control), some (.dict context) => return ⟨control, context, actions, client⟩
  | _, _ => throw (.typeError "the headers are not dicts")

/-- `item.__int__()`. -/
def getSwitch : Value → Except Exc ℤ
  | .int n => .ok n
  | .bool b => .ok (if b then 1 else 0)
  | .float q => .ok (q.num.tdiv q.den)
  | _ => .error (.typeError "switch does not implement the switch constant interface")

/-- `RequestSwitchSet(switches)`. -/
def requestSwitchSet (switches : Value) : Except Exc (List ℤ) := do
  let items ← if switches.truthy then iterate switches else .ok []
  return (← items.mapM getSwitch).dedup

/-- `RequestSwitchSet(job_request.context['switches'])`. -/
def EnrichedJobRequest.switchSet (job : EnrichedJobRequest) : Except Exc (List ℤ) :=
  match job.context.get? "switches" with
  | some switches => requestSwitchSet switches
  | none => .error (.keyError "switches")

section Accepted

lemma exists_dict_of_dictionary {contents : List (String × SchemaField)} {optionalKeys : List String}
    {allowExtraKeys : Bool} {v : Value} (h : dictionary contents optionalKeys allowExtraKeys v = true) :
    ∃ d, v = .dict d := by
  cases v with
  | dict d => exact ⟨d, rfl⟩
  | _ => cases h

/-- A dictionary that is accepted has its required keys, with values that their fields accept. -/
lemma exists_get?_of_dictionary {contents : List (String × SchemaField)} {optionalKeys : List String}
    {allowExtraKeys : Bool} {d : Dict} (h : dictionary contents optionalKeys allowExtraKeys (.dict d) = true)
    {key : String} {field : SchemaField} (hmem : (key, field) ∈ contents) (hkey : key ∉ optionalKeys) :
    ∃ v, d.get? key = some v ∧ field v = true := by
  unfold dictionary at h
  have hfield := List.all_eq_true.mp (Bool.and_eq_true_iff.mp h).1 _ hmem
  cases hget : d.get? key with
  | none => simp [hget, hkey] at hfield
  | some v => exact ⟨v, rfl, by simpa [hget] using hfield⟩

lemma exists_list_of_list {contents : SchemaField} {minLength : ℕ} {v : Value}
    (h : list contents minLength v = true) : ∃ vs, v = .list vs ∧ ∀ v ∈ vs, contents v = true := by
  cases v with
  | list vs => exact ⟨vs, rfl, List.all_eq_true.mp (Bool.and_eq_true_iff.mp h).2⟩
  | _ => cases h

/-- An action request that is accepted names its action with a text. -/
lemma exists_actionRequest {v : Value} (h : actionRequestSchema v = true) :
    ∃ a name, ActionRequest.ofKwargs v = .ok a ∧ a.action = .text name := by
  obtain ⟨d, rfl⟩ := exists_dict_of_dictionary h
  obtain ⟨action, haction, htext⟩ := exists_get?_of_dictionary h (List.mem_cons_self) (by decide)
  obtain ⟨name, rfl⟩ : ∃ name, action = .text name := by
    cases action with
    | text name => exact ⟨name, rfl⟩
    | _ => cases htext
  have hkeys : d.all (fun kv => kv.1.isText && kv.1.toText ∈ ["action"] ++ ["body"]) = true := by
    have hextra := (Bool.and_eq_true_iff.mp h).2
    simp only [Bool.false_or, List.all_eq_true] at hextra ⊢
    intro kv hkv
    have hkey := hextra kv hkv
    simp only [List.any_cons, List.any_nil, Bool.or_false, Bool.or_eq_true, decide_eq_true_eq] at hkey
    rcases hkey with hkey | hkey <;> simp [hkey, Key.isText, Key.toText]
  have hkwargs : kwargs "ActionRequest" ["action"] ["body"] (.dict d) = .ok d := by
    simp only [kwargs, hkeys, haction, List.all_cons, List.all_nil, Option.isSome_some, Bool.and_self,
      if_true]
  refine ⟨_, name, by rw [ActionRequest.ofKwargs, hkwargs]; rfl, ?_⟩
  dsimp only
  rw [haction]
  rfl

/-- A job request that the schema accepts gives a job whose context has a set of switches, and whose
actions have texts as their names. -/
theorem exists_job_of_accepted {jobRequest : Dict} (client : Dict)
    (h : jobRequestSchema (.dict jobRequest) = true) :
    ∃ job switches, EnrichedJobRequest.ofKwargs jobRequest client = .ok job ∧
      job.switchSet = .ok switches ∧ ∀ request ∈ job.actions, ∃ name, request.action = .text name := by
  obtain ⟨control, hcontrol, hcontrolSchema⟩ := exists_get?_of_dictionary h
    (show ("control", controlHeaderSchema) ∈ _ by simp) List.not_mem_nil
  obtain ⟨context, hcontext, hcontextSchema⟩ := exists_get?_of_dictionary h
    (show ("context", contextHeaderSchema) ∈ _ by simp) List.not_mem_nil
  obtain ⟨actions, hactions, hactionsSchema⟩ := exists_get?_of_dictionary h
    (show ("actions", list actionRequestSchema 1) ∈ _ by simp) List.not_mem_nil
  obtain ⟨control, rfl⟩ := exists_dict_of_dictionary hcontrolSchema
  obtain ⟨context, rfl⟩ := exists_dict_of_dictionary hcontextSchema
  obtain ⟨vs, rfl, hvs⟩ := exists_list_of_list hactionsSchema
  obtain ⟨actions, hconvert⟩ := Results.exists_mapM_eq_ok fun v hv =>
    (exists_actionRequest (hvs v hv)).imp fun _ ⟨_, ha, _⟩ => ha
  obtain ⟨switches, hswitches, hswitchesSchema⟩ := exists_get?_of_dictionary hcontextSchema
    (show ("switches", list integer) ∈ _ by simp) (by decide)
  obtain ⟨items, rfl, hitems⟩ := exists_list_of_list hswitchesSchema
  have hget : ∀ v ∈ items, ∃ n, getSwitch v = .ok n := by
    intro v hv
    cases v with
    | int n => exact ⟨n, rfl⟩
    | _ => cases hitems _ hv
  obtain ⟨switches, hset⟩ := Results.exists_mapM_eq_ok hget
  refine ⟨⟨control, context, actions, client⟩, switches.dedup, ?_, ?_, ?_⟩
  · simp only [EnrichedJobRequest.ofKwargs, convertActionRequests, hactions, Option.getD_some, iterate,
      hcontrol, hcontext]
    simp [hconvert, bind, Except.bind, pure, Except.pure]
  · simp only [EnrichedJobRequest.switchSet, hswitches, requestSwitchSet]
    by_cases hempty : (Value.list items).truthy = true
    · simp [hempty, iterate, hset, bind, Except.bind, pure, Except.pure]
    · obtain rfl : items = [] := by simpa [Value.truthy] using hempty
      cases hset
      rfl
  · intro request hrequest
    have hmem : (Except.ok request : Except Exc ActionRequest) ∈ vs.map ActionRequest.ofKwargs := by
      rw [Results.mapM_eq_ok.mp hconvert]
      exact List.mem_map_of_mem hrequest
    obtain ⟨v, hv, hmade⟩ := List.mem_map.mp hmem
    obtain ⟨a, name, ha, haction⟩ := exists_actionRequest (hvs v hv)
    obtain rfl : a = request := Except.ok.inj (ha.symm.trans hmade)
    exact ⟨name, haction⟩

end Accepted
end PySOA
