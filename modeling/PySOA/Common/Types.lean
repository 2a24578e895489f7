import PySOA.Common.Errors

/-! Converting the records of a job response to dicts and back. -/
namespace PySOA

/-- Calling an attrs class with `**value`: the value is a mapping, each of its keys names an
attribute, and the attributes without default are there. -/
def kwargs (cls : String) (required optional : List String) : Value → Except Exc Dict
  | .dict d =>
    if d.all (fun kv => kv.1.isText && kv.1.toText ∈ required ++ optional) &&
        required.all (fun name => (Dict.get? d name).isSome) then .ok d
    else .error (.typeError (cls ++ "() got unexpected or lacks required arguments"))
  | _ => .error (.typeError "argument after ** must be a mapping")

/-- `iter(value)`. -/
def iterate : Value → Except Exc (List Value)
  | .list vs => .ok vs
  | .dict kvs => .ok (kvs.map (fun kv => .text kv.1.toText))
  | .text s => .ok (s.toList.map (fun c => .text c.toString))
  | .bytes b => .ok (b.map (fun c => .int c.toNat))
  | _ => .error (.typeError "object is not iterable")

namespace Error

/-- `Error(**value)`. -/
def ofKwargs (value : Value) : Except Exc Error := do
  let d ← kwargs "Error" ["code", "message"]
    ["field", "traceback", "variables", "denied_permissions", "is_caller_error"] value
  return {
    code := (d.get? "code").getD .none
    message := (d.get? "message").getD .none
    field := (d.get? "field").getD .none
    traceback := (d.get? "traceback").getD .none
    errorVariables := (d.get? "variables").getD .none
    deniedPermissions := (d.get? "denied_permissions").getD .none
    isCallerError := (d.get? "is_caller_error").getD (.bool false) }

def convertible (e : Error) : Bool :=
  e.code.convertible && e.message.convertible && e.field.convertible && e.traceback.convertible &&
    e.errorVariables.convertible && e.deniedPermissions.convertible && e.isCallerError.convertible

/-- The dict of an error. `is_caller_error` was added in version 0.70.0 and is left out for
clients that are older. -/
def toValue (clientVersion : List ℤ) (e : Error) : Value :=
  .dict ([(.text "code", e.code), (.text "message", e.message), (.text "field", e.field),
    (.text "traceback", e.traceback), (.text "variables", e.errorVariables),
    (.text "denied_permissions", e.deniedPermissions)] ++
    if [0,70,0] ≤ clientVersion then [(.text "is_caller_error", e.isCallerError)] else [])

end Error

/-- `_convert_errors`. -/
def convertErrors (errors : Value) : Except Exc (List Error) := do
  (← iterate errors).mapM Error.ofKwargs

namespace ActionResponse

/-- `ActionResponse(**value)`. -/
def ofKwargs (value : Value) : Except Exc ActionResponse := do
  let d ← kwargs "ActionResponse" ["action"] ["errors", "body"] value
  let errors ← convertErrors ((d.get? "errors").getD (.list []))
  return ⟨(d.get? "action").getD .none, errors, (d.get? "body").getD (.dict [])⟩

def convertible (a : ActionResponse) : Bool :=
  a.action.convertible && a.errors.all Error.convertible && a.body.convertible

def toValue (clientVersion : List ℤ) (a : ActionResponse) : Value :=
  .dict [(.text "action", a.action), (.text "errors", .list (a.errors.map (Error.toValue clientVersion))),
    (.text "body", a.body)]

end ActionResponse

namespace JobResponse

/-- `JobResponse(**value)`. -/
def ofKwargs (value : Value) : Except Exc JobResponse := do
  let d ← kwargs "JobResponse" [] ["errors", "context", "actions"] value
  let errors ← convertErrors ((d.get? "errors").getD (.list []))
  let actions ← (← iterate ((d.get? "actions").getD (.list []))).mapM ActionResponse.ofKwargs
  return ⟨errors, (d.get? "context").getD (.dict []), actions⟩

def convertible (r : JobResponse) : Bool :=
  r.errors.all Error.convertible && r.context.convertible && r.actions.all ActionResponse.convertible

/-- The dict that `attr.asdict` makes of a job response it can convert. -/
def toValue (clientVersion : List ℤ) (r : JobResponse) : Value :=
  .dict [(.text "errors", .list (r.errors.map (Error.toValue clientVersion))),
    (.text "context", r.context),
    (.text "actions", .list (r.actions.map (ActionResponse.toValue clientVersion)))]

/-- `attr.asdict(job_response, dict_factory=UnicodeKeysDict, filter=attr_filter)`. -/
def asdict (clientVersion : List ℤ) (r : JobResponse) : Except Exc Value :=
  if r.convertible then .ok (r.toValue clientVersion)
  else .error (.typeError "cannot convert the response")

end JobResponse

/-- `pysoa.common.types.ActionRequest`. -/
structure ActionRequest where
  action : Value
  body : Value := .dict []

/-- `pysoa.common.types.JobRequest`. -/
structure JobRequest where
  control : Value := .dict []
  context : Value := .dict []
  actions : List ActionRequest := []

namespace JobRequest

def convertible (r : JobRequest) : Bool :=
  r.control.convertible && r.context.convertible &&
    r.actions.all (fun a => a.action.convertible && a.body.convertible)

/-- `attr.asdict(job_request, dict_factory=UnicodeKeysDict)`. -/
def asdict (r : JobRequest) : Except Exc Value :=
  if r.convertible then
    .ok (.dict [(.text "control", r.control), (.text "context", r.context),
      (.text "actions", .list (r.actions.map fun a =>
        .dict [(.text "action", a.action), (.text "body", a.body)]))])
  else .error (.typeError "cannot convert the request")

end JobRequest
end PySOA
