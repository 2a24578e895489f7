import PySOA.Common.Value

/-! The records that make up a job response, and the exceptions of the program. -/
namespace PySOA

/-- `pysoa.common.errors.Error`. The attributes are not validated, so each holds any value. -/
structure Error where
  code : Value
  message : Value
  field : Value := .none
  traceback : Value := .none
  errorVariables : Value := .none
  deniedPermissions : Value := .none
  isCallerError : Value := .bool false

/-- `pysoa.common.types.ActionResponse`. -/
structure ActionResponse where
  action : Value
  errors : List Error := []
  body : Value := .dict []

/-- `pysoa.common.types.JobResponse`. -/
structure JobResponse where
  errors : List Error := []
  context : Value := .dict []
  actions : List ActionResponse := []

/-- The exceptions that the modelled code raises or handles. `exception` is any other subclass
of `Exception`, with its class. `harakiriInterrupt` is not an `Exception`. -/
inductive Exc
  | messageTooLarge (messageSizeInBytes : ℕ) (message : String)
  | invalidMessageError (message : String)
  | messageReceiveTimeout (message : String)
  | messageReceiveError (message : String)
  | messageSendError (message : String)
  | invalidField (message : String)
  | invalidMessage (message : String)
  | jobError (errors : List Error)
  | actionError (errors : List Error)
  | callJobError (errors : List Error)
  | callActionError (actions : List ActionResponse)
  | exception (cls : String) (message : String)
  | harakiriInterrupt

namespace Exc

abbrev valueError (message : String) : Exc := exception "ValueError" message
abbrev typeError (message : String) : Exc := exception "TypeError" message
abbrev keyError (message : String) : Exc := exception "KeyError" message
abbrev attributeError (message : String) : Exc := exception "AttributeError" message

/-- `isinstance(e, Exception)`. -/
def isException : Exc → Bool
  | harakiriInterrupt => false
  | _ => true

/-- `isinstance(e, PySOATransportError)`. -/
def isTransportError : Exc → Bool
  | messageTooLarge .. | invalidMessageError _ | messageReceiveTimeout _
  | messageReceiveError _ | messageSendError _ => true
  | _ => false

/-- `isinstance(e, TransientPySOATransportError)`. -/
def isTransient : Exc → Bool
  | messageReceiveTimeout _ | messageReceiveError _ | messageSendError _ => true
  | _ => false

/-- `isinstance(e, MessageReceiveTimeout)`. -/
def isReceiveTimeout : Exc → Bool
  | messageReceiveTimeout _ => true
  | _ => false

end Exc
end PySOA
