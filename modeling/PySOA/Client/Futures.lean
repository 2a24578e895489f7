import PySOA.Client.Resolving

/-! The calls of a client that return a future, and the futures that they return. -/
namespace PySOA

/-- A call of a client that returns a future. -/
inductive Call
  | action (serviceName : String) (action body : Value) (raiseJobErrors raiseActionErrors : Bool)
      (arguments : RequestArguments)
  | actions (serviceName : String) (actions : List ActionRequest)
      (raiseJobErrors raiseActionErrors : Bool) (arguments : RequestArguments)
  | jobs (jobs : List Job) (raiseJobErrors raiseActionErrors catchTransportErrors : Bool)
      (arguments : RequestArguments)

/-- The services that the call sends requests to, one for each request. -/
def Call.services : Call → List String
  | .action serviceName .. => [serviceName]
  | .actions serviceName .. => [serviceName]
  | .jobs requests .. => requests.map Job.serviceName

def Call.catchesTransportErrors : Call → Bool
  | .jobs _ _ _ catchTransportErrors _ => catchTransportErrors
  | _ => false

inductive Future
  | action (future : ActionFuture)
  | actions (future : ActionsFuture)
  | jobs (future : JobsFuture)

/-- What a future returns or raises. -/
inductive Outcome
  | action (result : Except Exc ActionOutcome)
  | actions (result : Except Exc JobResponse)
  | jobs (result : Except Exc (List (Except Exc JobResponse)))

namespace Outcome

/-- The exception that the future raises. -/
def error? : Outcome → Option Exc
  | .action (.error e) => some e
  | .actions (.error e) => some e
  | .jobs (.error e) => some e
  | _ => none

@[simp] lemma error?_action {result : Except Exc ActionOutcome} {e : Exc} :
    (Outcome.action result).error? = some e ↔ result = .error e := by
  cases result <;> simp [error?]

@[simp] lemma error?_actions {result : Except Exc JobResponse} {e : Exc} :
    (Outcome.actions result).error? = some e ↔ result = .error e := by
  cases result <;> simp [error?]

@[simp] lemma error?_jobs {result : Except Exc (List (Except Exc JobResponse))} {e : Exc} :
    (Outcome.jobs result).error? = some e ↔ result = .error e := by
  cases result <;> simp [error?]

/-- The future did not find the responses that it expected. -/
def Unexpected (out : Outcome) : Prop := ∃ e, out.error? = some e ∧ e.isUnexpected

end Outcome

def Client.call (client : Client) : Call → Except Exc Future × Option Context × Client
  | .action serviceName action body raiseJobErrors raiseActionErrors arguments =>
    let out := client.callActionFuture serviceName action body raiseJobErrors raiseActionErrors arguments
    (out.1.map .action, out.2)
  | .actions serviceName actions raiseJobErrors raiseActionErrors arguments =>
    let out := client.callActionsFuture serviceName actions raiseJobErrors raiseActionErrors arguments
    (out.1.map .actions, out.2)
  | .jobs jobs raiseJobErrors raiseActionErrors catchTransportErrors arguments =>
    let out := client.callJobsParallelFuture jobs raiseJobErrors raiseActionErrors catchTransportErrors
      arguments
    (out.1.map .jobs, out.2)

namespace Future

def result (client : Client) : Future → Outcome × Future × Client
  | .action future =>
    let out := future.result client
    (.action out.1, .action out.2.1, out.2.2)
  | .actions future =>
    let out := future.result client
    (.actions out.1, .actions out.2.1, out.2.2)
  | .jobs future =>
    let out := future.result client
    (.jobs out.1, .jobs out.2.1, out.2.2)

/-- The outcome when the future obtains the responses to its own requests. -/
def own (answers : String × ℤ → JobResponse) : Future → Outcome
  | .action future => .action (future.future.own answers >>= ActionFuture.outcome)
  | .actions future => .actions (future.own answers)
  | .jobs future => .jobs (future.own answers)

/-- The requests to the given service that were sent for the future. -/
def requests (serviceName : String) : Future → List ℤ
  | .action future => if future.future.serviceName = serviceName then [future.future.expectedRequestId] else []
  | .actions future => if future.serviceName = serviceName then [future.expectedRequestId] else []
  | .jobs future => sentTo serviceName future.responseReassemblyKeys

def services : Future → List String
  | .action future => [future.future.serviceName]
  | .actions future => [future.serviceName]
  | .jobs future => future.responseReassemblyKeys.map Prod.fst

/-- A future as a call returns it. -/
def Unresolved : Future → Prop
  | .action future => future.cell = {} ∧ future.future.cell = {}
  | .actions future => future.cell = {}
  | .jobs future => future.cell = {} ∧ future.state.Sent future.responseReassemblyKeys ∧
      (future.catchTransportErrors = false → ∀ key ∈ future.responseReassemblyKeys, 0 ≤ key.2)

def catchesTransportErrors : Future → Bool
  | .jobs future => future.catchTransportErrors
  | _ => false

end Future

section opening
variable {client client' : Client} {serviceName : String} {core : RedisTransportCore}
  {clock : ℕ → ℚ} {requestIds : List ℤ}

lemma Client.callActionsFuture_ok {actions : List ActionRequest}
    {raiseJobErrors raiseActionErrors : Bool} {arguments : RequestArguments} {future : ActionsFuture}
    {context : Option Context} (hclient : client.Counting)
    (h : client.callActionsFuture serviceName actions raiseJobErrors raiseActionErrors arguments =
      (.ok future, context, client')) :
    future.cell = {} ∧ future.serviceName = serviceName ∧ client'.Counting ∧
      ∀ name core clock requestIds, client.Outstanding name core clock requestIds →
        client'.Outstanding name core clock
          (requestIds ++ if serviceName = name then [future.expectedRequestId] else []) := by
  have hcounting := (hclient.sendRequest serviceName actions arguments false).1
  have hsent := fun name core clock requestIds
    (hout : client.Outstanding name core clock requestIds) =>
    hout.sendRequest serviceName actions arguments false
  unfold callActionsFuture at h
  revert hcounting hsent
  generalize client.sendRequest serviceName actions arguments false = out at h ⊢
  obtain ⟨result, context', client₁⟩ := out
  intro hcounting hsent
  cases result with
  | error e => cases h
  | ok requestId =>
    cases h
    refine ⟨rfl, rfl, hcounting, fun name core clock requestIds hout => ?_⟩
    have := hsent name core clock requestIds hout
    split_ifs at this ⊢ with hname
    · simpa using this
    · simpa using this

/-- What a call that returns a future leaves behind. -/
theorem Client.call_ok {call : Call} {future : Future} {context : Option Context}
    (hclient : client.Counting) (h : client.call call = (.ok future, context, client')) :
    future.Unresolved ∧ future.services = call.services ∧
      future.catchesTransportErrors = call.catchesTransportErrors ∧ client'.Counting ∧
      ∀ serviceName core clock requestIds, client.Outstanding serviceName core clock requestIds →
        client'.Outstanding serviceName core clock (requestIds ++ future.requests serviceName) := by
  cases call with
  | action serviceName action body raiseJobErrors raiseActionErrors arguments =>
    simp only [Client.call, callActionFuture] at h
    generalize hcall : client.callActionsFuture _ _ _ _ _ = out at h
    obtain ⟨result, context', client₁⟩ := out
    cases result with
    | error e => cases h
    | ok inner =>
      cases h
      obtain ⟨hcell, rfl, hcounting, hsent⟩ := callActionsFuture_ok hclient hcall
      exact ⟨⟨rfl, hcell⟩, rfl, rfl, hcounting, hsent⟩
  | actions serviceName actions raiseJobErrors raiseActionErrors arguments =>
    simp only [Client.call] at h
    generalize hcall : client.callActionsFuture _ _ _ _ _ = out at h
    obtain ⟨result, context', client₁⟩ := out
    cases result with
    | error e => cases h
    | ok inner =>
      cases h
      obtain ⟨hcell, rfl, hcounting, hsent⟩ := callActionsFuture_ok hclient hcall
      exact ⟨hcell, rfl, rfl, hcounting, hsent⟩
  | jobs jobs raiseJobErrors raiseActionErrors catchTransportErrors arguments =>
    simp only [Client.call, callJobsParallelFuture] at h
    generalize hcall : sendJobs _ _ _ _ _ _ _ = out at h
    obtain ⟨result, context', client₁⟩ := out
    cases result with
    | error e => cases h
    | ok sent =>
      cases h
      obtain ⟨new, hkeys, hnames, hstate, hcounting, hnoerrors, hsent⟩ := sendJobs_ok hclient
        ⟨rfl, by simp, by simp⟩ hcall
      rw [List.nil_append] at hkeys
      subst hkeys
      exact ⟨⟨rfl, hstate, hnoerrors⟩, hnames, rfl, hcounting, hsent⟩

end opening

lemma Exc.not_isUnexpected {e : Exc} (h : e.isCallError = true) : ¬ e.isUnexpected := by
  cases e <;> first | exact id | cases h

namespace Future
variable {future : Future} {answers : String × ℤ → JobResponse}

/-- A future raises the errors of a response, or finds a response without actions. -/
lemma error_own (hfuture : future.Unresolved) {e : Exc} (h : (future.own answers).error? = some e) :
    e.isCallError = true ∨ ∃ message, e = .exception "IndexError" message := by
  cases future with
  | action future =>
    rw [own, Outcome.error?_action] at h
    cases hown : future.future.own answers with
    | error e' =>
      rw [hown] at h
      cases h
      exact Or.inl (checkErrors_error hown)
    | ok response =>
      rw [hown] at h
      change ActionFuture.outcome response = .error e at h
      unfold ActionFuture.outcome at h
      split at h
      · split at h <;> cases h
        exact Or.inr ⟨_, rfl⟩
      · cases h
  | actions future =>
    rw [own, Outcome.error?_actions] at h
    exact Or.inl (checkErrors_error h)
  | jobs future =>
    rw [own, Outcome.error?_jobs] at h
    obtain ⟨key, hkey, herror⟩ := Results.exists_error_of_mapM h
    unfold JobsFuture.ownEntry at herror
    split_ifs at herror with hneg
    · obtain ⟨e', hkept⟩ := hfuture.2.1.kept key hkey hneg
      rw [hkept] at herror
      cases herror
    · cases hchecked : checkErrors future.raiseJobErrors future.raiseActionErrors (answers key) with
      | ok response =>
        rw [hchecked] at herror
        cases herror
      | error e' =>
        rw [hchecked] at herror
        cases herror
        exact Or.inl (checkErrors_error hchecked)

/-- A future's own outcome is never that its responses were not found. -/
lemma not_unexpected_own (hfuture : future.Unresolved) : ¬ (future.own answers).Unexpected := by
  rintro ⟨e, he, hbad⟩
  obtain hcall | ⟨message, rfl⟩ := error_own hfuture he
  · exact Exc.not_isUnexpected hcall hbad
  · exact hbad

lemma ne_own_of_unexpected {out : Outcome} (hfuture : future.Unresolved) (h : out.Unexpected) :
    out ≠ future.own answers := by
  rintro rfl
  exact not_unexpected_own hfuture h

end Future
end PySOA
