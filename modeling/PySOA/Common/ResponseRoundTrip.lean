import PySOA.Common.Types
import PySOA.Lib.Results

/-! What a client reads back of a job response that the server has made a message dict of, by the version
of the client. The response holds no tuple and no set, which would come back as a list. -/
namespace PySOA

/-- `is_caller_error` is known to the client. -/
abbrev knowsCallerErrors (clientVersion : List ℤ) : Prop := [0,70,0] ≤ clientVersion

section read
variable (clientVersion : List ℤ)

lemma map_eq_self_iff {α : Type*} {f : α → α} {l : List α} : l.map f = l ↔ ∀ a ∈ l, f a = a := by
  nth_rewrite 2 [← List.map_id l]
  exact List.map_inj_left

namespace Error

/-- The error as a client reads it. An attribute that is not sent has its default. -/
def read (e : Error) : Error :=
  if knowsCallerErrors clientVersion then e else { e with isCallerError := .bool false }

theorem ofKwargs_toValue (e : Error) : ofKwargs (e.toValue clientVersion) = .ok (e.read clientVersion) := by
  unfold toValue read
  split_ifs <;> rfl

lemma read_eq_self_iff (e : Error) :
    e.read clientVersion = e ↔ knowsCallerErrors clientVersion ∨ e.isCallerError = .bool false := by
  unfold read
  split_ifs with h
  · simp [h]
  · rw [or_iff_right h]
    constructor
    · intro heq
      rw [← heq]
    · intro heq
      rw [← heq]

end Error

lemma convertErrors_toValue (errors : List Error) :
    convertErrors (.list (errors.map (Error.toValue clientVersion))) =
      .ok (errors.map (Error.read clientVersion)) := by
  apply Results.mapM_eq_ok.mpr
  rw [List.map_map, List.map_map]
  apply List.map_congr_left
  intro e _
  exact e.ofKwargs_toValue clientVersion

namespace ActionResponse

def read (a : ActionResponse) : ActionResponse := { a with errors := a.errors.map (Error.read clientVersion) }

theorem ofKwargs_toValue (a : ActionResponse) :
    ofKwargs (a.toValue clientVersion) = .ok (a.read clientVersion) := by
  have hargs : kwargs "ActionResponse" ["action"] ["errors", "body"] (a.toValue clientVersion) =
      .ok [(.text "action", a.action), (.text "errors", .list (a.errors.map (Error.toValue clientVersion))),
        (.text "body", a.body)] := rfl
  have herrors := convertErrors_toValue clientVersion a.errors
  unfold ofKwargs
  rw [hargs]
  exact congrArg (Except.map fun errors => ({ action := a.action, errors, body := a.body } : ActionResponse))
    herrors

lemma read_eq_self_iff (a : ActionResponse) :
    a.read clientVersion = a ↔ ∀ e ∈ a.errors, e.read clientVersion = e := by
  rw [← map_eq_self_iff, read, ActionResponse.mk.injEq]
  simp

end ActionResponse

namespace JobResponse

def read (r : JobResponse) : JobResponse where
  errors := r.errors.map (Error.read clientVersion)
  context := r.context
  actions := r.actions.map (ActionResponse.read clientVersion)

/-- All errors of a response. -/
def allErrors (r : JobResponse) : List Error := r.errors ++ r.actions.flatMap (·.errors)

theorem ofKwargs_toValue (r : JobResponse) :
    ofKwargs (r.toValue clientVersion) = .ok (r.read clientVersion) := by
  have hargs : kwargs "JobResponse" [] ["errors", "context", "actions"] (r.toValue clientVersion) =
      .ok [(.text "errors", .list (r.errors.map (Error.toValue clientVersion))),
        (.text "context", r.context),
        (.text "actions", .list (r.actions.map (ActionResponse.toValue clientVersion)))] := rfl
  have herrors := convertErrors_toValue clientVersion r.errors
  have hactions : (r.actions.map (ActionResponse.toValue clientVersion)).mapM ActionResponse.ofKwargs =
      .ok (r.actions.map (ActionResponse.read clientVersion)) := by
    apply Results.mapM_eq_ok.mpr
    rw [List.map_map, List.map_map]
    apply List.map_congr_left
    intro a _
    exact a.ofKwargs_toValue clientVersion
  unfold ofKwargs
  rw [hargs]
  simp only [bind, Except.bind, Dict.get?, Key.text.injEq, String.reduceEq, if_false, if_true,
    Option.getD_some, herrors, iterate, hactions]
  rfl

lemma read_eq_self_iff (r : JobResponse) :
    r.read clientVersion = r ↔ ∀ e ∈ r.allErrors, e.read clientVersion = e := by
  have hfields : r.read clientVersion = r ↔ r.errors.map (Error.read clientVersion) = r.errors ∧
      r.actions.map (ActionResponse.read clientVersion) = r.actions := by
    rw [read, JobResponse.mk.injEq]
    simp
  rw [hfields, map_eq_self_iff, map_eq_self_iff, allErrors, List.forall_mem_append]
  apply and_congr_right
  intro _
  simp only [ActionResponse.read_eq_self_iff, List.mem_flatMap]
  constructor
  · rintro h e ⟨a, ha, he⟩
    exact h a ha e he
  · intro h a ha e he
    exact h e ⟨a, ha, he⟩

/-- The client reads back a response that has been made a message, but for `is_caller_error`, which older
clients take to be `False`. So the response comes back as it was exactly if the client is new enough or
the attribute is `False` in all of its errors. -/
theorem ofKwargs_asdict {r : JobResponse} {message : Value} (h : r.asdict clientVersion = .ok message) :
    ofKwargs message = .ok (r.read clientVersion) ∧ (ofKwargs message = .ok r ↔
      knowsCallerErrors clientVersion ∨ ∀ e ∈ r.allErrors, e.isCallerError = .bool false) := by
  unfold asdict at h
  split_ifs at h
  cases h
  rw [r.ofKwargs_toValue, Except.ok.injEq (r.read clientVersion) r, read_eq_self_iff]
  simp only [Error.read_eq_self_iff, forall_or_left, true_and]

/-- A response with an error of the caller's. -/
def deniedResponse : JobResponse where
  actions := [{
    action := .text "deny"
    errors := [{ code := .text "DENIED", message := .text "no", isCallerError := .bool true }] }]

/-- A client of version 0.68.0 does not learn that the error was the caller's. -/
theorem ofKwargs_asdict_deniedResponse : ∃ message, deniedResponse.asdict [0,68,0] = .ok message ∧
    ofKwargs message = .ok (deniedResponse.read [0,68,0]) ∧ ofKwargs message ≠ .ok deniedResponse := by
  obtain ⟨hread, hsame⟩ := ofKwargs_asdict [0,68,0] (r := deniedResponse) rfl
  refine ⟨_, rfl, hread, ?_⟩
  intro h
  obtain hnew | hfalse := hsame.mp h
  · exact absurd hnew (by decide)
  · cases hfalse _ (List.mem_append_right _ (List.mem_flatMap.mpr ⟨_, List.mem_singleton_self _,
      List.mem_singleton_self _⟩))

end JobResponse
end read
end PySOA
