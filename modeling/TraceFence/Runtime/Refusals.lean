import TraceFence.Runtime.Worker

/-!
# What a refused request is answered with

A worker takes a status for a success or not. A completion or an action that raises anything, be it
an error of the services or one that escapes from the database, is answered with a status from 400
on, so no worker takes it for a success.

## Main results

* `rejects_complete`, `rejects_execute`
-/

namespace TraceFence

open Checked

variable {cfg : Config} {db : Database} {env : Env}

/-- A call that raises is answered with the status of an error. -/
def Failure.Rejects (e : Failure) : Prop := 400 ≤ e.status

@[simp] theorem rejects_conflictError {message code : String} :
    (conflictError message code).Rejects := by
  show 400 ≤ 409
  omega

@[simp] theorem rejects_notFoundError {message : String} : (notFoundError message).Rejects := by
  show 400 ≤ 404
  omega

@[simp] theorem rejects_authenticationError {message : String} :
    (authenticationError message).Rejects := by
  show 400 ≤ 401
  omega

@[simp] theorem rejects_rateLimitError {category : String} : (rateLimitError category).Rejects := by
  show 400 ≤ 429
  omega

@[simp] theorem rejects_integrityError {name : String} : (Failure.integrityError name).Rejects := by
  show 400 ≤ 500
  omega

theorem rejects_authenticateNode {nodeId : Id} {token : Token} :
    OnlyFails Failure.Rejects (authenticateNode cfg db nodeId token) := by
  simp only [authenticateNode, getNode, onlyFails_bind, onlyFails_require, onlyFails_ensure,
    onlyFails_pure, rejects_notFoundError, rejects_authenticationError, implies_true, and_self]

theorem rejects_checkRate {category : String} :
    OnlyFails Failure.Rejects (env.checkRate category) := by
  rw [Env.checkRate]
  split_ifs
  · exact onlyFails_error.mpr rejects_rateLimitError
  · exact onlyFails_ok

theorem rejects_getRun {runId : Id} : OnlyFails Failure.Rejects (getRun db runId) :=
  onlyFails_require.mpr fun _ => rejects_notFoundError

theorem rejects_transitionRun {runs : Table Run} {run : Run} {target : RunStatus} {now : Time} :
    OnlyFails Failure.Rejects (transitionRun runs run target now) := by
  simp only [transitionRun, onlyFails_bind, onlyFails_require, onlyFails_ensure, onlyFails_pure,
    rejects_conflictError, implies_true, and_self]

theorem rejects_validateNodeRuntimeState {node : Node} {now : Time} :
    OnlyFails Failure.Rejects (validateNodeRuntimeState db node now) := by
  refine onlyFails_bind.mpr ⟨rejects_getRun, fun run _ => ?_⟩
  dsimp only
  split_ifs <;> exact onlyFails_pure

/-- A refused completion is answered with the status of an error. -/
theorem rejects_complete {nodeId : Id} {token : Token} :
    OnlyFails Failure.Rejects (complete cfg db nodeId token env) := by
  have hfinish (run : Run) (node : Node) : OnlyFails Failure.Rejects (finishRun db run node env) := by
    rw [finishRun]
    split_ifs
    · simp only [completeRun, onlyFails_bind, onlyFails_ensure, onlyFails_pure,
        rejects_conflictError, rejects_transitionRun, implies_true, and_self]
    · exact onlyFails_ok
  have hcause (node : Node) (message : String) :
      OnlyFails Failure.Rejects (causingCommand db node .active message) := by
    rw [causingCommand]
    split
    · exact onlyFails_ok
    · simp only [onlyFails_bind, onlyFails_require, onlyFails_pure, rejects_conflictError,
        implies_true, and_self]
  simp only [complete, onlyFails_bind, rejects_authenticateNode, rejects_checkRate, requireLive,
    rejects_validateNodeRuntimeState, onlyFails_ensure, rejects_getRun, hfinish, hcause,
    onlyFails_pure, rejects_conflictError, implies_true, and_self]

theorem rejects_insertAttempt {x : ActionAttempt} :
    OnlyFails Failure.Rejects (insertAttempt db x) := by
  simp only [insertAttempt, onlyFails_bind, onlyFails_ensure, onlyFails_require,
    rejects_integrityError, implies_true, and_self]

theorem rejects_validateArguments {spec : ToolSpec} {arguments : Dict} :
    OnlyFails Failure.Rejects (spec.validateArguments arguments) :=
  onlyFails_ensure.mpr fun _ => rejects_conflictError

/-- A refused action is answered with the status of an error. -/
theorem rejects_execute {nodeId : Id} {token : Token} {request : ActionExecute} :
    OnlyFails Failure.Rejects (execute cfg db nodeId token request env) := by
  have hadmission (run : Run) (node : Node) (spec : ToolSpec) (now : Time) :
      OnlyFails Failure.Rejects (admission cfg db run node request spec now) := by
    rw [admission]
    repeat' split
    all_goals first
      | exact onlyFails_pure
      | exact onlyFails_bind.mpr ⟨rejects_validateArguments, fun _ _ => onlyFails_pure⟩
  have hdeny (node : Node) (x : ActionAttempt) (reason : ReasonCode) :
      OnlyFails Failure.Rejects (denyAction db node x reason env) := by
    simp only [denyAction, onlyFails_bind, onlyFails_pure, implies_true, and_true]
    refine ⟨rejects_insertAttempt, fun _ _ => onlyFails_foldlM (fun _ _ => ?_) _ _⟩
    exact onlyFails_require.mpr fun _ => rejects_integrityError
  have hallow (node : Node) (spec : ToolSpec) (x : ActionAttempt) :
      OnlyFails Failure.Rejects (allowAction cfg db node request spec x env) := by
    simp only [allowAction, ToolSpec.execute, onlyFails_bind, onlyFails_pure, rejects_insertAttempt,
      rejects_validateArguments, implies_true, and_self]
  rw [execute]
  refine onlyFails_bind.mpr ⟨rejects_authenticateNode, fun node _ => ?_⟩
  split
  · simp only [onlyFails_bind, onlyFails_ensure, onlyFails_pure, rejects_conflictError, implies_true,
      and_self]
  · refine onlyFails_bind.mpr ⟨?_, fun _ _ => onlyFails_pure⟩
    simp only [executeNew, onlyFails_bind, rejects_checkRate, rejects_getRun, getToolSpec,
      onlyFails_require, onlyFails_ensure, rejects_conflictError, hadmission, implies_true, true_and]
    intro _ _ _ _ _ _ _ _ denial _
    cases denial with
    | none => exact hallow _ _ _
    | some reason => exact hdeny _ _ _

end TraceFence
