import TraceFence.Services.NodeLifecycle

/-!
# The lease scanner

`LeaseService.expire_stale_nodes`, which reads the clock before it acquires the write lock.

## Main definitions

* `expireStaleNode` — one node of a scan
* `expireStaleNodes`
-/

namespace TraceFence

open Checked

variable (db : Database)

/-- Whether a scan is about the run of a node. -/
def inScope (runId : Option Id) (node : Node) : Bool := runId.all fun id => node.runId = id

/-- A live node whose lease lies strictly before `now`. -/
def staleLease (runId : Option Id) (now : Time) (node : Node) : Bool :=
  node.status.isLive && node.leaseExpiresAt.any (· < now) && inScope runId node

/-- A pending node whose unconsumed intent has expired strictly before `now`. -/
def staleIntent (runId : Option Id) (now : Time) (node : Node) : Bool :=
  decide (node.status = .pending) &&
    (db.intents.get? node.id).any (fun intent =>
      intent.consumedAt.isNone && decide (intent.expiresAt < now)) && inScope runId node

/-- The nodes a scan expires. -/
def staleNodes (runId : Option Id) (now : Time) : List Node :=
  db.nodes.rows.filter (staleLease runId now) ++ db.nodes.rows.filter (staleIntent db runId now)

/-- The lifecycle change of the causing command: only a pending one moves. -/
def expireActivation (node : Node) : Database :=
  match node.causedByCommandId with
  | none => db
  | some commandId =>
    if (db.commands.get? commandId).any fun command =>
        command.replacementNodeId = some node.id ∧ command.replacementStatus = some .pending then
      setReplacementStatus db commandId .activationExpired
    else db

/-- The run of a root that has expired. -/
def failRun (node : Node) (now : Time) : Except Failure Database :=
  match (db.runs.get? node.runId).filter fun run =>
      run.rootNodeId = node.id ∧ run.status = .running with
  | none => .ok db
  | some run => do
    let runs ← transitionRun db.runs run .failed now
    return { db with runs := runs }

/-- One turn of the loop of `expire_stale_nodes`. -/
def expireStaleNode (now : Time) (db : Database) (node : Node) : Except Failure Database := do
  let marked := expireActivation (setStatus db node.id .leaseExpired) node
  let failed ← failRun marked node now
  return recordRuntimeEvent (recordLeaseExpiryAck failed node now)
    { runId := node.runId, eventType := .leaseExpired, occurredAt := now, nodeId := some node.id,
      parentNodeId := node.parentId, commandId := node.causedByCommandId }

/-- `expire_stale_nodes`. -/
def expireStaleNodes (runId : Option Id) (now : Time) : Except Failure (Commit ℕ) := do
  let nodes := staleNodes db runId now
  let expired ← nodes.foldlM (expireStaleNode now) db
  return ⟨expired, some now, nodes.length⟩

end TraceFence
