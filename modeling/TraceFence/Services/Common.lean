import TraceFence.Db.Models
import TraceFence.Lib.Checked

/-!
# What every service asks of the registry

`services/common.py`: authentication, the evaluation of a node's scope snapshot against the live
scopes, the runtime-state ladder, the two walks over parent pointers, and the attribution of scope
mismatches to commands.
-/

namespace TraceFence

open Checked

variable (cfg : Config) (db : Database)

/-- `get_run`. -/
def getRun (runId : Id) : Except Failure Run :=
  require (db.runs.get? runId) (notFoundError s!"Run {runId} was not found")

/-- `get_node`. -/
def getNode (nodeId : Id) : Except Failure Node :=
  require (db.nodes.get? nodeId) (notFoundError s!"Node {nodeId} was not found")

/-- `authenticate_node`. -/
def authenticateNode (nodeId : Id) (token : Token) : Except Failure Node := do
  let node ← getNode db nodeId
  ensure (cfg.tokenMatches token node.tokenHash) (authenticationError "Invalid node token")
  return node

/-! ### Scope evaluation -/

structure ScopeMismatch where
  scopeId : Id
  snapshotVersion : ℕ
  liveVersion : Option ℕ
  liveStatus : Option ScopeStatus
  reasonCode : ReasonCode
  deriving DecidableEq, Repr

structure ScopeEvaluation where
  allowed : Bool
  effectiveStatus : NodeStatus
  mismatches : List ScopeMismatch
  /-- The live version and status of every snapshot entry that exists. -/
  liveScopes : List (Id × ℕ × ScopeStatus)
  deriving DecidableEq, Repr

def ScopeEvaluation.primaryReason (e : ScopeEvaluation) : Option ReasonCode :=
  e.mismatches.head?.map (·.reasonCode)

/-- `live_by_id.get(scope_id)`: the scope, if the node's run has it. -/
def liveScope (runId : Id) (scopeId : Id) : Option ControlScope :=
  (db.scopes.get? scopeId).filter fun scope => scope.runId = runId

/-- The body of the loop over the snapshot: record a mismatch, and let the effective status only
become more severe. -/
def evaluateEntry (runId : Id) (acc : ScopeEvaluation) (item : ScopeRef) : ScopeEvaluation :=
  match liveScope db runId item.scopeId with
  | none =>
    { acc with
      mismatches := acc.mismatches ++ [⟨item.scopeId, item.version, none, none, .scopeNotFound⟩]
      effectiveStatus := .cancelled }
  | some live =>
    let acc := { acc with liveScopes := acc.liveScopes ++ [(live.id, live.version, live.status)] }
    if live.status = .cancelled then
      { acc with
        mismatches := acc.mismatches ++
          [⟨item.scopeId, item.version, some live.version, some live.status, .scopeCancelled⟩]
        effectiveStatus := .cancelled }
    else if live.status = .superseded then
      { acc with
        mismatches := acc.mismatches ++
          [⟨item.scopeId, item.version, some live.version, some live.status, .scopeSuperseded⟩]
        effectiveStatus :=
          if acc.effectiveStatus ≠ .cancelled then .superseded else acc.effectiveStatus }
    else if live.version ≠ item.version then
      { acc with
        mismatches := acc.mismatches ++
          [⟨item.scopeId, item.version, some live.version, some live.status,
            .scopeVersionMismatch⟩]
        effectiveStatus :=
          if acc.effectiveStatus = .active then .superseded else acc.effectiveStatus }
    else acc

/-- `evaluate_scopes`. -/
def evaluateScopes (node : Node) : ScopeEvaluation :=
  if node.scopeSnapshot.isEmpty then ⟨false, .cancelled, [], []⟩
  else
    let acc := node.scopeSnapshot.foldl (evaluateEntry db node.runId) ⟨true, .active, [], []⟩
    { acc with allowed := acc.mismatches.isEmpty }

/-- What `validate_node_runtime_state` returns. -/
structure RuntimeState where
  allowed : Bool
  reason : Option ReasonCode
  evaluation : ScopeEvaluation
  deriving DecidableEq, Repr

/-- `node.lease_expires_at is None or node.lease_expires_at <= now`. -/
def Node.leaseExpired (node : Node) (now : Time) : Bool :=
  match node.leaseExpiresAt with
  | none => true
  | some expiry => expiry ≤ now

/-- `validate_node_runtime_state`, reading the clock as `now`. -/
def validateNodeRuntimeState (node : Node) (now : Time) : Except Failure RuntimeState := do
  let run ← getRun db node.runId
  let evaluation := evaluateScopes db node
  if run.status ≠ .running then return ⟨false, some .runNotActive, evaluation⟩
  else if !node.status.isLive then return ⟨false, some .nodeNotActive, evaluation⟩
  else if node.leaseExpired now then return ⟨false, some .leaseExpired, evaluation⟩
  else if !evaluation.allowed then return ⟨false, evaluation.primaryReason, evaluation⟩
  else return ⟨true, none, evaluation⟩

/-! ### Walks over parent pointers -/

/-- The loop of `is_descendant`: climb from `currentId`, refusing a node seen before, a missing
node and a node of another run. -/
def isDescendantLoop (runId ancestorNodeId : Id) : ℕ → List Id → Option Id → Bool
  | _, _, none => false
  | 0, _, some _ => false
  | fuel + 1, visited, some currentId =>
    if currentId ∈ visited then false
    else
      match db.nodes.get? currentId with
      | none => false
      | some node =>
        if node.runId ≠ runId then false
        else if node.parentId = some ancestorNodeId then true
        else isDescendantLoop runId ancestorNodeId fuel (currentId :: visited) node.parentId

/-- `is_descendant`: whether the target is a strict descendant of the ancestor. The loop visits
no node twice, so one more unit of fuel than there are nodes is enough. -/
def isDescendant (runId ancestorNodeId targetNodeId : Id) : Bool :=
  if ancestorNodeId = targetNodeId then false
  else isDescendantLoop db runId ancestorNodeId (db.nodes.rows.length + 1) [] (some targetNodeId)

/-- The loop of `descendants_including_self` over a stack whose top is its head. -/
def descendantsLoop (nodes : List Node) : ℕ → List Node → List Id → List Node
  | 0, _, _ => []
  | _ + 1, [], _ => []
  | fuel + 1, node :: stack, visited =>
    if node.id ∈ visited then descendantsLoop nodes fuel stack visited
    else
      let children := nodes.filter fun child => child.parentId = some node.id
      node :: descendantsLoop nodes fuel (children.reverse ++ stack) (node.id :: visited)

/-- The rows both walks select: the nodes of a run, optionally those registered by a given
time. -/
def registeredNodes (runId : Id) (registeredBefore : Option Time) : List Node :=
  db.nodes.rows.filter fun node =>
    node.runId = runId ∧ ∀ t ∈ registeredBefore, node.registeredAt ≤ t

/-- `descendants_including_self`. Every node is pushed once for the root and once for each
parent pointer to a node listed, which bounds the loop. -/
def descendantsIncludingSelf (runId rootNodeId : Id) (registeredBefore : Option Time := none) :
    List Node :=
  let nodes := registeredNodes db runId registeredBefore
  match nodes.find? fun node => node.id = rootNodeId with
  | none => []
  | some root => descendantsLoop nodes (nodes.length + 1) [root] []

/-! ### Attribution -/

/-- `by_scope`: the last mismatch recorded for a scope that exists. -/
def mismatchFor (mismatches : List ScopeMismatch) (scopeId : Id) : Option ScopeMismatch :=
  mismatches.reverse.find? fun m => m.scopeId = scopeId ∧ m.liveVersion ≠ none

/-- `order_by(created_at.asc(), id.asc())`. -/
def commandOrder (c c' : ControlCommand) : Prop :=
  c.createdAt < c'.createdAt ∨ (c.createdAt = c'.createdAt ∧ c.id ≤ c'.id)

instance : DecidableRel commandOrder := fun _ _ => inferInstanceAs (Decidable (_ ∨ _))

/-- `commands_for_scope_mismatches`. -/
def commandsForScopeMismatches (mismatches : List ScopeMismatch) (runId : Id) :
    List ControlCommand :=
  (db.commands.rows.filter fun command =>
    decide (command.runId = runId) &&
      (mismatchFor mismatches command.targetScopeId).any fun m =>
        m.liveVersion = some command.toVersion).insertionSort commandOrder

end TraceFence
