import TraceFence.Services.Common

/-!
# The graph of a run

`GraphService.get_graph`: the picture of a run that the inspector draws. It takes four queries, for
the run, its nodes, its commands and its scopes, and other transactions may commit between any two
of them. The scopes that the evaluation of a node reads are the ones that the last query has loaded:
a session keeps what it has loaded.

## Main definitions

* `GraphReads` — the database as each of the four queries finds it
* `getGraph`
-/

namespace TraceFence

open Checked

/-! ### The response -/

/-- The strings of `lease_state`. -/
inductive LeaseState
  | notActivated | terminal | live | expired
  deriving DecidableEq, Repr

/-- `GraphNode`. -/
structure GraphNode where
  id : Id
  parentId : Option Id
  supersedesNodeId : Option Id
  causedByCommandId : Option Id
  role : String
  behavior : String
  capabilities : List String
  generation : ℕ
  declaredStatus : NodeStatus
  effectiveStatus : NodeStatus
  instructionVersion : ℕ
  leaseState : LeaseState
  ownScopeId : Id
  ownScopeVersion : ℕ
  ownScopeStatus : ScopeStatus
  inheritedScopeCount : ℕ
  blockingScopeId : Option Id
  blockingReason : Option ReasonCode
  deriving DecidableEq, Repr

inductive EdgeType
  | spawn | supersedes
  deriving DecidableEq, Repr

structure GraphEdge where
  source : Id
  target : Id
  type : EdgeType
  deriving DecidableEq, Repr

/-- An entry of `commands`. -/
structure GraphCommand where
  id : Id
  type : CommandType
  targetNodeId : Id
  targetScopeId : Id
  fromVersion : ℕ
  toVersion : ℕ
  reasonCode : String
  sourceProposalId : Option Id
  replacementNodeId : Option Id
  replacementStatus : Option ReplacementStatus
  replacementManifestDigest : Option Digest
  replacementManifest : Option ManifestJson
  createdAt : Time

/-- `GraphResponse`. -/
structure GraphResponse where
  runId : Id
  status : RunStatus
  nodes : List GraphNode
  edges : List GraphEdge
  commands : List GraphCommand

/-- How `get_graph` fails: as other services do, or on a registry that it takes for corrupt. -/
inductive GraphFailure
  | error (e : Failure)
  | runtimeError (message : String)

/-! ### Drawing -/

/-- `lease_state`. -/
def Node.leaseState (node : Node) (now : Time) : LeaseState :=
  if node.status = .pending then .notActivated
  else if node.status.isTerminal then .terminal
  else if !node.leaseExpired now then .live
  else .expired

/-- The node as it is drawn, evaluated against the scopes of `scopes`. -/
def graphNode (scopes : Database) (now : Time) (node : Node) (ownScope : ControlScope) : GraphNode :=
  let evaluation := evaluateScopes scopes node
  let primaryMismatch := evaluation.mismatches.head?
  { id := node.id
    parentId := node.parentId
    supersedesNodeId := node.supersedesNodeId
    causedByCommandId := node.causedByCommandId
    role := node.role
    behavior := node.behavior
    capabilities := sortedSet node.capabilities
    generation := node.generation
    declaredStatus := node.status
    effectiveStatus := if !evaluation.allowed then evaluation.effectiveStatus else node.status
    instructionVersion := node.instructionVersion
    leaseState := node.leaseState now
    ownScopeId := node.ownScopeId
    ownScopeVersion := ownScope.version
    ownScopeStatus := ownScope.status
    inheritedScopeCount := node.scopeSnapshot.length
    blockingScopeId := primaryMismatch.map (·.scopeId)
    blockingReason := primaryMismatch.map (·.reasonCode) }

/-- The body of the loop over the nodes: a node without its own scope is not drawn around. -/
def drawNode (scopes : Database) (runId : Id) (now : Time) (node : Node) :
    Except GraphFailure GraphNode := do
  let ownScope ← require (liveScope scopes runId node.ownScopeId)
    (.runtimeError s!"Node {node.id} has no owned control scope")
  return graphNode scopes now node ownScope

/-- The edges into a node. -/
def graphEdges (node : Node) : List GraphEdge :=
  (node.parentId.map fun parentId => ⟨parentId, node.id, .spawn⟩).toList ++
    (node.supersedesNodeId.map fun oldId => ⟨oldId, node.id, .supersedes⟩).toList

def graphCommand (command : ControlCommand) : GraphCommand where
  id := command.id
  type := command.commandType
  targetNodeId := command.targetNodeId
  targetScopeId := command.targetScopeId
  fromVersion := command.fromVersion
  toVersion := command.toVersion
  reasonCode := command.reasonCode
  sourceProposalId := command.sourceProposalId
  replacementNodeId := command.replacementNodeId
  replacementStatus := command.replacementStatus
  replacementManifestDigest := command.replacementManifestDigest
  replacementManifest := command.replacementManifest
  createdAt := command.createdAt

/-! ### The queries -/

/-- The database as each query finds it. -/
structure GraphReads where
  run : Database
  nodes : Database
  commands : Database
  scopes : Database

/-- `order_by(Node.registered_at)`. Rows of one time come in the order of their insertion. -/
def runNodes (db : Database) (runId : Id) : List Node :=
  (db.nodes.rows.filter fun node => node.runId = runId).insertionSort
    fun a b => a.registeredAt ≤ b.registeredAt

/-- `order_by(ControlCommand.created_at)`. -/
def runCommands (db : Database) (runId : Id) : List ControlCommand :=
  (db.commands.rows.filter fun command => command.runId = runId).insertionSort
    fun a b => a.createdAt ≤ b.createdAt

/-- `get_graph`, reading the clock as `now`. -/
def getGraph (reads : GraphReads) (runId : Id) (now : Time) : Except GraphFailure GraphResponse := do
  let run ← (getRun reads.run runId).mapError .error
  let nodes := runNodes reads.nodes runId
  let graphNodes ← nodes.mapM (drawNode reads.scopes runId now)
  return {
    runId := run.id
    status := run.status
    nodes := graphNodes
    edges := nodes.flatMap graphEdges
    commands := (runCommands reads.commands runId).map graphCommand }

end TraceFence
