import TraceFence.Services.ToolRegistry
import TraceFence.Services.Common

/-!
# The fixture and the journal

`StateService`. Like `checkpoint`, `seed_scenario` never issues `BEGIN IMMEDIATE`, so it reads
first and writes later.

## Main definitions

* `seedRead`, `seedWrite`
* `listEvents` — a page of the journal of a run, behind a sequence number
-/

namespace TraceFence

open Checked

variable (db : Database)

/-- The read half of `seed_scenario`: the checks. -/
def seedRead (runId : Id) : Except Failure Unit := do
  let run ← getRun db runId
  let existingStates := db.serviceStates.rows.countP fun state => state.runId = runId
  let nonRootNodes := db.nodes.rows.countP fun n => n.runId = runId ∧ n.id ≠ run.rootNodeId
  let commandCount := db.commands.rows.countP fun c => c.runId = runId
  let actionCount := db.attempts.rows.countP fun a => a.runId = runId
  ensure (existingStates = 0)
    (conflictError "Scenario state is already initialized and cannot be reset"
      "SCENARIO_ALREADY_INITIALIZED")
  ensure (nonRootNodes = 0 ∧ commandCount = 0 ∧ actionCount = 0)
    (conflictError "Scenario state must be initialized before spawning or executing"
      "SCENARIO_INITIALIZATION_TOO_LATE")

/-- `defaults`. -/
def seedDefaults : List (String × String) :=
  [("postgres", "healthy"), ("redis", "connection_pool_exhausted"), ("checkout", "degraded")]

/-- The write half of `seed_scenario`: a row for each default. -/
def seedWrite (runId : Id) (now : Time) : Except Failure (Commit Unit) := do
  let states ← seedDefaults.foldlM (fun (t : ServiceTable) entry =>
    require (t.insert? (freshState runId entry.1 entry.2 now)) (.integrityError "service_states"))
    db.serviceStates
  return ⟨{ db with serviceStates := states }, some now, ()⟩

/-! ### The journal -/

/-- The events with their sequence numbers, which count from one. -/
def Database.timeline (db : Database) : List (RuntimeEvent × ℕ) := db.events.zipIdx 1

/-- `list_events`: the first `limit` events of the run with a sequence number above `after`. -/
def listEvents (runId : Id) (after limit : ℕ) : Except Failure (List (RuntimeEvent × ℕ)) := do
  let _ ← getRun db runId
  return (db.timeline.filter fun row => row.1.runId = runId ∧ row.2 > after).take limit

end TraceFence
