import TraceFence.Effect.Step
import TraceFence.Registry.Inversion
import TraceFence.Registry.Refinement

/-!
# The completion of a root

A root that completes takes its run with it, so `complete` first sweeps the other nodes of the run:
what has expired is marked, and a valid node that has not stops the completion, which then takes
the marks back. Here the sweep is computed in closed form, as a condition on the rows it starts
from, and with it the exact condition under which a root completes and everything that changes
when it does.

## Main definitions

* `Completable` — what must hold of the root and of the other nodes of its run
* `Completed` — what a completion leaves behind

## Main results

* `get?_sweep`, `sweep_blocked` — the sweep in closed form
* `root_completion`
-/

namespace TraceFence

open System Checked

variable {cfg : Config} {db : Database} {s : Sys}

/-! ### The sweep -/

/-- Whether a node stops the sweep: it is still going, has not expired, and its scopes are valid. -/
def blocksSweep (db : Database) (node : Node) (now : Time) : Bool :=
  !node.status.isTerminal && !sweepExpired db node now && (evaluateScopes db node).allowed

theorem sweepExpired_of_terminal {node : Node} (h : node.status.isTerminal = true) (now : Time) :
    sweepExpired db node now = false := by
  rw [sweepExpired]
  cases hs : node.status <;> rw [hs] at h <;> first | rfl | cases h

theorem blocksSweep_congr {db' : Database} (h : StatusOnly db db') (node : Node) (now : Time) :
    blocksSweep db' node now = blocksSweep db node now := by
  rw [blocksSweep, blocksSweep, h.sweepExpired, evaluateScopes_congr h.scopes]

/-- One turn of the loop: a node that has expired is marked, and one that stops the sweep is
noted. -/
theorem sweepNode_eq (db : Database) (acc : Bool) (now : Time) (other : Node) :
    sweepNode now (db, acc) other =
      (if sweepExpired db other now then
          recordLeaseExpiryAck (setStatus db other.id .leaseExpired) other now
        else db,
        acc || blocksSweep db other now) := by
  rw [sweepNode, blocksSweep]
  by_cases hterminal : other.status.isTerminal = true
  · simp [hterminal, sweepExpired_of_terminal hterminal now]
  · by_cases hexpired : sweepExpired db other now = true <;> simp [hterminal, hexpired]

theorem statusOnly_sweepNode (db : Database) (acc : Bool) (now : Time) (other : Node) :
    StatusOnly db (sweepNode now (db, acc) other).1 := by
  rw [sweepNode_eq]
  dsimp only
  split_ifs
  · exact sweepMark_statusOnly other now
  · exact .refl

theorem get?_sweepNode (db : Database) (acc : Bool) (now : Time) (other : Node) (id : Id) :
    (sweepNode now (db, acc) other).1.nodes.get? id = (db.nodes.get? id).map fun n =>
      if other.id = id ∧ sweepExpired db other now = true then { n with status := .leaseExpired }
      else n := by
  rw [sweepNode_eq]
  by_cases hexpired : sweepExpired db other now = true
  · rw [if_pos hexpired, sweepMark_eq]
    rw [setStatus, Table.get?_modify]
    simp only [hexpired, and_true, @eq_comm _ other.id]
  · simp [hexpired]

/-- What a sweep over any list of rows does: each row is looked at as it was when the list was
read, whatever was marked before. -/
theorem foldl_sweepNode (now : Time) (others : List Node) (db : Database) (acc : Bool) :
    StatusOnly db (others.foldl (sweepNode now) (db, acc)).1 ∧
      (∀ id, (others.foldl (sweepNode now) (db, acc)).1.nodes.get? id =
        (db.nodes.get? id).map fun n =>
          if ∃ o ∈ others, o.id = id ∧ sweepExpired db o now = true then
            { n with status := .leaseExpired }
          else n) ∧
      (others.foldl (sweepNode now) (db, acc)).2 =
        (acc || others.any fun o => blocksSweep db o now) := by
  induction others generalizing db acc with
  | nil => exact ⟨.refl, fun id => by simp, by simp⟩
  | cons other rest ih =>
    have hstep := statusOnly_sweepNode db acc now other
    have hnodes := get?_sweepNode db acc now other
    have hacc : (sweepNode now (db, acc) other).2 = (acc || blocksSweep db other now) := by
      rw [sweepNode_eq]
    rw [List.foldl_cons]
    generalize sweepNode now (db, acc) other = turn at hstep hnodes hacc ⊢
    obtain ⟨db₁, acc₁⟩ := turn
    obtain ⟨hstatus, hget, hblocked⟩ := ih db₁ acc₁
    have hexpired : ∀ o, sweepExpired db₁ o now = sweepExpired db o now := fun o =>
      hstep.sweepExpired o now
    refine ⟨hstep.trans hstatus, fun id => ?_, ?_⟩
    · rw [hget id, hnodes id, Option.map_map]
      refine congrArg (Option.map · (db.nodes.get? id)) (funext fun n => ?_)
      simp only [Function.comp_apply, hexpired, List.mem_cons, exists_eq_or_imp]
      by_cases hhead : other.id = id ∧ sweepExpired db other now = true <;> simp [hhead]
    · rw [hblocked, show acc₁ = _ from hacc, List.any_cons, Bool.or_assoc]
      simp only [blocksSweep_congr hstep]

theorem statusOnly_sweep (db : Database) (root : Node) (now : Time) :
    StatusOnly db (sweep db root now).1 :=
  (foldl_sweepNode now _ db false).1

/-- **The nodes after the sweep**: those of the run that have expired are marked, and nothing else
about any node has changed. -/
theorem get?_sweep (root : Node) (now : Time) {id : Id} {node : Node}
    (h : db.nodes.get? id = some node) :
    (sweep db root now).1.nodes.get? id = some
      (if (node.runId = root.runId ∧ node.id ≠ root.id) ∧ sweepExpired db node now = true then
        { node with status := .leaseExpired } else node) := by
  have hkey : node.id = id := Table.key_of_get? h
  rw [sweep, (foldl_sweepNode now _ db false).2.1 id, h, Option.map_some]
  refine congrArg some (if_congr ?_ rfl rfl)
  constructor
  · rintro ⟨o, ho, rfl, hexpired⟩
    obtain ⟨hfound, hother⟩ := mem_sweep_others.mp ho
    obtain rfl := Option.some.inj (hfound.symm.trans h)
    exact ⟨hother, hexpired⟩
  · rintro ⟨hother, hexpired⟩
    exact ⟨node, mem_sweep_others.mpr ⟨hkey ▸ h, hother⟩, hkey, hexpired⟩

/-- **What stops the sweep.** -/
theorem sweep_blocked (root : Node) (now : Time) :
    (sweep db root now).2 = false ↔ ∀ n ∈ db.nodes.rows, n.runId = root.runId → n.id ≠ root.id →
      blocksSweep db n now = false := by
  rw [sweep, (foldl_sweepNode now _ db false).2.2, Bool.false_or, List.any_eq_false]
  simp only [List.mem_filter, decide_eq_true_eq, Bool.not_eq_true, and_imp]

/-! ### The run and its root -/

/-- A running run has not finished. -/
theorem finishedAt_of_running (h : (services cfg).Reachable s) :
    ∀ runId run, s.db.runs.get? runId = some run → run.status = .running →
      run.finishedAt = none := by
  refine reachable_db (I := fun db => ∀ runId run, db.runs.get? runId = some run →
    run.status = .running → run.finishedAt = none) h nofun ?_
  intro w a b ha he runId run hrun hrunning
  obtain ⟨-, -, hfinished, -⟩ | ⟨before, hbefore, hstep⟩ := he.run_cases hrun
  · exact hfinished
  · cases hstep with
    | same => exact ha runId run hbefore hrunning
    | finish =>
      simp only [Write.verdict] at hrunning
      split at hrunning <;> cases hrunning

/-- No command causes a root. -/
theorem causedByCommandId_of_root (h : (services cfg).Reachable s) {run : Run} {root : Node}
    (hrun : s.db.runs.get? root.runId = some run) (hroot : s.db.nodes.get? root.id = some root)
    (hid : run.rootNodeId = root.id) : root.causedByCommandId = none := by
  have hW := registry_wellFormed h
  obtain ⟨r, hr, -, hparent⟩ := hW.root _ _ (registry_run_of_get? hrun)
  obtain ⟨-, -, -, -, hcause, -⟩ := hW.orphan _ _ hr hparent
  obtain rfl : root.registration = r :=
    Option.some.inj ((registry_node_of_get? hroot).symm.trans (hid ▸ hr))
  exact hcause

/-! ### Completion -/

/-- The root is live, and every other node of its run is terminal, expired, or has an invalid
scope. -/
structure Completable (db : Database) (root : Node) (now : Time) : Prop where
  live : Live db root now
  others : ∀ n ∈ db.nodes.rows, n.runId = root.runId → n.id ≠ root.id →
    n.status.isTerminal = true ∨ sweepExpired db n now = true ∨
      (evaluateScopes db n).allowed = false

/-- What a completion makes of `db`. -/
structure Completed (db db' : Database) (root : Node) (now : Time) : Prop where
  self : ∃ n, db'.nodes.get? root.id = some n ∧ n.status = .completed
  run : ∃ run, db'.runs.get? root.runId = some run ∧ run.status = .completed
  /-- The expired nodes of the run are marked. -/
  expired : ∀ n ∈ db.nodes.rows, n.runId = root.runId → n.id ≠ root.id →
    sweepExpired db n now = true → (db'.nodes.get? n.id).map (·.status) = some .leaseExpired
  /-- No other node changes its status, and none appears or goes. -/
  others : ∀ id, id ≠ root.id →
    (∀ n, db.nodes.get? id = some n → n.runId = root.runId → sweepExpired db n now = false) →
    (db'.nodes.get? id).map (·.status) = (db.nodes.get? id).map (·.status)

theorem completable_iff {root : Node} {now : Time} :
    Completable db root now ↔ Live db root now ∧ (sweep db root now).2 = false := by
  rw [sweep_blocked]
  have hblocked : ∀ n, blocksSweep db n now = false ↔ n.status.isTerminal = true ∨
      sweepExpired db n now = true ∨ (evaluateScopes db n).allowed = false := by
    intro n
    simp only [blocksSweep, Bool.and_eq_false_iff, Bool.not_eq_false', or_assoc]
  simp only [hblocked]
  exact ⟨fun ⟨hlive, hothers⟩ => ⟨hlive, hothers⟩, fun ⟨hlive, hothers⟩ => ⟨hlive, hothers⟩⟩

/-- The database a root that completes leaves behind. -/
def completedRoot (db : Database) (run : Run) (root : Node) (now : Time) : Database :=
  completeNode
    { (sweep db root now).1 with
      runs := (sweep db root now).1.runs.modify run.id fun row =>
        { row with
          status := .completed
          finishedAt := some now } }
    root none now

/-- **The completion of a root in closed form.** -/
theorem complete_root_eq_ok (h : (services cfg).Reachable s) {nodeId : Id} {token : Token}
    {root : Node} (hnode : authenticateNode cfg s.db nodeId token = .ok root)
    (hroot : isRoot s.db root = true) {env : Env} {now : Time} (hclock : ∀ i, env.clock i = now)
    (hrate : env.rateLimited = false) {c : Commit Unit} :
    complete cfg s.db nodeId token env = .ok c ↔
      (Live s.db root now ∧ (sweep s.db root now).2 = false) ∧
        ∃ run, s.db.runs.get? root.runId = some run ∧
          ⟨completedRoot s.db run root now, some now, ()⟩ = c := by
  obtain ⟨hfound, -⟩ := authenticateNode_eq_ok.mp hnode
  obtain ⟨run, hrun, hid⟩ := (Option.any_eq_true _ _).mp hroot
  replace hid := of_decide_eq_true hid
  have hkey : run.id = root.runId := Table.key_of_get? hrun
  have hcause : causingCommand (s.db) root .active
      "Replacement completion lifecycle is inconsistent" = .ok none := by
    rw [causingCommand, causedByCommandId_of_root h hrun (found_of_get? hfound) hid]
  have hruns : ∀ runs, transitionRun (sweep s.db root now).1.runs run .completed now = .ok runs ↔
      run.status = .running ∧ (sweep s.db root now).1.runs.modify run.id (fun row =>
        { row with
          status := .completed
          finishedAt := some now }) = runs := by
    intro runs
    rw [transitionRun_eq_ok, (statusOnly_sweep s.db root now).runs]
    constructor
    · rintro ⟨hallowed, -, rfl⟩
      refine ⟨?_, rfl⟩
      cases hs : run.status <;> rw [hs] at hallowed <;> revert hallowed <;> decide
    · rintro ⟨hrunning, rfl⟩
      refine ⟨by rw [hrunning]; decide, ⟨run, hkey ▸ hrun, rfl, ?_⟩, rfl⟩
      exact finishedAt_of_running h _ _ hrun hrunning
  have hpass : env.checkRate "heartbeat" = .ok () := Env.checkRate_eq_ok.mpr hrate
  have hlive : ∀ u, requireLive s.db root now "Node cannot complete" "COMPLETE_DENIED" = .ok u ↔
      Live s.db root now := fun _ => ⟨requireLive_eq_ok, fun hl => requireLive_of_live hl _ _⟩
  have hrunning : Live s.db root now → run.status = .running := by
    rintro ⟨⟨run', hrun', hstatus⟩, -, -, -⟩
    rwa [Option.some.inj (hrun.symm.trans hrun')]
  rw [complete, hnode, ok_bind, hpass, ok_bind, getRun_eq_ok.mpr hrun]
  simp only [hclock, finishRun, if_pos hid, completeRun, bind_eq_ok, ensure_eq_ok, pure_eq_ok,
    hruns, hcause, hlive, ok_bind]
  constructor
  · rintro ⟨-, hl, _, ⟨-, hswept, _, ⟨-, rfl⟩, rfl⟩, rfl⟩
    exact ⟨⟨hl, hswept⟩, run, hrun, rfl⟩
  · rintro ⟨⟨hl, hswept⟩, run', hrun', rfl⟩
    obtain rfl := Option.some.inj (hrun.symm.trans hrun')
    exact ⟨(), hl, _, ⟨(), hswept, _, ⟨hrunning hl, rfl⟩, rfl⟩, rfl⟩

/-! ### What is left behind -/

/-- What `completeNode` does to the other nodes, for a node that no command caused. -/
theorem get?_completeNode {node : Node} {now : Time} {id : Id} :
    (completeNode db node none now).nodes.get? id = (db.nodes.get? id).map fun n =>
      if id = node.id then
        { n with
          status := .completed
          completedAt := some now }
      else n := by
  have hkey : ∀ r : Node, Keyed.key
      { r with
        status := .completed
        completedAt := some now } = Keyed.key r := fun _ => rfl
  exact @Table.get?_modify _ _ _ _ db.nodes node.id _ hkey id

theorem completed_completedRoot {run : Run} {root : Node} {now : Time}
    (hfound : db.nodes.get? root.id = some root) (hrun : db.runs.get? root.runId = some run) :
    Completed db (completedRoot db run root now) root now := by
  have hkey : run.id = root.runId := Table.key_of_get? hrun
  refine ⟨⟨{ root with status := .completed, completedAt := some now }, ?_, rfl⟩,
    ⟨{ run with status := .completed, finishedAt := some now }, ?_, rfl⟩, ?_, ?_⟩
  · rw [completedRoot, get?_completeNode]
    show ((sweep db root now).1.nodes.get? root.id).map _ = _
    have hself : ¬((root.runId = root.runId ∧ root.id ≠ root.id) ∧
        sweepExpired db root now = true) := fun hself => hself.1.2 rfl
    rw [get?_sweep root now hfound, if_neg hself, Option.map_some, if_pos rfl]
  · have hkeyed : ∀ r : Run, Keyed.key
        { r with
          status := .completed
          finishedAt := some now } = Keyed.key r := fun _ => rfl
    show ((sweep db root now).1.runs.modify run.id _ hkeyed).get? root.runId = _
    rw [(statusOnly_sweep db root now).runs, ← hkey]
    exact Table.get?_modify_self hkeyed (hkey ▸ hrun)
  · intro n hn hrunId hne hexpired
    have hget : db.nodes.get? n.id = some n := Table.get?_of_mem hn
    rw [completedRoot, get?_completeNode]
    show (((sweep db root now).1.nodes.get? n.id).map _).map _ = _
    rw [get?_sweep root now hget, if_pos ⟨⟨hrunId, hne⟩, hexpired⟩]
    simp [hne]
  · intro id hne hkept
    rw [completedRoot, get?_completeNode]
    show (((sweep db root now).1.nodes.get? id).map _).map _ = _
    cases hn : db.nodes.get? id with
    | none =>
      rw [sweep, (foldl_sweepNode now _ db false).2.1 id, hn]
      rfl
    | some n =>
      rw [get?_sweep root now hn, if_neg]
      · simp [hne]
      · rintro ⟨⟨hrunId, -⟩, hexpired⟩
        rw [hkept n hn hrunId] at hexpired
        cases hexpired

/-- **Root completion.** At one reading of the clock and past the rate limiter, an authenticated
root completes exactly when it is live and every other node of its run is terminal, expired or cut
off; then it and its run are completed, the expired nodes are marked and no other node changes its
status. A completion that fails changes nothing. -/
theorem root_completion (h : (services cfg).Reachable s) {nodeId : Id} {token : Token}
    {root : Node} (hnode : authenticateNode cfg s.db nodeId token = .ok root)
    (hroot : isRoot s.db root = true) {env : Env} {now : Time} (hclock : ∀ i, env.clock i = now)
    (hrate : env.rateLimited = false) :
    ((∃ c, complete cfg s.db nodeId token env = .ok c) ↔ Completable s.db root now) ∧
      ∀ s', (services cfg).Step s (.call (.complete nodeId token) env) s' →
        (Completable s.db root now → Completed s.db s'.db root now) ∧
          (¬ Completable s.db root now → s'.db = s.db) := by
  obtain ⟨hfound, -⟩ := authenticateNode_eq_ok.mp hnode
  obtain ⟨run, hrun, -⟩ := (Option.any_eq_true _ _).mp hroot
  have hcomplete := fun c => @complete_root_eq_ok cfg s h nodeId token root hnode hroot env now
    hclock hrate c
  rw [completable_iff]
  refine ⟨⟨?_, ?_⟩, ?_⟩
  · rintro ⟨c, hc⟩
    exact ((hcomplete c).mp hc).1
  · intro hcompletable
    exact ⟨_, (hcomplete _).mpr ⟨hcompletable, run, hrun, rfl⟩⟩
  · rintro s' ⟨-, rfl⟩
    refine ⟨fun hcompletable => ?_, fun hnot => ?_⟩
    · have hc := (hcomplete _).mpr ⟨hcompletable, run, hrun, rfl⟩
      show Completed s.db (Sys.next cfg s (.call (.complete nodeId token) env)).db root now
      rw [Sys.next, Call.run, hc]
      exact completed_completedRoot (found_of_get? hfound) hrun
    · show (Sys.next cfg s (.call (.complete nodeId token) env)).db = s.db
      rw [Sys.next, Call.run]
      cases hc : complete cfg s.db nodeId token env with
      | ok c => exact absurd ((hcomplete c).mp hc).1 hnot
      | error e => rfl

/-- The sample run, after its root has renewed its lease. -/
def sampleRenewed : List Label := sampleStart ++
  [.begin (.heartbeat 11 10) (sampleEnv 5 50), .finish 0 (sampleEnv 5 50)]

/-- The root can complete at the instant the lease of its one worker runs out. -/
theorem root_completion_sample : ∃ root,
    authenticateNode sampleConfig (sample sampleRenewed).db 11 10 = .ok root ∧
      Completable (sample sampleRenewed).db root (seconds 9) ∧
      Completed (sample sampleRenewed).db
        (sample (sampleRenewed ++ [.call (.complete 11 10) (sampleEnv 9 60)])).db root
        (seconds 9) := by
  obtain ⟨root, hnode⟩ : ∃ root,
      authenticateNode sampleConfig (sample sampleRenewed).db 11 10 = .ok root := ⟨_, rfl⟩
  have hroot : isRoot (sample sampleRenewed).db root = true := by
    obtain rfl := Except.ok.inj hnode
    decide
  obtain ⟨hiff, hstep⟩ := @root_completion sampleConfig _ (sample_reachable sampleRenewed) 11 10
    root hnode hroot (sampleEnv 9 60) (seconds 9) (fun _ => rfl) rfl
  have hcompletable := hiff.mp ⟨_, rfl⟩
  exact ⟨root, hnode, hcompletable, (hstep _ (sample_step _ _)).1 hcompletable⟩

end TraceFence
