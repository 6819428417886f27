import TraceFence.Lib.Feed
import TraceFence.Safety.Journal

/-!
# Following the journal of a run

The sequence numbers of the journal are there for replay: a reader keeps the last number it has
seen and asks `list_events` for what comes behind it, while the services go on. Here such a reader
is put next to the services. It never misses an event of its run, gets none twice and none out of
order; and because events are filed under the run of the row they are about, a reader that has
caught up can tell from its events alone what has happened in the run.

## Main definitions

* `Database.runOf` — the run of the row something happens to
* `Database.feed` — the events of a run
* `Following`, `following` — the services and one reader

## Main results

* `filed` — every event is filed under the run of its row
* `follower_lossless` — what a reader has, at any time and after enough reads
-/

namespace TraceFence

open Checked System

variable {cfg : Config} {w : Write} {es : List RuntimeEvent} {a b : Database} {s s' : Sys}
  {l : Label} {m : Mark} {r : Id}

/-! ### The run of an event -/

/-- The run of the row something happens to. -/
def Database.runOf (db : Database) (m : Mark) : Option Id :=
  match m.1 with
  | .runCreated => (db.runs.get? m.2).map (·.id)
  | .commandIssued | .scopeCancelled | .scopeSuperseded => (db.commands.get? m.2).map (·.runId)
  | .actionRequested | .actionDenied | .actionCommitted => (db.attempts.get? m.2).map (·.runId)
  | .nodeWaiting | .leaseRenewed | .demoWorkerReleased => none
  | .nodeRegistered | .nodeActivated | .nodeCompleted | .leaseGranted | .leaseExpired
  | .replacementCreated | .recoveryCompleted => (db.nodes.get? m.2).map (·.runId)

/-- The run a write is about, if it makes anything happen. -/
def Write.runId : Write → Option Id
  | .registerRun node | .registerNode node => some node.runId
  | .activate at' | .expire _ at' | .complete at' => some at'.node.runId
  | .issue command => some command.runId
  | .deny attempt | .allow _ _ attempt => some attempt.runId
  | _ => none

/-- The run of a row never changes. -/
theorem Effect.runOf_kept (h : Effect cfg w a b) (hm : a.runOf m = some r) :
    b.runOf m = some r := by
  have hnode {id : Id} (hn : (a.nodes.get? id).map (·.runId) = some r) :
      (b.nodes.get? id).map (·.runId) = some r := by
    obtain ⟨n, hn, hr⟩ := Option.map_eq_some_iff.mp hn
    obtain ⟨n', hn', hstep⟩ := h.node_step hn
    rw [hn', Option.map_some, show n'.runId = n.runId from
      congrArg Registration.runId hstep.registration, hr]
  have hcommand {id : Id} (hc : (a.commands.get? id).map (·.runId) = some r) :
      (b.commands.get? id).map (·.runId) = some r := by
    obtain ⟨c, hc, hr⟩ := Option.map_eq_some_iff.mp hc
    obtain ⟨c', hc', hstep⟩ := h.command_step hc
    rw [hc', Option.map_some, show c'.runId = c.runId from
      issued_column ControlCommand.runId (fun _ => rfl) hstep.issued, hr]
  have hattempt {id : Id} (hx : (a.attempts.get? id).map (·.runId) = some r) :
      (b.attempts.get? id).map (·.runId) = some r := by
    obtain ⟨x, hx, hr⟩ := Option.map_eq_some_iff.mp hx
    rw [Table.get?_of_prefix h.evolves.attempt hx, Option.map_some, hr]
  have hrun {id : Id} (hr : (a.runs.get? id).map (·.id) = some r) :
      (b.runs.get? id).map (·.id) = some r := by
    obtain ⟨row, hrow, hr⟩ := Option.map_eq_some_iff.mp hr
    obtain ⟨row', hrow', _⟩ := h.run_step hrow
    have hid : row'.id = row.id := (Table.key_of_get? hrow').trans (Table.key_of_get? hrow).symm
    rw [hrow', Option.map_some, hid, hr]
  obtain ⟨t, id⟩ := m
  cases t with
  | runCreated => exact hrun hm
  | commandIssued | scopeCancelled | scopeSuperseded => exact hcommand hm
  | actionRequested | actionDenied | actionCommitted => exact hattempt hm
  | nodeWaiting | leaseRenewed | demoWorkerReleased => cases hm
  | nodeRegistered | nodeActivated | nodeCompleted | leaseGranted | leaseExpired
  | replacementCreated | recoveryCompleted => exact hnode hm

/-- What a write makes happen, happens in the run it is about. -/
theorem Effect.runOf_marks (h : Effect cfg w a b) (hm : m ∈ w.marks) : b.runOf m = w.runId := by
  have hkept {at' : Standing} (hw : w.standing = some at') :
      (b.nodes.get? at'.node.id).map (·.runId) = some at'.node.runId := by
    obtain ⟨n', hn', hstep⟩ := h.node_step (h.found_standing hw).2
    rw [hn', Option.map_some, show n'.runId = at'.node.runId from
      congrArg Registration.runId hstep.registration]
  have hborn {n : Node} (hw : w = .registerRun n ∨ w = .registerNode n) :
      (b.nodes.get? n.id).map (·.runId) = some n.runId := by
    rw [(h.registered hw).2, Option.map_some]
  have hcommand {c : ControlCommand} (hw : w = .issue c) :
      (b.commands.get? c.id).map (·.runId) = some c.runId := by
    rw [(h.issued hw).2, Option.map_some]
  have hattempt {x : ActionAttempt} (hw : w.attempt = some x) :
      (b.attempts.get? x.id).map (·.runId) = some x.runId := by
    rw [(h.entered hw).2, Option.map_some]
  rw [Write.mem_marks] at hm
  cases hm with
  | run root =>
    obtain ⟨row, hrow⟩ := Option.isSome_iff_exists.mp
      ((h.turns_run root.runId).1.mpr (Or.inr (Write.mem_marks.mpr (.run root))))
    change (b.runs.get? root.runId).map (·.id) = some root.runId
    rw [hrow, Option.map_some, show row.id = root.runId from Table.key_of_get? hrow]
  | root _ type => rcases type with rfl | rfl | rfl <;> exact hborn (Or.inl rfl)
  | child | replacement => exact hborn (Or.inr rfl)
  | activate _ type => rcases type with rfl | rfl <;> exact hkept rfl
  | expire | complete | recovery => exact hkept rfl
  | issue | supersede | cancel => exact hcommand rfl
  | deny _ type | allow _ _ _ type => rcases type with rfl | rfl <;> exact hattempt rfl

/-- The events of a write are filed under the run it is about. -/
theorem Entry.filed (h : Entry cfg w es a b) {e : RuntimeEvent} (he : e ∈ es)
    (hmark : e.mark ≠ none) : w.runId = some e.runId := by
  have hnoted := h.events.1
  cases hnoted with
  | record | rotate | converge | expireSweep | checkpoint | states => cases he
  | waiting | renew | checkpointWait =>
    obtain rfl := List.mem_singleton.mp he
    exact absurd rfl hmark
  | registerRun root =>
    simp only [runEvents, List.mem_cons, List.not_mem_nil, or_false] at he
    rcases he with rfl | rfl | rfl | rfl <;> rfl
  | registerNode | expireHeartbeat | expireScanner | complete =>
    obtain rfl := List.mem_singleton.mp he
    rfl
  | activate | completeRecovery | issue | deny =>
    rcases List.mem_pair.mp he with rfl | rfl <;> rfl
  | allow at' now committedAt attempt =>
    rcases List.mem_pair.mp he with rfl | rfl
    · rfl
    · obtain ⟨mid, heffect, -⟩ := h.core
      cases heffect with
      | allow _ _ _ _ _ _ row => rw [row]; rfl

/-- **Every event is filed under the run of the row it is about.** -/
def Filed (db : Database) : Prop :=
  ∀ e ∈ db.events, ∀ m, e.mark = some m → db.runOf m = some e.runId

theorem Entry.keeps_filed (h : Entry cfg w es a b) (ha : Filed a) : Filed b := by
  obtain ⟨mid, heffect, hruns, hnodes, hcommands, hattempts⟩ := h.core
  obtain ⟨hnoted, _, hevents⟩ := h.events
  have hrunOf : b.runOf = mid.runOf := by
    funext m
    simp only [Database.runOf, hruns, hnodes, hcommands, hattempts]
  intro e he m hm
  rw [hrunOf]
  rw [hevents, List.mem_append] at he
  rcases he with he | he
  · exact heffect.runOf_kept (ha e he m hm)
  · rw [← h.filed he (by rw [hm]; exact Option.some_ne_none m)]
    refine heffect.runOf_marks ?_
    rw [← hnoted.marks]
    exact List.mem_filterMap.mpr ⟨e, he, hm⟩

theorem filed (h : (services cfg).Reachable s) : Filed s.db := by
  refine h.invariant (I := fun s => Filed s.db) (fun e he => by cases he) fun s l s' _ hs hstep => ?_
  obtain ⟨_, rfl⟩ := hstep
  obtain ⟨mid, hentries, hb⟩ := @next_booked cfg (fun _ => True) s l fun _ _ _ => trivial
  have hmid : Filed mid := hentries.preserve hs fun _ _ _ _ ha _ he => he.keeps_filed ha
  change Filed (s.next cfg l).db
  rw [hb]
  exact hmid

/-! ### The feed of a run -/

/-- The events of a run with their sequence numbers. -/
def Database.feed (db : Database) (runId : Id) : List (RuntimeEvent × ℕ) :=
  db.timeline.filter fun row => row.1.runId = runId

theorem ordered_feed (db : Database) (runId : Id) : Feed.Ordered Prod.snd (db.feed runId) :=
  (ordered_zipIdx db.events).filter _

/-- The journal only grows, and so does the feed. -/
theorem Logged.feed (h : Logged a b) (runId : Id) : a.feed runId <+: b.feed runId := by
  obtain ⟨new, hnew⟩ := h.events
  rw [Database.feed, Database.feed, Database.timeline, Database.timeline, ← hnew, List.zipIdx_append,
    List.filter_append]
  exact List.prefix_append _ _

/-- `list_events` serves a page of the feed. -/
theorem listEvents_eq {db : Database} {runId : Id} {run : Run} (after limit : ℕ)
    (h : db.runs.get? runId = some run) :
    listEvents db runId after limit = .ok (Feed.page Prod.snd (db.feed runId) after limit) := by
  have hrun : getRun db runId = .ok run := require_eq_ok.mpr h
  rw [listEvents, hrun, Feed.page, Database.feed, List.filter_filter]
  refine congrArg (fun rows => Except.ok (List.take limit rows)) (List.filter_congr fun row _ => ?_)
  rw [Bool.decide_and, Bool.and_comm]

/-- What happens in a run is told by its feed: the journal, as far as it is filed under the run. -/
theorem count_feed (h : Filed a) (runId : Id) (m : Mark) :
    ((a.feed runId).filterMap fun row => row.1.mark).count m =
      if a.runOf m = some runId then a.journal.count m else 0 := by
  have hevents : (a.feed runId).map Prod.fst = a.events.filter fun e => e.runId = runId := by
    rw [← List.zipIdx_map_fst 1 a.events, List.filter_map]
    rfl
  have hfeed : (a.feed runId).filterMap (fun row => row.1.mark) =
      (a.events.filter fun e => e.runId = runId).filterMap RuntimeEvent.mark := by
    rw [← hevents, List.filterMap_map]
    rfl
  rw [hfeed, Database.journal, List.count_filterMap, List.count_filterMap, List.countP_filter]
  split
  · next hrun =>
    refine List.countP_congr fun e he => ?_
    simp only [Bool.and_eq_true, decide_eq_true_eq, beq_iff_eq]
    refine and_iff_left_of_imp fun hmark => ?_
    exact Option.some.inj ((h e he m hmark).symm.trans hrun)
  · next hrun =>
    refine List.countP_eq_zero.mpr fun e he => ?_
    simp only [Bool.and_eq_true, decide_eq_true_eq, beq_iff_eq, not_and]
    rintro hmark rfl
    exact hrun (h e he m hmark)

/-! ### A reader -/

/-- The services, and what one reader of a run's journal has received. -/
structure Following where
  sys : Sys
  received : List (RuntimeEvent × ℕ)

/-- The services move, or the reader asks for the next page. -/
inductive Following.Label
  | step (l : TraceFence.Label)
  | poll (limit : ℕ)

/-- A reader asks for what comes behind the last event it has; a refusal leaves it with what it
has. -/
def Following.next (cfg : Config) (runId : Id) (f : Following) : Following.Label → Following
  | .step l => { f with sys := f.sys.next cfg l }
  | .poll limit =>
    match listEvents f.sys.db runId (Feed.cursor Prod.snd f.received) limit with
    | .ok page => { f with received := f.received ++ page }
    | .error _ => f

/-- The services and one reader of the journal of the run `runId`. -/
def following (cfg : Config) (runId : Id) : System Following Following.Label where
  init := ⟨Sys.init, []⟩
  next := Following.next cfg runId
  enabled := fun _ _ => True

variable {runId : Id} {f : Following}

/-- A read extends what has been received by a page of the feed. -/
theorem next_poll (cfg : Config) (limit : ℕ) {run : Run} (hrun : f.sys.db.runs.get? runId = some run) :
    f.next cfg runId (.poll limit) =
      { f with received := Feed.poll Prod.snd (f.sys.db.feed runId) limit f.received } := by
  simp only [Following.next, listEvents_eq _ limit hrun, Feed.poll]

/-- A read of a run that does not exist is refused. -/
theorem next_poll_refused (cfg : Config) (limit : ℕ) (hrun : f.sys.db.runs.get? runId = none) :
    f.next cfg runId (.poll limit) = f := by
  rw [Following.next, listEvents, getRun, hrun]
  rfl

/-- **What a reader has is always an initial part of the feed.** -/
theorem received_prefix (h : (following cfg runId).Reachable f) :
    (services cfg).Reachable f.sys ∧ f.received <+: f.sys.db.feed runId := by
  refine h.invariant (I := fun f => (services cfg).Reachable f.sys ∧
    f.received <+: f.sys.db.feed runId) ⟨.init, List.prefix_rfl⟩ fun f l f' _ hf hstep => ?_
  obtain ⟨hreachable, hreceived⟩ := hf
  obtain ⟨_, rfl⟩ := hstep
  cases l with
  | step l =>
    have hstep : (services cfg).Step f.sys l (f.sys.next cfg l) := ⟨trivial, rfl⟩
    exact ⟨hreachable.step hstep, hreceived.trans ((step_writes hstep).logged.feed runId)⟩
  | poll limit =>
    cases hrun : f.sys.db.runs.get? runId with
    | none =>
      rw [show (following cfg runId).next f (.poll limit) = f from
        next_poll_refused cfg limit hrun]
      exact ⟨hreachable, hreceived⟩
    | some run =>
      rw [show (following cfg runId).next f (.poll limit) = _ from
        next_poll cfg limit hrun]
      exact ⟨hreachable, (ordered_feed _ _).poll_initial hreceived⟩

/-- Reads in a row, while the services rest. -/
theorem replay_polls (limit n : ℕ) {run : Run} (hrun : f.sys.db.runs.get? runId = some run) :
    (following cfg runId).replay f (List.replicate n (.poll limit)) =
      { f with received := (Feed.poll Prod.snd (f.sys.db.feed runId) limit)^[n] f.received } := by
  induction n generalizing f with
  | zero => rfl
  | succ n ih =>
    rw [List.replicate_succ, replay, List.foldl_cons, Function.iterate_succ_apply]
    change (following cfg runId).replay (f.next cfg runId (.poll limit)) _ = _
    rw [next_poll cfg limit hrun]
    exact ih (f := { f with received := _ }) hrun

/-- **A reader loses nothing.** In every interleaving of the services with the reads of one reader,
each with a limit of its own, the reader has received an initial part of the events of its run, each
once and in their order. If the services rest, reads with room for what is left have everything. And
a reader that has everything knows what has happened in its run, endings apart: it has one event for
each thing that has, and none for anything else. -/
theorem follower_lossless (h : (following cfg runId).Reachable f) :
    f.received <+: f.sys.db.feed runId ∧
    (∀ run, f.sys.db.runs.get? runId = some run → ∀ limit n,
      (f.sys.db.feed runId).length ≤ f.received.length + n * limit →
      (following cfg runId).replay f (List.replicate n (.poll limit)) =
        { f with received := f.sys.db.feed runId }) ∧
    (f.received = f.sys.db.feed runId → ∀ m : Mark, m.1.isEnding = false →
      (f.received.filterMap fun row => row.1.mark).count m =
        if f.sys.db.facts m = true ∧ f.sys.db.runOf m = some runId then 1 else 0) := by
  obtain ⟨hreachable, hreceived⟩ := received_prefix h
  refine ⟨hreceived, fun run hrun limit n enough => ?_, fun hall m hm => ?_⟩
  · rw [replay_polls limit n hrun, (ordered_feed _ _).caught_up hreceived enough]
  · rw [hall, count_feed (filed hreachable), journal_chronicles hreachable m hm, ← ite_and]
    exact if_congr and_comm rfl rfl

theorem following_enabled : ∀ (ls : List Following.Label) (f : Following),
    (following cfg runId).Enabled f ls
  | [], _ => trivial
  | _ :: ls, _ => ⟨trivial, following_enabled ls _⟩

/-- A reader with pages of two, at a run whose scope is cancelled between its first reads. -/
def sampleFollowing : List Following.Label :=
  sampleStart.map .step ++ [.poll 2, .poll 2] ++
    (sampleCancelled.drop sampleStart.length).map .step ++ [.poll 2]

theorem follower_lossless_sample :
    let f := (following sampleConfig 10).replay (following sampleConfig 10).init sampleFollowing
    f.received.length = 6 ∧
    (following sampleConfig 10).replay f (List.replicate 3 (.poll 2)) =
      { f with received := f.sys.db.feed 10 } := by
  refine ⟨by decide +kernel, ?_⟩
  refine (follower_lossless (reachable_replay (following_enabled sampleFollowing _))).2.1
    (((following sampleConfig 10).replay (following sampleConfig 10).init
      sampleFollowing).sys.db.runs.get? 10 |>.get (by decide +kernel)) (Option.some_get _).symm 2 3
    (by decide +kernel)

end TraceFence
