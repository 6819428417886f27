import TraceFence.Lib.Chronicle
import TraceFence.Registry.Marks

/-!
# The runtime journal

`record_runtime_event` appends to the journal within the transaction that makes the change it is
about. So there has to be one event for each thing that has happened to a row of the registry, and
a step has to append the events of what it makes happen. An event of a type that may recur, a wait
or a renewal, is about no such thing, and neither is the one the demonstration writes. Of all other
types this holds without any condition but for the endings of nodes, and of endings in runs of steps
that are vouched for.

## Main definitions

* `Vouched` — a step that ends no node in silence and writes over no recorded ending

## Main results

* `journal_complete` — in every reachable state, about everything but endings
* `endings_complete` — in every run of vouched steps, about endings too
-/

namespace TraceFence

open Checked System

variable {cfg : Config} {w : Write} {es : List RuntimeEvent} {a b : Database} {s s' : Sys}
  {l : Label}

/-! ### Steps and runs -/

variable {D : Set Mark}

/-- What happens by an entry is what its events say. -/
theorem Entry.chronicles (h : Entry cfg w es a b) (ha : Awake a)
    (hD : ∀ m ∈ D, m.1.isEnding = true → w.vouched) (hjournal : Chronicles D a.facts a.journal) :
    Chronicles D b.facts b.journal := by
  obtain ⟨mid, heffect, hruns, hnodes, hcommands, hattempts⟩ := h.core
  have hfacts : b.facts = mid.facts := by
    funext m
    obtain ⟨t, id⟩ := m
    cases t <;> simp only [Database.facts, EventType.happened, hruns, hnodes, hcommands, hattempts]
  have hevents : b.journal = a.journal ++ w.marks := by
    obtain ⟨hnoted, _, hevents⟩ := h.events
    rw [Database.journal, hevents, List.filterMap_append, hnoted.marks]
    rfl
  have hturns (m : Mark) (hm : m ∈ D) := heffect.turns ha m (hD m hm)
  rw [hfacts, hevents]
  exact hjournal.append w.nodup_marks (fun m hm => (hturns m hm).2) fun m hm => (hturns m hm).1

/-- The same, of a transaction. -/
theorem Booked.chronicles (h : Booked cfg
      (fun w => Performs cfg s l w ∧ ∀ m ∈ D, m.1.isEnding = true → w.vouched) s.db b)
    (hs : (services cfg).Reachable s) (hjournal : Chronicles D s.db.facts s.db.journal) :
    Chronicles D b.facts b.journal := by
  obtain ⟨mid, hentries, hb⟩ := h
  obtain ⟨hawake, hwakes⟩ := reachable_wakes hs
  have hmid : (Awake mid ∧ ∀ f ∈ s.inflight, WakesTo mid f) ∧ Chronicles D mid.facts mid.journal :=
    hentries.preserve (I := fun b => (Awake b ∧ ∀ f ∈ s.inflight, WakesTo b f) ∧
      Chronicles D b.facts b.journal) ⟨⟨hawake, hwakes⟩, hjournal⟩
      fun w es a b ⟨⟨ha, hf⟩, hja⟩ ⟨hw, hD⟩ he => by
        obtain ⟨mid, heffect, _, hnodes, _, _⟩ := he.core
        have hmid := heffect.awake ha hf hw
        have hwakes (f : InFlight) (hmem : f ∈ s.inflight) := (hf f hmem).effect heffect
        refine ⟨⟨?_, ?_⟩, he.chronicles ha hD hja⟩
        · simpa only [Awake, hnodes] using hmid
        · simpa only [WakesTo, hnodes] using hwakes
  rw [hb]
  exact hmid.2

/-- What the journal gains in a step is what happens in it. -/
theorem step_marks (h : (services cfg).Step s l s') (hjournal : Chronicles D s.db.facts s.db.journal)
    (hjournal' : Chronicles D s'.db.facts s'.db.journal) :
    ∃ new, s'.db.events = s.db.events ++ new ∧ ∀ m ∈ D,
      m ∈ new.filterMap RuntimeEvent.mark ↔ s'.db.facts m = true ∧ s.db.facts m = false := by
  obtain ⟨new, hnew⟩ := (step_writes h).logged.events
  refine ⟨new, hnew.symm, fun m hm => ?_⟩
  rw [Database.journal, ← hnew, List.filterMap_append] at hjournal'
  exact hjournal.mem_appended_iff hjournal' hm

/-- In every reachable state the journal says what has happened, endings apart. -/
theorem journal_chronicles (h : (services cfg).Reachable s) :
    Chronicles {m : Mark | m.1.isEnding = false} s.db.facts s.db.journal := by
  refine h.invariant (I := fun s => Chronicles {m : Mark | m.1.isEnding = false} s.db.facts
    s.db.journal) (.nil fun m _ => ?_) fun s l s' hs hjournal hstep => ?_
  · obtain ⟨t, id⟩ := m
    cases t <;> rfl
  · obtain ⟨_, rfl⟩ := hstep
    have hbooked := @next_booked cfg (fun _ => True) s l fun _ _ _ => trivial
    refine (hbooked.mono fun w hw => ⟨hw.1, fun m hm hending => ?_⟩).chronicles hs hjournal
    change m.1.isEnding = false at hm
    rw [hending] at hm
    cases hm

/-- Every event that says what happens once has the row it happens to. -/
theorem events_marked (h : (services cfg).Reachable s) :
    ∀ e ∈ s.db.events, e.eventType.recurs = false → ∃ m, e.mark = some m := by
  refine h.invariant (I := fun s => ∀ e ∈ s.db.events, e.eventType.recurs = false →
    ∃ m, e.mark = some m) (fun e he => ?_) fun s l s' _ hmarked hstep => ?_
  · cases he
  · obtain ⟨_, rfl⟩ := hstep
    obtain ⟨mid, hentries, hb⟩ := @next_booked cfg (fun _ => True) s l fun _ _ _ => trivial
    show ∀ e ∈ (s.next cfg l).db.events, _
    rw [show (s.next cfg l).db.events = mid.events by rw [hb]]
    refine hentries.preserve (I := fun b => ∀ e ∈ b.events, e.eventType.recurs = false →
      ∃ m, e.mark = some m) hmarked fun w es a b ha _ he e hmem => ?_
    obtain ⟨hnoted, _, hevents⟩ := he.events
    rw [hevents, List.mem_append] at hmem
    rcases hmem with hold | hnew
    · exact ha e hold
    · exact hnoted.exists_mark e hnew

/-- **The journal is complete**, endings apart: in every reachable state it has exactly one event
for each run, node, activation, lease, command, scope change, attempt and decision of the registry;
an event of one of these types is about one of them; and a step that makes one of them happen
appends its event. -/
theorem journal_complete (h : (services cfg).Reachable s) :
    (∀ m : Mark, m.1.isEnding = false →
      s.db.journal.count m = if s.db.facts m = true then 1 else 0) ∧
    (∀ e ∈ s.db.events, e.eventType.recurs = false → e.eventType.isEnding = false →
      ∃ m, e.mark = some m ∧ s.db.facts m = true) ∧
    ∀ l s', (services cfg).Step s l s' → ∃ new, s'.db.events = s.db.events ++ new ∧
      ∀ m : Mark, m.1.isEnding = false →
        (m ∈ new.filterMap RuntimeEvent.mark ↔ s'.db.facts m = true ∧ s.db.facts m = false) := by
  have hjournal := journal_chronicles h
  refine ⟨fun m hm => hjournal m hm, fun e he hrecurs hending => ?_, fun l s' hstep => ?_⟩
  · obtain ⟨m, hm⟩ := events_marked h e he hrecurs
    obtain ⟨id, -, rfl⟩ := Option.map_eq_some_iff.mp hm
    exact ⟨_, hm, (hjournal.mem_iff hending).mp (List.mem_filterMap.mpr ⟨e, he, hm⟩)⟩
  · exact step_marks hstep hjournal (journal_chronicles (h.step hstep))

theorem journal_complete_sample :
    (∀ m : Mark, m.1.isEnding = false → (sample sampleCancelled).db.journal.count m =
      if (sample sampleCancelled).db.facts m = true then 1 else 0) ∧
    (∀ e ∈ (sample sampleCancelled).db.events, e.eventType.recurs = false →
      e.eventType.isEnding = false → ∃ m, e.mark = some m ∧
        (sample sampleCancelled).db.facts m = true) ∧
    (sample sampleCancelled).db.facts (.scopeCancelled, 40) = true :=
  ⟨(journal_complete (sample_reachable sampleCancelled)).1,
    (journal_complete (sample_reachable sampleCancelled)).2.1, by decide +kernel⟩

/-! ### Vouched steps -/

/-- A step that ends no node in silence and writes over no recorded ending: a completing root finds
no other node of its run expired, and a delayed checkpoint finds the status it writes, or neither of
the two is the status of a recorded ending. -/
structure Vouched (cfg : Config) (s : Sys) (l : Label) : Prop where
  sweep (nodeId : Id) (token : Token) (env : Env) (root other : Node)
    (label : l = .call (.complete nodeId token) env) (commits : Commits cfg s l)
    (found : s.db.nodes.get? nodeId = some root) (isRoot : isRoot s.db root = true)
    (row : s.db.nodes.get? other.id = some other) (run : other.runId = root.runId)
    (ne : other.id ≠ root.id) : sweepExpired s.db other (env.clock 1) = false
  checkpoint (index : ℕ) (env : Env) (write : CheckpointWrite) (read row : Node)
    (status : NodeStatus) (label : l = .finish index env)
    (call : s.inflight[index]? = some (.checkpoint write))
    (target : write.target = some (read, status)) (changed : read.status ≠ status)
    (found : s.db.nodes.get? read.id = some row) :
    row.status = status ∨ row.status.isRecorded = false ∧ status.isRecorded = false

theorem Performs.vouched (h : Performs cfg s l w) (hvouched : Vouched cfg s l)
    (hl : ∀ nodeId token env, l ≠ .call (.complete nodeId token) env) : w.vouched := by
  cases h with
  | @expireSweep nodeId token env => exact absurd rfl (hl nodeId token env)
  | @checkpoint index env write read status call target changed =>
    cases hfound : s.db.nodes.get? read.id with
    | none => trivial
    | some row =>
      exact hvouched.checkpoint index env write read row status rfl call target changed hfound
  | record | rotate | states | deny | registerRun | registerNode | activate | renew
  | convergeHeartbeat | convergeGateway | expireHeartbeat | expireScanner | complete | issue
  | allow => trivial

/-- **A vouched step is a transaction of vouched writes.** -/
theorem vouched_booked (hvouched : Vouched cfg s l) :
    Booked cfg (fun w => Performs cfg s l w ∧ w.vouched) s.db (s.next cfg l).db := by
  cases hc : s.transaction cfg l with
  | none =>
    rw [(next_of_no_transaction hc).1]
    exact Entries.refl.booked
  | some c =>
    rw [(next_of_transaction hc).1]
    by_cases hl : ∃ nodeId token env, l = .call (.complete nodeId token) env
    · obtain ⟨nodeId, token, env, rfl⟩ := hl
      have hcommits : Commits cfg s (.call (.complete nodeId token) env) := by simp [Commits, hc]
      refine (complete_entries_root (toOption_eq_some.mp hc)
        (fun root other hroot hisRoot hother hrun hne hexpired => ?_)
        fun node hnode => ⟨.complete hnode, trivial⟩).booked
      rw [hvouched.sweep nodeId token env root other rfl hcommits hroot hisRoot hother hrun hne]
        at hexpired
      cases hexpired
    · refine (transaction_booked hc).mono fun w hw => ⟨hw, hw.vouched hvouched ?_⟩
      rintro nodeId token env rfl
      exact hl ⟨nodeId, token, env, rfl⟩

/-- **The journal is complete about endings too**, in every run of vouched steps: every completed
node has one event that says so, a completed replacement a second one, and every node that has
entered `LEASE_EXPIRED` one of its own; each is appended by the step that ends the node; and what
has been recorded stays true. -/
theorem endings_complete (h : ((services cfg).restrict (Vouched cfg)).Reachable s) :
    (∀ m : Mark, s.db.journal.count m = if s.db.facts m = true then 1 else 0) ∧
    (∀ l s', ((services cfg).restrict (Vouched cfg)).Step s l s' →
      ∃ new, s'.db.events = s.db.events ++ new ∧ ∀ m : Mark,
        (m ∈ new.filterMap RuntimeEvent.mark ↔ s'.db.facts m = true ∧ s.db.facts m = false)) ∧
    ∀ s', ((services cfg).restrict (Vouched cfg)).Run s s' →
      ∀ m, s.db.facts m = true → s'.db.facts m = true := by
  have hall {s : Sys} (h : ((services cfg).restrict (Vouched cfg)).Reachable s) :
      Chronicles Set.univ s.db.facts s.db.journal := by
    refine h.invariant (I := fun s => Chronicles Set.univ s.db.facts s.db.journal)
      (.nil fun m _ => ?_) fun s l s' hs hjournal hstep => ?_
    · obtain ⟨t, id⟩ := m
      cases t <;> rfl
    · obtain ⟨⟨_, hvouched⟩, rfl⟩ := hstep
      exact ((vouched_booked hvouched).mono fun w hw => ⟨hw.1, fun _ _ _ => hw.2⟩).chronicles
        hs.of_restrict hjournal
  refine ⟨fun m => hall h m (Set.mem_univ m), fun l s' hstep => ?_, fun s' hrun m hm => ?_⟩
  · obtain ⟨new, hnew, hmarks⟩ := step_marks (restrict_step_iff.mp hstep).1 (hall h)
      (hall (h.step hstep))
    exact ⟨new, hnew, fun m => hmarks m (Set.mem_univ m)⟩
  · -- The journal only grows, and says nothing that is not the case.
    have hlogged := (run_logged (Run.of_restrict hrun)).events.filterMap RuntimeEvent.mark
    rw [← (hall (h.run hrun)).mem_iff (Set.mem_univ m)]
    exact hlogged.subset (((hall h).mem_iff (Set.mem_univ m)).mpr hm)

/-- Whether a label neither completes a root nor commits a checkpoint. -/
def unassuming (s : Sys) : Label → Bool
  | .call (.complete nodeId _) _ => (s.db.nodes.get? nodeId).all fun n => !isRoot s.db n
  | .finish index _ =>
    match s.inflight[index]? with
    | some (.checkpoint _) => false
    | _ => true
  | _ => true

theorem vouched_of_unassuming (h : unassuming s l = true) : Vouched cfg s l where
  sweep nodeId token env root other label _ found hroot _ _ _ := by
    subst label
    simp [unassuming, found, hroot] at h
  checkpoint index env write read row status label call _ _ _ := by
    subst label
    simp [unassuming, call] at h

theorem endings_complete_sample :
    ((sample (sampleStart ++ [.call (.complete 20 30) (sampleEnv 3 40)])).db.journal.count
      (.nodeCompleted, 20) =
        if (sample (sampleStart ++ [.call (.complete 20 30) (sampleEnv 3 40)])).db.facts
          (.nodeCompleted, 20) = true then 1 else 0) ∧
    (sample (sampleStart ++ [.call (.complete 20 30) (sampleEnv 3 40)])).db.facts
      (.nodeCompleted, 20) = true :=
  ⟨(endings_complete (sample_checked (fun _ _ _ hl => vouched_of_unassuming hl)
    (by decide +kernel))).1 _, by decide +kernel⟩

/-- A checkpoint that finds an expired lease ends the node in silence. -/
example :
    let s := sample (sampleStart ++ [.begin (.checkpoint 20 30) (sampleEnv 10 60),
      .finish 0 (sampleEnv 10 60)])
    s.db.facts (.leaseExpired, 20) = true ∧ s.db.journal.count (.leaseExpired, 20) = 0 := by
  decide +kernel

end TraceFence
