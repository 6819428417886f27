import TraceFence.Registry.Activation
import TraceFence.Registry.Evolution

/-!
# What happens once

Most events of the journal are about something that can happen to a row only once: it is created,
activated, ended, decided. The mark of such an event says what happened to which row. Here the marks
of the events that go with a write are compared with what the write does to the registry: what it
marks has not been the case before, and is the case afterwards, and nothing else has become so.

The endings of nodes are the exception. A checkpoint that finds an expired lease, and the sweep of
a completing root, end nodes without an event, and a delayed checkpoint may write over an ending
that has been recorded. A write that does none of this is vouched.

## Main definitions

* `RuntimeEvent.mark`, `Write.marks` — what an event says, and what the events of a write say
* `EventType.happened`, `Database.facts` — what the registry says about the same
* `Turns` — how a fact about one row changes
* `Write.vouched`

## Main results

* `Effect.turns` — what a write makes happen is what its events say
-/

namespace TraceFence

open Checked System

variable {cfg : Config} {w : Write} {es : List RuntimeEvent} {a b : Database}

/-! ### Marks -/

/-- Something that happens once: the type of its event, and the row it happens to. -/
abbrev Mark := EventType × Id

/-- The row an event is about, if it is about something that happens once. -/
def RuntimeEvent.subject (event : RuntimeEvent) : Option Id :=
  match event.eventType with
  | .runCreated => some event.runId
  | .commandIssued | .scopeCancelled | .scopeSuperseded => event.commandId
  | .actionRequested | .actionDenied | .actionCommitted => event.actionId
  | .nodeWaiting | .leaseRenewed | .demoWorkerReleased => none
  | .nodeRegistered | .nodeActivated | .nodeCompleted | .leaseGranted | .leaseExpired
  | .replacementCreated | .recoveryCompleted => event.nodeId

def RuntimeEvent.mark (event : RuntimeEvent) : Option Mark :=
  event.subject.map (event.eventType, ·)

/-- The marks of the journal, in the order of their sequence numbers. -/
def Database.journal (db : Database) : List Mark := db.events.filterMap RuntimeEvent.mark

/-- Whether an event says nothing that happens once: a wait, a renewal or a step of the
demonstration. -/
def EventType.recurs : EventType → Bool
  | .nodeWaiting | .leaseRenewed | .demoWorkerReleased => true
  | _ => false

/-- Whether the end of a node is what an event is about. -/
def EventType.isEnding : EventType → Bool
  | .nodeCompleted | .recoveryCompleted | .leaseExpired => true
  | _ => false

/-- What the registry says about something that happens once. -/
def EventType.happened (db : Database) (id : Id) : EventType → Bool
  | .runCreated => (db.runs.get? id).isSome
  | .nodeRegistered => (db.nodes.get? id).any fun n => n.causedByCommandId.isNone
  | .replacementCreated => (db.nodes.get? id).any fun n => n.causedByCommandId.isSome
  | .nodeActivated | .leaseGranted => (db.nodes.get? id).any fun n => n.activatedAt.isSome
  | .nodeCompleted => (db.nodes.get? id).any fun n => n.status = .completed
  | .recoveryCompleted => (db.nodes.get? id).any fun n =>
      n.status = .completed && n.causedByCommandId.isSome
  | .leaseExpired => (db.nodes.get? id).any fun n => n.status = .leaseExpired
  | .commandIssued => (db.commands.get? id).isSome
  | .scopeSuperseded => (db.commands.get? id).any fun c => c.commandType = .correctSubtree
  | .scopeCancelled => (db.commands.get? id).any fun c => c.commandType ≠ .correctSubtree
  | .actionRequested => (db.attempts.get? id).isSome
  | .actionDenied => (db.attempts.get? id).any fun x => x.decision = .deny
  | .actionCommitted => (db.attempts.get? id).any fun x => x.decision = .allow
  | .nodeWaiting | .leaseRenewed | .demoWorkerReleased => false

/-- The facts a journal has entries for. -/
def Database.facts (db : Database) (m : Mark) : Bool := m.1.happened db m.2

/-! ### The marks of a write -/

/-- What a write makes happen, as its events say it. -/
def Write.marks : Write → List Mark
  | .registerRun root => [(.runCreated, root.runId), (.nodeRegistered, root.id),
      (.nodeActivated, root.id), (.leaseGranted, root.id)]
  | .registerNode child => [(if child.causedByCommandId.isSome then .replacementCreated
      else .nodeRegistered, child.id)]
  | .activate at' => [(.nodeActivated, at'.node.id), (.leaseGranted, at'.node.id)]
  | .expire .heartbeat at' | .expire .scanner at' => [(.leaseExpired, at'.node.id)]
  | .complete at' => if at'.node.causedByCommandId.isSome then
      [(.nodeCompleted, at'.node.id), (.recoveryCompleted, at'.node.id)]
      else [(.nodeCompleted, at'.node.id)]
  | .issue command => [(.commandIssued, command.id),
      (if command.commandType = .correctSubtree then .scopeSuperseded else .scopeCancelled,
        command.id)]
  | .deny attempt => [(.actionRequested, attempt.id), (.actionDenied, attempt.id)]
  | .allow _ _ attempt => [(.actionRequested, attempt.id), (.actionCommitted, attempt.id)]
  | _ => []

theorem Noted.marks (h : Noted w es) : es.filterMap RuntimeEvent.mark = w.marks := by
  cases h with
  | registerNode child =>
    cases hcause : child.causedByCommandId <;>
      simp [Write.marks, childEvent, RuntimeEvent.mark, RuntimeEvent.subject, hcause]
  | complete at' now plain => simp [Write.marks, plain, causedEvent, nodeEvent, RuntimeEvent.mark,
      RuntimeEvent.subject]
  | completeRecovery at' now caused => simp [Write.marks, caused, causedEvent, nodeEvent,
      RuntimeEvent.mark, RuntimeEvent.subject]
  | issue command updatedAt =>
    by_cases htype : command.commandType = .correctSubtree <;>
      simp [Write.marks, commandEvents, RuntimeEvent.mark, RuntimeEvent.subject, htype]
  | record | waiting | registerRun | rotate | activate | renew | converge | expireHeartbeat
  | expireSweep | expireScanner | checkpointWait | checkpoint | states | deny | allow => rfl

/-- Every other event has the row it is about. -/
theorem Noted.exists_mark (h : Noted w es) :
    ∀ e ∈ es, e.eventType.recurs = false → ∃ m, e.mark = some m := by
  cases h with
  | registerNode child =>
    cases hcause : child.causedByCommandId <;>
      simp [childEvent, RuntimeEvent.mark, RuntimeEvent.subject, hcause]
  | issue command updatedAt =>
    by_cases htype : command.commandType = .correctSubtree <;>
      simp [commandEvents, RuntimeEvent.mark, RuntimeEvent.subject, htype]
  | record | waiting | registerRun | rotate | activate | renew | converge | expireHeartbeat
  | expireSweep | expireScanner | checkpointWait | checkpoint | complete | completeRecovery | states
  | deny | allow =>
    simp [runEvents, causedEvent, nodeEvent, requestedEvent, deniedEvent, committedEvent,
      RuntimeEvent.mark, RuntimeEvent.subject, EventType.recurs]

theorem Write.nodup_marks (w : Write) : w.marks.Nodup := by
  cases w with
  | complete at' =>
    rw [Write.marks]
    split <;> simp
  | issue command =>
    rw [Write.marks]
    split <;> simp
  | expire path => cases path <;> simp [Write.marks]
  | record | registerRun | registerNode | rotate | activate | renew | converge | checkpoint | states
  | deny | allow => simp [Write.marks]

/-- The marks of a write, one by one. -/
inductive Write.Marks : Write → Mark → Prop
  | run (root : Node) : Marks (.registerRun root) (.runCreated, root.runId)
  | root (root : Node) {t : EventType}
      (type : t = .nodeRegistered ∨ t = .nodeActivated ∨ t = .leaseGranted) :
      Marks (.registerRun root) (t, root.id)
  | child {child : Node} (plain : child.causedByCommandId = none) :
      Marks (.registerNode child) (.nodeRegistered, child.id)
  | replacement {child : Node} (caused : child.causedByCommandId ≠ none) :
      Marks (.registerNode child) (.replacementCreated, child.id)
  | activate (at' : Standing) {t : EventType} (type : t = .nodeActivated ∨ t = .leaseGranted) :
      Marks (.activate at') (t, at'.node.id)
  | expire {path : Path} (at' : Standing) (loud : path = .heartbeat ∨ path = .scanner) :
      Marks (.expire path at') (.leaseExpired, at'.node.id)
  | complete (at' : Standing) : Marks (.complete at') (.nodeCompleted, at'.node.id)
  | recovery {at' : Standing} (caused : at'.node.causedByCommandId ≠ none) :
      Marks (.complete at') (.recoveryCompleted, at'.node.id)
  | issue (command : ControlCommand) : Marks (.issue command) (.commandIssued, command.id)
  | supersede {command : ControlCommand} (correction : command.commandType = .correctSubtree) :
      Marks (.issue command) (.scopeSuperseded, command.id)
  | cancel {command : ControlCommand} (cancellation : command.commandType ≠ .correctSubtree) :
      Marks (.issue command) (.scopeCancelled, command.id)
  | deny (attempt : ActionAttempt) {t : EventType} (type : t = .actionRequested ∨ t = .actionDenied) :
      Marks (.deny attempt) (t, attempt.id)
  | allow (at' : Standing) (now : Time) (attempt : ActionAttempt) {t : EventType}
      (type : t = .actionRequested ∨ t = .actionCommitted) :
      Marks (.allow at' now attempt) (t, attempt.id)

theorem Write.mem_marks {m : Mark} : m ∈ w.marks ↔ w.Marks m := by
  constructor
  · intro h
    cases w with
    | registerRun root =>
      simp only [Write.marks, List.mem_cons, List.not_mem_nil, or_false] at h
      rcases h with rfl | rfl | rfl | rfl
      · exact .run root
      all_goals exact .root root (by simp)
    | registerNode child =>
      obtain rfl := List.mem_singleton.mp h
      by_cases hc : child.causedByCommandId = none
      · rw [if_neg (by simp [hc])]
        exact .child hc
      · rw [if_pos (Option.isSome_iff_ne_none.mpr hc)]
        exact .replacement hc
    | activate at' =>
      rcases List.mem_pair.mp h with rfl | rfl
      · exact .activate at' (Or.inl rfl)
      · exact .activate at' (Or.inr rfl)
    | expire path at' =>
      cases path with
      | heartbeat =>
        obtain rfl := List.mem_singleton.mp h
        exact .expire at' (Or.inl rfl)
      | scanner =>
        obtain rfl := List.mem_singleton.mp h
        exact .expire at' (Or.inr rfl)
      | gateway | sweep => cases h
    | complete at' =>
      rw [Write.marks] at h
      split at h
      · next hc =>
        rcases List.mem_pair.mp h with rfl | rfl
        · exact .complete at'
        · exact .recovery (Option.isSome_iff_ne_none.mp hc)
      · obtain rfl := List.mem_singleton.mp h
        exact .complete at'
    | issue command =>
      rcases List.mem_pair.mp h with rfl | rfl
      · exact .issue command
      · split
        · next hc => exact .supersede hc
        · next hc => exact .cancel hc
    | deny attempt =>
      rcases List.mem_pair.mp h with rfl | rfl
      · exact .deny attempt (Or.inl rfl)
      · exact .deny attempt (Or.inr rfl)
    | allow at' now attempt =>
      rcases List.mem_pair.mp h with rfl | rfl
      · exact .allow at' now attempt (Or.inl rfl)
      · exact .allow at' now attempt (Or.inr rfl)
    | record | rotate | renew | converge | checkpoint | states => cases h
  · intro h
    cases h with
    | root _ type => rcases type with rfl | rfl | rfl <;> simp [Write.marks]
    | child plain => simp [Write.marks, plain]
    | replacement caused => simp [Write.marks, Option.isSome_iff_ne_none.mpr caused]
    | expire _ loud => rcases loud with rfl | rfl <;> exact List.mem_singleton.mpr rfl
    | complete at' =>
      rw [Write.marks]
      split <;> exact List.mem_cons_self
    | recovery caused => simp [Write.marks, Option.isSome_iff_ne_none.mpr caused]
    | supersede correction => simp [Write.marks, correction]
    | cancel cancellation => simp [Write.marks, cancellation]
    | activate _ type | deny _ type | allow _ _ _ type =>
      rcases type with rfl | rfl <;> simp [Write.marks]
    | run | issue => exact List.mem_cons_self

/-! ### Facts about one row -/

/-- How a fact about one row changes: it becomes the case exactly when it is `marked`, and it is
not marked again. -/
def Turns (before after : Bool) (marked : Prop) : Prop :=
  (after = true ↔ before = true ∨ marked) ∧ (marked → before = false)

theorem Turns.kept {fact : Bool} {marked : Prop} (h : ¬marked) : Turns fact fact marked :=
  ⟨(or_iff_left h).symm, fun hm => absurd hm h⟩

theorem Turns.made {marked : Prop} (h : marked) : Turns false true marked :=
  ⟨iff_of_true rfl (Or.inr h), fun _ => rfl⟩

/-- A row is born, kept, or missing. -/
theorem turns_any {α : Type} {before after : Option α} {p : α → Bool} {marked : Prop}
    (kept : ∀ r, before = some r → ∃ r', after = some r' ∧ Turns (p r) (p r') marked)
    (born : before = none → ∀ r, after = some r → (p r = true ↔ marked))
    (missing : before = none → after = none → ¬marked) :
    Turns (before.any p) (after.any p) marked := by
  cases before with
  | some r =>
    obtain ⟨r', rfl, hturns⟩ := kept r rfl
    exact hturns
  | none =>
    cases after with
    | some r => exact ⟨(born rfl r rfl).trans (by simp), fun _ => rfl⟩
    | none => exact .kept (missing rfl rfl)

/-- The types of the events about nodes. -/
def EventType.aboutNode : EventType → Bool
  | .nodeRegistered | .nodeActivated | .nodeCompleted | .leaseGranted | .leaseExpired
  | .replacementCreated | .recoveryCompleted => true
  | _ => false

/-- A mark about a node is of one that is registered, or of the one the write is about. -/
theorem Write.mem_marks_node {t : EventType} {id : Id} (ht : t.aboutNode = true)
    (h : (t, id) ∈ w.marks) :
    (∃ n, n.id = id ∧ (w = .registerRun n ∨ w = .registerNode n)) ∨
      ∃ at', w.standing = some at' ∧ at'.node.id = id ∧ w.subject = some id := by
  rw [Write.mem_marks] at h
  cases h with
  | root root => exact Or.inl ⟨root, rfl, Or.inl rfl⟩
  | child | replacement => exact Or.inl ⟨_, rfl, Or.inr rfl⟩
  | activate at' | expire at' | complete at' | recovery => exact Or.inr ⟨_, rfl, rfl, rfl⟩
  | deny _ type | allow _ _ _ type => rcases type with rfl | rfl <;> cases ht
  | run | issue | supersede | cancel => cases ht

/-- **Facts about nodes**: it is enough to look at births and at the steps of a row. -/
theorem Effect.turns_node (h : Effect cfg w a b) {t : EventType} {p : Node → Bool} (id : Id)
    (ht : t.aboutNode = true)
    (born : ∀ n, w = .registerRun n ∨ w = .registerNode n → (p n = true ↔ (t, n.id) ∈ w.marks))
    (step : ∀ n n', a.nodes.get? id = some n → n.id = id → NodeStep cfg w n n' →
      w.subject = some n.id ∨ w = .rotate → Turns (p n) (p n') ((t, n.id) ∈ w.marks)) :
    Turns ((a.nodes.get? id).any p) ((b.nodes.get? id).any p) ((t, id) ∈ w.marks) := by
  refine turns_any (fun n hn => ?_) (fun hnone n hn => ?_) fun hnone hnone' hm => ?_
  · obtain ⟨n', hn', hstep⟩ := h.node_step hn
    refine ⟨n', hn', ?_⟩
    have hid : n.id = id := Table.key_of_get? hn
    by_cases htouched : w.subject = some n.id ∨ w = .rotate
    · rw [← hid]
      exact step n n' hn hid hstep htouched
    · rw [not_or] at htouched
      have hsame : n' = n := by
        cases hstep with
        | same => rfl
        | token => exact absurd rfl htouched.2
        | activate | renew | converge | expire | complete => exact absurd rfl htouched.1
        | checkpoint row => exact absurd (congrArg some row.symm) htouched.1
      subst hsame
      refine .kept fun hm => ?_
      rcases Write.mem_marks_node ht hm with ⟨m, hmid, hw⟩ | ⟨_, _, _, hsubject⟩
      · rw [← hmid, (h.registered hw).1] at hn
        cases hn
      · exact htouched.1 (by rw [hsubject, hid])
  · have hid : n.id = id := Table.key_of_get? hn
    rcases h.node_cases hn with ⟨_, hw⟩ | ⟨m, hm, _⟩
    · rw [← hid]
      exact born n hw
    · rw [hnone] at hm
      cases hm
  · rcases Write.mem_marks_node ht hm with ⟨m, rfl, hw⟩ | ⟨at', hstanding, rfl, _⟩
    · rw [(h.registered hw).2] at hnone'
      cases hnone'
    · rw [(h.found_standing hstanding).2] at hnone
      cases hnone

/-! ### Nodes -/

/-- Which event registers a node, is settled when it is registered. -/
theorem Effect.turns_registered (h : Effect cfg w a b) (id : Id) :
    Turns (EventType.happened a id .nodeRegistered) (EventType.happened b id .nodeRegistered)
        ((.nodeRegistered, id) ∈ w.marks) ∧
      Turns (EventType.happened a id .replacementCreated)
        (EventType.happened b id .replacementCreated) ((.replacementCreated, id) ∈ w.marks) := by
  have hunmarked {t : EventType} {row : Id} (ht : t = .nodeRegistered ∨ t = .replacementCreated)
      (hw : w.subject = some row ∨ w = .rotate) : (t, row) ∉ w.marks := by
    rw [Write.mem_marks]
    intro hm
    cases hm with
    | activate _ type => rcases ht with rfl | rfl <;> simp at type
    | expire | complete | recovery => simp at ht
    | run | root | child | replacement | issue | supersede | cancel | deny | allow =>
      simp [Write.subject] at hw
  have hcause {n n' : Node} (hstep : NodeStep cfg w n n') :
      n'.causedByCommandId = n.causedByCommandId :=
    congrArg Registration.causedByCommandId hstep.registration
  constructor
  · refine h.turns_node id rfl ?_ fun n n' _ _ hstep hw => ?_
    · rintro n (rfl | rfl)
      · simp [h.root_birth.uncaused, Write.marks]
      · cases hc : n.causedByCommandId <;> simp [Write.marks, hc]
    · rw [hcause hstep]
      exact .kept (hunmarked (Or.inl rfl) hw)
  · refine h.turns_node id rfl ?_ fun n n' _ _ hstep hw => ?_
    · rintro n (rfl | rfl)
      · simp [h.root_birth.uncaused, Write.marks]
      · cases hc : n.causedByCommandId <;> simp [Write.marks, hc]
    · rw [hcause hstep]
      exact .kept (hunmarked (Or.inr rfl) hw)

/-- **A node is activated at most once**: what is activated has held no token, and so has not been
activated before. -/
theorem Effect.turns_activated (h : Effect cfg w a b) (ha : Awake a) (id : Id) {t : EventType}
    (ht : t = .nodeActivated ∨ t = .leaseGranted) :
    Turns (EventType.happened a id t) (EventType.happened b id t) ((t, id) ∈ w.marks) := by
  have hboth {t : EventType} (ht : t = .nodeActivated ∨ t = .leaseGranted) :
      Turns ((a.nodes.get? id).any fun n => n.activatedAt.isSome)
        ((b.nodes.get? id).any fun n => n.activatedAt.isSome) ((t, id) ∈ w.marks) := by
    refine h.turns_node id (by rcases ht with rfl | rfl <;> rfl) ?_ fun n n' hn _ hstep hw => ?_
    · rintro n (rfl | rfl)
      · have hactivated := Option.isSome_iff_ne_none.mpr h.root_birth.activated
        rcases ht with rfl | rfl <;> simp [Write.marks, hactivated]
      · obtain ⟨_, hbirth⟩ := h.birth
        cases hc : n.causedByCommandId <;> rcases ht with rfl | rfl <;>
          simp [Write.marks, hbirth.dormant, hc]
    · cases hstep with
      | same untouched =>
        rcases hw with hw | rfl
        · exact absurd hw untouched
        · exact .kept List.not_mem_nil
      | @activate at' _ _ _ _ tokenless =>
        have hdormant : at'.node.activatedAt = none := by
          by_contra hne
          exact (ha id _ hn).token.mpr hne tokenless
        rw [hdormant]
        exact .made (by rcases ht with rfl | rfl <;> simp [Write.marks])
      | token | renew | converge | checkpoint => exact .kept List.not_mem_nil
      | @expire path => cases path <;> exact .kept (by rcases ht with rfl | rfl <;> simp [Write.marks])
      | @complete at' =>
        refine .kept ?_
        rw [Write.marks]
        split <;> rcases ht with rfl | rfl <;> simp
  rcases ht with rfl | rfl
  · exact hboth (Or.inl rfl)
  · exact hboth (Or.inr rfl)

/-! ### Endings -/

/-- The statuses whose beginning is an event. -/
def NodeStatus.isRecorded : NodeStatus → Bool
  | .completed | .leaseExpired => true
  | _ => false

/-- No node is ended in silence, and no ending that has been recorded is written over. -/
def Write.vouched : Write → Prop
  | .expire .sweep _ => False
  | .checkpoint _ status (some found) => found.node.status = status ∨
      found.node.status.isRecorded = false ∧ status.isRecorded = false
  | _ => True

/-- What an event about the end of a node says. -/
def EventType.endOf (n : Node) : EventType → Bool
  | .nodeCompleted => n.status = .completed
  | .recoveryCompleted => n.status = .completed && n.causedByCommandId.isSome
  | .leaseExpired => n.status = .leaseExpired
  | _ => false

theorem EventType.endOf_eq_false {t : EventType} {n : Node} (h : n.status.isRecorded = false) :
    t.endOf n = false := by
  cases hs : n.status <;> cases t <;> simp_all [EventType.endOf, NodeStatus.isRecorded]

theorem NodeStatus.not_recorded {status : NodeStatus}
    (h : status.isLive = true ∨ status = .pending) : status.isRecorded = false := by
  cases status <;> simp_all [NodeStatus.isLive, NodeStatus.isRecorded]

/-- An unrecorded row stays unrecorded. -/
theorem Turns.quiet {t : EventType} {n n' : Node} {marked : Prop}
    (before : n.status.isRecorded = false) (after : n'.status.isRecorded = false) (h : ¬marked) :
    Turns (t.endOf n) (t.endOf n') marked := by
  rw [EventType.endOf_eq_false before, EventType.endOf_eq_false after]
  exact .kept h

/-- **An ending is recorded when it comes, and lasts**: one step of a row. -/
theorem NodeStep.turns_ended {n n' : Node} {t : EventType} (h : NodeStep cfg w n n')
    (ht : t.isEnding = true) (hvouched : w.vouched) (hpath : ∀ at', w ≠ .expire .gateway at')
    (hw : w.subject = some n.id ∨ w = .rotate) :
    Turns (t.endOf n) (t.endOf n') ((t, n.id) ∈ w.marks) := by
  have hlive {status : NodeStatus} (hl : status.isLive = true) : status.isRecorded = false :=
    NodeStatus.not_recorded (Or.inl hl)
  cases h with
  | same untouched =>
    rcases hw with hw | rfl
    · exact absurd hw untouched
    · exact .kept List.not_mem_nil
  | token => exact .kept List.not_mem_nil
  | renew _ live => exact .quiet (hlive live) (hlive live) List.not_mem_nil
  | @activate at' _ _ _ pending =>
    refine .quiet (NodeStatus.not_recorded (Or.inr pending)) rfl ?_
    cases t <;> simp [EventType.isEnding, Write.marks] at ht ⊢
  | converge status live cut =>
    refine .quiet (hlive live) ?_ List.not_mem_nil
    rcases cut with rfl | rfl <;> rfl
  | @expire path at' before =>
    have hbefore : t.endOf at'.node = false :=
      EventType.endOf_eq_false (NodeStatus.not_recorded before)
    rw [hbefore]
    cases path with
    | gateway => exact absurd rfl (hpath at')
    | sweep => exact hvouched.elim
    | heartbeat | scanner =>
      cases t with
      | leaseExpired => exact .made (List.mem_singleton.mpr rfl)
      | nodeCompleted | recoveryCompleted => exact .kept (by simp [Write.marks])
      | _ => cases ht
  | @checkpoint read status at' =>
    rcases hvouched with rfl | ⟨hfound, hstatus⟩
    · exact .kept List.not_mem_nil
    · exact .quiet hfound hstatus List.not_mem_nil
  | @complete at' _ live =>
    rw [EventType.endOf_eq_false (hlive live)]
    cases hcause : at'.node.causedByCommandId with
    | none =>
      cases t with
      | nodeCompleted => exact .made (by simp [Write.marks, hcause])
      | recoveryCompleted =>
        rw [show EventType.endOf _ .recoveryCompleted = false by simp [EventType.endOf, hcause]]
        exact .kept (by simp [Write.marks, hcause])
      | leaseExpired => exact .kept (by simp [Write.marks, hcause])
      | _ => cases ht
    | some commandId =>
      cases t with
      | nodeCompleted => exact .made (by simp [Write.marks, hcause])
      | recoveryCompleted =>
        rw [show EventType.endOf _ .recoveryCompleted = true by simp [EventType.endOf, hcause]]
        exact .made (by simp [Write.marks, hcause])
      | leaseExpired => exact .kept (by simp [Write.marks, hcause])
      | _ => cases ht

/-- The same, of the registry. -/
theorem Effect.turns_ended (h : Effect cfg w a b) (hvouched : w.vouched) (id : Id) {t : EventType}
    (ht : t.isEnding = true) :
    Turns (EventType.happened a id t) (EventType.happened b id t) ((t, id) ∈ w.marks) := by
  have hborn (n : Node) (hw : w = .registerRun n ∨ w = .registerNode n) :
      t.endOf n = true ↔ (t, n.id) ∈ w.marks := by
    rcases hw with rfl | rfl
    · have hstatus : n.status.isRecorded = false := by rw [h.root_birth.active]; rfl
      rw [EventType.endOf_eq_false hstatus]
      cases t <;> simp [EventType.isEnding, Write.marks] at ht ⊢
    · obtain ⟨_, hbirth⟩ := h.birth
      have hstatus : n.status.isRecorded = false := by rw [hbirth.pending]; rfl
      rw [EventType.endOf_eq_false hstatus]
      cases hc : n.causedByCommandId <;> cases t <;>
        simp [EventType.isEnding, Write.marks, hc] at ht ⊢
  have hpath (at' : Standing) : w ≠ .expire .gateway at' := by
    rintro rfl
    cases h
  have hturns := h.turns_node (p := fun n => t.endOf n) id (by cases t <;> first | rfl | cases ht)
    hborn fun n n' _ _ hstep hw => hstep.turns_ended ht hvouched hpath hw
  cases t with
  | nodeCompleted | recoveryCompleted | leaseExpired => exact hturns
  | _ => cases ht

/-! ### Runs, commands and attempts -/

theorem Effect.turns_run (h : Effect cfg w a b) (id : Id) :
    Turns (EventType.happened a id .runCreated) (EventType.happened b id .runCreated)
      ((.runCreated, id) ∈ w.marks) := by
  have hroot (hm : (EventType.runCreated, id) ∈ w.marks) :
      ∃ root, w = .registerRun root ∧ root.runId = id := by
    rw [Write.mem_marks] at hm
    cases hm with
    | run root => exact ⟨root, rfl, rfl⟩
    | root _ type | activate _ type | deny _ type | allow _ _ _ type => simp at type
  have hisSome (db : Database) :
      EventType.happened db id .runCreated = (db.runs.get? id).any fun _ => true := by
    cases hr : db.runs.get? id <;> simp [EventType.happened, hr]
  rw [hisSome a, hisSome b]
  refine turns_any (fun r hr => ?_) (fun hnone r hr => ?_) fun hnone hnone' hm => ?_
  · obtain ⟨r', hr', _⟩ := h.run_step hr
    refine ⟨r', hr', .kept fun hm => ?_⟩
    obtain ⟨root, rfl, rfl⟩ := hroot hm
    rw [h.root_birth.runFresh] at hr
    cases hr
  · rcases h.run_cases hr with ⟨_, _, _, root, rfl, rfl, _⟩ | ⟨r, hr', _⟩
    · exact iff_of_true rfl (by simp [Write.marks])
    · rw [hnone] at hr'
      cases hr'
  · obtain ⟨root, rfl, rfl⟩ := hroot hm
    cases h with
    | registerRun run =>
      change _ = none at hnone'
      rw [Table.get?_of_insert? run] at hnone'
      simp [newRoot, newRun, Keyed.key] at hnone'

/-- An issued command is a new row. -/
theorem Effect.issued {c : ControlCommand} (h : Effect cfg w a b) (hw : w = .issue c) :
    a.commands.get? c.id = none ∧ b.commands.get? c.id = some c := by
  subst hw
  cases h with
  | issue _ _ _ _ _ _ _ _ _ inserted =>
    refine ⟨get?_none_of_insert? inserted, ?_⟩
    rw [Table.get?_of_insert? inserted]
    exact if_pos rfl

/-- **Facts about commands**: what a command says of itself never changes. -/
theorem Effect.turns_command (h : Effect cfg w a b) {t : EventType} {p : ControlCommand → Bool}
    (id : Id) (hp : ∀ c, p c.issued = p c)
    (hmarks : (t, id) ∈ w.marks ↔ ∃ c, w = .issue c ∧ c.id = id ∧ p c = true) :
    Turns ((a.commands.get? id).any p) ((b.commands.get? id).any p) ((t, id) ∈ w.marks) := by
  refine turns_any (fun c hc => ?_) (fun hnone c hc => ?_) fun hnone hnone' hm => ?_
  · obtain ⟨c', hc', hstep⟩ := h.command_step hc
    refine ⟨c', hc', ?_⟩
    rw [issued_column p hp hstep.issued]
    refine .kept fun hm => ?_
    obtain ⟨command, hw, rfl, _⟩ := hmarks.mp hm
    rw [(h.issued hw).1] at hc
    cases hc
  · rcases h.command_cases hc with ⟨_, hw⟩ | ⟨c', hc', _⟩
    · have hid : c.id = id := Table.key_of_get? hc
      rw [hmarks]
      refine ⟨fun hpc => ⟨c, hw, hid, hpc⟩, ?_⟩
      rintro ⟨command, hw', _, hpc⟩
      cases hw.symm.trans hw'
      exact hpc
    · rw [hnone] at hc'
      cases hc'
  · obtain ⟨command, hw, rfl, _⟩ := hmarks.mp hm
    rw [(h.issued hw).2] at hnone'
    cases hnone'

/-- The attempt a write enters. -/
def Write.attempt : Write → Option ActionAttempt
  | .deny attempt | .allow _ _ attempt => some attempt
  | _ => none

/-- The attempts after a write: one more row, or the same rows. -/
theorem Effect.attempts_eq (h : Effect cfg w a b) :
    (w.attempt = none ∧ b.attempts = a.attempts) ∨
      ∃ x, w.attempt = some x ∧ a.attempts.insert? x = some b.attempts := by
  have hinserted {x : ActionAttempt} {attempts : Table ActionAttempt}
      (inserted : insertAttempt a x = .ok attempts) : a.attempts.insert? x = some attempts := by
    simp only [insertAttempt, bind_eq_ok, ensure_eq_ok, require_eq_ok] at inserted
    obtain ⟨_, _, _, _, inserted⟩ := inserted
    exact inserted
  cases h with
  | deny _ inserted | allow _ _ _ _ _ _ _ inserted =>
    exact Or.inr ⟨_, rfl, hinserted inserted⟩
  | record | registerRun | registerNode | registerReplacement | rotateIntent | rotateToken | renew
  | converge | expireHeartbeat | expireSweep | checkpoint | issue | states =>
    exact Or.inl ⟨rfl, rfl⟩
  | @activate _ _ _ _ commandId | @complete _ _ _ _ _ commandId =>
    cases commandId <;> exact Or.inl ⟨rfl, rfl⟩
  | expireScanner _ _ failed =>
    exact Or.inl ⟨rfl, (failRun_frame failed).1.attempts.trans (expireActivation_frame _).1.attempts⟩

/-- An attempt that is entered is a new row. -/
theorem Effect.entered {x : ActionAttempt} (h : Effect cfg w a b) (hw : w.attempt = some x) :
    a.attempts.get? x.id = none ∧ b.attempts.get? x.id = some x := by
  rcases h.attempts_eq with ⟨hnone, _⟩ | ⟨x', hx', inserted⟩
  · rw [hnone] at hw
    cases hw
  · obtain rfl := Option.some.inj (hx'.symm.trans hw)
    refine ⟨get?_none_of_insert? inserted, ?_⟩
    rw [Table.get?_of_insert? inserted]
    exact if_pos rfl

/-- **Facts about attempts**: an attempt never changes. -/
theorem Effect.turns_attempt (h : Effect cfg w a b) {t : EventType} {p : ActionAttempt → Bool}
    (id : Id) (hmarks : (t, id) ∈ w.marks ↔ ∃ x, w.attempt = some x ∧ x.id = id ∧ p x = true) :
    Turns ((a.attempts.get? id).any p) ((b.attempts.get? id).any p) ((t, id) ∈ w.marks) := by
  refine turns_any (fun x hx => ?_) (fun hnone x hx => ?_) fun hnone hnone' hm => ?_
  · refine ⟨x, Table.get?_of_prefix h.evolves.attempt hx, .kept fun hm => ?_⟩
    obtain ⟨x', hw, rfl, _⟩ := hmarks.mp hm
    rw [(h.entered hw).1] at hx
    cases hx
  · rcases h.attempts_eq with ⟨_, hsame⟩ | ⟨x', hw, inserted⟩
    · rw [hsame, hnone] at hx
      cases hx
    · rcases Table.get?_insert?_cases inserted hx with ⟨_, rfl, rfl⟩ | hx
      · rw [hmarks]
        refine ⟨fun hp => ⟨x, hw, rfl, hp⟩, ?_⟩
        rintro ⟨x', hw', _, hp⟩
        cases hw.symm.trans hw'
        exact hp
      · rw [hnone] at hx
        cases hx
  · obtain ⟨x, hw, rfl, _⟩ := hmarks.mp hm
    rw [(h.entered hw).2] at hnone'
    cases hnone'

/-! ### Every write -/

theorem Write.mem_marks_command {t : EventType} {p : ControlCommand → Bool} (id : Id)
    (ht : (t = .commandIssued ∧ ∀ c, p c = true) ∨
      (t = .scopeSuperseded ∧ ∀ c, p c = true ↔ c.commandType = .correctSubtree) ∨
      t = .scopeCancelled ∧ ∀ c, p c = true ↔ c.commandType ≠ .correctSubtree) :
    (t, id) ∈ w.marks ↔ ∃ c, w = .issue c ∧ c.id = id ∧ p c = true := by
  rw [Write.mem_marks]
  constructor
  · intro h
    cases h with
    | issue command =>
      rcases ht with ⟨_, hp⟩ | ⟨ht, _⟩ | ⟨ht, _⟩
      · exact ⟨command, rfl, rfl, hp command⟩
      all_goals cases ht
    | @supersede command correction =>
      rcases ht with ⟨ht, _⟩ | ⟨_, hp⟩ | ⟨ht, _⟩
      · cases ht
      · exact ⟨command, rfl, rfl, (hp command).mpr correction⟩
      · cases ht
    | @cancel command cancellation =>
      rcases ht with ⟨ht, _⟩ | ⟨ht, _⟩ | ⟨_, hp⟩
      · cases ht
      · cases ht
      · exact ⟨command, rfl, rfl, (hp command).mpr cancellation⟩
    | root _ type | activate _ type | deny _ type | allow _ _ _ type => aesop
    | run | child | replacement | expire | complete | recovery => simp at ht
  · rintro ⟨command, rfl, rfl, hpc⟩
    rcases ht with ⟨rfl, _⟩ | ⟨rfl, hp⟩ | ⟨rfl, hp⟩
    · exact .issue command
    · exact .supersede ((hp command).mp hpc)
    · exact .cancel ((hp command).mp hpc)

/-- The decision an event about an action is of. -/
theorem Effect.mem_marks_attempt (h : Effect cfg w a b) {t : EventType} {p : ActionAttempt → Bool}
    (id : Id) (ht : (t = .actionRequested ∧ ∀ x, p x = true) ∨
      (t = .actionDenied ∧ ∀ x, p x = true ↔ x.decision = .deny) ∨
      t = .actionCommitted ∧ ∀ x, p x = true ↔ x.decision = .allow) :
    (t, id) ∈ w.marks ↔ ∃ x, w.attempt = some x ∧ x.id = id ∧ p x = true := by
  rw [Write.mem_marks]
  constructor
  · intro hm
    cases hm with
    | deny attempt type =>
      refine ⟨attempt, rfl, rfl, ?_⟩
      cases h with
      | deny decision =>
        rcases ht with ⟨_, hp⟩ | ⟨_, hp⟩ | ⟨rfl, _⟩
        · exact hp attempt
        · exact (hp attempt).mpr decision
        · simp at type
    | allow _ _ attempt type =>
      refine ⟨attempt, rfl, rfl, ?_⟩
      cases h with
      | allow _ _ _ _ _ _ row =>
        rcases ht with ⟨_, hp⟩ | ⟨rfl, _⟩ | ⟨_, hp⟩
        · exact hp attempt
        · simp at type
        · exact (hp attempt).mpr (by rw [row]; rfl)
    | root _ type | activate _ type => aesop
    | run | child | replacement | expire | complete | recovery | issue | supersede | cancel =>
      simp at ht
  · rintro ⟨x, hx, rfl, hpx⟩
    cases h with
    | deny decision =>
      obtain rfl := Option.some.inj hx
      refine .deny _ ?_
      rcases ht with ⟨rfl, _⟩ | ⟨rfl, _⟩ | ⟨_, hp⟩
      · exact Or.inl rfl
      · exact Or.inr rfl
      · rw [(hp _).mp hpx] at decision
        cases decision
    | allow _ _ _ _ _ _ row =>
      obtain rfl := Option.some.inj hx
      refine .allow _ _ _ ?_
      rcases ht with ⟨rfl, _⟩ | ⟨_, hp⟩ | ⟨rfl, _⟩
      · exact Or.inl rfl
      · have hdecision := (hp _).mp hpx
        rw [row] at hdecision
        cases hdecision
      · exact Or.inr rfl
    | record | registerRun | registerNode | registerReplacement | rotateIntent | rotateToken
    | activate | renew | converge | expireHeartbeat | expireSweep | expireScanner | checkpoint
    | complete | issue | states => cases hx

/-- **What a write makes happen is what its events say**, endings apart unless it is vouched. -/
theorem Effect.turns (h : Effect cfg w a b) (ha : Awake a) (m : Mark)
    (hm : m.1.isEnding = true → w.vouched) : Turns (a.facts m) (b.facts m) (m ∈ w.marks) := by
  obtain ⟨t, id⟩ := m
  have hisSome {α : Type} (o : Option α) : o.isSome = o.any fun _ => true := by cases o <;> rfl
  change Turns (t.happened a id) (t.happened b id) _
  cases t with
  | runCreated => exact h.turns_run id
  | nodeRegistered => exact (h.turns_registered id).1
  | replacementCreated => exact (h.turns_registered id).2
  | nodeActivated => exact h.turns_activated ha id (Or.inl rfl)
  | leaseGranted => exact h.turns_activated ha id (Or.inr rfl)
  | nodeCompleted | recoveryCompleted | leaseExpired => exact h.turns_ended (hm rfl) id rfl
  | commandIssued =>
    rw [EventType.happened, EventType.happened, hisSome, hisSome]
    exact h.turns_command id (fun _ => rfl) (Write.mem_marks_command id (Or.inl ⟨rfl, fun _ => rfl⟩))
  | scopeSuperseded =>
    exact h.turns_command id (fun _ => rfl) (Write.mem_marks_command id
      (Or.inr (Or.inl ⟨rfl, fun _ => decide_eq_true_iff⟩)))
  | scopeCancelled =>
    exact h.turns_command id (fun _ => rfl) (Write.mem_marks_command id
      (Or.inr (Or.inr ⟨rfl, fun _ => decide_eq_true_iff⟩)))
  | actionRequested =>
    rw [EventType.happened, EventType.happened, hisSome, hisSome]
    exact h.turns_attempt id (h.mem_marks_attempt id (Or.inl ⟨rfl, fun _ => rfl⟩))
  | actionDenied =>
    exact h.turns_attempt id (h.mem_marks_attempt id
      (Or.inr (Or.inl ⟨rfl, fun _ => decide_eq_true_iff⟩)))
  | actionCommitted =>
    exact h.turns_attempt id (h.mem_marks_attempt id
      (Or.inr (Or.inr ⟨rfl, fun _ => decide_eq_true_iff⟩)))
  | nodeWaiting | leaseRenewed | demoWorkerReleased =>
    refine .kept fun hmark => ?_
    rw [Write.mem_marks] at hmark
    cases hmark with
    | root _ type | activate _ type | deny _ type | allow _ _ _ type => simp at type

end TraceFence
