import TraceFence.Effect.Basic

/-!
# What a write puts on record

Next to an effect a service keeps books: it acknowledges commands, matches attempts to commands,
seals responses and appends to the runtime journal. An entry is an effect together with its books,
and it says exactly which events the journal gains. A transaction is a sequence of entries, and
forgetting the books makes it a sequence of effects again.

## Main definitions

* `Noted` — the events that go with a write
* `Notes` — books are kept, and nothing else changes
* `Entry`, `Entries`

## Main results

* `Entries.writes` — a sequence of entries is a sequence of effects
-/

namespace TraceFence

variable {cfg : Config} {P Q : Write → Prop} {w : Write} {a b c : Database} {es : List RuntimeEvent}

/-! ### Events -/

/-- The events of a new run and its root. -/
def runEvents (root : Node) : List RuntimeEvent :=
  [{ runId := root.runId, eventType := .runCreated, occurredAt := root.registeredAt },
    { runId := root.runId, eventType := .nodeRegistered, occurredAt := root.registeredAt,
      nodeId := some root.id, scopeId := some root.ownScopeId, snapshotVersion := some 1,
      authoritativeVersion := some 1 },
    { runId := root.runId, eventType := .nodeActivated, occurredAt := root.registeredAt,
      nodeId := some root.id },
    { runId := root.runId, eventType := .leaseGranted, occurredAt := root.registeredAt,
      nodeId := some root.id }]

/-- The event of a new child, plain or a replacement. -/
def childEvent (child : Node) : RuntimeEvent where
  runId := child.runId
  eventType := if child.causedByCommandId.isSome then .replacementCreated else .nodeRegistered
  occurredAt := child.registeredAt
  nodeId := some child.id
  parentNodeId := child.parentId
  commandId := child.causedByCommandId
  scopeId := some child.ownScopeId
  snapshotVersion := some 1
  authoritativeVersion := some 1

/-- An event of the life of a node. -/
def nodeEvent (eventType : EventType) (node : Node) (now : Time) : RuntimeEvent where
  runId := node.runId
  eventType := eventType
  occurredAt := now
  nodeId := some node.id
  parentNodeId := node.parentId

/-- The same, under the command the node was created for. -/
def causedEvent (eventType : EventType) (node : Node) (now : Time) : RuntimeEvent :=
  { nodeEvent eventType node now with commandId := node.causedByCommandId }

/-- The second event of a denied attempt. -/
def deniedEvent (attempt : ActionAttempt) (reason : ReasonCode) : RuntimeEvent :=
  { requestedEvent attempt with
    eventType := .actionDenied
    decision := some .deny
    reasonCode := some reason.code }

/-- The second event of an allowed attempt. -/
def committedEvent (node : Node) (attempt : ActionAttempt) (now : Time) : RuntimeEvent where
  runId := node.runId
  eventType := .actionCommitted
  occurredAt := now
  nodeId := some node.id
  actionId := some attempt.id
  commandId := node.causedByCommandId
  decision := some .allow

/-- **The events that go with a write.** The sweep of a completing root and a checkpoint mark nodes
as expired without an event. -/
inductive Noted : Write → List RuntimeEvent → Prop
  | record : Noted .record []
  | waiting (node : Node) (now : Time) : Noted .record [causedEvent .nodeWaiting node now]
  | registerRun (root : Node) : Noted (.registerRun root) (runEvents root)
  | registerNode (child : Node) : Noted (.registerNode child) [childEvent child]
  | rotate : Noted .rotate []
  | activate (at' : Standing) (now : Time) : Noted (.activate at')
      [causedEvent .nodeActivated at'.node now,
        { runId := at'.node.runId, eventType := .leaseGranted, occurredAt := now,
          nodeId := some at'.node.id }]
  | renew (at' : Standing) (now : Time) :
      Noted (.renew at') [nodeEvent .leaseRenewed at'.node now]
  | converge (path : Path) (at' : Standing) : Noted (.converge path at') []
  | expireHeartbeat (at' : Standing) (now : Time) :
      Noted (.expire .heartbeat at') [nodeEvent .leaseExpired at'.node now]
  | expireSweep (at' : Standing) : Noted (.expire .sweep at') []
  | expireScanner (at' : Standing) (now : Time) :
      Noted (.expire .scanner at') [causedEvent .leaseExpired at'.node now]
  | checkpointWait (read : Node) (found : Option Standing) (now : Time) :
      Noted (.checkpoint read .waiting found) [causedEvent .nodeWaiting read now]
  | checkpoint (read : Node) (status : NodeStatus) (found : Option Standing) :
      Noted (.checkpoint read status found) []
  | complete (at' : Standing) (now : Time) (plain : at'.node.causedByCommandId = none) :
      Noted (.complete at') [causedEvent .nodeCompleted at'.node now]
  | completeRecovery (at' : Standing) (now : Time)
      (caused : at'.node.causedByCommandId.isSome = true) :
      Noted (.complete at') [causedEvent .nodeCompleted at'.node now,
        causedEvent .recoveryCompleted at'.node now]
  | issue (command : ControlCommand) (updatedAt : Time) :
      Noted (.issue command) (commandEvents command updatedAt)
  | states : Noted .states []
  | deny (attempt : ActionAttempt) (reason : ReasonCode) :
      Noted (.deny attempt) [requestedEvent attempt, deniedEvent attempt reason]
  | allow (at' : Standing) (now committedAt : Time) (attempt : ActionAttempt) :
      Noted (.allow at' now attempt)
        [requestedEvent attempt, committedEvent at'.node attempt committedAt]

/-! ### Entries -/

/-- Books are kept: envelopes and acknowledgements, and the journal gains `events`. -/
structure Notes (events : List RuntimeEvent) (a b : Database) : Prop where
  runs : b.runs = a.runs := by rfl
  nodes : b.nodes = a.nodes := by rfl
  scopes : b.scopes = a.scopes := by rfl
  intents : b.intents = a.intents := by rfl
  commands : b.commands = a.commands := by rfl
  attempts : b.attempts = a.attempts := by rfl
  serviceStates : b.serviceStates = a.serviceStates := by rfl
  proposals : b.proposals = a.proposals := by rfl
  acknowledgements : a.acknowledgements.rows <+: b.acknowledgements.rows := by exact List.prefix_rfl
  commandMatches : b.commandMatches = a.commandMatches := by rfl
  events : b.events = a.events ++ events := by rfl

theorem Notes.logged (h : Notes es a b) : Logged a b :=
  ⟨h.acknowledgements, h.commandMatches ▸ List.prefix_rfl, h.events ▸ List.prefix_append _ _⟩

/-- Nothing but books, whatever happened to the proposals. -/
theorem Notes.record_proposals {proposals : Table CorrectionProposal}
    (h : Notes es a { b with proposals := proposals }) : Effect cfg .record a b := by
  have he : Effect cfg .record a _ := .record b.envelopes b.proposals b.acknowledgements
    b.commandMatches b.events ⟨h.logged.1, h.logged.2, h.logged.3⟩
  rw [← h.runs, ← h.nodes, ← h.scopes, ← h.intents, ← h.commands, ← h.attempts,
    ← h.serviceStates] at he
  exact he

theorem Notes.record (h : Notes es a b) : Effect cfg .record a b :=
  @Notes.record_proposals cfg a b es b.proposals h

/-- **An entry**: an effect with its books, or books alone. A denial also enters the commands it is
matched with. -/
inductive Entry (cfg : Config) : Write → List RuntimeEvent → Database → Database → Prop
  | write {w : Write} {es : List RuntimeEvent} {a mid b : Database} (noted : Noted w es)
      (effect : Effect cfg w a mid) (notes : Notes es mid b) (core : w ≠ .record := by simp) :
      Entry cfg w es a b
  | books {es : List RuntimeEvent} {a b : Database} (noted : Noted .record es)
      (notes : Notes es a b) : Entry cfg .record es a b
  | deny {attempt : ActionAttempt} {reason : ReasonCode} {a mid b : Database}
      {matched : Table ActionCommandMatch} (effect : Effect cfg (.deny attempt) a mid)
      (kept : mid.commandMatches.rows <+: matched.rows)
      (notes : Notes [requestedEvent attempt, deniedEvent attempt reason]
        { mid with commandMatches := matched } b) :
      Entry cfg (.deny attempt) [requestedEvent attempt, deniedEvent attempt reason] a b

/-- What a core effect leaves to the books. -/
theorem Effect.unbooked (h : Effect cfg w a b) (hw : w ≠ .record) :
    b.proposals = a.proposals ∧ b.commandMatches = a.commandMatches ∧ b.events = a.events := by
  cases h with
  | record => exact absurd rfl hw
  | registerRun | registerNode | registerReplacement | rotateIntent | rotateToken | renew | converge
  | expireHeartbeat | expireSweep | checkpoint | issue | states | deny | allow => exact ⟨rfl, rfl, rfl⟩
  | @activate _ _ _ _ commandId | @complete _ _ _ _ _ commandId => cases commandId <;> exact ⟨rfl, rfl, rfl⟩
  | expireScanner _ _ failed =>
    rw [failRun] at failed
    split at failed
    · cases failed
      rw [expireActivation]
      repeat' split
      all_goals exact ⟨rfl, rfl, rfl⟩
    · simp only [Checked.bind_eq_ok, Checked.pure_eq_ok] at failed
      obtain ⟨_, _, rfl⟩ := failed
      rw [expireActivation]
      repeat' split
      all_goals exact ⟨rfl, rfl, rfl⟩

/-- An entry is noted, and the journal gains its events. -/
theorem Entry.events (h : Entry cfg w es a b) :
    Noted w es ∧ b.proposals = a.proposals ∧ b.events = a.events ++ es := by
  cases h with
  | write noted effect notes core =>
    obtain ⟨hproposals, _, hevents⟩ := effect.unbooked core
    exact ⟨noted, notes.proposals.trans hproposals, hevents ▸ notes.events⟩
  | books noted notes => exact ⟨noted, notes.proposals, notes.events⟩
  | @deny attempt reason _ mid _ _ effect _ notes =>
    obtain ⟨hproposals, _, hevents⟩ := effect.unbooked (by simp)
    have hnotes : b.events = mid.events ++ _ := notes.events
    exact ⟨.deny attempt reason, notes.proposals.trans hproposals, hevents ▸ hnotes⟩

/-- The books leave the rows that writes are about as the effect has left them. -/
theorem Entry.core (h : Entry cfg w es a b) : ∃ mid, Effect cfg w a mid ∧ b.runs = mid.runs ∧
    b.nodes = mid.nodes ∧ b.commands = mid.commands ∧ b.attempts = mid.attempts := by
  cases h with
  | @write _ _ _ mid _ _ effect notes =>
    exact ⟨mid, effect, notes.runs, notes.nodes, notes.commands, notes.attempts⟩
  | books _ notes => exact ⟨b, notes.record, rfl, rfl, rfl, rfl⟩
  | @deny _ _ _ mid _ _ effect _ notes =>
    exact ⟨mid, effect, notes.runs, notes.nodes, notes.commands, notes.attempts⟩

/-- Only a denial is matched with commands. -/
theorem Entry.commandMatches (h : Entry cfg w es a b) (hw : ∀ attempt, w ≠ .deny attempt) :
    b.commandMatches = a.commandMatches := by
  cases h with
  | write _ effect notes core => exact notes.commandMatches.trans (effect.unbooked core).2.1
  | books _ notes => exact notes.commandMatches
  | deny => exact absurd rfl (hw _)

/-- A sequence of entries whose outlines satisfy `P`. -/
def Entries (cfg : Config) (P : Write → Prop) : Database → Database → Prop :=
  Relation.ReflTransGen fun a b => ∃ w es, P w ∧ Entry cfg w es a b

namespace Entries

theorem refl : Entries cfg P a a := Relation.ReflTransGen.refl

theorem single (hw : P w) (h : Entry cfg w es a b) : Entries cfg P a b :=
  Relation.ReflTransGen.single ⟨w, es, hw, h⟩

theorem trans (h : Entries cfg P a b) (h' : Entries cfg P b c) : Entries cfg P a c :=
  Relation.ReflTransGen.trans h h'

theorem tail (h : Entries cfg P a b) (hw : P w) (h' : Entry cfg w es b c) : Entries cfg P a c :=
  Relation.ReflTransGen.tail h ⟨w, es, hw, h'⟩

theorem mono (h : Entries cfg P a b) (hPQ : ∀ w, P w → Q w) : Entries cfg Q a b := by
  induction h with
  | refl => exact refl
  | tail _ he ih =>
    obtain ⟨w, es, hw, he⟩ := he
    exact ih.tail (hPQ w hw) he

/-- What every entry preserves, a sequence preserves. -/
theorem preserve {I : Database → Prop} (h : Entries cfg P a b) (ha : I a)
    (hentry : ∀ w es a b, I a → P w → Entry cfg w es a b → I b) : I b := by
  induction h with
  | refl => exact ha
  | tail _ he ih =>
    obtain ⟨w, es, hw, he⟩ := he
    exact hentry w es _ _ ih hw he

/-- **Entries are effects.** -/
theorem writes (h : Entries cfg P a b) (hrecord : P .record) : Writes cfg P a b := by
  induction h with
  | refl => exact Writes.refl
  | tail _ he ih =>
    obtain ⟨w, es, hw, he⟩ := he
    cases he with
    | write _ effect notes => exact (ih.tail hw effect).tail hrecord notes.record
    | books _ notes => exact ih.tail hrecord notes.record
    | @deny _ _ _ mid _ matched effect kept notes =>
      have hmatched : Effect cfg .record mid { mid with commandMatches := matched } :=
        .record mid.envelopes mid.proposals mid.acknowledgements matched mid.events
          ⟨List.prefix_rfl, kept, List.prefix_rfl⟩
      exact ((ih.tail hw effect).tail hrecord hmatched).tail hrecord notes.record

theorem proposals (h : Entries cfg P a b) : b.proposals = a.proposals := by
  induction h with
  | refl => rfl
  | tail _ he ih =>
    obtain ⟨w, es, _, he⟩ := he
    rw [he.events.2.1, ih]

end Entries

/-- Entries, and whatever happened to the proposals. -/
def Booked (cfg : Config) (P : Write → Prop) (a b : Database) : Prop :=
  ∃ mid, Entries cfg P a mid ∧ b = { mid with proposals := b.proposals }

theorem Entries.booked (h : Entries cfg P a b) : Booked cfg P a b := ⟨b, h, rfl⟩

theorem Booked.mono (h : Booked cfg P a b) (hPQ : ∀ w, P w → Q w) : Booked cfg Q a b := by
  obtain ⟨mid, hentries, hb⟩ := h
  exact ⟨mid, hentries.mono hPQ, hb⟩

theorem Booked.writes (h : Booked cfg P a b) (hrecord : P .record) : Writes cfg P a b := by
  obtain ⟨mid, hentries, hb⟩ := h
  rw [hb]
  exact (hentries.writes hrecord).tail hrecord
    (.record mid.envelopes b.proposals mid.acknowledgements mid.commandMatches mid.events (.refl mid))

end TraceFence
