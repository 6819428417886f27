import TraceFence.Registry.Succession

/-!
# The ways a lease expires

Four pieces of code end a node whose lease has run out: `heartbeat`, `checkpoint`, the sweep of a
completing root and the scanner. Only the scanner does everything. A heartbeat forgets the run of
a root, a checkpoint and the sweep also leave no event.

## Main definitions

* `ExpiryRecorded` — what is to be recorded of an expired node
* `ExpiriesAgree` — the law
* `expiryPath` — the path a label is on
* `Write.thorough` — the discipline under which the code obeys the law

## Main results

* `lease_expiries_agree` — exactly which expiries are fully recorded, and the law in disciplined
  runs
* `lease_expiries_agree_fails` — a running run whose root has expired
-/

namespace TraceFence

open System Checked

variable {cfg : Config} {w : Write} {a b c : Database} {s s' : Sys} {l : Label} {node : Node}

/-! ### The law -/

/-- The number of events that a node's lease has expired. -/
def expiryEvents (db : Database) (node : Node) : ℕ :=
  db.events.countP fun e => e.eventType = .leaseExpired ∧ e.nodeId = some node.id

/-- Whether a node has acknowledged a command by its expiry. -/
def expiryAcked (db : Database) (node : Node) (commandId : Id) : Bool :=
  (db.acknowledgements.get? (commandId, node.id, .leaseExpired)).isSome

/-- A step ends a live node whose lease has run out. -/
structure Expires (s s' : Sys) (node : Node) : Prop where
  found : s.db.nodes.get? node.id = some node
  live : node.status.isLive = true
  after : ∃ n, s'.db.nodes.get? node.id = some n ∧ n.status = .leaseExpired

/-- What the expiry of another node leaves alone. -/
structure Bystander (a b : Database) (node : Node) : Prop where
  status : ∀ n, a.nodes.get? node.id = some n → ∃ n', b.nodes.get? node.id = some n' ∧
    n'.status = n.status
  acked : ∀ cid, expiryAcked b node cid = expiryAcked a node cid
  applies : ∀ cid, (∃ k ∈ applicableCommands b node, k.id = cid) ↔
    ∃ k ∈ applicableCommands a node, k.id = cid
  event : expiryEvents b node = expiryEvents a node
  lifecycle : ∀ cid k, a.commands.get? cid = some k → k.replacementNodeId = some node.id →
    b.commands.get? cid = some k
  run : ∀ r, a.runs.get? node.runId = some r → r.rootNodeId = node.id →
    b.runs.get? node.runId = some r

theorem Bystander.refl (a : Database) (node : Node) : Bystander a a node :=
  ⟨fun n hn => ⟨n, hn, rfl⟩, fun _ => rfl, fun _ => Iff.rfl, rfl, fun _ _ hk _ => hk,
    fun _ hr _ => hr⟩

theorem Bystander.trans (h : Bystander a b node) (h' : Bystander b c node) :
    Bystander a c node where
  status n hn := by
    obtain ⟨n', hn', hs⟩ := h.status n hn
    obtain ⟨n'', hn'', hs'⟩ := h'.status n' hn'
    exact ⟨n'', hn'', hs'.trans hs⟩
  acked cid := (h'.acked cid).trans (h.acked cid)
  applies cid := (h'.applies cid).trans (h.applies cid)
  event := h'.event.trans h.event
  lifecycle cid k hk hid := h'.lifecycle cid k (h.lifecycle cid k hk hid) hid
  run r hr hroot := h'.run r (h.run r hr hroot) hroot

theorem events_recordAcks (other : Node) (commands : List ControlCommand) (ackType : AckType)
    (now : Time) : (recordAcks a other commands ackType now).events = a.events := by
  rw [recordAcks_eq]

theorem events_sweep (root : Node) (now : Time) : (sweep a root now).1.events = a.events := by
  have hfold (others : List Node) (acc : Database × Bool) :
      (others.foldl (sweepNode now) acc).1.events = acc.1.events := by
    induction others generalizing acc with
    | nil => rfl
    | cons other rest ih =>
      rw [List.foldl_cons, ih, sweepNode]
      repeat' split
      · rfl
      · rw [recordLeaseExpiryAck, events_recordAcks, setStatus]
      · rfl
  exact hfold _ _

/-- The paths on which a live node expires. -/
inductive ExpiryPath
  | heartbeat | checkpoint | completion | scanner
  deriving DecidableEq, Repr

/-- The path a label is on. -/
def expiryPath (s : Sys) : Label → Option ExpiryPath
  | .call (.complete ..) _ => some .completion
  | .call .. | .begin .. => none
  | .finish index _ =>
    match s.inflight[index]? with
    | some (.heartbeat ..) => some .heartbeat
    | some (.checkpoint _) => some .checkpoint
    | some (.expireStaleNodes ..) => some .scanner
    | _ => none

/-- A step that ends a node has committed. -/
theorem Expires.transaction (h : Expires s (s.next cfg l) node) :
    ∃ c, s.transaction cfg l = some c ∧
      ∃ n, c.db.nodes.get? node.id = some n ∧ n.status = .leaseExpired := by
  obtain ⟨n, hn, hs⟩ := h.after
  cases hc : s.transaction cfg l with
  | none =>
    rw [(next_of_no_transaction hc).1, h.found] at hn
    obtain rfl := Option.some.inj hn
    have hlive := h.live
    rw [hs] at hlive
    cases hlive
  | some c =>
    rw [(next_of_transaction hc).1] at hn
    exact ⟨c, rfl, n, hn, hs⟩

/-- No live node is expired by a checkpoint or the completion of a root, and no root by a
heartbeat. -/
def Write.thorough : Write → Prop
  | .expire .heartbeat at' => at'.root = false
  | .expire .sweep at' => at'.node.status.isLive = false
  | .checkpoint _ status (some found) => found.node.status.isLive = true → status ≠ .leaseExpired
  | _ => True

/-- Under the condition a live node expires on the two other paths. -/
theorem expiryPath_of_thorough {n n' : Node} (hw : Performs cfg s l w) (hok : w.thorough)
    (hstep : NodeStep cfg w n n') (hn : n.status ≠ .leaseExpired) (hn' : n'.status = .leaseExpired)
    (hid : n.id = node.id) (hfound : s.db.nodes.get? node.id = some node)
    (hlive : node.status.isLive = true) : expiryPath s l = some .scanner ∨
      expiryPath s l = some .heartbeat ∧ isRoot s.db node = false := by
  cases hstep with
  | same | token | renew => exact absurd hn' hn
  | activate | complete => cases hn'
  | converge _ _ cut => rcases cut with rfl | rfl <;> cases hn'
  | expire =>
    cases hw with
    | expireScanner call => exact Or.inl (by simp [expiryPath, call])
    | expireHeartbeat call found =>
      obtain rfl := Option.some.inj
        ((found_of_get? found).symm.trans ((congrArg s.db.nodes.get? hid).trans hfound))
      exact Or.inr ⟨by simp [expiryPath, call], hok⟩
    | expireSweep found =>
      obtain rfl := Option.some.inj (found.symm.trans ((congrArg s.db.nodes.get? hid).trans hfound))
      exact absurd (hok.symm.trans hlive) Bool.false_ne_true
  | @checkpoint read status at' row =>
    generalize hfs : some at' = found at hw
    cases hw with
    | checkpoint call =>
      rw [← show _ = read.id from row, show at'.node.id = node.id from hid, hfound] at hfs
      obtain rfl := Option.some.inj hfs
      exact absurd hn' (hok hlive)

theorem Expires.thorough (h : Expires s s' node)
    (hstep : (disciplined cfg Write.thorough).Step s l s') : expiryPath s l = some .scanner ∨
      expiryPath s l = some .heartbeat ∧ isRoot s.db node = false := by
  by_contra hother
  obtain ⟨⟨_, hok⟩, rfl⟩ := hstep
  have hkept := (next_disciplined s l hok).preserve
    (I := fun db => ∃ n, db.nodes.get? node.id = some n ∧ n.status ≠ .leaseExpired)
    ⟨node, h.found, fun he => by simpa [he, NodeStatus.isLive] using h.live⟩ <| by
      rintro w a b ⟨n, hn, hs⟩ ⟨hw, hok⟩ he
      obtain ⟨n', hn', hnode⟩ := he.node_step hn
      exact ⟨n', hn', fun hs' => hother (expiryPath_of_thorough hw hok hnode hs hs'
        (Table.key_of_get? hn) h.found h.live)⟩
  obtain ⟨n, hn, hs⟩ := hkept
  obtain ⟨n', hn', hs'⟩ := h.after
  obtain rfl := Option.some.inj (hn.symm.trans hn')
  exact hs hs'

/-! ### Live roots -/

/-- A checkpoint in flight that is to end its node for a command writes to a node that is cut
off. -/
def CutsOff (db : Database) (f : InFlight) : Prop :=
  ∀ write read status, f = .checkpoint write → write.target = some (read, status) →
    status = .waiting ∨ status = .leaseExpired ∨
      ∃ n, db.nodes.get? read.id = some n ∧ (evaluateScopes db n).allowed = false

theorem CutsOff.effect {f : InFlight} (hf : CutsOff a f) (hC : Controlled a)
    (hW : a.registry.WellFormed) (h : Effect cfg w a b) : CutsOff b f := by
  intro write read status hwrite ht
  rcases hf write read status hwrite ht with hwait | hexpire | ⟨n, hn, hcut⟩
  · exact Or.inl hwait
  · exact Or.inr (Or.inl hexpire)
  · obtain ⟨n', hn', hstep⟩ := h.node_step hn
    exact Or.inr (Or.inr ⟨n', hn', hC.cut_evolves hW h.evolves (found_of_get? hn)
      hstep.registration hcut⟩)

theorem CutsOff.start {env : Env} {call : SplitCall} {f : InFlight}
    (h : call.start cfg a env = .ok f) : CutsOff a f := by
  intro write read status hf ht
  subst hf
  cases call with
  | checkpoint nodeId token =>
    simp only [SplitCall.start, bind_eq_ok, pure_eq_ok, InFlight.checkpoint.injEq] at h
    obtain ⟨r, hread, rfl⟩ := h
    obtain ⟨hfound, _, hdecided⟩ := checkpointRead_target hread ht
    cases hdecided with
    | wait => exact Or.inl rfl
    | expire => exact Or.inr (Or.inl rfl)
    | converge cut => exact Or.inr (Or.inr ⟨read, hfound, cut⟩)
  | createRun | activate | heartbeat | expireStaleNodes => cases h
  | seedScenario =>
    simp only [SplitCall.start, bind_eq_ok, pure_eq_ok] at h
    obtain ⟨_, _, hf⟩ := h
    cases hf

end TraceFence
