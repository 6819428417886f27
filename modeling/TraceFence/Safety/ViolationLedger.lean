import TraceFence.Safety.Authority
import TraceFence.Safety.Convergence
import TraceFence.Safety.Outbox

/-!
# Who counts as a violation

The gateway fences by scope version and under the write lock, so nothing a command reaches acts
after it. The auditor and the proof work out afterwards what came after what, from time stamps, and
an attempt that carries the same stamp as the command counts as later even when it was committed
first.

## Main definitions

* `CommittedAfter`, `Violates` — what a violation is, in commit order
* `LedgerExact` — the law
* `Discerned` — the discipline under which the code obeys it

## Main results

* `not_violates` — there are no violations
* `earlier` — in disciplined runs stamps follow commit order
* `ledger_exact` — the law, in disciplined runs
* `ledger_exact_fails` — a false alarm
-/

namespace TraceFence

open System

variable {cfg : Config} {P : Sys → Label → Prop} {s s' : Sys} {l : Label} {c : ControlCommand}
  {x : ActionAttempt} {db : Database}

/-! ### The law -/

/-- `x` has been committed after `c` on the way to `s`. -/
def CommittedAfter (T : System Sys Label) (s : Sys) (c : ControlCommand) (x : ActionAttempt) : Prop :=
  ∃ s₀ l s₁, T.Reachable s₀ ∧ (∃ c₀ ∈ s₀.db.commands, c₀.id = c.id) ∧ T.Step s₀ l s₁ ∧
    x ∉ s₀.db.attempts ∧ x ∈ s₁.db.attempts ∧ T.Run s₁ s

/-- **A violation**: a side effect that was let through after the command that should have stopped
it. -/
structure Violates (T : System Sys Label) (s : Sys) (c : ControlCommand) (x : ActionAttempt) :
    Prop where
  sideEffecting : x.sideEffecting = true
  allowed : x.decision = .allow
  reached : ∃ n ∈ s.db.nodes, n.id = x.nodeId ∧ c.reaches n
  after : CommittedAfter T s c x

/-- The auditor flags a pair. -/
def Flags (db : Database) (c : ControlCommand) (x : ActionAttempt) : Prop :=
  ∃ candidate ∈ discoverCandidates db none, candidate.commandId = c.id ∧ candidate.actionId = x.id

/-- **Exactness**: the auditor flags the violations and the proof counts the violations. Hence the
ledger stays empty and the count zero. -/
def LedgerExact (T : System Sys Label) : Prop :=
  ∀ s, (audited T).Reachable s →
    (∀ c ∈ s.sys.db.commands, ∀ x ∈ s.sys.db.attempts,
      (Flags s.sys.db c x ↔ Violates T s.sys c x) ∧
      (x ∈ staleCommittedActions s.sys.db c ↔ Violates T s.sys c x)) ∧
    s.ledger.violations.rows = [] ∧ s.ledger.outbox.rows = [] ∧
    ∀ c ∈ s.sys.db.commands, (staleCommittedActions s.sys.db c).length = 0

/-- A command is not stamped with a time that a side effect of a node it reaches carries already. -/
def Discerned (cfg : Config) (s : Sys) (l : Label) : Prop :=
  ∀ c ∈ (s.next cfg l).db.commands, c ∉ s.db.commands → ∀ x ∈ s.db.attempts,
    x.sideEffecting = true → x.decision = .allow →
    ∀ n ∈ s.db.nodes, n.id = x.nodeId → c.reaches n → x.attemptedAt < c.createdAt

/-! ### There are no violations -/

theorem not_violates (hc : c ∈ s.db.commands) :
    ¬ Violates ((services cfg).restrict P) s c x := by
  rintro ⟨_, hallow, ⟨n, hn, hnode, hreaches⟩, s₀, l, s₁, hs₀, ⟨c₀, hc₀, hid⟩, hstep, hold, hnew, hrun⟩
  have hreachable : (services cfg).Reachable s₀ := hs₀.of_restrict
  have hstep' := (restrict_step_iff.mp hstep).1
  have hrun' : (services cfg).Run s₁ s := hrun.of_restrict
  -- The command is the same all along, and the node was there when it was issued.
  obtain ⟨c', hc', hissued⟩ := (run_evolves (Run.trans (Run.tail .refl hstep') hrun')).command _ c₀
    (Table.get?_of_mem hc₀)
  obtain rfl : c' = c := by
    have hget : s.db.commands.get? c₀.id = some c := hid ▸ Table.get?_of_mem hc
    exact Option.some.inj (hc'.symm.trans hget)
  have hscope := issued_column (·.targetScopeId) (fun _ => rfl) hissued
  have hreaches₀ : c₀.reaches n := by
    rw [ControlCommand.reaches, ← hscope]
    exact hreaches
  have hgoverns₀ := (controlled hreachable).command c₀.id c₀ (Table.get?_of_mem hc₀)
  have hgoverns : Governs s₁.db c₀ := hgoverns₀.evolves (step_evolves hstep') rfl
  obtain ⟨n₁, hn₁, hreg⟩ := run_reached hgoverns hrun' (Table.get?_of_mem hn) hreaches₀
  have hfence := hgoverns₀.fence hstep' n₁ (Table.mem_of_get? hn₁)
    ((reaches_of_registration hreg).mp hreaches₀) x hnew (hnode.symm.trans ?_) hallow
  · exact hold hfence
  · exact congrArg Registration.id hreg

/-! ### Stamps -/

/-- Stamps follow commit order, as far as a command and the side effects below it go. -/
def Earlier (db : Database) : Prop :=
  ∀ c ∈ db.commands, ∀ x ∈ db.attempts, x.sideEffecting = true → x.decision = .allow →
    ∀ n ∈ db.nodes, n.id = x.nodeId → c.reaches n → x.attemptedAt < c.createdAt

theorem Effect.record_attempts {a b : Database} (h : Effect cfg .record a b) :
    b.attempts = a.attempts := by
  cases h
  rfl

theorem Effect.issue_attempts {a b : Database} (h : Effect cfg (.issue c) a b) :
    b.attempts = a.attempts := by
  cases h
  rfl

/-- The call that issues a command changes neither attempts nor registrations. -/
theorem issue_frame (h : (services cfg).Step s l s') (hc : c ∈ s'.db.commands)
    (hnew : s.db.commands.get? c.id = none) : s'.db.attempts = s.db.attempts ∧
      ∀ id n', s'.db.nodes.get? id = some n' →
        ∃ n, s.db.nodes.get? id = some n ∧ n'.registration = n.registration := by
  obtain ⟨_, _, _, _, _, rfl, _, _⟩ := step_issueCommand h (Table.get?_of_mem hc) hnew
  have hfresh : c ∉ s.db.commands := by
    intro hmem
    rw [show s.db.commands.get? c.id = some c from Table.get?_of_mem hmem] at hnew
    cases hnew
  obtain ⟨mid, hissue, hrecord⟩ := exists_issue h hc hfresh
  refine ⟨?_, fun id n' hn' => ?_⟩
  · exact hrecord.record_attempts.trans hissue.issue_attempts
  · rcases hrecord.node_cases hn' with ⟨_, hw | hw⟩ | ⟨m, hm, hstep⟩
    · cases hw
    · cases hw
    rcases hissue.node_cases hm with ⟨_, hw | hw⟩ | ⟨n, hn, hstep'⟩
    · cases hw
    · cases hw
    exact ⟨n, hn, hstep.registration.trans hstep'.registration⟩

/-- **Stamps follow commit order** in disciplined runs. -/
theorem earlier (h : ((monotone cfg).restrict (Discerned cfg)).Reachable s) : Earlier s.db := by
  refine h.invariant (I := fun s => Earlier s.db) ?_ fun s l s' hr hs hstep => ?_
  · intro c hc
    exact absurd hc Table.not_mem_empty
  obtain ⟨hmono, hdiscerned⟩ := restrict_step_iff.mp hstep
  have hservices := (restrict_step_iff.mp hmono).1
  have hreachable : (services cfg).Reachable s := hr.of_restrict.of_restrict
  intro c' hc' x hx hside hallow n' hn' hnode hreaches
  cases hold : s.db.commands.get? c'.id with
  | none =>
    obtain ⟨hattempts, hnodes⟩ := issue_frame hservices hc' hold
    obtain ⟨n, hn, hreg⟩ := hnodes _ n' (Table.get?_of_mem hn')
    have hid : n'.id = n.id := congrArg Registration.id hreg
    refine hdiscerned c' (by rw [← hservices.2] at hc'; exact hc') (fun hmem => ?_) x
      (hattempts ▸ hx) hside hallow n (Table.mem_of_get? hn) (hid ▸ hnode)
      ((reaches_of_registration hreg).mp hreaches)
    rw [show s.db.commands.get? c'.id = some c' from Table.get?_of_mem hmem] at hold
    cases hold
  | some c =>
    -- The gateway has let nothing through for the node since the command.
    have hkey : c.id = c'.id := Table.key_of_get? hold
    obtain ⟨c'', hc'', hissued⟩ := (step_evolves hservices).command _ c hold
    obtain rfl := Option.some.inj (hc''.symm.trans (Table.get?_of_mem hc'))
    have hscope := issued_column (·.targetScopeId) (fun _ => rfl) hissued
    have hreaches' : c.reaches n' := by
      rw [ControlCommand.reaches, ← hscope]
      exact hreaches
    have hgoverns := (controlled hreachable).command _ c hold
    obtain ⟨n, hn, hreg⟩ := run_reached hgoverns (Run.tail .refl hservices) (Table.get?_of_mem hn')
      hreaches'
    have hx' := hgoverns.fence hservices n' hn' hreaches' x hx hnode.symm hallow
    have hid : n'.id = n.id := congrArg Registration.id hreg
    rw [show c''.createdAt = c.createdAt from issued_column (·.createdAt) (fun _ => rfl) hissued]
    exact hs c (Table.mem_of_get? hold) x hx' hside hallow n (Table.mem_of_get? hn) (hid ▸ hnode)
      ((reaches_of_registration hreg).mp hreaches')

/-! ### Nothing is found -/

theorem auditedActions_eq_nil (hE : Earlier db) (hC : Controlled db) (hW : db.registry.WellFormed)
    (hc : c ∈ db.commands) : auditedActions db c = [] := by
  rw [auditedActions, List.filter_eq_nil_iff]
  intro x hx hall
  obtain ⟨_, hnode, hside, hallow, _, hsince⟩ := of_decide_eq_true hall
  obtain ⟨n, hn, hid⟩ := List.mem_map.mp hnode
  have hgoverns := hC.command c.id c (Table.get?_of_mem hc)
  obtain ⟨hget, _, _, hreaches⟩ := (mem_auditedNodes hgoverns hW).mp hn
  exact absurd (hE c hc x hx hside hallow n (Table.mem_of_get? hget) hid hreaches)
    (not_lt.mpr hsince)

theorem discoverCandidates_eq_nil (h : ∀ c ∈ db.commands, auditedActions db c = []) (runId : Option Id) :
    discoverCandidates db runId = [] := by
  rw [discoverCandidates]
  refine List.flatMap_eq_nil_iff.mpr fun c hc => ?_
  rw [List.mem_insertionSort, List.mem_filter] at hc
  rw [h c hc.1]
  rfl

theorem staleCommittedActions_eq_nil {past : Time → Prop} (hE : Earlier db) (hC : Controlled db)
    (hW : db.registry.WellFormed) (hT : Timed past db) (hc : c ∈ db.commands) :
    staleCommittedActions db c = [] := by
  refine staleCommittedActions_eq_nil_iff.mpr fun n hn x hx hnode hside hallow _ => ?_
  have hgoverns := hC.command c.id c (Table.get?_of_mem hc)
  obtain ⟨hget, _, _, hreaches⟩ := (mem_affectedNodes hgoverns hW hT).mp hn
  exact hE c hc x hx hside hallow n (Table.mem_of_get? hget) hnode.symm hreaches

/-- A ledger in which nothing is ever recorded. -/
theorem ledger_empty {T : System Sys Label} {s : Audit}
    (hnone : ∀ s, T.Reachable s → ∀ runId, discoverCandidates s.db runId = [])
    (h : (audited T).Reachable s) :
    (∀ scan ∈ s.scans, scan = []) ∧ s.ledger.announced = [] := by
  have hinit : (∀ scan ∈ (audited T).init.scans, scan = []) ∧
      (audited T).init.ledger.announced = [] := by
    refine ⟨fun scan hscan => ?_, rfl⟩
    cases hscan
  refine h.invariant (I := fun s => (∀ scan ∈ s.scans, scan = []) ∧ s.ledger.announced = []) hinit
    fun s l s' hr hs hstep => ?_
  have hcases := auditStep_of_step hstep
  have hannounced (hlabel : ∀ index env, l ≠ .record index env) : s'.ledger.announced = [] := by
    cases hrows : s'.ledger.outbox.rows with
    | nil => rw [Ledger.announced, hrows, List.map_nil]
    | cons row' rest =>
      have hmem : row' ∈ s'.ledger.outbox := show row' ∈ s'.ledger.outbox.rows by simp [hrows]
      rcases outbox_cases hcases (Table.get?_of_mem hmem) with
        ⟨row, hrow, _⟩ | ⟨_, index, env, _, hrecord, _⟩
      · have hempty : s.ledger.outbox.rows = [] := List.map_eq_nil_iff.mp hs.2
        have hold : row ∈ s.ledger.outbox.rows := Table.mem_of_get? hrow
        rw [hempty] at hold
        cases hold
      · exact absurd hrecord (hlabel index env)
  cases hcases with
  | idle | service => exact hs
  | discover runId =>
    refine ⟨fun scan hscan => ?_, hs.2⟩
    rcases List.mem_append.mp hscan with hold | hnew
    · exact hs.1 scan hold
    · rw [List.mem_singleton.mp hnew]
      exact hnone s.sys (audited_reachable hr) runId
  | record scan => cases hs.1 _ (List.mem_of_getElem? scan)
  | move | exportEvent | flush => exact hs
  | claim | acknowledge | recordFailure => exact ⟨hs.1, hannounced (by simp)⟩

/-- **The ledger is exact** as long as no command is stamped with the time of a side effect that a
node it reaches has committed before. -/
theorem ledger_exact (cfg : Config) : LedgerExact ((monotone cfg).restrict (Discerned cfg)) := by
  intro s hs
  have hnone (s : Sys) (hs : ((monotone cfg).restrict (Discerned cfg)).Reachable s) :
      ∀ c ∈ s.db.commands, auditedActions s.db c = [] := fun c hc =>
    auditedActions_eq_nil (earlier hs) (controlled hs.of_restrict.of_restrict)
      (registry_wellFormed hs.of_restrict.of_restrict) hc
  have hsys := audited_reachable hs
  have hstale : ∀ c ∈ s.sys.db.commands, staleCommittedActions s.sys.db c = [] := fun c hc =>
    staleCommittedActions_eq_nil (earlier hsys) (controlled hsys.of_restrict.of_restrict)
      (registry_wellFormed hsys.of_restrict.of_restrict) (timed hsys.of_restrict) hc
  obtain ⟨_, hempty⟩ := ledger_empty
    (fun s hs runId => discoverCandidates_eq_nil (hnone s hs) runId) hs
  have hlockstep := (ledger_sound hs).lockstep
  rw [hempty] at hlockstep
  refine ⟨fun c hc x hx => ?_, List.map_eq_nil_iff.mp hlockstep.symm, List.map_eq_nil_iff.mp hempty,
    fun c hc => by rw [hstale c hc, List.length_nil]⟩
  have hviolates : ¬ Violates ((monotone cfg).restrict (Discerned cfg)) s.sys c x := by
    rw [monotone, restrict_restrict]
    exact not_violates hc
  refine ⟨iff_of_false ?_ hviolates, iff_of_false ?_ hviolates⟩
  · rintro ⟨candidate, hcandidate, _⟩
    rw [discoverCandidates_eq_nil (hnone s.sys hsys)] at hcandidate
    cases hcandidate
  · rw [hstale c hc]
    exact List.not_mem_nil

/-! ### The failing run -/

/-- The services of an audited system, without the auditors. -/
theorem audited_of_reachable {T : System Sys Label} (h : T.Reachable s) :
    ∃ s' : Audit, (audited T).Reachable s' ∧ s'.sys = s := by
  induction h with
  | refl => exact ⟨_, Reachable.init, rfl⟩
  | tail _ hstep ih =>
    obtain ⟨l, henabled, rfl⟩ := hstep
    obtain ⟨s', hs', rfl⟩ := ih
    exact ⟨_, hs'.step (l := .service l) ⟨henabled, rfl⟩, rfl⟩

/-- A side effect that was committed before the command counts as stale. -/
theorem ledger_exact_fails : ¬ LedgerExact (monotone sampleConfig) := by
  intro h
  have hmonotone : (monotone sampleConfig).Reachable (sample sampleFalseAlarm) :=
    sample_monotone (by simp [sampleFalseAlarm, Label.env, sampleEnv]) (by decide +kernel)
  obtain ⟨s, hs, hsys⟩ := audited_of_reachable hmonotone
  have hstale : (sample sampleFalseAlarm).db.commands.rows.any (fun c =>
      decide ((staleCommittedActions (sample sampleFalseAlarm).db c).length = 1)) = true := by
    decide +kernel
  obtain ⟨c, hc, hone⟩ := List.any_eq_true.mp hstale
  have hzero := (h s hs).2.2.2 c (by rw [hsys]; exact hc)
  rw [hsys, of_decide_eq_true hone] at hzero
  cases hzero

end TraceFence
