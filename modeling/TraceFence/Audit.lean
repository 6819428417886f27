import TraceFence.Services.InvariantService
import TraceFence.System

/-!
# The services and their auditors

Any number of scans and deliveries run next to the services. A scan reads its candidates at once
and records them one by one; a delivery claims rows and takes one after the other through a look,
an export, a flush and an acknowledgement, each of which may raise until the last is committed.
Every one of these is a step, so anything can come in between, and a scan or a delivery that
crashes takes no further step. The clock of a delivery is its own: nothing is assumed about it.

## Main definitions

* `Stage`, `Pass` — where a delivery stands
* `Audit`, `AuditLabel`, `audited` — the services with their auditors

## Main results

* `auditStep_of_step` — what a step can do
* `audited_reachable` — the services below reach what they reach alone
-/

namespace TraceFence

/-! ### State -/

/-- What a delivery does next: look at its next row, or go on with the one it has looked at. -/
inductive Stage
  | next
  | looked (rowId : Id)
  | exported (rowId : Id)
  | flushed (rowId : Id)
  | failing (rowId : Id) (error : String)
  deriving DecidableEq, Repr

/-- A call of `deliver_pending`, with the rows it has claimed and not looked at yet. -/
structure Pass where
  owner : String
  pending : List Id
  stage : Stage
  deriving DecidableEq, Repr

/-- What a delivery has done outside the database. A call is known by its position. -/
inductive Delivery
  | exported (pass : ℕ) (rowId : Id)
  | flushed (pass : ℕ) (rowId : Id)
  deriving DecidableEq, Repr

/-- The last field only observes. -/
structure Audit where
  sys : Sys
  ledger : Ledger
  /-- What every scan has discovered and not recorded yet. -/
  scans : List (List ViolationCandidate)
  passes : List Pass
  log : List Delivery

/-! ### Labels -/

inductive AuditLabel
  | service (l : Label)
  | discover (runId : Option Id)
  | record (scan : ℕ) (env : Env)
  | claim (owner : String) (limit : ℕ) (now : Time)
  | look (pass : ℕ)
  | exportEvent (pass : ℕ)
  | flush (pass : ℕ)
  | acknowledge (pass : ℕ) (now : Time)
  | raise (pass : ℕ) (error : String)
  | recordFailure (pass : ℕ) (now : Time)

/-! ### Steps -/

/-- A delivery goes on to another stage. -/
def Audit.advance (s : Audit) (index : ℕ) (pass : Pass) (stage : Stage) : Audit :=
  { s with passes := s.passes.set index { pass with stage := stage } }

/-- The row a delivery is about to fail on when it raises. -/
def Stage.attempted : Stage → Option Id
  | .looked rowId | .exported rowId | .flushed rowId => some rowId
  | .next | .failing _ _ => none

/-- A delivery looks at its next row, and passes over it unless it still holds its claim. -/
def Audit.look (s : Audit) (index : ℕ) (pass : Pass) : Audit :=
  match pass.stage, pass.pending with
  | .next, rowId :: rest =>
    let stage := if (lookUp s.ledger pass.owner rowId).isSome then .looked rowId else .next
    { s with passes := s.passes.set index { pass with pending := rest, stage := stage } }
  | _, _ => s

def Audit.exportEvent (s : Audit) (index : ℕ) (pass : Pass) : Audit :=
  match pass.stage with
  | .looked rowId =>
    { s.advance index pass (.exported rowId) with log := s.log ++ [.exported index rowId] }
  | _ => s

/-- A flush that succeeds. One that does not raises. -/
def Audit.flush (s : Audit) (index : ℕ) (pass : Pass) : Audit :=
  match pass.stage with
  | .exported rowId =>
    { s.advance index pass (.flushed rowId) with log := s.log ++ [.flushed index rowId] }
  | _ => s

def Audit.acknowledge (s : Audit) (index : ℕ) (pass : Pass) (now : Time) : Audit :=
  match pass.stage with
  | .flushed rowId =>
    { s.advance index pass .next with
      ledger := TraceFence.acknowledge s.ledger pass.owner rowId now }
  | _ => s

def Audit.raise (s : Audit) (index : ℕ) (pass : Pass) (error : String) : Audit :=
  match pass.stage.attempted with
  | some rowId => s.advance index pass (.failing rowId error)
  | none => s

def Audit.recordFailure (s : Audit) (index : ℕ) (pass : Pass) (now : Time) : Audit :=
  match pass.stage with
  | .failing rowId error =>
    { s.advance index pass .next with
      ledger := TraceFence.recordFailure s.ledger pass.owner rowId error now }
  | _ => s

/-- A scan records the first of its candidates. -/
def Audit.record (s : Audit) (index : ℕ) (env : Env) : List ViolationCandidate → Audit
  | [] => s
  | candidate :: rest =>
    { s with
      ledger := recordCandidate s.ledger candidate env
      scans := s.scans.set index rest }

variable (T : System Sys Label)

/-- What a label does. -/
def Audit.next (s : Audit) : AuditLabel → Audit
  | .service l => { s with sys := T.next s.sys l }
  | .discover runId => { s with scans := s.scans ++ [discoverCandidates s.sys.db runId] }
  | .record index env => s.record index env ((s.scans[index]?).getD [])
  | .claim owner limit now =>
    let claimed := claimPending s.ledger owner limit now
    { s with ledger := claimed.1, passes := s.passes ++ [⟨owner, claimed.2, .next⟩] }
  | .look index => (s.passes[index]?).elim s (s.look index)
  | .exportEvent index => (s.passes[index]?).elim s (s.exportEvent index)
  | .flush index => (s.passes[index]?).elim s (s.flush index)
  | .acknowledge index now => (s.passes[index]?).elim s fun pass => s.acknowledge index pass now
  | .raise index error => (s.passes[index]?).elim s fun pass => s.raise index pass error
  | .recordFailure index now => (s.passes[index]?).elim s fun pass => s.recordFailure index pass now

/-- A system of services that takes its steps next to its auditors. -/
def audited : System Audit AuditLabel where
  init := ⟨T.init, .empty, [], [], []⟩
  next := Audit.next T
  enabled s
    | .service l => T.enabled s.sys l
    | _ => True

/-! ### What a step can do -/

/-- **The steps of the auditors.** -/
inductive AuditStep (T : System Sys Label) (s : Audit) : AuditLabel → Audit → Prop
  | idle {l : AuditLabel} (quiet : ∀ l', l ≠ .service l') : AuditStep T s l s
  | service {l : Label} {sys : Sys} (step : T.Step s.sys l sys) :
      AuditStep T s (.service l) { s with sys := sys }
  | discover (runId : Option Id) : AuditStep T s (.discover runId)
      { s with scans := s.scans ++ [discoverCandidates s.sys.db runId] }
  | record {index : ℕ} {env : Env} {candidate : ViolationCandidate}
      {rest : List ViolationCandidate} (scan : s.scans[index]? = some (candidate :: rest)) :
      AuditStep T s (.record index env)
        { s with
          ledger := recordCandidate s.ledger candidate env
          scans := s.scans.set index rest }
  | claim (owner : String) (limit : ℕ) (now : Time) : AuditStep T s (.claim owner limit now)
      { s with
        ledger := (claimPending s.ledger owner limit now).1
        passes := s.passes ++ [⟨owner, (claimPending s.ledger owner limit now).2, .next⟩] }
  /-- A look, or an exception. -/
  | move {l : AuditLabel} {index : ℕ} {pass : Pass} {stage : Stage} {pending : List Id}
      (call : s.passes[index]? = some pass)
      (quiet : ∀ rowId, stage ≠ .exported rowId ∧ stage ≠ .flushed rowId) :
      AuditStep T s l
        { s with passes := s.passes.set index { pass with pending := pending, stage := stage } }
  | exportEvent {index : ℕ} {pass : Pass} {rowId : Id} (call : s.passes[index]? = some pass)
      (stage : pass.stage = .looked rowId) :
      AuditStep T s (.exportEvent index)
        { s.advance index pass (.exported rowId) with log := s.log ++ [.exported index rowId] }
  | flush {index : ℕ} {pass : Pass} {rowId : Id} (call : s.passes[index]? = some pass)
      (stage : pass.stage = .exported rowId) :
      AuditStep T s (.flush index)
        { s.advance index pass (.flushed rowId) with log := s.log ++ [.flushed index rowId] }
  | acknowledge {index : ℕ} {pass : Pass} {rowId : Id} {now : Time}
      (call : s.passes[index]? = some pass) (stage : pass.stage = .flushed rowId) :
      AuditStep T s (.acknowledge index now)
        { s.advance index pass .next with
          ledger := TraceFence.acknowledge s.ledger pass.owner rowId now }
  | recordFailure {index : ℕ} {pass : Pass} {rowId : Id} {error : String} {now : Time}
      (call : s.passes[index]? = some pass) (stage : pass.stage = .failing rowId error) :
      AuditStep T s (.recordFailure index now)
        { s.advance index pass .next with
          ledger := TraceFence.recordFailure s.ledger pass.owner rowId error now }

variable {T} {s s' : Audit} {l : AuditLabel}

theorem auditStep_look {index : ℕ} {pass : Pass} (call : s.passes[index]? = some pass) :
    AuditStep T s (.look index) (s.look index pass) := by
  rw [Audit.look]
  split
  · refine .move call fun rowId => ?_
    split <;> simp
  · exact .idle (by simp)

theorem auditStep_raise {index : ℕ} {pass : Pass} {error : String}
    (call : s.passes[index]? = some pass) :
    AuditStep T s (.raise index error) (s.raise index pass error) := by
  rw [Audit.raise]
  split
  · exact .move call (by simp)
  · exact .idle (by simp)

/-- **What a step can do.** -/
theorem auditStep_of_step (h : (audited T).Step s l s') : AuditStep T s l s' := by
  obtain ⟨henabled, rfl⟩ := h
  have hcall {index : ℕ} {f : Pass → Audit} (hquiet : ∀ l', l ≠ .service l')
      (hpass : ∀ pass, s.passes[index]? = some pass → AuditStep T s l (f pass)) :
      AuditStep T s l ((s.passes[index]?).elim s f) := by
    cases hp : s.passes[index]? with
    | none => exact .idle hquiet
    | some pass => exact hpass pass hp
  cases l with
  | service l => exact .service ⟨henabled, rfl⟩
  | discover runId => exact .discover runId
  | claim owner limit now => exact .claim owner limit now
  | record index env =>
    change AuditStep T s _ (s.record index env ((s.scans[index]?).getD []))
    cases hscan : s.scans[index]? with
    | none => exact .idle (by simp)
    | some candidates =>
      cases candidates with
      | nil => exact .idle (by simp)
      | cons candidate rest => exact .record hscan
  | look index => exact hcall (by simp) fun pass hp => auditStep_look hp
  | raise index error => exact hcall (by simp) fun pass hp => auditStep_raise hp
  | exportEvent index =>
    refine hcall (by simp) fun pass hp => ?_
    rw [Audit.exportEvent]
    split
    · next hstage => exact .exportEvent hp hstage
    · exact .idle (by simp)
  | flush index =>
    refine hcall (by simp) fun pass hp => ?_
    rw [Audit.flush]
    split
    · next hstage => exact .flush hp hstage
    · exact .idle (by simp)
  | acknowledge index now =>
    refine hcall (by simp) fun pass hp => ?_
    rw [Audit.acknowledge]
    split
    · next hstage => exact .acknowledge hp hstage
    · exact .idle (by simp)
  | recordFailure index now =>
    refine hcall (by simp) fun pass hp => ?_
    rw [Audit.recordFailure]
    split
    · next hstage => exact .recordFailure hp hstage
    · exact .idle (by simp)

/-- **The services below** an audited system reach what they reach alone. -/
theorem audited_reachable (h : (audited T).Reachable s) : T.Reachable s.sys := by
  refine h.invariant (I := fun s => T.Reachable s.sys) System.Reachable.init
    fun s l s' _ hs hstep => ?_
  cases auditStep_of_step hstep with
  | service step => exact hs.step step
  | idle | discover | record | claim | move | exportEvent | flush | acknowledge | recordFailure =>
    exact hs

end TraceFence
