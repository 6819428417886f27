import TraceFence.Registry.Tally
import TraceFence.Safety.ExactlyOnce

/-!
# Seeding is one-shot if nothing comes in between

`seed_scenario` counts the service rows, nodes, commands and attempts of a run and inserts the
fixture later, under a write lock it takes only then. A service row that has appeared in between
collides with one of those it inserts. A node, a command or an attempt collides with nothing, so a
run may have begun by the time it is initialised.

## Main definitions

* `Pristine` — what a seed checks for: nothing has happened in the run yet
* `Adds` — a node, a command or an attempt of a run is new
* `SeedsAlone` — a step adds nothing to a run that is being seeded

## Main results

* `named_of_reachable` — the fixture names every service there is
* `unbegun_iff`, `unbegun_of_seedsAlone` — a run that is being seeded, step after step
* `seeding_one_shot` — a seed that commits finds its run pristine if nothing comes in between
* `seeding_one_shot_fails` — a seed commits after a spawn and a command
-/

namespace TraceFence

open System Checked

variable {cfg : Config} {a b db : Database} {s s' : Sys} {l : Label}

/-! ### Service names -/

/-- Every service row is of a service of the fixture. -/
def Named (t : ServiceTable) : Prop := ∀ row ∈ t, row.serviceName ∈ seedDefaults.map Prod.fst

section Named

variable {t t' : ServiceTable} {runId actionId : Id} {service status : String} {now : Time}

theorem Named.withState (h : Named t) (hservice : service ∈ seedDefaults.map Prod.fst) :
    Named (withState t runId service status now) := by
  intro row hrow
  rcases Table.mem_insertNew_iff.mp hrow with hrow | ⟨rfl, -⟩
  · exact h row hrow
  · exact hservice

theorem Named.modify (h : Named t) {k : Id × String} {f : ServiceState → ServiceState}
    (hf : ∀ r, Keyed.key (f r) = Keyed.key r) : Named (t.modify k f hf) := by
  intro row hrow
  obtain ⟨r, hr, rfl⟩ := Table.mem_modify_iff.mp hrow
  split
  · rw [show (f r).serviceName = r.serviceName from congrArg Prod.snd (hf r)]
    exact h r hr
  · exact h r hr

theorem Named.executor (h : Named t) {spec : ToolSpec} (hspec : spec ∈ toolRegistry)
    (clock : ℕ → Time) : Named (spec.executor t runId actionId clock).1 := by
  simp only [toolRegistry, List.mem_cons, List.not_mem_nil, or_false] at hspec
  obtain rfl | rfl | rfl := hspec
  · exact h
  · exact (h.withState (by decide)).modify (by intro; rfl)
  · exact (((h.withState (by decide)).modify (key_pooled actionId clock)).withState
      (by decide)).modify (by intro; rfl)

theorem Named.buildRecoveryContract (h : Named t) {spec : ToolSpec} (hspec : spec ∈ toolRegistry)
    (arguments : Dict) (window : ℕ) (clock : ℕ → Time) :
    Named (spec.buildRecoveryContract cfg t runId arguments window clock).1 := by
  simp only [toolRegistry, List.mem_cons, List.not_mem_nil, or_false] at hspec
  obtain rfl | rfl | rfl := hspec
  · exact h
  · exact h.withState (by decide)
  · exact ((h.withState (by decide)).withState (by decide)).withState (by decide)

end Named

/-- Whether a write may touch a service row. -/
def Write.serves : Write → Bool
  | .states | .issue _ | .allow _ _ _ => true
  | _ => false

theorem Effect.serviceStates_eq {w : Write} (h : Effect cfg w a b) (hw : w.serves = false) :
    b.serviceStates = a.serviceStates := by
  cases h with
  | states | issue | allow => cases hw
  | record | rotateIntent | rotateToken | renew | converge | expireHeartbeat | expireSweep
  | checkpoint | registerRun | registerNode | registerReplacement | deny => rfl
  | @activate _ _ _ _ commandId | @complete _ _ _ _ _ commandId => cases commandId <;> rfl
  | expireScanner _ _ failed =>
    exact (failRun_frame failed).1.serviceStates.trans (expireActivation_frame _).1.serviceStates

theorem named_of_entries (h : Entries cfg (fun w => w.serves = false) a b)
    (ha : Named a.serviceStates) : Named b.serviceStates :=
  (h.writes rfl).preserve (I := fun b => Named b.serviceStates) ha fun _ _ _ hb hw he =>
    he.serviceStates_eq hw ▸ hb

theorem named_planCommand {run : Run} {target : Node} {request : CommandCreate} {env : Env}
    {plan : CommandPlan} (h : planCommand cfg db run target request env = .ok plan)
    (hdb : Named db.serviceStates) : Named plan.serviceStates := by
  rw [planCommand] at h
  split at h
  · cases h
    exact hdb
  · cases h
    exact hdb
  simp only [bind_eq_ok, pure_eq_ok] at h
  obtain ⟨built, hbuilt, _, _, rfl⟩ := h
  simp only [buildReplacementManifest, bind_eq_ok, ensure_eq_ok, require_eq_ok,
    pure_eq_ok] at hbuilt
  obtain ⟨spec, hspec, _, _, _, _, _, _, contract, hcontract, _, _, _, _, m, _, rfl⟩ := hbuilt
  cases spec with
  | none =>
    simp only [buildContract, bind_eq_ok, pure_eq_ok] at hcontract
    obtain ⟨_, _, rfl⟩ := hcontract
    exact hdb
  | some spec =>
    simp only [buildContract, bind_eq_ok, pure_eq_ok] at hcontract
    obtain ⟨_, _, rfl⟩ := hcontract
    exact hdb.buildRecoveryContract (expectedSpec_mem hspec spec rfl) _ _ _

theorem named_execute {nodeId : Id} {token : Token} {request : ActionExecute} {env : Env}
    {c : Commit ActionResult} (h : execute cfg db nodeId token request env = .ok c)
    (hdb : Named db.serviceStates) : Named c.db.serviceStates := by
  simp only [execute, bind_eq_ok] at h
  obtain ⟨node, _, h⟩ := h
  split at h
  · simp only [bind_eq_ok, ensure_eq_ok, pure_eq_ok] at h
    obtain ⟨_, _, rfl⟩ := h
    exact hdb
  simp only [bind_eq_ok, pure_eq_ok] at h
  obtain ⟨done, hdone, rfl⟩ := h
  simp only [executeNew, bind_eq_ok, ensure_eq_ok] at hdone
  obtain ⟨_, _, spec, hspec, _, _, run, _, denial, _, hdone⟩ := hdone
  cases denial with
  | some reason =>
    simp only [denyAction, bind_eq_ok, pure_eq_ok] at hdone
    obtain ⟨attempts, _, matched, _, rfl⟩ := hdone
    rw [recordGatewayAcks_eq]
    dsimp only
    split_ifs <;> exact hdb
  | none =>
    simp only [allowAction, ToolSpec.execute, bind_eq_ok, pure_eq_ok] at hdone
    obtain ⟨_, ⟨_, _, rfl⟩, _, _, rfl⟩ := hdone
    exact hdb.executor (getToolSpec_eq_ok.mp hspec).1 _

theorem named_seedWrite {runId : Id} {now : Time} {c : Commit Unit}
    (h : seedWrite db runId now = .ok c) (hdb : Named db.serviceStates) :
    Named c.db.serviceStates := by
  simp only [seedWrite, seedDefaults, List.foldlM_cons, List.foldlM_nil, bind_eq_ok, require_eq_ok,
    pure_eq_ok] at h
  obtain ⟨_, ⟨_, h₁, _, h₂, _, h₃, rfl⟩, rfl⟩ := h
  rw [insertFresh h₃, insertFresh h₂, insertFresh h₁]
  exact ((hdb.withState (by decide)).withState (by decide)).withState (by decide)

theorem named_call {call : Call} {env : Env} {c : Commit Unit} (h : call.run cfg db env = .ok c)
    (hdb : Named db.serviceStates) : Named c.db.serviceStates := by
  cases call with
  | createSpawn =>
    simp only [Call.run, map_eq_ok] at h
    obtain ⟨c', h, rfl⟩ := h
    exact named_of_entries (createSpawn_entries h rfl fun _ _ _ _ _ => rfl) hdb
  | createReplacement =>
    simp only [Call.run, map_eq_ok] at h
    obtain ⟨c', h, rfl⟩ := h
    exact named_of_entries (createReplacement_entries h rfl fun _ _ _ _ _ => rfl) hdb
  | complete => exact named_of_entries (complete_entries h (fun _ _ _ => rfl) fun _ _ => rfl) hdb
  | issueCommand =>
    simp only [Call.run, map_eq_ok] at h
    obtain ⟨c', h, rfl⟩ := h
    rcases issueCommand_eq_ok h with ⟨hsame, -⟩ | ⟨_, _, _, _, _, _, hc⟩
    · rw [Commit.db_drop, hsame]
      exact hdb
    · rw [hc.commit]
      exact named_planCommand hc.planned hdb
  | execute =>
    simp only [Call.run, map_eq_ok] at h
    obtain ⟨c', h, rfl⟩ := h
    exact named_execute h hdb
  | createProposal =>
    simp only [Call.run, map_eq_ok, createProposal, bind_eq_ok, ensure_eq_ok, require_eq_ok,
      pure_eq_ok] at h
    obtain ⟨_, ⟨_, _, _, _, _, _, _, _, _, _, _, _, _, _, _, _, rfl⟩, rfl⟩ := h
    exact hdb
  | reviewProposal =>
    simp only [Call.run, reviewProposal, bind_eq_ok, pure_eq_ok] at h
    obtain ⟨_, _, _, _, _, _, rfl⟩ := h
    exact hdb

theorem named_commit {f : InFlight} {env : Env} {c : Commit Unit}
    (h : f.commit cfg db env = .ok c) (hdb : Named db.serviceStates) :
    Named c.db.serviceStates := by
  cases f with
  | createRun =>
    simp only [InFlight.commit, map_eq_ok] at h
    obtain ⟨c', h, rfl⟩ := h
    exact named_of_entries (createRun_entries h rfl) hdb
  | activate =>
    simp only [InFlight.commit, map_eq_ok] at h
    obtain ⟨c', h, rfl⟩ := h
    exact named_of_entries (activate_entries h rfl fun _ _ _ _ => rfl) hdb
  | heartbeat =>
    simp only [InFlight.commit, map_eq_ok] at h
    obtain ⟨c', h, rfl⟩ := h
    exact named_of_entries (heartbeat_entries h (fun _ _ _ => rfl) (fun _ _ _ _ _ => rfl)
      fun _ _ _ _ _ => rfl) hdb
  | checkpoint =>
    exact @named_of_entries cfg _ _ (checkpointWrite_entries h rfl fun _ _ _ _ => rfl) hdb
  | expireStaleNodes =>
    simp only [InFlight.commit, map_eq_ok] at h
    obtain ⟨c', h, rfl⟩ := h
    exact @named_of_entries cfg _ _ (expireStaleNodes_entries h fun _ _ _ _ _ _ => rfl) hdb
  | seedScenario => exact named_seedWrite h hdb

/-- **The fixture names every service there is.** -/
theorem named_of_reachable (h : (services cfg).Reachable s) : Named s.db.serviceStates := by
  refine h.invariant (I := fun s => Named s.db.serviceStates)
    (fun _ hrow => absurd hrow List.not_mem_nil) ?_
  intro s l s' _ hs hstep
  exact step_commits (R := fun a b => Named a.serviceStates → Named b.serviceStates) hstep id
    (fun _ _ _ _ hc => named_call hc) (fun _ _ _ _ _ _ hc => named_commit hc) hs

/-! ### What a seed checks for -/

/-- Nothing has begun in a run: it has its root, and no command and no attempt. -/
structure Unbegun (db : Database) (runId : Id) : Prop where
  run : ∃ run, db.runs.get? runId = some run ∧
    ∀ n ∈ db.nodes, n.runId = runId → n.id = run.rootNodeId
  commands : ∀ c ∈ db.commands, c.runId ≠ runId
  attempts : ∀ x ∈ db.attempts, x.runId ≠ runId

/-- Nothing has happened in a run: it has no service rows either. -/
structure Pristine (db : Database) (runId : Id) : Prop extends Unbegun db runId where
  states : ∀ row ∈ db.serviceStates, row.runId ≠ runId

theorem countP_eq_zero {α : Type} {rows : List α} {p : α → Prop} [DecidablePred p] :
    (rows.countP fun row => p row) = 0 ↔ ∀ row ∈ rows, ¬ p row := by
  simp only [List.countP_eq_zero, decide_eq_true_eq]

/-- **The read half of a seed.** -/
theorem seedRead_eq_ok {runId : Id} {u : Unit} : seedRead db runId = .ok u ↔ Pristine db runId := by
  simp only [seedRead, bind_eq_ok, ensure_eq_ok, getRun_eq_ok, countP_eq_zero]
  constructor
  · rintro ⟨run, hrun, _, hstates, hnodes, hcommands, hattempts⟩
    refine ⟨⟨⟨run, hrun, fun n hn hid => ?_⟩, hcommands, hattempts⟩, hstates⟩
    by_contra hne
    exact hnodes n hn ⟨hid, hne⟩
  · rintro ⟨⟨⟨run, hrun, hnodes⟩, hcommands, hattempts⟩, hstates⟩
    exact ⟨run, hrun, (), hstates, fun n hn hnot => hnot.2 (hnodes n hn hnot.1), hcommands,
      hattempts⟩

/-- **The write half of a seed** collides with every service row of the run. -/
theorem states_of_seedWrite {runId : Id} {now : Time} {c : Commit Unit}
    (hnamed : Named db.serviceStates) (h : seedWrite db runId now = .ok c) :
    ∀ row ∈ db.serviceStates, row.runId ≠ runId := by
  simp only [seedWrite, seedDefaults, List.foldlM_cons, List.foldlM_nil, bind_eq_ok, require_eq_ok,
    pure_eq_ok] at h
  obtain ⟨_, ⟨t₁, h₁, t₂, h₂, t₃, h₃, rfl⟩, rfl⟩ := h
  have hfree {t t' : ServiceTable} {service status : String} {row : ServiceState}
      (hinsert : t.insert? (freshState runId service status now) = some t') (hrow : row ∈ t) :
      ¬(row.runId = runId ∧ row.serviceName = service) := by
    rintro ⟨rfl, rfl⟩
    have hnone := (Table.insert?_eq_some_iff.mp hinsert).1
    have hsome : t.get? (row.runId, row.serviceName) = some row := Table.get?_of_mem hrow
    rw [show Keyed.key (freshState row.runId row.serviceName status now) =
      (row.runId, row.serviceName) from rfl, hsome] at hnone
    cases hnone
  intro row hrow hid
  have hrow₁ : row ∈ t₁ := (Table.mem_of_insert? h₁).mpr (Or.inl hrow)
  have hrow₂ : row ∈ t₂ := (Table.mem_of_insert? h₂).mpr (Or.inl hrow₁)
  have hname := hnamed row hrow
  simp only [seedDefaults, List.map_cons, List.map_nil, List.mem_cons, List.not_mem_nil,
    or_false] at hname
  obtain hname | hname | hname := hname
  · exact hfree h₁ hrow ⟨hid, hname⟩
  · exact hfree h₂ hrow₁ ⟨hid, hname⟩
  · exact hfree h₃ hrow₂ ⟨hid, hname⟩

/-! ### What comes in between -/

/-- A node, a command or an attempt of a run is new. -/
def Adds (a b : Database) (runId : Id) : Prop :=
  (∃ n ∈ b.nodes, n.runId = runId ∧ a.nodes.get? n.id = none) ∨
    (∃ c ∈ b.commands, c.runId = runId ∧ a.commands.get? c.id = none) ∨
      ∃ x ∈ b.attempts, x.runId = runId ∧ a.attempts.get? x.id = none

/-- A run that has not begun stays so exactly as long as nothing is added to it. -/
theorem unbegun_iff (hW : a.registry.WellFormed) (hab : Evolves a b) {runId : Id}
    (ha : Unbegun a runId) : Unbegun b runId ↔ ¬ Adds a b runId := by
  have hle := hab.registry
  obtain ⟨⟨run, hrun, hnodes⟩, hcommands, hattempts⟩ := ha
  have hfacts := registry_run_of_get? hrun
  obtain ⟨run', hrun', heq⟩ := Option.map_eq_some_iff.mp (hle.run _ _ hfacts)
  have hroot : run'.rootNodeId = run.rootNodeId := congrArg RunFacts.rootNodeId heq
  constructor
  · rintro ⟨⟨_, hrun'', hnodes'⟩, hcommands', hattempts'⟩ hadds
    obtain rfl := Option.some.inj (hrun'.symm.trans hrun'')
    rcases hadds with ⟨n, hn, hid, hnone⟩ | ⟨c, hc, hid, -⟩ | ⟨x, hx, hid, -⟩
    · obtain ⟨r, hr, -, -⟩ := hW.root _ _ hfacts
      rw [hnodes' n hn hid, hroot] at hnone
      simp [Database.registry, hnone] at hr
    · exact hcommands' c hc hid
    · exact hattempts' x hx hid
  · intro hnot
    refine ⟨⟨run', hrun', fun n hn hid => ?_⟩, fun c hc hid => ?_, fun x hx hid => ?_⟩
    · have hsome : a.nodes.get? n.id ≠ none := fun hnone => hnot (Or.inl ⟨n, hn, hid, hnone⟩)
      obtain ⟨n₀, hn₀⟩ := Option.ne_none_iff_exists'.mp hsome
      have hget : b.nodes.get? n.id = some n := Table.get?_of_mem hn
      have hsame : n.registration = n₀.registration := Option.some.inj
        ((registry_node_of_get? hget).symm.trans (hle.node _ _ (registry_node_of_get? hn₀)))
      have hid₀ : n₀.runId = runId := (congrArg Registration.runId hsame).symm.trans hid
      have hkey : n₀.id = n.id := Table.key_of_get? hn₀
      rw [← hkey, hnodes n₀ (Table.mem_of_get? hn₀) hid₀, hroot]
    · have hsome : a.commands.get? c.id ≠ none := fun hnone =>
        hnot (Or.inr (Or.inl ⟨c, hc, hid, hnone⟩))
      obtain ⟨c₀, hc₀⟩ := Option.ne_none_iff_exists'.mp hsome
      obtain ⟨c', hc', hissued⟩ := hab.command _ _ hc₀
      obtain rfl := Option.some.inj ((Table.get?_of_mem hc).symm.trans hc')
      have hrunId : c.runId = c₀.runId := issued_column (·.runId) (fun _ => rfl) hissued
      exact hcommands c₀ (Table.mem_of_get? hc₀) (hrunId.symm.trans hid)
    · have hsome : a.attempts.get? x.id ≠ none := fun hnone =>
        hnot (Or.inr (Or.inr ⟨x, hx, hid, hnone⟩))
      obtain ⟨x₀, hx₀⟩ := Option.ne_none_iff_exists'.mp hsome
      have hmem : x₀ ∈ b.attempts := hab.attempt.subset (Table.mem_of_get? hx₀)
      obtain rfl := Table.eq_of_key_eq hmem hx (Table.key_of_get? hx₀)
      exact hattempts x₀ (Table.mem_of_get? hx₀) hid

/-- No step adds anything to a run that is being seeded. -/
def SeedsAlone (cfg : Config) (s : Sys) (l : Label) : Prop :=
  ∀ runId now, .seedScenario runId now ∈ s.inflight → ¬ Adds s.db (s.next cfg l).db runId

/-- A seed in flight has found its run pristine. -/
theorem start_seedScenario {runId : Id} {env : Env} {f : InFlight}
    (h : (SplitCall.seedScenario runId).start cfg db env = .ok f) :
    Pristine db runId ∧ f = .seedScenario runId (env.clock 0) := by
  simp only [SplitCall.start, bind_eq_ok, pure_eq_ok] at h
  obtain ⟨u, hread, rfl⟩ := h
  exact ⟨seedRead_eq_ok.mp hread, rfl⟩

/-- Only a call of `seed_scenario` puts a seed in flight. -/
theorem start_eq_seedScenario {call : SplitCall} {runId : Id} {now : Time} {env : Env}
    (h : call.start cfg db env = .ok (.seedScenario runId now)) : Pristine db runId := by
  cases call with
  | seedScenario runId' =>
    obtain ⟨hpristine, hf⟩ := start_seedScenario h
    cases hf
    exact hpristine
  | checkpoint nodeId token =>
    simp only [SplitCall.start, bind_eq_ok, pure_eq_ok] at h
    obtain ⟨_, _, h⟩ := h
    cases h
  | _ => cases h

/-- **Nothing has begun in a run that is seeded alone.** -/
theorem unbegun_of_seedsAlone (h : ((services cfg).restrict (SeedsAlone cfg)).Reachable s) :
    ∀ runId now, .seedScenario runId now ∈ s.inflight → Unbegun s.db runId := by
  refine h.invariant (I := fun s => ∀ runId now, .seedScenario runId now ∈ s.inflight →
    Unbegun s.db runId) (fun _ _ hmem => absurd hmem List.not_mem_nil) fun s l s' hr hs hstep => ?_
  obtain ⟨hstep, hquiet⟩ := restrict_step_iff.mp hstep
  obtain ⟨-, rfl⟩ := hstep
  intro runId now hmem
  rcases mem_inflight_next hmem with hmem | ⟨call, env, rfl, hstart⟩
  · exact (unbegun_iff (registry_wellFormed hr.of_restrict) (step_evolves ⟨trivial, rfl⟩)
      (hs runId now hmem)).mpr (hquiet runId now hmem)
  · have hsame : ((services cfg).next s (.begin call env)).db = s.db := db_next_begin
    rw [hsame]
    exact (start_eq_seedScenario hstart).toUnbegun

/-- A seed that commits finds its run pristine exactly when nothing was added to it. -/
theorem pristine_iff {s₀ s₁ : Sys} {runId : Id} {env : Env} {f : InFlight} {now : Time}
    {c : Commit Unit} (hs₀ : (services cfg).Reachable s₀)
    (hstart : (SplitCall.seedScenario runId).start cfg s₀.db env = .ok f)
    (hstep : (services cfg).Step s₀ (.begin (.seedScenario runId) env) s₁)
    (hrun : (services cfg).Run s₁ s) (hc : seedWrite s.db runId now = .ok c) :
    Pristine s.db runId ↔ ¬ Adds s₀.db s.db runId := by
  have hall : (services cfg).Run s₀ s := (System.Run.refl.tail hstep).trans hrun
  have hbegun := unbegun_iff (registry_wellFormed hs₀) (run_evolves hall)
    (start_seedScenario hstart).1.toUnbegun
  rw [← hbegun]
  exact ⟨fun h => h.toUnbegun, fun h =>
    ⟨h, states_of_seedWrite (named_of_reachable (hs₀.run hall)) hc⟩⟩

/-- A seed that does not commit changes no row. -/
theorem seed_frame {index : ℕ} {runId : Id} {now : Time} {env : Env}
    (hf : s.inflight[index]? = some (.seedScenario runId now))
    (h : ∀ c, seedWrite s.db runId now ≠ .ok c) : (s.next cfg (.finish index env)).db = s.db := by
  refine (next_of_no_transaction ?_).1
  cases hc : seedWrite s.db runId now with
  | ok c => exact absurd hc (h c)
  | error e => simp [Sys.transaction, hf, InFlight.commit, hc, Except.toOption]

/-- **A seed finds its run pristine if nothing comes in between.** In every run in which nothing is
added to a run that is being seeded, a seed that commits finds no service row, no node but the root,
no command and no attempt. In any run it does so exactly if nothing was added between its check and
its write. A seed that raises changes no row. -/
theorem seeding_one_shot (cfg : Config) :
    (∀ (s : Sys) (index : ℕ) runId now c, ((services cfg).restrict (SeedsAlone cfg)).Reachable s →
      s.inflight[index]? = some (.seedScenario runId now) → seedWrite s.db runId now = .ok c →
        Pristine s.db runId) ∧
    (∀ (s₀ s₁ s : Sys) runId env now c, (services cfg).Reachable s₀ →
      (SplitCall.seedScenario runId).start cfg s₀.db env = .ok (.seedScenario runId now) →
        (services cfg).Step s₀ (.begin (.seedScenario runId) env) s₁ → (services cfg).Run s₁ s →
          seedWrite s.db runId now = .ok c → (Pristine s.db runId ↔ ¬ Adds s₀.db s.db runId)) ∧
    (∀ (s : Sys) runId env, (s.next cfg (.begin (.seedScenario runId) env)).db = s.db) ∧
    ∀ (s : Sys) (index : ℕ) runId now env, s.inflight[index]? = some (.seedScenario runId now) →
      (∀ c, seedWrite s.db runId now ≠ .ok c) → (s.next cfg (.finish index env)).db = s.db := by
  refine ⟨?_, ?_, fun s runId env => db_next_begin, fun s index runId now env => seed_frame⟩
  · intro s index runId now c hs hf hc
    exact ⟨unbegun_of_seedsAlone hs runId now (List.mem_of_getElem? hf),
      states_of_seedWrite (named_of_reachable hs.of_restrict) hc⟩
  · intro s₀ s₁ s runId env now c hs hstart hstep hrun hc
    exact pristine_iff hs hstart hstep hrun hc

/-- A run that is created and seeded. -/
def sampleSeeding : List Label :=
  [.begin (.createRun { name := "sample" }) (sampleEnv 1 10), .finish 0 (sampleEnv 1 10),
    .begin (.seedScenario 10) (sampleEnv 2 10)]

/-- The same run, if another run is created, and a worker spawned in it, and the root of the first
run renews its lease before the seed writes. -/
def sampleUndisturbed : List Label := sampleSeeding ++
  [.begin (.createRun { name := "another" }) (sampleEnv 3 20), .finish 1 (sampleEnv 3 20),
    .begin (.heartbeat 11 10) (sampleEnv 3 30), .finish 1 (sampleEnv 3 30),
    .call (.createSpawn 21 20 { role := "worker", capabilities := ["tool:read_metrics"] })
      (sampleEnv 4 40)]

/-- The same run, if a worker is spawned and cancelled before the seed writes. -/
def sampleDisturbed : List Label := sampleSeeding ++
  [.call (.createSpawn 11 10 { role := "worker", capabilities := ["tool:read_metrics"] })
      (sampleEnv 3 20),
    .call (.issueCommand
      { idempotencyKey := "stop", commandType := .cancelSubtree, targetNodeId := 20,
        reasonCode := "STOP", reasonText := "stop" } ⟨.human, none, none⟩ none) (sampleEnv 4 40)]

instance (a b : Database) (runId : Id) : Decidable (Adds a b runId) :=
  inferInstanceAs (Decidable
    ((∃ n ∈ b.nodes.rows, n.runId = runId ∧ a.nodes.get? n.id = none) ∨
      (∃ c ∈ b.commands.rows, c.runId = runId ∧ a.commands.get? c.id = none) ∨
        ∃ x ∈ b.attempts.rows, x.runId = runId ∧ a.attempts.get? x.id = none))

/-- Whether a step adds nothing to a run that is being seeded. -/
def seedsAlone (s : Sys) (l : Label) : Bool :=
  s.inflight.all fun f =>
    match f with
    | .seedScenario runId _ => decide (¬ Adds s.db (s.next sampleConfig l).db runId)
    | _ => true

theorem seedsAlone_sound (l : Label) (h : seedsAlone s l = true) : SeedsAlone sampleConfig s l := by
  intro runId now hmem
  exact of_decide_eq_true (List.all_eq_true.mp h _ hmem)

/-- The seed commits in both runs. It finds its run pristine in the first, but not in the second. -/
theorem seeding_one_shot_sample :
    Pristine (sample sampleUndisturbed).db 10 ∧ ¬ Pristine (sample sampleDisturbed).db 10 := by
  have hr : ((services sampleConfig).restrict (SeedsAlone sampleConfig)).Reachable
      (sample sampleUndisturbed) :=
    sample_checked (p := seedsAlone) (fun _ l _ h => seedsAlone_sound l h) (by decide +kernel)
  have hf : (sample sampleUndisturbed).inflight[0]? = some (.seedScenario 10 (seconds 2)) := by rfl
  obtain ⟨c, hc⟩ : ∃ c, seedWrite (sample sampleUndisturbed).db 10 (seconds 2) = .ok c := ⟨_, rfl⟩
  obtain ⟨d, hd⟩ : ∃ d, seedWrite (sample sampleDisturbed).db 10 (seconds 2) = .ok d := ⟨_, rfl⟩
  have hadds : Adds (sample (sampleSeeding.take 2)).db (sample sampleDisturbed).db 10 := by
    decide +kernel
  refine ⟨(seeding_one_shot sampleConfig).1 _ _ _ _ _ hr hf hc, fun hpristine => ?_⟩
  exact ((seeding_one_shot sampleConfig).2.1 _ _ _ _ (sampleEnv 2 10) _ _
    (sample_reachable (sampleSeeding.take 2)) rfl
    (sample_step (sampleSeeding.take 2) (.begin (.seedScenario 10) (sampleEnv 2 10)))
    (sample_run sampleSeeding (sampleDisturbed.drop 3)) hd).mp hpristine hadds

/-- That seed commits too. -/
theorem seeding_one_shot_fails :
    ¬ ∀ (cfg : Config) (s : Sys) (index : ℕ) runId now c, (services cfg).Reachable s →
      s.inflight[index]? = some (.seedScenario runId now) → seedWrite s.db runId now = .ok c →
        Pristine s.db runId := by
  intro h
  have hf : (sample sampleDisturbed).inflight[0]? = some (.seedScenario 10 (seconds 2)) := by rfl
  obtain ⟨c, hc⟩ : ∃ c, seedWrite (sample sampleDisturbed).db 10 (seconds 2) = .ok c := ⟨_, rfl⟩
  have hpristine := h sampleConfig _ _ _ _ c (sample_reachable sampleDisturbed) hf hc
  have hcommands : (sample sampleDisturbed).db.commands.rows.map (·.runId) = [10] := by
    decide +kernel
  obtain ⟨command, hmem, hid⟩ := List.mem_map.mp (hcommands ▸ List.mem_singleton_self 10)
  exact hpristine.commands command hmem hid

end TraceFence
