import TraceFence.Registry.Activation

/-!
# Leases that have run out

A lease that some committed step has found run out is to stay so. Every operation but one reads
the clock while it holds the write lock, so what it reads is no earlier than what has been read
before. `heartbeat` reads it before it has the lock, and renews a lease by that reading.

## Main definitions

* `LeasesFinal` — the law
* `TimelyHeartbeats` — the discipline under which the code obeys it

## Main results

* `leases_final` — the law, in disciplined runs
* `leases_final_fails` — a lease that the gateway has found run out is renewed
-/

namespace TraceFence

open System

variable {cfg : Config} {w : Write} {a b : Database} {s s' : Sys} {l : Label}

/-- **No lease revival**: once a committed step has read the clock at or after the end of the
lease of a live node, that lease stays as it is, and no later step admits an action of the node. -/
def LeasesFinal (T : System Sys Label) : Prop :=
  ∀ s s', T.Reachable s → T.Run s s' → ∀ id ∈ s.lapsed,
    (∃ n n', s.db.nodes.get? id = some n ∧ s'.db.nodes.get? id = some n' ∧
      n'.leaseExpiresAt = n.leaseExpiresAt) ∧
    ∀ x ∈ s'.db.attempts, x.nodeId = id → x.decision = .allow → x ∈ s.db.attempts

/-- A heartbeat that commits for a node whose lease has been found run out does not pass the
liveness check with the reading it took before it had the lock. -/
def TimelyHeartbeats (cfg : Config) (s : Sys) (l : Label) : Prop :=
  Commits cfg s l → ∀ index env nodeId token now node, l = .finish index env →
    s.inflight[index]? = some (.heartbeat nodeId token now) →
    s.db.nodes.get? nodeId = some node → nodeId ∈ s.lapsed → ¬ Live s.db node now

/-- The services under a non-decreasing clock and with timely heartbeats. -/
def timely (cfg : Config) : System Sys Label :=
  (services cfg).restrict fun s l => ClockOk s l ∧ TimelyHeartbeats cfg s l

/-! ### The invariant -/

/-- A node whose lease ended by `now`, and is not to be granted another. -/
def Lapsed (db : Database) (id : Id) (now : Time) : Prop :=
  ∃ n, db.nodes.get? id = some n ∧ n.activatedAt ≠ none ∧ n.leaseExpired now = true

theorem Node.leaseExpired_mono {n : Node} {t t' : Time} (h : n.leaseExpired t = true)
    (hle : t ≤ t') : n.leaseExpired t' = true := by
  rw [Node.leaseExpired] at h ⊢
  split at h
  · rfl
  · exact decide_eq_true ((of_decide_eq_true h).trans hle)

theorem Node.leaseExpired_congr {n n' : Node} (h : n'.leaseExpiresAt = n.leaseExpiresAt)
    (t : Time) : n'.leaseExpired t = n.leaseExpired t := by
  rw [Node.leaseExpired, Node.leaseExpired, h]

/-- A lease changes only by activation and renewal. -/
theorem NodeStep.leaseExpiresAt {n n' : Node} (h : NodeStep cfg w n n')
    (activate : ∀ at', w = .activate at' → at'.node.id ≠ n.id)
    (renew : ∀ at', w = .renew at' → at'.node.id ≠ n.id) :
    n'.leaseExpiresAt = n.leaseExpiresAt := by
  cases h with
  | activate => exact absurd rfl (activate _ rfl)
  | renew => exact absurd rfl (renew _ rfl)
  | same | token | converge | expire | checkpoint | complete => rfl

/-- One step leaves the lease of a node that has been activated, unless it renews it. -/
theorem step_lease (hA : Awake s.db) {id : Id} {n : Node} (hn : s.db.nodes.get? id = some n)
    (hactivated : n.activatedAt ≠ none)
    (hrenew : Discipline cfg (fun w => ∀ at', w = .renew at' → at'.node.id ≠ id) s l) :
    ∃ n', (s.next cfg l).db.nodes.get? id = some n' ∧ n'.activatedAt ≠ none ∧
      n'.leaseExpiresAt = n.leaseExpiresAt := by
  refine (next_disciplined s l hrenew).preserve (I := fun db => ∃ n', db.nodes.get? id = some n' ∧
    n'.activatedAt ≠ none ∧ n'.leaseExpiresAt = n.leaseExpiresAt) ⟨n, hn, hactivated, rfl⟩ ?_
  rintro w a b ⟨m, hm, hkept, hlease⟩ ⟨hperf, hok⟩ he
  obtain ⟨m', hm', hstep⟩ := he.node_step hm
  have hid : m.id = id := Table.key_of_get? hm
  refine ⟨m', hm', hstep.activatedAt hkept, (hstep.leaseExpiresAt ?_ ?_).trans hlease⟩
  · -- What is activated had no token when the step began.
    rintro at' rfl hsame
    cases hperf with
    | activate _ found _ tokenless =>
      have hnode := (Table.key_of_get? found).symm.trans (hsame.trans hid)
      rw [hnode, hn] at found
      obtain rfl := Option.some.inj found
      exact (hA id n hn).token.mpr hactivated tokenless
  · rintro at' rfl
    rw [hid]
    exact hok at' rfl

/-- A heartbeat commits with the reading it began with. -/
theorem heartbeat_read {db : Database} {nodeId : Id} {token : Token} {env : Env} {now : Time}
    {c : Commit (Option ReasonCode)} (h : heartbeat cfg db nodeId token env now = .ok c) :
    c.read = some now := by
  simp only [heartbeat, Checked.bind_eq_ok] at h
  obtain ⟨_, _, _, _, _, _, h⟩ := h
  repeat' split at h
  all_goals
    cases h
    rfl

/-- A step that finds a lease run out does not renew it. -/
theorem not_renewed_of_lapsedAt {c : Commit Unit} {read : Time} {id : Id}
    (hc : s.transaction cfg l = some c) (hread : c.read = some read)
    (hid : id ∈ lapsedAt s.db read) :
    Discipline cfg (fun w => ∀ at', w = .renew at' → at'.node.id ≠ id) s l := by
  rintro _ w hperf at' rfl hsame
  cases hperf with
  | @renew index env nodeId token now node call found live =>
    simp only [Sys.transaction, call, Option.bind_some, InFlight.commit] at hc
    cases hc' : heartbeat cfg s.db nodeId token env now with
    | error e => simp [hc', Except.toOption] at hc
    | ok c' =>
    simp only [hc', Except.toOption, Except.map_ok, Option.some.injEq] at hc
    obtain rfl : now = read := by
      rw [← hc, Commit.read_drop, heartbeat_read hc'] at hread
      exact Option.some.inj hread
    obtain ⟨n, hn, rfl⟩ := List.mem_map.mp hid
    simp only [List.mem_filter, Bool.and_eq_true] at hn
    have hfound := Table.get?_of_mem (Table.mem_rows.mp hn.1)
    have hkey : node.id = nodeId := Table.key_of_get? found
    have hnode : nodeId = n.id := hkey.symm.trans hsame
    rw [hnode, show s.db.nodes.get? n.id = some n from hfound] at found
    obtain rfl := Option.some.inj found
    rw [live.lease] at hn
    cases hn.2.2

/-- A timely heartbeat renews no lease that has been found run out. -/
theorem TimelyHeartbeats.not_renewed (h : TimelyHeartbeats cfg s l) {id : Id} (hid : id ∈ s.lapsed) :
    Discipline cfg (fun w => ∀ at', w = .renew at' → at'.node.id ≠ id) s l := by
  rintro hcommits w hperf at' rfl hsame
  cases hperf with
  | @renew _ _ nodeId _ _ _ call found live =>
    have hnode : nodeId = id := (Table.key_of_get? found).symm.trans hsame
    exact h hcommits _ _ _ _ _ _ rfl call found (hnode ▸ hid) live

/-- A node whose lease has been found run out stays lapsed. -/
theorem lapsed_of_timely (h : (timely cfg).Reachable s) : ∀ id ∈ s.lapsed, Lapsed s.db id s.now := by
  refine h.invariant (I := fun s => ∀ id ∈ s.lapsed, Lapsed s.db id s.now) ?_ ?_
  · intro id hid
    cases hid
  · rintro s l s' hs ih ⟨⟨_, hclock, htimely⟩, rfl⟩ id hid
    have hA := awake hs.of_restrict
    change Lapsed (s.next cfg l).db id (s.next cfg l).now
    change id ∈ (s.next cfg l).lapsed at hid
    have hold (hid : id ∈ s.lapsed) : Lapsed (s.next cfg l).db id (s.next cfg l).now := by
      obtain ⟨n, hn, hactivated, hexpired⟩ := ih id hid
      obtain ⟨n', hn', hactivated', hlease⟩ :=
        step_lease hA hn hactivated (htimely.not_renewed hid)
      exact ⟨n', hn', hactivated', (Node.leaseExpired_congr hlease _).trans
        (Node.leaseExpired_mono hexpired (now_le_next s l))⟩
    cases hc : s.transaction cfg l with
    | none =>
      rw [(next_of_no_transaction hc).2] at hid
      exact hold hid
    | some c =>
      rw [(next_of_transaction hc).2.2, List.mem_append] at hid
      rcases hid with hnew | hid
      · cases hread : c.read with
        | none => simp [hread] at hnew
        | some read =>
          -- The step has found the lease run out, by a reading that is past when it is over.
          rw [hread, Option.map_some, Option.getD_some] at hnew
          have hkept := not_renewed_of_lapsedAt hc hread hnew
          obtain ⟨n, hn, rfl⟩ := List.mem_map.mp hnew
          simp only [List.mem_filter, Bool.and_eq_true] at hn
          have hfound : s.db.nodes.get? n.id = some n := Table.get?_of_mem (Table.mem_rows.mp hn.1)
          obtain ⟨n', hn', hactivated', hlease⟩ :=
            step_lease hA hfound ((hA _ _ hfound).live hn.2.1) hkept
          exact ⟨n', hn', hactivated', (Node.leaseExpired_congr hlease _).trans
            (Node.leaseExpired_mono hn.2.2 (read_le_next hc hread))⟩
      · exact hold hid

/-- A step admits no action of a node that lapsed before it began. -/
theorem step_not_admitted (hclock : ClockOk s l) {id : Id} (hid : Lapsed s.db id s.now)
    {x : ActionAttempt} (hx : x ∈ (s.next cfg l).db.attempts) (hnode : x.nodeId = id)
    (hallow : x.decision = .allow) : x ∈ s.db.attempts := by
  obtain ⟨n, hn, _, hexpired⟩ := hid
  refine (@next_disciplined cfg (fun _ => True) s l fun _ _ _ => trivial).preserve
    (I := fun db => x ∈ db.attempts → x ∈ s.db.attempts) (fun h => h) ?_ hx
  rintro w a b ih ⟨hperf, _⟩ he hx
  rcases he.attempts_cases with hsame | ⟨y, hinsert, hw⟩
  · exact ih (hsame ▸ hx)
  · rw [← Table.mem_rows, (insertAttempt_eq_ok hinsert).1, List.mem_append,
      List.mem_singleton] at hx
    rcases hx with hx | rfl
    · exact ih hx
    · rcases hw with ⟨_, hdeny⟩ | ⟨at', now, rfl, _⟩
      · rw [hallow] at hdeny
        cases hdeny
      · -- The gateway reads the clock after all that is past.
        have hadmission := he.admission
        cases hperf with
        | allow found =>
          have hid := (Table.key_of_get? found).symm.trans (hadmission.actor.symm.trans hnode)
          rw [hid, hn] at found
          obtain rfl := Option.some.inj found
          have hclosed := Node.leaseExpired_mono hexpired hclock.1
          exact absurd (hadmission.live.lease.symm.trans hclosed) Bool.false_ne_true

/-- **No lease revival**, as long as no heartbeat that commits for a node whose lease has been
found run out passes the liveness check with its earlier reading of the clock. -/
theorem leases_final (cfg : Config) : LeasesFinal (timely cfg) := by
  intro s s' hs hrun id hid
  obtain ⟨n, hn, hactivated, _⟩ := lapsed_of_timely hs id hid
  have hboth : id ∈ s'.lapsed ∧ (∃ n', s'.db.nodes.get? id = some n' ∧ n'.activatedAt ≠ none ∧
      n'.leaseExpiresAt = n.leaseExpiresAt) ∧
      ∀ x ∈ s'.db.attempts, x.nodeId = id → x.decision = .allow → x ∈ s.db.attempts := by
    refine hrun.stable (Q := fun s' => id ∈ s'.lapsed ∧ (∃ n', s'.db.nodes.get? id = some n' ∧
      n'.activatedAt ≠ none ∧ n'.leaseExpiresAt = n.leaseExpiresAt) ∧
      ∀ x ∈ s'.db.attempts, x.nodeId = id → x.decision = .allow → x ∈ s.db.attempts) hs
      ⟨hid, ⟨n, hn, hactivated, rfl⟩, fun _ hx _ _ => hx⟩ ?_
    rintro t l t' ht ⟨hlapsed, ⟨m, hm, hkept, hlease⟩, hattempts⟩ ⟨⟨_, hclock, htimely⟩, rfl⟩
    have hA := awake ht.of_restrict
    obtain ⟨m', hm', hkept', hlease'⟩ := step_lease hA hm hkept (htimely.not_renewed hlapsed)
    refine ⟨?_, ⟨m', hm', hkept', hlease'.trans hlease⟩, fun x hx hnode hallow => ?_⟩
    · change id ∈ (t.next cfg l).lapsed
      cases hc : t.transaction cfg l with
      | none =>
        rw [(next_of_no_transaction hc).2]
        exact hlapsed
      | some c =>
        rw [(next_of_transaction hc).2.2]
        exact List.mem_append_right _ hlapsed
    · have hlapsedAt := lapsed_of_timely ht id hlapsed
      exact hattempts x (step_not_admitted hclock hlapsedAt hx hnode hallow) hnode hallow
  obtain ⟨_, ⟨n', hn', _, hlease⟩, hattempts⟩ := hboth
  exact ⟨⟨n, n', hn, hn', hlease⟩, hattempts⟩

/-- Whether a label finishes no heartbeat. -/
def heartbeatFree (s : Sys) : Label → Bool
  | .finish index _ =>
    match s.inflight[index]? with
    | some (.heartbeat ..) => false
    | _ => true
  | _ => true

theorem timely_of_heartbeatFree (h : heartbeatFree s l = true) : TimelyHeartbeats cfg s l := by
  rintro _ index env nodeId token now node rfl hcall
  simp [heartbeatFree, hcall] at h

/-- The gateway finds the lease of the root run out. -/
def sampleExpired : List Label :=
  [.begin (.createRun { name := "sample" }) (sampleEnv 1 10), .finish 0 (sampleEnv 1 10),
    .call (.execute 11 10 { idempotencyKey := "first", toolName := "read_metrics" })
      (sampleEnv 9 20)]

/-- The scanner ends the root, and the root asks again. -/
def sampleScanned : List Label :=
  [.begin (.expireStaleNodes none) (sampleEnv 10 30), .finish 0 (sampleEnv 10 30),
    .call (.execute 11 10 { idempotencyKey := "second", toolName := "read_metrics" })
      (sampleEnv 10 40)]

/-- The root gets no other lease. -/
theorem leases_final_sample : 11 ∈ (sample sampleExpired).lapsed ∧
    ∃ n n', (sample sampleExpired).db.nodes.get? 11 = some n ∧
      (sample (sampleExpired ++ sampleScanned)).db.nodes.get? 11 = some n' ∧
      n'.leaseExpiresAt = n.leaseExpiresAt := by
  have hcheck (ls : List Label) (hconst : ∀ l ∈ ls, ∀ k, l.env.clock k = l.env.clock 0) (s : Sys)
      (l : Label) (hl : l ∈ ls) (h : (steady s l && heartbeatFree s l) = true) :
      ClockOk s l ∧ TimelyHeartbeats sampleConfig s l := by
    rw [Bool.and_eq_true] at h
    exact ⟨clockOk_of_steady (hconst l hl) h.1, timely_of_heartbeatFree h.2⟩
  have hreachable : (timely sampleConfig).Reachable (sample sampleExpired) :=
    sample_checked (hcheck _ (by simp [sampleExpired, Label.env, sampleEnv])) (by decide +kernel)
  have hrun : (timely sampleConfig).Run (sample sampleExpired)
      (sample (sampleExpired ++ sampleScanned)) :=
    sample_checked_run (hcheck _ (by simp [sampleScanned, Label.env, sampleEnv])) (by decide +kernel)
  have hlapsed : 11 ∈ (sample sampleExpired).lapsed := by decide +kernel
  exact ⟨hlapsed, (leases_final sampleConfig _ _ hreachable hrun 11 hlapsed).1⟩

/-! ### The failing run -/

/-- A heartbeat of the root is begun in time, at 6 s. The lease ends at 8 s, and at 9 s the gateway
denies an action for that reason. -/
def sampleLapsed : List Label :=
  [.begin (.createRun { name := "sample" }) (sampleEnv 1 10), .finish 0 (sampleEnv 1 10),
    .begin (.heartbeat 11 10) (sampleEnv 6 20),
    .call (.execute 11 10 { idempotencyKey := "first", toolName := "read_metrics" })
      (sampleEnv 9 30)]

/-- The heartbeat gets its turn, and the root acts again. -/
def sampleRevived : List Label :=
  [.finish 0 (sampleEnv 9 40),
    .call (.execute 11 10 { idempotencyKey := "second", toolName := "read_metrics" })
      (sampleEnv 10 50)]

/-- A lease that the gateway has found run out is renewed. -/
theorem leases_final_fails : ¬ LeasesFinal (monotone sampleConfig) := by
  intro h
  have hreachable : (monotone sampleConfig).Reachable (sample sampleLapsed) :=
    sample_monotone (by simp [sampleLapsed, Label.env, sampleEnv]) (by decide +kernel)
  have hrun : (monotone sampleConfig).Run (sample sampleLapsed)
      (sample (sampleLapsed ++ sampleRevived)) :=
    sample_checked_run (fun _ l hl hs => clockOk_of_steady
      (by revert l; simp [sampleRevived, Label.env, sampleEnv]) hs) (by decide +kernel)
  have hlapsed : 11 ∈ (sample sampleLapsed).lapsed := by decide +kernel
  obtain ⟨n, n', hn, hn', hlease⟩ := (h _ _ hreachable hrun 11 hlapsed).1
  have hbefore : ((sample sampleLapsed).db.nodes.get? 11).map (·.leaseExpiresAt) =
      some (some (seconds 8)) := by decide +kernel
  have hafter : ((sample (sampleLapsed ++ sampleRevived)).db.nodes.get? 11).map
      (·.leaseExpiresAt) = some (some (seconds 13)) := by decide +kernel
  rw [hn, Option.map_some, Option.some.injEq] at hbefore
  rw [hn', Option.map_some, Option.some.injEq, hlease, hbefore] at hafter
  exact absurd hafter (by decide)

end TraceFence
