import TraceFence.Registry.Control

/-!
# Registration times

Under a clock that does not go back, a child is registered no earlier than its parent, and what a
command reaches was registered no later than the command was issued.

## Main definitions

* `Timed` — the invariant, relative to what counts as the past

## Main results

* `timed` — the invariant in every state that is reachable under a non-decreasing clock
-/

namespace TraceFence

open System

variable {cfg : Config} {w : Write} {a b : Database} {s s' : Sys} {l : Label}

/-- **Registration times.** `past t` says that `t` is not in the future. -/
structure Timed (past : Time → Prop) (db : Database) : Prop where
  registered : ∀ id n, db.nodes.get? id = some n → past n.registeredAt
  ordered : ∀ id n p q, db.nodes.get? id = some n → n.parentId = some p →
    db.nodes.get? p = some q → q.registeredAt ≤ n.registeredAt
  reached : ∀ cid c id n, db.commands.get? cid = some c → db.nodes.get? id = some n →
    c.reaches n → n.registeredAt ≤ c.createdAt

theorem Timed.mono {past past' : Time → Prop} (h : Timed past a) (hp : ∀ t, past t → past' t) :
    Timed past' a :=
  ⟨fun id n hn => hp _ (h.registered id n hn), h.ordered, h.reached⟩

/-- What is past during a step: what was past before it, or a reading of the step itself that is
no later than the one commands are stamped with. -/
def Past (cfg : Config) (s : Sys) (l : Label) (t : Time) : Prop :=
  t ≤ s.now ∨ (t ≤ (s.next cfg l).now ∧ ∀ call env, l = .call call env → t ≤ env.clock 2)

theorem Past.le_now {t : Time} (h : Past cfg s l t) : t ≤ (s.next cfg l).now := by
  rcases h with h | h
  · exact h.trans (now_le_next s l)
  · exact h.1

/-- In a call, everything past lies before the clock readings that registrations and commands are
stamped with. -/
theorem Past.le_clock {call : Call} {env : Env} {t : Time} {k : ℕ}
    (h : Past cfg s (.call call env) t) (hclock : ClockOk s (.call call env)) (hk : 2 ≤ k) :
    t ≤ env.clock k := by
  rcases h with h | h
  · exact (h.trans hclock.1).trans (hclock.2 (Nat.zero_le k))
  · exact (h.2 call env rfl).trans (hclock.2 hk)

/-- A new row is stamped in the past of the step that inserts it. -/
theorem Performs.past {n : Node} (hperf : Performs cfg s l w)
    (hw : w = .registerRun n ∨ w = .registerNode n) (hclock : ClockOk s l) :
    Past cfg s l n.registeredAt := by
  rcases hw with rfl | rfl
  · cases hperf with
    | registerRun _ read => exact Or.inr ⟨read, fun _ _ h => nomatch h⟩
  · cases hperf with
    | registerNode registered later read =>
      rw [registered]
      refine Or.inr ⟨(hclock.2 later).trans read, fun call env he => ?_⟩
      cases he
      exact le_rfl

theorem Effect.timed (h : Effect cfg w a b) (hperf : Performs cfg s l w) (hclock : ClockOk s l)
    (hW : a.registry.WellFormed) (hC : Controlled a) (ha : Timed (Past cfg s l) a) :
    Timed (Past cfg s l) b := by
  have hsame {n n' : Node} (hstep : NodeStep cfg w n n') :
      n'.registeredAt = n.registeredAt ∧ n'.parentId = n.parentId :=
    ⟨congrArg Registration.registeredAt hstep.registration,
      congrArg Registration.parentId hstep.registration⟩
  refine ⟨fun id n' hn' => ?_, fun id n' p q' hn' hp hq' => ?_, fun cid c' id n' hc' hn' hr => ?_⟩
  · rcases h.node_cases hn' with ⟨_, hw⟩ | ⟨n, hn, hstep⟩
    · exact hperf.past hw hclock
    · rw [(hsame hstep).1]
      exact ha.registered id n hn
  · rcases h.node_cases hn' with ⟨_, rfl | rfl⟩ | ⟨n, hn, hstep⟩
    · rw [h.root_birth.orphan] at hp
      cases hp
    · -- The parent was registered before the child, and is stamped with what is past by then.
      obtain ⟨parent, hbirth⟩ := h.birth
      obtain rfl := Option.some.inj (hbirth.link.symm.trans hp)
      rcases h.node_cases hq' with ⟨hnone, _⟩ | ⟨q, hq, hstep⟩
      · rw [hbirth.found] at hnone
        cases hnone
      · rw [(hsame hstep).1]
        have hpast := ha.registered _ q hq
        cases hperf with
        | registerNode registered =>
          rw [registered]
          exact hpast.le_clock hclock le_rfl
    · rw [(hsame hstep).1]
      rw [(hsame hstep).2] at hp
      have hn₀ : a.nodes.get? n.id = some n := found_of_get? hn
      obtain ⟨q₀, hq₀, _⟩ := exists_parent hW hn₀ hp
      rcases h.node_cases hq' with ⟨hnone, _⟩ | ⟨q, hq, hqstep⟩
      · rw [hq₀] at hnone
        cases hnone
      · rw [(hsame hqstep).1]
        exact ha.ordered id n p q hn hp hq
  · rcases h.node_cases hn' with ⟨_, hw⟩ | ⟨n, hn, hstep⟩
    · rcases h.command_cases hc' with ⟨_, rfl⟩ | ⟨c, hc, hcstep⟩
      · rcases hw with hw | hw <;> cases hw
      · have hscope := issued_column (·.targetScopeId) (fun _ => rfl) hcstep.issued
        refine absurd ?_ (h.not_reached hw (hC.command cid c hc))
        rwa [ControlCommand.reaches, ← hscope]
    · rw [(hsame hstep).1]
      have hreach : c'.reaches n := (reaches_of_registration hstep.registration).mp hr
      rcases h.command_cases hc' with ⟨_, rfl⟩ | ⟨c, hc, hcstep⟩
      · cases hperf with
        | issue created =>
          rw [created]
          exact (ha.registered id n hn).le_clock hclock (by decide)
      · have hscope := issued_column (·.targetScopeId) (fun _ => rfl) hcstep.issued
        have hcreated := issued_column (·.createdAt) (fun _ => rfl) hcstep.issued
        rw [show c'.createdAt = c.createdAt from hcreated]
        exact ha.reached cid c id n hc hn (by rwa [ControlCommand.reaches, ← hscope])

/-- **Registration times are ordered** in every state reachable under a non-decreasing clock. -/
theorem timed (h : (monotone cfg).Reachable s) : Timed (· ≤ s.now) s.db := by
  refine h.invariant (I := fun s => Timed (· ≤ s.now) s.db) ?_ fun s l s' hr hs hstep => ?_
  · exact ⟨fun _ _ h => (nomatch h), fun _ _ _ _ h => (nomatch h), fun _ _ _ _ h => (nomatch h)⟩
  · obtain ⟨hstep, hclock⟩ := restrict_step_iff.mp hstep
    have hreach : (services cfg).Reachable s := hr.of_restrict
    have hdb := (step_writes hstep).preserve
      (I := fun b => b.registry.WellFormed ∧ Controlled b ∧ Timed (Past cfg s l) b)
      ⟨registry_wellFormed hreach, controlled hreach, hs.mono fun t ht => Or.inl ht⟩
      fun w a b ha hw he => ⟨he.registry_wellFormed ha.1, he.controlled ha.2.1,
        he.timed hw hclock ha.1 ha.2.1 ha.2.2⟩
    obtain ⟨_, rfl⟩ := hstep
    exact hdb.2.2.mono fun t ht => ht.le_now

end TraceFence
