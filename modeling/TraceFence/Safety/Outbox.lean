import TraceFence.Audit

/-!
# The outbox of violations

A violation and its event are inserted by one transaction, and whatever owners do to the event
afterwards they do under a claim that they check again. So an event is marked as delivered once,
by whoever holds it, and after it has been exported and flushed; and as long as it is not
delivered, it can be claimed again as soon as claim and back-off have run out.

## Main definitions

* `RowStep` — what a step can do to an event
* `OutboxKept` — what a step may do to all of them
* `Ledger.Sound` — violations and events in lockstep, and the shapes of the events
* `Evidenced` — what a delivery has done so far is in the log

## Main results

* `outbox_cases`, `outbox_step` — every row comes from a row, and every row stays
* `ledger_sound`, `evidenced` — the invariants
* `at_least_once` — the law of the outbox
-/

namespace TraceFence

open System

variable {cfg : Config} {T : System Sys Label} {s s' : Audit} {l : AuditLabel} {ledger ledger' : Ledger}
  {row row' : TelemetryOutbox} {id : Id} {owner : String} {now : Time}

/-! ### One row -/

/-- **What a step can do to an event.** -/
inductive RowStep (s : Audit) : AuditLabel → TelemetryOutbox → TelemetryOutbox → Prop
  | same {l : AuditLabel} {row : TelemetryOutbox} : RowStep s l row row
  | claimed {owner : String} {limit : ℕ} {now : Time} {row : TelemetryOutbox}
      (claimable : row.claimable now = true) :
      RowStep s (.claim owner limit now) row (row.claimed owner now)
  | delivered {index : ℕ} {pass : Pass} {now : Time} {row : TelemetryOutbox}
      (call : s.passes[index]? = some pass) (stage : pass.stage = .flushed row.id)
      (held : row.heldBy pass.owner = true) :
      RowStep s (.acknowledge index now) row (row.delivered now)
  | failed {index : ℕ} {pass : Pass} {error : String} {now : Time} {row : TelemetryOutbox}
      (held : row.heldBy pass.owner = true) :
      RowStep s (.recordFailure index now) row (row.failed error now)

theorem RowStep.id_eq (h : RowStep s l row row') : row'.id = row.id := by
  cases h <;> rfl

theorem RowStep.eventKey_eq (h : RowStep s l row row') : row'.eventKey = row.eventKey := by
  cases h <;> rfl

theorem RowStep.attempts_le (h : RowStep s l row row') : row.attempts ≤ row'.attempts := by
  cases h with
  | claimed => exact Nat.le_succ _
  | same | delivered | failed => exact le_rfl

/-- A row that has been delivered is left alone. -/
theorem RowStep.frozen (h : RowStep s l row row') (hdone : row.deliveredAt ≠ none) : row' = row := by
  have hheld {owner : String} (held : row.heldBy owner = true) : False := by
    rw [TelemetryOutbox.heldBy, Bool.and_eq_true, Option.isNone_iff_eq_none] at held
    exact hdone held.1
  cases h with
  | same => rfl
  | claimed claimable =>
    rw [TelemetryOutbox.claimable, Bool.and_eq_true, Bool.and_eq_true,
      Option.isNone_iff_eq_none] at claimable
    exact absurd claimable.1.1 hdone
  | delivered _ _ held | failed held => exact (hheld held).elim

/-! ### Transactions -/

theorem lookUp_eq_some : lookUp ledger owner id = some row ↔
    ledger.outbox.get? id = some row ∧ row.heldBy owner = true := by
  rw [lookUp, Option.filter_eq_some_iff]

/-- The transaction about a candidate inserts both rows or none. -/
theorem recordCandidate_cases (ledger : Ledger) (candidate : ViolationCandidate) (env : Env) :
    recordCandidate ledger candidate env = ledger ∨ ∃ violations outbox,
      ledger.violations.insert? (newViolation candidate env) = some violations ∧
      ledger.outbox.insert? (newOutbox candidate env) = some outbox ∧
      (∀ row ∈ ledger.outbox, row.eventKey ≠ ⟨candidate.commandId, candidate.actionId⟩) ∧
      recordCandidate ledger candidate env = ⟨violations, outbox⟩ := by
  rw [recordCandidate]
  split
  · exact Or.inl rfl
  split
  · next violations outbox hviolation houtbox =>
    rw [insertViolation?] at hviolation
    rw [insertOutbox?] at houtbox
    split at hviolation
    · cases hviolation
    split at houtbox
    · cases houtbox
    next hfree =>
    refine Or.inr ⟨violations, outbox, hviolation, houtbox, fun row hrow hkey => hfree ?_, rfl⟩
    exact List.any_eq_true.mpr ⟨row, hrow, decide_eq_true hkey⟩
  · exact Or.inl rfl

/-- What becomes of the rows when one that an owner still holds is rewritten. -/
theorem outbox_modify {rowId : Id} {f : TelemetryOutbox → TelemetryOutbox}
    {hf : ∀ r, Keyed.key (f r) = Keyed.key r}
    (hrow : (match lookUp ledger owner rowId with
      | none => ledger
      | some _ => { ledger with outbox := ledger.outbox.modify rowId f hf }).outbox.get? id =
        some row') :
    ∃ row, ledger.outbox.get? id = some row ∧
      (row' = row ∨ (row.id = rowId ∧ row.heldBy owner = true ∧ row' = f row)) := by
  split at hrow
  · exact ⟨row', hrow, Or.inl rfl⟩
  next row₀ hlookup =>
  obtain ⟨hget, hheld⟩ := lookUp_eq_some.mp hlookup
  obtain ⟨row, hold, ⟨rfl, rfl⟩ | ⟨_, rfl⟩⟩ := Table.get?_modify_cases hf hrow
  · obtain rfl := Option.some.inj (hget.symm.trans hold)
    exact ⟨row₀, hold, Or.inr ⟨Table.key_of_get? hold, hheld, rfl⟩⟩
  · exact ⟨row', hold, Or.inl rfl⟩

theorem outbox_claimPending (limit : ℕ) (id : Id) :
    (claimPending ledger owner limit now).1.outbox.get? id = (ledger.outbox.get? id).map fun row =>
      if row.id ∈ pendingIds ledger limit now then row.claimed owner now else row :=
  Table.get?_mapRows (fun row => by split <;> rfl) id

/-- Only claimable rows are claimed. -/
theorem claimable_of_mem_pendingIds {limit : ℕ} (hrow : row ∈ ledger.outbox)
    (h : row.id ∈ pendingIds ledger limit now) : row.claimable now = true := by
  obtain ⟨row', hmem, hid⟩ := List.mem_map.mp h
  have hsorted := List.mem_of_mem_take hmem
  rw [List.mem_insertionSort, List.mem_filter] at hsorted
  obtain rfl : row' = row := Table.eq_of_key_eq hsorted.1 hrow hid
  exact hsorted.2

/-- **Every row after a step** comes from a row before, or is the event of a new violation. -/
theorem outbox_cases (h : AuditStep T s l s') (hrow : s'.ledger.outbox.get? id = some row') :
    (∃ row, s.ledger.outbox.get? id = some row ∧ RowStep s l row row') ∨
      (s.ledger.outbox.get? id = none ∧ ∃ index env candidate, l = .record index env ∧
        row' = newOutbox candidate env) := by
  cases h with
  | idle | service | discover | move | exportEvent | flush => exact Or.inl ⟨row', hrow, .same⟩
  | @record index env candidate rest =>
    rcases recordCandidate_cases s.ledger candidate env with he | ⟨_, _, _, houtbox, _, he⟩
    · change (recordCandidate s.ledger candidate env).outbox.get? id = some row' at hrow
      rw [he] at hrow
      exact Or.inl ⟨row', hrow, .same⟩
    · change (recordCandidate s.ledger candidate env).outbox.get? id = some row' at hrow
      rw [he] at hrow
      rcases Table.get?_insert?_cases houtbox hrow with ⟨hnone, _, rfl⟩ | hold
      · exact Or.inr ⟨hnone, index, env, candidate, rfl, rfl⟩
      · exact Or.inl ⟨row', hold, .same⟩
  | claim owner limit now =>
    change (claimPending s.ledger owner limit now).1.outbox.get? id = some row' at hrow
    rw [outbox_claimPending, Option.map_eq_some_iff] at hrow
    obtain ⟨row, hold, rfl⟩ := hrow
    refine Or.inl ⟨row, hold, ?_⟩
    split
    · next hmem => exact .claimed (claimable_of_mem_pendingIds (Table.mem_of_get? hold) hmem)
    · exact .same
  | acknowledge call stage =>
    obtain ⟨row, hold, rfl | ⟨rfl, held, rfl⟩⟩ := outbox_modify hrow
    · exact Or.inl ⟨row', hold, .same⟩
    · exact Or.inl ⟨row, hold, .delivered call stage held⟩
  | recordFailure =>
    obtain ⟨row, hold, rfl | ⟨_, held, rfl⟩⟩ := outbox_modify hrow
    · exact Or.inl ⟨row', hold, .same⟩
    · exact Or.inl ⟨row, hold, .failed held⟩

/-- **Every row stays.** -/
theorem outbox_step (h : AuditStep T s l s') (hrow : s.ledger.outbox.get? id = some row) :
    ∃ row', s'.ledger.outbox.get? id = some row' ∧ RowStep s l row row' := by
  suffices hkept : ∃ row', s'.ledger.outbox.get? id = some row' by
    obtain ⟨row', hrow'⟩ := hkept
    rcases outbox_cases h hrow' with ⟨row₀, hold, hstep⟩ | ⟨hnone, _⟩
    · obtain rfl := Option.some.inj (hrow.symm.trans hold)
      exact ⟨row', hrow', hstep⟩
    · rw [hrow] at hnone
      cases hnone
  cases h with
  | idle | service | discover | move | exportEvent | flush => exact ⟨row, hrow⟩
  | @record index env candidate rest =>
    change ∃ row', (recordCandidate s.ledger candidate env).outbox.get? id = some row'
    rcases recordCandidate_cases s.ledger candidate env with he | ⟨_, _, _, houtbox, _, he⟩
    · rw [he]
      exact ⟨row, hrow⟩
    · rw [he]
      exact ⟨row, Table.get?_insert?_of_get? houtbox hrow⟩
  | claim owner limit now =>
    change ∃ row', (claimPending s.ledger owner limit now).1.outbox.get? id = some row'
    rw [outbox_claimPending, hrow]
    exact ⟨_, rfl⟩
  | @acknowledge _ pass rowId now =>
    change ∃ row', (acknowledge s.ledger pass.owner rowId now).outbox.get? id = some row'
    rw [acknowledge]
    split
    · exact ⟨row, hrow⟩
    · exact Table.exists_get?_modify (by intro; rfl) hrow
  | @recordFailure _ pass rowId error now =>
    change ∃ row', (recordFailure s.ledger pass.owner rowId error now).outbox.get? id = some row'
    rw [recordFailure]
    split
    · exact ⟨row, hrow⟩
    · exact Table.exists_get?_modify (by intro; rfl) hrow

/-! ### The ledger -/

/-- The pair of a violation. -/
def InvariantViolation.pair (v : InvariantViolation) : EventKey := ⟨v.commandId, v.actionId⟩

/-- The pairs that have a violation, oldest first. -/
def Ledger.recorded (ledger : Ledger) : List EventKey := ledger.violations.rows.map (·.pair)

/-- The pairs that have an event, oldest first. -/
def Ledger.announced (ledger : Ledger) : List EventKey := ledger.outbox.rows.map (·.eventKey)

/-- The shapes of an event: `ck_outbox_claim_shape`, `ck_outbox_delivery_shape`, and what the second
needs of a claim. -/
structure TelemetryOutbox.Shaped (row : TelemetryOutbox) : Prop where
  claim : row.claimOwner.isSome = row.claimExpiresAt.isSome
  delivery : row.deliveredAt ≠ none → 1 ≤ row.attempts ∧ row.lastError = none
  counted : row.claimOwner ≠ none → 1 ≤ row.attempts

/-- **What holds of the ledger.** -/
structure Ledger.Sound (ledger : Ledger) : Prop where
  /-- A violation and its event are there together. -/
  lockstep : ledger.announced = ledger.recorded
  once : ledger.announced.Nodup
  shaped : ∀ id row, ledger.outbox.get? id = some row → row.Shaped

theorem Ledger.Sound.once_recorded (h : ledger.Sound) : ledger.recorded.Nodup :=
  h.lockstep ▸ h.once

theorem RowStep.shaped (h : RowStep s l row row') (hrow : row.Shaped) : row'.Shaped := by
  cases h with
  | same => exact hrow
  | claimed claimable =>
    refine ⟨rfl, fun hdone => ?_, fun _ => Nat.le_add_left 1 _⟩
    rw [TelemetryOutbox.claimable, Bool.and_eq_true, Bool.and_eq_true,
      Option.isNone_iff_eq_none] at claimable
    exact absurd claimable.1.1 hdone
  | delivered _ _ held =>
    rw [TelemetryOutbox.heldBy, Bool.and_eq_true, decide_eq_true_eq] at held
    have hcounted : 1 ≤ row.attempts := hrow.counted (by rw [held.2]; exact Option.some_ne_none _)
    exact ⟨rfl, fun _ => ⟨hcounted, rfl⟩, fun hclaimed => absurd rfl hclaimed⟩
  | failed held =>
    rw [TelemetryOutbox.heldBy, Bool.and_eq_true, Option.isNone_iff_eq_none] at held
    exact ⟨rfl, fun hdone => absurd held.1 hdone, fun hclaimed => absurd rfl hclaimed⟩

/-- A step adds a pair to both lists, or to neither. -/
theorem ledger_step (h : AuditStep T s l s') :
    (s'.ledger.announced = s.ledger.announced ∧ s'.ledger.recorded = s.ledger.recorded) ∨
      ∃ key, key ∉ s.ledger.announced ∧ s'.ledger.announced = s.ledger.announced ++ [key] ∧
        s'.ledger.recorded = s.ledger.recorded ++ [key] := by
  cases h with
  | idle | service | discover | move | exportEvent | flush => exact Or.inl ⟨rfl, rfl⟩
  | @record index env candidate rest =>
    rcases recordCandidate_cases s.ledger candidate env with
      he | ⟨violations, outbox, hviolation, houtbox, hfree, he⟩
    · exact Or.inl ⟨congrArg Ledger.announced he, congrArg Ledger.recorded he⟩
    · refine Or.inr ⟨⟨candidate.commandId, candidate.actionId⟩, fun hmem => ?_,
        (congrArg Ledger.announced he).trans ?_, (congrArg Ledger.recorded he).trans ?_⟩
      · obtain ⟨row, hrow, hkey⟩ := List.mem_map.mp hmem
        exact hfree row hrow hkey
      · simp [Ledger.announced, (Table.insert?_eq_some_iff.mp houtbox).2, newOutbox]
      · simp [Ledger.recorded, (Table.insert?_eq_some_iff.mp hviolation).2, newViolation, InvariantViolation.pair]
  | claim owner limit now =>
    refine Or.inl ⟨Table.map_mapRows (fun row => ?_) fun row => ?_, rfl⟩
    all_goals split <;> rfl
  | @acknowledge _ pass rowId now =>
    refine Or.inl ?_
    change (acknowledge s.ledger pass.owner rowId now).announced = _ ∧
      (acknowledge s.ledger pass.owner rowId now).recorded = _
    rw [acknowledge]
    split
    · exact ⟨rfl, rfl⟩
    · exact ⟨Table.map_modify (by intro; rfl) (by intro; rfl), rfl⟩
  | @recordFailure _ pass rowId error now =>
    refine Or.inl ?_
    change (recordFailure s.ledger pass.owner rowId error now).announced = _ ∧
      (recordFailure s.ledger pass.owner rowId error now).recorded = _
    rw [recordFailure]
    split
    · exact ⟨rfl, rfl⟩
    · exact ⟨Table.map_modify (by intro; rfl) (by intro; rfl), rfl⟩

/-- **The ledger is sound** in every reachable state. -/
theorem ledger_sound (h : (audited T).Reachable s) : s.ledger.Sound := by
  have hinit : (audited T).init.ledger.Sound :=
    ⟨rfl, List.nodup_nil, fun id row hrow => by cases hrow⟩
  refine h.invariant (I := fun s => s.ledger.Sound) hinit fun s l s' _ hs hstep => ?_
  have hcases := auditStep_of_step hstep
  have hshaped : ∀ id row, s'.ledger.outbox.get? id = some row → row.Shaped := by
    intro id row hrow
    rcases outbox_cases hcases hrow with ⟨row₀, hold, hrowstep⟩ | ⟨_, _, _, _, _, rfl⟩
    · exact hrowstep.shaped (hs.shaped id row₀ hold)
    · exact ⟨rfl, fun hdone => absurd rfl hdone, fun hclaimed => absurd rfl hclaimed⟩
  rcases ledger_step hcases with ⟨hannounced, hrecorded⟩ | ⟨key, hnew, hannounced, hrecorded⟩
  · exact ⟨hannounced.trans (hs.lockstep.trans hrecorded.symm), hannounced ▸ hs.once, hshaped⟩
  · refine ⟨by rw [hannounced, hrecorded, hs.lockstep], ?_, hshaped⟩
    rw [hannounced, List.nodup_append]
    refine ⟨hs.once, List.nodup_singleton _, fun a ha b hb hab => hnew ?_⟩
    rw [List.mem_singleton] at hb
    exact hb ▸ hab ▸ ha

/-! ### The log -/

/-- What a stage says about the log. -/
def Stage.Shown (log : List Delivery) (index : ℕ) : Stage → Prop
  | .exported rowId => [Delivery.exported index rowId].Sublist log
  | .flushed rowId => [Delivery.exported index rowId, .flushed index rowId].Sublist log
  | .next | .looked _ | .failing _ _ => True

/-- **What a delivery has done so far** is in the log, in this order. -/
def Evidenced (s : Audit) : Prop :=
  ∀ (index : ℕ) (pass : Pass), s.passes[index]? = some pass → pass.stage.Shown s.log index

theorem Stage.Shown.append {log : List Delivery} {index : ℕ} {stage : Stage}
    (h : stage.Shown log index) (more : List Delivery) : stage.Shown (log ++ more) index := by
  cases stage with
  | exported | flushed => exact List.Sublist.trans h (List.sublist_append_left _ _)
  | next | looked | failing => trivial

/-- **The log bears out every delivery** in every reachable state. -/
theorem evidenced (h : (audited T).Reachable s) : Evidenced s := by
  have hinit : Evidenced (audited T).init := by
    intro index pass hpass
    cases hpass
  refine h.invariant (I := Evidenced) hinit fun s l s' _ hs hstep => ?_
  have hset (index : ℕ) (pass : Pass) (more : List Delivery)
      (hnew : pass.stage.Shown (s.log ++ more) index) : ∀ (index' : ℕ) (pass' : Pass),
      (s.passes.set index pass)[index']? = some pass' → pass'.stage.Shown (s.log ++ more) index' := by
    intro index' pass' hpass
    rcases getElem?_set_cases hpass with ⟨rfl, rfl⟩ | ⟨_, hold⟩
    · exact hnew
    · exact (hs index' pass' hold).append more
  cases auditStep_of_step hstep with
  | idle | service | discover | record => exact hs
  | claim owner limit now =>
    intro index pass hpass
    rcases getElem?_concat_cases hpass with rfl | hold
    · trivial
    · exact hs index pass hold
  | @move _ index pass stage pending _ quiet =>
    have hshown (index : ℕ) : stage.Shown (s.log ++ []) index := by
      cases stage with
      | exported rowId => exact absurd rfl (quiet rowId).1
      | flushed rowId => exact absurd rfl (quiet rowId).2
      | next | looked | failing => trivial
    simpa [Evidenced] using hset index { pass with pending := pending, stage := stage } []
      (hshown index)
  | exportEvent => exact hset _ _ _ (List.sublist_append_right _ _)
  | @flush index pass rowId call stage =>
    have hexported := hs index pass call
    rw [stage] at hexported
    exact hset _ _ _ (List.Sublist.append hexported (List.Sublist.refl _))
  | @acknowledge index pass | @recordFailure index pass =>
    simpa [Evidenced, Audit.advance] using hset index { pass with stage := .next } [] trivial

/-! ### One of each -/

/-- A pair that has an event has one violation and one event. -/
theorem Ledger.Sound.existsUnique (h : ledger.Sound) {key : EventKey}
    (hkey : key ∈ ledger.announced) : (∃! v, v ∈ ledger.violations ∧ v.pair = key) ∧
      ∃! row, row ∈ ledger.outbox ∧ row.eventKey = key := by
  constructor
  · rw [h.lockstep] at hkey
    obtain ⟨v, hv, hpair⟩ := List.mem_map.mp hkey
    refine ⟨v, ⟨hv, hpair⟩, fun v' hv' => ?_⟩
    exact List.inj_on_of_nodup_map h.once_recorded hv'.1 hv (hv'.2.trans hpair.symm)
  · obtain ⟨row, hrow, heq⟩ := List.mem_map.mp hkey
    refine ⟨row, ⟨hrow, heq⟩, fun row' hrow' => ?_⟩
    exact List.inj_on_of_nodup_map h.once hrow'.1 hrow (hrow'.2.trans heq.symm)

/-- After the transaction about a candidate its pair has an event, unless an id was taken. -/
theorem announced_recordCandidate (h : ledger.Sound) (candidate : ViolationCandidate) {env : Env}
    (hviolation : ∀ v ∈ ledger.violations, v.id ≠ env.uuid 0)
    (houtbox : ∀ row ∈ ledger.outbox, row.id ≠ env.uuid 1) :
    ⟨candidate.commandId, candidate.actionId⟩ ∈ (recordCandidate ledger candidate env).announced := by
  rw [recordCandidate]
  split
  · next v hv =>
    have hkey : (v.runId, v.commandId, v.actionId) =
        (candidate.runId, candidate.commandId, candidate.actionId) := Table.key_of_get? hv
    simp only [Prod.mk.injEq] at hkey
    rw [h.lockstep]
    exact List.mem_map.mpr ⟨v, Table.mem_of_get? hv, by rw [InvariantViolation.pair, hkey.2.1, hkey.2.2]⟩
  next hnone =>
  have hinsert : insertViolation? ledger (newViolation candidate env) ≠ none := by
    have hfree : ¬ ledger.violations.rows.any (·.id = (newViolation candidate env).id) = true := by
      rw [List.any_eq_true]
      rintro ⟨v, hv, hid⟩
      exact hviolation v hv (of_decide_eq_true hid)
    rw [insertViolation?, if_neg hfree, Table.exists_insert? hnone]
    exact Option.some_ne_none _
  split
  · next violations outbox _ hrow =>
    rw [insertOutbox?] at hrow
    split at hrow
    · cases hrow
    · have hnew := (Table.mem_of_insert? hrow).mpr (Or.inr rfl)
      exact List.mem_map.mpr ⟨_, hnew, rfl⟩
  next hnot =>
  -- Only the event can be there already.
  obtain ⟨violations, hsome⟩ := Option.ne_none_iff_exists'.mp hinsert
  cases hrow : insertOutbox? ledger (newOutbox candidate env) with
  | some outbox => exact absurd hrow (hnot violations outbox hsome)
  | none =>
    rw [insertOutbox?] at hrow
    split at hrow
    · next htaken =>
      obtain ⟨row, hmem, hkey⟩ := List.any_eq_true.mp htaken
      exact List.mem_map.mpr ⟨row, hmem, of_decide_eq_true hkey⟩
    · have hfree : ledger.outbox.get? (Keyed.key (newOutbox candidate env)) = none :=
        Table.get?_eq_none_iff.mpr houtbox
      rw [Table.exists_insert? hfree] at hrow
      cases hrow

/-! ### Never stuck -/

/-- An event that has not been delivered can be claimed once claim and back-off have run out. -/
theorem TelemetryOutbox.Shaped.claimable (h : row.Shaped) (hopen : row.deliveredAt = none)
    (hclaim : ∀ t ∈ row.claimExpiresAt, t ≤ now) (hbackoff : ∀ t ∈ row.nextAttemptAt, t ≤ now) :
    row.claimable now = true := by
  have hready : row.nextAttemptAt.all (fun t => t ≤ now) = true := by
    rw [Option.all_eq_true]
    exact fun t ht => decide_eq_true (hbackoff t ht)
  have hfree : (row.claimOwner.isNone || row.claimExpiresAt.any fun t => t ≤ now) = true := by
    cases howner : row.claimOwner with
    | none => rfl
    | some owner =>
      have hsome : row.claimExpiresAt.isSome = true := by rw [← h.claim, howner]; rfl
      obtain ⟨t, ht⟩ := Option.isSome_iff_exists.mp hsome
      rw [Bool.or_eq_true, Option.any_eq_true]
      exact Or.inr ⟨t, ht, decide_eq_true (hclaim t ht)⟩
  rw [TelemetryOutbox.claimable, hopen, hready, hfree]
  rfl

/-- A claim with room for all claimable rows gets every one of them. -/
theorem mem_pendingIds {limit : ℕ} (hrow : row ∈ ledger.outbox) (hclaimable : row.claimable now = true)
    (hlimit : ledger.outbox.rows.countP (·.claimable now) ≤ limit) :
    row.id ∈ pendingIds ledger limit now := by
  refine List.mem_map.mpr ⟨row, ?_, rfl⟩
  rw [List.take_of_length_le, List.mem_insertionSort, List.mem_filter]
  · exact ⟨hrow, hclaimable⟩
  · rw [List.length_insertionSort, ← List.countP_eq_length_filter]
    exact hlimit

/-! ### The law -/

/-- **What a step may do to the events.** -/
structure OutboxKept (s : Audit) (l : AuditLabel) (s' : Audit) : Prop where
  /-- An event stays, its attempts do not go down, and when it has been delivered nothing changes.
  It is marked as delivered by whoever holds it, after exporting and flushing it. -/
  rows : ∀ row ∈ s.ledger.outbox, ∃ row' ∈ s'.ledger.outbox, row'.id = row.id ∧
    row'.eventKey = row.eventKey ∧ row.attempts ≤ row'.attempts ∧
    (row.deliveredAt ≠ none → row' = row) ∧
    ∀ now, row.deliveredAt = none → row'.deliveredAt = some now → ∃ index pass,
      l = .acknowledge index now ∧ s.passes[index]? = some pass ∧
      row.claimOwner = some pass.owner ∧
      [Delivery.exported index row.id, .flushed index row.id].Sublist s.log
  /-- A new event has not been tried. -/
  added : ∀ row' ∈ s'.ledger.outbox, (∀ row ∈ s.ledger.outbox, row.id ≠ row'.id) →
    row'.deliveredAt = none ∧ row'.attempts = 0

theorem RowStep.delivering (h : RowStep s l row row') (hopen : row.deliveredAt = none)
    (hdone : row'.deliveredAt = some now) : ∃ index pass, l = .acknowledge index now ∧
      s.passes[index]? = some pass ∧ pass.stage = .flushed row.id ∧
      row.claimOwner = some pass.owner := by
  cases h with
  | same =>
    rw [hopen] at hdone
    cases hdone
  | claimed | failed =>
    rw [show row.deliveredAt = some now from hdone] at hopen
    cases hopen
  | @delivered index pass _ _ call stage held =>
    cases hdone
    rw [TelemetryOutbox.heldBy, Bool.and_eq_true, decide_eq_true_eq] at held
    exact ⟨index, pass, rfl, call, stage, held.2⟩

theorem outbox_kept (hs : (audited T).Reachable s) (hstep : (audited T).Step s l s') :
    OutboxKept s l s' := by
  have hcases := auditStep_of_step hstep
  refine ⟨fun row hrow => ?_, fun row' hrow' hnew => ?_⟩
  · obtain ⟨row', hrow', hrowstep⟩ := outbox_step hcases (Table.get?_of_mem hrow)
    refine ⟨row', Table.mem_of_get? hrow', hrowstep.id_eq, hrowstep.eventKey_eq,
      hrowstep.attempts_le, hrowstep.frozen, fun now hopen hdone => ?_⟩
    obtain ⟨index, pass, hlabel, hcall, hstage, howner⟩ := hrowstep.delivering hopen hdone
    have hshown := evidenced hs index pass hcall
    rw [hstage] at hshown
    exact ⟨index, pass, hlabel, hcall, howner, hshown⟩
  · rcases outbox_cases hcases (Table.get?_of_mem hrow') with
      ⟨row, hold, hrowstep⟩ | ⟨_, _, _, _, _, rfl⟩
    · exact absurd hrowstep.id_eq.symm (hnew row (Table.mem_of_get? hold))
    · exact ⟨rfl, rfl⟩

/-- Along a run events stay, and those that have been delivered stay as they are. -/
theorem outbox_run (hs : (audited T).Reachable s) (hrun : (audited T).Run s s')
    (hrow : row ∈ s.ledger.outbox) : ∃ row' ∈ s'.ledger.outbox, row'.id = row.id ∧
      row.attempts ≤ row'.attempts ∧ (row.deliveredAt ≠ none → row' = row) := by
  refine hrun.stable (Q := fun s' => ∃ row' ∈ s'.ledger.outbox, row'.id = row.id ∧
    row.attempts ≤ row'.attempts ∧ (row.deliveredAt ≠ none → row' = row)) hs
    ⟨row, hrow, rfl, le_rfl, fun _ => rfl⟩ fun s l s' hr hq hstep => ?_
  obtain ⟨row₁, hrow₁, hid, hle, hkept⟩ := hq
  obtain ⟨row₂, hrow₂, hid', _, hle', hkept', _⟩ := (outbox_kept hr hstep).rows row₁ hrow₁
  refine ⟨row₂, hrow₂, hid'.trans hid, hle.trans hle', fun hdone => ?_⟩
  obtain rfl := hkept hdone
  exact hkept' hdone

/-- **The outbox delivers at least once.** Whatever scans, deliveries and services do, in whatever
order: a pair has a violation exactly when it has an event, and no two of either; the transaction
about a candidate leaves one of each; no step takes an event away, lowers its attempts or touches it
once it has been delivered, and only the holder of its claim, after exporting and flushing it,
marks it as delivered; and an event that has not been delivered has the shape of a claim and can be
claimed, by anyone, as soon as its claim and its back-off have run out. -/
theorem at_least_once (hs : (audited (services cfg)).Reachable s) :
    (∀ key, (∃ v ∈ s.ledger.violations, v.pair = key) ↔
      ∃ row ∈ s.ledger.outbox, row.eventKey = key) ∧
    (∀ v ∈ s.ledger.violations, ∀ v' ∈ s.ledger.violations, v.pair = v'.pair → v = v') ∧
    (∀ row ∈ s.ledger.outbox, ∀ row' ∈ s.ledger.outbox, row.eventKey = row'.eventKey → row = row') ∧
    (∀ index env candidate rest s', s.scans[index]? = some (candidate :: rest) →
      (∀ v ∈ s.ledger.violations, v.id ≠ env.uuid 0) →
      (∀ row ∈ s.ledger.outbox, row.id ≠ env.uuid 1) →
      (audited (services cfg)).Step s (.record index env) s' →
      (∃! v, v ∈ s'.ledger.violations ∧ v.pair = ⟨candidate.commandId, candidate.actionId⟩) ∧
      ∃! row, row ∈ s'.ledger.outbox ∧
        row.eventKey = ⟨candidate.commandId, candidate.actionId⟩) ∧
    (∀ l s', (audited (services cfg)).Step s l s' → OutboxKept s l s') ∧
    (∀ s', (audited (services cfg)).Run s s' → ∀ row ∈ s.ledger.outbox, ∃ row' ∈ s'.ledger.outbox,
      row'.id = row.id ∧ row.attempts ≤ row'.attempts ∧ (row.deliveredAt ≠ none → row' = row)) ∧
    ∀ row ∈ s.ledger.outbox, row.deliveredAt = none →
      row.claimOwner.isSome = row.claimExpiresAt.isSome ∧
      ∀ now, (∀ t ∈ row.claimExpiresAt, t ≤ now) → (∀ t ∈ row.nextAttemptAt, t ≤ now) →
        row.claimable now = true ∧ ∀ owner limit,
          s.ledger.outbox.rows.countP (·.claimable now) ≤ limit →
          ∃ row' ∈ (claimPending s.ledger owner limit now).1.outbox,
            row'.id = row.id ∧ row'.claimOwner = some owner := by
  have hsound := ledger_sound hs
  refine ⟨fun key => ?_, fun v hv v' hv' => ?_, fun row hrow row' hrow' => ?_,
    fun index env candidate rest s' hscan hviolation houtbox hstep => ?_,
    fun l s' hstep => outbox_kept hs hstep, fun s' hrun row hrow => outbox_run hs hrun hrow,
    fun row hrow hopen => ?_⟩
  · have hmem : key ∈ s.ledger.recorded ↔ key ∈ s.ledger.announced := by rw [hsound.lockstep]
    simpa [Ledger.recorded, Ledger.announced] using hmem
  · exact List.inj_on_of_nodup_map hsound.once_recorded hv hv'
  · exact List.inj_on_of_nodup_map hsound.once hrow hrow'
  · have hledger : s'.ledger = recordCandidate s.ledger candidate env := by
      rw [← hstep.2]
      change (s.record index env ((s.scans[index]?).getD [])).ledger = _
      rw [hscan]
      rfl
    refine (ledger_sound (hs.step hstep)).existsUnique ?_
    rw [hledger]
    exact announced_recordCandidate hsound candidate hviolation houtbox
  · have hshaped := hsound.shaped row.id row (Table.get?_of_mem hrow)
    refine ⟨hshaped.claim, fun now hclaim hbackoff => ?_⟩
    have hclaimable := hshaped.claimable hopen hclaim hbackoff
    refine ⟨hclaimable, fun owner limit hlimit => ?_⟩
    have hmem := mem_pendingIds hrow hclaimable hlimit
    have hget : (claimPending s.ledger owner limit now).1.outbox.get? row.id =
        some (row.claimed owner now) := by
      rw [outbox_claimPending, show s.ledger.outbox.get? row.id = some row from
        Table.get?_of_mem hrow, Option.map_some, if_pos hmem]
    exact ⟨_, Table.mem_of_get? hget, rfl, rfl⟩

/-! ### A sample -/

/-- The root restarts postgres, and an operator cancels its run at the same reading of the clock. -/
def sampleFalseAlarm : List Label :=
  [.begin (.createRun
      { name := "sample", rootCapabilities := ["tool:read_metrics", "tool:restart_postgres"] })
      (sampleEnv 1 10), .finish 0 (sampleEnv 1 10),
    .call (.execute 11 10 { idempotencyKey := "first", toolName := "restart_postgres" })
      (sampleEnv 2 20),
    .call (.issueCommand
      { idempotencyKey := "stop", commandType := .cancelRun, targetNodeId := 11,
        reasonCode := "STOP", reasonText := "stop" } ⟨.human, none, none⟩ none) (sampleEnv 2 40)]

/-- Two deliveries of one event: `a` exports it and loses its claim, `b` delivers it, and then `a`
tries to. -/
def sampleDeliveries : List AuditLabel :=
  sampleFalseAlarm.map .service ++
  [.discover none, .record 0 (sampleEnv 3 50),
    .claim "a" 10 (seconds 4), .look 0, .exportEvent 0,
    .claim "b" 10 (seconds 40), .look 1, .exportEvent 1, .flush 1, .acknowledge 1 (seconds 41),
    .flush 0, .acknowledge 0 (seconds 42)]

/-- The state the deliveries lead to. -/
def sampleAudit : Audit :=
  (audited (services sampleConfig)).replay (audited (services sampleConfig)).init sampleDeliveries

theorem sampleAudit_reachable : (audited (services sampleConfig)).Reachable sampleAudit := by
  refine System.reachable_replay ?_
  simp only [sampleDeliveries, sampleFalseAlarm, List.map_cons, List.map_nil, List.cons_append,
    List.nil_append, System.Enabled, audited, services, and_self]

/-- The event was tried twice and delivered once, when `b` said so. -/
theorem at_least_once_sample :
    (sampleAudit.ledger.outbox.rows.map fun row => (row.attempts, row.deliveredAt)) =
      [(2, some (seconds 41))] ∧
    ∀ l s', (audited (services sampleConfig)).Step sampleAudit l s' → OutboxKept sampleAudit l s' :=
  ⟨by decide +kernel, (at_least_once sampleAudit_reachable).2.2.2.2.1⟩

end TraceFence
