import Mathlib.Data.Nat.Notation
import Mathlib.Logic.Relation

/-!
# Transition systems

A system is a start state, a total `next` function and a predicate saying which labels are
enabled in which states. Narrowing the predicate gives the same machine under an additional
discipline (a clock that never goes back, callers that avoid a hazard), so an assumption about a
run is a `restrict`ed system rather than a hypothesis threaded through every lemma.

## Main results

* `System.Reachable.invariant` — what holds initially and survives every step holds everywhere
* `System.Run.stable` — what a step cannot undo stays true along a run
* `System.Reachable.of_restrict`, `Run.of_restrict` — a disciplined run is a run
* `System.Run.stable_restrict` — the stability rule for a discipline that begins with the run
* `System.reachable_replay` — replaying enabled labels stays inside the reachable states
* `getElem?_set_cases`, `getElem?_concat_cases` — one party moves, or joins, among the others
* `countP_set_add` — how a move changes the number of parties of a kind
-/

/-- A labelled machine with a start state. -/
structure System (σ ι : Type) where
  /-- The start state. -/
  init : σ
  /-- What a label does to a state. -/
  next : σ → ι → σ
  /-- Which labels may fire. -/
  enabled : σ → ι → Prop

namespace System

variable {σ ι : Type} (T : System σ ι)

/-- One step under label `l`. -/
def Step (s : σ) (l : ι) (s' : σ) : Prop := T.enabled s l ∧ T.next s l = s'

/-- Any finite number of steps. -/
def Run : σ → σ → Prop := Relation.ReflTransGen fun s s' => ∃ l, T.Step s l s'

/-- The states some run leads to. -/
def Reachable (s : σ) : Prop := T.Run T.init s

/-- The same machine, firing only labels that also satisfy `P`. -/
def restrict (P : σ → ι → Prop) : System σ ι :=
  { T with enabled := fun s l => T.enabled s l ∧ P s l }

variable {T} {P : σ → ι → Prop} {s s' : σ} {l : ι}

theorem Run.refl : T.Run s s := Relation.ReflTransGen.refl

theorem Run.tail {s'' : σ} (h : T.Run s s') (hs : T.Step s' l s'') : T.Run s s'' :=
  Relation.ReflTransGen.tail h ⟨l, hs⟩

theorem Run.trans {s'' : σ} (h : T.Run s s') (h' : T.Run s' s'') : T.Run s s'' :=
  Relation.ReflTransGen.trans h h'

theorem Reachable.init : T.Reachable T.init := Run.refl

theorem Reachable.step (h : T.Reachable s) (hs : T.Step s l s') : T.Reachable s' :=
  Run.tail h hs

theorem Reachable.run (h : T.Reachable s) (hr : T.Run s s') : T.Reachable s' :=
  Run.trans h hr

/-- **The invariant rule.** The step obligation may assume that the state it leaves is
reachable. -/
theorem Reachable.invariant {I : σ → Prop} (h : T.Reachable s) (hinit : I T.init)
    (hstep : ∀ s l s', T.Reachable s → I s → T.Step s l s' → I s') : I s := by
  induction h with
  | refl => exact hinit
  | tail hr hs ih =>
    obtain ⟨l, hl⟩ := hs
    exact hstep _ l _ hr ih hl

/-- **The stability rule.** What no step out of a reachable state undoes stays true along every
later run. -/
theorem Run.stable {Q : σ → Prop} (h : T.Run s s') (hr : T.Reachable s) (hq : Q s)
    (hstep : ∀ s l s', T.Reachable s → Q s → T.Step s l s' → Q s') : Q s' := by
  induction h with
  | refl => exact hq
  | tail hrun hs ih =>
    obtain ⟨l, hl⟩ := hs
    exact hstep _ l _ (hr.run hrun) ih hl

/-! ### Disciplines -/

theorem restrict_step_iff : (T.restrict P).Step s l s' ↔ T.Step s l s' ∧ P s l :=
  ⟨fun h => ⟨⟨h.1.1, h.2⟩, h.1.2⟩, fun h => ⟨⟨h.1.1, h.2⟩, h.1.2⟩⟩

/-- Two disciplines are one. -/
theorem restrict_restrict {Q : σ → ι → Prop} :
    (T.restrict P).restrict Q = T.restrict fun s l => P s l ∧ Q s l := by
  simp [restrict, and_assoc]

theorem Run.of_restrict (h : (T.restrict P).Run s s') : T.Run s s' := by
  induction h with
  | refl => exact Run.refl
  | tail _ hs ih =>
    obtain ⟨l, hl⟩ := hs
    exact ih.tail (restrict_step_iff.mp hl).1

theorem Reachable.of_restrict (h : (T.restrict P).Reachable s) : T.Reachable s :=
  Run.of_restrict h

/-- The stability rule for a discipline that begins with the run. -/
theorem Run.stable_restrict {Q : σ → Prop} (h : (T.restrict P).Run s s') (hr : T.Reachable s)
    (hq : Q s) (hstep : ∀ r l r', T.Run s r → T.Reachable r → Q r → T.Step r l r' → P r l → Q r') :
    Q s' := by
  induction h with
  | refl => exact hq
  | tail hrun hs ih =>
    obtain ⟨l, hl⟩ := hs
    obtain ⟨hstep', hP⟩ := restrict_step_iff.mp hl
    have hrun' := Run.of_restrict hrun
    exact hstep _ l _ hrun' (hr.run hrun') ih hstep' hP

/-! ### Replaying labels -/

variable (T)

/-- The state after firing a list of labels. -/
def replay (s : σ) (ls : List ι) : σ := ls.foldl T.next s

/-- Every label of the list is enabled when its turn comes. -/
def Enabled : σ → List ι → Prop
  | _, [] => True
  | s, l :: ls => T.enabled s l ∧ Enabled (T.next s l) ls

variable {T}

theorem run_replay : ∀ {ls : List ι} {s : σ}, T.Enabled s ls → T.Run s (T.replay s ls)
  | [], _, _ => Run.refl
  | _ :: _, _, h => Relation.ReflTransGen.head ⟨_, h.1, rfl⟩ (run_replay h.2)

theorem reachable_replay {ls : List ι} (h : T.Enabled T.init ls) :
    T.Reachable (T.replay T.init ls) := run_replay h

end System

/-! ### Parties -/

section Parties

variable {α : Type} {parties : List α} {a b : α} {i j : ℕ}

/-- When one of several parties moves, the others are as they were. -/
theorem getElem?_set_cases (h : (parties.set i a)[j]? = some b) :
    (j = i ∧ b = a) ∨ (j ≠ i ∧ parties[j]? = some b) := by
  rw [List.getElem?_set] at h
  split at h
  · next he =>
    split at h
    · exact Or.inl ⟨he.symm, (Option.some.inj h).symm⟩
    · cases h
  · next hne => exact Or.inr ⟨fun he => hne he.symm, h⟩

/-- When a party joins, the others are as they were. -/
theorem getElem?_concat_cases (h : (parties ++ [a])[j]? = some b) :
    b = a ∨ parties[j]? = some b := by
  rw [List.getElem?_append] at h
  split at h
  · exact Or.inr h
  · exact Or.inl (List.mem_singleton.mp (List.mem_of_getElem? h))

theorem toNat_eq_ite (p : Bool) : p.toNat = if p = true then 1 else 0 := by
  cases p <;> rfl

/-- The number of parties of a kind, when one moves. -/
theorem countP_set_add (p : α → Bool) (h : parties[i]? = some b) :
    (parties.set i a).countP p + (p b).toNat = parties.countP p + (p a).toNat := by
  obtain ⟨hi, rfl⟩ := List.getElem?_eq_some_iff.mp h
  have hle : (p parties[i]).toNat ≤ parties.countP p := by
    by_cases hb : p parties[i] = true
    · rw [hb]
      exact List.countP_pos_iff.mpr ⟨_, List.getElem_mem hi, hb⟩
    · simp [hb]
  rw [List.countP_set hi]
  simp only [toNat_eq_ite] at hle ⊢
  omega

end Parties
