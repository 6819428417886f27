import Mathlib.Data.List.Nodup
import TraceFence.Lib.Forest
import TraceFence.Lib.Transition

/-!
# Delegated authority that can be cut

Agents take on other agents and so form a forest. An agent that is cut off loses its authority, and
so does everyone below it, for good. Only who has authority takes on others, or acts. This is all
that a system of delegated authority promises; how it finds out who has authority is another
matter, and a system that does this in its own way has to refine this machine.

## Main definitions

* `Delegation`, `Delegation.Authorized` — who is there, who was cut off, what was done; who may act
* `delegation` — the machine
* `Delegation.Sound` — its invariant
* `Delegation.Honours` — what a later state owes to an earlier one

## Main results

* `Delegation.sound` — the invariant in every reachable state
* `Delegation.honours` — nobody below a cut has joined or acted after it
-/

/-- A history of delegation: the agents with who took them on, the agents cut off, and the actions
with who took them, each in order. -/
structure Delegation (α κ : Type) where
  agents : List (α × Option α)
  cuts : List α
  acts : List (α × κ)
  deriving DecidableEq, Repr

namespace Delegation

variable {α κ : Type} [DecidableEq α]

/-- Something that happens. -/
inductive Event (α κ : Type)
  /-- An agent that nobody takes on. -/
  | found (a : α)
  /-- `a` takes on `b`. -/
  | delegate (a b : α)
  | cut (a : α)
  | act (a : α) (k : κ)

section Defs

variable (d : Delegation α κ)

def Known (a : α) : Prop := a ∈ d.agents.map (·.1)

/-- Who took on an agent. -/
def parent (a : α) : Option α := (d.agents.find? fun e => e.1 = a).bind (·.2)

/-- `b` is `a`, or below it. -/
def Below (a b : α) : Prop := b = a ∨ Forest.Ancestor d.parent a b

/-- **Who may act**: an agent that is not below a cut. -/
structure Authorized (a : α) : Prop where
  known : d.Known a
  uncut : ∀ c ∈ d.cuts, ¬ d.Below c a

def next : Event α κ → Delegation α κ
  | .found a => { d with agents := d.agents ++ [(a, none)] }
  | .delegate a b => { d with agents := d.agents ++ [(b, some a)] }
  | .cut a => { d with cuts := d.cuts ++ [a] }
  | .act a k => { d with acts := d.acts ++ [(a, k)] }

/-- When an event is possible. -/
def Possible : Event α κ → Prop
  | .found a => ¬ d.Known a
  | .delegate a b => d.Authorized a ∧ ¬ d.Known b
  | .cut a => d.Known a ∧ a ∉ d.cuts
  | .act a k => d.Authorized a ∧ k ∉ d.acts.map (·.2)

end Defs

/-- **The machine.** -/
def machine : System (Delegation α κ) (Event α κ) where
  init := ⟨[], [], []⟩
  next := next
  enabled := Possible

variable {d d' d'' : Delegation α κ} {a b c : α} {e : Event α κ}

/-! ### The invariant -/

/-- Everybody who is mentioned is known, and nothing is mentioned twice. -/
structure Sound (d : Delegation α κ) : Prop where
  agents : (d.agents.map (·.1)).Nodup
  parent : ∀ e ∈ d.agents, ∀ a, e.2 = some a → d.Known a
  cuts : d.cuts.Nodup
  cut : ∀ c ∈ d.cuts, d.Known c
  acts : (d.acts.map (·.2)).Nodup
  actor : ∀ e ∈ d.acts, d.Known e.1

omit [DecidableEq α] in
theorem known_next (h : d.Known a) : (d.next e).Known a := by
  cases e with
  | found | delegate =>
    rw [Known, next, List.map_append, List.mem_append]
    exact Or.inl h
  | cut | act => exact h

omit [DecidableEq α] in
theorem known_concat {p : Option α} :
    ({ d with agents := d.agents ++ [(b, p)] } : Delegation α κ).Known a ↔ d.Known a ∨ a = b := by
  simp [Known]

omit [DecidableEq α] in
/-- An agent that joins. -/
theorem Sound.join (h : d.Sound) (hb : ¬ d.Known b) {p : Option α} (hp : ∀ a, p = some a → d.Known a) :
    ({ d with agents := d.agents ++ [(b, p)] } : Delegation α κ).Sound where
  agents := by
    rw [List.map_append, List.map_singleton]
    refine List.Nodup.append h.agents (List.nodup_singleton b) ?_
    rw [List.disjoint_singleton]
    exact hb
  parent e he a ha := by
    refine known_concat.mpr (Or.inl ?_)
    rcases List.mem_append.mp he with he | he
    · exact h.parent e he a ha
    · obtain rfl := List.mem_singleton.mp he
      exact hp a ha
  cuts := h.cuts
  cut c hc := known_concat.mpr (Or.inl (h.cut c hc))
  acts := h.acts
  actor e he := known_concat.mpr (Or.inl (h.actor e he))

theorem Sound.next (h : d.Sound) (hp : d.Possible e) : (d.next e).Sound := by
  cases e with
  | found b =>
    refine h.join hp fun a ha => ?_
    cases ha
  | delegate a b =>
    refine h.join hp.2 fun a' ha => ?_
    obtain rfl := Option.some.inj ha
    exact hp.1.known
  | cut a =>
    refine ⟨h.agents, h.parent, ?_, fun c hc => ?_, h.acts, h.actor⟩
    · refine List.Nodup.append h.cuts (List.nodup_singleton a) ?_
      rw [List.disjoint_singleton]
      exact hp.2
    · rcases List.mem_append.mp hc with hc | hc
      · exact h.cut c hc
      · obtain rfl := List.mem_singleton.mp hc
        exact hp.1
  | act a k =>
    refine ⟨h.agents, h.parent, h.cuts, h.cut, ?_, fun e he => ?_⟩
    · change ((d.acts ++ [(a, k)]).map (·.2)).Nodup
      rw [List.map_append, List.map_singleton]
      refine List.Nodup.append h.acts (List.nodup_singleton k) ?_
      rw [List.disjoint_singleton]
      exact hp.2
    · rcases List.mem_append.mp he with he | he
      · exact h.actor e he
      · obtain rfl := List.mem_singleton.mp he
        exact hp.1.known

/-- **Every reachable history is sound.** -/
theorem sound (h : (machine (α := α) (κ := κ)).Reachable d) : d.Sound :=
  h.invariant ⟨List.nodup_nil, by simp [machine], List.nodup_nil, by simp [machine],
    List.nodup_nil, by simp [machine]⟩ fun s e s' _ hs hstep => by
      obtain ⟨hp, rfl⟩ := hstep
      exact hs.next hp

/-! ### Who is below whom -/

theorem parent_known (h : d.Sound) (hp : d.parent b = some a) : d.Known a := by
  obtain ⟨e, he, hparent⟩ := Option.bind_eq_some_iff.mp hp
  exact h.parent e (List.mem_of_find?_eq_some he) a hparent

theorem find?_of_known (hb : d.Known b) :
    ∃ e, d.agents.find? (fun e => e.1 = b) = some e := by
  obtain ⟨e, he, rfl⟩ := List.mem_map.mp hb
  exact Option.isSome_iff_exists.mp (List.find?_isSome.mpr ⟨e, he, decide_eq_true rfl⟩)

/-- An agent keeps its place when another joins. -/
theorem parent_concat {p : Option α} (hb : d.Known b) :
    ({ d with agents := d.agents ++ [(c, p)] } : Delegation α κ).parent b = d.parent b := by
  obtain ⟨e, he⟩ := find?_of_known hb
  rw [parent, parent, List.find?_append, he, Option.some_or]

/-- The agent that joins is where it is put. -/
theorem parent_join {p : Option α} (hb : ¬ d.Known b) :
    ({ d with agents := d.agents ++ [(b, p)] } : Delegation α κ).parent b = p := by
  have hnone : d.agents.find? (fun e => e.1 = b) = none := by
    refine List.find?_eq_none.mpr fun e he hid => hb ?_
    rw [← of_decide_eq_true hid]
    exact List.mem_map_of_mem he
  rw [parent, List.find?_append, hnone, Option.none_or, List.find?_singleton]
  simp

theorem parent_next (hb : d.Known b) : (d.next e).parent b = d.parent b := by
  cases e with
  | found | delegate => exact parent_concat hb
  | cut | act => rfl

/-- Who is above a known agent stays the same. -/
theorem below_next (h : d.Sound) (hb : d.Known b) : (d.next e).Below a b ↔ d.Below a b := by
  rw [Below, Below, Forest.ancestor_congr (fun _ _ _ hp => parent_known h hp)
    (fun _ hx => parent_next hx) hb]

/-- Who joins has above it who takes it on, and whoever is above that one. -/
theorem below_delegate (h : d.Sound) (hp : d.Possible (.delegate a b)) :
    (d.next (.delegate a b)).Below c b ↔ b = c ∨ d.Below c a := by
  rw [Below, Forest.ancestor_iff, ← below_next (e := .delegate a b) h hp.1.known]
  have hparent : (d.next (.delegate a b)).parent b = some a := parent_join hp.2
  simp only [hparent, Option.some.injEq, Below]
  constructor
  · rintro (hbc | ⟨p, rfl, hpc⟩)
    · exact Or.inl hbc
    · exact Or.inr hpc
  · rintro (hbc | hac)
    · exact Or.inl hbc
    · exact Or.inr ⟨a, rfl, hac⟩

theorem below_found (hb : ¬ d.Known b) : (d.next (.found b)).Below c b ↔ b = c := by
  rw [Below, Forest.ancestor_iff]
  have hparent : (d.next (.found b)).parent b = none := parent_join hb
  simp [hparent]

/-! ### Promises -/

/-- **What a later state owes to an earlier one.** -/
structure Honours (d d' : Delegation α κ) : Prop where
  known : ∀ a, d.Known a → d'.Known a
  cuts : d.cuts <+: d'.cuts
  below : ∀ a b, d.Known b → (d'.Below a b ↔ d.Below a b)
  /-- Nobody below a cut joins. -/
  joined : ∀ b, d'.Known b → ¬ d.Known b → ∀ c ∈ d.cuts, ¬ d'.Below c b
  /-- Nobody below a cut acts. -/
  acted : ∃ new, d'.acts = d.acts ++ new ∧ ∀ e ∈ new, ∀ c ∈ d.cuts, ¬ d'.Below c e.1

theorem Honours.refl : d.Honours d :=
  ⟨fun _ ha => ha, List.prefix_rfl, fun _ _ _ => Iff.rfl, fun _ hb hnew => absurd hb hnew,
    [], (List.append_nil _).symm, fun _ he => by cases he⟩

theorem Honours.trans (h : d.Honours d') (h' : d'.Honours d'') (hs : d'.Sound) : d.Honours d'' where
  known a ha := h'.known a (h.known a ha)
  cuts := h.cuts.trans h'.cuts
  below a b hb := (h'.below a b (h.known b hb)).trans (h.below a b hb)
  joined b hb hnew c hc := by
    by_cases hb' : d'.Known b
    · rw [h'.below c b hb']
      exact h.joined b hb' hnew c hc
    · exact h'.joined b hb hb' c (h.cuts.subset hc)
  acted := by
    obtain ⟨new, hnew, hacted⟩ := h.acted
    obtain ⟨new', hnew', hacted'⟩ := h'.acted
    refine ⟨new ++ new', by rw [hnew', hnew, List.append_assoc], fun e he c hc => ?_⟩
    rcases List.mem_append.mp he with he | he
    · have hactor : d'.Known e.1 := hs.actor e (hnew ▸ List.mem_append_right _ he)
      rw [h'.below c e.1 hactor]
      exact hacted e he c hc
    · exact hacted' e he c (h.cuts.subset hc)

/-- **One event honours what was there before it.** -/
theorem Sound.honours_next (h : d.Sound) (hp : d.Possible e) : d.Honours (d.next e) where
  known a ha := known_next ha
  cuts := by
    cases e with
    | found | delegate | act => exact List.prefix_rfl
    | cut => exact List.prefix_append _ _
  below a b hb := below_next h hb
  joined b hb hnew c hc := by
    cases e with
    | found a =>
      obtain rfl : b = a := (known_concat.mp hb).resolve_left hnew
      rw [below_found hnew]
      rintro rfl
      exact hnew (h.cut _ hc)
    | delegate a b' =>
      obtain rfl : b = b' := (known_concat.mp hb).resolve_left hnew
      rw [below_delegate h hp]
      rintro (rfl | hbelow)
      · exact hnew (h.cut _ hc)
      · exact hp.1.uncut c hc hbelow
    | cut | act => exact absurd hb hnew
  acted := by
    cases e with
    | found | delegate | cut => exact ⟨[], (List.append_nil _).symm, fun _ he => by cases he⟩
    | act a k =>
      refine ⟨[(a, k)], rfl, fun e he c hc => ?_⟩
      obtain rfl := List.mem_singleton.mp he
      exact hp.1.uncut c hc

/-- **A run honours what was there before it.** -/
theorem honours (h : d.Sound) (hrun : (machine (α := α) (κ := κ)).Run d d') : d.Honours d' := by
  suffices hall : d.Honours d' ∧ d'.Sound from hall.1
  induction hrun with
  | refl => exact ⟨.refl, h⟩
  | tail _ hstep ih =>
    obtain ⟨e, hp, rfl⟩ := hstep
    exact ⟨ih.1.trans (ih.2.honours_next hp) ih.2, ih.2.next hp⟩

end Delegation
