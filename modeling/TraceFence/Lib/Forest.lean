import Mathlib.Algebra.BigOperators.Group.Finset.Piecewise
import Mathlib.Algebra.Order.BigOperators.Group.Finset
import Mathlib.Logic.Relation

/-!
# Parent pointers

A forest given by parent pointers can be read three ways: by walking up from a node, by walking
down from a node through the inverse lists of children, and, when every node carries the path of
labels from its root, by looking a label up in that path. The three readings are related here for
arbitrary pointers as far as that is true, and for well-founded pointers where it is needed.

## Main definitions

* `Forest.Ancestor` — the transitive closure of the parent pointers
* `Forest.ascend` — the upward walk, with a visited set against cycles
* `Forest.descend` — the downward walk with a stack, with a visited set against cycles
* `Forest.PathLabelled` — every node carries the labels of its ancestors, root first

## Main results

* `Forest.ascend_eq_true_iff` — the upward walk decides ancestry for arbitrary pointers
* `Forest.mem_descend_iff`, `nodup_descend` — the downward walk lists what is reachable, once
* `Forest.PathLabelled.mem_path_iff` — the label of `a` is on the path of `x` exactly when `a` is
  `x` or an ancestor of `x`
-/

namespace Forest

open Relation

variable {ι κ α : Type}

/-- `a` is a proper ancestor of `x`: one or more parent links lead from `x` to `a`. -/
def Ancestor (parent : ι → Option ι) (a x : ι) : Prop :=
  TransGen (fun x p => parent x = some p) x a

theorem Ancestor.of_parent {parent : ι → Option ι} {x p : ι} (h : parent x = some p) :
    Ancestor parent p x := TransGen.single h

/-- The last link of an ancestry is the parent pointer of its lower end. -/
theorem ancestor_iff {parent : ι → Option ι} {a x : ι} :
    Ancestor parent a x ↔ ∃ p, parent x = some p ∧ (p = a ∨ Ancestor parent a p) := by
  constructor
  · intro h
    obtain ⟨p, hp, hpa⟩ := TransGen.head'_iff.mp h
    rcases reflTransGen_iff_eq_or_transGen.mp hpa with rfl | hpa
    · exact ⟨_, hp, Or.inl rfl⟩
    · exact ⟨p, hp, Or.inr hpa⟩
  · rintro ⟨p, hp, rfl | hpa⟩
    · exact TransGen.single hp
    · exact TransGen.head hp hpa

/-- Pointers that agree on everything above `x` put the same above it. -/
theorem ancestor_congr {parent parent' : ι → Option ι} {S : ι → Prop}
    (hclosed : ∀ x p, S x → parent x = some p → S p) (hagree : ∀ x, S x → parent' x = parent x)
    {a x : ι} (hx : S x) : Ancestor parent' a x ↔ Ancestor parent a x := by
  constructor
  · intro h
    induction h using TransGen.head_induction_on with
    | single hp => exact TransGen.single ((hagree _ hx).symm.trans hp)
    | head hp _ ih =>
      rw [hagree _ hx] at hp
      exact TransGen.head hp (ih (hclosed _ _ hx hp))
  · intro h
    induction h using TransGen.head_induction_on with
    | single hp => exact TransGen.single ((hagree _ hx).trans hp)
    | head hp _ ih => exact TransGen.head ((hagree _ hx).trans hp) (ih (hclosed _ _ hx hp))

/-- `n` parent links up from `x`. -/
def up (parent : ι → Option ι) : ℕ → ι → Option ι
  | 0, x => some x
  | n + 1, x => (parent x).bind (up parent n)

theorem up_add {parent : ι → Option ι} : ∀ (m n : ℕ) (x : ι),
    up parent (m + n) x = (up parent m x).bind (up parent n)
  | 0, n, x => by simp [up]
  | m + 1, n, x => by
    rw [Nat.succ_add, up, up, Option.bind_assoc]
    exact congrArg _ (funext fun p => up_add m n p)

theorem exists_up_of_ancestor {parent : ι → Option ι} {a x : ι} (h : Ancestor parent a x) :
    ∃ n, up parent (n + 1) x = some a := by
  induction h using TransGen.head_induction_on with
  | single hp => exact ⟨0, by simp [up, hp]⟩
  | head hp _ ih =>
    obtain ⟨n, hn⟩ := ih
    exact ⟨n + 1, by rw [up, hp, Option.bind_some, hn]⟩

/-! ### Walking up -/

section Ascend

variable [DecidableEq ι]

/-- Follow parent pointers from `x`, looking for `a`; stop at a node seen before. -/
def ascend (parent : ι → Option ι) (a : ι) : ℕ → List ι → ι → Bool
  | 0, _, _ => false
  | fuel + 1, visited, x =>
    if x ∈ visited then false
    else
      match parent x with
      | none => false
      | some p => if p = a then true else ascend parent a fuel (x :: visited) p

variable {parent : ι → Option ι} {a : ι}

theorem ancestor_of_ascend : ∀ {fuel : ℕ} {visited : List ι} {x : ι},
    ascend parent a fuel visited x = true → Ancestor parent a x
  | 0, _, _, h => by simp [ascend] at h
  | fuel + 1, visited, x, h => by
    rw [ascend] at h
    split at h
    · cases h
    · split at h
      · cases h
      · next p hp =>
        rw [ancestor_iff]
        refine ⟨p, hp, ?_⟩
        split at h
        · next hpa => exact Or.inl hpa
        · exact Or.inr (ancestor_of_ascend h)

/-- The walk meets `a` before it repeats a node. A repetition before the first visit of `a` would
make the walk periodic, so that it met `a` even earlier. -/
theorem ascend_of_up {dom : List ι} (hdom : ∀ x p, parent x = some p → x ∈ dom) :
    ∀ (fuel : ℕ) (visited : List ι) (x : ι) (n : ℕ),
      visited.Nodup → visited ⊆ dom → dom.length < fuel + visited.length →
      up parent (n + 1) x = some a → (∀ m < n, up parent (m + 1) x ≠ some a) →
      (∀ m ≤ n, ∀ y, up parent m x = some y → y ∉ visited) →
      ascend parent a fuel visited x = true
  | 0, visited, x, n, hnd, hsub, hfuel, _, _, _ => by
    have := (List.subperm_of_subset hnd hsub).length_le
    omega
  | fuel + 1, visited, x, n, hnd, hsub, hfuel, hup, hfirst, hfresh => by
    have hx : x ∉ visited := hfresh 0 (Nat.zero_le n) x rfl
    obtain ⟨p, hp, hpa⟩ : ∃ p, parent x = some p ∧ up parent n p = some a := by
      rw [up] at hup
      exact Option.bind_eq_some_iff.mp hup
    rw [ascend, if_neg hx, hp]
    dsimp only
    split
    · rfl
    · next hne =>
      cases n with
      | zero => simp [up] at hpa; exact absurd hpa hne
      | succ n =>
        have hlift : ∀ m, up parent m p = up parent (m + 1) x := by
          intro m
          rw [up, hp, Option.bind_some]
        refine ascend_of_up hdom fuel (x :: visited) p n (List.nodup_cons.mpr ⟨hx, hnd⟩)
          (List.cons_subset.mpr ⟨hdom x p hp, hsub⟩) (by simp only [List.length_cons]; omega)
          hpa (fun m hm => by rw [hlift]; exact hfirst (m + 1) (by omega)) ?_
        intro m hm y hy
        rw [hlift] at hy
        rw [List.mem_cons, not_or]
        refine ⟨?_, hfresh (m + 1) (by omega) y hy⟩
        rintro rfl
        -- the walk is back at its start after `m + 1` links
        refine hfirst (n - m) (by omega) ?_
        have hperiod : up parent (m + 1 + (n - m + 1)) y = up parent (n - m + 1) y := by
          rw [up_add, hy, Option.bind_some]
        rw [← hperiod, show m + 1 + (n - m + 1) = n + 1 + 1 by omega, hup]

/-- **The upward walk decides ancestry**, whatever the pointers, once it has one unit of fuel more
than there are nodes with a parent. -/
theorem ascend_eq_true_iff {dom : List ι} (hdom : ∀ x p, parent x = some p → x ∈ dom) {fuel : ℕ}
    (hfuel : dom.length < fuel) {x : ι} :
    ascend parent a fuel [] x = true ↔ Ancestor parent a x := by
  refine ⟨ancestor_of_ascend, fun h => ?_⟩
  have hex : ∃ n, up parent (n + 1) x = some a := exists_up_of_ancestor h
  classical
  exact ascend_of_up hdom fuel [] x (Nat.find hex) List.nodup_nil (List.nil_subset _)
    (by simpa using hfuel) (Nat.find_spec hex) (fun m hm => Nat.find_min hex hm)
    (fun _ _ _ _ => List.not_mem_nil)

end Ascend

/-! ### Walking down -/

section Descend

variable [DecidableEq ι]

/-- Pop a node, skip it if it was seen, otherwise list it and push its children. The last child
pushed is the first popped. -/
def descend (key : α → ι) (children : ι → List α) : ℕ → List α → List ι → List α
  | 0, _, _ => []
  | _ + 1, [], _ => []
  | fuel + 1, x :: stack, visited =>
    if key x ∈ visited then descend key children fuel stack visited
    else x :: descend key children fuel ((children (key x)).reverse ++ stack) (key x :: visited)

variable {key : α → ι} {children : ι → List α}

/-- `y` is below `x`: zero or more links down. -/
def Below (key : α → ι) (children : ι → List α) : α → α → Prop :=
  ReflTransGen fun x y => y ∈ children (key x)

theorem below_of_mem_descend : ∀ {fuel : ℕ} {stack : List α} {visited : List ι} {y : α},
    y ∈ descend key children fuel stack visited → ∃ x ∈ stack, Below key children x y
  | 0, _, _, _, h => by simp [descend] at h
  | _ + 1, [], _, _, h => by simp [descend] at h
  | fuel + 1, x :: stack, visited, y, h => by
    rw [descend] at h
    split at h
    · obtain ⟨z, hz, hzy⟩ := below_of_mem_descend h
      exact ⟨z, List.mem_cons_of_mem _ hz, hzy⟩
    · rcases List.mem_cons.mp h with rfl | h
      · exact ⟨y, List.mem_cons_self, ReflTransGen.refl⟩
      · obtain ⟨z, hz, hzy⟩ := below_of_mem_descend h
        rcases List.mem_append.mp hz with hz | hz
        · exact ⟨x, List.mem_cons_self, ReflTransGen.head (List.mem_reverse.mp hz) hzy⟩
        · exact ⟨z, List.mem_cons_of_mem _ hz, hzy⟩

theorem not_mem_visited_of_mem_descend : ∀ {fuel : ℕ} {stack : List α} {visited : List ι} {y : α},
    y ∈ descend key children fuel stack visited → key y ∉ visited
  | 0, _, _, _, h => by simp [descend] at h
  | _ + 1, [], _, _, h => by simp [descend] at h
  | fuel + 1, x :: stack, visited, y, h => by
    rw [descend] at h
    split at h
    · exact not_mem_visited_of_mem_descend h
    · next hx =>
      rcases List.mem_cons.mp h with rfl | h
      · exact hx
      · exact fun hy => not_mem_visited_of_mem_descend h (List.mem_cons_of_mem _ hy)

/-- The downward walk lists no node twice, whatever the pointers. -/
theorem nodup_descend : ∀ (fuel : ℕ) (stack : List α) (visited : List ι),
    ((descend key children fuel stack visited).map key).Nodup
  | 0, _, _ => by simp [descend]
  | _ + 1, [], _ => by simp [descend]
  | fuel + 1, x :: stack, visited => by
    rw [descend]
    split
    · exact nodup_descend fuel stack visited
    · rw [List.map_cons, List.nodup_cons]
      refine ⟨fun h => ?_, nodup_descend _ _ _⟩
      obtain ⟨y, hy, hk⟩ := List.mem_map.mp h
      exact not_mem_visited_of_mem_descend hy (hk ▸ List.mem_cons_self)

/-- Enough fuel for the walk: one unit for each entry on the stack and one for each child of a
node not yet seen. -/
def Fuelled (children : ι → List α) (dom : Finset ι) (fuel : ℕ) (stack : List α)
    (visited : List ι) : Prop :=
  stack.length + ∑ v ∈ dom \ visited.toFinset, (children v).length ≤ fuel

/-- Visiting `x` spends its stack entry and its own summand. -/
theorem Fuelled.visit {dom : Finset ι} {fuel : ℕ} {x : α} {stack : List α} {visited : List ι}
    (h : Fuelled children dom (fuel + 1) (x :: stack) visited) (hx : key x ∈ dom)
    (hv : key x ∉ visited) :
    Fuelled children dom fuel ((children (key x)).reverse ++ stack) (key x :: visited) := by
  have hmem : key x ∈ dom \ visited.toFinset := by simp [hx, hv]
  have hset : dom \ (key x :: visited).toFinset = (dom \ visited.toFinset).erase (key x) := by
    ext v
    simp only [Finset.mem_sdiff, List.mem_toFinset, List.mem_cons, not_or, Finset.mem_erase]
    exact ⟨fun h => ⟨h.2.1, h.1, h.2.2⟩, fun h => ⟨h.2.1, h.1, h.2.2⟩⟩
  have hsum := Finset.add_sum_erase _ (fun v => (children v).length) hmem
  unfold Fuelled at h ⊢
  rw [hset]
  simp only [List.length_cons, List.length_append, List.length_reverse] at h ⊢
  omega

theorem Fuelled.skip {dom : Finset ι} {fuel : ℕ} {x : α} {stack : List α} {visited : List ι}
    (h : Fuelled children dom (fuel + 1) (x :: stack) visited) :
    Fuelled children dom fuel stack visited := by
  unfold Fuelled at h ⊢
  simp only [List.length_cons] at h
  omega

/-- What was listed or seen is closed: it contains the stack, and the children of everything
listed. -/
theorem descend_closed {dom : Finset ι} (hdom : ∀ v, ∀ y ∈ children v, key y ∈ dom) :
    ∀ {fuel : ℕ} {stack : List α} {visited : List ι}, (∀ x ∈ stack, key x ∈ dom) →
      Fuelled children dom fuel stack visited →
      (∀ x ∈ stack, key x ∈ visited ∨
        key x ∈ (descend key children fuel stack visited).map key) ∧
      ∀ y ∈ descend key children fuel stack visited, ∀ z ∈ children (key y), key z ∈ visited ∨
        key z ∈ (descend key children fuel stack visited).map key
  | 0, stack, visited, _, hfuel => by
    have : stack = [] := List.length_eq_zero_iff.mp (by unfold Fuelled at hfuel; omega)
    subst this
    simp [descend]
  | _ + 1, [], _, _, _ => by simp [descend]
  | fuel + 1, x :: stack, visited, hstack, hfuel => by
    have hx : key x ∈ dom := hstack x List.mem_cons_self
    have hrest : ∀ z ∈ stack, key z ∈ dom := fun z hz => hstack z (List.mem_cons_of_mem _ hz)
    by_cases hv : key x ∈ visited
    · rw [descend, if_pos hv]
      obtain ⟨h₁, h₂⟩ := descend_closed hdom hrest hfuel.skip
      refine ⟨fun z hz => ?_, h₂⟩
      rcases List.mem_cons.mp hz with rfl | hz
      · exact Or.inl hv
      · exact h₁ z hz
    · rw [descend, if_neg hv]
      have hpush : ∀ z ∈ (children (key x)).reverse ++ stack, key z ∈ dom := by
        intro z hz
        rcases List.mem_append.mp hz with hz | hz
        · exact hdom _ z (List.mem_reverse.mp hz)
        · exact hrest z hz
      obtain ⟨h₁, h₂⟩ := descend_closed hdom hpush (hfuel.visit hx hv)
      -- moving `x` from the visited set to the front of the list
      have hmove : ∀ k, (k ∈ key x :: visited ∨ k ∈ (descend key children fuel
          ((children (key x)).reverse ++ stack) (key x :: visited)).map key) →
          k ∈ visited ∨ k ∈ (x :: descend key children fuel
            ((children (key x)).reverse ++ stack) (key x :: visited)).map key := by
        intro k hk
        simp only [List.map_cons, List.mem_cons] at hk ⊢
        tauto
      refine ⟨fun z hz => ?_, fun y hy z hz => ?_⟩
      · rcases List.mem_cons.mp hz with rfl | hz
        · exact Or.inr (by simp)
        · exact hmove _ (h₁ z (List.mem_append_right _ hz))
      · rcases List.mem_cons.mp hy with rfl | hy
        · exact hmove _ (h₁ z (List.mem_append_left _ (List.mem_reverse.mpr hz)))
        · exact hmove _ (h₂ y hy z hz)

/-- **The downward walk lists exactly what is below its start**, whatever the pointers, when keys
identify nodes. -/
theorem mem_descend_iff {nodes : List α} (hkey : ∀ y ∈ nodes, ∀ z ∈ nodes, key y = key z → y = z)
    (hnodes : ∀ v, ∀ y ∈ children v, y ∈ nodes) {x : α} (hx : x ∈ nodes) {fuel : ℕ}
    (hfuel : Fuelled children (nodes.map key).toFinset fuel [x] []) {y : α} :
    y ∈ descend key children fuel [x] [] ↔ Below key children x y := by
  constructor
  · intro h
    obtain ⟨z, hz, hzy⟩ := below_of_mem_descend h
    rw [List.mem_singleton] at hz
    exact hz ▸ hzy
  · intro h
    have hin : ∀ z ∈ nodes, key z ∈ (nodes.map key).toFinset := fun z hz =>
      List.mem_toFinset.mpr (List.mem_map_of_mem hz)
    obtain ⟨h₁, h₂⟩ := descend_closed (fun v y hy => hin y (hnodes v y hy))
      (by simpa using hin x hx) hfuel
    have hlisted : ∀ z ∈ nodes, key z ∈ (descend key children fuel [x] []).map key →
        z ∈ descend key children fuel [x] [] := by
      intro z hz hk
      obtain ⟨w, hw, hwz⟩ := List.mem_map.mp hk
      have hwn : w ∈ nodes := by
        obtain ⟨u, hu, hub⟩ := below_of_mem_descend hw
        rw [List.mem_singleton] at hu
        subst hu
        cases hub with
        | refl => exact hx
        | tail _ hl => exact hnodes _ _ hl
      rwa [← hkey w hwn z hz hwz]
    induction h with
    | refl => exact hlisted x hx (by simpa using h₁ x List.mem_cons_self)
    | tail _ hl ih =>
      exact hlisted _ (hnodes _ _ hl) (by simpa using h₂ _ ih _ hl)

/-- Children that are selected by their one parent pointer from a list are no more than the list:
one unit of fuel for each node, and one for the start, is enough. -/
theorem sum_children_le (parent : α → Option ι) (dom : Finset ι) (nodes : List α) :
    ∑ v ∈ dom, (nodes.filter fun y => parent y = some v).length ≤ nodes.length := by
  induction nodes with
  | nil => simp
  | cons x rest ih =>
    have hx : ∑ v ∈ dom, (if parent x = some v then 1 else 0) ≤ 1 := by
      cases parent x with
      | none => simp
      | some p =>
        simp only [Option.some.injEq, Finset.sum_ite_eq]
        split <;> omega
    have hsplit (v : ι) : ((x :: rest).filter fun y => parent y = some v).length =
        (rest.filter fun y => parent y = some v).length + if parent x = some v then 1 else 0 := by
      rw [List.filter_cons]
      by_cases hv : parent x = some v <;> simp [hv]
    simp only [hsplit, Finset.sum_add_distrib, List.length_cons]
    omega

end Descend

/-! ### Paths of labels -/

/-- On `dom`, parent pointers are well founded by a rank, every node has a label of its own, and
carries the labels of its ancestors, root first, after a common prefix. -/
structure PathLabelled (dom : ι → Prop) (parent : ι → Option ι) (own : ι → κ) (path : ι → List κ)
    (pre : List κ) (rank : ι → ℕ) : Prop where
  /-- A root carries the prefix and its own label. -/
  root : ∀ x, dom x → parent x = none → path x = pre ++ [own x]
  /-- A child extends its parent's path by its own label. -/
  child : ∀ x p, dom x → parent x = some p → dom p ∧ path x = path p ++ [own x]
  /-- Links go down in rank. -/
  rank_lt : ∀ x p, dom x → parent x = some p → rank p < rank x
  /-- Labels identify nodes. -/
  own_inj : ∀ x y, dom x → dom y → own x = own y → x = y
  /-- No node's label is in the prefix. -/
  own_not_pre : ∀ x, dom x → own x ∉ pre

namespace PathLabelled

variable {dom : ι → Prop} {parent : ι → Option ι} {own : ι → κ} {path : ι → List κ}
  {pre : List κ} {rank : ι → ℕ}

/-- Induction along the parent pointers. -/
theorem induction (h : PathLabelled dom parent own path pre rank) {motive : ι → Prop}
    (root : ∀ x, dom x → parent x = none → motive x)
    (child : ∀ x p, dom x → parent x = some p → motive p → motive x) (x : ι) (hx : dom x) :
    motive x := by
  induction hr : rank x using Nat.strong_induction_on generalizing x with
  | _ n ih =>
    subst hr
    cases hp : parent x with
    | none => exact root x hx hp
    | some p => exact child x p hx hp (ih _ (h.rank_lt x p hx hp) p (h.child x p hx hp).1 rfl)

theorem rank_lt_of_ancestor (h : PathLabelled dom parent own path pre rank) {a x : ι} (hx : dom x)
    (ha : Ancestor parent a x) : rank a < rank x := by
  induction ha using TransGen.head_induction_on with
  | single hp => exact h.rank_lt _ _ hx hp
  | head hp _ ih => exact (ih (h.child _ _ hx hp).1).trans (h.rank_lt _ _ hx hp)

/-- **Path membership is ancestry.** -/
theorem mem_path_iff (h : PathLabelled dom parent own path pre rank) {a x : ι} (ha : dom a)
    (hx : dom x) : own a ∈ path x ↔ x = a ∨ Ancestor parent a x := by
  refine h.induction (motive := fun x => own a ∈ path x ↔ x = a ∨ Ancestor parent a x)
    ?_ ?_ x hx
  · intro x hx hp
    have hno : ¬ Ancestor parent a x := by
      rw [ancestor_iff, hp]
      simp
    rw [h.root x hx hp, List.mem_append, List.mem_singleton, or_iff_left hno]
    exact ⟨fun hm => hm.elim (fun hm => absurd hm (h.own_not_pre a ha))
      fun he => (h.own_inj a x ha hx he).symm, fun he => Or.inr (he ▸ rfl)⟩
  · intro x p hx hp ih
    rw [(h.child x p hx hp).2, List.mem_append, List.mem_singleton, ih, ancestor_iff (x := x), hp]
    constructor
    · rintro (hm | he)
      · exact Or.inr ⟨p, rfl, hm⟩
      · exact Or.inl (h.own_inj a x ha hx he).symm
    · rintro (rfl | ⟨q, hq, hm⟩)
      · exact Or.inr rfl
      · cases hq
        exact Or.inl hm

/-- The prefix is on every path, and nothing else of the prefix's kind gets in. -/
theorem pre_subset_path (h : PathLabelled dom parent own path pre rank) {x : ι} (hx : dom x) :
    pre ⊆ path x := by
  refine h.induction (motive := fun x => pre ⊆ path x) ?_ ?_ x hx
  · intro x hx hp
    rw [h.root x hx hp]
    exact List.subset_append_left _ _
  · intro x p hx hp ih
    rw [(h.child x p hx hp).2]
    exact fun k hk => List.mem_append_left _ (ih hk)

/-- No label is repeated on a path. -/
theorem nodup_path (h : PathLabelled dom parent own path pre rank) (hpre : pre.Nodup) {x : ι}
    (hx : dom x) : (path x).Nodup := by
  refine h.induction (motive := fun x => (path x).Nodup) ?_ ?_ x hx
  · intro x hx hp
    rw [h.root x hx hp]
    exact List.nodup_append.mpr ⟨hpre, List.nodup_singleton _, by
      intro k hk l hl hkl
      rw [List.mem_singleton] at hl
      exact h.own_not_pre x hx (hl ▸ hkl ▸ hk)⟩
  · intro x p hx hp ih
    rw [(h.child x p hx hp).2]
    refine List.nodup_append.mpr ⟨ih, List.nodup_singleton _, ?_⟩
    intro k hk l hl hkl
    rw [List.mem_singleton] at hl
    subst hl
    subst hkl
    -- `x` would be its own ancestor
    rcases (h.mem_path_iff hx (h.child x p hx hp).1).mp hk with he | ha
    · exact absurd (he ▸ h.rank_lt x p hx hp) (lt_irrefl _)
    · exact absurd (h.rank_lt_of_ancestor (h.child x p hx hp).1 ha)
        (not_lt.mpr (h.rank_lt x p hx hp).le)

end PathLabelled

end Forest
