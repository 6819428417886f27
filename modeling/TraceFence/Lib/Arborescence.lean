import TraceFence.Lib.Forest

/-!
# Trees given by their edges

A list of nodes and a list of edges can be drawn as one tree when all edges start and end at nodes,
no edge leads to the root, exactly one leads to every other node, and every node can be reached from
the root. Parent pointers that are defined on the nodes, and that go down in rank, give such a tree,
and its paths are the ancestries of the pointers.

## Main results

* `Arborescence.of_parent` — the tree of parent pointers
* `reflTransGen_edge_iff` — its paths
-/

open Relation Forest

variable {ι : Type} {nodes : Set ι} {edge : ι → ι → Prop} {parent : ι → Option ι} {root : ι}

/-- The nodes and the edges form one tree below `root`. -/
structure Arborescence (nodes : Set ι) (edge : ι → ι → Prop) (root : ι) : Prop where
  root_mem : root ∈ nodes
  source_mem : ∀ a b, edge a b → a ∈ nodes
  target_mem : ∀ a b, edge a b → b ∈ nodes
  not_to_root : ∀ a, ¬edge a root
  parent_unique : ∀ b ∈ nodes, b ≠ root → ∃! a, edge a b
  reach : ∀ b ∈ nodes, ReflTransGen edge root b

/-- The paths along the edges of parent pointers are ancestries. -/
theorem reflTransGen_edge_iff (hedge : ∀ a b, edge a b ↔ b ∈ nodes ∧ parent b = some a)
    (hclosed : ∀ b ∈ nodes, ∀ a, parent b = some a → a ∈ nodes) {a b : ι} (hb : b ∈ nodes) :
    ReflTransGen edge a b ↔ b = a ∨ Ancestor parent a b := by
  constructor
  · intro h
    induction h with
    | refl => exact Or.inl rfl
    | tail _ hlast ih =>
      obtain ⟨hmem, hparent⟩ := (hedge _ _).mp hlast
      refine Or.inr (ancestor_iff.mpr ⟨_, hparent, ih (hclosed _ hmem _ hparent)⟩)
  · rintro (rfl | h)
    · exact ReflTransGen.refl
    · induction h using TransGen.head_induction_on with
      | single hparent => exact ReflTransGen.single ((hedge _ _).mpr ⟨hb, hparent⟩)
      | head hparent _ ih =>
        exact (ih (hclosed _ hb _ hparent)).tail ((hedge _ _).mpr ⟨hb, hparent⟩)

/-- **The tree of parent pointers**, when only the root has none. -/
theorem Arborescence.of_parent (rank : ι → ℕ) (hroot : root ∈ nodes) (horphan : parent root = none)
    (hedge : ∀ a b, edge a b ↔ b ∈ nodes ∧ parent b = some a)
    (hclosed : ∀ b ∈ nodes, ∀ a, parent b = some a → a ∈ nodes ∧ rank a < rank b)
    (honly : ∀ b ∈ nodes, parent b = none → b = root) : Arborescence nodes edge root where
  root_mem := hroot
  source_mem a b hab := by
    obtain ⟨hb, hparent⟩ := (hedge a b).mp hab
    exact (hclosed b hb a hparent).1
  target_mem a b hab := ((hedge a b).mp hab).1
  not_to_root a hab := by
    have hparent := ((hedge a root).mp hab).2
    rw [horphan] at hparent
    cases hparent
  parent_unique b hb hne := by
    obtain ⟨a, ha⟩ := Option.ne_none_iff_exists'.mp fun hnone => hne (honly b hb hnone)
    refine ⟨a, (hedge a b).mpr ⟨hb, ha⟩, fun a' ha' => ?_⟩
    exact Option.some.inj (((hedge a' b).mp ha').2.symm.trans ha)
  reach b hb := by
    induction hrank : rank b using Nat.strong_induction_on generalizing b with
    | _ n ih =>
      subst hrank
      by_cases hne : b = root
      · rw [hne]
      · obtain ⟨a, ha⟩ := Option.ne_none_iff_exists'.mp fun hnone => hne (honly b hb hnone)
        obtain ⟨hmem, hlt⟩ := hclosed b hb a ha
        exact (ih _ hlt a hmem rfl).tail ((hedge a b).mpr ⟨hb, ha⟩)
