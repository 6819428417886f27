import TraceFence.Lib.Loop
import TraceFence.Registry.Lineage

/-!
# The walks over parent pointers as loops

`is_descendant` climbs the parent pointers with a set of visited nodes, `descendants_including_self`
takes nodes from a stack and pushes their children. The registry may be corrupt: pointers may lead
in circles, to the node they start from, to a node of another run or to none. Here the two bodies
of the loops are written out, so that whether the loops end is a question about them, and not one
about the fuel of the functions that the rest of the development reasons with.

## Main definitions

* `climb`, `visit` — the bodies of the two loops
* `isDescendantWithin`, `descendantsWithin` — the two walks, given up after a number of rounds

## Main results

* `graph_walks` — the walks end on every registry, and agree
-/

namespace TraceFence

open Forest Relation

variable {db : Database} {runId a : Id}

/-! ### The loops -/

/-- The body of the loop of `is_descendant`, over `visited` and `current_id`. -/
def climb (db : Database) (runId ancestorNodeId : Id) :
    List Id × Option Id → (List Id × Option Id) ⊕ Bool
  | (_, none) => .inr false
  | (visited, some currentId) =>
    if currentId ∈ visited then .inr false
    else
      match db.nodes.get? currentId with
      | none => .inr false
      | some node =>
        if node.runId ≠ runId then .inr false
        else if node.parentId = some ancestorNodeId then .inr true
        else .inl (currentId :: visited, node.parentId)

/-- `is_descendant`, given up after so many rounds of its loop. -/
def isDescendantWithin (db : Database) (runId ancestorNodeId targetNodeId : Id) (rounds : ℕ) :
    Option Bool :=
  if ancestorNodeId = targetNodeId then some false
  else Loop.run (climb db runId ancestorNodeId) rounds ([], some targetNodeId)

/-- The body of the loop of `descendants_including_self`, over `result`, `stack` and `visited`.
The top of the stack is its head. -/
def visit (nodes : List Node) :
    List Node × List Node × List Id → (List Node × List Node × List Id) ⊕ List Node
  | (result, [], _) => .inr result
  | (result, node :: stack, visited) =>
    if node.id ∈ visited then .inl (result, stack, visited)
    else
      let children := nodes.filter fun child => child.parentId = some node.id
      .inl (result ++ [node], children.reverse ++ stack, node.id :: visited)

/-- `descendants_including_self`, given up after so many rounds of its loop. -/
def descendantsWithin (db : Database) (runId rootNodeId : Id) (registeredBefore : Option Time)
    (rounds : ℕ) : Option (List Node) :=
  let nodes := registeredNodes db runId registeredBefore
  match nodes.find? fun node => node.id = rootNodeId with
  | none => some []
  | some root => Loop.run (visit nodes) rounds ([], [root], [])

/-! ### The loop of the climb -/

/-- What the loop returns is what the fuelled walk does. -/
theorem isDescendantLoop_of_run {fuel : ℕ} {visited : List Id} {current : Option Id} {b : Bool}
    (h : Loop.run (climb db runId a) fuel (visited, current) = some b) :
    isDescendantLoop db runId a fuel visited current = b := by
  induction fuel generalizing visited current with
  | zero => cases h
  | succ fuel ih =>
    cases current with
    | none =>
      have hreturn : climb db runId a (visited, none) = .inr false := rfl
      rw [Loop.run_return hreturn] at h
      rw [isDescendantLoop]
      exact Option.some.inj h
    | some currentId =>
      rw [Loop.run, climb] at h
      rw [isDescendantLoop]
      by_cases hv : currentId ∈ visited
      · rw [if_pos hv] at h ⊢
        exact Option.some.inj h
      rw [if_neg hv] at h ⊢
      cases hget : db.nodes.get? currentId with
      | none =>
        rw [hget] at h
        exact Option.some.inj h
      | some node =>
        rw [hget] at h
        dsimp only at h ⊢
        split_ifs at h ⊢ with hrun hparent
        · exact Option.some.inj h
        · exact Option.some.inj h
        · exact ih h

/-- The nodes the climb has not visited. -/
def unvisited (db : Database) (visited : List Id) : ℕ :=
  db.nodes.rows.countP fun node => node.id ∉ visited

/-- Every round that goes on visits a node for the first time. -/
theorem unvisited_climb {s s' : List Id × Option Id} (h : climb db runId a s = .inl s') :
    unvisited db s'.1 < unvisited db s.1 := by
  obtain ⟨visited, current⟩ := s
  cases current with
  | none => cases h
  | some currentId =>
    rw [climb] at h
    by_cases hv : currentId ∈ visited
    · rw [if_pos hv] at h
      cases h
    rw [if_neg hv] at h
    cases hget : db.nodes.get? currentId with
    | none =>
      rw [hget] at h
      cases h
    | some node =>
      rw [hget] at h
      dsimp only at h
      split_ifs at h with hrun hparent
      cases h
      have hid : node.id = currentId := Table.key_of_get? hget
      have hmono (rows : List Node) : rows.countP (fun n => n.id ∉ currentId :: visited) ≤
          rows.countP fun n => n.id ∉ visited := by
        refine List.countP_mono_left fun n _ hn => ?_
        rw [decide_eq_true_eq] at hn ⊢
        exact fun hmem => hn (List.mem_cons_of_mem _ hmem)
      obtain ⟨before, after, hrows⟩ := List.append_of_mem (Table.mem_of_get? hget)
      have hbefore := hmono before
      have hafter := hmono after
      show unvisited db (currentId :: visited) < unvisited db visited
      simp only [unvisited, hrows, List.countP_append, List.countP_cons, hid, List.mem_cons_self,
        not_true_eq_false, decide_false, hv, not_false_eq_true, decide_true]
      simp only [Bool.false_eq_true, if_false, if_true]
      omega

/-- **`is_descendant` ends** after no more rounds than there are nodes, and one. -/
theorem isDescendantWithin_eq (t : Id) {rounds : ℕ} (hrounds : db.nodes.rows.length < rounds) :
    isDescendantWithin db runId a t rounds = some (isDescendant db runId a t) := by
  rw [isDescendantWithin, isDescendant]
  split_ifs with h
  · rfl
  have hstart : unvisited db [] < db.nodes.rows.length + 1 :=
    Nat.lt_succ_of_le (List.countP_le_length ..)
  obtain ⟨b, hb⟩ := Loop.exists_run (fun s => unvisited db s.1)
    (fun s s' (h : climb db runId a s = .inl s') => unvisited_climb h) (s := ([], some t)) hstart
  rw [isDescendantLoop_of_run hb]
  exact Loop.run_mono hb hrounds

/-! ### The loop of the descent -/

/-- A stack that the fuel covers is worked off, and one round finds it empty. -/
theorem run_visit {nodes : List Node} {dom : Finset Id} (hdom : ∀ n ∈ nodes, n.id ∈ dom)
    {fuel : ℕ} {stack : List Node} {visited : List Id} (hstack : ∀ n ∈ stack, n.id ∈ dom)
    (hfuel : Fuelled (childrenIn nodes) dom fuel stack visited) (result : List Node) :
    Loop.run (visit nodes) (fuel + 1) (result, stack, visited) =
      some (result ++ descendantsLoop nodes fuel stack visited) := by
  have hreturn (result : List Node) (visited : List Id) :
      visit nodes (result, [], visited) = .inr result := rfl
  induction fuel generalizing stack visited result with
  | zero =>
    obtain rfl : stack = [] := List.length_eq_zero_iff.mp (by unfold Fuelled at hfuel; omega)
    rw [Loop.run_return (hreturn ..), descendantsLoop, List.append_nil]
  | succ fuel ih =>
    cases stack with
    | nil => rw [Loop.run_return (hreturn ..), descendantsLoop, List.append_nil]
    | cons node stack =>
      have hnode : node.id ∈ dom := hstack node List.mem_cons_self
      have hrest : ∀ n ∈ stack, n.id ∈ dom := fun n hn => hstack n (List.mem_cons_of_mem _ hn)
      rw [descendantsLoop]
      by_cases hv : node.id ∈ visited
      · rw [if_pos hv, Loop.run_continue (by rw [visit, if_pos hv])]
        exact ih hrest hfuel.skip result
      · rw [if_neg hv, Loop.run_continue (by rw [visit, if_neg hv])]
        have hpush : ∀ n ∈ (childrenIn nodes node.id).reverse ++ stack, n.id ∈ dom := by
          intro n hn
          rcases List.mem_append.mp hn with hn | hn
          · exact hdom n (List.mem_of_mem_filter (List.mem_reverse.mp hn))
          · exact hrest n hn
        have h := ih hpush (hfuel.visit hnode hv) (result ++ [node])
        rw [List.append_assoc] at h
        exact h

/-- **`descendants_including_self` ends** after no more rounds than there are nodes, and two. -/
theorem descendantsWithin_eq (before : Option Time) {rounds : ℕ}
    (hrounds : db.nodes.rows.length + 2 ≤ rounds) :
    descendantsWithin db runId a before rounds =
      some (descendantsIncludingSelf db runId a before) := by
  rw [descendantsWithin, descendantsIncludingSelf]
  cases hroot : (registeredNodes db runId before).find? fun node => node.id = a with
  | none => rfl
  | some root =>
    have hmem := List.mem_of_find?_eq_some hroot
    have hdom : ∀ n ∈ registeredNodes db runId before,
        n.id ∈ ((registeredNodes db runId before).map Node.id).toFinset := fun n hn =>
      List.mem_toFinset.mpr (List.mem_map_of_mem hn)
    have hlength : (registeredNodes db runId before).length ≤ db.nodes.rows.length :=
      List.length_filter_le ..
    have hrun := run_visit hdom (fun n hn => List.mem_singleton.mp hn ▸ hdom root hmem)
      (fuelled_registeredNodes root) []
    exact Loop.run_mono hrun (by omega)

theorem nodup_descendants (before : Option Time) :
    ((descendantsIncludingSelf db runId a before).map (·.id)).Nodup := by
  rw [descendantsIncludingSelf]
  split
  · exact List.nodup_nil
  · rw [descendantsLoop_eq]
    exact nodup_descend ..

/-! ### Agreement -/

/-- Only nodes of the run have a parent by the pointers of the run. -/
theorem exists_registered {x p : Id} (h : runParent db runId x = some p) :
    ∃ n ∈ registeredNodes db runId none, n.id = x := by
  obtain ⟨n, hn, hp⟩ := Option.bind_eq_some_iff.mp h
  obtain rfl : n.id = x := Table.key_of_get? hn
  have hrun : n.runId = runId := by
    by_contra hne
    rw [if_neg hne] at hp
    cases hp
  exact ⟨n, mem_registeredNodes.mpr ⟨hn, hrun, fun _ ht => absurd ht (Option.not_mem_none _)⟩, rfl⟩

/-- Down from a node of the run is up to it. -/
theorem below_iff_climbs {r n : Node} (hr : r ∈ registeredNodes db runId none) :
    Below Node.id (childrenIn (registeredNodes db runId none)) r n ↔
      n ∈ registeredNodes db runId none ∧ (n = r ∨ Ancestor (runParent db runId) r.id n.id) := by
  -- a link of the descent is a link of the climb
  have hlink {m : Node} {p : Id} : m ∈ registeredNodes db runId none ∧ m.parentId = some p ↔
      m ∈ registeredNodes db runId none ∧ runParent db runId m.id = some p := by
    refine and_congr_right fun hm => ?_
    obtain ⟨hget, hrun, _⟩ := mem_registeredNodes.mp hm
    simp [runParent, hget, hrun]
  constructor
  · intro h
    induction h with
    | refl => exact ⟨hr, Or.inl rfl⟩
    | tail _ hl ih =>
      obtain ⟨hmem, hparent⟩ := hlink.mp (mem_childrenIn.mp hl)
      refine ⟨hmem, Or.inr (ancestor_iff.mpr ⟨_, hparent, ?_⟩)⟩
      exact ih.2.imp (congrArg Node.id) id
  · rintro ⟨hn, rfl | h⟩
    · exact ReflTransGen.refl
    suffices hclimb : ∀ y, Ancestor (runParent db runId) r.id y →
        ∀ m ∈ registeredNodes db runId none, m.id = y →
          Below Node.id (childrenIn (registeredNodes db runId none)) r m from
      hclimb n.id h n hn rfl
    intro y hy
    induction hy using TransGen.head_induction_on with
    | single hp =>
      rintro m hm rfl
      exact ReflTransGen.single (mem_childrenIn.mpr (hlink.mpr ⟨hm, hp⟩))
    | @head y p hp hrest ih =>
      rintro m hm rfl
      -- the climb goes on from `p`, so `p` is a node of the run
      obtain ⟨q, hq, _⟩ := ancestor_iff.mp hrest
      obtain ⟨k, hk, rfl⟩ := exists_registered hq
      exact (ih k hk rfl).tail (mem_childrenIn.mpr (hlink.mpr ⟨hm, hp⟩))

/-- The two walks agree for an ancestor of the run. -/
theorem isDescendant_iff_mem_descendants {r : Node} (hr : r ∈ registeredNodes db runId none)
    (t : Id) : isDescendant db runId r.id t = true ↔
      t ≠ r.id ∧ t ∈ (descendantsIncludingSelf db runId r.id).map (·.id) := by
  rw [isDescendant_iff_climbs, List.mem_map]
  refine and_congr_right fun hne => ?_
  constructor
  · intro h
    obtain ⟨p, hp, _⟩ := ancestor_iff.mp h
    obtain ⟨n, hn, rfl⟩ := exists_registered hp
    exact ⟨n, mem_descendants_iff_below.mpr
      ⟨r, hr, rfl, (below_iff_climbs hr).mpr ⟨hn, Or.inr h⟩⟩, rfl⟩
  · rintro ⟨n, hn, rfl⟩
    obtain ⟨r', hr', hid, hbelow⟩ := mem_descendants_iff_below.mp hn
    obtain rfl := eq_of_id_eq hr' hr hid
    rcases ((below_iff_climbs hr).mp hbelow).2 with rfl | h
    · exact absurd rfl hne
    · exact h

/-- **Graph walks.** Whatever the parent pointers of the registry, both walks end: `is_descendant`
within one round more than there are nodes, `descendants_including_self` within two. The latter
lists no node twice, and for a node of the run both say the same about every node. -/
theorem graph_walks (db : Database) (runId : Id) :
    (∀ a t rounds, db.nodes.rows.length + 1 ≤ rounds →
      isDescendantWithin db runId a t rounds = some (isDescendant db runId a t)) ∧
    (∀ root before rounds, db.nodes.rows.length + 2 ≤ rounds →
      descendantsWithin db runId root before rounds =
        some (descendantsIncludingSelf db runId root before)) ∧
    (∀ root before, ((descendantsIncludingSelf db runId root before).map (·.id)).Nodup) ∧
    ∀ a ∈ registeredNodes db runId none, ∀ t, isDescendant db runId a.id t = true ↔
      t ≠ a.id ∧ t ∈ (descendantsIncludingSelf db runId a.id).map (·.id) :=
  ⟨fun _ t _ => isDescendantWithin_eq t, fun _ before _ => descendantsWithin_eq before,
    fun _ before => nodup_descendants before,
    fun _ ha t => isDescendant_iff_mem_descendants ha t⟩

/-- A node with a parent pointer. -/
def linkedNode (id runId : Id) (parentId : Option Id) : Node where
  id := id
  runId := runId
  parentId := parentId
  role := "worker"
  behavior := "cooperative"
  generation := 1
  lineagePath := []
  status := .active
  ownScopeId := 100 + id
  scopeSnapshot := []
  instructionVersion := 1
  instruction := .obj []
  capabilities := []
  registeredAt := 0

/-- A registry in which 1, 2 and 3 are a circle with a tail, 4 is its own parent, the parent of 5
does not exist, and 7 hangs by 6, which is of another run. -/
def corruptRegistry : Database :=
  { Database.empty with
    nodes := ⟨[linkedNode 1 10 (some 2), linkedNode 2 10 (some 1), linkedNode 3 10 (some 2),
      linkedNode 4 10 (some 4), linkedNode 5 10 (some 9), linkedNode 6 11 (some 1),
      linkedNode 7 10 (some 6)], by decide⟩ }

theorem graph_walks_sample :
    isDescendantWithin corruptRegistry 10 1 3 8 = some true ∧
      descendantsWithin corruptRegistry 10 1 none 9 =
        some (descendantsIncludingSelf corruptRegistry 10 1) ∧
      (7 ≠ 1 ∧ 7 ∈ (descendantsIncludingSelf corruptRegistry 10 1).map (·.id) ↔
        isDescendant corruptRegistry 10 1 7 = true) := by
  obtain ⟨hclimb, hdescend, -, hagree⟩ := graph_walks corruptRegistry 10
  refine ⟨?_, hdescend 1 none 9 (by decide), (hagree (linkedNode 1 10 (some 2)) ?_ 7).symm⟩
  · rw [hclimb 1 3 8 (by decide)]
    decide
  · exact List.mem_filter.mpr ⟨List.mem_cons_self, by decide⟩

end TraceFence
