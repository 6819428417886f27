import Mathlib.Data.List.Basic
import Mathlib.Data.List.Dedup
import Mathlib.Data.List.Infix
import Mathlib.Data.List.Nodup
import Mathlib.Data.List.Perm.Subperm

/-!
# File trees

Files, directories and symbolic links at locations, a location being the names on the way to it
from the root. A link leads to a location in which no name is a link.

## Main definitions

* `FileTree.resolve` — where a location leads to, over links
* `FileTree.file?` — the contents of the file a location leads to
* `FileTree.put`, `FileTree.makeDirectories` — writing
* `FileTree.Physical`, `FileTree.Sound` — locations without links, and trees as they are on disks

## Main results

* `FileTree.resolve_physical`, `FileTree.physical_resolve` — resolving ends at a location without
  links, and leaves it alone
* `FileTree.exists_free` — among enough names one is free
-/

abbrev Location := List String

inductive FileNode
  | file (content : ByteArray)
  | directory
  | link (target : Location)

/-- The nodes of a tree; of two at one location the first counts. -/
structure FileTree where
  nodes : List (Location × FileNode)

namespace FileTree

/-- What is at a location, itself. -/
def node (t : FileTree) (l : Location) : Option FileNode := t.nodes.lookup l

/-- Where the link at a location leads to, if there is one. -/
def link? (t : FileTree) (l : Location) : Option Location :=
  match t.node l with
  | some (.link target) => some target
  | _ => none

/-- One name further, over a link. -/
def step (t : FileTree) (l : Location) (name : String) : Location :=
  if name = ".." then l.dropLast else (t.link? (l ++ [name])).getD (l ++ [name])

/-- Where a location leads to. -/
def resolve (t : FileTree) (l : Location) : Location := l.foldl t.step []

/-- Whether a location leads to something. -/
def isThere (t : FileTree) (l : Location) : Bool := (t.node (t.resolve l)).isSome

/-- The contents of the file that a location leads to. -/
def file? (t : FileTree) (l : Location) : Option ByteArray :=
  match t.node (t.resolve l) with
  | some (.file content) => some content
  | _ => none

theorem file?_of_node {t : FileTree} {l : Location} {content : Option ByteArray}
    (h : t.node (t.resolve l) = content.map .file) : t.file? l = content := by
  rw [file?, h]
  cases content <;> rfl

/-- A node in the place of what is at a location. -/
def put (t : FileTree) (l : Location) (node : FileNode) : FileTree := ⟨(l, node) :: t.nodes⟩

/-- The directories along a location, made where they are missing. -/
def makeDirectories (t : FileTree) (base : Location) : List String → Option FileTree
  | [] => some t
  | name :: names =>
    match t.node (t.resolve (base ++ [name])) with
    | none => (t.put (t.resolve (base ++ [name])) .directory).makeDirectories (base ++ [name]) names
    | some .directory => t.makeDirectories (base ++ [name]) names
    | some _ => none

/-- The names of the files in a directory. -/
def fileNames (t : FileTree) (l : Location) : List String :=
  (t.nodes.filterMap fun n =>
    match n.1.getLast? with
    | some name => if n.1 = l ++ [name] ∧ (t.file? (l ++ [name])).isSome then some name else none
    | none => none).dedup

variable {t t' : FileTree} {l l' : Location} {node : FileNode} {name : String}

theorem node_put : (t.put l node).node l' = if l' = l then some node else t.node l' := by
  unfold FileTree.node put
  rw [List.lookup_cons]
  by_cases h : l' = l
  · rw [beq_iff_eq.mpr h, if_pos h]
  · rw [beq_false_of_ne h, if_neg h]

/-! ### Links -/

theorem resolve_concat (t : FileTree) (l : Location) (name : String) :
    t.resolve (l ++ [name]) = t.step (t.resolve l) name := by
  rw [resolve, List.foldl_append]
  rfl

/-- Where locations lead to depends on the links only. -/
theorem resolve_congr (h : t'.link? = t.link?) : t'.resolve = t.resolve := by
  funext l
  have hstep : t'.step = t.step := by
    funext l name
    rw [step, step, h]
  rw [resolve, resolve, hstep]

/-- Writing where there is no link changes no link. -/
theorem link?_put (hold : t.link? l = none) (hnew : ∀ target, node ≠ .link target) :
    (t.put l node).link? = t.link? := by
  funext l'
  rw [link?, node_put]
  by_cases h : l' = l
  · rw [if_pos h, h, hold]
    cases node with
    | link target => exact absurd rfl (hnew target)
    | _ => rfl
  · rw [if_neg h, link?]

/-- No name of a location is a link or leads back. -/
def Physical (t : FileTree) (l : Location) : Prop :=
  ∀ before name, before ++ [name] <+: l → name ≠ ".." ∧ t.link? (before ++ [name]) = none

theorem Physical.nil : t.Physical [] := by
  intro before name h
  exact absurd (List.prefix_nil.mp h) (by simp)

theorem Physical.of_prefix (h : t.Physical l) (hl : l' <+: l) : t.Physical l' :=
  fun before name hbefore => h before name (hbefore.trans hl)

theorem Physical.concat (h : t.Physical l) (hname : name ≠ "..") (hlink : t.link? (l ++ [name]) = none) :
    t.Physical (l ++ [name]) := by
  intro before name' hbefore
  rcases List.prefix_concat_iff.mp hbefore with heq | hprefix
  · obtain ⟨rfl, hsame⟩ := List.append_inj' heq rfl
    obtain rfl := List.singleton_inj.mp hsame
    exact ⟨hname, hlink⟩
  · exact h before name' hprefix

theorem Physical.congr (h : t.Physical l) (hlink : t'.link? = t.link?) : t'.Physical l := by
  intro before name hbefore
  rw [hlink]
  exact h before name hbefore

/-- A tree as it is on a disk: links lead to places that are there, over no other links, and what is
in a directory is in a directory. -/
structure Sound (t : FileTree) : Prop where
  root : t.node [] = some .directory
  physical : ∀ l target, t.link? l = some target → t.Physical target
  there : ∀ l target, t.link? l = some target → (t.node target).isSome
  parent : ∀ l name node, t.node (l ++ [name]) = some node → t.node l = some .directory

/-- Resolving leaves a location without links alone. -/
theorem resolve_physical (h : t.Physical l) : t.resolve l = l := by
  induction l using List.reverseRecOn with
  | nil => rfl
  | append_singleton l name ih =>
    obtain ⟨hname, hlink⟩ := h l name List.prefix_rfl
    rw [resolve_concat, ih (h.of_prefix (List.prefix_append _ _)), step, if_neg hname, hlink]
    rfl

/-- Resolving ends at a location without links. -/
theorem physical_resolve (ht : t.Sound) (l : Location) : t.Physical (t.resolve l) := by
  induction l using List.reverseRecOn with
  | nil => exact .nil
  | append_singleton l name ih =>
    rw [resolve_concat, step]
    split
    · exact ih.of_prefix (List.dropLast_prefix _)
    · next hname =>
      cases hlink : t.link? (t.resolve l ++ [name]) with
      | some target => exact ht.physical _ target hlink
      | none => exact ih.concat hname hlink

/-! ### Free names -/

/-- What a location without links leads to is what is there. -/
theorem isThere_concat (ht : t.Sound) (hname : name ≠ "..") :
    t.isThere (l ++ [name]) = (t.node (t.resolve l ++ [name])).isSome := by
  rw [isThere, resolve_concat, step, if_neg hname]
  cases hlink : t.link? (t.resolve l ++ [name]) with
  | none => rfl
  | some target =>
    rw [Option.getD_some, ht.there _ target hlink]
    unfold link? at hlink
    split at hlink
    · next hnode =>
      rw [hnode]
      rfl
    · cases hlink

/-- **Among enough names one is free.** -/
theorem exists_free (ht : t.Sound) {names : ℕ → String} (hnames : Function.Injective names)
    (hback : ∀ n, names n ≠ "..") (l : Location) :
    ∃ n < t.nodes.length + 1, t.isThere (l ++ [names n]) = false := by
  by_contra hnone
  have htaken : ∀ n < t.nodes.length + 1, t.resolve l ++ [names n] ∈ t.nodes.map Prod.fst := by
    intro n hn
    by_contra hfree
    refine hnone ⟨n, hn, ?_⟩
    rw [isThere_concat ht (hback n), Option.isSome_eq_false_iff, Option.isNone_iff_eq_none, FileTree.node,
      List.lookup_eq_none_iff]
    intro p hp
    rw [bne_iff_ne]
    rintro heq
    exact hfree (List.mem_map.mpr ⟨p, hp, heq.symm⟩)
  have hnodup : ((List.range (t.nodes.length + 1)).map fun n => t.resolve l ++ [names n]).Nodup := by
    refine List.Nodup.map (fun n n' heq => hnames ?_) List.nodup_range
    exact List.singleton_inj.mp (List.append_cancel_left heq)
  have hsub : ((List.range (t.nodes.length + 1)).map fun n => t.resolve l ++ [names n]) ⊆
      t.nodes.map Prod.fst := by
    intro k hk
    obtain ⟨n, hn, rfl⟩ := List.mem_map.mp hk
    exact htaken n (List.mem_range.mp hn)
  have hlength := (List.Nodup.subperm hnodup hsub).length_le
  simp only [List.length_map, List.length_range] at hlength
  omega

/-! ### Directories -/

/-- All that a location goes through are directories. -/
def Passable (t : FileTree) (l : Location) : Prop :=
  ∀ before, before <+: l → before ≠ [] → t.node (t.resolve before) = some .directory

theorem Passable.nil : t.Passable [] := by
  intro before hbefore hne
  exact absurd (List.prefix_nil.mp hbefore) hne

theorem Passable.concat (h : t.Passable l)
    (hnode : t.node (t.resolve (l ++ [name])) = some .directory) : t.Passable (l ++ [name]) := by
  intro before hbefore hne
  rcases List.prefix_concat_iff.mp hbefore with rfl | hprefix
  · exact hnode
  · exact h before hprefix hne

/-- A passable location ends in a directory. -/
theorem Passable.directory (h : t.Passable l) (ht : t.Sound) :
    t.node (t.resolve l) = some .directory := by
  by_cases hl : l = []
  · rw [hl]
    exact ht.root
  · exact h l List.prefix_rfl hl

/-- Writing elsewhere than at directories keeps a location passable. -/
theorem Passable.put (h : t.Passable l) (hlink : (t.put l' node).link? = t.link?)
    (hnode : t.node l' ≠ some .directory) : (t.put l' node).Passable l := by
  intro before hbefore hne
  have hdirectory := h before hbefore hne
  rw [resolve_congr hlink, node_put, if_neg]
  · exact hdirectory
  · rintro heq
    exact hnode (heq ▸ hdirectory)

theorem link?_of_none (h : t.node l = none) : t.link? l = none := by
  rw [link?, h]

/-- A directory where nothing was is no link. -/
theorem link?_put_directory (h : t.node l = none) : (t.put l .directory).link? = t.link? :=
  link?_put (link?_of_none h) (by simp)

/-- Nothing is below a location where nothing is. -/
theorem Sound.none_below (ht : t.Sound) (h : t.node l = none) (name : String) :
    t.node (l ++ [name]) = none := by
  cases hbelow : t.node (l ++ [name]) with
  | none => rfl
  | some node => rw [ht.parent l name node hbelow] at h; cases h

/-- Below a location where nothing is no name is a link. -/
theorem Sound.foldl_step (ht : t.Sound) (h : t.node l = none) {names : List String}
    (hback : ".." ∉ names) : names.foldl t.step l = l ++ names := by
  induction names generalizing l with
  | nil => rw [List.append_nil, List.foldl_nil]
  | cons name names ih =>
    rw [List.mem_cons, not_or] at hback
    have hstep : t.step l name = l ++ [name] := by
      rw [step, if_neg (Ne.symm hback.1), link?_of_none (ht.none_below h name), Option.getD_none]
    rw [List.foldl_cons, hstep, ih (ht.none_below h name) hback.2, List.append_assoc]
    rfl

/-- A directory can be made in a directory. -/
theorem Sound.put_directory (ht : t.Sound) (h : t.node (l ++ [name]) = none)
    (hl : t.node l = some .directory) : (t.put (l ++ [name]) .directory).Sound := by
  have hlink := link?_put_directory h
  refine ⟨?_, fun l' target htarget => ?_, fun l' target htarget => ?_, fun l' name' node hnode => ?_⟩
  · rw [node_put, if_neg (by simp)]
    exact ht.root
  · rw [hlink] at htarget
    intro before name' hbefore
    rw [hlink]
    exact ht.physical l' target htarget before name' hbefore
  · rw [hlink] at htarget
    rw [node_put]
    split
    · rfl
    · exact ht.there l' target htarget
  · rw [node_put] at hnode ⊢
    split at hnode
    · next heq =>
      obtain rfl := List.append_inj_left' heq rfl
      rw [if_neg (by simp)]
      exact hl
    · split
      · rfl
      · exact ht.parent l' name' node hnode

/-- Where directories are missing a location is not over links. -/
theorem Sound.resolve_concat_of_none (ht : t.Sound) (hname : name ≠ "..")
    (h : t.node (t.resolve (l ++ [name])) = none) :
    t.resolve (l ++ [name]) = t.resolve l ++ [name] := by
  rw [resolve_concat, step, if_neg hname] at h ⊢
  cases hlink : t.link? (t.resolve l ++ [name]) with
  | none => rfl
  | some target =>
    rw [hlink, Option.getD_some] at h
    have hthere := ht.there _ target hlink
    rw [h] at hthere
    cases hthere

/-- **Making directories** along a passable location and further. What is made is on the way to
where the location leads to. -/
theorem makeDirectories_spec {base : Location} {names : List String} (ht : t.Sound)
    (hbase : t.Passable base) (hback : ".." ∉ names)
    (h : t.makeDirectories base names = some t') :
    t'.Sound ∧ t'.Passable (base ++ names) ∧ t'.link? = t.link? ∧
      ∀ l, t'.node l = t.node l ∨
        t.node l = none ∧ t'.node l = some .directory ∧ l <+: t.resolve (base ++ names) := by
  induction names generalizing t base with
  | nil =>
    obtain rfl := Option.some.inj h
    rw [List.append_nil]
    exact ⟨ht, hbase, rfl, fun l => .inl rfl⟩
  | cons name names ih =>
    rw [List.mem_cons, not_or] at hback
    rw [makeDirectories] at h
    rw [← List.singleton_append, ← List.append_assoc]
    split at h
    · next hnone =>
      have hresolve := ht.resolve_concat_of_none (Ne.symm hback.1) hnone
      have hlink := link?_put_directory hnone
      have hsound : (t.put (t.resolve (base ++ [name])) .directory).Sound := by
        rw [hresolve] at hnone ⊢
        exact ht.put_directory hnone (hbase.directory ht)
      have hpassable := (hbase.put hlink (by rw [hnone]; simp)).concat
        (by rw [resolve_congr hlink, node_put, if_pos rfl])
      obtain ⟨hsound', hpassable', hlink', hnodes⟩ := ih hsound hpassable hback.2 h
      refine ⟨hsound', hpassable', hlink'.trans hlink, fun l => ?_⟩
      rw [resolve_congr hlink] at hnodes
      rcases hnodes l with hsame | ⟨hprior, hdirectory, hprefix⟩
      · rw [node_put] at hsame
        split at hsame
        · next hl =>
          refine .inr ⟨hl ▸ hnone, hsame, ?_⟩
          have hbelow : t.resolve (base ++ [name] ++ names) = t.resolve (base ++ [name]) ++ names := by
            rw [resolve, List.foldl_append]
            exact ht.foldl_step hnone hback.2
          rw [hl, hbelow]
          exact List.prefix_append _ _
        · exact .inl hsame
      · rw [node_put] at hprior
        split at hprior
        · cases hprior
        · exact .inr ⟨hprior, hdirectory, hprefix⟩
    · next hdirectory => exact ih ht (hbase.concat hdirectory) hback.2 h
    · cases h

/-- Along a passable location nothing is to be made. -/
theorem makeDirectories_of_passable {base : Location} {names : List String}
    (h : t.Passable (base ++ names)) : t.makeDirectories base names = some t := by
  induction names generalizing base with
  | nil => rfl
  | cons name names ih =>
    rw [← List.singleton_append, ← List.append_assoc] at h
    rw [makeDirectories, h (base ++ [name]) (List.prefix_append _ _) (by simp)]
    exact ih h

theorem mem_fileNames : name ∈ t.fileNames l ↔
    (t.file? (l ++ [name])).isSome ∧ (t.node (l ++ [name])).isSome := by
  rw [fileNames, List.mem_dedup, List.mem_filterMap]
  constructor
  · rintro ⟨n, hn, hname⟩
    split at hname
    · split at hname
      · next last _ hmatch =>
        obtain rfl := Option.some.inj hname
        refine ⟨hmatch.2, ?_⟩
        rw [FileTree.node, ← hmatch.1, List.lookup_isSome_iff]
        exact ⟨n, hn, beq_self_eq_true _⟩
      · cases hname
    · cases hname
  · rintro ⟨hfile, hnode⟩
    rw [FileTree.node, List.lookup_isSome_iff] at hnode
    obtain ⟨n, hn, heq⟩ := hnode
    have hl : n.1 = l ++ [name] := (beq_iff_eq.mp heq).symm
    refine ⟨n, hn, ?_⟩
    rw [hl, List.getLast?_concat]
    exact if_pos ⟨rfl, hfile⟩

end FileTree
