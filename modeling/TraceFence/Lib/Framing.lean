import Mathlib.Data.List.Basic
import Mathlib.Data.List.Induction

/-!
# Fields with a separator between them

Fields are put one after the other with a separator between them. When no field has the separator
in it, they can be told apart. One field may have it, if it is known which: those before it end
where they do from the front, and those behind it from the back.

## Main results

* `Framing.first_inj`, `Framing.last_inj` — the first and the last field of two
* `Framing.intercalate_inj` — all fields, of which one is free
-/

namespace Framing

variable {α : Type} {sep : α} {a a' b b' : List α}

/-- A first field without the separator ends at the first separator. -/
theorem first_inj (ha : sep ∉ a) (ha' : sep ∉ a') (h : a ++ sep :: b = a' ++ sep :: b') :
    a = a' ∧ b = b' := by
  induction a generalizing a' with
  | nil =>
    cases a' with
    | nil => exact ⟨rfl, (List.cons.inj h).2⟩
    | cons x a' =>
      have hx : sep = x := (List.cons.inj h).1
      exact absurd (hx ▸ List.mem_cons_self) ha'
  | cons x a ih =>
    cases a' with
    | nil =>
      have hx : x = sep := (List.cons.inj h).1
      exact absurd (hx ▸ List.mem_cons_self) ha
    | cons x' a' =>
      obtain ⟨rfl, htail⟩ := List.cons.inj h
      obtain ⟨rfl, rfl⟩ := ih (fun hm => ha (List.mem_cons_of_mem _ hm))
        (fun hm => ha' (List.mem_cons_of_mem _ hm)) htail
      exact ⟨rfl, rfl⟩

/-- A last field without the separator begins at the last separator. -/
theorem last_inj (hb : sep ∉ b) (hb' : sep ∉ b') (h : a ++ sep :: b = a' ++ sep :: b') :
    a = a' ∧ b = b' := by
  have hreverse := congrArg List.reverse h
  rw [List.reverse_append, List.reverse_append, List.reverse_cons, List.reverse_cons,
    List.append_assoc, List.append_assoc, List.singleton_append, List.singleton_append] at hreverse
  obtain ⟨hbb, haa⟩ := first_inj (mt List.mem_reverse.mp hb) (mt List.mem_reverse.mp hb') hreverse
  exact ⟨List.reverse_injective haa, List.reverse_injective hbb⟩

theorem intercalate_cons {fields : List (List α)} (h : fields ≠ []) (field : List α) :
    [sep].intercalate (field :: fields) = field ++ sep :: [sep].intercalate fields := by
  obtain ⟨next, rest, rfl⟩ := List.exists_cons_of_ne_nil h
  rw [List.intercalate_cons_cons, List.append_assoc, List.singleton_append]

theorem intercalate_concat {fields : List (List α)} (h : fields ≠ []) (field : List α) :
    [sep].intercalate (fields ++ [field]) = [sep].intercalate fields ++ sep :: field := by
  induction fields with
  | nil => exact absurd rfl h
  | cons first fields ih =>
    by_cases hnil : fields = []
    · subst hnil
      simp
    · rw [List.cons_append, intercalate_cons (List.append_ne_nil_of_left_ne_nil hnil _), ih hnil,
        intercalate_cons hnil, List.append_assoc, List.cons_append]

/-- The fields behind a free one. -/
theorem after_inj {field field' : List α} {after after' : List (List α)}
    (hafter : ∀ f ∈ after, sep ∉ f) (hafter' : ∀ f ∈ after', sep ∉ f)
    (hlength : after.length = after'.length)
    (h : [sep].intercalate (field :: after) = [sep].intercalate (field' :: after')) :
    field = field' ∧ after = after' := by
  induction after using List.reverseRecOn generalizing after' with
  | nil =>
    obtain rfl : after' = [] := List.length_eq_zero_iff.mp hlength.symm
    exact ⟨by simpa using h, rfl⟩
  | append_singleton after last ih =>
    obtain rfl | ⟨after', last', rfl⟩ := List.eq_nil_or_concat' after'
    · simp at hlength
    · have hinit : after.length = after'.length := by simpa using hlength
      rw [← List.cons_append, ← List.cons_append, intercalate_concat (List.cons_ne_nil _ _),
        intercalate_concat (List.cons_ne_nil _ _)] at h
      obtain ⟨hrest, rfl⟩ := last_inj (hafter last (by simp)) (hafter' last' (by simp)) h
      obtain ⟨rfl, rfl⟩ := ih (fun f hf => hafter f (List.mem_append_left _ hf))
        (fun f hf => hafter' f (List.mem_append_left _ hf)) hinit hrest
      exact ⟨rfl, rfl⟩

/-- **Fields can be told apart** when at most one of them, at a known place, has the separator in
it. -/
theorem intercalate_inj {field field' : List α} {before before' after after' : List (List α)}
    (hbefore : ∀ f ∈ before, sep ∉ f) (hbefore' : ∀ f ∈ before', sep ∉ f)
    (hafter : ∀ f ∈ after, sep ∉ f) (hafter' : ∀ f ∈ after', sep ∉ f)
    (hlength : before.length = before'.length) (hlength' : after.length = after'.length)
    (h : [sep].intercalate (before ++ field :: after) =
      [sep].intercalate (before' ++ field' :: after')) :
    before = before' ∧ field = field' ∧ after = after' := by
  induction before generalizing before' with
  | nil =>
    obtain rfl : before' = [] := List.length_eq_zero_iff.mp hlength.symm
    exact ⟨rfl, after_inj hafter hafter' hlength' h⟩
  | cons first before ih =>
    cases before' with
    | nil => simp at hlength
    | cons first' before' =>
      rw [List.cons_append, List.cons_append,
        intercalate_cons (List.append_ne_nil_of_right_ne_nil _ (List.cons_ne_nil _ _)),
        intercalate_cons (List.append_ne_nil_of_right_ne_nil _ (List.cons_ne_nil _ _))] at h
      obtain ⟨rfl, hrest⟩ := first_inj (hbefore first List.mem_cons_self)
        (hbefore' first' List.mem_cons_self) h
      obtain ⟨rfl, rfl, rfl⟩ := ih (fun f hf => hbefore f (List.mem_cons_of_mem _ hf))
        (fun f hf => hbefore' f (List.mem_cons_of_mem _ hf)) (Nat.succ.inj hlength) hrest
      exact ⟨rfl, rfl, rfl⟩

end Framing
