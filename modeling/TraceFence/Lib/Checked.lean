import Mathlib.Data.List.Forall2
import Mathlib.Logic.Basic

/-!
# Computations that may fail

A transaction body is a chain of lookups and guards, each of which may abandon the whole
computation. Such a body is written in `Except` with two combinators, `require` for a lookup and
`ensure` for a guard, and the lemmas here read a successful run backwards: from
`body = .ok result` they recover every lookup and every guard on the way.

## Main results

* `Checked.bind_eq_ok` — a bind succeeds exactly when both halves do
* `Checked.ensure_eq_ok`, `require_eq_ok` — what a passed guard and a passed lookup say
* `Checked.bind_eq_error` — where a chain fails
* `Checked.onlyFails_bind` — which failures a chain has
-/

namespace Checked

variable {ε α β : Type}

/-- Abandon the computation with `e` unless `p` holds. -/
def ensure (p : Prop) [Decidable p] (e : ε) : Except ε Unit := if p then .ok () else .error e

/-- Abandon the computation with `e` unless the lookup found something. -/
def require (o : Option α) (e : ε) : Except ε α :=
  match o with
  | some a => .ok a
  | none => .error e

@[simp] theorem ensure_eq_ok {p : Prop} [Decidable p] {e : ε} {u : Unit} :
    ensure p e = .ok u ↔ p := by
  unfold ensure
  split <;> simp_all

@[simp] theorem require_eq_ok {o : Option α} {e : ε} {a : α} :
    require o e = .ok a ↔ o = some a := by
  cases o <;> simp [require]

@[simp] theorem bind_eq_ok {x : Except ε α} {f : α → Except ε β} {b : β} :
    (x >>= f) = .ok b ↔ ∃ a, x = .ok a ∧ f a = .ok b := by
  cases x <;> simp [bind, Except.bind]

theorem ok_bind (a : α) (f : α → Except ε β) : (Except.ok a >>= f) = f a := rfl

theorem error_bind (e : ε) (f : α → Except ε β) : (Except.error e >>= f) = .error e := rfl

@[simp] theorem map_eq_ok {x : Except ε α} {f : α → β} {b : β} :
    f <$> x = .ok b ↔ ∃ a, x = .ok a ∧ f a = b := by
  cases x <;> simp [Functor.map, Except.map]

@[simp] theorem pure_eq_ok {a b : α} : (pure a : Except ε α) = .ok b ↔ a = b := by
  simp [pure, Except.pure]

/-- A chain fails where its first failing part does. -/
theorem bind_eq_error {x : Except ε α} {f : α → Except ε β} {e : ε} :
    (x >>= f) = .error e ↔ x = .error e ∨ ∃ a, x = .ok a ∧ f a = .error e := by
  cases x <;> simp [bind, Except.bind]

theorem ensure_eq_error {p : Prop} [Decidable p] {e e' : ε} :
    ensure p e = .error e' ↔ ¬ p ∧ e = e' := by
  unfold ensure
  split <;> simp_all

theorem require_eq_error {o : Option α} {e e' : ε} :
    require o e = .error e' ↔ o = none ∧ e = e' := by
  cases o <;> simp [require]

theorem pure_ne_error {a : α} {e : ε} : (pure a : Except ε α) ≠ .error e := by
  simp [pure, Except.pure]

/-! ### Kinds of failure -/

/-- Every failure of a computation is of a kind. -/
def OnlyFails (P : ε → Prop) (x : Except ε α) : Prop := ∀ e, x = .error e → P e

section OnlyFails

variable {P : ε → Prop}

/-- A chain has the failures of its parts, each after the parts before it have succeeded. -/
theorem onlyFails_bind {x : Except ε α} {f : α → Except ε β} :
    OnlyFails P (x >>= f) ↔ OnlyFails P x ∧ ∀ a, x = .ok a → OnlyFails P (f a) := by
  constructor
  · intro h
    exact ⟨fun e he => h e (bind_eq_error.mpr (Or.inl he)),
      fun a ha e he => h e (bind_eq_error.mpr (Or.inr ⟨a, ha, he⟩))⟩
  · rintro ⟨hx, hf⟩ e he
    rcases bind_eq_error.mp he with he | ⟨a, ha, he⟩
    · exact hx e he
    · exact hf a ha e he

theorem onlyFails_ok {a : α} : OnlyFails P (.ok a : Except ε α) := fun _ h => by cases h

theorem onlyFails_pure {a : α} : OnlyFails P (pure a : Except ε α) := onlyFails_ok

theorem onlyFails_error {e : ε} : OnlyFails P (.error e : Except ε α) ↔ P e := by
  constructor
  · exact fun h => h e rfl
  · rintro h _ he
    cases he
    exact h

theorem onlyFails_ensure {p : Prop} [Decidable p] {e : ε} :
    OnlyFails P (ensure p e) ↔ (¬ p → P e) := by
  unfold ensure
  by_cases h : p
  · simp [h, onlyFails_ok]
  · simp [h, onlyFails_error]

theorem onlyFails_require {o : Option α} {e : ε} :
    OnlyFails P (require o e) ↔ (o = none → P e) := by
  cases o with
  | none => simp [require, onlyFails_error]
  | some a => simp [require, onlyFails_ok]

theorem onlyFails_map {x : Except ε α} {f : α → β} :
    OnlyFails P (f <$> x) ↔ OnlyFails P x := by
  cases x with
  | error e => exact onlyFails_error.trans onlyFails_error.symm
  | ok a => exact iff_of_true onlyFails_ok onlyFails_ok

theorem onlyFails_foldlM {f : β → α → Except ε β} (h : ∀ b a, OnlyFails P (f b a)) (xs : List α)
    (b : β) : OnlyFails P (xs.foldlM f b) := by
  induction xs generalizing b with
  | nil => exact onlyFails_pure
  | cons x xs ih =>
    rw [List.foldlM_cons]
    exact onlyFails_bind.mpr ⟨h b x, fun b' _ => ih b'⟩

end OnlyFails

/-- A traversal succeeds exactly when every step of it does. -/
theorem forM_eq_ok {xs : List α} {f : α → Except ε Unit} {u : Unit} :
    xs.forM f = .ok u ↔ ∀ x ∈ xs, f x = .ok () := by
  induction xs with
  | nil => simp [List.forM, pure, Except.pure]
  | cons x xs ih =>
    change (f x >>= fun _ => xs.forM f) = .ok u ↔ _
    rw [bind_eq_ok, List.forall_mem_cons, ih]
    exact ⟨fun ⟨_, hx, hxs⟩ => ⟨hx, hxs⟩, fun ⟨hx, hxs⟩ => ⟨(), hx, hxs⟩⟩

/-- A traversal whose steps all succeed collects their results. -/
theorem mapM_eq_map {xs : List α} {f : α → Except ε β} {g : α → β} (h : ∀ x ∈ xs, f x = .ok (g x)) :
    xs.mapM f = .ok (xs.map g) := by
  induction xs with
  | nil => rfl
  | cons x xs ih =>
    obtain ⟨hx, hxs⟩ := List.forall_mem_cons.mp h
    rw [List.mapM_cons, hx, ih hxs]
    rfl

/-- A traversal whose steps all succeed does. -/
theorem exists_mapM {xs : List α} {f : α → Except ε β} (h : ∀ x ∈ xs, ∃ y, f x = .ok y) :
    ∃ ys, xs.mapM f = .ok ys := by
  induction xs with
  | nil => exact ⟨[], rfl⟩
  | cons x xs ih =>
    obtain ⟨hx, hxs⟩ := List.forall_mem_cons.mp h
    obtain ⟨y, hy⟩ := hx
    obtain ⟨ys, hys⟩ := ih hxs
    refine ⟨y :: ys, ?_⟩
    rw [List.mapM_cons, hy, hys]
    rfl

/-- The results of a traversal are those of its steps. -/
theorem mem_mapM {xs : List α} {ys : List β} {f : α → Except ε β} (h : xs.mapM f = .ok ys) {y : β} :
    y ∈ ys ↔ ∃ x ∈ xs, f x = .ok y := by
  induction xs generalizing ys with
  | nil =>
    cases h
    simp
  | cons x xs ih =>
    rw [List.mapM_cons] at h
    obtain ⟨y', hy', h⟩ := bind_eq_ok.mp h
    obtain ⟨ys', hys', h⟩ := bind_eq_ok.mp h
    cases h
    rw [List.mem_cons, ih hys', List.exists_mem_cons_iff, hy', Except.ok.injEq, eq_comm]

/-- A traversal that succeeds has one result for each step, in order. -/
theorem forall₂_of_mapM {xs : List α} {ys : List β} {f : α → Except ε β}
    (h : xs.mapM f = .ok ys) : List.Forall₂ (fun x y => f x = .ok y) xs ys := by
  induction xs generalizing ys with
  | nil =>
    cases h
    exact .nil
  | cons x xs ih =>
    rw [List.mapM_cons] at h
    obtain ⟨y, hy, h⟩ := bind_eq_ok.mp h
    obtain ⟨ys', hys', h⟩ := bind_eq_ok.mp h
    cases h
    exact .cons hy (ih hys')

@[simp] theorem throw_eq_ok {e : ε} {a : α} : (throw e : Except ε α) = .ok a ↔ False := by
  simp [throw, throwThe, MonadExceptOf.throw]

/-- Forgetting the error of a computation keeps its success. -/
theorem toOption_eq_some {x : Except ε α} {a : α} : x.toOption = some a ↔ x = .ok a := by
  cases x <;> simp [Except.toOption]

end Checked
