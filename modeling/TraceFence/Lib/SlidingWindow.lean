import Mathlib.Algebra.Order.Group.Defs
import Mathlib.Algebra.Order.Sub.Basic
import Mathlib.Data.List.Basic
import Mathlib.Tactic.Abel

/-!
# Sliding windows

Events happen at times that do not decrease. The window that ends at a time holds the events of the
last `w` units up to it. To count them it is enough to keep a list from which the events before some
window have been dropped, as long as no earlier window is asked for.

## Main definitions

* `SlidingWindow.window` — the events in a window
* `SlidingWindow.prune` — a list without the events before a window
* `SlidingWindow.Covers` — a list that has all a window from some time on can hold

## Main results

* `SlidingWindow.Covers.prune` — pruning keeps what later windows hold
* `SlidingWindow.length_prune` — how many events a window holds
* `SlidingWindow.window_concat_le` — windows stay within a bound if an event is added to one below it
-/

namespace SlidingWindow

variable {τ : Type} [AddCommGroup τ] [LinearOrder τ]
variable {w t t' now now' s : τ} {times kept : List τ}

/-- The events in the window that ends at `t`. -/
def window (w : τ) (times : List τ) (t : τ) : List τ := times.filter fun s => t - w < s ∧ s ≤ t

/-- The events after the start of the window that ends at `t`. -/
def recent (w : τ) (times : List τ) (t : τ) : List τ := times.filter fun s => t - w < s

/-- Events are dropped from the front while they are before the window that ends at `t`. -/
def prune (w : τ) (times : List τ) (t : τ) : List τ := times.dropWhile fun s => s ≤ t - w

/-- Every event so far is in a window or before it. -/
theorem window_eq_recent (h : ∀ s ∈ times, s ≤ t) : window w times t = recent w times t := by
  refine List.filter_congr fun s hs => ?_
  rw [decide_eq_decide]
  exact and_iff_left (h s hs)

/-- From events in order exactly those before the window are dropped. -/
theorem prune_eq_recent (h : times.Pairwise (· ≤ ·)) : prune w times t = recent w times t := by
  induction times with
  | nil => rfl
  | cons s times ih =>
    obtain ⟨hs, htimes⟩ := List.pairwise_cons.mp h
    by_cases hold : s ≤ t - w
    · rw [prune, List.dropWhile_cons_of_pos (by simpa using hold), recent,
        List.filter_cons_of_neg (by simpa using hold)]
      exact ih htimes
    · rw [prune, List.dropWhile_cons_of_neg (by simpa using hold), recent]
      refine (List.filter_eq_self.mpr fun s' hs' => ?_).symm
      rw [decide_eq_true_iff]
      rcases List.mem_cons.mp hs' with rfl | hs'
      · exact not_le.mp hold
      · exact (not_le.mp hold).trans_le (hs s' hs')

theorem sublist_prune (w : τ) (times : List τ) (t : τ) : (prune w times t).Sublist times :=
  (List.dropWhile_suffix _).sublist

/-! ### What has to be kept -/

/-- `kept` has all the events of `times` that a window from `now` on can hold. -/
def Covers (w now : τ) (times kept : List τ) : Prop :=
  ∀ t, now ≤ t → recent w times t = recent w kept t

theorem Covers.refl : Covers w now times times := fun _ _ => rfl

theorem Covers.mono (h : Covers w now times kept) (hnow : now ≤ now') : Covers w now' times kept :=
  fun t ht => h t (hnow.trans ht)

theorem Covers.concat (h : Covers w now times kept) (s : τ) :
    Covers w now (times ++ [s]) (kept ++ [s]) := by
  intro t ht
  rw [recent, recent, List.filter_append, List.filter_append]
  exact congrArg (· ++ _) (h t ht)

/-- The pruned list has as many events as the window. -/
theorem length_prune (h : Covers w now times kept) (hkept : kept.Pairwise (· ≤ ·))
    (htimes : ∀ s ∈ times, s ≤ now) :
    (SlidingWindow.prune w kept now).length = (window w times now).length := by
  rw [window_eq_recent htimes, prune_eq_recent hkept, h now le_rfl]

/-! ### Windows move with time -/

variable [IsOrderedAddMonoid τ]

theorem recent_recent (h : t ≤ t') : recent w (recent w times t) t' = recent w times t' := by
  rw [recent, recent, List.filter_filter]
  refine List.filter_congr fun s _ => ?_
  rw [Bool.and_eq_left_iff_imp, decide_eq_true_iff, decide_eq_true_iff]
  exact fun hs => (sub_le_sub_right h w).trans_lt hs

theorem Covers.prune (h : Covers w now times kept) (hkept : kept.Pairwise (· ≤ ·)) :
    Covers w now times (prune w kept now) := by
  intro t ht
  rw [prune_eq_recent hkept, recent_recent ht]
  exact h t ht

/-- An event at the end of time adds one to a window that holds it and nothing to the others. -/
theorem window_concat_le {bound : ℕ} (hbound : ∀ t, (window w times t).length ≤ bound)
    (htimes : ∀ s ∈ times, s ≤ now) (hnow : (window w times now).length < bound) (t : τ) :
    (window w (times ++ [now]) t).length ≤ bound := by
  rw [window, List.filter_append, List.length_append]
  by_cases ht : now ≤ t
  · -- what the window holds the one that ends now holds too
    have hle : (window w times t).length ≤ (window w times now).length := by
      rw [window, window, ← List.countP_eq_length_filter, ← List.countP_eq_length_filter]
      refine List.countP_mono_left fun s hs hwindow => ?_
      rw [decide_eq_true_iff] at hwindow ⊢
      exact ⟨(sub_le_sub_right ht w).trans_lt hwindow.1, htimes s hs⟩
    have hone : ([now].filter fun s => t - w < s ∧ s ≤ t).length ≤ 1 := List.length_filter_le _ _
    have hwindow : (times.filter fun s => t - w < s ∧ s ≤ t).length = (window w times t).length :=
      rfl
    omega
  · have hnone : [now].filter (fun s => t - w < s ∧ s ≤ t) = [] := by
      simp [ht]
    rw [hnone]
    exact hbound t

end SlidingWindow
