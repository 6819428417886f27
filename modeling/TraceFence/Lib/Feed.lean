import Mathlib.Data.Nat.Notation
import Mathlib.Logic.Function.Iterate

/-!
# Reading a log by cursor

A log whose entries carry increasing positive numbers can be read in pages: the reader keeps the
number of the last entry it has, and asks for the next entries behind it. Whatever the sizes of the
pages, and however much the log grows between two of them, the reader always has an initial part of
the log.

## Main definitions

* `Feed.page`, `Feed.cursor`, `Feed.poll` — a page, where a reader goes on, and a read
* `Feed.Ordered` — the numbers of a log are positive and increase

## Main results

* `Feed.poll_eq` — a read extends an initial part of the log by as much as the page holds
* `Feed.iterate_poll` — so enough reads of a log that does not grow have all of it
-/

namespace Feed

variable {α : Type} (seq : α → ℕ)

/-- The first entries behind `after`. -/
def page (log : List α) (after limit : ℕ) : List α := (log.filter fun e => after < seq e).take limit

/-- The number of the last entry received. -/
def cursor (received : List α) : ℕ := (received.getLast?.map seq).getD 0

/-- One read: a page behind what has been received. -/
def poll (log : List α) (limit : ℕ) (received : List α) : List α :=
  received ++ page seq log (cursor seq received) limit

/-- The numbers of a log are positive and increase. -/
structure Ordered (log : List α) : Prop where
  increasing : log.Pairwise fun a b => seq a < seq b
  positive : ∀ e ∈ log, 0 < seq e

variable {seq} {log received rest : List α} {limit : ℕ}

theorem Ordered.filter (h : Ordered seq log) (p : α → Bool) : Ordered seq (log.filter p) where
  increasing := h.increasing.filter p
  positive e he := h.positive e (List.mem_filter.mp he).1

/-- The cursor is where what has been received ends and what is left begins. -/
theorem Ordered.cursor_between (h : Ordered seq (received ++ rest)) :
    (∀ e ∈ received, seq e ≤ cursor seq received) ∧ ∀ e ∈ rest, cursor seq received < seq e := by
  rcases List.eq_nil_or_concat received with rfl | ⟨before, last, hconcat⟩
  · refine ⟨fun e he => ?_, fun e he => h.positive e (List.mem_append_right _ he)⟩
    cases he
  · rw [List.concat_eq_append] at hconcat
    subst hconcat
    have hcursor : cursor seq (before ++ [last]) = seq last := by simp [cursor]
    obtain ⟨hreceived, _, hbetween⟩ := List.pairwise_append.mp h.increasing
    obtain ⟨_, _, hlast⟩ := List.pairwise_append.mp hreceived
    rw [hcursor]
    refine ⟨fun e he => ?_, fun e he => hbetween last (by simp) e he⟩
    rcases List.mem_append.mp he with he | he
    · exact Nat.le_of_lt (hlast e he last (by simp))
    · exact Nat.le_of_eq (congrArg seq (List.mem_singleton.mp he))

/-- **A page holds the entries behind the cursor**, no other and in their order. -/
theorem Ordered.page_cursor (h : Ordered seq (received ++ rest)) :
    page seq (received ++ rest) (cursor seq received) limit = rest.take limit := by
  obtain ⟨hold, hnew⟩ := h.cursor_between
  have hnone : received.filter (fun e => cursor seq received < seq e) = [] := by
    refine List.filter_eq_nil_iff.mpr fun e he => ?_
    rw [decide_eq_true_eq]
    exact Nat.not_lt.mpr (hold e he)
  have hall : rest.filter (fun e => cursor seq received < seq e) = rest := by
    refine List.filter_eq_self.mpr fun e he => ?_
    exact decide_eq_true (hnew e he)
  rw [page, List.filter_append, hnone, hall, List.nil_append]

/-- **A read of a log of which an initial part has been received.** -/
theorem Ordered.poll_eq (h : Ordered seq log) (hinitial : received <+: log) :
    poll seq log limit received = log.take (received.length + limit) := by
  obtain ⟨rest, rfl⟩ := hinitial
  rw [poll, h.page_cursor, List.take_length_add_append]

/-- What has been received stays an initial part, also when the log grows. -/
theorem Ordered.poll_initial (h : Ordered seq log) (hinitial : received <+: log) :
    poll seq log limit received <+: log := by
  rw [h.poll_eq hinitial]
  exact List.take_prefix _ _

/-- **Reads in a row.** -/
theorem Ordered.iterate_poll (h : Ordered seq log) (hinitial : received <+: log) (n : ℕ) :
    (poll seq log limit)^[n] received = log.take (received.length + n * limit) := by
  induction n with
  | zero =>
    rw [Function.iterate_zero_apply, Nat.zero_mul, Nat.add_zero]
    exact List.prefix_iff_eq_take.mp hinitial
  | succ n ih =>
    rw [Function.iterate_succ_apply', ih, h.poll_eq (List.take_prefix _ _), List.length_take]
    -- Either the log has been read to its end before, or every page was full.
    by_cases hend : log.length ≤ received.length + n * limit
    · rw [Nat.min_eq_right hend, List.take_of_length_le (Nat.le_add_right _ _),
        List.take_of_length_le (by rw [Nat.add_mul, Nat.one_mul]; omega)]
    · rw [Nat.min_eq_left (by omega), Nat.add_mul, Nat.one_mul, Nat.add_assoc]

theorem Ordered.caught_up (h : Ordered seq log) (hinitial : received <+: log) {n : ℕ}
    (enough : log.length ≤ received.length + n * limit) :
    (poll seq log limit)^[n] received = log := by
  rw [h.iterate_poll hinitial, List.take_of_length_le enough]

end Feed

/-- The numbering of a list in its order. -/
theorem ordered_zipIdx {α : Type} (log : List α) : Feed.Ordered Prod.snd (log.zipIdx 1) where
  increasing := by
    rw [← List.pairwise_map, List.zipIdx_map_snd]
    exact List.pairwise_lt_range'
  positive e he := List.le_snd_of_mem_zipIdx he
