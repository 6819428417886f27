import Mathlib.Data.List.Pairwise
import Mathlib.Data.Setoid.Basic

/-!
# Timelines of revised states

States that carry a revision, which does not go down and goes up whenever something relevant
changes. Two moments of one timeline with the same revision therefore agree on what is relevant, so
whoever finds the revision of an old result current again may pass the old result on.

## Main definitions

* `Revised` — a revision and what it keeps track of
* `Revised.Ordered` — a timeline
* `Held` — something was the case at some moment since another

## Main results

* `Revised.Ordered.same` — moments with the same revision agree
* `Revised.Ordered.held_since` — a result that is no older than a moment holds good since then
-/

/-- A revision of states, and which states it need not tell apart. -/
structure Revised (σ : Type) where
  revision : σ → ℕ
  same : Setoid σ

variable {σ : Type} {p q : σ → Prop} {worlds more : List σ} {t t' start start' r : ℕ} {w w' w'' : σ}

/-! ### What was the case -/

/-- `p` was the case at a moment that is not before `start`. -/
def Held (worlds : List σ) (start : ℕ) (p : σ → Prop) : Prop :=
  ∃ t w, start ≤ t ∧ worlds[t]? = some w ∧ p w

theorem getElem?_append_of_some (h : worlds[t]? = some w) : (worlds ++ more)[t]? = some w := by
  rw [List.getElem?_append_left (List.getElem?_eq_some_iff.mp h).1, h]

theorem Held.append (h : Held worlds start p) : Held (worlds ++ more) start p := by
  obtain ⟨t, w, hle, hw, hp⟩ := h
  exact ⟨t, w, hle, getElem?_append_of_some hw, hp⟩

theorem Held.imp (h : Held worlds start p) (hpq : ∀ w, p w → q w) : Held worlds start q := by
  obtain ⟨t, w, hle, hw, hp⟩ := h
  exact ⟨t, w, hle, hw, hpq w hp⟩

/-! ### Order -/

namespace Revised

variable (S : Revised σ)

/-- One state may come after another. -/
def Follows (w w' : σ) : Prop :=
  S.revision w ≤ S.revision w' ∧ (S.revision w = S.revision w' → S.same w w')

/-- Every state follows those before it. -/
def Ordered (worlds : List σ) : Prop := worlds.Pairwise S.Follows

variable {S}

theorem Follows.refl : S.Follows w w := ⟨le_rfl, fun _ => S.same.refl w⟩

theorem Follows.trans (h : S.Follows w w') (h' : S.Follows w' w'') : S.Follows w w'' := by
  refine ⟨h.1.trans h'.1, fun heq => ?_⟩
  have hmid : S.revision w = S.revision w' := le_antisymm h.1 (heq ▸ h'.1)
  exact S.same.trans (h.2 hmid) (h'.2 (hmid.symm.trans heq))

theorem Ordered.singleton : S.Ordered [w] := List.pairwise_singleton _ _

/-- A timeline goes on with what follows its last state. -/
theorem Ordered.concat (h : S.Ordered (worlds ++ [w])) (hnext : S.Follows w w') :
    S.Ordered (worlds ++ [w] ++ [w']) := by
  refine List.pairwise_append.mpr ⟨h, List.pairwise_singleton _ _, fun v hv v' hv' => ?_⟩
  rw [List.mem_singleton.mp hv']
  rcases List.mem_append.mp hv with hold | hlast
  · exact ((List.pairwise_append.mp h).2.2 v hold w (List.mem_singleton.mpr rfl)).trans hnext
  · rw [List.mem_singleton.mp hlast]
    exact hnext

theorem Ordered.follows (h : S.Ordered worlds) (hw : worlds[t]? = some w) (hw' : worlds[t']? = some w')
    (hle : t ≤ t') : S.Follows w w' := by
  obtain ⟨ht, rfl⟩ := List.getElem?_eq_some_iff.mp hw
  obtain ⟨ht', rfl⟩ := List.getElem?_eq_some_iff.mp hw'
  rcases hle.eq_or_lt with rfl | hlt
  · exact Follows.refl
  · exact List.pairwise_iff_getElem.mp h t t' ht ht' hlt

/-- The revision at the end is the largest. -/
theorem Ordered.revision_le_last (h : S.Ordered (worlds ++ [w'])) (hw : (worlds ++ [w'])[t]? = some w) :
    S.revision w ≤ S.revision w' := by
  have hlast : (worlds ++ [w'])[worlds.length]? = some w' := by simp
  refine (h.follows hw hlast ?_).1
  have hlt := (List.getElem?_eq_some_iff.mp hw).1
  rw [List.length_append, List.length_singleton] at hlt
  omega

/-- **Moments with the same revision agree.** -/
theorem Ordered.same (h : S.Ordered worlds) (hw : worlds[t]? = some w) (hw' : worlds[t']? = some w')
    (heq : S.revision w = S.revision w') : S.same w w' := by
  rcases le_total t t' with hle | hle
  · exact (h.follows hw hw' hle).2 heq
  · exact S.same.symm ((h.follows hw' hw hle).2 heq.symm)

/-- **A result that is no older than a moment** holds good at some moment since. -/
theorem Ordered.held_since (h : S.Ordered worlds) (hresp : ∀ w w', S.same w w' → p w → p w')
    (hstart : worlds[start]? = some w) (hle : S.revision w ≤ r)
    (hheld : Held worlds 0 fun v => S.revision v = r ∧ p v) : Held worlds start p := by
  obtain ⟨t, v, _, hv, hr, hp⟩ := hheld
  rcases le_total start t with hsince | hbefore
  · exact ⟨t, v, hsince, hv, hp⟩
  -- It is older, so nothing relevant has changed in between.
  · have hfollows := h.follows hv hstart hbefore
    have heq : S.revision v = S.revision w := le_antisymm hfollows.1 (hr ▸ hle)
    exact ⟨start, w, le_rfl, hstart, hresp v w (hfollows.2 heq) hp⟩

end Revised
