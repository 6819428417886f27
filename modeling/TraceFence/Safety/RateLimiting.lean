import Mathlib.Data.Finset.Card
import Mathlib.Data.List.Nodup
import Mathlib.Tactic.Linarith
import TraceFence.Lib.Merge
import TraceFence.Lib.SlidingWindow
import TraceFence.RateLimits

/-!
# Sliding-window limits

Both limiters go through the same steps: the bucket of the key goes to the end of the table, in
which there is room for it, it loses the times before the window, and it gets the time of the
request if it is not full. As long as no bucket is evicted, a bucket has all of the accepted requests
of its key that a later window can hold.

## Main definitions

* `held`, `others` — the bucket of a key and the rest of the table, with room for one more
* `Bounded` — what holds of the table, however many keys there are
* `Tracked` — what holds as long as there is room for all keys

## Main results

* `consume_checkBucket` — the limiters do the same
* `bounded_serveAll`, `tracked_serveAll` — the invariants of runs
* `sliding_window_limiting` — the limits are kept
-/

namespace TraceFence

open SlidingWindow

variable {κ : Type} [DecidableEq κ] {limit : κ → ℕ} {maxBuckets : ℕ} {buckets : Buckets κ} {key k : κ}
variable {bound : ℕ} {now now' : ℚ} {served : Served κ} {request : Request κ}
variable {requests : List (Request κ)}

/-! ### One request -/

/-- The bucket of a key. -/
def held (buckets : Buckets κ) (key : κ) : List ℚ := (buckets.lookup key).getD []

/-- The other buckets, without the first if there is no room for a new one. -/
def others (maxBuckets : ℕ) (buckets : Buckets κ) (key : κ) : Buckets κ :=
  match buckets.lookup key with
  | none => if maxBuckets ≤ buckets.length then buckets.drop 1 else buckets
  | some _ => buckets.filter fun entry => entry.1 ≠ key

/-- The bucket of a key is pruned and, if it is not full, gets the time of the request. -/
theorem checkBucket_eq : checkBucket maxBuckets buckets key bound now =
    if bound ≤ (prune 60 (held buckets key) now).length then
      (others maxBuckets buckets key ++ [(key, prune 60 (held buckets key) now)], false)
    else (others maxBuckets buckets key ++ [(key, prune 60 (held buckets key) now ++ [now])], true) := by
  unfold checkBucket held others prune
  cases buckets.lookup key <;> rfl

/-- So does the API, which also says when to try again. -/
theorem consume_eq : consume maxBuckets buckets key bound now =
    if bound ≤ (prune 60 (held buckets key) now).length then
      (others maxBuckets buckets key ++ [(key, prune 60 (held buckets key) now)],
        max 1 ⌈60 - (now - (prune 60 (held buckets key) now).headD now)⌉)
    else (others maxBuckets buckets key ++ [(key, prune 60 (held buckets key) now ++ [now])], 0) := by
  unfold consume held others prune
  cases buckets.lookup key <;> rfl

/-- The answer of the API is zero just when the services accept, and the tables are the same. -/
theorem consume_checkBucket :
    (consume maxBuckets buckets key bound now).1 = (checkBucket maxBuckets buckets key bound now).1 ∧
      ((consume maxBuckets buckets key bound now).2 = 0 ↔
        (checkBucket maxBuckets buckets key bound now).2 = true) := by
  rw [consume_eq, checkBucket_eq]
  split
  · refine ⟨rfl, iff_of_false ?_ Bool.false_ne_true⟩
    have hone : (1 : ℤ) ≤ max 1 ⌈60 - (now - (prune 60 (held buckets key) now).headD now)⌉ :=
      le_max_left ..
    exact fun hzero => absurd (hone.trans_eq hzero) (by decide)
  · exact ⟨rfl, iff_of_true rfl rfl⟩

/-! ### The table -/

theorem others_sublist : (others maxBuckets buckets key).Sublist buckets := by
  unfold others
  split
  · split
    · exact List.drop_sublist ..
    · exact List.Sublist.refl _
  · exact List.filter_sublist

theorem lookup_eq_none {entries : Buckets κ} :
    entries.lookup key = none ↔ key ∉ entries.map Prod.fst := by
  rw [List.lookup_eq_none_iff]
  constructor
  · intro h hkey
    obtain ⟨entry, hentry, rfl⟩ := List.mem_map.mp hkey
    exact bne_iff_ne.mp (h entry hentry) rfl
  · intro h entry hentry
    refine bne_iff_ne.mpr ?_
    rintro rfl
    exact h (List.mem_map_of_mem hentry)

/-- The key is not among the others. -/
theorem notMem_others : key ∉ (others maxBuckets buckets key).map Prod.fst := by
  unfold others
  split
  · next hnone =>
    have hkey := lookup_eq_none.mp hnone
    split
    · exact fun h => hkey (((List.drop_sublist 1 buckets).map Prod.fst).subset h)
    · exact hkey
  · simp

/-- There is room for the bucket of the key. -/
theorem length_others (hmax : 1 ≤ maxBuckets) (hsize : buckets.length ≤ maxBuckets) :
    (others maxBuckets buckets key).length < maxBuckets := by
  unfold others
  split
  · split
    · rw [List.length_drop]
      omega
    · next hroom => exact not_le.mp hroom
  · next bucket hsome =>
    refine lt_of_lt_of_le ?_ hsize
    obtain ⟨before, after, heq, -⟩ := List.lookup_eq_some_iff.mp hsome
    rw [List.length_filter_lt_length_iff_exists]
    exact ⟨(key, bucket), heq ▸ List.mem_append_right _ (List.mem_cons_self ..), by simp⟩

theorem lookup_filter_ne (h : k ≠ key) :
    (buckets.filter fun entry => entry.1 ≠ key).lookup k = buckets.lookup k := by
  induction buckets with
  | nil => rfl
  | cons entry buckets ih =>
    by_cases hkey : entry.1 = key
    · rw [List.filter_cons_of_neg (by simpa using hkey), ih, Merge.lookup_cons, if_neg]
      rw [hkey]
      exact h
    · rw [List.filter_cons_of_pos (by simpa using hkey), Merge.lookup_cons, Merge.lookup_cons, ih]

/-- The other keys keep their buckets, but for one that is evicted. -/
theorem held_others (hnodup : (buckets.map Prod.fst).Nodup) (h : k ≠ key) :
    held (others maxBuckets buckets key) k = held buckets k ∨
      held (others maxBuckets buckets key) k = [] ∧ buckets.lookup key = none ∧
        maxBuckets ≤ buckets.length := by
  unfold others
  split
  · next hnone =>
    split
    · next hfull =>
      cases buckets with
      | nil => exact .inl rfl
      | cons entry rest =>
        rw [List.drop_one, List.tail_cons]
        by_cases hentry : k = entry.1
        · refine .inr ⟨?_, hnone, hfull⟩
          rw [held, lookup_eq_none.mpr]
          · rfl
          · rw [hentry]
            exact (List.nodup_cons.mp hnodup).1
        · left
          rw [held, held, Merge.lookup_cons, if_neg hentry]
    · exact .inl rfl
  · left
    rw [held, held, lookup_filter_ne h]

theorem held_concat_self {entries : Buckets κ} {bucket : List ℚ} (h : key ∉ entries.map Prod.fst) :
    held (entries ++ [(key, bucket)]) key = bucket := by
  rw [held, List.lookup_append, lookup_eq_none.mpr h, Option.none_or, Merge.lookup_cons, if_pos rfl]
  rfl

theorem held_concat_of_ne {entries : Buckets κ} {bucket : List ℚ} (h : k ≠ key) :
    held (entries ++ [(key, bucket)]) k = held entries k := by
  rw [held, List.lookup_append, Merge.lookup_cons, if_neg h, List.lookup_nil, Option.or_none]
  rfl

/-- What holds of the table of a limiter, at any time from the last request on. -/
structure Bounded (limit : κ → ℕ) (maxBuckets : ℕ) (now : ℚ) (buckets : Buckets κ) : Prop where
  nodup : (buckets.map Prod.fst).Nodup
  size : buckets.length ≤ maxBuckets
  sorted : ∀ key, (held buckets key).Pairwise (· ≤ ·)
  past : ∀ key, ∀ time ∈ held buckets key, time ≤ now
  full : ∀ key, (held buckets key).length ≤ limit key

theorem Bounded.mono (h : Bounded limit maxBuckets now buckets) (hnow : now ≤ now') :
    Bounded limit maxBuckets now' buckets :=
  { h with past := fun key time htime => (h.past key time htime).trans hnow }

/-- The bucket that a request leaves behind. -/
theorem held_consume_self : held (consume maxBuckets buckets key bound now).1 key =
    if bound ≤ (prune 60 (held buckets key) now).length then prune 60 (held buckets key) now
    else prune 60 (held buckets key) now ++ [now] := by
  rw [consume_eq]
  split <;> exact held_concat_self notMem_others

/-- A request of one key leaves the buckets of the others alone, but for one that is evicted. -/
theorem held_consume_of_ne (hnodup : (buckets.map Prod.fst).Nodup) (h : k ≠ key) :
    held (consume maxBuckets buckets key bound now).1 k = held buckets k ∨
      held (consume maxBuckets buckets key bound now).1 k = [] ∧ buckets.lookup key = none ∧
        maxBuckets ≤ buckets.length := by
  have hothers : held (others maxBuckets buckets key) k = held buckets k ∨ _ := held_others hnodup h
  rw [consume_eq]
  split
  · rw [held_concat_of_ne h]
    exact hothers
  · rw [held_concat_of_ne h]
    exact hothers

/-- What holds of all buckets and of an empty one holds after a request, if it holds of the pruned
bucket and, with the time of the request, unless the bucket is full. -/
theorem forall_held_consume {p : κ → List ℚ → Prop} (hnodup : (buckets.map Prod.fst).Nodup)
    (hempty : ∀ k, p k []) (hold : ∀ k, p k (held buckets k))
    (hpruned : p key (prune 60 (held buckets key) now))
    (hnew : (prune 60 (held buckets key) now).length < bound →
      p key (prune 60 (held buckets key) now ++ [now])) (k : κ) :
    p k (held (consume maxBuckets buckets key bound now).1 k) := by
  by_cases hk : k = key
  · subst hk
    rw [held_consume_self]
    split
    · exact hpruned
    · next hroom => exact hnew (not_le.mp hroom)
  · rcases held_consume_of_ne hnodup hk with heq | ⟨heq, -⟩
    · rw [heq]
      exact hold k
    · rw [heq]
      exact hempty k

theorem nodup_consume (hnodup : (buckets.map Prod.fst).Nodup) :
    ((consume maxBuckets buckets key bound now).1.map Prod.fst).Nodup := by
  have hkeys (bucket : List ℚ) :
      ((others maxBuckets buckets key ++ [(key, bucket)]).map Prod.fst).Nodup := by
    rw [List.map_append, List.nodup_append]
    refine ⟨(others_sublist.map Prod.fst).nodup hnodup, List.nodup_singleton _, ?_⟩
    rintro name hname name' hname' rfl
    rw [List.map_singleton, List.mem_singleton] at hname'
    exact notMem_others (hname' ▸ hname)
  rw [consume_eq]
  split <;> exact hkeys _

/-- A request keeps the bounds of the table. -/
theorem bounded_consume (hmax : 1 ≤ maxBuckets) (h : Bounded limit maxBuckets now buckets)
    (key : κ) : Bounded limit maxBuckets now (consume maxBuckets buckets key (limit key) now).1 := by
  have hsublist := sublist_prune 60 (held buckets key) now
  have hpast (time : ℚ) (htime : time ∈ prune 60 (held buckets key) now) : time ≤ now :=
    h.past key time (hsublist.subset htime)
  have hsorted := (h.sorted key).sublist hsublist
  constructor
  · exact nodup_consume h.nodup
  · have hroom : (others maxBuckets buckets key).length < maxBuckets := length_others hmax h.size
    rw [consume_eq]
    split <;> rw [List.length_append, List.length_singleton] <;> exact hroom
  · refine forall_held_consume (p := fun _ bucket => bucket.Pairwise (· ≤ ·)) h.nodup
      (fun _ => .nil) h.sorted hsorted fun _ => ?_
    refine List.pairwise_append.mpr ⟨hsorted, List.pairwise_singleton .., fun time htime time' h' => ?_⟩
    rw [List.mem_singleton.mp h']
    exact hpast time htime
  · refine forall_held_consume (p := fun _ bucket => ∀ time ∈ bucket, time ≤ now) h.nodup
      (fun _ time htime => absurd htime List.not_mem_nil) h.past hpast fun _ time htime => ?_
    rcases List.mem_append.mp htime with htime | htime
    · exact hpast time htime
    · exact (List.mem_singleton.mp htime).le
  · refine forall_held_consume (p := fun k bucket => bucket.length ≤ limit k) h.nodup
      (fun _ => Nat.zero_le _) h.full (hsublist.length_le.trans (h.full key)) fun hroom => ?_
    rw [List.length_append, List.length_singleton]
    exact hroom

/-! ### Runs -/

theorem serveAll_concat (requests : List (Request κ)) (request : Request κ) :
    serveAll limit maxBuckets (requests ++ [request]) =
      serve limit maxBuckets (serveAll limit maxBuckets requests) request := by
  rw [serveAll, List.foldl_append]
  rfl

/-- Requests in the order of their times. -/
def InOrder (requests : List (Request κ)) : Prop :=
  requests.Pairwise fun request request' => request.now ≤ request'.now

omit [DecidableEq κ] in
theorem InOrder.of_concat (h : InOrder (requests ++ [request])) :
    InOrder requests ∧ ∀ earlier ∈ requests, earlier.now ≤ request.now := by
  obtain ⟨hrequests, -, hlast⟩ := List.pairwise_append.mp h
  exact ⟨hrequests, fun earlier hearlier => hlast earlier hearlier request (List.mem_singleton_self _)⟩

/-- The table stays within its bounds, however many keys there are. -/
theorem bounded_serveAll (hmax : 1 ≤ maxBuckets) (horder : InOrder requests)
    (hnow : ∀ request ∈ requests, request.now ≤ now) :
    Bounded limit maxBuckets now (serveAll limit maxBuckets requests).buckets := by
  induction requests using List.reverseRecOn generalizing now with
  | nil =>
    exact ⟨List.nodup_nil, Nat.zero_le _, fun _ => .nil,
      fun _ time htime => absurd htime List.not_mem_nil, fun _ => Nat.zero_le _⟩
  | append_singleton requests request ih =>
    obtain ⟨horder, hlast⟩ := horder.of_concat
    rw [serveAll_concat]
    exact (bounded_consume hmax (ih horder hlast) request.key).mono
      (hnow request (List.mem_append_right _ (List.mem_singleton_self _)))

/-- The times of the accepted requests of a key. -/
def Served.times (served : Served κ) (key : κ) : List ℚ :=
  (served.accepted.filter fun request => request.key = key).map (·.now)

/-- What holds as long as there is room for all keys. -/
structure Tracked (limit : κ → ℕ) (requests : List (Request κ)) (now : ℚ) (served : Served κ) :
    Prop where
  keys : ∀ entry ∈ served.buckets, entry.1 ∈ requests.map (·.key)
  covers : ∀ key, Covers 60 now (served.times key) (held served.buckets key)
  past : ∀ key, ∀ time ∈ served.times key, time ≤ now
  window : ∀ key t, (window 60 (served.times key) t).length ≤ limit key

theorem retryAfter_eq_zero : served.retryAfter limit maxBuckets request = 0 ↔
    (prune 60 (held served.buckets request.key) request.now).length < limit request.key := by
  rw [Served.retryAfter, consume_checkBucket.2, checkBucket_eq]
  split
  · next hfull => exact iff_of_false Bool.false_ne_true (not_lt.mpr hfull)
  · next hroom => exact iff_of_true rfl (not_le.mp hroom)

theorem times_serve (served : Served κ) (request : Request κ) (key : κ) :
    (serve limit maxBuckets served request).times key = served.times key ++
      if served.retryAfter limit maxBuckets request = 0 ∧ request.key = key then [request.now]
        else [] := by
  rw [Served.times, serve, List.filter_append, List.map_append]
  refine congrArg (_ ++ ·) ?_
  by_cases haccepted : served.retryAfter limit maxBuckets request = 0
  · by_cases hkey : request.key = key
    · simp [haccepted, hkey]
    · simp [haccepted, hkey]
  · simp [haccepted]

/-- A key without a bucket finds room, if there is room for all keys. -/
theorem room_of_lookup_eq_none (hnodup : (served.buckets.map Prod.fst).Nodup)
    (hkeys : ∀ entry ∈ served.buckets, entry.1 ∈ requests.map (·.key))
    (hroom : ((requests ++ [request]).map (·.key)).toFinset.card ≤ maxBuckets)
    (hnone : served.buckets.lookup request.key = none) : served.buckets.length < maxBuckets := by
  have hnew := lookup_eq_none.mp hnone
  have hsubset : (request.key :: served.buckets.map Prod.fst).toFinset ⊆
      ((requests ++ [request]).map (·.key)).toFinset := by
    intro key hkey
    rw [List.mem_toFinset] at hkey ⊢
    rw [List.map_append, List.mem_append]
    rcases List.mem_cons.mp hkey with rfl | hkey
    · exact .inr (List.mem_singleton_self _)
    · obtain ⟨entry, hentry, rfl⟩ := List.mem_map.mp hkey
      exact .inl (hkeys entry hentry)
  have hcard := (Finset.card_le_card hsubset).trans hroom
  rw [List.toFinset_card_of_nodup (List.nodup_cons.mpr ⟨hnew, hnodup⟩), List.length_cons,
    List.length_map] at hcard
  exact hcard

/-- A request keeps track of the accepted requests of all keys, if there is room for its own. -/
theorem tracked_serve (h : Tracked limit requests request.now served)
    (hbounded : Bounded limit maxBuckets request.now served.buckets)
    (hroom : ((requests ++ [request]).map (·.key)).toFinset.card ≤ maxBuckets) :
    Tracked limit (requests ++ [request]) request.now (serve limit maxBuckets served request) := by
  have hother (k : κ) (hk : k ≠ request.key) :
      held (serve limit maxBuckets served request).buckets k = held served.buckets k ∧
        (serve limit maxBuckets served request).times k = served.times k := by
    constructor
    · refine (held_consume_of_ne hbounded.nodup hk).resolve_right fun hevicted => ?_
      exact absurd (room_of_lookup_eq_none hbounded.nodup h.keys hroom hevicted.2.1)
        (not_lt.mpr hevicted.2.2)
    · rw [times_serve, if_neg fun h => hk h.2.symm, List.append_nil]
  have hpruned := (h.covers request.key).prune (hbounded.sorted request.key)
  constructor
  · intro entry hentry
    rw [List.map_append, List.mem_append]
    have hmem : entry ∈ others maxBuckets served.buckets request.key ∨ entry.1 = request.key := by
      rw [serve, consume_eq] at hentry
      split at hentry <;> rcases List.mem_append.mp hentry with hentry | hentry
      · exact .inl hentry
      · exact .inr (congrArg Prod.fst (List.mem_singleton.mp hentry))
      · exact .inl hentry
      · exact .inr (congrArg Prod.fst (List.mem_singleton.mp hentry))
    rcases hmem with hentry | hkey
    · exact .inl (h.keys entry (others_sublist.subset hentry))
    · exact .inr (hkey ▸ List.mem_singleton_self _)
  · intro k
    by_cases hk : k = request.key
    · subst hk
      rw [times_serve, serve, held_consume_self]
      by_cases haccepted : served.retryAfter limit maxBuckets request = 0
      · rw [if_pos ⟨haccepted, rfl⟩, if_neg (not_le.mpr (retryAfter_eq_zero.mp haccepted))]
        exact hpruned.concat _
      · rw [if_neg fun h => haccepted h.1, List.append_nil,
          if_pos (not_lt.mp fun h => haccepted (retryAfter_eq_zero.mpr h))]
        exact hpruned
    · rw [(hother k hk).1, (hother k hk).2]
      exact h.covers k
  · intro k time htime
    rw [times_serve, List.mem_append] at htime
    rcases htime with htime | htime
    · exact h.past k time htime
    · split at htime
      · exact (List.mem_singleton.mp htime).le
      · cases htime
  · intro k
    by_cases haccepted : served.retryAfter limit maxBuckets request = 0 ∧ request.key = k
    · obtain ⟨haccepted, rfl⟩ := haccepted
      have hlt := retryAfter_eq_zero.mp haccepted
      rw [length_prune (h.covers request.key) (hbounded.sorted request.key) (h.past request.key)]
        at hlt
      rw [times_serve, if_pos ⟨haccepted, rfl⟩]
      exact window_concat_le (h.window request.key) (h.past request.key) hlt
    · rw [times_serve, if_neg haccepted, List.append_nil]
      exact h.window k

theorem Tracked.mono (h : Tracked limit requests now served) (hnow : now ≤ now') :
    Tracked limit requests now' served :=
  { h with
    covers := fun key => (h.covers key).mono hnow
    past := fun key time htime => (h.past key time htime).trans hnow }

/-- As long as there is room for all keys the table keeps track of the accepted requests. -/
theorem tracked_serveAll (hmax : 1 ≤ maxBuckets) (horder : InOrder requests)
    (hroom : (requests.map (·.key)).toFinset.card ≤ maxBuckets)
    (hnow : ∀ request ∈ requests, request.now ≤ now) :
    Tracked limit requests now (serveAll limit maxBuckets requests) := by
  induction requests using List.reverseRecOn generalizing now with
  | nil =>
    exact ⟨fun entry hentry => absurd hentry List.not_mem_nil, fun _ => .refl,
      fun _ time htime => absurd htime List.not_mem_nil, fun _ _ => Nat.zero_le _⟩
  | append_singleton requests request ih =>
    obtain ⟨horder', hlast⟩ := horder.of_concat
    have hroom' : (requests.map (·.key)).toFinset.card ≤ maxBuckets := by
      refine (Finset.card_le_card fun key hkey => ?_).trans hroom
      rw [List.mem_toFinset] at hkey ⊢
      rw [List.map_append]
      exact List.mem_append_left _ hkey
    rw [serveAll_concat]
    exact (tracked_serve (ih horder' hroom' hlast) (bounded_serveAll hmax horder' hlast) hroom).mono
      (hnow request (List.mem_append_right _ (List.mem_singleton_self _)))

omit [DecidableEq κ] in
theorem exists_bound (requests : List (Request κ)) : ∃ now, ∀ request ∈ requests, request.now ≤ now := by
  induction requests with
  | nil => exact ⟨0, fun request h => absurd h List.not_mem_nil⟩
  | cons request requests ih =>
    obtain ⟨now, hnow⟩ := ih
    exact ⟨max request.now now, List.forall_mem_cons.mpr
      ⟨le_max_left .., fun r hr => (hnow r hr).trans (le_max_right ..)⟩⟩

/-! ### Trying again -/

theorem nodup_serveAll (requests : List (Request κ)) :
    ((serveAll limit maxBuckets requests).buckets.map Prod.fst).Nodup := by
  induction requests using List.reverseRecOn with
  | nil => exact List.nodup_nil
  | append_singleton requests request ih =>
    rw [serveAll_concat]
    exact nodup_consume ih

/-- While a key is not used its bucket stays, unless it is evicted. -/
theorem held_serveAll_append (before : List (Request κ)) {between : List (Request κ)}
    (hkeys : ∀ request ∈ between, request.key ≠ key) :
    held (serveAll limit maxBuckets (before ++ between)).buckets key =
        held (serveAll limit maxBuckets before).buckets key ∨
      held (serveAll limit maxBuckets (before ++ between)).buckets key = [] := by
  induction between using List.reverseRecOn with
  | nil =>
    rw [List.append_nil]
    exact .inl rfl
  | append_singleton between request ih =>
    have hbetween := ih fun r hr => hkeys r (List.mem_append_left _ hr)
    have hne : key ≠ request.key :=
      Ne.symm (hkeys request (List.mem_append_right _ (List.mem_singleton_self _)))
    rw [← List.append_assoc, serveAll_concat]
    rcases held_consume_of_ne (nodup_serveAll (before ++ between)) hne with heq | ⟨heq, -⟩
    · rw [serve, heq]
      exact hbetween
    · exact .inr heq

/-- A rejected request is told to wait until the oldest request of its full bucket is out of the
window. -/
theorem retryAfter_of_ne_zero (h : served.retryAfter limit maxBuckets request ≠ 0) :
    limit request.key ≤ (prune 60 (held served.buckets request.key) request.now).length ∧
      served.retryAfter limit maxBuckets request = max 1 ⌈60 - (request.now -
        (prune 60 (held served.buckets request.key) request.now).headD request.now)⌉ := by
  have hfull := not_lt.mp fun hlt => h (retryAfter_eq_zero.mpr hlt)
  refine ⟨hfull, ?_⟩
  rw [Served.retryAfter, consume_eq, if_pos hfull]

/-- A key that was told to wait and has waited finds its bucket no longer full. -/
theorem retryAfter_again (hlimit : ∀ key, 1 ≤ limit key) (hmax : 1 ≤ maxBuckets)
    {before between : List (Request κ)} {again : Request κ} (horder : InOrder (before ++ [request]))
    (hrejected : (serveAll limit maxBuckets before).retryAfter limit maxBuckets request ≠ 0)
    (hkeys : ∀ r ∈ between, r.key ≠ request.key) (hkey : again.key = request.key)
    (hagain : again.now =
      request.now + (serveAll limit maxBuckets before).retryAfter limit maxBuckets request) :
    (serveAll limit maxBuckets (before ++ [request] ++ between)).retryAfter limit maxBuckets again =
      0 := by
  obtain ⟨horder, hlast⟩ := horder.of_concat
  obtain ⟨hfull, hretry⟩ := retryAfter_of_ne_zero hrejected
  have hbounded : Bounded limit maxBuckets request.now (serveAll limit maxBuckets before).buckets :=
    bounded_serveAll hmax horder hlast
  have hbucket : held (serveAll limit maxBuckets (before ++ [request])).buckets request.key =
      prune 60 (held (serveAll limit maxBuckets before).buckets request.key) request.now := by
    rw [serveAll_concat, serve, held_consume_self, if_pos hfull]
  rw [retryAfter_eq_zero, hkey]
  rcases held_serveAll_append (before ++ [request]) hkeys with hheld | hheld
  · rw [hheld, hbucket]
    have hlength := ((sublist_prune 60 _ request.now).length_le).trans
      (hbounded.full request.key)
    cases hpruned : prune 60 (held (serveAll limit maxBuckets before).buckets request.key)
        request.now with
    | nil => exact hlimit request.key
    | cons oldest rest =>
      rw [hpruned] at hlength hretry
      have hwait : 60 - (request.now - oldest) ≤
          ((serveAll limit maxBuckets before).retryAfter limit maxBuckets request : ℚ) := by
        rw [hretry]
        exact (Int.le_ceil _).trans (Int.cast_le.mpr (le_max_right ..))
      have hold : oldest ≤ again.now - 60 := by
        rw [hagain]
        linarith
      rw [prune, List.dropWhile_cons_of_pos (by simpa using hold)]
      exact (Nat.lt_succ_of_le (List.dropWhile_suffix _).length_le).trans_le hlength
  · rw [hheld]
    exact hlimit request.key

/-! ### The limits are kept -/

/-- The limiters have the same table and accept the same requests. -/
theorem serveAllAuthenticated_eq (requests : List (Request κ)) :
    serveAllAuthenticated limit maxBuckets requests = serveAll limit maxBuckets requests := by
  induction requests using List.reverseRecOn with
  | nil => rfl
  | append_singleton requests request ih =>
    rw [serveAll_concat, serveAllAuthenticated, List.foldl_append]
    show serveAuthenticated limit maxBuckets (serveAllAuthenticated limit maxBuckets requests)
      request = _
    have hsame : (consume maxBuckets (serveAll limit maxBuckets requests).buckets request.key
        (limit request.key) request.now).1 = _ ∧ _ := consume_checkBucket
    rw [ih, serveAuthenticated, serve, ← hsame.1]
    simp only [Served.retryAfter, hsame.2]

/-- The services decide like the API about the key and the limit of a category. -/
theorem check_eq_consume {limits : List (String × ℕ)} {category : String}
    (hlimit : limits.lookup category = some bound) (buckets : Buckets String) (identity : String) :
    check limits maxBuckets buckets category identity now =
      some ((consume maxBuckets buckets (category ++ ":" ++ identity) bound now).1,
        if (consume maxBuckets buckets (category ++ ":" ++ identity) bound now).2 = 0 then .ok ()
        else .error (rateLimitError category)) := by
  have hsame : (consume maxBuckets buckets (category ++ ":" ++ identity) bound now).1 = _ ∧ _ :=
    consume_checkBucket
  rw [check, hlimit, hsame.1]
  simp only [hsame.2]
  rfl

/-- Requests come in order. The table never has more buckets than it may. The limiters decide alike.
While there is room for all keys no window holds more accepted requests of a key than its limit, and
a request is rejected only if the window that ends with it is full. A key that waits as it is told
is accepted. -/
theorem sliding_window_limiting (limit : κ → ℕ) (maxBuckets : ℕ) (hlimit : ∀ key, 1 ≤ limit key)
    (hmax : 1 ≤ maxBuckets) (requests : List (Request κ)) (horder : InOrder requests) :
    (serveAll limit maxBuckets requests).buckets.length ≤ maxBuckets ∧
    (∀ before request after, requests = before ++ request :: after →
      ((checkBucket maxBuckets (serveAllAuthenticated limit maxBuckets before).buckets request.key
          (limit request.key) request.now).2 = true ↔
        (serveAll limit maxBuckets before).retryAfter limit maxBuckets request = 0)) ∧
    (∀ limits category identity bound buckets now, limits.lookup category = some bound →
      check limits maxBuckets buckets category identity now =
        some ((consume maxBuckets buckets (category ++ ":" ++ identity) bound now).1,
          if (consume maxBuckets buckets (category ++ ":" ++ identity) bound now).2 = 0 then .ok ()
          else .error (rateLimitError category))) ∧
    ((requests.map (·.key)).toFinset.card ≤ maxBuckets →
      (∀ key t, (window 60 ((serveAll limit maxBuckets requests).times key) t).length ≤ limit key) ∧
      ∀ before request after, requests = before ++ request :: after →
        (serveAll limit maxBuckets before).retryAfter limit maxBuckets request ≠ 0 →
        (window 60 ((serveAll limit maxBuckets before).times request.key) request.now).length =
          limit request.key) ∧
    ∀ before request between again after, requests = before ++ request :: between ++ again :: after →
      (serveAll limit maxBuckets before).retryAfter limit maxBuckets request ≠ 0 →
      (∀ r ∈ between, r.key ≠ request.key) → again.key = request.key →
      again.now =
        request.now + (serveAll limit maxBuckets before).retryAfter limit maxBuckets request →
      (serveAll limit maxBuckets (before ++ request :: between)).retryAfter limit maxBuckets again =
        0 := by
  have hinitial {before after : List (Request κ)} {request : Request κ}
      (hrequests : requests = before ++ request :: after) : (before ++ [request]).Sublist requests := by
    have hsplit : requests = before ++ [request] ++ after := by
      rw [hrequests, List.append_assoc, List.singleton_append]
    rw [hsplit]
    exact List.sublist_append_left ..
  refine ⟨?_, ?_, fun limits category identity bound buckets now h => check_eq_consume h buckets
    identity, fun hroom => ⟨fun key t => ?_, ?_⟩, ?_⟩
  · obtain ⟨now, hnow⟩ := exists_bound requests
    exact (bounded_serveAll hmax horder hnow).size
  · rintro before request after -
    rw [serveAllAuthenticated_eq, Served.retryAfter]
    exact consume_checkBucket.2.symm
  · obtain ⟨now, hnow⟩ := exists_bound requests
    exact (tracked_serveAll hmax horder hroom hnow).window key t
  · intro before request after hrequests hrejected
    have hconcat : InOrder (before ++ [request]) := horder.sublist (hinitial hrequests)
    obtain ⟨horder', hlast⟩ := hconcat.of_concat
    have hroom' : (before.map (·.key)).toFinset.card ≤ maxBuckets := by
      refine (Finset.card_le_card fun key hkey => ?_).trans hroom
      rw [List.mem_toFinset] at hkey ⊢
      rw [hrequests, List.map_append]
      exact List.mem_append_left _ hkey
    have hbounded : Bounded limit maxBuckets request.now
        (serveAll limit maxBuckets before).buckets := bounded_serveAll hmax horder' hlast
    have htracked : Tracked limit before request.now (serveAll limit maxBuckets before) :=
      tracked_serveAll hmax horder' hroom' hlast
    refine le_antisymm (htracked.window request.key request.now) ?_
    rw [← length_prune (htracked.covers request.key) (hbounded.sorted request.key)
      (htracked.past request.key)]
    exact (retryAfter_of_ne_zero hrejected).1
  · intro before request between again after hrequests hrejected hkeys hkey hagain
    have hsplit : requests = before ++ request :: (between ++ again :: after) := by
      rw [hrequests, List.append_assoc, List.cons_append]
    have hretry := retryAfter_again hlimit hmax (horder.sublist (hinitial hsplit)) hrejected hkeys
      hkey hagain
    rw [List.append_assoc, List.singleton_append] at hretry
    exact hretry

/-- Three requests of one key; the second one comes too early. -/
def sampleRequests : List (Request ℕ) := [⟨0, 0⟩, ⟨0, 10⟩, ⟨0, 60⟩]

theorem sliding_window_limiting_sample :
    (∀ key t, (window 60 ((serveAll (fun _ => 1) 1 sampleRequests).times key) t).length ≤ 1) ∧
      (serveAll (fun _ => 1) 1 ([⟨0, 0⟩, ⟨0, 10⟩] : List (Request ℕ))).retryAfter (fun _ => 1) 1
        ⟨0, 60⟩ = 0 := by
  have horder : InOrder sampleRequests := by
    simp only [InOrder, sampleRequests, List.pairwise_cons, List.forall_mem_cons,
      List.not_mem_nil, false_implies, implies_true, and_true, List.Pairwise.nil]
    norm_num
  have h := sliding_window_limiting (fun _ : ℕ => 1) 1 (fun _ => le_rfl) le_rfl sampleRequests horder
  have hroom : (sampleRequests.map (·.key)).toFinset.card ≤ 1 := by decide
  refine ⟨(h.2.2.2.1 hroom).1, h.2.2.2.2 [⟨0, 0⟩] ⟨0, 10⟩ [] ⟨0, 60⟩ [] rfl ?_ (by simp) rfl ?_⟩
  · decide +kernel
  · decide +kernel

end TraceFence
