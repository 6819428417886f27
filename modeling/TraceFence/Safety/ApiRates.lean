import TraceFence.Api.Middleware
import TraceFence.Safety.RateLimiting

/-!
# The rate of the requests to the API

A request to the API is counted under the key of its client and, if that has room and the request
names the operator, under the key of the operator. So the middleware serves a list of requests of
the limiter that it makes up as it goes: one request of it may be two of the limiter, or one only,
if it is refused at the first.

## Main definitions

* `ApiRequest.keys`, `Gate.charges` — the keys a request has, and those it is counted under
* `Charged` — the requests of the limiter that a table comes from

## Main results

* `api_rates` — the windows of what is let pass, and when a request is refused
-/

namespace TraceFence

open SlidingWindow

variable {limits : ApiLimits} {requests : List ApiRequest} {request : ApiRequest} {gate : Gate}
  {served : Served String} {calls : List (Request String)} {scope : Scope} {key : String} {now : ℚ}

/-! ### Keys -/

/-- The keys a request is counted under. -/
def ApiRequest.keys (limits : ApiLimits) (request : ApiRequest) : List String :=
  if request.scope.counts then
    request.scope.clientKey limits :: ((request.scope.operatorBucket limits).map Prod.fst).toList
  else []

/-- The limit of a key. -/
def ApiLimits.limitOf (limits : ApiLimits) (key : String) : ℕ :=
  if "proof:".toList.isPrefixOf key.toList then limits.proofRequestsPerMinute
  else limits.requestsPerMinute

theorem limitOf_clientKey : limits.limitOf (scope.clientKey limits) = limits.requestsPerMinute := by
  rw [ApiLimits.limitOf, Scope.clientKey, String.toList_append]
  rfl

theorem limitOf_operatorBucket {bucket : String × ℕ} (h : scope.operatorBucket limits = some bucket) :
    limits.limitOf bucket.1 = bucket.2 := by
  obtain ⟨operator, _, rfl⟩ := Option.map_eq_some_iff.mp h
  split_ifs
  · rw [ApiLimits.limitOf, String.toList_append]
    rfl
  · rw [ApiLimits.limitOf, String.toList_append]
    rfl

/-- A client is no operator. -/
theorem operatorBucket_ne_clientKey {bucket : String × ℕ}
    (h : scope.operatorBucket limits = some bucket) : bucket.1 ≠ scope.clientKey limits := by
  obtain ⟨operator, _, rfl⟩ := Option.map_eq_some_iff.mp h
  intro heq
  have hfirst := congrArg (fun key : String => key.toList.head?) heq
  split_ifs at hfirst
  · rw [Scope.clientKey, String.toList_append, String.toList_append] at hfirst
    have hletter : 'p' = 'i' := Option.some.inj hfirst
    exact absurd hletter (by decide)
  · rw [Scope.clientKey, String.toList_append, String.toList_append] at hfirst
    have hletter : 'o' = 'i' := Option.some.inj hfirst
    exact absurd hletter (by decide)

/-- The times of the requests that were let pass under a key. -/
def Gate.times (limits : ApiLimits) (gate : Gate) (key : String) : List ℚ :=
  (gate.passed.filter fun request => key ∈ request.keys limits).map (·.now)

/-- The times of the requests that came with a key. -/
def arrivals (limits : ApiLimits) (requests : List ApiRequest) (key : String) : List ℚ :=
  (requests.filter fun request => key ∈ request.keys limits).map (·.now)

/-! ### What a request is counted under -/

/-- The requests of the limiter that a request to the API makes. -/
def Gate.charges (limits : ApiLimits) (gate : Gate) (request : ApiRequest) : List (Request String) :=
  if request.scope.counts then
    ⟨request.scope.clientKey limits, request.now⟩ ::
      if (consume limits.maxBuckets gate.buckets (request.scope.clientKey limits)
          limits.requestsPerMinute request.now).2 = 0 then
        ((request.scope.operatorBucket limits).map fun bucket => ⟨bucket.1, request.now⟩).toList
      else []
  else []

/-- Each is at the time of the request and under a key of it, and under no key there are two. -/
theorem charges_sublist : (gate.charges limits request).Sublist
    ((request.keys limits).map fun key => ⟨key, request.now⟩) := by
  rw [Gate.charges, ApiRequest.keys]
  split_ifs
  · rw [List.map_cons]
    refine List.Sublist.cons_cons _ ?_
    cases request.scope.operatorBucket limits <;> exact List.Sublist.refl _
  · exact List.Sublist.cons_cons _ (List.nil_sublist _)
  · exact List.nil_sublist _

theorem nodup_keys : (request.keys limits).Nodup := by
  rw [ApiRequest.keys]
  split_ifs
  · rw [List.nodup_cons]
    constructor
    · intro hmem
      obtain ⟨bucket, hbucket, heq⟩ := Option.map_eq_some_iff.mp (Option.mem_toList.mp hmem)
      exact operatorBucket_ne_clientKey hbucket heq
    · cases request.scope.operatorBucket limits
      · exact List.nodup_nil
      · exact List.nodup_singleton _
  · exact List.nodup_nil

/-- Whether a request is let pass. -/
def Gate.Lets (limits : ApiLimits) (gate : Gate) (request : ApiRequest) : Prop :=
  request.scope.counts → (retryAfter limits gate.buckets request.now request.scope).2 = 0

/-- What the limiter does with a request for a client is what the middleware does. -/
theorem serve_client (h : served.buckets = gate.buckets) :
    serve limits.limitOf limits.maxBuckets served ⟨scope.clientKey limits, now⟩ =
      { buckets := (consume limits.maxBuckets gate.buckets (scope.clientKey limits)
          limits.requestsPerMinute now).1
        accepted := served.accepted ++ if (consume limits.maxBuckets gate.buckets
          (scope.clientKey limits) limits.requestsPerMinute now).2 = 0
            then [⟨scope.clientKey limits, now⟩] else [] } := by
  rw [serve, Served.retryAfter, h, limitOf_clientKey]

/-- And for an operator. -/
theorem serve_operator {bucket : String × ℕ} (h : scope.operatorBucket limits = some bucket) :
    serve limits.limitOf limits.maxBuckets served ⟨bucket.1, now⟩ =
      { buckets := (consume limits.maxBuckets served.buckets bucket.1 bucket.2 now).1
        accepted := served.accepted ++ if (consume limits.maxBuckets served.buckets bucket.1
          bucket.2 now).2 = 0 then [⟨bucket.1, now⟩] else [] } := by
  rw [serve, Served.retryAfter, limitOf_operatorBucket h]

/-- **The middleware is the limiter on the requests it makes up.** A request is let pass if the
limiter accepts it under all its keys. -/
theorem serve_charges (h : served.buckets = gate.buckets) :
    (gate.serve limits request).buckets =
        ((gate.charges limits request).foldl (serve limits.limitOf limits.maxBuckets) served).buckets ∧
      ∃ accepted : List (Request String),
        ((gate.charges limits request).foldl (serve limits.limitOf limits.maxBuckets) served).accepted =
          served.accepted ++ accepted ∧
        (gate.Lets limits request → accepted = (request.keys limits).map fun key => ⟨key, request.now⟩) := by
  by_cases hcounts : request.scope.counts
  · rw [Gate.serve, Gate.charges, ApiRequest.keys, Gate.Lets, if_pos hcounts, if_pos hcounts,
      if_pos hcounts, retryAfter, List.foldl_cons, serve_client h]
    generalize hclient : consume limits.maxBuckets gate.buckets (request.scope.clientKey limits)
      limits.requestsPerMinute request.now = client
    by_cases hfirst : client.2 = 0
    · rw [if_pos hfirst, if_pos hfirst]
      cases hbucket : request.scope.operatorBucket limits with
      | none => exact ⟨rfl, _, rfl, fun _ => rfl⟩
      | some bucket =>
        simp only [if_pos hfirst, Option.map_some, Option.toList_some, List.foldl_cons,
          List.foldl_nil, serve_operator hbucket]
        refine ⟨trivial, _, List.append_assoc .., fun hlets => ?_⟩
        rw [if_pos (hlets hcounts)]
        rfl
    · simp only [if_neg hfirst, List.foldl_nil]
      refine ⟨?_, [], rfl, fun hlets => absurd (hlets hcounts) ?_⟩
      · cases request.scope.operatorBucket limits <;> rfl
      · cases request.scope.operatorBucket limits <;> exact hfirst
  · rw [Gate.serve, Gate.charges, ApiRequest.keys, if_neg hcounts, if_neg hcounts, if_neg hcounts]
    exact ⟨h.symm, [], (List.append_nil _).symm, fun _ => rfl⟩

theorem passed_serve : (gate.serve limits request).passed = gate.passed ++ [request] ∧
      gate.Lets limits request ∨
    (gate.serve limits request).passed = gate.passed ∧ ¬ gate.Lets limits request := by
  rw [Gate.serve, Gate.Lets]
  by_cases hcounts : request.scope.counts
  · rw [if_pos hcounts]
    by_cases hretry : (retryAfter limits gate.buckets request.now request.scope).2 = 0
    · exact Or.inl ⟨congrArg _ (if_neg (not_not.mpr hretry)), fun _ => hretry⟩
    · exact Or.inr ⟨(congrArg _ (if_pos hretry)).trans (List.append_nil _),
        fun hlets => hretry (hlets hcounts)⟩
  · rw [if_neg hcounts]
    exact Or.inl ⟨rfl, fun h => absurd h hcounts⟩

/-- What the layer does with a request, and what it makes of the application. -/
theorem rateLimit_serve (app : App) :
    (rateLimit limits gate.buckets request.now request.scope app).1 =
        (gate.serve limits request).buckets ∧
      (gate.Lets limits request →
        (rateLimit limits gate.buckets request.now request.scope app).2 = app) ∧
      (¬ gate.Lets limits request →
        (rateLimit limits gate.buckets request.now request.scope app).2 = rateLimitExceeded
          (retryAfter limits gate.buckets request.now request.scope).2) := by
  rw [rateLimit, Gate.serve, Gate.Lets]
  by_cases hcounts : request.scope.counts
  · rw [if_pos hcounts, if_pos hcounts]
    refine ⟨rfl, fun hlets => if_neg (not_not.mpr (hlets hcounts)), fun hrefused => ?_⟩
    exact if_pos (Classical.not_imp.mp hrefused).2
  · rw [if_neg hcounts, if_neg hcounts]
    exact ⟨rfl, fun _ => rfl, fun hrefused => absurd (fun h => absurd h hcounts) hrefused⟩

/-! ### Runs -/

theorem serveApi_concat (requests : List ApiRequest) (request : ApiRequest) :
    serveApi limits (requests ++ [request]) = (serveApi limits requests).serve limits request := by
  rw [serveApi, List.foldl_append]
  rfl

/-- The times at one key of requests with different keys. -/
theorem times_of_nodup {keys : List String} (hnodup : keys.Nodup) :
    ((keys.map fun k => (⟨k, now⟩ : Request String)).filter fun r => r.key = key).map (·.now) =
      if key ∈ keys then [now] else [] := by
  induction keys with
  | nil => rfl
  | cons k keys ih =>
    obtain ⟨hk, hkeys⟩ := List.nodup_cons.mp hnodup
    by_cases heq : k = key
    · subst heq
      have hrest := ih hkeys
      rw [if_neg hk] at hrest
      simp only [List.map_cons, List.filter_cons, decide_true, if_true, hrest,
        if_pos List.mem_cons_self]
    · simp only [List.map_cons, List.filter_cons, decide_eq_true_eq, if_neg heq, ih hkeys,
        List.mem_cons, Ne.symm heq, false_or]

/-- The requests of the limiter that the table comes from. -/
structure Charged (limits : ApiLimits) (requests : List ApiRequest) (gate : Gate)
    (calls : List (Request String)) : Prop where
  buckets : gate.buckets = (serveAll limits.limitOf limits.maxBuckets calls).buckets
  times : ∀ key, (gate.times limits key).Sublist
    ((serveAll limits.limitOf limits.maxBuckets calls).times key)
  arrivals : ∀ key, ((calls.filter fun call => call.key = key).map (·.now)).Sublist
    (arrivals limits requests key)
  source : ∀ call ∈ calls, ∃ request ∈ requests,
    call.key ∈ request.keys limits ∧ call.now = request.now
  order : InOrder calls

theorem charged_serve (h : Charged limits requests gate calls)
    (hlast : ∀ earlier ∈ requests, earlier.now ≤ request.now) :
    Charged limits (requests ++ [request]) (gate.serve limits request)
      (calls ++ gate.charges limits request) := by
  obtain ⟨hbuckets, accepted, haccepted, hlets⟩ := @serve_charges limits request gate _ h.buckets.symm
  have hall : serveAll limits.limitOf limits.maxBuckets (calls ++ gate.charges limits request) =
      (gate.charges limits request).foldl (serve limits.limitOf limits.maxBuckets)
        (serveAll limits.limitOf limits.maxBuckets calls) := List.foldl_append ..
  have hcharges : ∀ call ∈ gate.charges limits request,
      call.key ∈ request.keys limits ∧ call.now = request.now := by
    intro call hcall
    obtain ⟨k, hk, rfl⟩ := List.mem_map.mp (charges_sublist.subset hcall)
    exact ⟨hk, rfl⟩
  constructor
  · rw [hall, hbuckets]
  · intro key
    rw [hall, Served.times, haccepted, List.filter_append, List.map_append]
    rcases @passed_serve limits request gate with ⟨hpassed, hpass⟩ | ⟨hpassed, _⟩
    · rw [Gate.times, hpassed, List.filter_append, List.map_append, hlets hpass,
        times_of_nodup nodup_keys]
      refine List.Sublist.append (h.times key) ?_
      by_cases hkey : key ∈ request.keys limits <;> simp [hkey]
    · rw [Gate.times, hpassed]
      exact (h.times key).trans (List.sublist_append_left ..)
  · intro key
    rw [arrivals, List.filter_append, List.map_append, List.filter_append, List.map_append]
    refine List.Sublist.append (h.arrivals key) ?_
    refine ((charges_sublist.filter _).map _).trans ?_
    rw [times_of_nodup nodup_keys]
    by_cases hkey : key ∈ request.keys limits <;> simp [hkey]
  · intro call hcall
    rcases List.mem_append.mp hcall with hcall | hcall
    · obtain ⟨r, hr, hsource⟩ := h.source call hcall
      exact ⟨r, List.mem_append_left _ hr, hsource⟩
    · exact ⟨request, List.mem_append_right _ (List.mem_singleton_self _), hcharges call hcall⟩
  · refine List.pairwise_append.mpr ⟨h.order, ?_, ?_⟩
    · refine List.pairwise_of_forall_mem_list ?_
      intro call hcall call' hcall'
      exact le_of_eq ((hcharges call hcall).2.trans (hcharges call' hcall').2.symm)
    · intro call hcall call' hcall'
      obtain ⟨r, hr, _, hnow⟩ := h.source call hcall
      rw [hnow, (hcharges call' hcall').2]
      exact hlast r hr

theorem charged_serveApi (horder : requests.Pairwise fun a b => a.now ≤ b.now) :
    ∃ calls, Charged limits requests (serveApi limits requests) calls := by
  induction requests using List.reverseRecOn with
  | nil =>
    exact ⟨[], rfl, fun _ => List.Sublist.refl _, fun _ => List.Sublist.refl _,
      fun call hcall => absurd hcall List.not_mem_nil, List.Pairwise.nil⟩
  | append_singleton requests request ih =>
    obtain ⟨horder, _, hlast⟩ := List.pairwise_append.mp horder
    obtain ⟨calls, hcalls⟩ := ih horder
    rw [serveApi_concat]
    exact ⟨_, charged_serve hcalls fun earlier hearlier =>
      hlast earlier hearlier request (List.mem_singleton_self _)⟩

/-! ### What the table holds -/

/-- A bucket holds times of requests of its key, in order. -/
theorem held_sublist (limit : String → ℕ) (maxBuckets : ℕ) (key : String) :
    (held (serveAll limit maxBuckets calls).buckets key).Sublist
      ((calls.filter fun call => call.key = key).map (·.now)) := by
  induction calls using List.reverseRecOn generalizing key with
  | nil => exact List.Sublist.refl _
  | append_singleton calls call ih =>
    have hgrow (k : String) : ((calls.filter fun c => c.key = k).map (·.now)).Sublist
        (((calls ++ [call]).filter fun c => c.key = k).map (·.now)) :=
      ((List.sublist_append_left ..).filter _).map _
    rw [serveAll_concat]
    refine forall_held_consume (p := fun k bucket => bucket.Sublist
        (((calls ++ [call]).filter fun c => c.key = k).map (·.now))) (nodup_serveAll calls)
      (fun _ => List.nil_sublist _) (fun k => (ih k).trans (hgrow k)) ?_ ?_ key
    · exact (sublist_prune ..).trans ((ih call.key).trans (hgrow call.key))
    · intro _
      rw [List.filter_append, List.map_append]
      refine List.Sublist.append ((sublist_prune ..).trans (ih call.key)) ?_
      simp

/-- **A limiter refuses only if that many requests have come in the last minute**, and says to come
back within one. -/
theorem consume_refuses {limit : String → ℕ} {maxBuckets : ℕ} (hmax : 1 ≤ maxBuckets)
    (horder : InOrder calls) (hpast : ∀ call ∈ calls, call.now ≤ now) {times : List ℚ}
    (htimes : ((calls.filter fun call => call.key = key).map (·.now)).Sublist times)
    (hrefused : (consume maxBuckets (serveAll limit maxBuckets calls).buckets key (limit key) now).2 ≠ 0) :
    1 ≤ (consume maxBuckets (serveAll limit maxBuckets calls).buckets key (limit key) now).2 ∧
      (consume maxBuckets (serveAll limit maxBuckets calls).buckets key (limit key) now).2 ≤ 60 ∧
      limit key ≤ (window 60 times now).length := by
  obtain ⟨hfull, hretry⟩ := @retryAfter_of_ne_zero _ _ limit maxBuckets _ ⟨key, now⟩ hrefused
  have hbounded : Bounded limit maxBuckets now (serveAll limit maxBuckets calls).buckets :=
    bounded_serveAll hmax horder hpast
  have hpruned : prune 60 (held (serveAll limit maxBuckets calls).buckets key) now =
      window 60 (held (serveAll limit maxBuckets calls).buckets key) now :=
    (prune_eq_recent (hbounded.sorted key)).trans (window_eq_recent (hbounded.past key)).symm
  rw [Served.retryAfter] at hretry
  refine ⟨hretry ▸ le_max_left .., hretry ▸ max_le (by decide) (Int.ceil_le.mpr ?_), ?_⟩
  · have hhead : (prune 60 (held (serveAll limit maxBuckets calls).buckets key) now).headD now ≤
        now := by
      cases hbucket : prune 60 (held (serveAll limit maxBuckets calls).buckets key) now with
      | nil => exact le_rfl
      | cons oldest rest =>
        exact hbounded.past key oldest ((sublist_prune ..).subset (hbucket ▸ List.mem_cons_self))
    push_cast
    linarith
  · rw [hpruned] at hfull
    exact hfull.trans (((held_sublist limit maxBuckets key).trans htimes).filter _).length_le

/-- A request is refused under the key of its client or under that of the operator. -/
theorem retryAfter_cases {buckets : Buckets String} :
    retryAfter limits buckets now scope = consume limits.maxBuckets buckets (scope.clientKey limits)
        (limits.limitOf (scope.clientKey limits)) now ∨
      ∃ bucket, scope.operatorBucket limits = some bucket ∧
        retryAfter limits buckets now scope = consume limits.maxBuckets
          (consume limits.maxBuckets buckets (scope.clientKey limits)
            (limits.limitOf (scope.clientKey limits)) now).1 bucket.1 (limits.limitOf bucket.1) now := by
  rw [retryAfter, limitOf_clientKey]
  cases hbucket : scope.operatorBucket limits with
  | none => exact Or.inl rfl
  | some bucket =>
    by_cases hclient : (consume limits.maxBuckets buckets (scope.clientKey limits)
        limits.requestsPerMinute now).2 = 0
    · right
      refine ⟨bucket, rfl, ?_⟩
      rw [limitOf_operatorBucket hbucket]
      exact if_pos hclient
    · exact Or.inl (if_neg hclient)

theorem InOrder.concat {call : Request String} (h : InOrder calls)
    (hlast : ∀ earlier ∈ calls, earlier.now ≤ call.now) : InOrder (calls ++ [call]) := by
  refine List.pairwise_append.mpr ⟨h, List.pairwise_singleton .., ?_⟩
  intro earlier hearlier last hcall
  rw [List.mem_singleton.mp hcall]
  exact hlast earlier hearlier

/-- A request of one key adds nothing to the requests of another. -/
theorem filter_concat_of_ne {call : Request String} (h : call.key ≠ key) :
    (calls ++ [call]).filter (fun c => c.key = key) = calls.filter fun c => c.key = key := by
  rw [List.filter_append, List.filter_singleton, decide_eq_false h]
  exact List.append_nil _

/-- **A request is refused only if one of its keys is full.** -/
theorem refused_full (hmax : 1 ≤ limits.maxBuckets)
    (horder : requests.Pairwise fun a b => a.now ≤ b.now)
    (hlast : ∀ earlier ∈ requests, earlier.now ≤ request.now)
    (hrefused : ¬ (serveApi limits requests).Lets limits request) :
    1 ≤ (retryAfter limits (serveApi limits requests).buckets request.now request.scope).2 ∧
      (retryAfter limits (serveApi limits requests).buckets request.now request.scope).2 ≤ 60 ∧
      ∃ key ∈ request.keys limits,
        limits.limitOf key ≤ (window 60 (arrivals limits requests key) request.now).length := by
  obtain ⟨hcounts, hretry⟩ := Classical.not_imp.mp hrefused
  obtain ⟨calls, hcalls⟩ := charged_serveApi horder
  have hpast : ∀ call ∈ calls, call.now ≤ request.now := by
    intro call hcall
    obtain ⟨earlier, hearlier, _, hnow⟩ := hcalls.source call hcall
    rw [hnow]
    exact hlast earlier hearlier
  have hclientKey : request.scope.clientKey limits ∈ request.keys limits := by
    rw [ApiRequest.keys, if_pos hcounts]
    exact List.mem_cons_self
  rw [hcalls.buckets] at hretry ⊢
  rcases retryAfter_cases with hclient | ⟨bucket, hbucket, hoperator⟩
  · rw [hclient] at hretry ⊢
    obtain ⟨hone, hsixty, hfull⟩ :=
      consume_refuses hmax hcalls.order hpast (hcalls.arrivals _) hretry
    exact ⟨hone, hsixty, _, hclientKey, hfull⟩
  · -- The limiter has counted the request under the key of its client by then.
    have hserved : (consume limits.maxBuckets
          (serveAll limits.limitOf limits.maxBuckets calls).buckets (request.scope.clientKey limits)
          (limits.limitOf (request.scope.clientKey limits)) request.now).1 =
        (serveAll limits.limitOf limits.maxBuckets
          (calls ++ [⟨request.scope.clientKey limits, request.now⟩])).buckets := by
      rw [serveAll_concat]
      rfl
    have hnow : ∀ call ∈ calls ++ [⟨request.scope.clientKey limits, request.now⟩],
        call.now ≤ request.now :=
      List.forall_mem_append.mpr ⟨hpast, List.forall_mem_singleton.mpr le_rfl⟩
    rw [hserved] at hoperator
    rw [hoperator] at hretry ⊢
    have harrivals : (((calls ++ [(⟨request.scope.clientKey limits, request.now⟩ :
        Request String)]).filter fun call => call.key = bucket.1).map (·.now)).Sublist
          (arrivals limits requests bucket.1) := by
      rw [filter_concat_of_ne (Ne.symm (operatorBucket_ne_clientKey hbucket))]
      exact hcalls.arrivals bucket.1
    obtain ⟨hone, hsixty, hfull⟩ :=
      consume_refuses hmax (hcalls.order.concat hpast) hnow harrivals hretry
    refine ⟨hone, hsixty, _, ?_, hfull⟩
    rw [ApiRequest.keys, if_pos hcounts, hbucket]
    exact List.mem_cons_of_mem _ (List.mem_singleton_self _)

/-! ### The limits are kept -/

/-- Requests come in order. The table never has more buckets than it may. While there is room for
all keys, no window holds more requests let pass under a key than its limit. A request goes to the
application, or it is refused: then it is told to come back within a minute, and as many requests as
its limit have come under one of its keys in the last one. -/
theorem api_rates (hmax : 1 ≤ limits.maxBuckets)
    (horder : requests.Pairwise fun a b => a.now ≤ b.now) :
    (serveApi limits requests).buckets.length ≤ limits.maxBuckets ∧
    ((requests.flatMap (ApiRequest.keys limits)).toFinset.card ≤ limits.maxBuckets →
      ∀ key t, (window 60 ((serveApi limits requests).times limits key) t).length ≤
        limits.limitOf key) ∧
    ∀ before request after, requests = before ++ request :: after →
      (serveApi limits (before ++ [request])).passed = (serveApi limits before).passed ++ [request] ∧
        (∀ app, rateLimit limits (serveApi limits before).buckets request.now request.scope app =
          ((serveApi limits (before ++ [request])).buckets, app)) ∨
      (serveApi limits (before ++ [request])).passed = (serveApi limits before).passed ∧
        ∃ seconds : ℤ, 1 ≤ seconds ∧ seconds ≤ 60 ∧
        (∀ app, rateLimit limits (serveApi limits before).buckets request.now request.scope app =
          ((serveApi limits (before ++ [request])).buckets, rateLimitExceeded seconds)) ∧
        ∃ key ∈ request.keys limits,
          limits.limitOf key ≤ (window 60 (arrivals limits before key) request.now).length := by
  refine ⟨?_, fun hroom key t => ?_, ?_⟩
  · obtain ⟨calls, hcalls⟩ := @charged_serveApi limits _ horder
    obtain ⟨now, hnow⟩ := exists_bound calls
    rw [hcalls.buckets]
    exact (bounded_serveAll hmax hcalls.order hnow).size
  · obtain ⟨calls, hcalls⟩ := @charged_serveApi limits _ horder
    obtain ⟨now, hnow⟩ := exists_bound calls
    have hkeys : (calls.map (·.key)).toFinset.card ≤ limits.maxBuckets := by
      refine (Finset.card_le_card fun k hk => ?_).trans hroom
      rw [List.mem_toFinset] at hk ⊢
      obtain ⟨call, hcall, rfl⟩ := List.mem_map.mp hk
      obtain ⟨request, hrequest, hkey, _⟩ := hcalls.source call hcall
      exact List.mem_flatMap.mpr ⟨request, hrequest, hkey⟩
    exact (((hcalls.times key).filter _).length_le).trans
      ((tracked_serveAll hmax hcalls.order hkeys hnow).window key t)
  · rintro before request after rfl
    obtain ⟨hbefore, _, hlast⟩ := List.pairwise_append.mp horder
    rw [serveApi_concat]
    rcases passed_serve with ⟨hpassed, hlets⟩ | ⟨hpassed, hrefused⟩
    · refine Or.inl ⟨hpassed, fun app => ?_⟩
      exact Prod.ext (rateLimit_serve app).1 ((rateLimit_serve app).2.1 hlets)
    · obtain ⟨hone, hsixty, hfull⟩ := refused_full hmax hbefore
        (fun earlier hearlier => hlast earlier hearlier request List.mem_cons_self) hrefused
      refine Or.inr ⟨hpassed, _, hone, hsixty, fun app => ?_, hfull⟩
      exact Prod.ext (rateLimit_serve app).1 ((rateLimit_serve app).2.2 hrefused)

/-- The sample limits, and an operator with a key. -/
def sampleOperator : ApiLimits :=
  { sampleLimits with operatorKey := "sample-operator-key-of-24", maxBuckets := 8 }

def operatorRequest (client path : String) (now : ℚ) : ApiRequest where
  scope :=
    { path, client
      headers := [("x-operator-key".toList, sampleOperator.operatorKey.toList)] }
  now := now

/-- An operator sends requests from three clients. It may have two of them in a minute, and one for
a proof besides. -/
def sampleApiRequests : List ApiRequest :=
  [operatorRequest "a" "/v1/runs" 0, operatorRequest "b" "/v1/runs" 10,
    operatorRequest "c" "/v1/runs" 20, operatorRequest "a" "/v1/commands/1/proof" 30,
    operatorRequest "b" "/v1/commands/1/proof" 40, operatorRequest "c" "/v1/runs" 61]

/-- The third and the fifth are refused, though their clients have sent few enough. -/
theorem api_rates_sample :
    (∀ key t, (window 60 ((serveApi sampleOperator sampleApiRequests).times sampleOperator key)
      t).length ≤ sampleOperator.limitOf key) ∧
    (serveApi sampleOperator sampleApiRequests).passed.map (·.now) = [0, 10, 30, 61] := by
  have horder : sampleApiRequests.Pairwise fun a b => a.now ≤ b.now := by decide +kernel
  exact ⟨(@api_rates sampleOperator _ (by decide) horder).2.1 (by decide +kernel),
    by decide +kernel⟩

end TraceFence
