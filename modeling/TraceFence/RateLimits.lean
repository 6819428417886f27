import Mathlib.Algebra.Order.Ring.Rat
import Mathlib.Data.List.Basic
import Mathlib.Data.Rat.Floor
import TraceFence.Domain.Enums

/-!
# The two rate limiters

`AuthenticatedRateLimiter.check` and `RateLimitMiddleware._consume` count the requests of the last
minute in a bounded table of buckets, one for each key, the least recently used first. Times are
rational.

## Main definitions

* `checkBucket`, `check` — the limiter of the services
* `consume` — the limiter of the API
* `Request`, `serveAll` — requests in order, and what the limiters make of them
-/

namespace TraceFence

variable {κ : Type} [DecidableEq κ]

/-- `_buckets`: the times of the requests that were accepted, by key. -/
abbrev Buckets (κ : Type) := List (κ × List ℚ)

/-! ### `AuthenticatedRateLimiter` -/

/-- `check`, with the limit of the category and the key at hand: whether the request is accepted. -/
def checkBucket (maxBuckets : ℕ) (buckets : Buckets κ) (key : κ) (limit : ℕ) (observedAt : ℚ) :
    Buckets κ × Bool :=
  let cutoff := observedAt - 60
  let (others, bucket) :=
    match buckets.lookup key with
    | none => (if maxBuckets ≤ buckets.length then buckets.drop 1 else buckets, [])
    | some bucket => (buckets.filter fun entry => entry.1 ≠ key, bucket)
  let bucket := bucket.dropWhile fun time => time ≤ cutoff
  if limit ≤ bucket.length then (others ++ [(key, bucket)], false)
  else (others ++ [(key, bucket ++ [observedAt])], true)

/-- `check`. A category without a limit is a `KeyError`. -/
def check (limits : List (String × ℕ)) (maxBuckets : ℕ) (buckets : Buckets String)
    (category identity : String) (observedAt : ℚ) :
    Option (Buckets String × Except Failure Unit) :=
  (limits.lookup category).map fun limit =>
    let (buckets, accepted) :=
      checkBucket maxBuckets buckets (category ++ ":" ++ identity) limit observedAt
    (buckets, if accepted then .ok () else .error (rateLimitError category))

/-! ### `RateLimitMiddleware` -/

/-- `_consume`: the seconds after which to try again, or zero. -/
def consume (maxBuckets : ℕ) (buckets : Buckets κ) (key : κ) (limit : ℕ) (now : ℚ) :
    Buckets κ × ℤ :=
  let cutoff := now - 60
  let (others, bucket) :=
    match buckets.lookup key with
    | none => (if maxBuckets ≤ buckets.length then buckets.drop 1 else buckets, [])
    | some bucket => (buckets.filter fun entry => entry.1 ≠ key, bucket)
  let bucket := bucket.dropWhile fun time => time ≤ cutoff
  if limit ≤ bucket.length then
    (others ++ [(key, bucket)], max 1 ⌈60 - (now - bucket.headD now)⌉)
  else (others ++ [(key, bucket ++ [now])], 0)

/-! ### Requests -/

/-- A request of a key. -/
structure Request (κ : Type) where
  key : κ
  now : ℚ
  deriving DecidableEq

/-- The table of a limiter, and the requests it has accepted. -/
structure Served (κ : Type) where
  buckets : Buckets κ := []
  accepted : List (Request κ) := []

variable (limit : κ → ℕ) (maxBuckets : ℕ)

/-- What `_consume` answers to a request. -/
def Served.retryAfter (served : Served κ) (request : Request κ) : ℤ :=
  (consume maxBuckets served.buckets request.key (limit request.key) request.now).2

/-- A request to the API. -/
def serve (served : Served κ) (request : Request κ) : Served κ where
  buckets := (consume maxBuckets served.buckets request.key (limit request.key) request.now).1
  accepted := served.accepted ++
    if served.retryAfter limit maxBuckets request = 0 then [request] else []

/-- Requests to the API, in order. -/
def serveAll (requests : List (Request κ)) : Served κ := requests.foldl (serve limit maxBuckets) {}

/-- A request to the services. -/
def serveAuthenticated (served : Served κ) (request : Request κ) : Served κ where
  buckets := (checkBucket maxBuckets served.buckets request.key (limit request.key) request.now).1
  accepted := served.accepted ++
    if (checkBucket maxBuckets served.buckets request.key (limit request.key) request.now).2
      then [request] else []

/-- Requests to the services, in order. -/
def serveAllAuthenticated (requests : List (Request κ)) : Served κ :=
  requests.foldl (serveAuthenticated limit maxBuckets) {}

end TraceFence
