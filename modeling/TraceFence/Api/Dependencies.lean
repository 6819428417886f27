import TraceFence.Lib.Transition

/-!
# The bounded runtime of the API

`BoundedServiceRuntime` of `api/dependencies.py`: service coroutines run on the threads of a pool,
and a semaphore bounds how many are queued or running. A call acquires a permit without waiting,
submits its coroutine and waits for the result until a deadline. The permit is released by the
worker that has run the coroutine, or by the call when it could not submit it. A stop takes the pool
from the runtime and shuts it down on another thread, and the next call starts a new pool.

A thread gives up control between any two of these steps, so each is an event of its own. What the
pool promises is taken from `concurrent.futures`: workers take submitted coroutines in order, no more
run at a time than there are workers, a pool that is shut down accepts none, and a submission that
raises has scheduled nothing. Deadlines pass at any time.

## Main definitions

* `ServiceCall`, `ServiceRuntime` — where a call stands, and the runtime
* `ServiceRuntime.next` — what an event does
* `serviceRuntime` — the system
-/

namespace TraceFence

/-- What a runtime is made with. A pool without workers cannot be made. -/
structure RuntimeSettings where
  maxWorkers : ℕ
  maxQueue : ℕ
  workers_pos : 0 < maxWorkers

/-- The permits of the semaphore. -/
def RuntimeSettings.capacity (settings : RuntimeSettings) : ℕ :=
  settings.maxWorkers + settings.maxQueue

/-- How `run` ends. A coroutine that raises has returned here. -/
inductive CallOutcome
  | returned
  /-- `EXECUTOR_OVERLOADED`. -/
  | overloaded
  /-- `EXECUTOR_UNAVAILABLE`. -/
  | unavailable
  | submissionFailed
  /-- `EXECUTION_DEADLINE_EXCEEDED`. -/
  | deadlineExceeded
  | cancelled
  deriving DecidableEq, Repr

/-- Where the coroutine of `run` stands. -/
inductive CallStage
  /-- `self.start()` has returned. -/
  | started
  | acquired
  /-- It has read `self._executor`. -/
  | looked (executor : ℕ)
  | waiting
  | done (outcome : CallOutcome)
  deriving DecidableEq, Repr

/-- Where the submitted coroutine stands. Tickets number the submissions. -/
inductive TaskStage
  | unsubmitted
  | queued (executor ticket : ℕ)
  | running (executor : ℕ)
  | finished
  /-- Its future was cancelled before a worker took it. -/
  | dropped
  deriving DecidableEq, Repr

/-- A call of `run`. -/
structure ServiceCall where
  caller : CallStage := .started
  task : TaskStage := .unsubmitted
  /-- How often it acquired a permit, and how often one was released for it: a record of the past. -/
  acquires : ℕ := 0
  releases : ℕ := 0
  deriving DecidableEq, Repr

/-- A runtime, the pools it has made and the calls to it. -/
structure ServiceRuntime where
  /-- The value of `_capacity`. -/
  permits : ℕ
  /-- `_executor`. -/
  executor : Option ℕ := none
  /-- The number of pools that were made. -/
  created : ℕ := 0
  /-- Pools that a stop has taken and is about to shut down. -/
  stopping : List ℕ := []
  /-- Pools that are shut down. -/
  closed : List ℕ := []
  tickets : ℕ := 0
  calls : List ServiceCall := []
  deriving DecidableEq, Repr

inductive PoolEvent
  | start
  | stop
  /-- The pool is shut down: it accepts no more submissions. -/
  | shutdown (executor : ℕ)
  /-- `cancel_futures`: what is still in the queue of a pool that is shut down is cancelled. -/
  | drop (call : ℕ)
  | call
  | acquire (call : ℕ)
  | look (call : ℕ)
  /-- The submission raises when the pool is shut down, and may raise otherwise. -/
  | submit (call : ℕ) (raises : Bool)
  /-- A worker takes the coroutine. -/
  | begin (call : ℕ)
  /-- The coroutine has returned or raised. -/
  | finish (call : ℕ)
  | deliver (call : ℕ)
  | timeOut (call : ℕ)
  | cancel (call : ℕ)
  deriving DecidableEq, Repr

namespace ServiceRuntime

variable (settings : RuntimeSettings) (s : ServiceRuntime)

/-- `start`. -/
def started : ServiceRuntime :=
  match s.executor with
  | none => { s with executor := some s.created, created := s.created + 1 }
  | some _ => s

/-- A call moves. -/
def move (i : ℕ) (c : ServiceCall) : ServiceRuntime := { s with calls := s.calls.set i c }

/-- `_capacity.release()` for a call that moves: the semaphore raises at its bound. -/
def release (i : ℕ) (c : ServiceCall) : ServiceRuntime :=
  { s.move i { c with releases := c.releases + 1 } with
    permits := if s.permits < settings.capacity then s.permits + 1 else s.permits }

/-- What an event does. -/
def next : PoolEvent → ServiceRuntime
  | .start => s.started
  | .stop =>
    match s.executor with
    | none => s
    | some executor => { s with executor := none, stopping := executor :: s.stopping }
  | .shutdown executor =>
    { s with stopping := s.stopping.erase executor, closed := executor :: s.closed }
  | .drop i => (s.calls[i]?).elim s fun c => s.move i { c with task := .dropped }
  | .call => { s.started with calls := s.started.calls ++ [{}] }
  | .acquire i => (s.calls[i]?).elim s fun c =>
    if s.permits = 0 then s.move i { c with caller := .done .overloaded }
    else
      { s.move i { c with caller := .acquired, acquires := c.acquires + 1 } with
        permits := s.permits - 1 }
  | .look i => (s.calls[i]?).elim s fun c =>
    match s.executor with
    | none => s.release settings i { c with caller := .done .unavailable }
    | some executor => s.move i { c with caller := .looked executor }
  | .submit i raises => (s.calls[i]?).elim s fun c =>
    match c.caller with
    | .looked executor =>
      if executor ∈ s.closed ∨ raises = true then
        s.release settings i { c with caller := .done .submissionFailed }
      else
        { s.move i { c with caller := .waiting, task := .queued executor s.tickets } with
          tickets := s.tickets + 1 }
    | _ => s
  | .begin i => (s.calls[i]?).elim s fun c =>
    match c.task with
    | .queued executor _ => s.move i { c with task := .running executor }
    | _ => s
  | .finish i => (s.calls[i]?).elim s fun c => s.release settings i { c with task := .finished }
  | .deliver i => (s.calls[i]?).elim s fun c =>
    s.move i { c with caller := .done (if c.task = .finished then .returned else .cancelled) }
  | .timeOut i => (s.calls[i]?).elim s fun c => s.move i { c with caller := .done .deadlineExceeded }
  | .cancel i => (s.calls[i]?).elim s fun c => s.move i { c with caller := .done .cancelled }

/-- The coroutines that run on a pool. -/
def busy (executor : ℕ) : ℕ := s.calls.countP fun c => c.task = .running executor

/-- The ticket of a coroutine in the queue of a pool. -/
def ticket? (executor : ℕ) (c : ServiceCall) : Option ℕ :=
  match c.task with
  | .queued e ticket => if e = executor then some ticket else none
  | _ => none

/-- When an event may happen. -/
def canHappen : PoolEvent → Bool
  | .start => true
  | .stop => true
  | .call => true
  | .shutdown executor => s.stopping.contains executor
  | .drop i => (s.calls[i]?).any fun c =>
    match c.task with
    | .queued executor _ => s.closed.contains executor
    | _ => false
  | .acquire i => (s.calls[i]?).any fun c => c.caller = .started
  | .look i => (s.calls[i]?).any fun c => c.caller = .acquired
  | .submit i _ => (s.calls[i]?).any fun c =>
    match c.caller with
    | .looked _ => true
    | _ => false
  | .begin i => (s.calls[i]?).any fun c =>
    match c.task with
    | .queued executor ticket => decide (s.busy executor < settings.maxWorkers) &&
        s.calls.all fun c' => (ticket? executor c').all fun ticket' => ticket ≤ ticket'
    | _ => false
  | .finish i => (s.calls[i]?).any fun c =>
    match c.task with
    | .running _ => true
    | _ => false
  | .deliver i => (s.calls[i]?).any fun c =>
    c.caller = .waiting && (c.task = .finished || c.task = .dropped)
  | .timeOut i => (s.calls[i]?).any fun c => c.caller = .waiting
  | .cancel i => (s.calls[i]?).any fun c => c.caller = .waiting

end ServiceRuntime

/-- The system of a runtime that was just made. -/
def serviceRuntime (settings : RuntimeSettings) : System ServiceRuntime PoolEvent where
  init := { permits := settings.capacity }
  next := ServiceRuntime.next settings
  enabled s e := s.canHappen settings e = true

end TraceFence
