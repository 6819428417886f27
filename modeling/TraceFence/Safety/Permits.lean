import Mathlib.Data.List.Basic
import TraceFence.Api.Dependencies

/-!
# The permits of the bounded runtime

A permit is released by the worker that has run a coroutine, or by the call when it could not submit
it. A coroutine that a stop cancels in the queue of its pool is run by no worker, and nothing
releases its permit: the capacity of the runtime is smaller by one from then on, also after the
next start.

## Main definitions

* `ServiceCall.Sound` — how often a permit was acquired and released for a call, by where it stands
* `Conserved`, `ReleasedOnce` — what is to be kept of all permits, and of each
* `Sparing` — no stop cancels what is still queued

## Main results

* `step_calls`, `CallMove.sound`, `CallMove.balance` — what one event does to a call
* `permits_accounted` — permits are free, held, or lost with a coroutine that was cancelled
* `run_admitted`, `fills_iff` — what a runtime with free permits still admits
* `permits_conserved` — while stops cancel nothing no permit is lost, and exactly then
-/

namespace TraceFence

variable {settings : RuntimeSettings} {s s' : ServiceRuntime} {c c' : ServiceCall}

/-! ### Where a call stands -/

/-- The call has a permit and has not submitted its coroutine. -/
def ServiceCall.submitting (c : ServiceCall) : Bool :=
  match c.caller with
  | .acquired => true
  | .looked _ => true
  | _ => false

/-- The coroutine is queued or running. -/
def ServiceCall.pending (c : ServiceCall) : Bool :=
  match c.task with
  | .queued _ _ => true
  | .running _ => true
  | _ => false

/-- The coroutine was cancelled in the queue. -/
def ServiceCall.lost (c : ServiceCall) : Bool := decide (c.task = .dropped)

/-- A permit was acquired for the call and not released. -/
def ServiceCall.owes (c : ServiceCall) : Bool := decide (c.releases < c.acquires)

/-- The caller waits, or has stopped to. -/
def CallStage.Submitted (caller : CallStage) : Prop :=
  caller = .waiting ∨ ∃ outcome, caller = .done outcome

theorem CallStage.Submitted.ne_started {caller : CallStage} (h : caller.Submitted) :
    caller ≠ .started := by
  rcases h with rfl | ⟨outcome, rfl⟩ <;> simp

theorem CallStage.Submitted.not_submitting {caller : CallStage} {task : TaskStage} {n m : ℕ}
    (h : caller.Submitted) : ¬ ServiceCall.submitting ⟨caller, task, n, m⟩ = true := by
  rcases h with rfl | ⟨outcome, rfl⟩ <;> simp [ServiceCall.submitting]

/-- How often a permit was acquired and released for a call, by where it stands. -/
inductive ServiceCall.Sound : ServiceCall → Prop
  | outside {caller : CallStage} (h : caller = .started ∨ caller = .done .overloaded) :
      Sound ⟨caller, .unsubmitted, 0, 0⟩
  | submitting {caller : CallStage} (h : caller = .acquired ∨ ∃ e, caller = .looked e) :
      Sound ⟨caller, .unsubmitted, 1, 0⟩
  | queued {caller : CallStage} (h : caller.Submitted) (e ticket : ℕ) :
      Sound ⟨caller, .queued e ticket, 1, 0⟩
  | running {caller : CallStage} (h : caller.Submitted) (e : ℕ) : Sound ⟨caller, .running e, 1, 0⟩
  | dropped {caller : CallStage} (h : caller.Submitted) : Sound ⟨caller, .dropped, 1, 0⟩
  | settled {caller : CallStage} {task : TaskStage} (h : caller.Submitted)
      (ht : task = .finished ∨ task = .unsubmitted) : Sound ⟨caller, task, 1, 1⟩

/-- A permit is owed by a call that holds it, and for ever when its coroutine was cancelled. -/
theorem ServiceCall.Sound.owes_toNat (h : c.Sound) :
    c.owes.toNat = c.submitting.toNat + c.pending.toNat + c.lost.toNat := by
  cases h with
  | outside h => rcases h with rfl | rfl <;> rfl
  | submitting h => rcases h with rfl | ⟨e, rfl⟩ <;> rfl
  | queued h e ticket => rcases h with rfl | ⟨outcome, rfl⟩ <;> rfl
  | running h e => rcases h with rfl | ⟨outcome, rfl⟩ <;> rfl
  | dropped h => rcases h with rfl | ⟨outcome, rfl⟩ <;> rfl
  | settled h ht =>
    rcases h with rfl | ⟨outcome, rfl⟩ <;> rcases ht with rfl | rfl <;> rfl

/-- A call that has only started owes nothing. -/
theorem ServiceCall.Sound.of_started (hc : c.Sound) (h : c.caller = .started) :
    c.task = .unsubmitted ∧ c.acquires = 0 ∧ c.releases = 0 := by
  cases hc with
  | outside _ => exact ⟨rfl, rfl, rfl⟩
  | submitting hs => rcases hs with rfl | ⟨e, rfl⟩ <;> cases h
  | _ hs => exact absurd h hs.ne_started

theorem ServiceCall.Sound.of_submitting (hc : c.Sound) (h : c.submitting = true) :
    c.task = .unsubmitted ∧ c.acquires = 1 ∧ c.releases = 0 := by
  cases hc with
  | outside hs => rcases hs with rfl | rfl <;> cases h
  | submitting _ => exact ⟨rfl, rfl, rfl⟩
  | _ hs => exact absurd h hs.not_submitting

theorem ServiceCall.Sound.of_pending (hc : c.Sound) (h : c.pending = true) :
    c.caller.Submitted ∧ c.acquires = 1 ∧ c.releases = 0 := by
  cases hc with
  | queued hs e ticket => exact ⟨hs, rfl, rfl⟩
  | running hs e => exact ⟨hs, rfl, rfl⟩
  | settled hs ht => rcases ht with rfl | rfl <;> cases h
  | _ => cases h

/-- A caller may stop waiting at any time. -/
theorem ServiceCall.Sound.leave (hc : c.Sound) (h : c.caller = .waiting) (outcome : CallOutcome) :
    ServiceCall.Sound { c with caller := .done outcome } := by
  have hs : CallStage.Submitted (.done outcome) := Or.inr ⟨outcome, rfl⟩
  cases hc with
  | outside hs' => rcases hs' with rfl | rfl <;> cases h
  | submitting hs' => rcases hs' with rfl | ⟨e, rfl⟩ <;> cases h
  | queued _ e ticket => exact .queued hs e ticket
  | running _ e => exact .running hs e
  | dropped _ => exact .dropped hs
  | settled _ ht => exact .settled hs ht

/-! ### What one event does -/

/-- What `_capacity.release()` makes of the number of permits. -/
def RuntimeSettings.released (settings : RuntimeSettings) (permits : ℕ) : ℕ :=
  if permits < settings.capacity then permits + 1 else permits

/-- What an event does to a call, and to the number of permits. -/
inductive CallMove (settings : RuntimeSettings) :
    ℕ → ServiceCall → ℕ → ServiceCall → Prop
  | refuse {c : ServiceCall} (h : c.caller = .started) :
      CallMove settings 0 c 0 { c with caller := .done .overloaded }
  | acquire {n : ℕ} {c : ServiceCall} (h : c.caller = .started) :
      CallMove settings (n + 1) c n { c with caller := .acquired, acquires := c.acquires + 1 }
  | look {n : ℕ} {c : ServiceCall} (h : c.caller = .acquired) (e : ℕ) :
      CallMove settings n c n { c with caller := .looked e }
  | giveUp {n : ℕ} {c : ServiceCall} (h : c.submitting = true) (outcome : CallOutcome) :
      CallMove settings n c (settings.released n)
        { c with caller := .done outcome, releases := c.releases + 1 }
  | submit {n e : ℕ} {c : ServiceCall} (h : c.caller = .looked e) (ticket : ℕ) :
      CallMove settings n c n { c with caller := .waiting, task := .queued e ticket }
  | begin {n e ticket : ℕ} {c : ServiceCall} (h : c.task = .queued e ticket) :
      CallMove settings n c n { c with task := .running e }
  | finish {n e : ℕ} {c : ServiceCall} (h : c.task = .running e) :
      CallMove settings n c (settings.released n)
        { c with task := .finished, releases := c.releases + 1 }
  | drop {n e ticket : ℕ} {c : ServiceCall} (h : c.task = .queued e ticket) :
      CallMove settings n c n { c with task := .dropped }
  | leave {n : ℕ} {c : ServiceCall} (h : c.caller = .waiting) (outcome : CallOutcome) :
      CallMove settings n c n { c with caller := .done outcome }

/-- What an event does to the permits and the calls: nothing, one call more, or a move. -/
inductive EventMove (settings : RuntimeSettings) (s : ServiceRuntime) (e : PoolEvent)
    (s' : ServiceRuntime) : Prop
  | quiet (hp : s'.permits = s.permits) (hcalls : s'.calls = s.calls)
  | joins (hp : s'.permits = s.permits)
      (hcalls : s'.calls = s.calls ++ [⟨.started, .unsubmitted, 0, 0⟩])
  | moves {i : ℕ} {c c' : ServiceCall} (hc : s.calls[i]? = some c)
      (hcalls : s'.calls = s.calls.set i c') (hm : CallMove settings s.permits c s'.permits c')
      (hd : c'.task = .dropped → c.task = .dropped ∨ e = .drop i)

@[simp] theorem ServiceRuntime.started_permits : s.started.permits = s.permits := by
  unfold ServiceRuntime.started
  split <;> rfl

@[simp] theorem ServiceRuntime.started_calls : s.started.calls = s.calls := by
  unfold ServiceRuntime.started
  split <;> rfl

@[simp] theorem ServiceRuntime.started_tickets : s.started.tickets = s.tickets := by
  unfold ServiceRuntime.started
  split <;> rfl

/-- An enabled event is one of these. -/
theorem step_calls {e : PoolEvent} (h : (serviceRuntime settings).Step s e s') :
    EventMove settings s e s' := by
  obtain ⟨henabled, rfl⟩ := h
  dsimp only [serviceRuntime] at henabled ⊢
  cases e with
  | start => exact .quiet s.started_permits s.started_calls
  | stop =>
    dsimp only [ServiceRuntime.next]
    split <;> exact .quiet rfl rfl
  | shutdown executor => exact .quiet rfl rfl
  | call => exact .joins s.started_permits (congrArg (· ++ _) s.started_calls)
  | drop i =>
    obtain ⟨c, hc, hq⟩ := (Option.any_eq_true _ _).mp henabled
    simp only [ServiceRuntime.next, hc, Option.elim]
    cases ht : c.task with
    | queued e ticket => exact .moves hc rfl (.drop ht) fun _ => Or.inr rfl
    | _ => simp [ht] at hq
  | acquire i =>
    obtain ⟨c, hc, hq⟩ := (Option.any_eq_true _ _).mp henabled
    simp only [ServiceRuntime.next, hc, Option.elim]
    have hs : c.caller = .started := of_decide_eq_true hq
    split_ifs with h0
    · refine .moves hc rfl ?_ Or.inl
      show CallMove settings s.permits c s.permits _
      rw [h0]
      exact .refuse hs
    · refine .moves hc rfl ?_ Or.inl
      show CallMove settings s.permits c (s.permits - 1) _
      obtain ⟨n, hn⟩ := Nat.exists_eq_succ_of_ne_zero h0
      rw [hn]
      exact .acquire hs
  | look i =>
    obtain ⟨c, hc, hq⟩ := (Option.any_eq_true _ _).mp henabled
    simp only [ServiceRuntime.next, hc, Option.elim]
    have ha : c.caller = .acquired := of_decide_eq_true hq
    cases s.executor with
    | none =>
      exact .moves hc rfl (.giveUp (by simp [ServiceCall.submitting, ha]) _) Or.inl
    | some executor => exact .moves hc rfl (.look ha executor) Or.inl
  | submit i raises =>
    obtain ⟨c, hc, hq⟩ := (Option.any_eq_true _ _).mp henabled
    simp only [ServiceRuntime.next, hc, Option.elim]
    cases hl : c.caller with
    | looked executor =>
      dsimp only
      split_ifs with hr
      · exact .moves hc rfl (.giveUp (by simp [ServiceCall.submitting, hl]) _) Or.inl
      · exact .moves hc rfl (.submit hl _) fun hd => by cases hd
    | _ => simp [hl] at hq
  | begin i =>
    obtain ⟨c, hc, hq⟩ := (Option.any_eq_true _ _).mp henabled
    simp only [ServiceRuntime.next, hc, Option.elim]
    cases ht : c.task with
    | queued e ticket =>
      exact .moves hc rfl (.begin ht) fun hd => by cases hd
    | _ => simp [ht] at hq
  | finish i =>
    obtain ⟨c, hc, hq⟩ := (Option.any_eq_true _ _).mp henabled
    simp only [ServiceRuntime.next, hc, Option.elim]
    cases ht : c.task with
    | running e => exact .moves hc rfl (.finish ht) fun hd => by cases hd
    | _ => simp [ht] at hq
  | deliver i =>
    obtain ⟨c, hc, hq⟩ := (Option.any_eq_true _ _).mp henabled
    simp only [ServiceRuntime.next, hc, Option.elim]
    have hw : c.caller = .waiting := of_decide_eq_true (Bool.and_eq_true_iff.mp hq).1
    exact .moves hc rfl (.leave hw _) Or.inl
  | timeOut i =>
    obtain ⟨c, hc, hq⟩ := (Option.any_eq_true _ _).mp henabled
    simp only [ServiceRuntime.next, hc, Option.elim]
    exact .moves hc rfl (.leave (of_decide_eq_true hq) _) Or.inl
  | cancel i =>
    obtain ⟨c, hc, hq⟩ := (Option.any_eq_true _ _).mp henabled
    simp only [ServiceRuntime.next, hc, Option.elim]
    exact .moves hc rfl (.leave (of_decide_eq_true hq) _) Or.inl

/-- A move takes a call from where it stood to where it may stand. -/
theorem CallMove.sound {n n' : ℕ} (h : CallMove settings n c n' c') (hc : c.Sound) : c'.Sound := by
  cases h with
  | refuse h =>
    obtain ⟨ht, ha, hr⟩ := hc.of_started h
    rw [ht, ha, hr]
    exact .outside (Or.inr rfl)
  | acquire h =>
    obtain ⟨ht, ha, hr⟩ := hc.of_started h
    rw [ht, ha, hr]
    exact .submitting (Or.inl rfl)
  | look h e =>
    obtain ⟨ht, ha, hr⟩ := hc.of_submitting (by simp [ServiceCall.submitting, h])
    rw [ht, ha, hr]
    exact .submitting (Or.inr ⟨e, rfl⟩)
  | giveUp h outcome =>
    obtain ⟨ht, ha, hr⟩ := hc.of_submitting h
    rw [ht, ha, hr]
    exact .settled (Or.inr ⟨outcome, rfl⟩) (Or.inr rfl)
  | submit h ticket =>
    obtain ⟨-, ha, hr⟩ := hc.of_submitting (by simp [ServiceCall.submitting, h])
    rw [ha, hr]
    exact .queued (Or.inl rfl) _ ticket
  | begin h =>
    obtain ⟨hs, ha, hr⟩ := hc.of_pending (by simp [ServiceCall.pending, h])
    rw [ha, hr]
    exact .running hs _
  | finish h =>
    obtain ⟨hs, ha, hr⟩ := hc.of_pending (by simp [ServiceCall.pending, h])
    rw [ha, hr]
    exact .settled hs (Or.inl rfl)
  | drop h =>
    obtain ⟨hs, ha, hr⟩ := hc.of_pending (by simp [ServiceCall.pending, h])
    rw [ha, hr]
    exact .dropped hs
  | leave h outcome => exact hc.leave h outcome

/-- A move gives back what the call owed, or makes it owe what it took. -/
theorem CallMove.balance {n n' : ℕ} (h : CallMove settings n c n' c') (hc : c.Sound)
    (hn : c.owes = true → n < settings.capacity) :
    n' + c'.owes.toNat = n + c.owes.toNat := by
  have released : c.acquires = 1 → c.releases = 0 →
      settings.released n + (decide (c.releases + 1 < c.acquires)).toNat =
        n + c.owes.toNat := by
    intro ha hr
    have howes : c.owes = true := by simp [ServiceCall.owes, ha, hr]
    rw [RuntimeSettings.released, if_pos (hn howes), howes, ha, hr]
    rfl
  cases h with
  | acquire h =>
    obtain ⟨-, ha, hr⟩ := hc.of_started h
    simp [ServiceCall.owes, ha, hr]
  | giveUp h outcome =>
    obtain ⟨-, ha, hr⟩ := hc.of_submitting h
    exact released ha hr
  | finish h =>
    obtain ⟨-, ha, hr⟩ := hc.of_pending (by simp [ServiceCall.pending, h])
    exact released ha hr
  | _ => rfl

/-! ### Permits -/

/-- Every call is sound, and a permit is free or owed. -/
def Balanced (settings : RuntimeSettings) (s : ServiceRuntime) : Prop :=
  (∀ c ∈ s.calls, c.Sound) ∧ s.permits + s.calls.countP ServiceCall.owes = settings.capacity

theorem EventMove.balanced {e : PoolEvent} (h : EventMove settings s e s')
    (hs : Balanced settings s) : Balanced settings s' := by
  obtain ⟨hsound, hsum⟩ := hs
  cases h with
  | quiet hp hcalls =>
    rw [Balanced, hp, hcalls]
    exact ⟨hsound, hsum⟩
  | joins hp hcalls =>
    rw [Balanced, hp, hcalls]
    refine ⟨fun c hc => ?_, by simpa [ServiceCall.owes] using hsum⟩
    rcases List.mem_append.mp hc with hc | hc
    · exact hsound c hc
    · rw [List.mem_singleton.mp hc]
      exact .outside (Or.inl rfl)
  | @moves i c c' hc hcalls hm _ =>
    have hmem : c ∈ s.calls := List.mem_of_getElem? hc
    have hfree : c.owes = true → s.permits < settings.capacity := fun ho => by
      have : 0 < s.calls.countP ServiceCall.owes := List.countP_pos_iff.mpr ⟨c, hmem, ho⟩
      omega
    have hbalance := hm.balance (hsound c hmem) hfree
    have hcount := countP_set_add (a := c') ServiceCall.owes hc
    rw [Balanced, hcalls]
    refine ⟨fun d hd => ?_, by omega⟩
    rcases List.mem_or_eq_of_mem_set hd with hd | rfl
    · exact hsound d hd
    · exact hm.sound (hsound c hmem)

/-- **Permits are accounted for.** In every state some run leads to each permit is free, or owed by
a call that acquired it. -/
theorem permits_accounted (h : (serviceRuntime settings).Reachable s) : Balanced settings s :=
  h.invariant ⟨by simp [serviceRuntime], rfl⟩ fun _ _ _ _ hs hstep => (step_calls hstep).balanced hs

/-- Free permits, those of calls about to submit and those of what is queued or running are all
there are. -/
def Conserved (settings : RuntimeSettings) (s : ServiceRuntime) : Prop :=
  s.permits + s.calls.countP ServiceCall.submitting + s.calls.countP ServiceCall.pending =
    settings.capacity

/-- Every permit that was acquired is held, or was released exactly once. -/
def ReleasedOnce (s : ServiceRuntime) : Prop :=
  ∀ c ∈ s.calls, c.acquires ≤ 1 ∧
    c.releases = if c.submitting || c.pending then 0 else c.acquires

theorem countP_owes {calls : List ServiceCall} (h : ∀ c ∈ calls, c.Sound) :
    calls.countP ServiceCall.owes = calls.countP ServiceCall.submitting +
      calls.countP ServiceCall.pending + calls.countP ServiceCall.lost := by
  induction calls with
  | nil => rfl
  | cons c calls ih =>
    have hc := (h c List.mem_cons_self).owes_toNat
    have hcalls := ih fun d hd => h d (List.mem_cons_of_mem c hd)
    simp only [toNat_eq_ite] at hc
    simp only [List.countP_cons]
    omega

theorem lost_eq_false_iff : c.lost = false ↔ c.task ≠ .dropped := by simp [ServiceCall.lost]

/-- A permit is missing exactly when a queued coroutine was cancelled. -/
theorem Balanced.conserved_iff (h : Balanced settings s) :
    Conserved settings s ↔ ∀ c ∈ s.calls, c.task ≠ .dropped := by
  have hsplit := countP_owes h.1
  have hsum := h.2
  have hlost : s.calls.countP ServiceCall.lost = 0 ↔ ∀ c ∈ s.calls, c.task ≠ .dropped := by
    rw [List.countP_eq_zero]
    exact forall₂_congr fun c _ => by rw [Bool.not_eq_true, lost_eq_false_iff]
  rw [← hlost, Conserved]
  omega

/-- The permit of a call is not released exactly when its queued coroutine was cancelled. -/
theorem ServiceCall.Sound.released_iff (h : c.Sound) :
    (c.acquires ≤ 1 ∧ c.releases = if c.submitting || c.pending then 0 else c.acquires) ↔
      c.task ≠ .dropped := by
  cases h with
  | outside h => rcases h with rfl | rfl <;> simp
  | submitting h => rcases h with rfl | ⟨e, rfl⟩ <;> simp [ServiceCall.submitting]
  | queued h e ticket => simp [ServiceCall.pending]
  | running h e => simp [ServiceCall.pending]
  | dropped h => simp [h.not_submitting, ServiceCall.pending]
  | settled h ht => rcases ht with rfl | rfl <;> simp [h.not_submitting, ServiceCall.pending]

theorem Balanced.releasedOnce_iff (h : Balanced settings s) :
    ReleasedOnce s ↔ ∀ c ∈ s.calls, c.task ≠ .dropped :=
  forall₂_congr fun c hc => (h.1 c hc).released_iff

/-! ### Pools -/

/-- The pool of a runtime accepts submissions: it is not one that a stop has taken. -/
structure OpenPool (s : ServiceRuntime) : Prop where
  current : ∀ e, s.executor = some e → e < s.created ∧ e ∉ s.stopping ∧ e ∉ s.closed
  known : ∀ e, e ∈ s.stopping ∨ e ∈ s.closed → e < s.created

/-- The pools are as they were. -/
def PoolsKept (s s' : ServiceRuntime) : Prop :=
  s'.executor = s.executor ∧ s'.created = s.created ∧ s'.stopping = s.stopping ∧
    s'.closed = s.closed

theorem PoolsKept.openPool (h : PoolsKept s s') (hs : OpenPool s) : OpenPool s' := by
  obtain ⟨he, hn, hs', hc⟩ := h
  exact ⟨by rw [he, hn, hs', hc]; exact hs.current, by rw [hn, hs', hc]; exact hs.known⟩

theorem poolsKept_elim {o : Option ServiceCall} {f : ServiceCall → ServiceRuntime}
    (h : ∀ c, PoolsKept s (f c)) : PoolsKept s (o.elim s f) := by
  cases o with
  | none => exact ⟨rfl, rfl, rfl, rfl⟩
  | some c => exact h c

theorem OpenPool.started (h : OpenPool s) : OpenPool s.started := by
  unfold ServiceRuntime.started
  split
  · refine ⟨fun e he => ?_, fun e he => Nat.lt_succ_of_lt (h.known e he)⟩
    obtain rfl := Option.some.inj he
    exact ⟨Nat.lt_succ_self _, fun hm => Nat.lt_irrefl _ (h.known _ (Or.inl hm)),
      fun hm => Nat.lt_irrefl _ (h.known _ (Or.inr hm))⟩
  · exact h

theorem OpenPool.stop (h : OpenPool s) :
    OpenPool (ServiceRuntime.next settings s .stop) := by
  dsimp only [ServiceRuntime.next]
  split
  · exact h
  · next e he =>
    refine ⟨fun e' he' => absurd he' (Option.some_ne_none e').symm, fun e' he' => ?_⟩
    rcases he' with he' | he'
    · rcases List.mem_cons.mp he' with rfl | he'
      · exact (h.current e' he).1
      · exact h.known e' (Or.inl he')
    · exact h.known e' (Or.inr he')

theorem OpenPool.shutdown (h : OpenPool s) {e : ℕ} (hstop : e ∈ s.stopping) :
    OpenPool (ServiceRuntime.next settings s (.shutdown e)) := by
  refine ⟨fun e' he' => ?_, fun e' he' => ?_⟩
  · obtain ⟨hlt, hs, hc⟩ := h.current e' he'
    refine ⟨hlt, fun hm => hs (List.mem_of_mem_erase hm), fun hm => ?_⟩
    rcases List.mem_cons.mp hm with rfl | hm
    · exact hs hstop
    · exact hc hm
  · rcases he' with he' | he'
    · exact h.known e' (Or.inl (List.mem_of_mem_erase he'))
    · rcases List.mem_cons.mp he' with rfl | he'
      · exact h.known e' (Or.inl hstop)
      · exact h.known e' (Or.inr he')

theorem OpenPool.step {e : PoolEvent} (hs : OpenPool s)
    (h : (serviceRuntime settings).Step s e s') : OpenPool s' := by
  obtain ⟨henabled, rfl⟩ := h
  dsimp only [serviceRuntime] at henabled ⊢
  cases e with
  | start => exact hs.started
  | call => exact PoolsKept.openPool (s := s.started) ⟨rfl, rfl, rfl, rfl⟩ hs.started
  | stop => exact hs.stop
  | shutdown executor => exact hs.shutdown (List.contains_iff_mem.mp henabled)
  | _ =>
    refine PoolsKept.openPool (poolsKept_elim fun c => ?_) hs
    repeat' split
    all_goals exact ⟨rfl, rfl, rfl, rfl⟩

theorem openPool_of_reachable (h : (serviceRuntime settings).Reachable s) : OpenPool s :=
  h.invariant
    ⟨fun _ he => absurd he.symm (Option.some_ne_none _), fun _ he => by simp [serviceRuntime] at he⟩
    fun _ _ _ _ hs hstep => hs.step hstep

/-! ### Admission -/

/-- No stop cancels a coroutine that is still queued. -/
def Sparing (_ : ServiceRuntime) (e : PoolEvent) : Prop := ∀ i, e ≠ .drop i

theorem exists_started : ∃ e, s.started.executor = some e := by
  unfold ServiceRuntime.started
  split
  · exact ⟨_, rfl⟩
  · next e he => exact ⟨e, he⟩

/-- The runtime with one call more. -/
def ServiceRuntime.joined (s : ServiceRuntime) (permits : ℕ) (c : ServiceCall) : ServiceRuntime :=
  { s.started with permits := permits, calls := s.calls ++ [c] }

@[simp] theorem ServiceRuntime.joined_getElem? (n : ℕ) (c : ServiceCall) :
    (s.joined n c).calls[s.calls.length]? = some c := List.getElem?_concat_length

@[simp] theorem ServiceRuntime.joined_move (n : ℕ) (c c' : ServiceCall) :
    (s.joined n c).move s.calls.length c' = s.joined n c' := by
  simp [joined, move]

/-- The runtime with one coroutine more in the queue of its pool. -/
def ServiceRuntime.admitted (s : ServiceRuntime) (e : ℕ) : ServiceRuntime :=
  { s.joined (s.permits - 1) ⟨.waiting, .queued e s.tickets, 1, 0⟩ with tickets := s.tickets + 1 }

/-- A call to a runtime with a free permit is admitted. -/
theorem run_admitted (hs : OpenPool s) (hfree : 0 < s.permits) :
    ∃ e, ((serviceRuntime settings).restrict Sparing).Run s (s.admitted e) := by
  obtain ⟨e, he⟩ := exists_started (s := s)
  have hopen : e ∉ s.started.closed := (hs.started.current e he).2.2
  have hpermits : (s.joined s.permits ⟨.started, .unsubmitted, 0, 0⟩).permits ≠ 0 :=
    Nat.ne_of_gt hfree
  set T := (serviceRuntime settings).restrict Sparing
  set i := s.calls.length
  have hcall : T.Step s .call (s.joined s.permits ⟨.started, .unsubmitted, 0, 0⟩) := by
    refine ⟨⟨rfl, fun _ h => by cases h⟩, ?_⟩
    show ServiceRuntime.next settings s .call = _
    simp only [ServiceRuntime.next, ServiceRuntime.joined, s.started_calls, ← s.started_permits]
  have hacquire : T.Step (s.joined s.permits ⟨.started, .unsubmitted, 0, 0⟩) (.acquire i)
      (s.joined (s.permits - 1) ⟨.acquired, .unsubmitted, 1, 0⟩) := by
    refine ⟨⟨by simp [serviceRuntime, ServiceRuntime.canHappen, i], fun _ h => by cases h⟩, ?_⟩
    show ServiceRuntime.next settings _ (.acquire i) = _
    simp only [ServiceRuntime.next, i, ServiceRuntime.joined_getElem?, Option.elim,
      if_neg hpermits, ServiceRuntime.joined_move]
    rfl
  have hlook : T.Step (s.joined (s.permits - 1) ⟨.acquired, .unsubmitted, 1, 0⟩) (.look i)
      (s.joined (s.permits - 1) ⟨.looked e, .unsubmitted, 1, 0⟩) := by
    refine ⟨⟨by simp [serviceRuntime, ServiceRuntime.canHappen, i], fun _ h => by cases h⟩, ?_⟩
    have he' : (s.joined (s.permits - 1) ⟨.acquired, .unsubmitted, 1, 0⟩).executor = some e := he
    show ServiceRuntime.next settings _ (.look i) = _
    simp only [ServiceRuntime.next, i, ServiceRuntime.joined_getElem?, Option.elim, he',
      ServiceRuntime.joined_move]
  have hsubmit : T.Step (s.joined (s.permits - 1) ⟨.looked e, .unsubmitted, 1, 0⟩) (.submit i false)
      (s.admitted e) := by
    refine ⟨⟨by simp [serviceRuntime, ServiceRuntime.canHappen, i], fun _ h => by cases h⟩, ?_⟩
    have hopen' : ¬ (e ∈ (s.joined (s.permits - 1) ⟨.looked e, .unsubmitted, 1, 0⟩).closed ∨
        false = true) := by
      rintro (h | h)
      · exact hopen h
      · cases h
    show ServiceRuntime.next settings _ (.submit i false) = _
    simp only [ServiceRuntime.next, i, ServiceRuntime.joined_getElem?, Option.elim,
      if_neg hopen', ServiceRuntime.joined_move]
    rw [ServiceRuntime.admitted, ← s.started_tickets]
    rfl
  exact ⟨e, ((System.Run.refl.tail hcall).tail hacquire |>.tail hlook).tail hsubmit⟩

/-- Neither a permit is held before a submission, nor is anything queued or running. -/
def IdleRuntime (s : ServiceRuntime) : Prop :=
  ∀ c ∈ s.calls, c.submitting = false ∧ c.pending = false

/-- A runtime can be filled: each free permit admits a call. -/
theorem exists_filled : ∀ {n : ℕ} {s : ServiceRuntime}, OpenPool s → s.permits = n →
    ∃ s', ((serviceRuntime settings).restrict Sparing).Run s s' ∧
      s'.calls.countP ServiceCall.pending = s.calls.countP ServiceCall.pending + n
  | 0, s, _, _ => ⟨s, System.Run.refl, rfl⟩
  | n + 1, s, hs, hn => by
    obtain ⟨e, hrun⟩ := @run_admitted settings s hs (by omega)
    have hopen : OpenPool (s.admitted e) :=
      PoolsKept.openPool (s := s.started) ⟨rfl, rfl, rfl, rfl⟩ hs.started
    have hpermits : (s.admitted e).permits = n := by
      show s.permits - 1 = n
      omega
    have hpending : (s.admitted e).calls.countP ServiceCall.pending =
        s.calls.countP ServiceCall.pending + 1 := by
      simp [ServiceRuntime.admitted, ServiceRuntime.joined, ServiceCall.pending]
    obtain ⟨s', hrun', hcount⟩ := exists_filled hopen hpermits
    exact ⟨s', hrun.trans hrun', by omega⟩

/-- An idle runtime that lost no permit has them all, and admits as many calls. -/
theorem Conserved.fills (h : Conserved settings s) (hs : OpenPool s) (hidle : IdleRuntime s) :
    s.permits = settings.capacity ∧ ∃ s', ((serviceRuntime settings).restrict Sparing).Run s s' ∧
      s'.calls.countP ServiceCall.pending = settings.capacity := by
  have hsubmitting : s.calls.countP ServiceCall.submitting = 0 :=
    List.countP_eq_zero.mpr fun c hc => by simp [(hidle c hc).1]
  have hpending : s.calls.countP ServiceCall.pending = 0 :=
    List.countP_eq_zero.mpr fun c hc => by simp [(hidle c hc).2]
  have hpermits : s.permits = settings.capacity := by
    unfold Conserved at h
    omega
  obtain ⟨s', hrun, hcount⟩ := exists_filled hs hpermits
  exact ⟨hpermits, s', hrun, by omega⟩

/-- Without a cancelled coroutine no permit is missing. -/
theorem not_dropped_of_sparing (h : ((serviceRuntime settings).restrict Sparing).Reachable s) :
    ∀ c ∈ s.calls, c.task ≠ .dropped := by
  refine h.invariant (I := fun s => ∀ c ∈ s.calls, c.task ≠ .dropped)
    (fun _ hc => absurd hc List.not_mem_nil) fun s e s' _ hs hstep => ?_
  obtain ⟨hstep, hsparing⟩ := System.restrict_step_iff.mp hstep
  cases step_calls hstep with
  | quiet hp hcalls => rwa [hcalls]
  | joins hp hcalls =>
    rw [hcalls]
    intro c hc
    rcases List.mem_append.mp hc with hc | hc
    · exact hs c hc
    · rw [List.mem_singleton.mp hc]
      simp
  | @moves i c c' hc hcalls hm hd =>
    rw [hcalls]
    intro d hd' hdropped
    rcases List.mem_or_eq_of_mem_set hd' with hd' | rfl
    · exact hs d hd' hdropped
    · rcases hd hdropped with hdropped | rfl
      · exact hs c (List.mem_of_getElem? hc) hdropped
      · exact hsparing i rfl

/-- What was cancelled stays so. -/
theorem CallMove.dropped {n n' : ℕ} (h : CallMove settings n c n' c') (hc : c.Sound)
    (hd : c.task = .dropped) : c'.task = .dropped := by
  have hpending : c.pending = false := by simp [ServiceCall.pending, hd]
  cases h with
  | submit h ticket =>
    have ht := (hc.of_submitting (by simp [ServiceCall.submitting, h])).1
    rw [hd] at ht
    cases ht
  | begin h => simp [ServiceCall.pending, h] at hpending
  | finish h => simp [ServiceCall.pending, h] at hpending
  | drop h => rfl
  | _ => exact hd

theorem run_dropped (hs : (serviceRuntime settings).Reachable s)
    (h : (serviceRuntime settings).Run s s') (hd : ∃ c ∈ s.calls, c.task = .dropped) :
    ∃ c ∈ s'.calls, c.task = .dropped := by
  refine h.stable (Q := fun s => ∃ c ∈ s.calls, c.task = .dropped) hs hd
    fun s e s' hs ⟨c, hc, hd⟩ hstep => ?_
  cases step_calls hstep with
  | quiet hp hcalls => exact ⟨c, by rwa [hcalls], hd⟩
  | joins hp hcalls => exact ⟨c, by rw [hcalls]; exact List.mem_append_left _ hc, hd⟩
  | @moves i d d' hget hcalls hm _ =>
    obtain ⟨j, hj⟩ := List.getElem?_of_mem hc
    by_cases hji : j = i
    · subst hji
      obtain rfl := Option.some.inj (hj.symm.trans hget)
      have hsound := (permits_accounted hs).1 c hc
      refine ⟨d', ?_, hm.dropped hsound hd⟩
      rw [hcalls]
      exact List.mem_set (List.getElem?_eq_some_iff.mp hget).1 d'
    · refine ⟨c, ?_, hd⟩
      rw [hcalls]
      refine List.mem_of_getElem? (i := j) ?_
      rw [List.getElem?_set_ne fun h => hji h.symm, hj]

/-- An idle runtime can be filled to its capacity exactly when nothing queued was cancelled. -/
theorem fills_iff (hs : (serviceRuntime settings).Reachable s) (hidle : IdleRuntime s) :
    (∃ s', (serviceRuntime settings).Run s s' ∧
        s'.calls.countP ServiceCall.pending = settings.capacity) ↔
      ∀ c ∈ s.calls, c.task ≠ .dropped := by
  refine ⟨fun ⟨s', hrun, hfull⟩ c hc hd => ?_, fun hkept => ?_⟩
  · obtain ⟨d, hd', hlost⟩ := run_dropped hs hrun ⟨c, hc, hd⟩
    have hbalanced := permits_accounted (hs.run hrun)
    have hconserved : Conserved settings s' := by
      have hsplit := countP_owes hbalanced.1
      have hsum := hbalanced.2
      unfold Conserved
      omega
    exact hbalanced.conserved_iff.mp hconserved d hd' hlost
  · have hconserved := (permits_accounted hs).conserved_iff.mpr hkept
    obtain ⟨-, s', hrun, hfull⟩ := hconserved.fills (openPool_of_reachable hs) hidle
    exact ⟨s', hrun.of_restrict, hfull⟩

/-- **No permit is lost while stops cancel nothing.** In every run whose stops leave what is queued
to the workers, every permit is free or held, every other one was released exactly once, and a
runtime with no call to serve admits as many calls as it has workers and places in its queue. In any
run each of these holds exactly when no queued coroutine was cancelled. -/
theorem permits_conserved (settings : RuntimeSettings) :
    (∀ s, ((serviceRuntime settings).restrict Sparing).Reachable s →
      Conserved settings s ∧ ReleasedOnce s ∧
        (IdleRuntime s → s.permits = settings.capacity ∧
          ∃ s', ((serviceRuntime settings).restrict Sparing).Run s s' ∧
            s'.calls.countP ServiceCall.pending = settings.capacity)) ∧
      ∀ s, (serviceRuntime settings).Reachable s →
        (Conserved settings s ↔ ∀ c ∈ s.calls, c.task ≠ .dropped) ∧
        (ReleasedOnce s ↔ ∀ c ∈ s.calls, c.task ≠ .dropped) ∧
        (IdleRuntime s →
          ((∃ s', (serviceRuntime settings).Run s s' ∧
              s'.calls.countP ServiceCall.pending = settings.capacity) ↔
            ∀ c ∈ s.calls, c.task ≠ .dropped)) := by
  refine ⟨fun s hs => ?_, fun s hs => ?_⟩
  · have hbalanced := permits_accounted hs.of_restrict
    have hkept := not_dropped_of_sparing hs
    have hconserved := hbalanced.conserved_iff.mpr hkept
    exact ⟨hconserved, hbalanced.releasedOnce_iff.mpr hkept,
      hconserved.fills (openPool_of_reachable hs.of_restrict)⟩
  · have hbalanced := permits_accounted hs
    exact ⟨hbalanced.conserved_iff, hbalanced.releasedOnce_iff, fills_iff hs⟩

/-- One worker and a queue of one. -/
def smallRuntime : RuntimeSettings := ⟨1, 1, Nat.one_pos⟩

/-- A call runs and another has its permit when a stop comes: the first is finished on the old pool,
the second finds none, and the runtime starts again. -/
def sparedRuntime : List PoolEvent :=
  [.call, .acquire 0, .look 0, .submit 0 false, .begin 0, .call, .acquire 1,
   .stop, .shutdown 0, .look 1, .finish 0, .deliver 0, .start]

/-- The state that leads to. -/
def spared : ServiceRuntime :=
  (serviceRuntime smallRuntime).replay (serviceRuntime smallRuntime).init sparedRuntime

/-- After the stop both permits are free, and each was released once for each call. -/
theorem permits_conserved_sample : Conserved smallRuntime spared ∧ ReleasedOnce spared ∧
    spared.permits = 2 ∧ ∃ s', ((serviceRuntime smallRuntime).restrict Sparing).Run spared s' ∧
      s'.calls.countP ServiceCall.pending = 2 := by
  have hrun : ((serviceRuntime smallRuntime).restrict Sparing).Enabled
      (serviceRuntime smallRuntime).init sparedRuntime := by
    refine ⟨⟨rfl, ?_⟩, ⟨rfl, ?_⟩, ⟨rfl, ?_⟩, ⟨rfl, ?_⟩, ⟨rfl, ?_⟩, ⟨rfl, ?_⟩, ⟨rfl, ?_⟩, ⟨rfl, ?_⟩,
      ⟨rfl, ?_⟩, ⟨rfl, ?_⟩, ⟨rfl, ?_⟩, ⟨rfl, ?_⟩, ⟨rfl, ?_⟩, trivial⟩
    all_goals exact fun _ h => by cases h
  have hidle : IdleRuntime spared := by
    intro c hc
    have hcalls : spared.calls =
        [⟨.done .returned, .finished, 1, 1⟩, ⟨.done .unavailable, .unsubmitted, 1, 1⟩] := rfl
    rw [hcalls] at hc
    revert c
    decide
  obtain ⟨hconserved, hreleased, hfills⟩ :=
    (permits_conserved smallRuntime).1 _ (System.reachable_replay hrun)
  exact ⟨hconserved, hreleased, hfills hidle⟩

/-- A call runs, another is queued when a stop cancels it, and the runtime starts again. -/
def stoppedRuntime : List PoolEvent :=
  [.call, .acquire 0, .look 0, .submit 0 false, .begin 0,
   .call, .acquire 1, .look 1, .submit 1 false,
   .stop, .shutdown 0, .drop 1, .finish 0, .deliver 0, .deliver 1, .start]

/-- After that one of the two permits is gone. -/
theorem permits_conserved_fails :
    ¬ ∀ settings s, (serviceRuntime settings).Reachable s →
      Conserved settings s ∧ ReleasedOnce s ∧
        (IdleRuntime s → s.permits = settings.capacity) := by
  intro h
  have hrun : (serviceRuntime smallRuntime).Enabled (serviceRuntime smallRuntime).init
      stoppedRuntime :=
    ⟨rfl, rfl, rfl, rfl, rfl, rfl, rfl, rfl, rfl, rfl, rfl, rfl, rfl, rfl, rfl, rfl, trivial⟩
  have hconserved := (h _ _ (System.reachable_replay hrun)).1
  have hpermits : ((serviceRuntime smallRuntime).replay (serviceRuntime smallRuntime).init
      stoppedRuntime).permits = 1 := rfl
  have hcalls : ((serviceRuntime smallRuntime).replay (serviceRuntime smallRuntime).init
      stoppedRuntime).calls =
        [⟨.done .returned, .finished, 1, 1⟩, ⟨.done .cancelled, .dropped, 1, 0⟩] := rfl
  rw [Conserved, hpermits, hcalls] at hconserved
  exact absurd hconserved (by decide)

end TraceFence
