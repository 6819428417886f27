import Mathlib.Data.List.Basic

/-!
# Dialogues

A dialogue receives, sends, and stops or raises. What it receives comes from a source, which may
raise instead of giving a message. A wrapper of a dialogue stands between it and its surroundings:
it rewrites what is sent, filters what is received, with a state of its own, or takes over when the
dialogue raises. What a wrapper does to every run is said once for each kind.

## Main definitions

* `Dialogue`, `Dialogue.run` — a dialogue, and what is seen of a run
* `Dialogue.mapSent`, `Dialogue.filter`, `Dialogue.rescue` — the three kinds of wrapper

## Main results

* `Dialogue.run_mapSent` — sent messages are rewritten one by one
* `Dialogue.sent_filter`, `Dialogue.outcome_filter` — a filtered dialogue is the dialogue on a
  filtered source
* `Dialogue.run_filter_of_agree` — a filter that lets everything pass cannot be told from none
* `Dialogue.sent_rescue_of_started`, `Dialogue.sent_rescue_of_unstarted` — what is sent after a
  dialogue has raised
-/

/-- A dialogue: it receives inputs `ι`, sends outputs `ο`, and may raise `ε`, as its source may. -/
inductive Dialogue (ι ο ε : Type)
  | receive (next : Except ε ι → Dialogue ι ο ε)
  | send (o : ο) (next : Dialogue ι ο ε)
  | stop
  | raise (e : ε)

namespace Dialogue

variable {ι ο ε σ : Type}

/-- What is received from a source, one after the other. -/
abbrev Source (ι ε : Type) := ℕ → Except ε ι

/-- The source without what comes first. -/
def Source.tail (s : Source ι ε) : Source ι ε := fun n => s (n + 1)

/-- Something that is seen of a run. -/
inductive Event (ι ο ε : Type)
  | received (r : Except ε ι)
  | sent (o : ο)

/-- **A run**: what is seen of it, and what it raises in the end. -/
def run : Dialogue ι ο ε → Source ι ε → List (Event ι ο ε) × Option ε
  | receive next, s => ((run (next (s 0)) s.tail).1.cons (.received (s 0)), (run (next (s 0)) s.tail).2)
  | send o next, s => ((run next s).1.cons (.sent o), (run next s).2)
  | stop, _ => ([], none)
  | raise e, _ => ([], some e)

def Event.output : Event ι ο ε → Option ο
  | received _ => none
  | sent o => some o

/-- What is sent in a run. -/
def sent (d : Dialogue ι ο ε) (s : Source ι ε) : List ο := (d.run s).1.filterMap Event.output

/-- What is raised in the end. -/
def outcome (d : Dialogue ι ο ε) (s : Source ι ε) : Option ε := (d.run s).2

/-- How often a run receives. -/
def taken : Dialogue ι ο ε → Source ι ε → ℕ
  | receive next, s => taken (next (s 0)) s.tail + 1
  | send _ next, s => taken next s
  | stop, _ | raise _, _ => 0

theorem sent_receive (next : Except ε ι → Dialogue ι ο ε) (s : Source ι ε) :
    (receive next).sent s = (next (s 0)).sent s.tail := rfl

/-! ### Rewriting what is sent -/

/-- Send `f o` for `o`. -/
def mapSent (f : ο → ο) : Dialogue ι ο ε → Dialogue ι ο ε
  | receive next => receive fun r => mapSent f (next r)
  | send o next => send (f o) (mapSent f next)
  | stop => stop
  | raise e => raise e

theorem sent_mapSent (f : ο → ο) (d : Dialogue ι ο ε) (s : Source ι ε) :
    (d.mapSent f).sent s = (d.sent s).map f := by
  induction d generalizing s with
  | receive next ih => exact ih (s 0) s.tail
  | send o next ih => exact congrArg (f o :: ·) (ih s)
  | stop | raise => rfl

/-- What is seen of a run, rewritten. -/
def Event.mapSent (f : ο → ο) : Event ι ο ε → Event ι ο ε
  | received r => received r
  | sent o => sent (f o)

theorem run_mapSent (f : ο → ο) (d : Dialogue ι ο ε) (s : Source ι ε) :
    (d.mapSent f).run s = ((d.run s).1.map (Event.mapSent f), (d.run s).2) := by
  induction d generalizing s with
  | receive next ih => simp only [mapSent, run, ih, List.map_cons, Event.mapSent]
  | send o next ih => simp only [mapSent, run, ih, List.map_cons, Event.mapSent]
  | stop | raise => rfl

/-! ### Filtering what is received -/

/-- Receive what `step` makes of what comes, given its state. -/
def filter (step : σ → Except ε ι → σ × Except ε ι) : σ → Dialogue ι ο ε → Dialogue ι ο ε
  | x, receive next => receive fun r => filter step (step x r).1 (next (step x r).2)
  | x, send o next => send o (filter step x next)
  | _, stop => stop
  | _, raise e => raise e

/-- The filtered source. -/
def Source.filtered (step : σ → Except ε ι → σ × Except ε ι) (x : σ) (s : Source ι ε) :
    Source ι ε
  | 0 => (step x (s 0)).2
  | n + 1 => Source.filtered step (step x (s 0)).1 s.tail n

section Filter

variable (step : σ → Except ε ι → σ × Except ε ι)

theorem tail_filtered (x : σ) (s : Source ι ε) :
    (s.filtered step x).tail = s.tail.filtered step (step x (s 0)).1 := rfl

/-- **A filtered dialogue is the dialogue on the filtered source.** -/
theorem sent_filter (x : σ) (d : Dialogue ι ο ε) (s : Source ι ε) :
    (d.filter step x).sent s = d.sent (s.filtered step x) := by
  induction d generalizing x s with
  | receive next ih => exact ih (step x (s 0)).2 (step x (s 0)).1 s.tail
  | send o next ih => exact congrArg (o :: ·) (ih x s)
  | stop | raise => rfl

theorem outcome_filter (x : σ) (d : Dialogue ι ο ε) (s : Source ι ε) :
    (d.filter step x).outcome s = d.outcome (s.filtered step x) := by
  induction d generalizing x s with
  | receive next ih => exact ih (step x (s 0)).2 (step x (s 0)).1 s.tail
  | send o next ih => exact ih x s
  | stop | raise => rfl

/-- **A filter that lets pass all that is received cannot be told from none.** -/
theorem run_filter_of_agree {step} {x : σ} {d : Dialogue ι ο ε} {s : Source ι ε}
    (h : ∀ n < d.taken s, s.filtered step x n = s n) : (d.filter step x).run s = d.run s := by
  induction d generalizing x s with
  | receive next ih =>
    have hfirst : (step x (s 0)).2 = s 0 := h 0 (Nat.succ_pos _)
    have hrest : (filter step (step x (s 0)).1 (next (step x (s 0)).2)).run s.tail =
        (next (s 0)).run s.tail := by
      rw [hfirst]
      exact ih (s 0) fun n hn => h (n + 1) (Nat.succ_lt_succ hn)
    simp only [filter, run, hrest]
  | send o next ih => simp only [filter, run, ih h]
  | stop | raise => rfl

end Filter

/-! ### Taking over -/

/-- When the dialogue raises something that is handled, go on as the handler says, unless something
has been sent that `starts`. -/
def rescue (starts : ο → Bool) (handler : ε → Option (Dialogue ι ο ε)) :
    Bool → Dialogue ι ο ε → Dialogue ι ο ε
  | started, receive next => receive fun r => rescue starts handler started (next r)
  | started, send o next => send o (rescue starts handler (started || starts o) next)
  | _, stop => stop
  | started, raise e =>
    match handler e with
    | none => raise e
    | some d => if started then stop else d

section Rescue

variable {starts : ο → Bool} {handler : ε → Option (Dialogue ι ο ε)} {started : Bool}
  {d : Dialogue ι ο ε} {s : Source ι ε}

/-- A dialogue that raises nothing that is handled goes on by itself. -/
theorem run_rescue_of_unhandled (h : ∀ e, d.outcome s = some e → handler e = none) :
    (d.rescue starts handler started).run s = d.run s := by
  induction d generalizing started s with
  | receive next ih => simp only [rescue, run, ih (s 0) (s := s.tail) h]
  | send o next ih => simp only [rescue, run, ih (s := s) h]
  | stop => rfl
  | raise e => rw [rescue, h e rfl]

/-- **After something has been sent that starts, nothing is added.** -/
theorem sent_rescue_of_started {e : ε} {d' : Dialogue ι ο ε} (h : d.outcome s = some e)
    (hhandler : handler e = some d') (hstarted : started = true ∨ ∃ o ∈ d.sent s, starts o = true) :
    (d.rescue starts handler started).sent s = d.sent s := by
  induction d generalizing started s with
  | receive next ih => exact ih (s 0) h hstarted
  | send o next ih =>
    refine congrArg (o :: ·) (ih h ?_)
    rcases hstarted with rfl | ⟨o', ho', hstarts⟩
    · exact Or.inl (Bool.true_or _)
    · rcases List.mem_cons.mp ho' with rfl | ho'
      · exact Or.inl (by rw [hstarts, Bool.or_true])
      · exact Or.inr ⟨o', ho', hstarts⟩
  | stop => cases h
  | raise e' =>
    obtain rfl := Option.some.inj h
    rcases hstarted with rfl | ⟨o, ho, _⟩
    · rw [rescue, hhandler]
      rfl
    · cases ho

/-- The source after what a run has received. -/
def Source.after (s : Source ι ε) (n : ℕ) : Source ι ε := fun m => s (n + m)

/-- **Before, the handler comes after what was sent.** -/
theorem sent_rescue_of_unstarted {e : ε} {d' : Dialogue ι ο ε} (h : d.outcome s = some e)
    (hhandler : handler e = some d') (hunstarted : ∀ o ∈ d.sent s, starts o = false) :
    (d.rescue starts handler false).sent s = d.sent s ++ d'.sent (s.after (d.taken s)) := by
  induction d generalizing s with
  | receive next ih =>
    have hafter : s.after (taken (next (s 0)) s.tail + 1) =
        Source.after s.tail (taken (next (s 0)) s.tail) := by
      funext m
      exact congrArg s (by omega)
    rw [taken, hafter]
    exact ih (s 0) h hunstarted
  | send o next ih =>
    have hfirst : starts o = false := hunstarted o List.mem_cons_self
    rw [rescue, hfirst, Bool.false_or]
    exact congrArg (o :: ·) (ih h fun o' ho' => hunstarted o' (List.mem_cons_of_mem _ ho'))
  | stop => cases h
  | raise e' =>
    obtain rfl := Option.some.inj h
    have hzero : s.after 0 = s := by
      funext m
      exact congrArg s (by omega)
    rw [rescue, hhandler, taken, hzero]
    rfl

end Rescue

end Dialogue
