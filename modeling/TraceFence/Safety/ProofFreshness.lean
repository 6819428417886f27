import TraceFence.Safety.ProofCoherence

/-!
# Fresh proofs

A call may be answered by its own build, by the cache or by a build that another call has begun. In
each case the response ought to be a proof about a state that was current at some moment of the
call. The revision stands for the state, so it is enough that the response is no older than the
revision the call has read at its start: the key of the cache makes sure of that. Nothing does when
a call joins a build that has passed its revision check already, and nothing makes sure that the
row of the command, which a pass reads first, belongs to the revision the pass reads after it.

## Main definitions

* `Proves`, `ProofsFresh` — the law
* `Punctual` — the discipline under which the code obeys it
* `Timely` — the invariant

## Main results

* `proofs_fresh` — the law, in disciplined runs
* `proofs_stale` — a call that gets a proof from before it began
-/

namespace TraceFence

open System Checked

variable {cfg : Config} {commandId : Id} {w₀ w w' : ProofWorld} {s s' : ProofService}
  {l : BuildLabel} {pass : ProofPass} {response : ProofResponse} {worlds : List ProofWorld}

/-! ### The law -/

/-- A response is a proof about a state of the database. -/
def Proves (cfg : Config) (commandId : Id) (response : ProofResponse) (w : ProofWorld) : Prop :=
  ∃ clock telemetry, buildUncached cfg w.db commandId clock telemetry = .ok response

/-- A response is marked as unstable, or a proof about a state between two moments. -/
def Shown (cfg : Config) (commandId : Id) (worlds : List ProofWorld) (start moment : ℕ)
    (response : ProofResponse) : Prop :=
  response.Marked ∨
    ∃ t w, start ≤ t ∧ t ≤ moment ∧ worlds[t]? = some w ∧ Proves cfg commandId response w

/-- **Freshness**: whatever a call returns is marked as unstable, or a proof about a state that was
current at some moment between its start and its return. -/
def ProofsFresh (cfg : Config) (commandId : Id) (T : System ProofService BuildLabel) : Prop :=
  ∀ s, T.Reachable s → ∀ call ∈ s.calls, ∀ response moment,
    call.stage = .returned response moment →
      Shown cfg commandId s.worlds call.start moment response

/-- A call joins a build that has passed its revision check only if it has not read a later
revision, and a pass that passes it has read the row of the command as it is stored. -/
def Punctual (commandId : Id) (s : ProofService) : BuildLabel → Prop
  | .enter index now => ∀ call owner call' pass, s.calls[index]? = some call →
      s.kept call now = [] → s.inflight = some owner → s.calls[owner]? = some call' →
      call'.stage = .stable pass → call.revision ≤ pass.revision
  | .check index => ∀ call failed pass, s.calls[index]? = some call →
      call.stage = .passed failed pass → s.world.revision = pass.revision →
      s.world.db.commands.get? commandId = some pass.evidence.command
  | _ => True

/-! ### Proofs -/

theorem Proves.same (h : Proves cfg commandId response w)
    (hsame : (revised cfg commandId).same w w') : Proves cfg commandId response w' := by
  obtain ⟨clock, telemetry, hbuild⟩ := h
  have hinputs : SameInputs cfg commandId w w' := hsame
  exact ⟨clock, telemetry, (hinputs.proofs clock telemetry).trans hbuild⟩

theorem gatherEvidence_command {db : Database} {command : ControlCommand} {clock : ℕ → Time}
    {evidence : ProofEvidence} (h : gatherEvidence cfg db command clock = .ok evidence) :
    evidence.command = command := by
  rw [gatherEvidence, bind_eq_ok] at h
  obtain ⟨_, _, h⟩ := h
  rw [bind_eq_ok] at h
  obtain ⟨_, _, h⟩ := h
  rw [bind_eq_ok] at h
  obtain ⟨_, _, h⟩ := h
  rw [pure_eq_ok] at h
  rw [← h]
  rfl

/-- What a pass concludes from one state is a proof about it. -/
theorem proves_of_gatherEvidence {command : ControlCommand} {clock : ℕ → Time}
    {evidence : ProofEvidence} (hrow : w.db.commands.get? commandId = some command)
    (h : gatherEvidence cfg w.db command clock = .ok evidence) (telemetry : TelemetryProof) :
    Proves cfg commandId (evidence.conclude telemetry) w := by
  refine ⟨clock, telemetry, ?_⟩
  rw [buildUncached_eq, hrow]
  exact bind_eq_ok.mpr ⟨command, rfl, bind_eq_ok.mpr ⟨evidence, h, rfl⟩⟩

/-! ### The invariant -/

/-- What is known about a call that began with a revision at a moment, by its stage. -/
def BuildStage.Sound (cfg : Config) (commandId : Id) (past : List ProofWorld) (world : ProofWorld)
    (revision start : ℕ) : BuildStage → Prop
  | .runRead _ _ read => read ≤ world.revision
  | .passed _ pass => pass.revision ≤ world.revision ∧ (pass.revision = world.revision →
      world.db.commands.get? commandId = some pass.evidence.command →
      Proves cfg commandId pass.response world)
  | .stable pass => revision ≤ pass.revision ∧ Held (past ++ [world]) 0 fun w =>
      w.revision = pass.revision ∧ Proves cfg commandId pass.response w
  | .returned response moment =>
      moment ≤ past.length ∧ Shown cfg commandId (past ++ [world]) start moment response
  | _ => True

/-- What a follower knows about the call it awaits. -/
def BuildStage.Joinable (cfg : Config) (commandId : Id) (worlds : List ProofWorld)
    (revision start : ℕ) : BuildStage → Prop
  | .stable pass => revision ≤ pass.revision
  | .returned response _ =>
      response.Marked ∨ Held worlds start (Proves cfg commandId response)
  | .started _ | .ready | .joined _ => False
  | _ => True

/-- **The invariant of one call.** -/
structure BuildCall.Timely (cfg : Config) (commandId : Id) (past : List ProofWorld)
    (world : ProofWorld) (call : BuildCall) : Prop where
  start : ∃ w, (past ++ [world])[call.start]? = some w ∧ w.revision = call.revision
  key : ∀ k ∈ call.key, k.revision = call.revision
  stage : call.stage.Sound cfg commandId past world call.revision call.start

/-- **The invariant of all of them.** -/
structure Timely (cfg : Config) (commandId : Id) (s : ProofService) : Prop where
  ordered : (revised cfg commandId).Ordered s.worlds
  calls : ∀ (index : ℕ) (call : BuildCall), s.calls[index]? = some call →
    call.Timely cfg commandId s.past s.world
  joined : ∀ (index owner : ℕ) (call : BuildCall), s.calls[index]? = some call →
    call.stage = .joined owner → ∃ call', s.calls[owner]? = some call' ∧
      call'.stage.Joinable cfg commandId s.worlds call.revision call.start
  cached : ∀ entry ∈ s.cache, Held s.worlds 0 fun w =>
    w.revision = entry.key.revision ∧ Proves cfg commandId entry.response w
  flight : ∀ owner, s.inflight = some owner →
    ∃ call, s.calls[owner]? = some call ∧ call.stage.owning = true

/-! ### Commits -/

theorem Shown.append {start moment : ℕ} {more : List ProofWorld}
    (h : Shown cfg commandId worlds start moment response) :
    Shown cfg commandId (worlds ++ more) start moment response := by
  refine h.imp id ?_
  rintro ⟨t, w, hstart, hmoment, hw, hproves⟩
  exact ⟨t, w, hstart, hmoment, getElem?_append_of_some hw, hproves⟩

theorem BuildStage.Sound.commit {stage : BuildStage} {past : List ProofWorld} {revision start : ℕ}
    (h : stage.Sound cfg commandId past w revision start)
    (hfollows : (revised cfg commandId).Follows w w') :
    stage.Sound cfg commandId (past ++ [w]) w' revision start := by
  have hle : w.revision ≤ w'.revision := hfollows.1
  cases stage with
  | runRead failed command read => exact le_trans h hle
  | passed failed pass =>
    obtain ⟨hread, hproves⟩ := h
    refine ⟨hread.trans hle, fun heq hrow => ?_⟩
    -- The revision has not moved, so neither has what the pass depends on.
    have hstill : pass.revision = w.revision := le_antisymm hread (heq ▸ hle)
    have hsame : SameInputs cfg commandId w w' := hfollows.2 (hstill.symm.trans heq)
    exact (hproves hstill (hsame.row ▸ hrow)).same hsame
  | stable pass => exact ⟨h.1, h.2.append⟩
  | returned response moment =>
    refine ⟨h.1.trans ?_, h.2.append⟩
    rw [List.length_append]
    omega
  | started | ready | joined | attempt | commandRead | unstable | raised => trivial

theorem BuildStage.Joinable.append {stage : BuildStage} {revision start : ℕ} {more : List ProofWorld}
    (h : stage.Joinable cfg commandId worlds revision start) :
    stage.Joinable cfg commandId (worlds ++ more) revision start := by
  cases stage with
  | returned response moment => exact h.imp id Held.append
  | stable pass => exact h
  | started | ready | joined => exact h
  | attempt | commandRead | runRead | passed | unstable | raised => trivial

theorem BuildCall.Timely.commit {call : BuildCall} {past : List ProofWorld}
    (h : call.Timely cfg commandId past w) (hfollows : (revised cfg commandId).Follows w w') :
    call.Timely cfg commandId (past ++ [w]) w' := by
  obtain ⟨v, hv, hrevision⟩ := h.start
  exact ⟨⟨v, getElem?_append_of_some hv, hrevision⟩, h.key, h.stage.commit hfollows⟩

/-! ### Calls -/

/-- The present revision is no older than the one a call began with. -/
theorem Timely.revision_le (h : Timely cfg commandId s) {call : BuildCall}
    (hcall : call.Timely cfg commandId s.past s.world) : call.revision ≤ s.world.revision := by
  obtain ⟨v, hv, hrevision⟩ := hcall.start
  exact hrevision ▸ h.ordered.revision_le_last hv

/-- **A response that is no older than a call** is a proof about a state since the call began. -/
theorem Timely.held_since (h : Timely cfg commandId s) {call : BuildCall} {r : ℕ}
    (hcall : call.Timely cfg commandId s.past s.world) (hle : call.revision ≤ r)
    (hheld : Held s.worlds 0 fun w => w.revision = r ∧ Proves cfg commandId response w) :
    Held s.worlds call.start (Proves cfg commandId response) := by
  obtain ⟨v, hv, hrevision⟩ := hcall.start
  have hle' : v.revision ≤ r := hrevision.trans_le hle
  exact h.ordered.held_since (fun _ _ hsame hproves => hproves.same hsame) hv hle' hheld

/-- A call that returns now returns within its time. -/
theorem Timely.sound_returned {start revision : ℕ} (h : response.Marked ∨
    Held s.worlds start (Proves cfg commandId response)) :
    (BuildStage.returned response s.past.length).Sound cfg commandId s.past s.world revision
      start := by
  refine ⟨le_rfl, h.imp id ?_⟩
  rintro ⟨t, w, hle, hw, hproves⟩
  refine ⟨t, w, hle, ?_, hw, hproves⟩
  have hlt := (List.getElem?_eq_some_iff.mp hw).1
  rw [ProofService.worlds, List.length_append, List.length_singleton] at hlt
  omega

/-- **One call goes on among the others.** -/
theorem Timely.move (h : Timely cfg commandId s) (call' : BuildCall) {index : ℕ} {call : BuildCall}
    (hcall : s.calls[index]? = some call) (hcalls : s'.calls = s.calls.set index call')
    (hpast : s'.past = s.past) (hworld : s'.world = s.world)
    (hcache : ∀ entry ∈ s'.cache, Held s.worlds 0 fun w =>
      w.revision = entry.key.revision ∧ Proves cfg commandId entry.response w)
    (hflight : ∀ owner, s'.inflight = some owner →
      (owner = index ∧ call'.stage.owning = true) ∨ (owner ≠ index ∧ s.inflight = some owner))
    (htimely : call'.Timely cfg commandId s.past s.world)
    (hjoins : ∀ owner, call'.stage = .joined owner → ∃ other, s.calls[owner]? = some other ∧
      other.stage.Joinable cfg commandId s.worlds call'.revision call'.start ∧ owner ≠ index)
    (hjoined : ∀ follower : BuildCall, follower.Timely cfg commandId s.past s.world →
      call.stage.Joinable cfg commandId s.worlds follower.revision follower.start →
      call'.stage.Joinable cfg commandId s.worlds follower.revision follower.start) :
    Timely cfg commandId s' := by
  have hline : s'.worlds = s.worlds := by rw [ProofService.worlds, ProofService.worlds, hpast, hworld]
  have hlt := (List.getElem?_eq_some_iff.mp hcall).1
  have hother {j : ℕ} (hne : j ≠ index) : s'.calls[j]? = s.calls[j]? := by
    rw [hcalls, List.getElem?_set_ne hne.symm]
  have hself : s'.calls[index]? = some call' := by rw [hcalls, List.getElem?_set_self hlt]
  refine ⟨hline ▸ h.ordered, fun j c hc => ?_, fun j owner c hc hstage => ?_, ?_,
    fun owner howner => ?_⟩
  · rw [hcalls] at hc
    rw [hpast, hworld]
    rcases getElem?_set_cases hc with ⟨_, rfl⟩ | ⟨_, hold⟩
    · exact htimely
    · exact h.calls j c hold
  · rw [hline]
    rw [hcalls] at hc
    rcases getElem?_set_cases hc with ⟨_, rfl⟩ | ⟨_, hold⟩
    · obtain ⟨other, hget, hjoinable, hne⟩ := hjoins owner hstage
      exact ⟨other, (hother hne).trans hget, hjoinable⟩
    · obtain ⟨other, hget, hjoinable⟩ := h.joined j owner c hold hstage
      by_cases hne : owner = index
      · subst hne
        obtain rfl := Option.some.inj (hcall.symm.trans hget)
        exact ⟨call', hself, hjoined c (h.calls j c hold) hjoinable⟩
      · exact ⟨other, (hother hne).trans hget, hjoinable⟩
  · rw [hline]
    exact hcache
  · rcases hflight owner howner with ⟨rfl, howning⟩ | ⟨hne, hold⟩
    · exact ⟨call', hself, howning⟩
    · obtain ⟨other, hget, howning⟩ := h.flight owner hold
      exact ⟨other, (hother hne).trans hget, howning⟩

/-- A call goes on without touching cache or future. -/
theorem Timely.advance (h : Timely cfg commandId s) {index : ℕ} {call : BuildCall}
    {stage : BuildStage} (hcall : s.calls[index]? = some call)
    (howning : call.stage.owning = true → stage.owning = true)
    (hsound : stage.Sound cfg commandId s.past s.world call.revision call.start)
    (hjoins : ∀ owner, stage ≠ .joined owner)
    (hjoined : ∀ follower : BuildCall, follower.Timely cfg commandId s.past s.world →
      call.stage.Joinable cfg commandId s.worlds follower.revision follower.start →
      stage.Joinable cfg commandId s.worlds follower.revision follower.start) :
    Timely cfg commandId (s.move index call stage) := by
  have htimely := h.calls index call hcall
  refine h.move { call with stage := stage } hcall rfl rfl rfl h.cached
    (fun owner howner => ?_) ⟨htimely.start, htimely.key, hsound⟩
    (fun owner hstage => absurd hstage (hjoins owner)) hjoined
  by_cases heq : owner = index
  · obtain ⟨other, hget, hother⟩ := h.flight owner howner
    rw [heq, hcall] at hget
    exact Or.inl ⟨heq, howning (Option.some.inj hget ▸ hother)⟩
  · exact Or.inr ⟨heq, howner⟩

/-- The future is that of another call. -/
theorem Timely.flight_ne (h : Timely cfg commandId s) {index owner : ℕ} {call : BuildCall}
    (hcall : s.calls[index]? = some call) (hidle : call.stage.owning = false)
    (howner : s.inflight = some owner) : owner ≠ index := by
  rintro rfl
  obtain ⟨other, hget, howning⟩ := h.flight owner howner
  obtain rfl := Option.some.inj (hcall.symm.trans hget)
  rw [hidle] at howning
  cases howning

/-- **Disciplined steps keep the invariant.** -/
theorem timely_step (h : Timely cfg commandId s) (hpunctual : Punctual commandId s l)
    (hstep : BuildStep cfg commandId s l s') : Timely cfg commandId s' := by
  cases hstep with
  | idle => exact h
  | @commit world follows =>
    have hline : (s.past ++ [s.world] ++ [world]) = s.worlds ++ [world] := rfl
    refine ⟨h.ordered.concat follows, fun j c hc => (h.calls j c hc).commit follows,
      fun j owner c hc hstage => ?_, fun entry he => ?_, h.flight⟩
    · obtain ⟨other, hget, hjoinable⟩ := h.joined j owner c hc hstage
      exact ⟨other, hget, hjoinable.append⟩
    · exact (h.cached entry he).append
  | @start stage first =>
    refine ⟨h.ordered, fun j c hc => ?_, fun j owner c hc hstage => ?_, h.cached,
      fun owner howner => ?_⟩
    · rcases getElem?_concat_cases hc with rfl | hold
      · refine ⟨⟨s.world, by simp, rfl⟩, by simp, ?_⟩
        rcases first with rfl | ⟨_, rfl⟩ <;> trivial
      · exact h.calls j c hold
    · rcases getElem?_concat_cases hc with rfl | hold
      · rcases first with rfl | ⟨_, rfl⟩ <;> cases hstage
      · obtain ⟨other, hget, hjoinable⟩ := h.joined j owner c hold hstage
        exact ⟨other, getElem?_append_of_some hget, hjoinable⟩
    · obtain ⟨other, hget, howning⟩ := h.flight owner howner
      exact ⟨other, getElem?_append_of_some hget, howning⟩
  | @context index call runId _ _ key called stage keyed =>
    have htimely := h.calls index call called
    refine h.move { call with stage := .ready, key := key } called rfl rfl rfl h.cached
      (fun owner howner => ?_) ⟨htimely.start, keyed, trivial⟩ (by simp) fun _ _ hjoinable => ?_
    · exact Or.inr ⟨h.flight_ne called (by rw [stage]; rfl) howner, howner⟩
    · rw [stage] at hjoinable
      exact hjoinable.elim
  | @hit index call now entry rest called stage found =>
    have htimely := h.calls index call called
    have hcached : ∀ e ∈ entry :: rest, e ∈ s.cache ∧ some e.key = call.key := fun e he =>
      ⟨(mem_kept.mp (found ▸ he)).1, (mem_kept.mp (found ▸ he)).2.2⟩
    obtain ⟨hentry, hkey⟩ := hcached entry List.mem_cons_self
    have hrevision : entry.key.revision = call.revision := htimely.key entry.key hkey.symm
    have hheld := h.held_since htimely hrevision.ge (h.cached entry hentry)
    refine h.move { call with stage := .returned entry.response s.past.length } called rfl
      rfl rfl (fun e he => h.cached e (hcached e he).1) (fun owner howner => ?_)
      ⟨htimely.start, htimely.key, Timely.sound_returned (Or.inr hheld)⟩ (by simp)
      fun _ _ hjoinable => ?_
    · exact Or.inr ⟨h.flight_ne called (by rw [stage]; rfl) howner, howner⟩
    · rw [stage] at hjoinable
      exact hjoinable.elim
  | @join index call now owner called stage missed busy =>
    have htimely := h.calls index call called
    have hne {j : ℕ} (hj : s.inflight = some j) : j ≠ index :=
      h.flight_ne called (by rw [stage]; rfl) hj
    refine h.move { call with stage := .joined owner } called rfl rfl rfl (by simp)
      (fun j hj => Or.inr ⟨hne hj, hj⟩) ⟨htimely.start, htimely.key, trivial⟩ (fun j hj => ?_)
      fun _ _ hjoinable => ?_
    · cases hj
      obtain ⟨other, hget, howning⟩ := h.flight owner busy
      refine ⟨other, hget, ?_, hne busy⟩
      cases hstage : other.stage with
      | stable pass => exact hpunctual call owner other pass called missed busy hget hstage
      | started | ready | joined | returned | raised =>
        rw [hstage] at howning
        cases howning
      | attempt | commandRead | runRead | passed | unstable => trivial
    · rw [stage] at hjoinable
      exact hjoinable.elim
  | @own index call now called stage missed free =>
    have htimely := h.calls index call called
    refine h.move { call with stage := .attempt 0 } called rfl rfl rfl (by simp)
      (fun owner howner => ?_) ⟨htimely.start, htimely.key, trivial⟩ (by simp)
      fun _ _ hjoinable => ?_
    · cases howner
      exact Or.inl ⟨rfl, rfl⟩
    · rw [stage] at hjoinable
      exact hjoinable.elim
  | readCommand called stage =>
    exact h.advance called (fun _ => rfl) trivial (by simp) fun _ _ _ => trivial
  | readRun called stage =>
    exact h.advance called (fun _ => rfl) (le_refl _) (by simp) fun _ _ _ => trivial
  | @collect index call failed revision command clock _ telemetry watermark evidence called stage
      still =>
    have hread := (h.calls index call called).stage
    rw [stage] at hread
    refine h.advance called (fun _ => rfl) ⟨hread, fun heq hrow => ?_⟩ (by simp)
      fun _ _ _ => trivial
    have hgathered := still heq.symm
    rw [gatherEvidence_command hgathered] at hrow
    exact proves_of_gatherEvidence hrow hgathered telemetry
  | @settle index call failed pass called stage still =>
    have htimely := h.calls index call called
    have hpassed := htimely.stage
    rw [stage] at hpassed
    have hrow := hpunctual call failed pass called stage still
    have hlast : s.worlds[s.past.length]? = some s.world := by simp [ProofService.worlds]
    refine h.advance called (fun _ => rfl) ⟨(h.revision_le htimely).trans still.le, ?_⟩ (by simp)
      fun follower hfollower _ => (h.revision_le hfollower).trans still.le
    exact ⟨s.past.length, s.world, Nat.zero_le _, hlast, still, hpassed.2 still.symm hrow⟩
  | retry called stage | giveUp called stage =>
    exact h.advance called (fun _ => rfl) trivial (by simp) fun _ _ _ => trivial
  | @publishStable index call pass now expiresAt called stage =>
    have htimely := h.calls index call called
    have hstable := htimely.stage
    rw [stage] at hstable
    obtain ⟨hle, hheld⟩ := hstable
    have hsince : Held s.worlds call.start (Proves cfg commandId pass.response) :=
      h.held_since htimely hle hheld
    refine h.move { call with stage := .returned pass.response s.past.length } called rfl
      rfl rfl (fun entry he => ?_) (by simp) ⟨htimely.start, htimely.key,
        Timely.sound_returned (Or.inr hsince)⟩ (by simp) fun follower hfollower hjoinable => ?_
    · rcases mem_store he with hold | ⟨hrevision, hresponse⟩
      · exact h.cached entry hold
      · rw [hrevision, hresponse]
        exact hheld
    · rw [stage] at hjoinable
      exact Or.inr (h.held_since hfollower hjoinable hheld)
  | @publishUnstable index call pass now expiresAt called stage =>
    have htimely := h.calls index call called
    exact h.move { call with stage := .returned pass.unstable s.past.length } called rfl
      rfl rfl h.cached (by simp) ⟨htimely.start, htimely.key, Timely.sound_returned
        (Or.inl (marked_unstable pass))⟩ (by simp) fun _ _ _ => Or.inl (marked_unstable pass)
  | @receive index owner moment call call' response called stage awaited done =>
    obtain ⟨other, hget, hjoinable⟩ := h.joined index owner call called stage
    obtain rfl := Option.some.inj (awaited.symm.trans hget)
    rw [done] at hjoinable
    refine h.advance called (by rw [stage]; simp [BuildStage.owning])
      (Timely.sound_returned hjoinable) (by simp) fun _ _ hfollow => ?_
    rw [stage] at hfollow
    exact hfollow.elim
  | @fail _ index call called running =>
    have htimely := h.calls index call called
    refine h.move { call with stage := .raised } called rfl rfl rfl h.cached
      (fun owner howner => ?_) ⟨htimely.start, htimely.key, trivial⟩ (by simp) fun _ _ _ => trivial
    change (if call.stage.owning then none else s.inflight) = some owner at howner
    split at howner
    · cases howner
    · next hidle =>
      exact Or.inr ⟨h.flight_ne called (Bool.eq_false_iff.mpr hidle) howner, howner⟩

theorem builds_timely (h : ((proofs cfg commandId w₀).restrict (Punctual commandId)).Reachable s) :
    Timely cfg commandId s := by
  refine h.invariant (I := Timely cfg commandId) ⟨Revised.Ordered.singleton, ?_, ?_, ?_, ?_⟩
    fun s l s' _ hs hstep => ?_
  · intro index call hcall
    cases hcall
  · intro index owner call hcall
    cases hcall
  · intro entry hentry
    cases hentry
  · intro owner howner
    cases howner
  · obtain ⟨hstep', hpunctual⟩ := restrict_step_iff.mp hstep
    exact timely_step hs hpunctual (buildStep_of_step hstep')

/-- **Proofs are fresh**, stable, cached or shared, as long as no call joins a build that has passed
its revision check at an earlier revision than the call has read, and no pass passes the check with
a row of the command that has been overwritten. -/
theorem proofs_fresh (cfg : Config) (commandId : Id) (w₀ : ProofWorld) :
    ProofsFresh cfg commandId ((proofs cfg commandId w₀).restrict (Punctual commandId)) := by
  intro s hs call hcall response moment hreturned
  obtain ⟨index, hindex⟩ := List.getElem?_of_mem hcall
  have hsound := ((builds_timely hs).calls index call hindex).stage
  rw [hreturned] at hsound
  exact hsound.2

/-! ### The failing run -/

/-- The worker tries to restart postgres after it has been cancelled. -/
def sampleRefused : List Label := sampleCancelled ++
  [.call (.execute 20 30 { idempotencyKey := "first", toolName := "restart_postgres" })
     (sampleEnv 4 50)]

/-- The second call begins after the attempt, and joins a build that has checked the revision before
it. -/
def sampleLate : List BuildLabel :=
  [.start, .context 0 none (seconds 3), .enter 0 (seconds 3)] ++
  samplePass { verdict := .verified } ++
  [.check 0, .commit ⟨(sample sampleRefused).db, 2⟩,
    .start, .context 1 none (seconds 3), .enter 1 (seconds 3),
    .publish 0 (seconds 3) (seconds 4), .receive 1]

theorem staleActionAttempts_of_proves {command : ControlCommand}
    (h : Proves cfg commandId response w) (hrow : w.db.commands.get? commandId = some command) :
    response.staleActionAttempts = staleAttempts w.db command := by
  obtain ⟨clock, telemetry, hbuild⟩ := h
  rw [buildUncached_eq, hrow, bind_eq_ok] at hbuild
  obtain ⟨_, hcommand, hbuild⟩ := hbuild
  obtain rfl := Except.ok.inj hcommand
  rw [bind_eq_ok] at hbuild
  obtain ⟨evidence, hgathered, hresponse⟩ := hbuild
  obtain rfl := pure_eq_ok.mp hresponse
  simp only [gatherEvidence, bind_eq_ok, pure_eq_ok] at hgathered
  obtain ⟨_, _, _, _, _, _, rfl⟩ := hgathered
  rfl

/-- Whether a call that began at moment 1 has been given, at that moment, an unmarked response
without stale attempts. -/
def BuildCall.answeredStale (call : BuildCall) : Bool :=
  match call.stage with
  | .returned response moment => decide (call.start = 1 ∧ moment = 1 ∧
      response.staleActionAttempts = 0 ∧ response.overallVerdict ≠ .stateChangedDuringProof)
  | _ => false

/-- The second call gets a proof from before it began. -/
theorem proofs_stale : ¬ ProofsFresh sampleConfig 40 (proofs sampleConfig 40 (sampleWorld 1)) := by
  intro h
  have hcall : (sampleBuilds sampleLate).calls.any BuildCall.answeredStale = true := by
    decide +kernel
  obtain ⟨call, hmem, hreturned⟩ := List.any_eq_true.mp hcall
  rw [BuildCall.answeredStale] at hreturned
  split at hreturned
  · next response moment hstage =>
    obtain ⟨hstart, rfl, hnone, hunmarked⟩ := of_decide_eq_true hreturned
    rcases h _ (sampleBuilds_reachable (by decide +kernel)) call hmem response 1 hstage with
      hmarked | ⟨t, w, hle, hle', hw, hproves⟩
    · exact hunmarked hmarked.2
    · obtain rfl : t = 1 := le_antisymm hle' (hstart ▸ hle)
      have hstale : ((sampleBuilds sampleLate).worlds[1]?).all (fun w =>
          (w.db.commands.get? 40).any fun command => staleAttempts w.db command = 1) = true := by
        decide +kernel
      rw [hw, Option.all_some, Option.any_eq_true] at hstale
      obtain ⟨command, hrow, hone⟩ := hstale
      rw [staleActionAttempts_of_proves hproves hrow, of_decide_eq_true hone] at hnone
      cases hnone
  · cases hreturned

end TraceFence
