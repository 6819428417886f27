import Mathlib.Algebra.BigOperators.Intervals
import TraceFence.Api.Middleware

/-!
# What the middleware guarantees

Whatever the application does with a request, and however the network cuts the body into messages:
every response that it or a layer sends has the security headers, there is at most one, and the
application is never given more body bytes than allowed. A request that stays within the limits is
served as if there were no limits at all. What the framework itself sends when an exception has left
all the layers is not among these responses, and does not have the headers.

## Main results

* `responses_guarded` — the headers of the responses of the application and the layers
* `bodies_limited` — what the application is given of a body
-/

namespace TraceFence

open Dialogue Finset

variable {limits : ApiLimits} {buckets : Buckets String} {now : ℚ} {scope : Scope} {app : App}
  {maxBytes received : ℕ} {s : Source Received AsgiError} {message : Except AsgiError Received}

/-! ### Bodies -/

/-- The counter goes up by what comes. -/
theorem fst_limitedReceive :
    (limitedReceive maxBytes received message).1 = received + bodyLength message := by
  rcases message with e | (⟨body, moreBody⟩ | type) <;> rfl

/-- What comes is given if it is within the limit, or no body at all. -/
theorem snd_limitedReceive :
    ((limitedReceive maxBytes received message).2 = message ∧
        (received + bodyLength message ≤ maxBytes ∨ bodyLength message = 0)) ∨
      ((limitedReceive maxBytes received message).2 = .error .bodyTooLarge ∧
        maxBytes < received + bodyLength message) := by
  rcases message with e | (⟨body, moreBody⟩ | type)
  · exact Or.inl ⟨rfl, Or.inr rfl⟩
  · by_cases hmore : maxBytes < received + body.length
    · exact Or.inr ⟨if_pos hmore, hmore⟩
    · exact Or.inl ⟨if_neg hmore, Or.inl (not_lt.mp hmore)⟩
  · exact Or.inl ⟨rfl, Or.inr rfl⟩

/-- The number of body bytes in the first messages of a source. -/
def bodyBytes (s : Source Received AsgiError) (n : ℕ) : ℕ := ∑ i ∈ range n, bodyLength (s i)

theorem bodyBytes_succ (n : ℕ) : bodyBytes s (n + 1) = bodyLength (s 0) + bodyBytes s.tail n := by
  rw [bodyBytes, sum_range_succ', add_comm]
  rfl

/-- What is given of a body stays within the limit, counting what was received before. -/
theorem bodyBytes_filtered (n : ℕ) (received : ℕ) (s : Source Received AsgiError) :
    (received ≤ maxBytes →
        received + bodyBytes (s.filtered (limitedReceive maxBytes) received) n ≤ maxBytes) ∧
      (maxBytes < received → bodyBytes (s.filtered (limitedReceive maxBytes) received) n = 0) := by
  induction n generalizing received s with
  | zero => exact ⟨fun h => h, fun _ => rfl⟩
  | succ n ih =>
    obtain ⟨hwithin, hbeyond⟩ := ih (received + bodyLength (s 0)) s.tail
    rw [bodyBytes_succ, tail_filtered, fst_limitedReceive, Source.filtered]
    rcases @snd_limitedReceive maxBytes received (s 0) with ⟨hgiven, hle | hempty⟩ | ⟨hrefused, hlt⟩
    · rw [hgiven]
      have := hwithin hle
      exact ⟨fun _ => by omega, fun h => by omega⟩
    · rw [hgiven]
      constructor
      · intro h
        have := hwithin (by omega)
        omega
      · intro h
        have := hbeyond (by omega)
        omega
    · rw [hrefused, hbeyond hlt]
      exact ⟨fun h => h, fun _ => rfl⟩

/-- A message is given as it is, or not at all. -/
theorem filtered_cases (n : ℕ) (received : ℕ) (s : Source Received AsgiError) :
    s.filtered (limitedReceive maxBytes) received n = s n ∨
      s.filtered (limitedReceive maxBytes) received n = .error .bodyTooLarge := by
  induction n generalizing received s with
  | zero => exact snd_limitedReceive.imp And.left And.left
  | succ n ih => exact ih _ s.tail

/-- What is within the limit is given. -/
theorem filtered_of_le (n : ℕ) (received : ℕ) (s : Source Received AsgiError)
    (h : received + bodyBytes s n ≤ maxBytes) :
    ∀ i < n, s.filtered (limitedReceive maxBytes) received i = s i := by
  induction n generalizing received s with
  | zero => exact fun i hi => absurd hi (Nat.not_lt_zero i)
  | succ n ih =>
    rw [bodyBytes_succ] at h
    intro i hi
    cases i with
    | zero =>
      rcases @snd_limitedReceive maxBytes received (s 0) with ⟨hgiven, _⟩ | ⟨_, hlt⟩
      · exact hgiven
      · omega
    | succ i =>
      change s.tail.filtered _ (limitedReceive maxBytes received (s 0)).1 i = s.tail i
      rw [fst_limitedReceive]
      exact ih _ s.tail (by omega) i (by omega)

/-! ### Responses -/

/-- An application lets the exception of the limit pass before it has responded. -/
def Overflows (app : App) (given : Source Received AsgiError) : Prop :=
  app.outcome given = some .bodyTooLarge ∧ ∀ o ∈ app.sent given, o.isStart = false

/-- **What the limit makes of an application**: what the application sends, given the limited body,
and the refusal if it lets the exception pass before it has responded. -/
theorem sent_limitBody (app : App) (s : Source Received AsgiError) :
    (Overflows app (s.filtered (limitedReceive maxBytes) 0) → (limitBody maxBytes app).sent s =
      app.sent (s.filtered (limitedReceive maxBytes) 0) ++ tooLarge.sent s) ∧
    (¬ Overflows app (s.filtered (limitedReceive maxBytes) 0) → (limitBody maxBytes app).sent s =
      app.sent (s.filtered (limitedReceive maxBytes) 0)) := by
  rw [Overflows, limitBody, ← sent_filter, ← outcome_filter]
  generalize app.filter (limitedReceive maxBytes) 0 = filtered
  have hhandler : handleTooLarge .bodyTooLarge = some tooLarge := rfl
  constructor
  · rintro ⟨hraised, hunstarted⟩
    exact sent_rescue_of_unstarted hraised hhandler hunstarted
  · intro hkept
    by_cases hraised : filtered.outcome s = some .bodyTooLarge
    · have hstarted : ∃ o ∈ filtered.sent s, o.isStart = true := by
        by_contra hnone
        exact hkept ⟨hraised, fun o ho => Bool.eq_false_iff.mpr fun h => hnone ⟨o, ho, h⟩⟩
      exact sent_rescue_of_started hraised hhandler (Or.inr hstarted)
    · rw [Dialogue.sent, run_rescue_of_unhandled]
      · rfl
      · intro e he
        refine if_neg ?_
        rintro rfl
        exact hraised he

/-- **A body within the limit is not limited.** -/
theorem run_limitBody (h : bodyBytes s (app.taken s) ≤ maxBytes)
    (hraise : app.outcome s ≠ some .bodyTooLarge) : (limitBody maxBytes app).run s = app.run s := by
  have hfilter : (app.filter (limitedReceive maxBytes) 0).run s = app.run s :=
    run_filter_of_agree (filtered_of_le _ 0 s (by omega))
  rw [limitBody, run_rescue_of_unhandled, hfilter]
  intro e he
  refine if_neg ?_
  rintro rfl
  refine hraise ?_
  rw [outcome, ← hfilter]
  exact he

/-! ### The layers -/

/-- The declared length of a body, if there is one, is a number within the limit. -/
def AcceptsLength (maxBytes : ℕ) (scope : Scope) : Prop :=
  ∀ rawLength, scope.header? "content-length" = some rawLength →
    ∃ declared, parseInt rawLength = some declared ∧ 0 ≤ declared ∧ declared ≤ maxBytes

/-- Whether a request gets past the limits that look at its scope only. -/
def Admits (limits : ApiLimits) (buckets : Buckets String) (now : ℚ) (scope : Scope) : Prop :=
  (scope.counts → (retryAfter limits buckets now scope).2 = 0) ∧
    (scope.limitsBody → AcceptsLength limits.maxRequestBytes scope)

theorem requestSizeLimit_of_accepts (hbody : scope.limitsBody) (h : AcceptsLength maxBytes scope) :
    requestSizeLimit maxBytes scope app = limitBody maxBytes app := by
  rw [requestSizeLimit, if_pos hbody]
  split
  · rfl
  · next rawLength hraw =>
    obtain ⟨declared, hdeclared, hnonneg, hle⟩ := h rawLength hraw
    rw [hdeclared]
    dsimp only
    rw [if_neg (not_lt.mpr hnonneg), if_neg (not_lt.mpr hle)]

theorem requestSizeLimit_of_rejects (hbody : scope.limitsBody) (h : ¬ AcceptsLength maxBytes scope) :
    ∃ status code message, ∀ app,
      requestSizeLimit maxBytes scope app = jsonResponse status code message := by
  simp only [requestSizeLimit, if_pos hbody]
  cases hraw : scope.header? "content-length" with
  | none =>
    refine absurd (fun rawLength hraw' => ?_) h
    rw [hraw] at hraw'
    cases hraw'
  | some rawLength =>
    dsimp only
    cases hdeclared : parseInt rawLength with
    | none => exact ⟨400, _, _, fun _ => rfl⟩
    | some declared =>
      dsimp only
      split_ifs with hnegative hlarge
      · exact ⟨400, _, _, fun _ => rfl⟩
      · exact ⟨413, _, _, fun _ => rfl⟩
      · refine absurd (fun raw hraw' => ?_) h
        obtain rfl := Option.some.inj (hraw.symm.trans hraw')
        exact ⟨declared, hdeclared, not_lt.mp hnegative, not_lt.mp hlarge⟩

/-- A request that is not admitted is refused without the application. -/
theorem guarded_of_rejects (hhttp : scope.type = "http") (h : ¬ Admits limits buckets now scope) :
    ∃ status code message headers, ∀ app, (guarded limits buckets now scope app).2 =
      (jsonResponse status code message headers).mapSent (secure scope) := by
  simp only [guarded, securityHeaders, if_pos hhttp, rateLimit]
  by_cases hrate : scope.counts ∧ (retryAfter limits buckets now scope).2 ≠ 0
  · simp only [if_pos hrate.1, if_pos hrate.2]
    exact ⟨429, _, _, _, fun _ => rfl⟩
  · have hbody : scope.limitsBody ∧ ¬ AcceptsLength limits.maxRequestBytes scope := by
      by_contra hbody
      refine h ⟨fun hcounts => by_contra fun hne => hrate ⟨hcounts, hne⟩, fun hlimits => ?_⟩
      exact by_contra fun hrejects => hbody ⟨hlimits, hrejects⟩
    obtain ⟨status, code, message, hrefusal⟩ := requestSizeLimit_of_rejects hbody.1 hbody.2
    refine ⟨status, code, message, [], fun app => ?_⟩
    by_cases hcounts : scope.counts
    · have hzero : ¬ (retryAfter limits buckets now scope).2 ≠ 0 := fun hne => hrate ⟨hcounts, hne⟩
      simp only [if_pos hcounts, if_neg hzero, hrefusal]
    · simp only [if_neg hcounts, hrefusal]

/-- A request that is admitted goes to the application, behind the limit on its body. -/
theorem guarded_of_admits (hhttp : scope.type = "http") (h : Admits limits buckets now scope) :
    (guarded limits buckets now scope app).2 =
      (if scope.limitsBody then limitBody limits.maxRequestBytes app else app).mapSent
        (secure scope) := by
  have hinner : requestSizeLimit limits.maxRequestBytes scope app =
      if scope.limitsBody then limitBody limits.maxRequestBytes app else app := by
    by_cases hbody : scope.limitsBody
    · rw [if_pos hbody, requestSizeLimit_of_accepts hbody (h.2 hbody)]
    · rw [if_neg hbody, requestSizeLimit, if_neg hbody]
  simp only [guarded, securityHeaders, if_pos hhttp, rateLimit, hinner]
  by_cases hcounts : scope.counts
  · simp only [if_pos hcounts, if_neg (not_not.mpr (h.1 hcounts))]
  · simp only [if_neg hcounts]

/-! ### Every response -/

/-- What the headers of a response have to have. -/
def Secured (scope : Scope) (headers : List (Bytes × Bytes)) : Prop :=
  securityHeaderFields ⊆ headers ∧
    (scope.isPrivate = true → ∃ header ∈ headers, lowerBytes header.1 = "cache-control".toList)

theorem secured_of_secure {o : Sent} {status : ℕ} {headers : List (Bytes × Bytes)}
    (h : secure scope o = .start status headers) : Secured scope headers := by
  cases o with
  | body | other => cases h
  | start status' sent =>
    rw [secure] at h
    split_ifs at h with hprivate
    · obtain ⟨_, rfl⟩ := Sent.start.inj h
      refine ⟨fun field hfield => ?_, fun _ => ?_⟩
      · exact List.mem_append_left _ (List.mem_append_right _ hfield)
      · exact ⟨_, List.mem_append_right _ (List.mem_singleton_self _), by decide⟩
    · obtain ⟨_, rfl⟩ := Sent.start.inj h
      refine ⟨fun field hfield => List.mem_append_right _ hfield, fun hscope => ?_⟩
      have hcached := not_not.mp fun hnone => hprivate ⟨hscope, hnone⟩
      obtain ⟨header, hheader, hname⟩ := List.any_eq_true.mp hcached
      exact ⟨header, hheader, of_decide_eq_true hname⟩

/-- The headers change no message into another kind. -/
theorem isStart_secure (o : Sent) : (secure scope o).isStart = o.isStart := by
  cases o <;> rfl

/-- **Every response of the application and the layers is secured, and there is one.** -/
theorem responses_guarded (hhttp : scope.type = "http") (app : App)
    (s : Source Received AsgiError) :
    (∀ status headers, .start status headers ∈ (guarded limits buckets now scope app).2.sent s →
      Secured scope headers) ∧
    ((∀ s', (app.sent s').countP Sent.isStart ≤ 1) →
      ((guarded limits buckets now scope app).2.sent s).countP Sent.isStart ≤ 1) := by
  have hshape : ∃ inner : App, (guarded limits buckets now scope app).2 =
      inner.mapSent (secure scope) ∧ ((∀ s', (app.sent s').countP Sent.isStart ≤ 1) →
        (inner.sent s).countP Sent.isStart ≤ 1) := by
    by_cases hadmits : Admits limits buckets now scope
    · refine ⟨_, guarded_of_admits hhttp hadmits, fun happ => ?_⟩
      split_ifs
      · by_cases hoverflows : Overflows app (s.filtered (limitedReceive limits.maxRequestBytes) 0)
        · rw [(sent_limitBody app s).1 hoverflows, List.countP_append,
            List.countP_eq_zero.mpr fun o ho => by
              rw [hoverflows.2 o ho]
              exact Bool.false_ne_true, Nat.zero_add]
          exact le_of_eq rfl
        · rw [(sent_limitBody app s).2 hoverflows]
          exact happ _
      · exact happ s
    · obtain ⟨status, code, message, headers, hrefusal⟩ := guarded_of_rejects hhttp hadmits
      exact ⟨_, hrefusal app, fun _ => le_of_eq rfl⟩
  obtain ⟨inner, hinner, hcount⟩ := hshape
  rw [hinner, sent_mapSent]
  refine ⟨fun status headers hmem => ?_, fun happ => ?_⟩
  · obtain ⟨o, _, ho⟩ := List.mem_map.mp hmem
    exact secured_of_secure ho
  · rw [List.countP_map]
    refine le_trans (le_of_eq (List.countP_congr fun o _ => ?_)) (hcount happ)
    rw [Function.comp_apply, isStart_secure]

/-- **The application is given no more of a body than the limit**, and all of one within it; a
request that does not get so far has one answer, whatever the application and the body. -/
theorem bodies_limited (hbody : scope.limitsBody) :
    (¬ Admits limits buckets now scope ∧ ∃ status headers body, ∀ app s,
      (guarded limits buckets now scope app).2.run s =
        ([.sent (.start status headers), .sent (.body body)], none)) ∨
    (Admits limits buckets now scope ∧ ∀ app s, ∃ given : Source Received AsgiError,
      (∀ n, bodyBytes given n ≤ limits.maxRequestBytes) ∧
      (∀ n, given n = s n ∨ given n = .error .bodyTooLarge) ∧
      (Overflows app given → (guarded limits buckets now scope app).2.sent s =
        (app.sent given ++ tooLarge.sent s).map (secure scope)) ∧
      (¬ Overflows app given → (guarded limits buckets now scope app).2.sent s =
        (app.sent given).map (secure scope)) ∧
      (bodyBytes s (app.taken s) ≤ limits.maxRequestBytes → app.outcome s ≠ some .bodyTooLarge →
        (guarded limits buckets now scope app).2.run s = (securityHeaders scope app).run s)) := by
  by_cases hadmits : Admits limits buckets now scope
  · refine Or.inr ⟨hadmits, fun app s => ⟨s.filtered (limitedReceive limits.maxRequestBytes) 0,
      fun n => ?_, fun n => filtered_cases n 0 s, fun hoverflows => ?_, fun hoverflows => ?_,
      fun hfits hraise => ?_⟩⟩
    · have := (@bodyBytes_filtered limits.maxRequestBytes n 0 s).1 (Nat.zero_le _)
      omega
    · rw [guarded_of_admits hbody.1 hadmits, if_pos hbody, sent_mapSent,
        (sent_limitBody app s).1 hoverflows]
    · rw [guarded_of_admits hbody.1 hadmits, if_pos hbody, sent_mapSent,
        (sent_limitBody app s).2 hoverflows]
    · rw [guarded_of_admits hbody.1 hadmits, if_pos hbody, securityHeaders, if_pos hbody.1,
        run_mapSent, run_mapSent, run_limitBody hfits hraise]
  · obtain ⟨status, code, message, headers, hrefusal⟩ := guarded_of_rejects hbody.1 hadmits
    exact Or.inl ⟨hadmits, _, _, _, fun app s => congrArg (fun d : App => d.run s) (hrefusal app)⟩

/-! ### A limit of six bytes -/

/-- An application that reads two messages of the body. -/
def sampleApp : App := .receive fun
  | .error e => .raise e
  | .ok _ => .receive fun
    | .error e => .raise e
    | .ok _ => .send (.start 204 []) .stop

/-- Three bytes of a body, and three more. -/
def sampleBody : Source Received AsgiError
  | 0 => .ok (.request "123".toList true)
  | 1 => .ok (.request "456".toList)
  | _ => .ok (.other "http.disconnect")

/-- A byte more. -/
def sampleLongBody : Source Received AsgiError
  | 0 => .ok (.request "1234".toList true)
  | 1 => .ok (.request "567".toList)
  | _ => .ok (.other "http.disconnect")

def sampleScope : Scope := { method := some "POST", path := "/upload" }

theorem responses_guarded_sample :
    (∀ status headers, .start status headers ∈
        (guarded sampleLimits [] 0 sampleScope sampleApp).2.sent sampleBody →
      Secured sampleScope headers) ∧
    ((guarded sampleLimits [] 0 sampleScope sampleApp).2.sent sampleBody).countP Sent.isStart ≤ 1 := by
  refine (responses_guarded rfl sampleApp sampleBody).imp id fun hone => hone fun s => ?_
  rw [sampleApp, sent_receive]
  rcases s 0 with e | first
  · exact Nat.zero_le _
  · rw [sent_receive]
    rcases s.tail 0 with e | second
    · exact Nat.zero_le _
    · exact le_of_eq rfl

/-- The sample reads two messages, and raises what comes instead of one. -/
theorem sampleApp_overflows {given : Source Received AsgiError}
    (h : given 0 = .error .bodyTooLarge ∨ given 1 = .error .bodyTooLarge)
    (hgiven : ∀ e, given 0 = .error e → e = .bodyTooLarge) :
    Overflows sampleApp given ∧ sampleApp.sent given = [] := by
  cases hfirst : given 0 with
  | error e =>
    obtain rfl := hgiven e hfirst
    simp [Overflows, sampleApp, outcome, Dialogue.sent, run, hfirst, Event.output]
  | ok first =>
    have hsecond : given.tail 0 = .error .bodyTooLarge := h.resolve_left (by simp [hfirst])
    simp [Overflows, sampleApp, outcome, Dialogue.sent, run, hfirst, hsecond, Event.output]

/-- The body of six bytes is served as without a limit, and the longer one is refused. -/
theorem bodies_limited_sample :
    (guarded sampleLimits [] 0 sampleScope sampleApp).2.run sampleBody =
      (securityHeaders sampleScope sampleApp).run sampleBody ∧
    (guarded sampleLimits [] 0 sampleScope sampleApp).2.sent sampleLongBody =
      (tooLarge.sent sampleLongBody).map (secure sampleScope) := by
  have hadmits : Admits sampleLimits [] 0 sampleScope := by
    refine ⟨fun hcounts => absurd hcounts.2 (by decide), ?_⟩
    rintro _ rawLength hraw
    cases hraw
  rcases @bodies_limited sampleLimits [] 0 sampleScope (by decide) with ⟨hrejects, _⟩ | ⟨_, hgiven⟩
  · exact absurd hadmits hrejects
  constructor
  · obtain ⟨_, _, _, _, _, hwithin⟩ := hgiven sampleApp sampleBody
    refine hwithin ?_ ?_
    · show bodyBytes sampleBody 2 ≤ 6
      decide
    · exact (Option.some_ne_none _).symm
  · obtain ⟨given, hbound, hcases, hover, _, _⟩ := hgiven sampleApp sampleLongBody
    have hrefused : given 0 = .error .bodyTooLarge ∨ given 1 = .error .bodyTooLarge := by
      by_contra hnone
      rw [not_or] at hnone
      have hbytes := hbound 2
      rw [bodyBytes, sum_range_succ, sum_range_one, (hcases 0).resolve_right hnone.1,
        (hcases 1).resolve_right hnone.2] at hbytes
      exact absurd hbytes (by decide)
    obtain ⟨hoverflows, hsilent⟩ := sampleApp_overflows hrefused fun e he => by
      rcases hcases 0 with hkept | hlost
      · rw [hkept] at he
        cases he
      · rw [hlost] at he
        cases he
        rfl
    rw [hover hoverflows, hsilent, List.nil_append]

end TraceFence
