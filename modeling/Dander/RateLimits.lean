import Dander.PythonValues
import Dander.TokenBuckets

/-!
# Rate limits of REST sources

A session sends each attempt of a request after it took a token from the bucket of its source. An
attempt passes at the time that it last read from the clock.
-/
namespace Dander.RateLimits

open TokenBucket

section Session

inductive BackoffKind where
  | fixed
  | exponential
  deriving DecidableEq

structure RateLimitConfig where
  requestsPerSecond : ℚ
  burst : ℕ
  backoff : BackoffKind
  maxRetries : ℕ
  validated : 0 < requestsPerSecond ∧ 1 ≤ burst ∧ maxRetries ≤ 10

/-- How an attempt ends: in an exception of the transport, or with a response. -/
inductive Outcome where
  | requestException
  | response (statusCode : ℕ) (retryAfter : Option String)

/-- The clock and the source: how much time passes before each reading of the clock and beyond
each sleep, and how the attempts end. -/
structure Surroundings where
  elapse : ℕ → ℚ
  respond : ℕ → Outcome
  nonneg : ∀ event, 0 ≤ elapse event

/-- The bucket with the time, the number of events of the clock and of attempts, and a record of
when attempts passed and of the token counts. -/
structure Session where
  bucket : Bucket ℚ
  clock : ℚ
  events : ℕ
  attempts : ℕ
  passes : List ℚ
  levels : List ℚ

variable (policy : RateLimitConfig) (surroundings : Surroundings)

def Session.start (policy : RateLimitConfig) (now : ℚ) : Session :=
  ⟨⟨policy.burst, now⟩, now, 0, 0, [], [(policy.burst : ℚ)]⟩

/-- Time goes on by at least this much. -/
def advance (duration : ℚ) (session : Session) : Session :=
  { session with
    clock := session.clock + duration + surroundings.elapse session.events
    events := session.events + 1 }

def setBucket (bucket : Bucket ℚ) (session : Session) : Session :=
  { session with bucket := bucket, levels := bucket.tokens :: session.levels }

/-- Reads the clock and refills the bucket. -/
def refill (session : Session) : Session :=
  let read := advance surroundings 0 session
  setBucket (read.bucket.refill policy.burst policy.requestsPerSecond read.clock) read

def takeToken (session : Session) : Session :=
  { setBucket session.bucket.take session with passes := session.clock :: session.passes }

def acquireToken (session : Session) : Session :=
  let refilled := refill policy surroundings session
  if refilled.bucket.tokens < 1 then
    let delay := (1 - refilled.bucket.tokens) / policy.requestsPerSecond
    takeToken (refill policy surroundings (advance surroundings delay refilled))
  else takeToken refilled

/-- `max(delay, min(float(retry_after), 60.0))`, where the text is a float. -/
def boundedDelay (float : String → Option Python.Float) (delay : ℚ) (retryAfter : Option String) :
    ℚ :=
  match retryAfter.bind float with
  | none | some .nan | some (.infinity true) => delay
  | some (.finite seconds) => max delay (min seconds 60)
  | some .negativeZero => max delay 0
  | some (.infinity false) => max delay 60

def waitBeforeRetry (float : String → Option Python.Float) (attempt : ℕ)
    (retryAfter : Option String) (session : Session) : Session :=
  let multiplier : ℚ := if policy.backoff = .exponential then 2 ^ attempt else 1
  advance surroundings (boundedDelay float (multiplier / policy.requestsPerSecond) retryAfter)
    session

def retryableStatuses : List ℕ := [429, 500, 502, 503, 504]

def retryableMethod (method : Option String) : Bool :=
  let upper := String.ofList ((method.getD "").toList.map Char.toUpper)
  upper == "GET" || upper == "HEAD"

inductive SendResult where
  | returned (statusCode : ℕ)
  | raised
  deriving DecidableEq

/-- The attempts from one on, with the number of those that may follow it. -/
def sendAttempts (float : String → Option Python.Float) (method : Option String) :
    ℕ → ℕ → Session → SendResult × Session
  | remaining, attempt, session =>
    let acquired := acquireToken policy surroundings session
    let sent := { acquired with attempts := acquired.attempts + 1 }
    match surroundings.respond acquired.attempts, remaining with
    | .requestException, 0 => (.raised, sent)
    | .requestException, remaining + 1 =>
      if retryableMethod method then
        sendAttempts float method remaining (attempt + 1)
          (waitBeforeRetry policy surroundings float attempt none sent)
      else (.raised, sent)
    | .response statusCode _, 0 => (.returned statusCode, sent)
    | .response statusCode retryAfter, remaining + 1 =>
      if retryableMethod method && decide (statusCode ∈ retryableStatuses) then
        sendAttempts float method remaining (attempt + 1)
          (waitBeforeRetry policy surroundings float attempt retryAfter sent)
      else (.returned statusCode, sent)

def send (float : String → Option Python.Float) (method : Option String) (session : Session) :
    SendResult × Session :=
  sendAttempts policy surroundings float method policy.maxRetries 0 session

/-- Requests one after the other, given by their methods. -/
def sendAll (float : String → Option Python.Float) (methods : List (Option String))
    (session : Session) : Session :=
  methods.foldl (fun session method => (send policy surroundings float method session).2) session

end Session

section Pacing

variable {policy : RateLimitConfig} (surroundings : Surroundings) {session : Session}
  {float : String → Option Python.Float} {method : Option String}

/-- The bucket is paced, was refilled in the past and never left its range. -/
structure Kept (policy : RateLimitConfig) (session : Session) : Prop where
  paced : Paced (policy.burst : ℚ) policy.requestsPerSecond session.passes session.bucket
  past : session.bucket.lastRefill ≤ session.clock
  levels : ∀ level ∈ session.levels, 0 ≤ level ∧ level ≤ policy.burst

omit surroundings in
theorem kept_start (now : ℚ) : Kept policy (Session.start policy now) := by
  have hburst : (0 : ℚ) ≤ policy.burst := Nat.cast_nonneg _
  refine ⟨paced_full hburst policy.validated.1.le now, le_refl now, ?_⟩
  intro level hlevel
  rw [List.mem_singleton.mp hlevel]
  exact ⟨hburst, le_refl _⟩

theorem Kept.advance (h : Kept policy session) {duration : ℚ} (hduration : 0 ≤ duration) :
    Kept policy (advance surroundings duration session) := by
  refine ⟨h.paced, ?_, h.levels⟩
  have helapse := surroundings.nonneg session.events
  have hpast := h.past
  show session.bucket.lastRefill ≤ session.clock + duration + surroundings.elapse session.events
  linarith

omit surroundings in
theorem Kept.setBucket {bucket : Bucket ℚ} (h : Kept policy session)
    (hpaced : Paced (policy.burst : ℚ) policy.requestsPerSecond session.passes bucket)
    (hpast : bucket.lastRefill ≤ session.clock) :
    Kept policy (setBucket bucket session) := by
  refine ⟨hpaced, hpast, ?_⟩
  intro level hlevel
  rcases List.mem_cons.mp hlevel with rfl | hearlier
  · exact ⟨hpaced.nonneg, hpaced.le_burst⟩
  · exact h.levels level hearlier

theorem Kept.refill (h : Kept policy session) :
    Kept policy (refill policy surroundings session) := by
  have hread := h.advance surroundings (le_refl 0)
  exact hread.setBucket (hread.paced.refill policy.validated.1.le hread.past) (le_refl _)

theorem Kept.takeToken (h : Kept policy session) (hread : session.bucket.lastRefill = session.clock)
    (htoken : 1 ≤ session.bucket.tokens) : Kept policy (takeToken session) := by
  have htaken := h.paced.take policy.validated.1.le htoken
  rw [hread] at htaken
  refine ⟨htaken, h.past, ?_⟩
  intro level hlevel
  rcases List.mem_cons.mp hlevel with rfl | hearlier
  · exact ⟨htaken.nonneg, htaken.le_burst⟩
  · exact h.levels level hearlier

/-- An attempt that finds no token waits for one. -/
theorem Kept.acquireToken (h : Kept policy session) :
    Kept policy (acquireToken policy surroundings session) := by
  have hrefilled := h.refill surroundings
  unfold RateLimits.acquireToken
  generalize hsession : RateLimits.refill policy surroundings session = refilled at hrefilled ⊢
  have hread : refilled.bucket.lastRefill = refilled.clock := by
    rw [← hsession]
    rfl
  by_cases hempty : refilled.bucket.tokens < 1
  · simp only [if_pos hempty]
    have hdelay : 0 ≤ (1 - refilled.bucket.tokens) / policy.requestsPerSecond :=
      div_nonneg (by linarith) policy.validated.1.le
    have hslept := hrefilled.advance surroundings hdelay
    refine (hslept.refill surroundings).takeToken rfl ?_
    refine one_le_refill (Nat.one_le_cast.mpr policy.validated.2.1) policy.validated.1 ?_
    have hfirst := surroundings.nonneg refilled.events
    have hsecond := surroundings.nonneg (refilled.events + 1)
    show refilled.bucket.lastRefill + (1 - refilled.bucket.tokens) / policy.requestsPerSecond ≤
      refilled.clock + (1 - refilled.bucket.tokens) / policy.requestsPerSecond +
        surroundings.elapse refilled.events + 0 + surroundings.elapse (refilled.events + 1)
    linarith
  · simp only [if_neg hempty]
    exact hrefilled.takeToken hread (not_lt.mp hempty)

omit surroundings in
theorem boundedDelay_nonneg {delay : ℚ} (h : 0 ≤ delay) (retryAfter : Option String) :
    0 ≤ boundedDelay float delay retryAfter := by
  unfold boundedDelay
  split
  · exact h
  · exact h
  · exact h
  · exact h.trans (le_max_left _ _)
  · exact h.trans (le_max_left _ _)
  · exact h.trans (le_max_left _ _)

theorem Kept.waitBeforeRetry (h : Kept policy session) (attempt : ℕ) (retryAfter : Option String) :
    Kept policy (waitBeforeRetry policy surroundings float attempt retryAfter session) := by
  apply h.advance
  apply boundedDelay_nonneg
  refine div_nonneg ?_ policy.validated.1.le
  split <;> positivity

theorem Kept.sendAttempts {remaining attempt : ℕ} (h : Kept policy session) :
    Kept policy
      (sendAttempts policy surroundings float method remaining attempt session).2 := by
  induction remaining generalizing attempt session with
  | zero =>
    have hacquired := h.acquireToken surroundings
    unfold RateLimits.sendAttempts
    generalize RateLimits.acquireToken policy surroundings session = acquired at hacquired ⊢
    have hsent : Kept policy { acquired with attempts := acquired.attempts + 1 } :=
      ⟨hacquired.paced, hacquired.past, hacquired.levels⟩
    dsimp only
    cases surroundings.respond acquired.attempts with
    | requestException => exact hsent
    | response statusCode retryAfter => exact hsent
  | succ remaining ih =>
    have hacquired := h.acquireToken surroundings
    unfold RateLimits.sendAttempts
    generalize RateLimits.acquireToken policy surroundings session = acquired at hacquired ⊢
    have hsent : Kept policy { acquired with attempts := acquired.attempts + 1 } :=
      ⟨hacquired.paced, hacquired.past, hacquired.levels⟩
    dsimp only
    cases surroundings.respond acquired.attempts with
    | requestException =>
      by_cases hmethod : retryableMethod method = true
      · simp only [if_pos hmethod]
        exact ih (hsent.waitBeforeRetry surroundings attempt none)
      · simp only [if_neg hmethod]
        exact hsent
    | response statusCode retryAfter =>
      by_cases hretry : (retryableMethod method && decide (statusCode ∈ retryableStatuses)) = true
      · simp only [if_pos hretry]
        exact ih (hsent.waitBeforeRetry surroundings attempt retryAfter)
      · simp only [if_neg hretry]
        exact hsent

theorem Kept.sendAll (h : Kept policy session) (methods : List (Option String)) :
    Kept policy (sendAll policy surroundings float methods session) := by
  induction methods generalizing session with
  | nil => exact h
  | cons method rest ih => exact ih (h.sendAttempts surroundings)

/-- However the requests are sent and answered, the token count stays in its range, and the
attempts that pass in a window are at most the burst and what the window refills. -/
theorem rate_limit (policy : RateLimitConfig) (float : String → Option Python.Float)
    (methods : List (Option String)) (now : ℚ) :
    (∀ level ∈ (sendAll policy surroundings float methods (Session.start policy now)).levels,
      0 ≤ level ∧ level ≤ policy.burst) ∧
    ∀ start length : ℚ, 0 ≤ length →
      (countWindow (sendAll policy surroundings float methods (Session.start policy now)).passes
        start length : ℚ) ≤ policy.burst + policy.requestsPerSecond * length := by
  have hkept := @Kept.sendAll policy surroundings _ float (kept_start now) methods
  exact ⟨hkept.levels, hkept.paced.windows⟩

end Pacing

end Dander.RateLimits
