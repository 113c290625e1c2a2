import EncryptedInference.Exchange.Retries
import Mathlib.Tactic.Common
import Mathlib.Tactic.SplitIfs

/-!
# How often a connection is tried

The loop makes one attempt after another with a pause between two (`RetryPolicy.loop_eq`), up to the
first that succeeds (`RetryPolicy.retry_of_success`) or to the last that is allowed
(`RetryPolicy.retry_of_failures`).  It never comes to its end without a failure to report.
-/

namespace EncryptedInference.RetryPolicy

variable {α : Type} {p : RetryPolicy} {address : String} {attempt : Nat → Except String α}

/-! ## The attempts that are made -/

section

variable {left run : Nat} {value : α} {reason : String}

theorem retry_of_ok (h : attempt run = .ok value) :
    p.retry address attempt left run = ⟨.ok value, run + 1, run * p.pause⟩ := by
  unfold retry
  rw [h]

theorem retry_zero_of_error (h : attempt run = .error reason) :
    p.retry address attempt 0 run =
      ⟨.error (failure address (run + 1) reason), run + 1, run * p.pause⟩ := by
  unfold retry
  rw [h]

theorem retry_succ_of_error (h : attempt run = .error reason) :
    p.retry address attempt (left + 1) run = p.retry address attempt left (run + 1) := by
  conv_lhs => unfold retry
  rw [h]

end

section

variable (p : RetryPolicy) (address : String) (attempt : Nat → Except String α)

/-- The attempts go on from number `run` to the last that is made, and there was a pause before each
of them but number zero. -/
theorem retry_bounds (left run : Nat) :
    run < (p.retry address attempt left run).runs ∧
      (p.retry address attempt left run).slept =
        p.pause * ((p.retry address attempt left run).runs - 1) := by
  induction left generalizing run with
  | zero =>
    cases h : attempt run with
    | ok value =>
      rw [retry_of_ok h]
      exact ⟨Nat.lt_succ_self run, Nat.mul_comm _ _⟩
    | error reason =>
      rw [retry_zero_of_error h]
      exact ⟨Nat.lt_succ_self run, Nat.mul_comm _ _⟩
  | succ left ih =>
    cases h : attempt run with
    | ok value =>
      rw [retry_of_ok h]
      exact ⟨Nat.lt_succ_self run, Nat.mul_comm _ _⟩
    | error reason =>
      rw [retry_succ_of_error h]
      obtain ⟨hruns, hslept⟩ := ih (run + 1)
      exact ⟨by omega, hslept⟩

/-- The first attempt that succeeds is the last that is made. -/
theorem retry_of_success (left run f : Nat) {value : α} (hrun : run ≤ f) (hf : f ≤ run + left)
    (hfail : ∀ i, run ≤ i → i < f → ∃ reason, attempt i = .error reason)
    (hvalue : attempt f = .ok value) :
    (p.retry address attempt left run).runs = f + 1 ∧
      (p.retry address attempt left run).result = .ok value := by
  induction left generalizing run with
  | zero =>
    obtain rfl : run = f := by omega
    rw [retry_of_ok hvalue]
    exact ⟨rfl, rfl⟩
  | succ left ih =>
    rcases Nat.eq_or_lt_of_le hrun with rfl | hlt
    · rw [retry_of_ok hvalue]
      exact ⟨rfl, rfl⟩
    · obtain ⟨reason, hreason⟩ := hfail run (Nat.le_refl run) hlt
      rw [retry_succ_of_error hreason]
      exact ih (run + 1) hlt (by omega) fun i hi => hfail i (by omega)

/-- When every attempt fails all are made, and the last failure is reported. -/
theorem retry_of_failures (left run : Nat)
    (hfail : ∀ i, run ≤ i → i ≤ run + left → ∃ reason, attempt i = .error reason) :
    (p.retry address attempt left run).runs = run + left + 1 ∧
      ∃ reason, attempt (run + left) = .error reason ∧
        (p.retry address attempt left run).result =
          .error (failure address (run + left + 1) reason) := by
  induction left generalizing run with
  | zero =>
    obtain ⟨reason, hreason⟩ := hfail run (Nat.le_refl run) (Nat.le_refl _)
    rw [retry_zero_of_error hreason]
    exact ⟨rfl, reason, hreason, rfl⟩
  | succ left ih =>
    obtain ⟨reason, hreason⟩ := hfail run (Nat.le_refl run) (by omega)
    rw [retry_succ_of_error hreason]
    have hrest := ih (run + 1) fun i hi hle => hfail i (by omega) (by omega)
    rwa [Nat.succ_add_eq_add_succ run left] at hrest

/-- The loop makes the same attempts, with a pause between two, and whatever it would report for
want of a failure, it reports the same. -/
theorem loop_eq (fallback : String) (left i : Nat) (h : i + left + 1 = p.attempts)
    (lastError : Option String) :
    p.loop address fallback attempt (left + 1) i lastError =
      (((List.range' i ((p.retry address attempt left i).runs - i)).map .attempted).intersperse
        (.paused p.pause), (p.retry address attempt left i).result) := by
  induction left generalizing i lastError with
  | zero =>
    unfold loop
    cases hattempt : attempt i with
    | ok value => simp [retry_of_ok hattempt]
    | error reason =>
      rw [retry_zero_of_error hattempt]
      dsimp only
      split_ifs with hone hnext
      · obtain rfl : i = 0 := by omega
        simp [failure]
      · omega
      · have hfailure : failure address (i + 1) reason =
            .retriesExhausted address p.attempts reason := by
          rw [failure, h, if_neg hone]
        simp [loop, hfailure]
  | succ left ih =>
    unfold loop
    cases hattempt : attempt i with
    | ok value => simp [retry_of_ok hattempt]
    | error reason =>
      rw [retry_succ_of_error hattempt]
      dsimp only
      rw [if_neg (by omega), if_pos (by omega), ih (i + 1) (by omega)]
      obtain ⟨hruns, -⟩ := retry_bounds p address attempt left (i + 1)
      obtain ⟨n, hn⟩ := Nat.exists_eq_add_of_lt hruns
      have hfirst : (p.retry address attempt left (i + 1)).runs - i = n + 2 := by omega
      have hrest : (p.retry address attempt left (i + 1)).runs - (i + 1) = n + 1 := by omega
      rw [hfirst, hrest]
      simp [List.range'_succ]

end

/-- The connection is tried with a pause between two attempts and none after the last, up to the
first attempt that succeeds or the last that is allowed, of which there is at least one.  A pause is
as long as asked for, up to the longest sleep.  If no attempt succeeds, a single failure is reported
as it is, and otherwise the last one with the number of attempts: the loop always has a failure to
report. -/
theorem run_of_attempts (p : RetryPolicy) (address : String) (attempt : Nat → Except String α) :
    let allowed := max 1 p.maxAttempts
    let o := p.run address attempt
    p.steps address attempt =
        (((List.range o.runs).map .attempted).intersperse (.paused (sleepLength p.backoff)),
          o.result) ∧
      (∀ fallback, p.loop address fallback attempt p.attempts 0 none = p.steps address attempt) ∧
      o.slept = sleepLength p.backoff * (o.runs - 1) ∧
      (∀ f value, attempt f = .ok value → (∀ i < f, ∃ reason, attempt i = .error reason) →
        o.runs = min allowed (f + 1) ∧ (f < allowed → o.result = .ok value)) ∧
      ((∀ i < allowed, ∃ reason, attempt i = .error reason) →
        o.runs = allowed ∧ ∃ reason, attempt (allowed - 1) = .error reason ∧
          (allowed = 1 → o.result = .error (.connect address reason)) ∧
          (allowed ≠ 1 → o.result = .error (.retriesExhausted address allowed reason))) := by
  intro allowed o
  have hallowed : p.attempts = allowed := Nat.max_comm _ _
  have hpos : 0 < allowed := by omega
  have ho : o = p.retry address attempt (allowed - 1) 0 := by
    rw [← hallowed]
    rfl
  have hloop : ∀ fallback, p.loop address fallback attempt p.attempts 0 none =
      (((List.range o.runs).map .attempted).intersperse (.paused p.pause), o.result) := by
    intro fallback
    have heq := loop_eq p address attempt fallback (allowed - 1) 0 (by omega) none
    rwa [← ho, Nat.sub_add_cancel hpos, ← hallowed, Nat.sub_zero, ← List.range_eq_range'] at heq
  have hfailures : (∀ i < allowed, ∃ reason, attempt i = .error reason) →
      o.runs = allowed ∧ ∃ reason, attempt (allowed - 1) = .error reason ∧
        o.result = .error (failure address allowed reason) := by
    intro hfail
    have hretry := retry_of_failures p address attempt (allowed - 1) 0 fun i _ hi =>
      hfail i (by omega)
    rwa [← ho, Nat.zero_add, Nat.sub_add_cancel hpos] at hretry
  refine ⟨hloop "unknown", fun fallback => (hloop fallback).trans (hloop "unknown").symm,
    (retry_bounds p address attempt (p.attempts - 1) 0).2, ?_, ?_⟩
  · intro f value hvalue hfail
    by_cases hf : f < allowed
    · obtain ⟨hruns, hresult⟩ := retry_of_success p address attempt (allowed - 1) 0 f
        (Nat.zero_le f) (by omega) (fun i _ => hfail i) hvalue
      rw [← ho] at hruns hresult
      exact ⟨hruns.trans (by omega), fun _ => hresult⟩
    · obtain ⟨hruns, -⟩ := hfailures fun i hi => hfail i (by omega)
      exact ⟨hruns.trans (by omega), fun h => absurd h hf⟩
  · intro hfail
    obtain ⟨hruns, reason, hreason, hresult⟩ := hfailures hfail
    refine ⟨hruns, reason, hreason, ?_, ?_⟩
    · intro hone
      rw [hresult, failure, if_pos hone]
    · intro hmany
      rw [hresult, failure, if_neg hmany]

/-- The third of at most five attempts succeeds. -/
theorem run_of_third_attempt :
    let attempt : Nat → Except String Nat := fun i => if i = 2 then .ok 7 else .error "refused"
    let p : RetryPolicy := ⟨5, 500⟩
    (p.run "h:1" attempt).runs = 3 ∧ (p.run "h:1" attempt).result = .ok 7 ∧
      (p.steps "h:1" attempt).1 =
        [.attempted 0, .paused 500, .attempted 1, .paused 500, .attempted 2] := by
  intro attempt p
  obtain ⟨hsteps, -, -, hsuccess, -⟩ := run_of_attempts p "h:1" attempt
  have hfail : ∀ i < 2, ∃ reason, attempt i = .error reason := by
    intro i hi
    exact ⟨"refused", if_neg (by omega)⟩
  obtain ⟨hruns, hresult⟩ := hsuccess 2 7 rfl hfail
  have hthree : (p.run "h:1" attempt).runs = 3 := hruns
  refine ⟨hthree, hresult (by decide), ?_⟩
  rw [hsteps, hthree]
  rfl

/-- Two pauses of more than thirty years each are not as long as asked for. -/
theorem slept_of_long_backoff :
    let attempt : Nat → Except String Unit := fun i => if i = 2 then .ok () else .error "refused"
    let p : RetryPolicy := ⟨3, 1000000000000⟩
    let o := p.run "h:1" attempt
    o.runs = 3 ∧ o.slept = 1892160000000 ∧ o.slept ≠ p.backoff * (o.runs - 1) := by
  intro attempt p o
  have hruns : o.runs = 3 := (retry_of_success p "h:1" attempt 2 0 2 (by omega) (by omega)
    (fun i _ hi => ⟨"refused", if_neg (by omega)⟩) rfl).1
  have hslept : o.slept = p.pause * (o.runs - 1) := (retry_bounds p "h:1" attempt 2 0).2
  rw [hslept, hruns]
  decide

end EncryptedInference.RetryPolicy
