import EncryptedInference.Proofs.Client.Schedule

/-!
# How a wait goes

A client that waits for its request asks by its timetable (`PendingWait.times`).  As long as the
answers say that the request is pending, and come before the deadline, it goes on through the states
`PendingWait.clientAt` (`PendingWait.waitFrom_of_isCalm`).  What follows is one of three: an answer
ends the wait, the deadline strikes first, or the wait is not followed any further
(`PendingWait.wait_cases`).
-/

namespace EncryptedInference

variable {σ : Type}

/-- A client that waits for its request, which is in flight and not known to be completed. -/
structure PendingWait (t : Transport σ) where
  origin : TimedClient σ
  session : Session σ
  id : String
  policy : PollPolicy
  /-- After how many milliseconds the wait is cancelled. -/
  cancel : Option Nat
  live : origin.client = .live session
  inFlight : session.phase.requestId? = some id
  pending : session.phase.isCompleted = false
  interval_pos : 0 < policy.interval

namespace PendingWait

open TimedClient

variable {t : Transport σ} (v : PendingWait t)

/-- What becomes of the wait if it is followed for so many polls. -/
def wait (polls : Nat) : Progress Unit × TimedClient σ :=
  v.origin.wait t polls v.policy v.cancel

/-- What the client asks. -/
def question : ClientMessage := .status v.id

/-- Answer number `n` to the question. -/
def report (n : Nat) : Answer := t.answer v.session.channel v.question n

/-- The times at which the client asks. -/
def times : Timetable := ⟨v.policy.interval, v.origin.clock, fun n => (v.report n).delay⟩

theorem delay_times (n : Nat) : v.times.delay n = (v.report n).delay := rfl

/-- What happens on the channel until answer number `n` is awaited. -/
def events (n : Nat) : List Event := v.times.events v.question v.report n

/-- The session when so many questions have been answered, and the request is pending. -/
def sessionAt (n : Nat) : Session σ :=
  ⟨t.repeated v.session.channel v.question n, v.session.backend,
    if n = 0 then v.session.phase else .polling v.id false⟩

/-- The client with that session, at a given time. -/
def clientAt (n clock : Nat) : TimedClient σ :=
  ⟨.live (v.sessionAt n), clock, (v.events n).reverse ++ v.origin.log⟩

theorem clientAt_zero : v.clientAt 0 v.origin.clock = v.origin :=
  calc v.clientAt 0 v.origin.clock
      = ⟨.live v.session, v.origin.clock, v.origin.log⟩ := rfl
    _ = v.origin := by rw [← v.live]

theorem reverse_events_succ (n : Nat) :
    (v.events (n + 1)).reverse =
      .answered (v.times.arrival n) (v.report n).outcome ::
        .sent (v.times.time n) v.question :: (v.events n).reverse := by
  simp [events, Timetable.events_succ]

theorem clientAt_succ (n clock : Nat) :
    v.clientAt (n + 1) clock =
      ⟨.live ⟨(t.call (v.sessionAt n).channel v.question).2, v.session.backend,
          .polling v.id false⟩, clock,
        .answered (v.times.arrival n) (v.report n).outcome ::
          .sent (v.times.time n) v.question :: ((v.events n).reverse ++ v.origin.log)⟩ := by
  rw [clientAt, reverse_events_succ]
  rfl

theorem requestId?_sessionAt (n : Nat) : (v.sessionAt n).phase.requestId? = some v.id := by
  unfold sessionAt
  dsimp only
  split_ifs
  · exact v.inFlight
  · rfl

theorem isCompleted_sessionAt (n : Nat) : (v.sessionAt n).phase.isCompleted = false := by
  unfold sessionAt
  dsimp only
  split_ifs
  · exact v.pending
  · rfl

/-! ## One question -/

section

variable {deadline : Option Deadline} {n : Nat}

theorem pollBefore_clientAt (n clock : Nat) :
    pollBefore t deadline (v.clientAt n clock) =
      exchange t deadline (v.clientAt n clock) (v.sessionAt n) v.question
        ((v.sessionAt n).phase.afterStatus v.id) :=
  pollBefore_eq rfl (v.requestId?_sessionAt n) (v.isCompleted_sessionAt n) t deadline

theorem pollBefore_of_lt {d : Deadline} (hlt : d.time < v.times.arrival n) :
    pollBefore t (some d) (v.clientAt n (v.times.time n)) =
      (.error d.reason, ⟨.idle, max (v.times.time n) d.time,
        .sent (v.times.time n) v.question :: ((v.events n).reverse ++ v.origin.log)⟩) := by
  rw [pollBefore_clientAt]
  exact exchange_of_strikes (Deadline.strikesBefore_of_lt hlt)

theorem pollBefore_of_pending
    (hnone : Deadline.strikesBefore deadline (v.times.arrival n) = none)
    (hreport : (v.report n).verdict? = none) :
    pollBefore t deadline (v.clientAt n (v.times.time n)) =
      (.ok .pending, v.clientAt (n + 1) (v.times.arrival n)) := by
  obtain ⟨reply, hreply, hafter⟩ := Answer.pending_of_verdict? (p := (v.sessionAt n).phase) hreport
  rw [pollBefore_clientAt, exchange_of_ok hnone hreply, hafter, clientAt_succ, hreply]
  rfl

theorem pollBefore_of_verdict {verdict : Except ClientError Unit}
    (hnone : Deadline.strikesBefore deadline (v.times.arrival n) = none)
    (hreport : (v.report n).verdict? = some verdict) :
    ∃ client, pollBefore t deadline (v.clientAt n (v.times.time n)) =
      (verdict.map fun _ => .completed,
        ⟨client, v.times.arrival n, (v.events (n + 1)).reverse ++ v.origin.log⟩) := by
  rw [pollBefore_clientAt, reverse_events_succ]
  cases houtcome : (v.report n).outcome with
  | error e =>
    obtain rfl : verdict = .error (.connection e) := by
      rw [Answer.verdict?, houtcome] at hreport
      exact (Option.some.inj hreport).symm
    exact ⟨.idle, exchange_of_error hnone houtcome⟩
  | ok reply =>
    rw [exchange_of_ok hnone houtcome, Answer.afterStatus_of_verdict? houtcome hreport]
    exact ⟨_, rfl⟩

/-! ## Question after question -/

/-- The first `n` answers say that the request is pending, and come before the deadline. -/
def IsCalm (deadline : Option Deadline) (n : Nat) : Prop :=
  ∀ k < n, (v.report k).verdict? = none ∧ ∀ d, deadline = some d → v.times.arrival k ≤ d.time

variable {v}

theorem IsCalm.mono {k : Nat} (h : v.IsCalm deadline n) (hk : k ≤ n) : v.IsCalm deadline k :=
  fun j hj => h j (by omega)

/-- When the client is free to ask question `n`, the deadline has not struck. -/
theorem IsCalm.free_le {d : Deadline} (h : v.IsCalm (some d) n) (hstart : v.origin.clock ≤ d.time) :
    v.times.free n ≤ d.time := by
  cases n with
  | zero => exact hstart
  | succ n => exact (h n (Nat.lt_succ_self n)).2 d rfl

theorem IsCalm.strikesBefore_time (h : v.IsCalm deadline (n + 1)) :
    Deadline.strikesBefore deadline (v.times.time n) = none :=
  Deadline.strikesBefore_eq_none_iff.2 fun d hd =>
    (v.times.time_le_arrival n).trans ((h n (Nat.lt_succ_self n)).2 d hd)

/-- A wait that has been calm so far has come so far. -/
theorem waitFrom_of_isCalm (h : v.IsCalm deadline n) (rest : Nat) :
    waitFrom t v.policy.interval deadline (n + rest) v.origin.clock v.origin =
      waitFrom t v.policy.interval deadline rest (v.times.due n)
        (v.clientAt n (v.times.free n)) := by
  induction n generalizing rest with
  | zero =>
    rw [Nat.zero_add]
    exact congrArg (waitFrom t v.policy.interval deadline rest v.origin.clock)
      v.clientAt_zero.symm
  | succ n ih =>
    obtain ⟨hreport, harrival⟩ := h n (Nat.lt_succ_self n)
    rw [Nat.add_assoc, Nat.add_comm 1, ih (h.mono (Nat.le_succ n))]
    exact waitFrom_of_pending h.strikesBefore_time
      (v.pollBefore_of_pending (Deadline.strikesBefore_eq_none_iff.2 harrival) hreport)

/-- The first answer that does not say that the request is pending ends a wait that was calm until
then, if it comes before the deadline. -/
theorem waitFrom_of_report (h : v.IsCalm deadline n) {verdict : Except ClientError Unit}
    (hreport : (v.report n).verdict? = some verdict)
    (harrival : ∀ d, deadline = some d → v.times.arrival n ≤ d.time) (rest : Nat) :
    ∃ client, waitFrom t v.policy.interval deadline (n + (rest + 1)) v.origin.clock v.origin =
      (.returned verdict,
        ⟨client, v.times.arrival n, (v.events (n + 1)).reverse ++ v.origin.log⟩) := by
  obtain ⟨client, hpoll⟩ :=
    v.pollBefore_of_verdict (Deadline.strikesBefore_eq_none_iff.2 harrival) hreport
  refine ⟨client, ?_⟩
  rw [waitFrom_of_isCalm h]
  exact waitFrom_of_verdict (Deadline.strikesBefore_eq_none_iff.2 fun d hd =>
    (v.times.time_le_arrival n).trans (harrival d hd)) hpoll

/-- The deadline ends a wait that was calm until then, if it strikes before the next answer; the
question may have been asked or not. -/
theorem waitFrom_of_deadline {d : Deadline} (h : v.IsCalm (some d) n)
    (hstart : v.origin.clock ≤ d.time) (hlt : d.time < v.times.arrival n) (rest : Nat) :
    waitFrom t v.policy.interval (some d) (n + (rest + 1)) v.origin.clock v.origin =
      (.returned (.error d.reason), ⟨.idle, d.time,
        (if v.times.time n ≤ d.time then [.sent (v.times.time n) v.question] else []) ++
          ((v.events n).reverse ++ v.origin.log)⟩) := by
  rw [waitFrom_of_isCalm h]
  split_ifs with hasked
  · have hpoll := v.pollBefore_of_lt hlt
    rw [Nat.max_eq_right hasked] at hpoll
    refine waitFrom_of_error (Deadline.strikesBefore_eq_none_iff.2 ?_) hpoll
    rintro _ ⟨⟩
    exact hasked
  · have hstrikes : Deadline.strikesBefore (some d) (v.times.time n) = some d :=
      Deadline.strikesBefore_of_lt (Nat.lt_of_not_le hasked)
    refine (waitFrom_of_strikes hstrikes).trans ?_
    rw [clientAt, Nat.max_eq_right (h.free_le hstart)]
    rfl

end

/-! ## The bounds of a wait -/

/-- What may cut the wait short: the timeout of its policy, and its cancellation. -/
inductive IsBound : Deadline → Prop
  | timeout {milliseconds : Nat} (h : v.policy.timeout = some milliseconds) :
      IsBound ⟨v.origin.clock + sleepLength milliseconds, .timeout milliseconds⟩
  | cancelled {milliseconds : Nat} (h : v.cancel = some milliseconds) :
      IsBound ⟨v.origin.clock + sleepLength milliseconds, .cancelled⟩

/-- The earlier of the bounds. -/
def deadline : Option Deadline :=
  Deadline.earlier (v.policy.timeout.map fun ms => v.origin.deadlineIn ms (.timeout ms))
    (v.cancel.map fun ms => v.origin.deadlineIn ms .cancelled)

theorem wait_eq (polls : Nat) :
    v.wait polls = waitFrom t v.policy.interval v.deadline polls v.origin.clock v.origin := by
  simp only [wait, TimedClient.wait, inFlight_eq v.live v.inFlight, if_neg v.interval_pos.ne']
  rfl

theorem isBound_of_deadline {d : Deadline} (h : v.deadline = some d) : v.IsBound d := by
  rcases Deadline.earlier_cases h with htimeout | hcancel
  · obtain ⟨ms, hms, rfl⟩ := Option.map_eq_some_iff.1 htimeout
    exact .timeout hms
  · obtain ⟨ms, hms, rfl⟩ := Option.map_eq_some_iff.1 hcancel
    exact .cancelled hms

variable {v} in
theorem IsBound.start_le {d : Deadline} (h : v.IsBound d) : v.origin.clock ≤ d.time := by
  cases h <;> exact Nat.le_add_right _ _

/-- The bound that comes before the other is the deadline. -/
theorem deadline_eq {d : Deadline} (h : v.IsBound d)
    (hfirst : ∀ d', v.IsBound d' → d' ≠ d → d.time < d'.time) : v.deadline = some d := by
  unfold deadline
  cases h with
  | timeout h =>
    rw [h]
    cases hcancel : v.cancel with
    | none => rfl
    | some ms =>
      have hlt := hfirst _ (.cancelled hcancel) (by simp)
      exact if_neg (Nat.lt_asymm hlt)
  | cancelled h =>
    rw [h]
    cases htimeout : v.policy.timeout with
    | none => rfl
    | some ms =>
      have hlt := hfirst _ (.timeout htimeout) (by simp)
      exact if_pos hlt

/-! ## How a wait ends -/

theorem exists_of_not_isCalm {deadline : Option Deadline} {polls : Nat}
    (h : ¬ v.IsCalm deadline polls) :
    ∃ n < polls, v.IsCalm deadline n ∧ ¬ v.IsCalm deadline (n + 1) := by
  induction polls with
  | zero => exact absurd (fun k hk => absurd hk (Nat.not_lt_zero k)) h
  | succ polls ih =>
    by_cases hcalm : v.IsCalm deadline polls
    · exact ⟨polls, Nat.lt_succ_self polls, hcalm, h⟩
    · obtain ⟨n, hn, hends⟩ := ih hcalm
      exact ⟨n, Nat.lt_succ_of_lt hn, hends⟩

/-- A wait is still going on after all polls, or its deadline struck before an answer, or an answer
ended it. -/
theorem wait_cases (polls : Nat) :
    (v.IsCalm v.deadline polls ∧
      v.wait polls = (.ongoing, v.clientAt polls (v.times.free polls))) ∨
    (∃ n < polls, ∃ d, v.IsCalm v.deadline n ∧ v.deadline = some d ∧ d.time < v.times.arrival n ∧
      v.wait polls = (.returned (.error d.reason), ⟨.idle, d.time,
        (if v.times.time n ≤ d.time then [.sent (v.times.time n) v.question] else []) ++
          ((v.events n).reverse ++ v.origin.log)⟩)) ∨
    ∃ n < polls, ∃ verdict client, v.IsCalm v.deadline n ∧
      (v.report n).verdict? = some verdict ∧
      (∀ d, v.deadline = some d → v.times.arrival n ≤ d.time) ∧
      v.wait polls = (.returned verdict,
        ⟨client, v.times.arrival n, (v.events (n + 1)).reverse ++ v.origin.log⟩) := by
  rw [wait_eq]
  by_cases hall : v.IsCalm v.deadline polls
  · exact Or.inl ⟨hall, waitFrom_of_isCalm hall 0⟩
  · right
    obtain ⟨n, hn, hcalm, hends⟩ := v.exists_of_not_isCalm hall
    obtain ⟨rest, rfl⟩ : ∃ rest, polls = n + (rest + 1) := ⟨polls - (n + 1), by omega⟩
    by_cases hstrikes : ∃ d, v.deadline = some d ∧ d.time < v.times.arrival n
    · obtain ⟨d, hd, hlt⟩ := hstrikes
      refine Or.inl ⟨n, hn, d, hcalm, hd, hlt, ?_⟩
      rw [hd] at hcalm ⊢
      exact waitFrom_of_deadline hcalm (v.isBound_of_deadline hd).start_le hlt rest
    · have harrival : ∀ d, v.deadline = some d → v.times.arrival n ≤ d.time := by
        intro d hd
        exact Nat.le_of_not_lt fun hlt => hstrikes ⟨d, hd, hlt⟩
      cases hreport : (v.report n).verdict? with
      | some verdict =>
        obtain ⟨client, hends⟩ := waitFrom_of_report hcalm hreport harrival rest
        exact Or.inr ⟨n, hn, verdict, client, hcalm, hreport, harrival, hends⟩
      | none =>
        refine absurd ?_ hends
        intro k hk
        rcases Nat.lt_succ_iff_lt_or_eq.1 hk with hk | rfl
        · exact hcalm k hk
        · exact ⟨hreport, harrival⟩

/-! ## The schedule -/

/-- What is said, and when. -/
def said (trace : List Event) : List (Nat × ClientMessage) :=
  trace.filterMap fun
    | .sent time m => some (time, m)
    | _ => none

/-- The first `n` questions, each at its time. -/
def questions (n : Nat) : List (Nat × ClientMessage) :=
  (List.range n).map fun k => (v.times.time k, v.question)

theorem questions_succ (n : Nat) :
    v.questions (n + 1) = v.questions n ++ [(v.times.time n, v.question)] := by
  simp [questions, List.range_succ]

theorem said_append (trace trace' : List Event) :
    said (trace ++ trace') = said trace ++ said trace' :=
  List.filterMap_append

theorem said_sent (time : Nat) (m : ClientMessage) : said [.sent time m] = [(time, m)] := rfl

theorem said_events (n : Nat) : said (v.events n) = v.questions n := by
  induction n with
  | zero => rfl
  | succ n ih =>
    rw [events, Timetable.events_succ, said_append, questions_succ, ← ih]
    rfl

/-- The wait is given up when the deadline strikes: the session and its channel are gone, the
questions were those that came before, and nothing is said until a new channel is opened. -/
structure GivesUp (d : Deadline) (outcome : Progress Unit × TimedClient σ) : Prop where
  result : outcome.1 = .returned (.error d.reason)
  clock : outcome.2.clock = d.time
  idle : outcome.2.client = .idle
  asked : ∃ n, (∀ k, k < n ↔ v.times.time k < d.time) ∧
    said outcome.2.trace = said v.origin.trace ++ v.questions n
  silent : ∀ calls, (outcome.2.after t calls).log = outcome.2.log ∨
    ∃ new, (outcome.2.after t calls).log = new ++ .opened :: outcome.2.log

/-- The first answer that does not say that the request is pending ends the wait, if it comes before
the bounds. -/
theorem wait_of_report {n : Nat} {verdict : Except ClientError Unit}
    (hpending : ∀ k < n, (v.report k).verdict? = none)
    (hreport : (v.report n).verdict? = some verdict)
    (hbounds : ∀ d, v.IsBound d → v.times.arrival n < d.time) {polls : Nat} (hpolls : n < polls) :
    (v.wait polls).1 = .returned verdict ∧ (v.wait polls).2.clock = v.times.arrival n ∧
      (v.wait polls).2.trace = v.origin.trace ++ v.events (n + 1) ∧
      said (v.wait polls).2.trace = said v.origin.trace ++ v.questions (n + 1) := by
  have harrival : ∀ k ≤ n, ∀ d, v.deadline = some d → v.times.arrival k ≤ d.time := by
    intro k hk d hd
    have hmono : v.times.arrival k ≤ v.times.arrival n := v.times.arrival_mono hk
    exact hmono.trans (hbounds d (v.isBound_of_deadline hd)).le
  have hcalm : v.IsCalm v.deadline n := fun k hk => ⟨hpending k hk, harrival k hk.le⟩
  obtain ⟨rest, rfl⟩ : ∃ rest, polls = n + (rest + 1) := ⟨polls - (n + 1), by omega⟩
  obtain ⟨client, hwait⟩ :=
    waitFrom_of_report hcalm hreport (harrival n (Nat.le_refl n)) rest
  rw [v.wait_eq, hwait, ← said_events, ← said_append]
  simp [trace]

/-- There is at least a millisecond between two questions. -/
theorem start_add_le_arrival (n : Nat) : v.origin.clock + n ≤ v.times.arrival n := by
  have htime : v.origin.clock + n * v.policy.interval ≤ v.times.arrival n :=
    (v.times.start_add_le_time n).trans (v.times.time_le_arrival n)
  have hcount : n ≤ n * v.policy.interval := Nat.le_mul_of_pos_right n v.interval_pos
  omega

variable {v} in
/-- A wait that is calm until the deadline has not asked more often than there are milliseconds. -/
theorem IsCalm.le_of_ne {d : Deadline} {n : Nat} (h : v.IsCalm (some d) n)
    (hfree : ∀ k, v.times.arrival k ≠ d.time) : n ≤ d.time - v.origin.clock := by
  cases n with
  | zero => exact Nat.zero_le _
  | succ n =>
    have hstart := v.start_add_le_arrival n
    have harrival : v.times.arrival n < d.time :=
      Nat.lt_of_le_of_ne ((h n (Nat.lt_succ_self n)).2 d rfl) (hfree n)
    omega

variable {v} in
/-- The questions that are asked before the deadline, if it strikes before the next answer. -/
theorem IsCalm.lt_iff {d : Deadline} {n k : Nat} (h : v.IsCalm (some d) n)
    (hlt : d.time < v.times.arrival n) (hfree : ∀ k, v.times.time k ≠ d.time) :
    (k < if v.times.time n ≤ d.time then n + 1 else n) ↔ v.times.time k < d.time := by
  split_ifs with hasked
  · refine ⟨fun hk => ?_, fun hk => Nat.lt_of_not_le fun hle => ?_⟩
    · have hmono : v.times.time k ≤ v.times.time n := v.times.time_mono (Nat.le_of_lt_succ hk)
      exact Nat.lt_of_le_of_ne (hmono.trans hasked) (hfree k)
    · have hmono : v.times.time (n + 1) ≤ v.times.time k := v.times.time_mono hle
      have hnext := v.times.arrival_le_time_succ n
      omega
  · refine ⟨fun hk => ?_, fun hk => Nat.lt_of_not_le fun hle => ?_⟩
    · have htime : v.times.time k ≤ d.time :=
        (v.times.time_le_arrival k).trans ((h k hk).2 d rfl)
      exact Nat.lt_of_le_of_ne htime (hfree k)
    · have hmono : v.times.time n ≤ v.times.time k := v.times.time_mono hle
      omega

/-- If the first bound of a wait comes before every answer that would end it, and while nothing else
happens, the wait is given up. -/
theorem givesUp_wait {d : Deadline} (hd : v.IsBound d)
    (hfirst : ∀ d', v.IsBound d' → d' ≠ d → d.time < d'.time)
    (hlater : ∀ n, (∀ k < n, (v.report k).verdict? = none) → (v.report n).verdict? ≠ none →
      d.time < v.times.arrival n)
    (hfree : ∀ n, v.times.time n ≠ d.time ∧ v.times.arrival n ≠ d.time) {polls : Nat}
    (hpolls : d.time - v.origin.clock < polls) : v.GivesUp d (v.wait polls) := by
  have hdeadline := v.deadline_eq hd hfirst
  rcases v.wait_cases polls with ⟨hcalm, -⟩ | ⟨n, -, d', hcalm, hd', hlt, hwait⟩ |
      ⟨n, -, verdict, client, hcalm, hreport, harrival, -⟩
  · rw [hdeadline] at hcalm
    exact absurd (hcalm.le_of_ne fun k => (hfree k).2) (Nat.not_le_of_lt hpolls)
  · obtain rfl : d = d' := Option.some.inj (hdeadline.symm.trans hd')
    rw [hdeadline] at hcalm
    rw [hwait]
    refine ⟨rfl, rfl, rfl, ⟨_, fun k => hcalm.lt_iff hlt fun k => (hfree k).1, ?_⟩,
      opened_of_idle t rfl⟩
    split_ifs
    · simp [trace, said_append, said_events, questions_succ, said_sent]
    · simp [trace, said_append, said_events]
  · have hcalm' : ∀ k < n, (v.report k).verdict? = none := fun k hk => (hcalm k hk).1
    exact absurd (hlater n hcalm' (by simp [hreport])) (Nat.not_lt_of_le (harrival d hdeadline))

/-- How a wait goes.  What happens on the channel is on the timetable; the questions are asked at
regular times as long as the answers are prompt, and never before the last answer has come.  A wait
that is followed long enough ends with the first answer that ends it, if that comes before the
bounds, and is given up when the first bound strikes, if that comes before such an answer. -/
theorem wait_on_schedule :
    (∀ polls, ∃ n, (v.wait polls).2.trace = v.origin.trace ++ v.events n ∨
      (v.wait polls).2.trace =
        v.origin.trace ++ v.events n ++ [.sent (v.times.time n) v.question]) ∧
    (∀ n, (∀ k < n, (v.report k).delay < v.policy.interval) →
      v.times.time n = v.origin.clock + n * v.policy.interval) ∧
    (∀ n, v.times.arrival n ≤ v.times.time (n + 1) ∧
      v.times.time n + v.policy.interval ≤ v.times.time (n + 1) + tolerance) ∧
    (∀ n verdict, (∀ k < n, (v.report k).verdict? = none) →
      (v.report n).verdict? = some verdict → (∀ d, v.IsBound d → v.times.arrival n < d.time) →
      ∀ polls > n, (v.wait polls).1 = .returned verdict ∧
        (v.wait polls).2.clock = v.times.arrival n ∧
        (v.wait polls).2.trace = v.origin.trace ++ v.events (n + 1) ∧
        said (v.wait polls).2.trace = said v.origin.trace ++ v.questions (n + 1)) ∧
    ∀ d, v.IsBound d → (∀ d', v.IsBound d' → d' ≠ d → d.time < d'.time) →
      (∀ n, (∀ k < n, (v.report k).verdict? = none) → (v.report n).verdict? ≠ none →
        d.time < v.times.arrival n) →
      (∀ n, v.times.time n ≠ d.time ∧ v.times.arrival n ≠ d.time) →
      ∀ polls > d.time - v.origin.clock, v.GivesUp d (v.wait polls) := by
  refine ⟨fun polls => ?_, fun n hprompt => ?_, fun n => ?_, ?_, ?_⟩
  · rcases v.wait_cases polls with ⟨-, hwait⟩ | ⟨n, -, d, -, -, -, hwait⟩ |
        ⟨n, -, verdict, client, -, -, -, hwait⟩
    · exact ⟨polls, Or.inl (by simp [hwait, trace, clientAt])⟩
    · refine ⟨n, ?_⟩
      rw [hwait]
      split_ifs
      · exact Or.inr (by simp [trace])
      · exact Or.inl (by simp [trace])
    · exact ⟨n + 1, Or.inl (by simp [hwait, trace])⟩
  · exact v.times.time_of_prompt fun k hk => (hprompt k hk).le
  · exact ⟨v.times.arrival_le_time_succ n, v.times.time_add_interval_le n⟩
  · intro n verdict hpending hreport hbounds polls hpolls
    exact v.wait_of_report hpending hreport hbounds hpolls
  · intro d hd hfirst hlater hfree polls hpolls
    exact v.givesUp_wait hd hfirst hlater hfree hpolls

/-- A wait is given up while its third answer, which would end it, is awaited. -/
theorem wait_on_schedule_awaited :
    let report (delay : Nat) (state : JobState) : Answer :=
      ⟨delay, .ok (.status "I" state none)⟩
    let reports := [report 30 .queued, report 80 .running, report 80 .completed]
    let script : Script :=
      ⟨⟨0, .ok (.hello protocolVersion "echo")⟩ :: ⟨0, .ok (.accepted "I")⟩ :: reports, none, true⟩
    let r : Request := ⟨1, NameMap.empty.insert "x" (.real []), .empty, .empty, .empty, none⟩
    let v : PendingWait Script.transport :=
      ⟨initial.after Script.transport [.attach script, .operate (.send r)],
        ⟨⟨reports, none, true⟩, "echo", .sent "I"⟩, "I", ⟨50, some 200⟩, some 500,
        rfl, rfl, rfl, by decide⟩
    v.GivesUp ⟨200, .timeout 200⟩ (v.wait 201) := by
  intro report reports script r v
  obtain ⟨-, -, -, -, hgivesUp⟩ := v.wait_on_schedule
  have htime : ∀ n, 200 < v.times.time (n + 3) := fun n =>
    (show 200 < v.times.time 3 by decide).trans_le (v.times.time_mono (Nat.le_add_left 3 n))
  have hbound : v.IsBound ⟨200, .timeout 200⟩ := IsBound.timeout (v := v) rfl
  apply hgivesUp _ hbound
  · rintro _ (⟨⟨⟩⟩ | ⟨⟨⟩⟩) hne
    · exact absurd rfl hne
    · decide
  · rintro (_ | _ | _ | n) hpending hends
    · exact absurd rfl hends
    · exact absurd rfl hends
    · decide
    · exact absurd (hpending 2 (by omega)) (by decide)
  · rintro (_ | _ | _ | n)
    · decide
    · decide
    · decide
    · have htime := htime n
      have harrival := v.times.time_le_arrival (n + 3)
      exact ⟨Nat.ne_of_gt htime, Nat.ne_of_gt (htime.trans_le harrival)⟩
  · decide

/-- A timeout of more than thirty years strikes after thirty years. -/
theorem clock_of_long_timeout :
    let fallback : Option Answer := some ⟨150000000000, .ok (.status "I" .running none)⟩
    let script : Script :=
      ⟨[⟨0, .ok (.hello protocolVersion "echo")⟩, ⟨0, .ok (.accepted "I")⟩], fallback, true⟩
    let r : Request := ⟨1, NameMap.empty.insert "x" (.real []), .empty, .empty, .empty, none⟩
    let v : PendingWait Script.transport :=
      ⟨initial.after Script.transport [.attach script, .operate (.send r)],
        ⟨⟨[], fallback, true⟩, "echo", .sent "I"⟩, "I", ⟨7, some 1000000000000⟩, none,
        rfl, rfl, rfl, by decide⟩
    (∀ n, (v.report n).verdict? = none) ∧
      (∀ n, v.times.time n ≠ v.origin.clock + 1000000000000 ∧
        v.times.arrival n ≠ v.origin.clock + 1000000000000) ∧
      (v.wait 7).1 = .returned (.error (.timeout 1000000000000)) ∧
      (v.wait 7).2.clock = v.origin.clock + 946080000000 := by
  intro fallback script r v
  have hreport : ∀ n, v.report n =
      ⟨sleepLength 150000000000, .ok (.status "I" .running none)⟩ := fun n =>
    Script.answer_of_fallback _ true v.question n
  have hdelay : ∀ n, v.times.delay n = 150000000000 := by
    intro n
    have hsleep : sleepLength 150000000000 = 150000000000 := sleepLength_eq (by decide)
    rw [delay_times, hreport, hsleep]
  have hclock : v.origin.clock = 0 := rfl
  have htime : ∀ n, v.times.time n = n * 150000000000 := by
    intro n
    have hinterval : v.times.interval ≤ 150000000000 := by decide
    exact (v.times.time_of_slow hinterval hdelay n).trans (Nat.zero_add _)
  have hpending : ∀ n, (v.report n).verdict? = none := by
    intro n
    rw [hreport]
    rfl
  have hdeadline : v.deadline = some ⟨946080000000, .timeout 1000000000000⟩ := by
    have hsleep : sleepLength 1000000000000 = 946080000000 := by decide
    have heq : v.deadline =
        some (v.origin.deadlineIn 1000000000000 (.timeout 1000000000000)) := rfl
    rw [heq, deadlineIn, hclock, hsleep]
  have hcalm : v.IsCalm v.deadline 6 := by
    intro k hk
    refine ⟨hpending k, fun d hd => ?_⟩
    obtain rfl := Option.some.inj (hdeadline.symm.trans hd)
    rw [Timetable.arrival, htime, hdelay]
    dsimp only
    omega
  have hlt : 946080000000 < v.times.arrival 6 := by
    rw [Timetable.arrival, htime, hdelay]
    decide
  refine ⟨hpending, fun n => ?_, ?_⟩
  · rw [Timetable.arrival, htime, hdelay, hclock]
    omega
  · rw [hdeadline] at hcalm
    rw [v.wait_eq, hdeadline, waitFrom_of_deadline hcalm (Nat.zero_le _) hlt 0, hclock]
    exact ⟨rfl, rfl⟩

end PendingWait

end EncryptedInference
