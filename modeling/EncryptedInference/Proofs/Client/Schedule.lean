import EncryptedInference.Client.Script
import EncryptedInference.Proofs.Client.Calls
import Mathlib.Order.Monotone.Basic

/-!
# When a waiting client asks

The delays of the answers fix the times at which a waiting client asks (`Timetable`).  It asks at
regular times as long as every answer comes within an interval (`Timetable.time_of_prompt`), without
a pause if every answer takes longer (`Timetable.time_succ_of_slow`), and never before the last
answer has come (`Timetable.arrival_le_time_succ`).

An answer ends the wait, or says that the request is pending (`Answer.verdict?`).  A turn of a wait
ends with the deadline, with such an answer, or with the next turn.
-/

namespace EncryptedInference

variable {σ : Type}

/-! ## Channels that are asked again and again -/

namespace Transport

variable (t : Transport σ) (channel : σ) (m : ClientMessage)

/-- The channel after it has been given the message so many times. -/
def repeated : Nat → σ
  | 0 => channel
  | n + 1 => (t.call (repeated n) m).2

/-- Answer number `n`, from zero, of a channel that is given the same message again and again. -/
def answer (n : Nat) : Answer := (t.call (t.repeated channel m n) m).1

end Transport

/-- A script that has come to its end gives the same answer again and again. -/
theorem Script.answer_of_fallback (fallback : Answer) (notifies : Bool) (m : ClientMessage)
    (n : Nat) :
    transport.answer ⟨[], some fallback, notifies⟩ m n =
      ⟨sleepLength fallback.delay, fallback.outcome⟩ := by
  have hscript : transport.repeated ⟨[], some fallback, notifies⟩ m n =
      ⟨[], some fallback, notifies⟩ := by
    induction n with
    | zero => rfl
    | succ n ih =>
      rw [Transport.repeated, ih]
      rfl
  rw [Transport.answer, hscript]
  rfl

/-- How the answer to the question for the state of a request ends a wait for it; one that says that
the request is queued or running does not. -/
def Answer.verdict? (a : Answer) : Option (Except ClientError Unit) :=
  match a.outcome with
  | .error e => some (.error (.connection e))
  | .ok (.status _ .queued _) | .ok (.status _ .running _) => none
  | .ok (.status _ .completed _) => some (.ok ())
  | .ok (.status _ .failed reason) => some (.error (.remote (reason.getD "request failed")))
  | .ok (.error message) => some (.error (.remote message))
  | .ok other => some (.error (.unexpectedResponse "status" other.kind))

/-! ## Timetables -/

/-- What the times at which a client asks depend on: the interval between them, the start, and the
delay of every answer. -/
structure Timetable where
  interval : Nat
  start : Nat
  delay : Nat → Nat

namespace Timetable

variable (w : Timetable) {n : Nat}

/-- When question `n` is due, and when the client is free to ask it. -/
def turn : Nat → Nat × Nat
  | 0 => (w.start, w.start)
  | n + 1 =>
    let (due, free) := turn n
    (nextDue w.interval due (max due free), max due free + w.delay n)

def due (n : Nat) : Nat := (w.turn n).1

def free (n : Nat) : Nat := (w.turn n).2

/-- When question `n` is asked. -/
def time (n : Nat) : Nat := max (w.due n) (w.free n)

/-- When the answer to question `n` comes. -/
def arrival (n : Nat) : Nat := w.time n + w.delay n

theorem due_succ (n : Nat) : w.due (n + 1) = nextDue w.interval (w.due n) (w.time n) := rfl

theorem free_succ (n : Nat) : w.free (n + 1) = w.arrival n := rfl

theorem time_le_arrival (n : Nat) : w.time n ≤ w.arrival n := Nat.le_add_right _ _

/-- Nothing is asked before the last answer has come. -/
theorem arrival_le_time_succ (n : Nat) : w.arrival n ≤ w.time (n + 1) := Nat.le_max_right _ _

theorem time_mono : Monotone w.time :=
  monotone_nat_of_le_succ fun n => (w.time_le_arrival n).trans (w.arrival_le_time_succ n)

theorem arrival_mono : Monotone w.arrival :=
  monotone_nat_of_le_succ fun n =>
    (w.arrival_le_time_succ n).trans (w.time_le_arrival (n + 1))

theorem start_add_le_time (n : Nat) : w.start + n * w.interval ≤ w.time n := by
  have hdue : w.start + n * w.interval ≤ w.due n := by
    induction n with
    | zero => simp [due, turn]
    | succ n ih =>
      rw [due_succ, nextDue, Nat.succ_mul]
      have htime : w.due n ≤ w.time n := Nat.le_max_left _ _
      split_ifs <;> omega
  exact hdue.trans (Nat.le_max_left _ _)

/-- Between two questions there is an interval, but for the lateness that is tolerated. -/
theorem time_add_interval_le (n : Nat) : w.time n + w.interval ≤ w.time (n + 1) + tolerance := by
  have hdue : w.due (n + 1) ≤ w.time (n + 1) := Nat.le_max_left _ _
  rw [due_succ, nextDue] at hdue
  split_ifs at hdue <;> omega

/-- When every answer comes within an interval, the questions are asked at regular times. -/
theorem time_of_prompt (h : ∀ k < n, w.delay k ≤ w.interval) :
    w.time n = w.start + n * w.interval := by
  have hturn : w.due n = w.start + n * w.interval ∧ w.free n ≤ w.due n := by
    induction n with
    | zero => simp [due, free, turn]
    | succ n ih =>
      obtain ⟨hdue, hfree⟩ := ih fun k hk => h k (by omega)
      have htime : w.time n = w.due n := Nat.max_eq_left hfree
      have hdelay := h n (by omega)
      have hnext : w.due (n + 1) = w.due n + w.interval := by
        rw [due_succ, nextDue, htime, if_neg (by omega)]
      refine ⟨?_, ?_⟩
      · rw [hnext, hdue, Nat.succ_mul, Nat.add_assoc]
      · rw [free_succ, arrival, htime, hnext]
        omega
  rw [time, Nat.max_eq_left hturn.2, hturn.1]

/-- When every answer takes an interval or longer, the questions are asked one right after the
other. -/
theorem time_succ_of_slow (h : w.interval ≤ w.delay n) : w.time (n + 1) = w.arrival n := by
  have hdue : w.due (n + 1) ≤ w.arrival n := by
    have htime : w.due n ≤ w.time n := Nat.le_max_left _ _
    rw [due_succ, nextDue, arrival]
    split_ifs <;> omega
  exact Nat.max_eq_right hdue

theorem time_of_slow {delay : Nat} (h : w.interval ≤ delay) (hdelay : ∀ k, w.delay k = delay)
    (n : Nat) : w.time n = w.start + n * delay := by
  induction n with
  | zero =>
    rw [Nat.zero_mul]
    exact Nat.max_self w.start
  | succ n ih =>
    rw [w.time_succ_of_slow (h.trans_eq (hdelay n).symm), arrival, ih, hdelay, Nat.succ_mul,
      Nat.add_assoc]

/-- What happens on a channel until answer number `n` is awaited. -/
def events (m : ClientMessage) (answer : Nat → Answer) (n : Nat) : List Event :=
  (List.range n).flatMap fun k =>
    [.sent (w.time k) m, .answered (w.arrival k) (answer k).outcome]

theorem events_succ (m : ClientMessage) (answer : Nat → Answer) (n : Nat) :
    w.events m answer (n + 1) = w.events m answer n ++
      [.sent (w.time n) m, .answered (w.arrival n) (answer n).outcome] := by
  simp [events, List.range_succ]

end Timetable

namespace Deadline

theorem strikesBefore_eq_none_iff {deadline : Option Deadline} {time : Nat} :
    strikesBefore deadline time = none ↔ ∀ d, deadline = some d → time ≤ d.time := by
  simp [strikesBefore, Option.filter_eq_none_iff]

theorem strikesBefore_of_lt {d : Deadline} {time : Nat} (h : d.time < time) :
    strikesBefore (some d) time = some d := by
  simp [strikesBefore, h]

end Deadline

/-! ## One exchange -/

namespace Answer

variable {a : Answer} {p : Phase} {id : String}

/-- An answer that does not end a wait says that the request is pending. -/
theorem pending_of_verdict? (h : a.verdict? = none) :
    ∃ reply, a.outcome = .ok reply ∧
      p.afterStatus id reply = (.ok .pending, .polling id false) := by
  unfold verdict? at h
  cases houtcome : a.outcome with
  | error e =>
    rw [houtcome] at h
    cases h
  | ok reply =>
    rw [houtcome] at h
    refine ⟨reply, rfl, ?_⟩
    cases reply with
    | status other state reason =>
      cases state with
      | queued => rfl
      | running => rfl
      | _ => cases h
    | _ => cases h

/-- What a reply that ends a wait means to the client. -/
theorem afterStatus_of_verdict? {reply : ServerMessage} {v : Except ClientError Unit}
    (hreply : a.outcome = .ok reply) (h : a.verdict? = some v) :
    (p.afterStatus id reply).1 = v.map fun _ => .completed := by
  rw [verdict?, hreply] at h
  cases reply with
  | status other state reason => cases state <;> cases h <;> rfl
  | _ =>
    cases h
    rfl

end Answer

namespace TimedClient

section

variable {α : Type} {t : Transport σ} {s : TimedClient σ} {session : Session σ} {m : ClientMessage}
  {deadline : Option Deadline} {after : ServerMessage → Except ClientError α × Phase}

theorem exchange_of_strikes {d : Deadline}
    (h : Deadline.strikesBefore deadline (s.clock + (t.call session.channel m).1.delay) = some d) :
    exchange t deadline s session m after =
      (.error d.reason, ⟨.idle, max s.clock d.time, .sent s.clock m :: s.log⟩) := by
  simp only [exchange, record, h]
  rfl

theorem exchange_of_error {e : ConnectionError}
    (h : Deadline.strikesBefore deadline (s.clock + (t.call session.channel m).1.delay) = none)
    (houtcome : (t.call session.channel m).1.outcome = .error e) :
    exchange t deadline s session m after =
      (.error (.connection e), ⟨.idle, s.clock + (t.call session.channel m).1.delay,
        .answered (s.clock + (t.call session.channel m).1.delay) (.error e) ::
          .sent s.clock m :: s.log⟩) := by
  simp only [exchange, record, h, houtcome]
  rfl

theorem exchange_of_ok {reply : ServerMessage}
    (h : Deadline.strikesBefore deadline (s.clock + (t.call session.channel m).1.delay) = none)
    (houtcome : (t.call session.channel m).1.outcome = .ok reply) :
    exchange t deadline s session m after =
      ((after reply).1,
        ⟨.live ⟨(t.call session.channel m).2, session.backend, (after reply).2⟩,
          s.clock + (t.call session.channel m).1.delay,
          .answered (s.clock + (t.call session.channel m).1.delay) (.ok reply) ::
            .sent s.clock m :: s.log⟩) := by
  simp only [exchange, record, pass, h, houtcome]

end

/-! ## One turn of a wait -/

section

variable {t : Transport σ} {s s' : TimedClient σ} {interval polls due : Nat}
  {deadline : Option Deadline}

theorem waitFrom_of_strikes {d : Deadline}
    (h : Deadline.strikesBefore deadline (max due s.clock) = some d) :
    waitFrom t interval deadline (polls + 1) due s =
      (.returned (.error d.reason), ⟨.idle, max s.clock d.time, s.log⟩) := by
  unfold waitFrom
  simp only [h]
  rfl

theorem waitFrom_of_pending
    (h : Deadline.strikesBefore deadline (max due s.clock) = none)
    (hpoll : pollBefore t deadline ⟨s.client, max due s.clock, s.log⟩ = (.ok .pending, s')) :
    waitFrom t interval deadline (polls + 1) due s =
      waitFrom t interval deadline polls (nextDue interval due (max due s.clock)) s' := by
  conv_lhs => unfold waitFrom
  simp only [h, hpoll]

theorem waitFrom_of_verdict {verdict : Except ClientError Unit}
    (h : Deadline.strikesBefore deadline (max due s.clock) = none)
    (hpoll : pollBefore t deadline ⟨s.client, max due s.clock, s.log⟩ =
      (verdict.map fun _ => .completed, s')) :
    waitFrom t interval deadline (polls + 1) due s = (.returned verdict, s') := by
  unfold waitFrom
  cases verdict <;> simp only [h, hpoll] <;> rfl

theorem waitFrom_of_error {e : ClientError}
    (h : Deadline.strikesBefore deadline (max due s.clock) = none)
    (hpoll : pollBefore t deadline ⟨s.client, max due s.clock, s.log⟩ = (.error e, s')) :
    waitFrom t interval deadline (polls + 1) due s = (.returned (.error e), s') := by
  unfold waitFrom
  simp only [h, hpoll]

end

end TimedClient

end EncryptedInference
