import EncryptedInference.Client.Wait
import Mathlib.Tactic.SplitIfs

/-!
# What operations come to

An exchange ends in one of three ways (`TimedClient.exchange_cases`), and the operations of a client
are exchanges of three kinds: `send_cases`, `pollBefore_cases`, `getResults_cases`.  Waiting is
polling again and again (`wait_cases`), so it keeps whatever a poll keeps (`waitFrom_induct`).  A
run submits, waits and fetches (`run_cases`).
-/

namespace EncryptedInference

/-- What a client can be asked to do with its session. -/
inductive Operation
  | send (r : Request)
  | poll
  | getResults
  | wait (polls : Nat) (policy : PollPolicy) (cancel : Option Nat)
  | run (polls : Nat) (policy : PollPolicy) (r : Request)
  | close

/-- The error of an outcome. -/
def failure? {α : Type} : Except ClientError α → Option ClientError
  | .ok _ => none
  | .error e => some e

theorem failure?_eq_some {α : Type} {outcome : Except ClientError α} {e : ClientError}
    (h : failure? outcome = some e) : outcome = .error e := by
  cases outcome with
  | ok _ => cases h
  | error e' =>
    cases h
    rfl

theorem failure?_map {α β : Type} (f : α → β) (outcome : Except ClientError α) :
    failure? (outcome.map f) = failure? outcome := by
  cases outcome <;> rfl

namespace Progress

/-- The error with which an operation has returned. -/
def failure? {α : Type} : Progress α → Option ClientError
  | returned result => EncryptedInference.failure? result
  | panicked | ongoing => none

/-- The same with another value, if it has returned one. -/
def map {α β : Type} (f : α → β) : Progress α → Progress β
  | returned result => returned (result.map f)
  | panicked => panicked
  | ongoing => ongoing

theorem failure?_map {α β : Type} (f : α → β) (progress : Progress α) :
    (progress.map f).failure? = progress.failure? := by
  cases progress with
  | returned result => exact EncryptedInference.failure?_map f result
  | _ => rfl

end Progress

/-- The earlier of two deadlines is one of them. -/
theorem Deadline.earlier_cases {a b : Option Deadline} {d : Deadline} (h : earlier a b = some d) :
    a = some d ∨ b = some d := by
  cases a with
  | none => exact Or.inr h
  | some d₁ =>
    cases b with
    | none => exact Or.inl h
    | some d₂ =>
      simp only [earlier] at h
      split_ifs at h
      · exact Or.inr h
      · exact Or.inl h

/-- The error is what a reply says, or that it says something else. -/
def ClientError.IsOfReply : ClientError → Prop
  | remote _ | unexpectedResponse _ _ => True
  | _ => False

/-! ## What a reply means -/

namespace Phase

variable {p : Phase} {reply : ServerMessage} {id other : String} {e : ClientError}

theorem isOfReply_afterExecute (h : (p.afterExecute reply).1 = .error e) : e.IsOfReply := by
  cases reply with
  | accepted name => cases h
  | _ =>
    cases h
    trivial

theorem isOfReply_afterStatus (h : (p.afterStatus id reply).1 = .error e) : e.IsOfReply := by
  cases reply with
  | status other state reason =>
    cases state with
    | failed =>
      cases h
      trivial
    | _ => cases h
  | _ =>
    cases h
    trivial

theorem isOfReply_afterFetch (h : (p.afterFetch reply).1 = .error e) : e.IsOfReply := by
  cases reply with
  | result r => cases h
  | _ =>
    cases h
    trivial

theorem requestId?_afterExecute (hp : p.requestId? = none)
    (h : (p.afterExecute reply).2.requestId? = some id) : reply = .accepted id := by
  cases reply with
  | accepted id' =>
    cases h
    rfl
  | _ =>
    rw [show p.requestId? = some id from h] at hp
    cases hp

theorem requestId?_afterStatus (hp : p.requestId? = some id)
    (h : (p.afterStatus id reply).2.requestId? = some other) : other = id := by
  cases reply with
  | status id' state reason =>
    cases state with
    | failed => cases h
    | _ => exact (Option.some.inj h).symm
  | error message => cases h
  | _ => exact Option.some.inj ((show p.requestId? = some other from h).symm.trans hp)

theorem requestId?_afterFetch (h : (p.afterFetch reply).2.requestId? = some other) :
    p.requestId? = some other := by
  cases reply with
  | result r => cases h
  | error message => cases h
  | _ => exact h

end Phase

namespace TimedClient

variable {σ α : Type} {t : Transport σ} {s : TimedClient σ}

/-- An operation takes place: its error, if it fails, and the client after it. -/
def perform (t : Transport σ) (s : TimedClient σ) : Operation → Option ClientError × TimedClient σ
  | .send r => (failure? (s.send t r).1, (s.send t r).2)
  | .poll => (failure? (s.poll t).1, (s.poll t).2)
  | .getResults => (failure? (s.getResults t).1, (s.getResults t).2)
  | .wait polls policy cancel =>
    ((s.wait t polls policy cancel).1.failure?, (s.wait t polls policy cancel).2)
  | .run polls policy r => ((s.run t polls policy r).1.failure?, (s.run t polls policy r).2)
  | .close => (failure? (s.close t).1, (s.close t).2)

/-! ## Exchanges -/

/-- An exchange is cut short by its deadline, fails with the channel, or brings a reply; only then
is there a session afterwards. The log shows what came of the message. -/
theorem exchange_cases (t : Transport σ) (deadline : Option Deadline) (s : TimedClient σ)
    (session : Session σ) (m : ClientMessage)
    (after : ServerMessage → Except ClientError α × Phase) :
    (∃ d s', deadline = some d ∧ s'.client = .idle ∧ s'.log = .sent s.clock m :: s.log ∧
      exchange t deadline s session m after = (.error d.reason, s')) ∨
    (∃ e s', s'.client = .idle ∧
      (∃ time, s'.log = .answered time (.error e) :: .sent s.clock m :: s.log) ∧
      exchange t deadline s session m after = (.error (.connection e), s')) ∨
    ∃ reply s', (t.call session.channel m).1.outcome = .ok reply ∧
      s'.client = .live ⟨(t.call session.channel m).2, session.backend, (after reply).2⟩ ∧
      (∃ time, s'.log = .answered time (.ok reply) :: .sent s.clock m :: s.log) ∧
      exchange t deadline s session m after = ((after reply).1, s') := by
  unfold exchange
  obtain ⟨⟨delay, outcome⟩, channel⟩ := t.call session.channel m
  dsimp only
  cases hstrikes : Deadline.strikesBefore deadline
      ((s.record (.sent s.clock m)).clock + delay) with
  | some d =>
    left
    obtain ⟨hdeadline, -⟩ := Option.filter_eq_some_iff.1 hstrikes
    exact ⟨d, _, hdeadline, rfl, rfl, rfl⟩
  | none =>
    right
    cases outcome with
    | error e => exact Or.inl ⟨e, _, rfl, ⟨_, rfl⟩, rfl⟩
    | ok reply => exact Or.inr ⟨reply, _, rfl, rfl, ⟨_, rfl⟩, rfl⟩

/-- A session is in the way of a channel; otherwise the channel is greeted, and there is a session
afterwards only if it greets back. -/
theorem attach_cases (t : Transport σ) (channel : σ) (s : TimedClient σ) :
    (∃ session, s.client = .live session ∧
      s.attach t channel = (.error (.invalidState "attach" session.phase.state), s)) ∨
    (∃ e s' outcome, s.client = .idle ∧ s'.client = .idle ∧
      (∃ time, s'.log =
        .answered time outcome :: .sent s.clock greeting :: .opened :: s.log) ∧
      s.attach t channel = (.error (.connection e), s')) ∨
    ∃ reply backend s', (t.call channel greeting).1.outcome = .ok reply ∧
      backendOfGreeting reply = .ok backend ∧ s.client = .idle ∧
      s'.client = .live ⟨(t.call channel greeting).2, backend, .connected⟩ ∧
      (∃ time, s'.log =
        .answered time (.ok reply) :: .sent s.clock greeting :: .opened :: s.log) ∧
      s.attach t channel = (.ok (), s') := by
  unfold attach
  cases hclient : s.client with
  | live session => exact Or.inl ⟨session, rfl, rfl⟩
  | idle =>
    right
    obtain ⟨⟨delay, outcome⟩, channel⟩ := t.call channel greeting
    cases outcome with
    | error e =>
      refine Or.inl ⟨e, _, .error e, rfl, ?_, ?_, rfl⟩
      · exact hclient
      · exact ⟨_, rfl⟩
    | ok reply =>
      dsimp only
      cases hgreeting : backendOfGreeting reply with
      | error fault =>
        refine Or.inl ⟨.handshake fault, _, .ok reply, rfl, ?_, ?_, rfl⟩
        · exact hclient
        · exact ⟨_, rfl⟩
      | ok backend => exact Or.inr ⟨reply, backend, _, rfl, hgreeting, rfl, rfl, ⟨_, rfl⟩, rfl⟩

/-- A session is in the way of a connection; otherwise it fails before there is a channel, or the
channel it leads to is attached. -/
theorem connect_cases (t : Transport σ) (policy : RetryPolicy) (address : String)
    (dial : Nat → Except String σ) (s : TimedClient σ) :
    (∃ session, s.client = .live session ∧ s.connect t policy address dial =
      (.error (.invalidState "connect" session.phase.state), s)) ∨
    (∃ e slept, s.client = .idle ∧
      s.connect t policy address dial = (.error (.connection e), s.pass slept)) ∨
    ∃ channel slept, s.client = .idle ∧
      s.connect t policy address dial = attach t channel (s.pass slept) := by
  unfold connect
  cases s.client with
  | live session => exact Or.inl ⟨session, rfl, rfl⟩
  | idle =>
    right
    dsimp only
    cases (policy.run address dial).result with
    | error e => exact Or.inl ⟨e, _, rfl, rfl⟩
    | ok channel => exact Or.inr ⟨channel, _, rfl, rfl⟩

theorem attach_eq {channel channel' : σ} {delay : Nat} {backend : String}
    (hidle : s.client = .idle) (hcall : t.call channel greeting =
      (⟨delay, .ok (.hello protocolVersion backend)⟩, channel')) :
    s.attach t channel = (.ok (), ⟨.live ⟨channel', backend, .connected⟩, s.clock + delay,
      .answered (s.clock + delay) (.ok (.hello protocolVersion backend)) ::
        .sent s.clock greeting :: .opened :: s.log⟩) := by
  simp only [attach, hidle, hcall]
  rfl

/-- A request is refused, or it is fit and given to the channel of a session without a request in
flight. -/
theorem send_cases (t : Transport σ) (s : TimedClient σ) (r : Request) :
    (∃ e, s.send t r = (.error e, s) ∧
      (e = .notConnected ∨ e = .requestInFlight ∨ ∃ error, e = .request error)) ∨
    ∃ session, s.client = .live session ∧ session.phase.requestId? = none ∧
      r.validate = .ok () ∧
      s.send t r = exchange t none s session (.execute r) session.phase.afterExecute := by
  unfold send
  cases hclient : s.client with
  | idle => exact Or.inl ⟨_, rfl, Or.inl rfl⟩
  | live session =>
    dsimp only
    split_ifs with hflight
    · exact Or.inl ⟨_, rfl, Or.inr (Or.inl rfl)⟩
    · cases r.validate with
      | error e => exact Or.inl ⟨_, rfl, Or.inr (Or.inr ⟨e, rfl⟩)⟩
      | ok _ => exact Or.inr ⟨session, rfl, by simpa using hflight, rfl, rfl⟩

theorem send_eq {session : Session σ} {r : Request} {delay : Nat} {id : String} {channel : σ}
    (hlive : s.client = .live session) (hphase : session.phase.requestId? = none)
    (hvalid : r.validate = .ok ())
    (hcall : t.call session.channel (.execute r) = (⟨delay, .ok (.accepted id)⟩, channel)) :
    s.send t r = (.ok id, ⟨.live ⟨channel, session.backend, .sent id⟩, s.clock + delay,
      .answered (s.clock + delay) (.ok (.accepted id)) ::
        .sent s.clock (.execute r) :: s.log⟩) := by
  simp only [send, hlive, hphase, Option.isSome_none, Bool.false_eq_true, if_false, hvalid,
    exchange, hcall]
  rfl

/-- A request that has been accepted is in flight, and nothing more is known of it. -/
theorem live_of_send {r : Request} {id : String} (h : (s.send t r).1 = .ok id) :
    ∃ channel backend, (s.send t r).2.client = .live ⟨channel, backend, .sent id⟩ := by
  rcases send_cases t s r with ⟨e, heq, -⟩ | ⟨session, -, -, -, heq⟩
  · rw [heq] at h
    cases h
  · rw [heq] at h ⊢
    rcases exchange_cases t none s session (.execute r) session.phase.afterExecute with
      ⟨d, s', -, -, -, heq⟩ | ⟨e, s', -, -, heq⟩ | ⟨reply, s', -, hclient, -, heq⟩
    · rw [heq] at h
      cases h
    · rw [heq] at h
      cases h
    · rw [heq] at h ⊢
      cases reply with
      | accepted name =>
        obtain rfl := Except.ok.inj h
        exact ⟨_, _, hclient⟩
      | _ => cases h

theorem inFlight_eq_ok {operation : String} {session : Session σ} {id : String}
    (h : s.inFlight operation = .ok (session, id)) :
    s.client = .live session ∧ session.phase.requestId? = some id := by
  unfold inFlight at h
  cases hclient : s.client with
  | idle =>
    rw [hclient] at h
    cases h
  | live session' =>
    rw [hclient] at h
    dsimp only at h
    cases hid : session'.phase.requestId? with
    | none =>
      rw [hid] at h
      cases h
    | some id' =>
      rw [hid] at h
      cases h
      exact ⟨rfl, hid⟩

theorem inFlight_eq_error {operation : String} {e : ClientError}
    (h : s.inFlight operation = .error e) :
    e = .notConnected ∨ ∃ state, e = .invalidState operation state := by
  unfold inFlight at h
  cases hclient : s.client with
  | idle =>
    rw [hclient] at h
    cases h
    exact Or.inl rfl
  | live session =>
    rw [hclient] at h
    dsimp only at h
    cases hid : session.phase.requestId? with
    | none =>
      rw [hid] at h
      cases h
      exact Or.inr ⟨_, rfl⟩
    | some id =>
      rw [hid] at h
      cases h

theorem inFlight_eq {session : Session σ} {id : String} (hlive : s.client = .live session)
    (hid : session.phase.requestId? = some id) (operation : String) :
    s.inFlight operation = .ok (session, id) := by
  simp only [inFlight, hlive, hid]

/-- A poll asks for the state of the request in flight, unless there is nothing to ask. -/
theorem pollBefore_cases (t : Transport σ) (deadline : Option Deadline) (s : TimedClient σ) :
    (∃ result, s.pollBefore t deadline = (result, s) ∧ ∀ e, result = .error e →
      e = .notConnected ∨ ∃ state, e = .invalidState "poll" state) ∨
    ∃ session id, s.client = .live session ∧ session.phase.requestId? = some id ∧
      session.phase.isCompleted = false ∧
      s.pollBefore t deadline =
        exchange t deadline s session (.status id) (session.phase.afterStatus id) := by
  unfold pollBefore
  cases hflight : s.inFlight "poll" with
  | error e =>
    refine Or.inl ⟨_, rfl, ?_⟩
    rintro _ ⟨⟩
    exact inFlight_eq_error hflight
  | ok found =>
    obtain ⟨session, id⟩ := found
    obtain ⟨hclient, hid⟩ := inFlight_eq_ok hflight
    dsimp only
    split_ifs with hcompleted
    · exact Or.inl ⟨_, rfl, fun _ => nofun⟩
    · exact Or.inr ⟨session, id, hclient, hid, by simpa using hcompleted, rfl⟩

theorem pollBefore_eq {session : Session σ} {id : String} (hlive : s.client = .live session)
    (hid : session.phase.requestId? = some id) (hpending : session.phase.isCompleted = false)
    (t : Transport σ) (deadline : Option Deadline) :
    s.pollBefore t deadline =
      exchange t deadline s session (.status id) (session.phase.afterStatus id) := by
  simp only [pollBefore, inFlight_eq hlive hid, hpending, Bool.false_eq_true, if_false]

/-- The result is asked for when the request in flight is known to be completed. -/
theorem getResults_cases (t : Transport σ) (s : TimedClient σ) :
    (∃ e, s.getResults t = (.error e, s) ∧
      (e = .notConnected ∨ ∃ state, e = .invalidState "get_results" state)) ∨
    ∃ session id, s.client = .live session ∧ session.phase.requestId? = some id ∧
      session.phase.isCompleted = true ∧
      s.getResults t = exchange t none s session (.fetchResult id) session.phase.afterFetch := by
  unfold getResults
  cases hflight : s.inFlight "get_results" with
  | error e => exact Or.inl ⟨e, rfl, inFlight_eq_error hflight⟩
  | ok found =>
    obtain ⟨session, id⟩ := found
    obtain ⟨hclient, hid⟩ := inFlight_eq_ok hflight
    dsimp only
    split_ifs with hcompleted
    · exact Or.inr ⟨session, id, hclient, hid, hcompleted, rfl⟩
    · exact Or.inl ⟨_, rfl, Or.inr ⟨_, rfl⟩⟩

theorem getResults_eq {session : Session σ} {id : String} (hlive : s.client = .live session)
    (hid : session.phase.requestId? = some id) (hcompleted : session.phase.isCompleted = true)
    (t : Transport σ) :
    s.getResults t =
      exchange t none s session (.fetchResult id) session.phase.afterFetch := by
  simp only [getResults, inFlight_eq hlive hid, hcompleted, if_true]

/-- The end of a session fails only with its channel. -/
theorem close_eq_error {e : ClientError} (h : (s.close t).1 = .error e) :
    ∃ error, e = .connection error := by
  unfold close at h
  cases hclient : s.client with
  | idle =>
    rw [hclient] at h
    cases h
  | live session =>
    rw [hclient] at h
    dsimp only at h
    cases hsent : (t.notify session.channel .goodbye).1 with
    | ok _ =>
      rw [hsent] at h
      cases h
    | error error =>
      rw [hsent] at h
      cases h
      exact ⟨error, rfl⟩

/-! ## Waiting -/

/-- A wait is refused, or the timer panics, or it is polling under a deadline that ends it with a
timeout or a cancellation. -/
theorem wait_cases (t : Transport σ) (s : TimedClient σ) (polls : Nat) (policy : PollPolicy)
    (cancel : Option Nat) :
    (∃ e, s.wait t polls policy cancel = (.returned (.error e), s) ∧
      (e = .notConnected ∨ ∃ state, e = .invalidState "wait_for_completion" state)) ∨
    (policy.interval = 0 ∧ s.wait t polls policy cancel = (.panicked, s)) ∨
    ∃ deadline, (∀ d, deadline = some d → (∃ ms, d.reason = .timeout ms) ∨ d.reason = .cancelled) ∧
      s.wait t polls policy cancel = waitFrom t policy.interval deadline polls s.clock s := by
  unfold wait
  cases hflight : s.inFlight "wait_for_completion" with
  | error e => exact Or.inl ⟨e, rfl, inFlight_eq_error hflight⟩
  | ok found =>
    right
    dsimp only
    split_ifs with hinterval
    · exact Or.inl ⟨hinterval, rfl⟩
    · refine Or.inr ⟨_, ?_, rfl⟩
      intro d hd
      rcases Deadline.earlier_cases hd with htimeout | hcancel
      · obtain ⟨ms, -, rfl⟩ := Option.map_eq_some_iff.1 htimeout
        exact Or.inl ⟨ms, rfl⟩
      · obtain ⟨ms, -, rfl⟩ := Option.map_eq_some_iff.1 hcancel
        exact Or.inr rfl

/-- A run fails to submit its request, or it fetches the result when its wait has returned, or it
comes to what its wait comes to. -/
theorem run_cases (t : Transport σ) (s : TimedClient σ) (polls : Nat) (policy : PollPolicy)
    (r : Request) :
    (∃ e s₁, s.send t r = (.error e, s₁) ∧
      s.run t polls policy r = (.returned (.error e), s₁)) ∨
    ∃ name s₁ waited s₂, s.send t r = (.ok name, s₁) ∧
      s₁.wait t polls policy none = (waited, s₂) ∧
      ((waited = .returned (.ok ()) ∧
          s.run t polls policy r = Prod.map .returned id (s₂.getResults t)) ∨
        ∃ ran : Progress InferenceResult, ran.failure? = waited.failure? ∧
          (∀ result, ran ≠ .returned (.ok result)) ∧ s.run t polls policy r = (ran, s₂)) := by
  unfold run
  generalize s.send t r = sent
  obtain ⟨e | name, s₁⟩ := sent
  · exact Or.inl ⟨e, s₁, rfl, rfl⟩
  · cases hwait : s₁.wait t polls policy none with
    | mk waited s₂ =>
      refine Or.inr ⟨name, s₁, waited, s₂, rfl, hwait, ?_⟩
      dsimp only
      rw [hwait]
      obtain (e | _) | _ | _ := waited
      · exact Or.inr ⟨.returned (.error e), rfl, nofun, rfl⟩
      · exact Or.inl ⟨rfl, rfl⟩
      · exact Or.inr ⟨.panicked, rfl, nofun, rfl⟩
      · exact Or.inr ⟨.ongoing, rfl, nofun, rfl⟩

/-- What holds of a wait: it ends with a poll that ends it or with its deadline, or goes on after
its last poll, and until then every poll, and the time that passes, keeps what held at its
beginning. -/
theorem waitFrom_elim {deadline : Option Deadline} {I : TimedClient σ → Prop}
    {P : Progress Unit × TimedClient σ → Prop}
    (hpoll : ∀ s s' result, I s → s.pollBefore t deadline = (result, s') →
      match result with
      | .error e => P (.returned (.error e), s')
      | .ok .completed => P (.returned (.ok ()), s')
      | .ok .pending => I s')
    (hclock : ∀ s clock, I s → I { s with clock })
    (hdeadline : ∀ s d clock, deadline = some d → I s →
      P (.returned (.error d.reason), { s.abandon with clock }))
    (hongoing : ∀ s, I s → P (.ongoing, s))
    (interval polls due : Nat) (hs : I s) : P (waitFrom t interval deadline polls due s) := by
  induction polls generalizing due s with
  | zero => exact hongoing s hs
  | succ polls ih =>
    unfold waitFrom
    dsimp only
    cases hstrikes : Deadline.strikesBefore deadline (max due s.clock) with
    | some d =>
      obtain ⟨hd, -⟩ := Option.filter_eq_some_iff.1 hstrikes
      exact hdeadline s d _ hd hs
    | none =>
      have hkeep := hpoll _ (pollBefore t deadline { s with clock := max due s.clock }).2
        (pollBefore t deadline { s with clock := max due s.clock }).1
        (hclock s (max due s.clock) hs) rfl
      generalize pollBefore t deadline { s with clock := max due s.clock } = polled at hkeep ⊢
      obtain ⟨result, s'⟩ := polled
      cases result with
      | error e => exact hkeep
      | ok status =>
        cases status with
        | pending => exact ih _ hkeep
        | completed => exact hkeep

/-- What a poll, the passing of time and the end of a session keep, a wait keeps; and what holds of
the errors of a poll holds of those of a wait. -/
theorem waitFrom_induct {deadline : Option Deadline} {I : TimedClient σ → Prop}
    {E : ClientError → Prop}
    (hpoll : ∀ s, I s → I (s.pollBefore t deadline).2 ∧
      ∀ e, failure? (s.pollBefore t deadline).1 = some e → E e)
    (hclock : ∀ s clock, I s → I { s with clock })
    (hidle : ∀ s, s.client = .idle → I s)
    (hdeadline : ∀ d, deadline = some d → E d.reason) (interval polls due : Nat) (hs : I s) :
    I (waitFrom t interval deadline polls due s).2 ∧
      ∀ e, (waitFrom t interval deadline polls due s).1.failure? = some e → E e := by
  refine waitFrom_elim (I := I) (P := fun o => I o.2 ∧ ∀ e, o.1.failure? = some e → E e) ?_ hclock
    ?_ ?_ interval polls due hs
  · intro s s' result hs heq
    have hkeep := hpoll s hs
    rw [heq] at hkeep
    obtain ⟨hkeep, herror⟩ := hkeep
    cases result with
    | error e =>
      refine ⟨hkeep, ?_⟩
      rintro _ ⟨⟩
      exact herror e rfl
    | ok status =>
      cases status with
      | pending => exact hkeep
      | completed => exact ⟨hkeep, fun _ => nofun⟩
  · intro s d clock hd _
    refine ⟨hidle _ rfl, ?_⟩
    rintro _ ⟨⟩
    exact hdeadline d hd
  · intro s hs
    exact ⟨hs, fun _ => nofun⟩

end TimedClient

end EncryptedInference
