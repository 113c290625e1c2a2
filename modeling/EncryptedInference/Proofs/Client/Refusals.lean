import EncryptedInference.Proofs.Client.Fields

/-!
# Refusals and replies that do not fit

A client refuses an operation before it says anything: then nothing has happened
(`TimedClient.eq_of_refused`).  That is so of a run as well, for what it accepts to submit it does
not refuse to wait for, nor to fetch (`TimedClient.isTaken_wait`, `TimedClient.isTaken_getResults`).
A reply of another kind than the one expected leaves the client as it was, but that its channel is a
step further (`TimedFields.Keeps`), and a greeting that is not returned leaves it idle.
-/

namespace EncryptedInference

variable {σ α : Type}

namespace ClientError

/-- The client refuses the operation by itself. -/
def IsRefusal : ClientError → Prop
  | notConnected | requestInFlight | invalidState _ _ | request _ => True
  | _ => False

theorem IsOfReply.not_isRefusal {e : ClientError} (h : e.IsOfReply) : ¬ e.IsRefusal := by
  cases e with
  | remote message => exact fun h => h
  | unexpectedResponse expected got => exact fun h => h
  | _ => cases h

end ClientError

/-! ## Replies of another kind -/

namespace Phase

variable {p : Phase} {id : String} {reply : ServerMessage}

theorem afterExecute_of_kind (h : reply.kind ≠ "accepted") : (p.afterExecute reply).2 = p := by
  cases reply with
  | accepted name => exact absurd rfl h
  | _ => rfl

theorem afterStatus_of_kind (h : reply.kind ≠ "status") (herror : reply.kind ≠ "error") :
    (p.afterStatus id reply).2 = p := by
  cases reply with
  | status other state reason => exact absurd rfl h
  | error message => exact absurd rfl herror
  | _ => rfl

theorem afterFetch_of_kind (h : reply.kind ≠ "result") (herror : reply.kind ≠ "error") :
    (p.afterFetch reply).2 = p := by
  cases reply with
  | result r => exact absurd rfl h
  | error message => exact absurd rfl herror
  | _ => rfl

end Phase

namespace Event

/-- All that has happened from one log to the next is that the message was answered by the reply. -/
def Answers (log log' : List Event) (m : ClientMessage) (reply : ServerMessage) : Prop :=
  ∃ time time', log' = .answered time' (.ok reply) :: .sent time m :: log

/-- The next thing that happens is that the message is given to the channel. -/
def Says (log log' : List Event) (m : ClientMessage) : Prop :=
  ∃ new time, log' = new ++ .sent time m :: log

/-- Nothing is answered when nothing happens. -/
theorem not_answers_self (log : List Event) (m : ClientMessage) (reply : ServerMessage) :
    ¬ Answers log log m reply := by
  rintro ⟨time, time', hlog⟩
  have hlength := congrArg List.length hlog
  simp only [List.length_cons] at hlength
  omega

end Event

namespace TimedClient

open Event

variable {t : Transport σ} {s : TimedClient σ}

/-! ## Refusals -/

/-- If there is an error and it is a refusal, nothing has happened. -/
def IsQuiet (s : TimedClient σ) (error? : Option ClientError) (s' : TimedClient σ) : Prop :=
  ∀ e, error? = some e → e.IsRefusal → s' = s

/-- If there is an error, it is no refusal. -/
def IsTaken (error? : Option ClientError) : Prop := ∀ e, error? = some e → ¬ e.IsRefusal

theorem IsTaken.isQuiet {error? : Option ClientError} {s' : TimedClient σ} (h : IsTaken error?) :
    s.IsQuiet error? s' := by
  intro e he hrefusal
  exact absurd hrefusal (h e he)

theorem isTaken_exchange {deadline : Option Deadline} {session : Session σ} {m : ClientMessage}
    {after : ServerMessage → Except ClientError α × Phase}
    (hdeadline : ∀ d, deadline = some d → ¬ d.reason.IsRefusal)
    (hafter : ∀ reply e, (after reply).1 = .error e → e.IsOfReply) :
    IsTaken (failure? (exchange t deadline s session m after).1) := by
  rcases exchange_cases t deadline s session m after with
    ⟨d, s', hd, -, -, heq⟩ | ⟨e, s', -, -, heq⟩ | ⟨reply, s', -, -, -, heq⟩
  · rw [heq]
    rintro _ ⟨⟩
    exact hdeadline d hd
  · rw [heq]
    rintro _ ⟨⟩
    exact id
  · rw [heq]
    intro e he
    exact (hafter reply e (failure?_eq_some he)).not_isRefusal

theorem isQuiet_attach (t : Transport σ) (channel : σ) (s : TimedClient σ) :
    s.IsQuiet (failure? (s.attach t channel).1) (s.attach t channel).2 := by
  rcases attach_cases t channel s with
    ⟨session, -, heq⟩ | ⟨e, s', outcome, -, -, -, heq⟩ | ⟨reply, backend, s', -, -, -, -, -, heq⟩
  · rw [heq]
    exact fun _ _ _ => rfl
  · rw [heq]
    rintro _ ⟨⟩ ⟨⟩
  · rw [heq]
    rintro _ ⟨⟩

/-- A client that is idle takes over a channel. -/
theorem isTaken_attach (t : Transport σ) (channel : σ) (hidle : s.client = .idle) :
    IsTaken (failure? (s.attach t channel).1) := by
  rcases attach_cases t channel s with
    ⟨session, hlive, -⟩ | ⟨e, s', outcome, -, -, -, heq⟩ | ⟨reply, backend, s', -, -, -, -, -, heq⟩
  · rw [hidle] at hlive
    cases hlive
  · rw [heq]
    rintro _ ⟨⟩
    exact id
  · rw [heq]
    exact fun _ => nofun

theorem isQuiet_connect (t : Transport σ) (policy : RetryPolicy) (address : String)
    (dial : Nat → Except String σ) (s : TimedClient σ) :
    s.IsQuiet (failure? (s.connect t policy address dial).1)
      (s.connect t policy address dial).2 := by
  rcases connect_cases t policy address dial s with
    ⟨session, -, heq⟩ | ⟨e, slept, -, heq⟩ | ⟨channel, slept, hidle, heq⟩
  · rw [heq]
    exact fun _ _ _ => rfl
  · rw [heq]
    rintro _ ⟨⟩ ⟨⟩
  · rw [heq]
    exact (isTaken_attach t channel (s := s.pass slept) hidle).isQuiet

theorem isQuiet_send (t : Transport σ) (s : TimedClient σ) (r : Request) :
    s.IsQuiet (failure? (s.send t r).1) (s.send t r).2 := by
  rcases send_cases t s r with ⟨e, heq, -⟩ | ⟨session, -, -, -, heq⟩
  · rw [heq]
    exact fun _ _ _ => rfl
  · rw [heq]
    exact (isTaken_exchange (by simp) fun _ _ => Phase.isOfReply_afterExecute).isQuiet

theorem isQuiet_poll (t : Transport σ) (s : TimedClient σ) :
    s.IsQuiet (failure? (s.poll t).1) (s.poll t).2 := by
  rw [poll]
  rcases pollBefore_cases t none s with ⟨result, heq, -⟩ | ⟨session, id, -, -, -, heq⟩
  · rw [heq]
    exact fun _ _ _ => rfl
  · rw [heq]
    exact (isTaken_exchange (by simp) fun _ _ => Phase.isOfReply_afterStatus).isQuiet

theorem isQuiet_getResults (t : Transport σ) (s : TimedClient σ) :
    s.IsQuiet (failure? (s.getResults t).1) (s.getResults t).2 := by
  rcases getResults_cases t s with ⟨e, heq, -⟩ | ⟨session, id, -, -, -, heq⟩
  · rw [heq]
    exact fun _ _ _ => rfl
  · rw [heq]
    exact (isTaken_exchange (by simp) fun _ _ => Phase.isOfReply_afterFetch).isQuiet

/-! ## Requests in flight -/

/-- There is a request in flight. -/
def IsBusy (s : TimedClient σ) : Prop :=
  ∃ session id, s.client = .live session ∧ session.phase.requestId? = some id

/-- There is a request in flight, and it is known to be completed. -/
def IsReady (s : TimedClient σ) : Prop :=
  ∃ session id, s.client = .live session ∧ session.phase.requestId? = some id ∧
    session.phase.isCompleted = true

theorem isBusy_send {r : Request} {id : String} (h : (s.send t r).1 = .ok id) :
    (s.send t r).2.IsBusy := by
  obtain ⟨channel, backend, hlive⟩ := live_of_send h
  exact ⟨_, id, hlive, rfl⟩

/-- A poll of a request in flight is taken; if the request is pending it stays in flight, and if it
is completed that is known from then on. -/
theorem pollBefore_of_isBusy {deadline : Option Deadline}
    (hdeadline : ∀ d, deadline = some d → ¬ d.reason.IsRefusal) (h : s.IsBusy) :
    IsTaken (failure? (s.pollBefore t deadline).1) ∧
      ((s.pollBefore t deadline).1 = .ok .pending → (s.pollBefore t deadline).2.IsBusy) ∧
      ((s.pollBefore t deadline).1 = .ok .completed → (s.pollBefore t deadline).2.IsReady) := by
  obtain ⟨session, id, hlive, hid⟩ := h
  unfold pollBefore
  rw [inFlight_eq hlive hid]
  dsimp only
  split_ifs with hcompleted
  · exact ⟨fun _ => nofun, nofun, fun _ => ⟨session, id, hlive, hid, hcompleted⟩⟩
  · refine ⟨isTaken_exchange hdeadline fun _ _ => Phase.isOfReply_afterStatus, ?_⟩
    rcases exchange_cases t deadline s session (.status id) (session.phase.afterStatus id) with
      ⟨d, s', -, -, -, heq⟩ | ⟨e, s', -, -, heq⟩ | ⟨reply, s', -, hclient, -, heq⟩
    · rw [heq]
      exact ⟨nofun, nofun⟩
    · rw [heq]
      exact ⟨nofun, nofun⟩
    · rw [heq]
      cases reply with
      | status other state reason =>
        cases state with
        | completed => exact ⟨nofun, fun _ => ⟨_, id, hclient, rfl, rfl⟩⟩
        | failed => exact ⟨nofun, nofun⟩
        | _ => exact ⟨fun _ => ⟨_, id, hclient, rfl⟩, nofun⟩
      | _ => exact ⟨nofun, nofun⟩

/-- A wait for a request in flight is taken, and if it succeeds the request is known to be
completed. -/
theorem isTaken_wait (h : s.IsBusy) (polls : Nat) (policy : PollPolicy) (cancel : Option Nat) :
    IsTaken (s.wait t polls policy cancel).1.failure? ∧
      ((s.wait t polls policy cancel).1 = .returned (.ok ()) →
        (s.wait t polls policy cancel).2.IsReady) := by
  have hbusy := h
  obtain ⟨session, id, hlive, hid⟩ := h
  unfold wait
  rw [inFlight_eq hlive hid]
  dsimp only
  split_ifs
  · exact ⟨fun _ => nofun, nofun⟩
  · have hdeadline : ∀ d, Deadline.earlier
        (policy.timeout.map fun ms => s.deadlineIn ms (.timeout ms))
        (cancel.map fun ms => s.deadlineIn ms .cancelled) = some d → ¬ d.reason.IsRefusal := by
      intro d hd
      rcases Deadline.earlier_cases hd with htimeout | hcancel
      · obtain ⟨ms, -, rfl⟩ := Option.map_eq_some_iff.1 htimeout
        exact fun h => h
      · obtain ⟨ms, -, rfl⟩ := Option.map_eq_some_iff.1 hcancel
        exact fun h => h
    -- Between two polls the request is in flight.
    refine waitFrom_elim (I := IsBusy)
      (P := fun o => IsTaken o.1.failure? ∧ (o.1 = .returned (.ok ()) → o.2.IsReady)) ?_ ?_ ?_ ?_
      _ _ _ hbusy
    · intro s s' result hs heq
      have hpoll := pollBefore_of_isBusy (t := t) hdeadline hs
      rw [heq] at hpoll
      obtain ⟨htaken, hpending, hcompleted⟩ := hpoll
      cases result with
      | error e => exact ⟨by rintro _ ⟨⟩; exact htaken e rfl, nofun⟩
      | ok status =>
        cases status with
        | pending => exact hpending rfl
        | completed => exact ⟨fun _ => nofun, fun _ => hcompleted rfl⟩
    · intro s clock hs
      exact hs
    · intro s d clock hd _
      exact ⟨by rintro _ ⟨⟩; exact hdeadline d hd, nofun⟩
    · intro s _
      exact ⟨fun _ => nofun, nofun⟩

theorem isTaken_getResults (h : s.IsReady) : IsTaken (failure? (s.getResults t).1) := by
  obtain ⟨session, id, hlive, hid, hcompleted⟩ := h
  rw [getResults_eq hlive hid hcompleted]
  exact isTaken_exchange (by simp) fun _ _ => Phase.isOfReply_afterFetch

theorem isQuiet_wait (t : Transport σ) (s : TimedClient σ) (polls : Nat) (policy : PollPolicy)
    (cancel : Option Nat) :
    s.IsQuiet (s.wait t polls policy cancel).1.failure? (s.wait t polls policy cancel).2 := by
  cases hflight : s.inFlight "wait_for_completion" with
  | error e =>
    have heq : s.wait t polls policy cancel = (.returned (.error e), s) := by
      unfold wait
      rw [hflight]
    rw [heq]
    exact fun _ _ _ => rfl
  | ok found =>
    obtain ⟨session, id⟩ := found
    obtain ⟨hlive, hid⟩ := inFlight_eq_ok hflight
    exact (isTaken_wait ⟨session, id, hlive, hid⟩ polls policy cancel).1.isQuiet

/-- A run is refused only when it submits its request. -/
theorem isQuiet_run (t : Transport σ) (s : TimedClient σ) (polls : Nat) (policy : PollPolicy)
    (r : Request) :
    s.IsQuiet (s.run t polls policy r).1.failure? (s.run t polls policy r).2 := by
  rcases run_cases t s polls policy r with
    ⟨e, s₁, hsend, hrun⟩ | ⟨name, s₁, waited, s₂, hsend, hwait, hrest⟩
  · have hsent := isQuiet_send t s r
    rw [hsend] at hsent
    rw [hrun]
    exact hsent
  · have hbusy : s₁.IsBusy := by
      have hbusy := isBusy_send (t := t) (s := s) (r := r) (by rw [hsend])
      rwa [hsend] at hbusy
    obtain ⟨htaken, hready⟩ := isTaken_wait (t := t) hbusy polls policy none
    rw [hwait] at htaken hready
    rcases hrest with ⟨hok, hrun⟩ | ⟨ran, hran, -, hrun⟩
    · rw [hrun]
      exact (isTaken_getResults (hready hok)).isQuiet
    · rw [hrun]
      exact (hran ▸ htaken : IsTaken ran.failure?).isQuiet

/-- Nothing has happened when a call is refused. -/
theorem eq_of_refused {call : Call σ} {e : ClientError} (h : (s.step t call).1 = some e)
    (hrefusal : e.IsRefusal) : (s.step t call).2 = s := by
  cases call with
  | attach channel => exact isQuiet_attach t channel s e h hrefusal
  | connect policy address dial => exact isQuiet_connect t policy address dial s e h hrefusal
  | sleep milliseconds => cases h
  | operate op =>
    cases op with
    | send r => exact isQuiet_send t s r e h hrefusal
    | poll => exact isQuiet_poll t s e h hrefusal
    | getResults => exact isQuiet_getResults t s e h hrefusal
    | wait polls policy cancel => exact isQuiet_wait t s polls policy cancel e h hrefusal
    | run polls policy r => exact isQuiet_run t s polls policy r e h hrefusal
    | close =>
      obtain ⟨error, rfl⟩ := close_eq_error (failure?_eq_some h)
      cases hrefusal

/-! ## Replies that do not fit -/

/-- The session is as it was, with the channel that has answered the message. -/
def Keeps (t : Transport σ) (s s' : TimedClient σ) (m : ClientMessage) : Prop :=
  ∃ session, s.client = .live session ∧
    s'.client = .live { session with channel := (t.call session.channel m).2 }

theorem keeps_exchange {deadline : Option Deadline} {session : Session σ} {m m' : ClientMessage}
    {after : ServerMessage → Except ClientError α × Phase} {reply : ServerMessage}
    (hafter : (after reply).2 = session.phase)
    (hanswers : Answers s.log (exchange t deadline s session m after).2.log m' reply) :
    m' = m ∧ (exchange t deadline s session m after).2.client =
      .live { session with channel := (t.call session.channel m).2 } := by
  obtain ⟨sentAt, answeredAt, hanswers⟩ := hanswers
  rcases exchange_cases t deadline s session m after with
    ⟨d, s', -, -, hlog, heq⟩ | ⟨e, s', -, ⟨time, hlog⟩, heq⟩ |
      ⟨reply', s', -, hclient, ⟨time, hlog⟩, heq⟩
  -- Without a reply the log would show none.
  · rw [heq, hlog] at hanswers
    cases hanswers
  · rw [heq, hlog] at hanswers
    cases hanswers
  · rw [heq, hlog] at hanswers
    obtain ⟨rfl, rfl⟩ : reply' = reply ∧ m' = m := by
      cases hanswers
      exact ⟨rfl, rfl⟩
    rw [heq]
    exact ⟨rfl, by rw [hclient, hafter]⟩

theorem says_exchange (t : Transport σ) (deadline : Option Deadline) (s : TimedClient σ)
    (session : Session σ) (m : ClientMessage)
    (after : ServerMessage → Except ClientError α × Phase) :
    Says s.log (exchange t deadline s session m after).2.log m := by
  rcases exchange_cases t deadline s session m after with
    ⟨d, s', -, -, hlog, heq⟩ | ⟨e, s', -, ⟨time, hlog⟩, heq⟩ | ⟨reply, s', -, -, ⟨time, hlog⟩, heq⟩
  · rw [heq]
    exact ⟨[], _, hlog⟩
  · rw [heq]
    exact ⟨[_], _, hlog⟩
  · rw [heq]
    exact ⟨[_], _, hlog⟩

/-- A request that is not accepted leaves the session ready for the next. -/
theorem keeps_send {r : Request} {reply : ServerMessage}
    (hanswers : Answers s.log (s.send t r).2.log (.execute r) reply)
    (hkind : reply.kind ≠ "accepted") :
    s.Keeps t (s.send t r).2 (.execute r) ∧
      ∀ next, next.validate = .ok () →
        Says (s.send t r).2.log ((s.send t r).2.send t next).2.log (.execute next) := by
  rcases send_cases t s r with ⟨e, heq, -⟩ | ⟨session, hlive, hphase, -, heq⟩
  · rw [heq] at hanswers
    exact absurd hanswers (not_answers_self _ _ _)
  · rw [heq] at hanswers ⊢
    obtain ⟨-, hclient⟩ := keeps_exchange (Phase.afterExecute_of_kind hkind) hanswers
    refine ⟨⟨session, hlive, hclient⟩, ?_⟩
    intro next hvalid
    generalize (exchange t none s session (.execute r) session.phase.afterExecute).2 = s'
      at hclient
    simp only [send, hclient, hphase, Option.isSome_none, Bool.false_eq_true, if_false, hvalid]
    exact says_exchange ..

/-- A reply that tells nothing of the state leaves the request to be asked for again. -/
theorem keeps_poll {m : ClientMessage} {reply : ServerMessage}
    (hanswers : Answers s.log (s.poll t).2.log m reply) (hkind : reply.kind ≠ "status")
    (herror : reply.kind ≠ "error") :
    s.Keeps t (s.poll t).2 m ∧ Says (s.poll t).2.log ((s.poll t).2.poll t).2.log m := by
  rw [poll] at hanswers ⊢
  rcases pollBefore_cases t none s with ⟨result, heq, -⟩ | ⟨session, id, hlive, hid, hpending, heq⟩
  · rw [heq] at hanswers
    exact absurd hanswers (not_answers_self _ _ _)
  · rw [heq] at hanswers ⊢
    obtain ⟨rfl, hclient⟩ :=
      keeps_exchange (Phase.afterStatus_of_kind hkind herror) hanswers
    refine ⟨⟨session, hlive, hclient⟩, ?_⟩
    rw [poll, pollBefore_eq hclient hid hpending]
    exact says_exchange ..

/-- A reply that is no result leaves it to be fetched again. -/
theorem keeps_getResults {m : ClientMessage} {reply : ServerMessage}
    (hanswers : Answers s.log (s.getResults t).2.log m reply) (hkind : reply.kind ≠ "result")
    (herror : reply.kind ≠ "error") :
    s.Keeps t (s.getResults t).2 m ∧
      Says (s.getResults t).2.log ((s.getResults t).2.getResults t).2.log m := by
  rcases getResults_cases t s with ⟨e, heq, -⟩ | ⟨session, id, hlive, hid, hcompleted, heq⟩
  · rw [heq] at hanswers
    exact absurd hanswers (not_answers_self _ _ _)
  · rw [heq] at hanswers ⊢
    obtain ⟨rfl, hclient⟩ :=
      keeps_exchange (Phase.afterFetch_of_kind hkind herror) hanswers
    refine ⟨⟨session, hlive, hclient⟩, ?_⟩
    rw [getResults_eq hclient hid hcompleted]
    exact says_exchange ..

/-- A connection that fails was tried by an idle client, and leaves it idle. -/
theorem idle_of_attach {channel : σ} {e : ConnectionError}
    (h : (s.attach t channel).1 = .error (.connection e)) :
    s.client = .idle ∧ (s.attach t channel).2.client = .idle := by
  rcases attach_cases t channel s with
    ⟨session, -, heq⟩ | ⟨e, s', outcome, hidle, hidle', -, heq⟩ |
      ⟨reply, backend, s', -, -, -, -, -, heq⟩
  · rw [heq] at h
    cases h
  · rw [heq]
    exact ⟨hidle, hidle'⟩
  · rw [heq] at h
    cases h

theorem idle_of_connect {policy : RetryPolicy} {address : String} {dial : Nat → Except String σ}
    {e : ConnectionError} (h : (s.connect t policy address dial).1 = .error (.connection e)) :
    s.client = .idle ∧ (s.connect t policy address dial).2.client = .idle := by
  rcases connect_cases t policy address dial s with
    ⟨session, -, heq⟩ | ⟨e, slept, hidle, heq⟩ | ⟨channel, slept, hidle, heq⟩
  · rw [heq] at h
    cases h
  · rw [heq]
    exact ⟨hidle, hidle⟩
  · rw [heq] at h ⊢
    exact ⟨hidle, (idle_of_attach h).2⟩

end TimedClient

/-! ## The fields -/

namespace TimedFields

open Event

/-- The fields are as they were, with the channel that has answered the message. -/
def Keeps (t : Transport σ) (d d' : TimedFields σ) (m : ClientMessage) : Prop :=
  ∃ channel, d.client.channel? = some channel ∧
    d'.client = { d.client with channel? := some (t.call channel m).2 }

theorem keeps_fields {t : Transport σ} {s s' : TimedClient σ} {m : ClientMessage}
    (h : s.Keeps t s' m) : s.fields.Keeps t s'.fields m := by
  obtain ⟨session, hlive, hclient⟩ := h
  refine ⟨session.channel, ?_, ?_⟩
  · simp [TimedClient.fields, Client.fields, hlive, Client.channel?]
  · simp [TimedClient.fields, Client.fields, hlive, hclient, Client.channel?, Client.state,
      Client.requestId?, Client.isCompleted, Client.backend?]

/-- Whatever was called before, and whatever came over the channels: a call that is refused changes
nothing and says nothing.  A request that is not accepted, and a question that is answered with
something else, leave the fields as they were, and the channel takes the next message.  A connection
that fails leaves the client cleared, as it was. -/
theorem unchanged_after (t : Transport σ) (calls : List (Call σ)) :
    let d := initial.after t calls
    (∀ call e, (d.step t call).1 = some e → e.IsRefusal → (d.step t call).2 = d) ∧
    (∀ r reply, Answers d.log (d.send t r).2.log (.execute r) reply → reply.kind ≠ "accepted" →
      Keeps t d (d.send t r).2 (.execute r) ∧ ∀ next, next.validate = .ok () →
        Says (d.send t r).2.log ((d.send t r).2.send t next).2.log (.execute next)) ∧
    (∀ m reply, Answers d.log (d.poll t).2.log m reply →
      reply.kind ≠ "status" → reply.kind ≠ "error" →
      Keeps t d (d.poll t).2 m ∧ Says (d.poll t).2.log ((d.poll t).2.poll t).2.log m) ∧
    (∀ m reply, Answers d.log (d.getResults t).2.log m reply →
      reply.kind ≠ "result" → reply.kind ≠ "error" →
      Keeps t d (d.getResults t).2 m ∧
        Says (d.getResults t).2.log ((d.getResults t).2.getResults t).2.log m) ∧
    (∀ channel e, (d.attach t channel).1 = .error (.connection e) →
      d.client = .cleared ∧ (d.attach t channel).2.client = .cleared) ∧
    ∀ policy address dial e, (d.connect t policy address dial).1 = .error (.connection e) →
      d.client = .cleared ∧ (d.connect t policy address dial).2.client = .cleared := by
  intro d
  have hd : d = (TimedClient.initial.after t calls).fields := after_fields t .initial calls
  generalize TimedClient.initial.after t calls = s at hd
  have cleared_of_idle : ∀ {s : TimedClient σ}, s.client = .idle → s.fields.client = .cleared := by
    intro s hidle
    rw [TimedClient.fields, hidle]
    rfl
  rw [hd]
  refine ⟨?_, ?_, ?_, ?_, ?_, ?_⟩
  · intro call e h hrefusal
    rw [step_fields] at h ⊢
    exact congrArg TimedClient.fields (TimedClient.eq_of_refused h hrefusal)
  · intro r reply hanswers hkind
    simp only [send_fields, TimedClient.onFields] at hanswers ⊢
    obtain ⟨hkeeps, hsays⟩ := TimedClient.keeps_send hanswers hkind
    exact ⟨keeps_fields hkeeps, hsays⟩
  · intro m reply hanswers hkind herror
    simp only [poll, pollBefore_fields, TimedClient.onFields] at hanswers ⊢
    obtain ⟨hkeeps, hsays⟩ := TimedClient.keeps_poll hanswers hkind herror
    exact ⟨keeps_fields hkeeps, hsays⟩
  · intro m reply hanswers hkind herror
    simp only [getResults_fields, TimedClient.onFields] at hanswers ⊢
    obtain ⟨hkeeps, hsays⟩ := TimedClient.keeps_getResults hanswers hkind herror
    exact ⟨keeps_fields hkeeps, hsays⟩
  · intro channel e h
    simp only [attach_fields, TimedClient.onFields] at h ⊢
    obtain ⟨hidle, hidle'⟩ := TimedClient.idle_of_attach h
    exact ⟨cleared_of_idle hidle, cleared_of_idle hidle'⟩
  · intro policy address dial e h
    simp only [connect_fields, TimedClient.onFields] at h ⊢
    obtain ⟨hidle, hidle'⟩ := TimedClient.idle_of_connect h
    exact ⟨cleared_of_idle hidle, cleared_of_idle hidle'⟩

/-- A client whose request is completed refuses another, and is greeted instead of being given the
result. -/
theorem unchanged_greeted :
    let script : Script := ⟨[⟨0, .ok (.hello protocolVersion "echo")⟩, ⟨0, .ok (.accepted "I")⟩,
      ⟨0, .ok (.status "I" .completed none)⟩, ⟨0, .ok (.hello protocolVersion "echo")⟩], none, true⟩
    let r : Request := ⟨1, NameMap.empty.insert "x" (.real []), .empty, .empty, .empty, none⟩
    let d := initial.after Script.transport
      [.attach script, .operate (.send r), .operate .poll]
    (d.step Script.transport (.operate (.send r))).2 = d ∧
      (d.getResults Script.transport).1 = .error (.unexpectedResponse "result" "hello") ∧
      Keeps Script.transport d (d.getResults Script.transport).2 (.fetchResult "I") := by
  intro script r d
  obtain ⟨hrefused, -, -, hfetch, -⟩ := unchanged_after Script.transport
    [.attach script, .operate (.send r), .operate .poll]
  have hanswers : Answers d.log (d.getResults Script.transport).2.log (.fetchResult "I")
      (.hello protocolVersion "echo") := ⟨0, 0, rfl⟩
  exact ⟨hrefused _ .requestInFlight rfl trivial, rfl,
    (hfetch _ _ hanswers (by decide) (by decide)).1⟩

end TimedFields

end EncryptedInference
