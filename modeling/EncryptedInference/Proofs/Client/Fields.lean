import EncryptedInference.Client.Fields
import EncryptedInference.Client.Script
import EncryptedInference.Proofs.Client.Calls

/-!
# The fields of a client

Five fields that are written one by one could say anything.  The operations write them so that they
are always the fields of a client without or with a session: each operation on the fields does what
the operation on the client does (`TimedFields.step_fields`), and so does every sequence of calls
(`TimedFields.after_fields`).  Hence the fields fit together, which is to say that they are those of
some client (`ClientFields.isConsistent_iff`), and the end of a session clears them all.
-/

namespace EncryptedInference

variable {σ α : Type}

namespace ClientFields

/-- The fields fit together: the channel, the backend and a state other than idle come and go
together, as do the name of a request and a state in which there is one; and what is completed has
been asked for. -/
structure IsConsistent (c : ClientFields σ) : Prop where
  idle_iff_channel : c.state = .idle ↔ c.channel? = none
  channel_iff_backend : c.channel? = none ↔ c.backend? = none
  inFlight_iff_requestId : (c.state = .sent ∨ c.state = .polling) ↔ c.requestId?.isSome
  polling_of_isCompleted : c.isCompleted = true → c.state = .polling

end ClientFields

/-- The fields of a client. -/
def Client.fields (c : Client σ) : ClientFields σ :=
  ⟨c.channel?, c.state, c.requestId?, c.isCompleted, c.backend?⟩

theorem Client.isConsistent_fields (c : Client σ) : c.fields.IsConsistent := by
  cases c with
  | idle => constructor <;> simp [fields, channel?, state, requestId?, isCompleted, backend?]
  | live session =>
    obtain ⟨channel, backend, phase⟩ := session
    cases phase <;> constructor <;>
      simp [fields, channel?, state, requestId?, isCompleted, backend?, Phase.state,
        Phase.requestId?, Phase.isCompleted]

/-- Fields that fit together are those of a client. -/
theorem ClientFields.IsConsistent.eq_fields {c : ClientFields σ} (h : c.IsConsistent) :
    ∃ client : Client σ, c = client.fields := by
  obtain ⟨channel?, state, requestId?, isCompleted, backend?⟩ := c
  obtain ⟨hchannel, hbackend, hrequest, hcompleted⟩ := h
  dsimp only at hchannel hbackend hrequest hcompleted
  cases channel? with
  | none =>
    obtain rfl := hchannel.2 rfl
    obtain rfl := hbackend.1 rfl
    obtain rfl : requestId? = none := by simpa using hrequest
    obtain rfl : isCompleted = false := by simpa using hcompleted
    exact ⟨.idle, rfl⟩
  | some channel =>
    obtain ⟨backend, rfl⟩ : ∃ backend, backend? = some backend :=
      Option.ne_none_iff_exists'.1 fun h => nomatch hbackend.2 h
    cases state with
    | idle => cases hchannel.1 rfl
    | connected =>
      obtain rfl : requestId? = none := by simpa using hrequest
      obtain rfl : isCompleted = false := by simpa using hcompleted
      exact ⟨.live ⟨channel, backend, .connected⟩, rfl⟩
    | done =>
      obtain rfl : requestId? = none := by simpa using hrequest
      obtain rfl : isCompleted = false := by simpa using hcompleted
      exact ⟨.live ⟨channel, backend, .done⟩, rfl⟩
    | sent =>
      obtain ⟨id, rfl⟩ := Option.isSome_iff_exists.1 (hrequest.1 (Or.inl rfl))
      obtain rfl : isCompleted = false := by simpa using hcompleted
      exact ⟨.live ⟨channel, backend, .sent id⟩, rfl⟩
    | polling =>
      obtain ⟨id, rfl⟩ := Option.isSome_iff_exists.1 (hrequest.1 (Or.inr rfl))
      exact ⟨.live ⟨channel, backend, .polling id isCompleted⟩, rfl⟩

theorem ClientFields.isConsistent_iff {c : ClientFields σ} :
    c.IsConsistent ↔ ∃ client : Client σ, c = client.fields := by
  refine ⟨IsConsistent.eq_fields, ?_⟩
  rintro ⟨client, rfl⟩
  exact client.isConsistent_fields

/-! ## The same operations -/

@[simp] theorem Phase.state_ne_idle (p : Phase) : p.state ≠ .idle := by
  cases p <;> exact nofun

namespace TimedClient

/-- The same with the client in fields. -/
def fields (s : TimedClient σ) : TimedFields σ := ⟨s.client.fields, s.clock, s.log⟩

/-- The outcome of an operation, with the client in fields. -/
def onFields (outcome : α × TimedClient σ) : α × TimedFields σ := (outcome.1, outcome.2.fields)

end TimedClient

namespace TimedFields

open TimedClient

variable (t : Transport σ) (s : TimedClient σ)

/-- The call of a channel, and what is read from the reply, is an exchange if the reading is. -/
theorem andThen_call {deadline : Option Deadline} {session : Session σ} {m : ClientMessage}
    {after : ServerMessage → Except ClientError α × Phase}
    {read : ServerMessage → TimedFields σ → Except ClientError α × TimedFields σ}
    (hlive : s.client = .live session)
    (hread : ∀ reply channel clock log,
      read reply ⟨(Client.live { session with channel }).fields, clock, log⟩ =
        ((after reply).1,
          ⟨(Client.live { session with channel, phase := (after reply).2 }).fields, clock, log⟩)) :
    andThen (s.fields.call t deadline m) read =
      onFields (exchange t deadline s session m after) := by
  obtain ⟨client, clock, log⟩ := s
  obtain rfl : client = .live session := hlive
  simp only [call, exchange, fields, Client.fields, Client.channel?, TimedClient.record, record]
  cases Deadline.strikesBefore deadline (clock + (t.call session.channel m).1.delay) with
  | some struck => rfl
  | none =>
    dsimp only
    cases (t.call session.channel m).1.outcome with
    | error e => rfl
    | ok reply => exact hread ..

theorem attach_fields (channel : σ) :
    s.fields.attach t channel = onFields (s.attach t channel) := by
  obtain ⟨client, clock, log⟩ := s
  cases client with
  | live session =>
    simp [attach, TimedClient.attach, fields, Client.fields, Client.state, onFields]
  | idle =>
    simp only [attach, TimedClient.attach, fields, Client.fields, Client.state, if_true]
    cases (t.call channel greeting).1.outcome with
    | error e => rfl
    | ok reply =>
      dsimp only
      cases backendOfGreeting reply <;> rfl

theorem connect_fields (policy : RetryPolicy) (address : String) (dial : Nat → Except String σ) :
    s.fields.connect t policy address dial = onFields (s.connect t policy address dial) := by
  obtain ⟨client, clock, log⟩ := s
  cases client with
  | live session =>
    simp [connect, TimedClient.connect, fields, Client.fields, Client.state, onFields]
  | idle =>
    simp only [connect, TimedClient.connect, fields, Client.fields, Client.state, if_true]
    cases (policy.run address dial).result with
    | error e => rfl
    | ok channel => exact attach_fields t ⟨.idle, _, log⟩ channel

theorem send_fields (r : Request) : s.fields.send t r = onFields (s.send t r) := by
  unfold send TimedClient.send
  cases hclient : s.client with
  | idle => simp [fields, hclient, Client.fields, Client.state, onFields]
  | live session =>
    have hstate : s.fields.client.state = session.phase.state := by
      simp [fields, hclient, Client.fields, Client.state]
    have hcall : andThen (s.fields.call t none (.execute r)) readExecute =
        onFields (exchange t none s session (.execute r) session.phase.afterExecute) :=
      andThen_call t s hclient fun reply channel clock log => by cases reply <;> rfl
    rw [hstate, hcall]
    dsimp only
    cases session.phase with
    | connected => cases r.validate <;> rfl
    | done => cases r.validate <;> rfl
    | _ => rfl

theorem inFlight_fields (operation : String) :
    s.fields.client.inFlight operation = (s.inFlight operation).map Prod.snd := by
  obtain ⟨client, clock, log⟩ := s
  cases client with
  | idle => rfl
  | live session =>
    obtain ⟨channel, backend, phase⟩ := session
    cases phase <;> rfl

theorem isCompleted_fields {operation id : String} {session : Session σ}
    (h : s.inFlight operation = .ok (session, id)) :
    s.fields.client.isCompleted = session.phase.isCompleted := by
  obtain ⟨hlive, -⟩ := inFlight_eq_ok h
  simp [fields, Client.fields, hlive, Client.isCompleted]

/-- A request that is pending is as sent, or has been asked for; the reply then says the same of
the fields as of the phase. -/
theorem readStatus_fields {session : Session σ} {id : String}
    (hid : session.phase.requestId? = some id) (hpending : session.phase.isCompleted = false)
    (reply : ServerMessage) (channel : σ) (clock : Nat) (log : List Event) :
    readStatus reply ⟨(Client.live { session with channel }).fields, clock, log⟩ =
      ((session.phase.afterStatus id reply).1,
        ⟨(Client.live { session with
          channel, phase := (session.phase.afterStatus id reply).2 }).fields, clock, log⟩) := by
  obtain ⟨_, backend, phase⟩ := session
  have hphase : phase = .sent id ∨ phase = .polling id false := by
    cases phase with
    | sent other => exact Or.inl (congrArg Phase.sent (Option.some.inj hid))
    | polling other completed =>
      obtain rfl : other = id := Option.some.inj hid
      exact Or.inr (congrArg (Phase.polling other) hpending)
    | _ => cases hid
  rcases hphase with rfl | rfl <;> cases reply with
  | status id' state reason => cases state <;> rfl
  | _ => rfl

theorem pollBefore_fields (deadline : Option Deadline) :
    s.fields.pollBefore t deadline = onFields (s.pollBefore t deadline) := by
  unfold pollBefore TimedClient.pollBefore
  rw [inFlight_fields]
  cases hflight : s.inFlight "poll" with
  | error e => rfl
  | ok found =>
    obtain ⟨session, id⟩ := found
    obtain ⟨hlive, hid⟩ := inFlight_eq_ok hflight
    simp only [Except.map, isCompleted_fields s hflight]
    split_ifs with hcompleted
    · rfl
    · exact andThen_call t s hlive fun reply channel clock log =>
        readStatus_fields hid (by simpa using hcompleted) reply channel clock log

theorem getResults_fields : s.fields.getResults t = onFields (s.getResults t) := by
  unfold getResults TimedClient.getResults
  rw [inFlight_fields]
  cases hflight : s.inFlight "get_results" with
  | error e => rfl
  | ok found =>
    obtain ⟨session, id⟩ := found
    obtain ⟨hlive, hid⟩ := inFlight_eq_ok hflight
    simp only [Except.map, isCompleted_fields s hflight]
    split_ifs with hcompleted
    · exact andThen_call t s hlive fun reply channel clock log => by cases reply <;> rfl
    · simp [fields, Client.fields, hlive, Client.state, onFields]

theorem close_fields : s.fields.close t = onFields (s.close t) := by
  obtain ⟨client, clock, log⟩ := s
  cases client <;> rfl

theorem waitFrom_fields (interval : Nat) (deadline : Option Deadline) (polls due : Nat) :
    waitFrom t interval deadline polls due s.fields =
      onFields (TimedClient.waitFrom t interval deadline polls due s) := by
  -- A poll that is answered in time leads to the same client on both sides.
  induction polls generalizing due s with
  | zero => rfl
  | succ polls ih =>
    unfold waitFrom TimedClient.waitFrom
    dsimp only
    rw [show s.fields.clock = s.clock from rfl]
    cases Deadline.strikesBefore deadline (max due s.clock) with
    | some struck => rfl
    | none =>
      dsimp only
      rw [show ({ s.fields with clock := max due s.clock } : TimedFields σ) =
        TimedClient.fields { s with clock := max due s.clock } from rfl, pollBefore_fields]
      obtain ⟨result, s'⟩ := TimedClient.pollBefore t deadline { s with clock := max due s.clock }
      cases result with
      | error e => rfl
      | ok status =>
        cases status with
        | pending => exact ih s' _
        | completed => rfl

theorem wait_fields (polls : Nat) (policy : PollPolicy) (cancel : Option Nat) :
    s.fields.wait t polls policy cancel = onFields (s.wait t polls policy cancel) := by
  unfold wait TimedClient.wait
  rw [inFlight_fields]
  cases s.inFlight "wait_for_completion" with
  | error e => rfl
  | ok found =>
    simp only [Except.map]
    split_ifs
    · rfl
    · exact waitFrom_fields t s ..

theorem run_fields (polls : Nat) (policy : PollPolicy) (r : Request) :
    s.fields.run t polls policy r = onFields (s.run t polls policy r) := by
  unfold run TimedClient.run
  rw [send_fields]
  obtain ⟨_ | _, s₁⟩ := s.send t r
  · rfl
  · simp only [onFields]
    rw [wait_fields]
    obtain ⟨(_ | _) | _ | _, s₂⟩ := s₁.wait t polls policy none
    · rfl
    · exact congrArg (Prod.map Progress.returned id) (getResults_fields t s₂)
    · rfl
    · rfl

/-! ## Calls -/

/-- A call takes place: its error, if it fails, and what is in the fields after it. -/
def step (t : Transport σ) (d : TimedFields σ) : Call σ → Option ClientError × TimedFields σ
  | .attach channel => Prod.map failure? id (d.attach t channel)
  | .connect policy address dial => Prod.map failure? id (d.connect t policy address dial)
  | .operate (.send r) => Prod.map failure? id (d.send t r)
  | .operate .poll => Prod.map failure? id (d.poll t)
  | .operate .getResults => Prod.map failure? id (d.getResults t)
  | .operate (.wait polls policy cancel) =>
    Prod.map Progress.failure? id (d.wait t polls policy cancel)
  | .operate (.run polls policy r) => Prod.map Progress.failure? id (d.run t polls policy r)
  | .operate .close => Prod.map failure? id (d.close t)
  | .sleep milliseconds => (none, d.pass (sleepLength milliseconds))

/-- What is in the fields after calls. -/
def after (t : Transport σ) (d : TimedFields σ) (calls : List (Call σ)) : TimedFields σ :=
  calls.foldl (fun d call => (d.step t call).2) d

/-- A call does the same to the fields as to the client. -/
theorem step_fields (call : Call σ) :
    s.fields.step t call = ((s.step t call).1, (s.step t call).2.fields) := by
  cases call with
  | attach channel => rw [step, attach_fields]; rfl
  | connect policy address dial => rw [step, connect_fields]; rfl
  | sleep milliseconds => rfl
  | operate op =>
    cases op with
    | send r => rw [step, send_fields]; rfl
    | poll => rw [step, poll, pollBefore_fields]; rfl
    | getResults => rw [step, getResults_fields]; rfl
    | wait polls policy cancel => rw [step, wait_fields]; rfl
    | run polls policy r => rw [step, run_fields]; rfl
    | close => rw [step, close_fields]; rfl

theorem after_fields (calls : List (Call σ)) :
    s.fields.after t calls = (s.after t calls).fields := by
  induction calls generalizing s with
  | nil => rfl
  | cons call rest ih =>
    rw [after, List.foldl_cons, step_fields]
    exact ih _

/-- After any calls, and whatever came over the channels, the fields are those of the client that
was called alike, and they fit together. A call that comes to the end of the session, or is to end
it and may fail to say goodbye, clears them all. -/
theorem isConsistent_after (t : Transport σ) (calls : List (Call σ)) :
    initial.after t calls = (TimedClient.initial.after t calls).fields ∧
      (initial.after t calls).client.IsConsistent ∧
      ∀ call, (call = .operate .close ∨
          ∃ e, ((initial.after t calls).step t call).1 = some e ∧ e.EndsSession) →
        ((initial.after t calls).step t call).2.client = .cleared := by
  have hafter : initial.after t calls = (TimedClient.initial.after t calls).fields :=
    after_fields t .initial calls
  refine ⟨hafter, ?_, ?_⟩
  · rw [hafter]
    exact Client.isConsistent_fields _
  · intro call hends
    rw [hafter, step_fields] at hends ⊢
    have hidle : ((TimedClient.initial.after t calls).step t call).2.client = .idle :=
      idle_of_endsAt hends
    rw [fields, hidle]
    rfl

/-- A channel that greets back and breaks before the goodbye. -/
theorem cleared_of_broken :
    let script : Script := ⟨[⟨0, .ok (.hello protocolVersion "echo")⟩], none, false⟩
    let greeted := initial.after Script.transport [.attach script]
    greeted.client.channel?.isSome ∧
      (greeted.step Script.transport (.operate .close)).1 = some (.connection .closed) ∧
      (greeted.step Script.transport (.operate .close)).2.client = .cleared :=
  ⟨rfl, rfl, (isConsistent_after Script.transport [.attach _]).2.2 _ (Or.inl rfl)⟩

end TimedFields

end EncryptedInference
