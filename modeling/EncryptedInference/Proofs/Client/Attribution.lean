import EncryptedInference.Proofs.Client.Discipline

/-!
# Whose reply it is

A client takes the reply that follows a message on its channel for the answer to that message.  It
asks for the request that was accepted last (`TimedClient.IsNamed.step`), and takes it for completed
only if it was told so in answer to such a question (`TimedClient.told_of_isCompleted`).  So what it
reports of a request is what the channel answered when it was asked for that request; the name in
the reply is the same if the channel answers to the point (`Transport.Echoes`).  The client does not
look at it: channels that differ in nothing but these names lead it through the same states
(`TimedClient.Same.after`).
-/

namespace EncryptedInference

variable {σ α β : Type}

/-! ## Requests that were accepted -/

namespace TimedClient

variable {t : Transport σ} {s : TimedClient σ} {last : Option String}

/-- The name that a call returned for a request it submitted. -/
def acceptedBy (t : Transport σ) (s : TimedClient σ) : Call σ → Option String
  | .operate (.send r) | .operate (.run _ _ r) => (s.send t r).1.toOption
  | _ => none

/-- The names that calls returned for the requests they submitted, in order. -/
def accepted (t : Transport σ) : TimedClient σ → List (Call σ) → List String
  | _, [] => []
  | s, call :: rest => (s.acceptedBy t call).toList ++ accepted t (s.step t call).2 rest

/-- The request in flight, if there is one, has this name. -/
def IsNamed (last : Option String) (s : TimedClient σ) : Prop :=
  ∀ id, s.client.requestId? = some id → last = some id

theorem IsNamed.of_idle (hidle : s.client = .idle) : s.IsNamed last := by
  intro id hid
  rw [hidle] at hid
  cases hid

theorem isNamed_exchange {deadline : Option Deadline} {session : Session σ} {m : ClientMessage}
    {after : ServerMessage → Except ClientError α × Phase}
    (hafter : ∀ reply id, (after reply).2.requestId? = some id → last = some id) :
    (exchange t deadline s session m after).2.IsNamed last := by
  rcases exchange_cases t deadline s session m after with
    ⟨d, s', -, hidle, -, heq⟩ | ⟨e, s', hidle, -, heq⟩ | ⟨reply, s', -, hclient, -, heq⟩
  · rw [heq]
    exact .of_idle hidle
  · rw [heq]
    exact .of_idle hidle
  · rw [heq]
    intro id hid
    rw [hclient] at hid
    exact hafter reply id hid

namespace IsNamed

theorem send (h : s.IsNamed last) (r : Request) :
    (s.send t r).2.IsNamed ((s.send t r).1.toOption.or last) := by
  rcases send_cases t s r with ⟨e, heq, -⟩ | ⟨session, -, hphase, -, heq⟩
  · rw [heq]
    exact h
  · rw [heq]
    rcases exchange_cases t none s session (.execute r) session.phase.afterExecute with
      ⟨d, s', -, hidle, -, heq⟩ | ⟨e, s', hidle, -, heq⟩ | ⟨reply, s', -, hclient, -, heq⟩
    · rw [heq]
      exact .of_idle hidle
    · rw [heq]
      exact .of_idle hidle
    · rw [heq]
      intro id hid
      rw [hclient] at hid
      rw [Phase.requestId?_afterExecute hphase hid]
      rfl

theorem status (h : s.IsNamed last) {session : Session σ} {id : String}
    (hlive : s.client = .live session) (hid : session.phase.requestId? = some id)
    (deadline : Option Deadline) :
    (exchange t deadline s session (.status id) (session.phase.afterStatus id)).2.IsNamed last := by
  apply isNamed_exchange
  intro reply other hother
  rw [Phase.requestId?_afterStatus hid hother]
  exact h id (by rw [hlive]; exact hid)

theorem fetchResult (h : s.IsNamed last) {session : Session σ} (hlive : s.client = .live session)
    (id : String) :
    (exchange t none s session (.fetchResult id) session.phase.afterFetch).2.IsNamed last := by
  apply isNamed_exchange
  intro reply other hother
  exact h other (by rw [hlive]; exact Phase.requestId?_afterFetch hother)

theorem wait (h : s.IsNamed last) (polls : Nat) (policy : PollPolicy) (cancel : Option Nat) :
    (s.wait t polls policy cancel).2.IsNamed last :=
  wait_keeps (I := IsNamed last)
    (fun _ _ _ deadline hs hlive hid _ => hs.status hlive hid deadline)
    (fun _ _ _ => .of_idle rfl) (fun _ _ hs => hs) polls policy cancel h

theorem getResults (h : s.IsNamed last) : (s.getResults t).2.IsNamed last :=
  getResults_keeps (I := IsNamed last) (fun _ _ id hs hlive _ _ => hs.fetchResult hlive id) h

theorem attach (h : s.IsNamed last) (channel : σ) : (s.attach t channel).2.IsNamed last := by
  rcases attach_cases t channel s with
    ⟨session, -, heq⟩ | ⟨e, s', outcome, -, hidle, -, heq⟩ |
      ⟨reply, backend, s', -, -, -, hclient, -, heq⟩
  · rw [heq]
    exact h
  · rw [heq]
    exact .of_idle hidle
  · rw [heq]
    intro id hid
    rw [hclient] at hid
    cases hid

/-- After a call, the request in flight is the one it submitted, or the one that was in flight. -/
theorem step (h : s.IsNamed last) (call : Call σ) :
    (s.step t call).2.IsNamed ((s.acceptedBy t call).or last) := by
  cases call with
  | attach channel => exact h.attach channel
  | connect policy address dial =>
    rw [TimedClient.step]
    rcases connect_cases t policy address dial s with
      ⟨session, -, heq⟩ | ⟨e, slept, -, heq⟩ | ⟨channel, slept, -, heq⟩
    · rw [heq]
      exact h
    · rw [heq]
      exact h
    · rw [heq]
      exact attach (s := s.pass slept) h channel
  | sleep milliseconds => exact h
  | operate op =>
    cases op with
    | send r => exact h.send r
    | poll =>
      exact pollBefore_keeps (I := IsNamed last)
        (fun _ _ _ deadline hs hlive hid _ => hs.status hlive hid deadline) none h
    | getResults => exact h.getResults
    | wait polls policy cancel => exact h.wait polls policy cancel
    | close =>
      show (s.close t).2.IsNamed last
      unfold TimedClient.close
      cases hclient : s.client with
      | idle => exact h
      | live session => exact .of_idle rfl
    | run polls policy r =>
      show (s.run t polls policy r).2.IsNamed ((s.send t r).1.toOption.or last)
      have hsent := h.send (t := t) r
      rcases run_cases t s polls policy r with
        ⟨e, s₁, hsend, hrun⟩ | ⟨name, s₁, waited, s₂, hsend, hwait, hrest⟩
      · rw [hsend] at hsent ⊢
        rw [hrun]
        exact hsent
      · rw [hsend] at hsent ⊢
        have hwaited := hsent.wait (t := t) polls policy none
        rw [hwait] at hwaited
        rcases hrest with ⟨-, hrun⟩ | ⟨ran, -, -, hrun⟩
        · rw [hrun]
          exact hwaited.getResults
        · rw [hrun]
          exact hwaited

theorem after (h : s.IsNamed last) (calls : List (Call σ)) :
    (s.after t calls).IsNamed ((s.accepted t calls).getLast?.or last) := by
  induction calls generalizing s last with
  | nil => exact h
  | cons call rest ih =>
    rw [after_cons, accepted, List.getLast?_append, Option.or_assoc]
    have hlast : (s.acceptedBy t call).toList.getLast? = s.acceptedBy t call := by
      cases s.acceptedBy t call <;> rfl
    rw [hlast]
    exact ih (h.step call)

end IsNamed

/-! ## Questions and answers -/

/-- All that happens from one state to the next is that the client says `m` on its channel and the
channel answers with `reply`. -/
structure Asked (t : Transport σ) (s s' : TimedClient σ) (m : ClientMessage)
    (reply : ServerMessage) : Prop where
  answered : ∃ channel, s.client.channel? = some channel ∧ (t.call channel m).1.outcome = .ok reply
  logged : ∃ time time', s'.log = .answered time' (.ok reply) :: .sent time m :: s.log

/-- An exchange that succeeds has an answer, and its outcome is what the answer means. -/
theorem asked_of_exchange {deadline : Option Deadline} {session : Session σ} {m : ClientMessage}
    {after : ServerMessage → Except ClientError α × Phase} {a : α}
    (hlive : s.client = .live session)
    (h : (exchange t deadline s session m after).1 = .ok a) :
    ∃ reply, Asked t s (exchange t deadline s session m after).2 m reply ∧
      (after reply).1 = .ok a := by
  rcases exchange_cases t deadline s session m after with
    ⟨d, s', -, -, -, heq⟩ | ⟨e, s', -, -, heq⟩ | ⟨reply, s', hcall, -, ⟨time, hlog⟩, heq⟩
  · rw [heq] at h
    cases h
  · rw [heq] at h
    cases h
  · rw [heq] at h ⊢
    have hchannel : s.client.channel? = some session.channel := by rw [hlive, Client.channel?]
    exact ⟨reply, ⟨⟨session.channel, hchannel, hcall⟩, s.clock, time, hlog⟩, h⟩

end TimedClient

namespace Phase

variable {p : Phase} {id : String} {reply : ServerMessage}

theorem afterStatus_eq_ok {status : PollStatus} (h : (p.afterStatus id reply).1 = .ok status) :
    ∃ other state reason, reply = .status other state reason ∧ state ≠ .failed ∧
      (status = .completed ↔ state = .completed) := by
  cases reply with
  | status other state reason =>
    refine ⟨other, state, reason, rfl, ?_⟩
    cases state with
    | failed => cases h
    | _ =>
      cases h
      simp
  | _ => cases h

theorem afterFetch_eq_ok {result : InferenceResult} (h : (p.afterFetch reply).1 = .ok result) :
    reply = .result result := by
  cases reply with
  | result r =>
    cases h
    rfl
  | _ => cases h

end Phase

/-- A channel that is asked about a request answers, if with a state or a result, about that
request. -/
structure Transport.Echoes (t : Transport σ) : Prop where
  status : ∀ channel id other state reason,
    (t.call channel (.status id)).1.outcome = .ok (.status other state reason) → other = id
  fetchResult : ∀ channel id result,
    (t.call channel (.fetchResult id)).1.outcome = .ok (.result result) → result.requestId = id

/-- What was said on a channel was said to it in some state, and the reply is its answer. -/
theorem Carries.exists_call {t : Transport σ} {first last : σ} {past : List Exchange}
    (h : Carries t first past last) {x : Exchange} (hx : x ∈ past) :
    ∃ channel, (t.call channel x.message).1.outcome = .ok x.reply := by
  induction past generalizing first with
  | nil => cases hx
  | cons y rest ih =>
    rcases List.mem_cons.1 hx with rfl | hx
    · exact ⟨first, h.1⟩
    · exact ih h.2 hx

/-- The exchange is in the trace, and its reply is an answer of a channel. -/
structure Exchange.TookPlace (t : Transport σ) (trace : List Event) (x : Exchange) : Prop where
  answered : ∃ channel, (t.call channel x.message).1.outcome = .ok x.reply
  traced : x.events <:+: trace

theorem Spoken.tookPlace {t : Transport σ} {trace : List Event} {past : List Exchange} {channel : σ}
    (h : Spoken t trace past channel) {x : Exchange} (hx : x ∈ past) : x.TookPlace t trace := by
  obtain ⟨before, first, rfl, hcarries⟩ := h
  refine ⟨hcarries.exists_call hx, ?_⟩
  obtain ⟨earlier, later, rfl⟩ := List.append_of_mem hx
  exact ⟨before ++ .opened :: earlier.flatMap Exchange.events, later.flatMap Exchange.events,
    by simp⟩

namespace TimedClient

variable {t : Transport σ} {s : TimedClient σ}

/-- A client that takes its request for completed was told so when it asked for the state of it. -/
theorem told_of_isCompleted (hs : s.IsDisciplined t) {id : String}
    (hid : s.client.requestId? = some id) (hcompleted : s.client.isCompleted = true) :
    ∃ x : Exchange, x.TellsCompleted id ∧ x.TookPlace t s.trace := by
  cases hclient : s.client with
  | idle =>
    rw [hclient] at hid
    cases hid
  | live session =>
    rw [hclient] at hid hcompleted
    obtain ⟨past, hspoken, hfollows⟩ := hs.live session hclient
    obtain ⟨since, ⟨earlier, x₀, rfl, -, -⟩, htold⟩ := hfollows.inFlight id hid
    obtain ⟨x, hx, htells⟩ := htold.1 hcompleted
    exact ⟨x, htells, hspoken.tookPlace (by simp [hx])⟩

/-- A poll that succeeds knows already that the request in flight is completed, or asks for that
request and is answered with a state. -/
theorem asked_of_poll {status : PollStatus} (h : (s.poll t).1 = .ok status) :
    ∃ id, s.client.requestId? = some id ∧
      (s.client.isCompleted = true ∧ status = .completed ∧ (s.poll t).2 = s ∨
        ∃ other state reason, Asked t s (s.poll t).2 (.status id) (.status other state reason) ∧
          state ≠ .failed ∧ (status = .completed ↔ state = .completed)) := by
  unfold poll pollBefore at h ⊢
  cases hflight : s.inFlight "poll" with
  | error e =>
    rw [hflight] at h
    cases h
  | ok found =>
    obtain ⟨session, id⟩ := found
    obtain ⟨hlive, hid⟩ := inFlight_eq_ok hflight
    rw [hflight] at h
    refine ⟨id, by rw [hlive]; exact hid, ?_⟩
    dsimp only at h ⊢
    split_ifs at h ⊢ with hcompleted
    · cases h
      exact Or.inl ⟨by rw [hlive]; exact hcompleted, rfl, rfl⟩
    · obtain ⟨reply, hasked, hreply⟩ := asked_of_exchange hlive h
      obtain ⟨other, state, reason, rfl, hstate⟩ := Phase.afterStatus_eq_ok hreply
      exact Or.inr ⟨other, state, reason, hasked, hstate⟩

/-- A result that is got is the answer to the question for the result of the request in flight. -/
theorem asked_of_getResults {result : InferenceResult} (h : (s.getResults t).1 = .ok result) :
    ∃ id, s.client.requestId? = some id ∧
      Asked t s (s.getResults t).2 (.fetchResult id) (.result result) := by
  rcases getResults_cases t s with ⟨e, heq, -⟩ | ⟨session, id, hlive, hid, -, heq⟩
  · rw [heq] at h
    cases h
  · rw [heq] at h ⊢
    obtain ⟨reply, hasked, hreply⟩ := asked_of_exchange hlive h
    obtain rfl := Phase.afterFetch_eq_ok hreply
    exact ⟨id, by rw [hlive]; exact hid, hasked⟩

/-- The result of a run is the answer to the question for the result of the request it submitted. -/
theorem asked_of_run {polls : Nat} {policy : PollPolicy} {r : Request} {result : InferenceResult}
    (h : (s.run t polls policy r).1 = .returned (.ok result)) :
    ∃ id s', (s.send t r).1 = .ok id ∧
      Asked t s' (s.run t polls policy r).2 (.fetchResult id) (.result result) := by
  have hsent : (s.send t r).2.IsNamed ((s.send t r).1.toOption.or s.client.requestId?) :=
    IsNamed.send (fun _ hid => hid) r
  rcases run_cases t s polls policy r with
    ⟨e, s₁, -, hrun⟩ | ⟨id, s₁, waited, s₂, hsend, hwait, ⟨-, hrun⟩ | ⟨ran, -, hran, hrun⟩⟩
  · rw [hrun] at h
    cases h
  · rw [hsend] at hsent
    have hwaited := hsent.wait (t := t) polls policy none
    rw [hwait] at hwaited
    rw [hrun] at h ⊢
    obtain ⟨id', hid', hasked⟩ := asked_of_getResults (Progress.returned.inj h)
    obtain rfl : id = id' := Option.some.inj (hwaited id' hid')
    exact ⟨id, s₂, by rw [hsend], hasked⟩
  · rw [hrun] at h
    exact absurd h (hran result)

end TimedClient

/-! ## Names in replies -/

/-- A reply without the names of requests in a state or a result. -/
def ServerMessage.unnamed : ServerMessage → ServerMessage
  | .status _ state reason => .status "" state reason
  | .result r => .result ⟨"", r.outputs⟩
  | other => other

theorem backendOfGreeting_unnamed (reply : ServerMessage) :
    backendOfGreeting reply.unnamed = backendOfGreeting reply := by
  cases reply <;> rfl

namespace Phase

variable (p : Phase) (id : String) (reply : ServerMessage)

theorem afterExecute_unnamed : p.afterExecute reply.unnamed = p.afterExecute reply := by
  cases reply <;> rfl

theorem afterStatus_unnamed : p.afterStatus id reply.unnamed = p.afterStatus id reply := by
  cases reply with
  | status other state reason => cases state <;> rfl
  | _ => rfl

theorem afterFetch_unnamed :
    (p.afterFetch reply.unnamed).1.map (·.outputs) = (p.afterFetch reply).1.map (·.outputs) ∧
      (p.afterFetch reply.unnamed).2 = (p.afterFetch reply).2 := by
  cases reply <;> exact ⟨rfl, rfl⟩

end Phase

/-- Two transports differ in nothing but the names of requests in states and results. -/
structure Transport.Alike (t t' : Transport σ) : Prop where
  delay : ∀ channel m, (t.call channel m).1.delay = (t'.call channel m).1.delay
  outcome : ∀ channel m, (t.call channel m).1.outcome.map ServerMessage.unnamed =
    (t'.call channel m).1.outcome.map ServerMessage.unnamed
  channel : ∀ channel m, (t.call channel m).2 = (t'.call channel m).2
  notify : ∀ channel m, t.notify channel m = t'.notify channel m

/-- A message fails alike on both sides, or is answered by replies that differ in names only. -/
theorem Transport.Alike.call_cases {t t' : Transport σ} (ht : t.Alike t') (channel : σ)
    (m : ClientMessage) :
    (∃ delay e next, t.call channel m = (⟨delay, .error e⟩, next) ∧
      t'.call channel m = (⟨delay, .error e⟩, next)) ∨
    ∃ delay reply reply' next, t.call channel m = (⟨delay, .ok reply⟩, next) ∧
      t'.call channel m = (⟨delay, .ok reply'⟩, next) ∧ reply.unnamed = reply'.unnamed := by
  have hdelay := ht.delay channel m
  have houtcome := ht.outcome channel m
  have hnext := ht.channel channel m
  generalize t.call channel m = called at hdelay houtcome hnext ⊢
  generalize t'.call channel m = called' at hdelay houtcome hnext ⊢
  obtain ⟨⟨delay, outcome⟩, next⟩ := called
  obtain ⟨⟨delay', outcome'⟩, next'⟩ := called'
  obtain rfl : delay = delay' := hdelay
  obtain rfl : next = next' := hnext
  rcases outcome with e | reply <;> rcases outcome' with e' | reply'
  · obtain rfl := Except.error.inj houtcome
    exact Or.inl ⟨delay, e, next, rfl, rfl⟩
  · cases houtcome
  · cases houtcome
  · exact Or.inr ⟨delay, reply, reply', next, rfl, rfl, Except.ok.inj houtcome⟩

namespace TimedClient

variable {t t' : Transport σ} {s s' : TimedClient σ}

/-- The same client at the same time. -/
structure Same (s s' : TimedClient σ) : Prop where
  client : s.client = s'.client
  clock : s.clock = s'.clock

/-- Two operations have the same outcome, seen through `f`, and leave the same client at the same
time. -/
structure Alike (f : α → β) (o o' : α × TimedClient σ) : Prop where
  result : f o.1 = f o'.1
  same : Same o.2 o'.2

theorem Alike.eq {o o' : α × TimedClient σ} (h : Alike id o o') : o.1 = o'.1 := h.result

namespace Same

theorem exchange (h : Same s s') (ht : t.Alike t') (deadline : Option Deadline)
    (session : Session σ) (m : ClientMessage)
    {after : ServerMessage → Except ClientError α × Phase} {f : Except ClientError α → β}
    (hafter : ∀ reply, f (after reply.unnamed).1 = f (after reply).1 ∧
      (after reply.unnamed).2 = (after reply).2) :
    Alike f (exchange t deadline s session m after) (exchange t' deadline s' session m after) := by
  unfold TimedClient.exchange
  rcases ht.call_cases session.channel m with
    ⟨delay, e, next, hcall, hcall'⟩ | ⟨delay, reply, reply', next, hcall, hcall', hreply⟩
  · simp only [hcall, hcall', record, pass, h.clock]
    cases Deadline.strikesBefore deadline (s'.clock + delay) <;> exact ⟨rfl, rfl, rfl⟩
  · simp only [hcall, hcall', record, pass, h.clock]
    cases Deadline.strikesBefore deadline (s'.clock + delay) with
    | some d => exact ⟨rfl, rfl, rfl⟩
    | none =>
      -- What the two replies mean is what they mean without their names.
      obtain ⟨hresult, hphase⟩ := hafter reply
      obtain ⟨hresult', hphase'⟩ := hafter reply'
      rw [hreply] at hresult hphase
      refine ⟨hresult.symm.trans hresult', ?_, rfl⟩
      show Client.live _ = Client.live _
      rw [← hphase, ← hphase']

theorem inFlight (h : Same s s') (operation : String) :
    s.inFlight operation = s'.inFlight operation := by
  unfold TimedClient.inFlight
  rw [h.client]

theorem attach (h : Same s s') (ht : t.Alike t') (channel : σ) :
    Alike id (s.attach t channel) (s'.attach t' channel) := by
  unfold TimedClient.attach
  rw [← h.client]
  cases hclient : s.client with
  | live session => exact ⟨rfl, h⟩
  | idle =>
    rcases ht.call_cases channel greeting with
      ⟨delay, e, next, hcall, hcall'⟩ | ⟨delay, reply, reply', next, hcall, hcall', hreply⟩
    · simp only [hcall, hcall', record, pass, h.clock]
      exact ⟨rfl, h.client, rfl⟩
    · have hbackend : backendOfGreeting reply = backendOfGreeting reply' := by
        rw [← backendOfGreeting_unnamed, hreply, backendOfGreeting_unnamed]
      simp only [hcall, hcall', record, pass, h.clock, hbackend]
      cases backendOfGreeting reply' with
      | error fault => exact ⟨rfl, h.client, rfl⟩
      | ok backend => exact ⟨rfl, rfl, rfl⟩

theorem connect (h : Same s s') (ht : t.Alike t') (policy : RetryPolicy) (address : String)
    (dial : Nat → Except String σ) :
    Alike id (s.connect t policy address dial) (s'.connect t' policy address dial) := by
  unfold TimedClient.connect
  rw [← h.client]
  cases hclient : s.client with
  | live session => exact ⟨rfl, h⟩
  | idle =>
    have hpass : Same (s.pass (policy.run address dial).slept)
        (s'.pass (policy.run address dial).slept) :=
      ⟨h.client, congrArg (· + (policy.run address dial).slept) h.clock⟩
    dsimp only
    cases (policy.run address dial).result with
    | error e => exact ⟨rfl, hpass⟩
    | ok channel => exact hpass.attach ht channel

theorem send (h : Same s s') (ht : t.Alike t') (r : Request) :
    Alike id (s.send t r) (s'.send t' r) := by
  unfold TimedClient.send
  rw [← h.client]
  cases s.client with
  | idle => exact ⟨rfl, h⟩
  | live session =>
    dsimp only
    split_ifs
    · exact ⟨rfl, h⟩
    · cases r.validate with
      | error e => exact ⟨rfl, h⟩
      | ok _ =>
        apply h.exchange ht
        intro reply
        rw [Phase.afterExecute_unnamed]
        exact ⟨rfl, rfl⟩

theorem pollBefore (h : Same s s') (ht : t.Alike t') (deadline : Option Deadline) :
    Alike id (s.pollBefore t deadline) (s'.pollBefore t' deadline) := by
  unfold TimedClient.pollBefore
  rw [← h.inFlight]
  cases s.inFlight "poll" with
  | error e => exact ⟨rfl, h⟩
  | ok found =>
    dsimp only
    split_ifs
    · exact ⟨rfl, h⟩
    · apply h.exchange ht
      intro reply
      rw [Phase.afterStatus_unnamed]
      exact ⟨rfl, rfl⟩

theorem getResults (h : Same s s') (ht : t.Alike t') :
    Alike (Except.map InferenceResult.outputs) (s.getResults t) (s'.getResults t') := by
  unfold TimedClient.getResults
  rw [← h.inFlight]
  cases s.inFlight "get_results" with
  | error e => exact ⟨rfl, h⟩
  | ok found =>
    dsimp only
    split_ifs
    · exact h.exchange ht none _ _ (Phase.afterFetch_unnamed _)
    · exact ⟨rfl, h⟩

theorem waitFrom (h : Same s s') (ht : t.Alike t') (interval : Nat) (deadline : Option Deadline)
    (polls due : Nat) :
    Alike id (waitFrom t interval deadline polls due s)
      (waitFrom t' interval deadline polls due s') := by
  induction polls generalizing due s s' with
  | zero => exact ⟨rfl, h⟩
  | succ polls ih =>
    unfold TimedClient.waitFrom
    dsimp only
    rw [← h.clock]
    cases Deadline.strikesBefore deadline (max due s.clock) with
    | some d => exact ⟨rfl, rfl, rfl⟩
    | none =>
      have hlate : Same { s with clock := max due s.clock } { s' with clock := max due s.clock } :=
        ⟨h.client, rfl⟩
      have hpolled := hlate.pollBefore ht deadline
      dsimp only
      generalize TimedClient.pollBefore t deadline { s with clock := max due s.clock } = polled
        at hpolled ⊢
      generalize TimedClient.pollBefore t' deadline { s' with clock := max due s.clock } = polled'
        at hpolled ⊢
      obtain ⟨result, s₁⟩ := polled
      obtain ⟨result', s₁'⟩ := polled'
      obtain rfl : result = result' := hpolled.eq
      cases result with
      | error e => exact ⟨rfl, hpolled.same⟩
      | ok status =>
        cases status with
        | completed => exact ⟨rfl, hpolled.same⟩
        | pending => exact ih hpolled.same _

theorem wait (h : Same s s') (ht : t.Alike t') (polls : Nat) (policy : PollPolicy)
    (cancel : Option Nat) :
    Alike id (s.wait t polls policy cancel) (s'.wait t' polls policy cancel) := by
  unfold TimedClient.wait
  rw [← h.inFlight]
  cases s.inFlight "wait_for_completion" with
  | error e => exact ⟨rfl, h⟩
  | ok found =>
    simp only [deadlineIn, ← h.clock]
    split_ifs
    · exact ⟨rfl, h⟩
    · exact h.waitFrom ht _ _ _ _

theorem run (h : Same s s') (ht : t.Alike t') (polls : Nat) (policy : PollPolicy) (r : Request) :
    Alike (Progress.map InferenceResult.outputs) (s.run t polls policy r)
      (s'.run t' polls policy r) := by
  have hsent := h.send ht r
  unfold TimedClient.run
  generalize s.send t r = sent at hsent ⊢
  generalize s'.send t' r = sent' at hsent ⊢
  obtain ⟨result, s₁⟩ := sent
  obtain ⟨result', s₁'⟩ := sent'
  obtain rfl : result = result' := hsent.eq
  cases result with
  | error e => exact ⟨rfl, hsent.same⟩
  | ok id =>
    have hwaited := hsent.same.wait ht polls policy none
    dsimp only at hwaited ⊢
    generalize s₁.wait t polls policy none = waited at hwaited ⊢
    generalize s₁'.wait t' polls policy none = waited' at hwaited ⊢
    obtain ⟨progress, s₂⟩ := waited
    obtain ⟨progress', s₂'⟩ := waited'
    obtain rfl : progress = progress' := hwaited.eq
    obtain (_ | _) | _ | _ := progress
    · exact ⟨rfl, hwaited.same⟩
    · obtain ⟨hresult, hsame⟩ := hwaited.same.getResults ht
      exact ⟨congrArg Progress.returned hresult, hsame⟩
    · exact ⟨rfl, hwaited.same⟩
    · exact ⟨rfl, hwaited.same⟩

theorem close (h : Same s s') (ht : t.Alike t') : Alike id (s.close t) (s'.close t') := by
  unfold TimedClient.close
  rw [← h.client]
  cases s.client with
  | idle => exact ⟨rfl, h⟩
  | live session =>
    dsimp only
    rw [ht.notify]
    exact ⟨rfl, rfl, h.clock⟩

/-- A call has the same error, if any, on both sides, and leaves the same client at the same
time. -/
theorem step (h : Same s s') (ht : t.Alike t') (call : Call σ) :
    Alike id (s.step t call) (s'.step t' call) := by
  have of_eq : ∀ {α : Type} {o o' : Except ClientError α × TimedClient σ}, Alike id o o' →
      Alike id (failure? o.1, o.2) (failure? o'.1, o'.2) :=
    fun h => ⟨congrArg failure? h.eq, h.same⟩
  cases call with
  | attach channel => exact of_eq (h.attach ht channel)
  | connect policy address dial => exact of_eq (h.connect ht policy address dial)
  | sleep milliseconds => exact ⟨rfl, h.client, congrArg (· + sleepLength milliseconds) h.clock⟩
  | operate op =>
    cases op with
    | send r => exact of_eq (h.send ht r)
    | poll => exact of_eq (h.pollBefore ht none)
    | getResults =>
      obtain ⟨hresult, hsame⟩ := h.getResults ht
      have hfailure := congrArg failure? hresult
      rw [failure?_map, failure?_map] at hfailure
      exact ⟨hfailure, hsame⟩
    | wait polls policy cancel =>
      obtain ⟨hresult, hsame⟩ := h.wait ht polls policy cancel
      exact ⟨congrArg Progress.failure? hresult, hsame⟩
    | run polls policy r =>
      obtain ⟨hresult, hsame⟩ := h.run ht polls policy r
      have hfailure := congrArg Progress.failure? hresult
      rw [Progress.failure?_map, Progress.failure?_map] at hfailure
      exact ⟨hfailure, hsame⟩
    | close => exact of_eq (h.close ht)

theorem after (h : Same s s') (ht : t.Alike t') (calls : List (Call σ)) :
    Same (s.after t calls) (s'.after t' calls) := by
  induction calls generalizing s s' with
  | nil => exact h
  | cons call rest ih => exact ih (h.step ht call).same

theorem acceptedBy (h : Same s s') (ht : t.Alike t') (call : Call σ) :
    s'.acceptedBy t' call = s.acceptedBy t call := by
  unfold TimedClient.acceptedBy
  split
  · rw [(h.send ht _).eq]
  · rw [(h.send ht _).eq]
  · rfl

/-- The requests that are accepted have the same names on both sides. -/
theorem accepted (h : Same s s') (ht : t.Alike t') (calls : List (Call σ)) :
    s'.accepted t' calls = s.accepted t calls := by
  induction calls generalizing s s' with
  | nil => rfl
  | cons call rest ih =>
    rw [TimedClient.accepted, TimedClient.accepted, h.acceptedBy ht, ih (h.step ht call).same]

end Same

/-! ## What is reported of a request -/

/-- What a poll reports is an answer to the question for the state of the request in flight: one
that it is given now, or one that was given before and said that the request is completed. -/
theorem poll_of_isDisciplined (hs : s.IsDisciplined t) {status : PollStatus}
    (h : (s.poll t).1 = .ok status) :
    ∃ id other state reason, s.client.requestId? = some id ∧ state ≠ .failed ∧
      (status = .completed ↔ state = .completed) ∧ (t.Echoes → other = id) ∧
      (Asked t s (s.poll t).2 (.status id) (.status other state reason) ∨
        (s.poll t).2 = s ∧ state = .completed ∧ ∃ time time', Exchange.TookPlace t s.trace
          ⟨time, .status id, time', .status other state reason⟩) := by
  obtain ⟨id, hid, ⟨hcompleted, rfl, hsame⟩ | ⟨other, state, reason, hasked, hfailed, hstatus⟩⟩ :=
    asked_of_poll h
  · obtain ⟨⟨time, m, time', reply⟩, ⟨hm, other, reason, hreply⟩, htook⟩ :=
      told_of_isCompleted hs hid hcompleted
    obtain rfl : m = .status id := hm
    obtain rfl : reply = .status other .completed reason := hreply
    refine ⟨id, other, .completed, reason, hid, nofun, ⟨fun _ => rfl, fun _ => rfl⟩, ?_,
      Or.inr ⟨hsame, rfl, time, time', htook⟩⟩
    intro hechoes
    obtain ⟨channel, hcall⟩ := htook.answered
    exact hechoes.status channel id other .completed reason hcall
  · refine ⟨id, other, state, reason, hid, hfailed, hstatus, ?_, Or.inl hasked⟩
    intro hechoes
    obtain ⟨channel, -, hcall⟩ := hasked.answered
    exact hechoes.status channel id other state reason hcall

/-- A result that is an answer to the question for it has the name that was asked for, if the
channel answers to the point. -/
theorem Asked.requestId_eq {id : String} {result : InferenceResult}
    (h : Asked t s s' (.fetchResult id) (.result result)) (hechoes : t.Echoes) :
    result.requestId = id := by
  obtain ⟨channel, -, hcall⟩ := h.answered
  exact hechoes.fetchResult channel id result hcall

/-- Whatever was called before, and whatever the channels answer: what is reported of a request is
the answer to the question for the request that was accepted last, and has its name if the channel
answers to the point.  The name is not looked at, so that on a channel that gives other names in
states and results every call has the same outcome and leaves the same client, but for the name in a
result. -/
theorem attributed_after (t : Transport σ) (calls : List (Call σ)) :
    let s := initial.after t calls
    let last := (initial.accepted t calls).getLast?
    (∀ status, (s.poll t).1 = .ok status →
      ∃ id other state reason, last = some id ∧ state ≠ .failed ∧
        (status = .completed ↔ state = .completed) ∧ (t.Echoes → other = id) ∧
        (Asked t s (s.poll t).2 (.status id) (.status other state reason) ∨
          (s.poll t).2 = s ∧ state = .completed ∧ ∃ time time', Exchange.TookPlace t s.trace
            ⟨time, .status id, time', .status other state reason⟩)) ∧
    (∀ result, (s.getResults t).1 = .ok result →
      ∃ id, last = some id ∧ (t.Echoes → result.requestId = id) ∧
        Asked t s (s.getResults t).2 (.fetchResult id) (.result result)) ∧
    (∀ polls policy r result, (s.run t polls policy r).1 = .returned (.ok result) →
      ∃ id s', (s.send t r).1 = .ok id ∧ (t.Echoes → result.requestId = id) ∧
        Asked t s' (s.run t polls policy r).2 (.fetchResult id) (.result result)) ∧
    ∀ t', t.Alike t' →
      let s' := initial.after t' calls
      Same s s' ∧ initial.accepted t' calls = initial.accepted t calls ∧
        (∀ call, Alike id (s.step t call) (s'.step t' call)) ∧
        (∀ r, Alike id (s.send t r) (s'.send t' r)) ∧
        Alike id (s.poll t) (s'.poll t') ∧
        Alike (Except.map InferenceResult.outputs) (s.getResults t) (s'.getResults t') ∧
        (∀ polls policy cancel,
          Alike id (s.wait t polls policy cancel) (s'.wait t' polls policy cancel)) ∧
        ∀ polls policy r, Alike (Progress.map InferenceResult.outputs) (s.run t polls policy r)
          (s'.run t' polls policy r) := by
  intro s last
  have hnamed : s.IsNamed last := by
    have hidle : (initial : TimedClient σ).IsNamed none := .of_idle rfl
    have hafter := hidle.after (t := t) calls
    rwa [Option.or_none] at hafter
  refine ⟨?_, ?_, ?_, ?_⟩
  · intro status h
    obtain ⟨id, other, state, reason, hid, hreport⟩ :=
      poll_of_isDisciplined (IsDisciplined.initial.after calls) h
    exact ⟨id, other, state, reason, hnamed id hid, hreport⟩
  · intro result h
    obtain ⟨id, hid, hasked⟩ := asked_of_getResults h
    exact ⟨id, hnamed id hid, hasked.requestId_eq, hasked⟩
  · intro polls policy r result h
    obtain ⟨id, s', hsend, hasked⟩ := asked_of_run h
    exact ⟨id, s', hsend, hasked.requestId_eq, hasked⟩
  · intro t' ht s'
    have hinitial : Same (initial : TimedClient σ) initial := ⟨rfl, rfl⟩
    have hsame : Same s s' := hinitial.after ht calls
    exact ⟨hsame, hinitial.accepted ht calls, hsame.step ht, hsame.send ht,
      hsame.pollBefore ht none, hsame.getResults ht, hsame.wait ht, hsame.run ht⟩

end TimedClient

/-- A channel on which every request is accepted as `"A"` and completed at once, without an output.
Its states and results give `name id` for the request `id`. -/
def Transport.completing (name : String → String) : Transport Unit where
  call _ m :=
    let reply : ServerMessage := match m with
      | .hello _ => .hello protocolVersion "echo"
      | .execute _ => .accepted "A"
      | .status id => .status (name id) .completed none
      | .fetchResult id => .result ⟨name id, .empty⟩
      | .goodbye => .error "goodbye"
    (⟨0, .ok reply⟩, ())
  notify _ _ := (.ok (), ())

namespace Transport

theorem echoes_completing : (completing id).Echoes where
  status _ _ _ _ _ h := by
    cases h
    rfl
  fetchResult _ _ _ h := by
    cases h
    rfl

theorem alike_completing (name name' : String → String) :
    (completing name).Alike (completing name') where
  delay _ _ := rfl
  outcome _ m := by cases m <;> rfl
  channel _ _ := rfl
  notify _ _ := rfl

end Transport

namespace TimedClient

/-- A poll that reports the state of `"A"`, and does so too where replies are about `"B"`. -/
theorem attributed_completing :
    let r : Request := ⟨1, NameMap.empty.insert "x" (.real []), .empty, .empty, .empty, none⟩
    let calls : List (Call Unit) := [.attach (), .operate (.send r)]
    let s := initial.after (.completing id) calls
    let s' := initial.after (.completing fun _ => "B") calls
    (s.poll (.completing id)).1 = .ok .completed ∧
      (∃ state reason, Asked (.completing id) s (s.poll (.completing id)).2 (.status "A")
        (.status "A" state reason)) ∧
      Alike id (s.poll (.completing id)) (s'.poll (.completing fun _ => "B")) := by
  intro r calls s s'
  obtain ⟨hpoll, -, -, halike⟩ := attributed_after (.completing id) calls
  have hcompleted : (s.poll (.completing id)).1 = .ok .completed := rfl
  obtain ⟨name, other, state, reason, hlast, -, -, hother, hasked⟩ := hpoll .completed hcompleted
  obtain rfl : "A" = name := Option.some.inj hlast
  obtain rfl : other = "A" := hother Transport.echoes_completing
  refine ⟨hcompleted, ⟨state, reason, hasked.resolve_right ?_⟩, ?_⟩
  · rintro ⟨hsame, -⟩
    have hlog : (s.poll (.completing id)).2.log.length = s.log.length := by rw [hsame]
    exact absurd hlog (by decide)
  · obtain ⟨-, -, -, -, hpolled, -⟩ :=
      halike (.completing fun _ => "B") (Transport.alike_completing _ _)
    exact hpolled

/-- The client takes what it is told of another request for the state and the result of its own. -/
theorem getResults_of_other :
    let script : Script := ⟨[⟨0, .ok (.hello protocolVersion "echo")⟩, ⟨0, .ok (.accepted "job-1")⟩,
      ⟨0, .ok (.status "job-2" .completed none)⟩, ⟨0, .ok (.result ⟨"job-2", .empty⟩)⟩], none, true⟩
    let r : Request := ⟨1, NameMap.empty.insert "x" (.real []), .empty, .empty, .empty, none⟩
    let calls : List (Call Script) := [.attach script, .operate (.send r)]
    let s := initial.after Script.transport calls
    let polled := s.poll Script.transport
    (initial.accepted Script.transport calls).getLast? = some "job-1" ∧
      polled.1 = .ok .completed ∧
      Asked Script.transport s polled.2 (.status "job-1") (.status "job-2" .completed none) ∧
      (polled.2.getResults Script.transport).1 = .ok ⟨"job-2", .empty⟩ := by
  refine ⟨rfl, rfl, ⟨⟨_, rfl, rfl⟩, 0, 0, rfl⟩, rfl⟩

end TimedClient

end EncryptedInference
