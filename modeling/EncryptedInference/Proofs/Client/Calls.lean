import EncryptedInference.Proofs.Client.Operations

/-!
# Sequences of calls

A client is called again and again, to take over a channel or to do something with its session.
Whatever its exchanges, the end of a session and the passing of time keep is kept by every call
(`TimedClient.step_keeps`), so the log only grows.  A call that ends a session leaves the client
idle (`TimedClient.idle_of_endsAt`), and nothing happens then until a new channel is opened
(`TimedClient.opened_of_idle`).
-/

namespace EncryptedInference

/-- What a client can be called to do, or its user in between. -/
inductive Call (σ : Type)
  | attach (channel : σ)
  | connect (policy : RetryPolicy) (address : String) (dial : Nat → Except String σ)
  | operate (op : Operation)
  | sleep (milliseconds : Nat)

namespace ClientError

/-- The error comes with the end of the session. -/
def EndsSession : ClientError → Prop
  | connection _ | timeout _ | cancelled => True
  | _ => False

theorem IsOfReply.not_endsSession {e : ClientError} (h : e.IsOfReply) : ¬ e.EndsSession := by
  cases e with
  | remote message => exact fun h => h
  | unexpectedResponse expected got => exact fun h => h
  | _ => cases h

end ClientError

namespace TimedClient

variable {σ α : Type} {t : Transport σ} {s : TimedClient σ}

/-- A call takes place: its error, if it fails, and the client after it. -/
def step (t : Transport σ) (s : TimedClient σ) : Call σ → Option ClientError × TimedClient σ
  | .attach channel => (failure? (s.attach t channel).1, (s.attach t channel).2)
  | .connect policy address dial =>
    (failure? (s.connect t policy address dial).1, (s.connect t policy address dial).2)
  | .operate op => s.perform t op
  | .sleep milliseconds => (none, s.sleep milliseconds)

/-- The client after calls. -/
def after (t : Transport σ) (s : TimedClient σ) (calls : List (Call σ)) : TimedClient σ :=
  calls.foldl (fun s call => (s.step t call).2) s

@[simp] theorem after_append (t : Transport σ) (s : TimedClient σ) (first rest : List (Call σ)) :
    s.after t (first ++ rest) = (s.after t first).after t rest :=
  List.foldl_append

@[simp] theorem after_cons (t : Transport σ) (s : TimedClient σ) (call : Call σ)
    (rest : List (Call σ)) : s.after t (call :: rest) = (s.step t call).2.after t rest :=
  rfl

/-! ## What every call keeps -/

section

variable {I : TimedClient σ → Prop}
  (hattach : ∀ s channel, I s → I (s.attach t channel).2)
  (hexecute : ∀ s session r, I s → s.client = .live session → session.phase.requestId? = none →
    r.validate = .ok () →
    I (exchange t none s session (.execute r) session.phase.afterExecute).2)
  (hstatus : ∀ s session id deadline, I s → s.client = .live session →
    session.phase.requestId? = some id → session.phase.isCompleted = false →
    I (exchange t deadline s session (.status id) (session.phase.afterStatus id)).2)
  (hfetch : ∀ s session id, I s → s.client = .live session → session.phase.requestId? = some id →
    session.phase.isCompleted = true →
    I (exchange t none s session (.fetchResult id) session.phase.afterFetch).2)
  (hgoodbye : ∀ s session, I s → s.client = .live session →
    I (s.record (.sent s.clock .goodbye)).abandon)
  (habandon : ∀ s clock, I s → I { s.abandon with clock })
  (hclock : ∀ s clock, I s → I { s with clock })

include hexecute in
theorem send_keeps (r : Request) (hs : I s) : I (s.send t r).2 := by
  rcases send_cases t s r with ⟨e, heq, -⟩ | ⟨session, hlive, hphase, hvalid, heq⟩
  · rw [heq]
    exact hs
  · rw [heq]
    exact hexecute s session r hs hlive hphase hvalid

include hstatus in
theorem pollBefore_keeps (deadline : Option Deadline) (hs : I s) :
    I (s.pollBefore t deadline).2 := by
  rcases pollBefore_cases t deadline s with
    ⟨result, heq, -⟩ | ⟨session, id, hlive, hphase, hcompleted, heq⟩
  · rw [heq]
    exact hs
  · rw [heq]
    exact hstatus s session id deadline hs hlive hphase hcompleted

include hfetch in
theorem getResults_keeps (hs : I s) : I (s.getResults t).2 := by
  rcases getResults_cases t s with ⟨e, heq, -⟩ | ⟨session, id, hlive, hphase, hcompleted, heq⟩
  · rw [heq]
    exact hs
  · rw [heq]
    exact hfetch s session id hs hlive hphase hcompleted

include hstatus habandon hclock in
theorem wait_keeps (polls : Nat) (policy : PollPolicy) (cancel : Option Nat) (hs : I s) :
    I (s.wait t polls policy cancel).2 := by
  rcases wait_cases t s polls policy cancel with ⟨e, heq, -⟩ | ⟨-, heq⟩ | ⟨deadline, -, heq⟩
  · rw [heq]
    exact hs
  · rw [heq]
    exact hs
  · rw [heq]
    refine waitFrom_elim (I := I) (P := fun o => I o.2) ?_ hclock ?_ (fun _ hs => hs) _ _ _ hs
    · intro s s' result hs heq
      have hkeep := pollBefore_keeps hstatus deadline hs
      rw [heq] at hkeep
      cases result with
      | error e => exact hkeep
      | ok status => cases status <;> exact hkeep
    · intro s d clock _ hs
      exact habandon s clock hs

include hattach hexecute hstatus hfetch hgoodbye habandon hclock in
/-- What the exchanges of a client keep, and attaching, leaving and the passing of time, every call
keeps. -/
theorem step_keeps (call : Call σ) (hs : I s) : I (s.step t call).2 := by
  cases call with
  | attach channel => exact hattach s channel hs
  | connect policy address dial =>
    rw [step]
    rcases connect_cases t policy address dial s with
      ⟨session, -, heq⟩ | ⟨e, slept, -, heq⟩ | ⟨channel, slept, -, heq⟩
    · rw [heq]
      exact hs
    · rw [heq]
      exact hclock s _ hs
    · rw [heq]
      exact hattach _ channel (hclock s _ hs)
  | sleep milliseconds => exact hclock s _ hs
  | operate op =>
    cases op with
    | send r => exact send_keeps hexecute r hs
    | poll => exact pollBefore_keeps hstatus none hs
    | getResults => exact getResults_keeps hfetch hs
    | wait polls policy cancel => exact wait_keeps hstatus habandon hclock polls policy cancel hs
    | close =>
      show I (s.close t).2
      unfold close
      cases hclient : s.client with
      | idle => exact hs
      | live session => exact hgoodbye s session hs hclient
    | run polls policy r =>
      show I (s.run t polls policy r).2
      unfold run
      have hsent := send_keeps hexecute r hs
      generalize s.send t r = sent at hsent
      obtain ⟨_ | _, s₁⟩ := sent
      · exact hsent
      · have hwaited := wait_keeps hstatus habandon hclock polls policy none hsent
        dsimp only at hwaited ⊢
        generalize s₁.wait t polls policy none = waited at hwaited
        obtain ⟨(_ | _) | _ | _, s₂⟩ := waited
        · exact hwaited
        · exact getResults_keeps hfetch hwaited
        · exact hwaited
        · exact hwaited

end

/-! ## The log -/

theorem suffix_exchange (deadline : Option Deadline) (s : TimedClient σ) (session : Session σ)
    (m : ClientMessage) (read : ServerMessage → Except ClientError α × Phase) :
    s.log <:+ (exchange t deadline s session m read).2.log := by
  rcases exchange_cases t deadline s session m read with
    ⟨d, s', -, -, hlog, heq⟩ | ⟨e, s', -, ⟨time, hlog⟩, heq⟩ | ⟨reply, s', -, -, ⟨time, hlog⟩, heq⟩
  · rw [heq]
    exact ⟨[_], hlog.symm⟩
  · rw [heq]
    exact ⟨[_, _], hlog.symm⟩
  · rw [heq]
    exact ⟨[_, _], hlog.symm⟩

theorem suffix_attach (t : Transport σ) (channel : σ) (s : TimedClient σ) :
    s.log <:+ (s.attach t channel).2.log := by
  rcases attach_cases t channel s with
    ⟨session, -, heq⟩ | ⟨e, s', outcome, -, -, ⟨time, hlog⟩, heq⟩ |
      ⟨reply, backend, s', -, -, -, -, ⟨time, hlog⟩, heq⟩
  · simp [heq]
  · rw [heq]
    exact ⟨[_, _, _], hlog.symm⟩
  · rw [heq]
    exact ⟨[_, _, _], hlog.symm⟩

/-- The log only grows. -/
theorem suffix_step (t : Transport σ) (s : TimedClient σ) (call : Call σ) :
    s.log <:+ (s.step t call).2.log := by
  refine step_keeps (I := fun s' => s.log <:+ s'.log) ?_ ?_ ?_ ?_ ?_ ?_ ?_ call (List.suffix_refl _)
  · intro s' channel hs
    exact hs.trans (suffix_attach t channel s')
  · intro s' session r hs _ _ _
    exact hs.trans (suffix_exchange ..)
  · intro s' session id deadline hs _ _ _
    exact hs.trans (suffix_exchange ..)
  · intro s' session id hs _ _ _
    exact hs.trans (suffix_exchange ..)
  · intro s' session hs _
    exact hs.trans (List.suffix_cons _ _)
  · intro s' clock hs
    exact hs
  · intro s' clock hs
    exact hs

theorem suffix_after (t : Transport σ) (s : TimedClient σ) (calls : List (Call σ)) :
    s.log <:+ (s.after t calls).log := by
  induction calls generalizing s with
  | nil => exact List.suffix_refl _
  | cons call rest ih => exact (suffix_step t s call).trans (ih _)

theorem opened_of_attach (t : Transport σ) (channel : σ) (hidle : s.client = .idle) :
    ∃ new, (s.attach t channel).2.log = new ++ .opened :: s.log := by
  rcases attach_cases t channel s with
    ⟨session, hlive, -⟩ | ⟨e, s', outcome, -, -, ⟨time, hlog⟩, heq⟩ |
      ⟨reply, backend, s', -, -, -, -, ⟨time, hlog⟩, heq⟩
  · rw [hidle] at hlive
    cases hlive
  · rw [heq]
    exact ⟨[_, _], hlog⟩
  · rw [heq]
    exact ⟨[_, _], hlog⟩

/-- An idle client opens a channel, or does nothing and stays idle. -/
theorem step_of_idle (hidle : s.client = .idle) (call : Call σ) :
    (∃ new, (s.step t call).2.log = new ++ .opened :: s.log) ∨
      ((s.step t call).2.log = s.log ∧ (s.step t call).2.client = .idle) := by
  cases call with
  | attach channel => exact Or.inl (opened_of_attach t channel hidle)
  | connect policy address dial =>
    rw [step]
    rcases connect_cases t policy address dial s with
      ⟨session, hlive, -⟩ | ⟨e, slept, -, heq⟩ | ⟨channel, slept, -, heq⟩
    · rw [hidle] at hlive
      cases hlive
    · rw [heq]
      exact Or.inr ⟨rfl, hidle⟩
    · rw [heq]
      exact Or.inl (opened_of_attach (s := s.pass slept) t channel hidle)
  | sleep milliseconds => exact Or.inr ⟨rfl, hidle⟩
  | operate op =>
    right
    have hsame : (s.perform t op).2 = s := by
      cases op <;>
        simp [perform, send, poll, pollBefore, getResults, wait, run, close, inFlight, hidle]
    rw [step, hsame]
    exact ⟨rfl, hidle⟩

/-- When the client is idle, the first thing that happens is that a channel is opened. -/
theorem opened_of_idle (t : Transport σ) (hidle : s.client = .idle) (calls : List (Call σ)) :
    (s.after t calls).log = s.log ∨ ∃ new, (s.after t calls).log = new ++ .opened :: s.log := by
  induction calls generalizing s with
  | nil => exact Or.inl rfl
  | cons call rest ih =>
    rw [after_cons]
    rcases step_of_idle (t := t) hidle call with ⟨new, hlog⟩ | ⟨hlog, hstill⟩
    · obtain ⟨more, hmore⟩ := suffix_after t (s.step t call).2 rest
      right
      exact ⟨more ++ new, by rw [← hmore, hlog, List.append_assoc]⟩
    · rw [← hlog]
      exact ih hstill

/-! ## The end of a session -/

/-- If there is an error and it comes with the end of the session, the client is idle. -/
def EndsIdle (error? : Option ClientError) (s : TimedClient σ) : Prop :=
  ∀ e, error? = some e → e.EndsSession → s.client = .idle

theorem endsIdle_error {e : ClientError} (he : ¬ e.EndsSession) : EndsIdle (some e) s := by
  rintro _ ⟨⟩ h
  exact absurd h he

theorem endsIdle_exchange {deadline : Option Deadline} {session : Session σ} {m : ClientMessage}
    {read : ServerMessage → Except ClientError α × Phase}
    (hread : ∀ reply e, (read reply).1 = .error e → e.IsOfReply) :
    EndsIdle (failure? (exchange t deadline s session m read).1)
      (exchange t deadline s session m read).2 := by
  rcases exchange_cases t deadline s session m read with
    ⟨d, s', -, hidle, -, heq⟩ | ⟨e, s', hidle, -, heq⟩ | ⟨reply, s', -, -, -, heq⟩
  · rw [heq]
    exact fun _ _ _ => hidle
  · rw [heq]
    exact fun _ _ _ => hidle
  · rw [heq]
    intro e he h
    exact absurd h (hread reply e (failure?_eq_some he)).not_endsSession

theorem endsIdle_attach (t : Transport σ) (channel : σ) (s : TimedClient σ) :
    EndsIdle (failure? (s.attach t channel).1) (s.attach t channel).2 := by
  rcases attach_cases t channel s with
    ⟨session, -, heq⟩ | ⟨e, s', outcome, -, hidle, -, heq⟩ |
      ⟨reply, backend, s', -, -, -, -, -, heq⟩
  · rw [heq]
    exact endsIdle_error id
  · rw [heq]
    exact fun _ _ _ => hidle
  · rw [heq]
    exact fun _ => nofun

theorem endsIdle_connect (t : Transport σ) (policy : RetryPolicy) (address : String)
    (dial : Nat → Except String σ) (s : TimedClient σ) :
    EndsIdle (failure? (s.connect t policy address dial).1)
      (s.connect t policy address dial).2 := by
  rcases connect_cases t policy address dial s with
    ⟨session, -, heq⟩ | ⟨e, slept, hidle, heq⟩ | ⟨channel, slept, -, heq⟩
  · rw [heq]
    exact endsIdle_error id
  · rw [heq]
    exact fun _ _ _ => hidle
  · rw [heq]
    exact endsIdle_attach t channel _

theorem endsIdle_send (t : Transport σ) (s : TimedClient σ) (r : Request) :
    EndsIdle (failure? (s.send t r).1) (s.send t r).2 := by
  rcases send_cases t s r with ⟨e, heq, he⟩ | ⟨session, -, -, -, heq⟩
  · rw [heq]
    apply endsIdle_error
    rcases he with rfl | rfl | ⟨error, rfl⟩ <;> exact id
  · rw [heq]
    exact endsIdle_exchange fun _ _ => Phase.isOfReply_afterExecute

theorem endsIdle_pollBefore (t : Transport σ) (deadline : Option Deadline) (s : TimedClient σ) :
    EndsIdle (failure? (s.pollBefore t deadline).1) (s.pollBefore t deadline).2 := by
  rcases pollBefore_cases t deadline s with ⟨result, heq, he⟩ | ⟨session, id, -, -, -, heq⟩
  · rw [heq]
    intro e herror h
    rcases he e (failure?_eq_some herror) with rfl | ⟨state, rfl⟩ <;> cases h
  · rw [heq]
    exact endsIdle_exchange fun _ _ => Phase.isOfReply_afterStatus

theorem endsIdle_getResults (t : Transport σ) (s : TimedClient σ) :
    EndsIdle (failure? (s.getResults t).1) (s.getResults t).2 := by
  rcases getResults_cases t s with ⟨e, heq, he⟩ | ⟨session, id, -, -, -, heq⟩
  · rw [heq]
    apply endsIdle_error
    rcases he with rfl | ⟨state, rfl⟩ <;> exact id
  · rw [heq]
    exact endsIdle_exchange fun _ _ => Phase.isOfReply_afterFetch

theorem endsIdle_wait (t : Transport σ) (polls : Nat) (policy : PollPolicy) (cancel : Option Nat)
    (s : TimedClient σ) :
    EndsIdle (s.wait t polls policy cancel).1.failure? (s.wait t polls policy cancel).2 := by
  rcases wait_cases t s polls policy cancel with ⟨e, heq, he⟩ | ⟨-, heq⟩ | ⟨deadline, -, heq⟩
  · rw [heq]
    apply endsIdle_error
    rcases he with rfl | ⟨state, rfl⟩ <;> exact id
  · rw [heq]
    exact fun _ => nofun
  · rw [heq]
    refine waitFrom_elim (I := fun _ => True) (P := fun o => EndsIdle o.1.failure? o.2) ?_
      (fun _ _ _ => trivial) ?_ ?_ _ _ _ trivial
    · intro s s' result _ heq
      have hpolled := endsIdle_pollBefore t deadline s
      rw [heq] at hpolled
      cases result with
      | error e =>
        rintro _ ⟨⟩ h
        exact hpolled e rfl h
      | ok status =>
        cases status with
        | pending => trivial
        | completed => exact fun _ => nofun
    · intro s d clock _ _ _ _ _
      rfl
    · exact fun _ _ _ => nofun

theorem endsIdle_run (t : Transport σ) (polls : Nat) (policy : PollPolicy) (r : Request)
    (s : TimedClient σ) :
    EndsIdle (s.run t polls policy r).1.failure? (s.run t polls policy r).2 := by
  rcases run_cases t s polls policy r with
    ⟨e, s₁, hsend, hrun⟩ | ⟨name, s₁, waited, s₂, -, hwait, hrest⟩
  · have hsent := endsIdle_send t s r
    rw [hsend] at hsent
    rw [hrun]
    exact hsent
  · have hwaited := endsIdle_wait t polls policy none s₁
    rw [hwait] at hwaited
    rcases hrest with ⟨-, hrun⟩ | ⟨ran, hran, -, hrun⟩
    · rw [hrun]
      exact endsIdle_getResults t s₂
    · rw [hrun]
      exact hran ▸ hwaited

/-- The call is to end the session, or has come to its end. -/
def EndsAt (t : Transport σ) (s : TimedClient σ) (call : Call σ) : Prop :=
  call = .operate .close ∨ ∃ e, (s.step t call).1 = some e ∧ e.EndsSession

/-- After the end of a session the client is idle. -/
theorem idle_of_endsAt {call : Call σ} (h : s.EndsAt t call) :
    (s.step t call).2.client = .idle := by
  have of_endsIdle : ∀ {error? : Option ClientError} {s' : TimedClient σ},
      EndsIdle error? s' → (∃ e, error? = some e ∧ e.EndsSession) → s'.client = .idle := by
    rintro error? s' hends ⟨e, he, h⟩
    exact hends e he h
  by_cases hclose : call = .operate .close
  · subst hclose
    show (s.close t).2.client = .idle
    unfold close
    cases hclient : s.client with
    | idle => exact hclient
    | live session => rfl
  · replace h := h.resolve_left hclose
    cases call with
    | attach channel => exact of_endsIdle (endsIdle_attach t channel s) h
    | connect policy address dial =>
      exact of_endsIdle (endsIdle_connect t policy address dial s) h
    | sleep milliseconds =>
      obtain ⟨e, he, -⟩ := h
      cases he
    | operate op =>
      cases op with
      | send r => exact of_endsIdle (endsIdle_send t s r) h
      | poll => exact of_endsIdle (endsIdle_pollBefore t none s) h
      | getResults => exact of_endsIdle (endsIdle_getResults t s) h
      | wait polls policy cancel => exact of_endsIdle (endsIdle_wait t polls policy cancel s) h
      | run polls policy r => exact of_endsIdle (endsIdle_run t polls policy r s) h
      | close => exact absurd rfl hclose

end TimedClient

end EncryptedInference
