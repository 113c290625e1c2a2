import EncryptedInference.Proofs.Client.Operations

/-!
# What a client reports

When an operation ends with what the server reports, the last thing on the log is a reply, and the
report is in it: it is an error, or the state of a request that has failed
(`TimedClient.reports_of_perform`).  This holds for any channel.
-/

namespace EncryptedInference

/-- What a client that takes in the reply has to report. -/
def ServerMessage.Reports : ServerMessage → String → Prop
  | .error message, text => text = message
  | .status _ .failed reason, text => text = reason.getD "request failed"
  | _, _ => False

namespace Phase

variable {p : Phase} {id text : String} {reply : ServerMessage}

theorem reports_afterExecute (h : (p.afterExecute reply).1 = .error (.remote text)) :
    reply.Reports text := by
  cases reply with
  | error message =>
    cases h
    rfl
  | _ => cases h

theorem reports_afterStatus (h : (p.afterStatus id reply).1 = .error (.remote text)) :
    reply.Reports text := by
  cases reply with
  | error message =>
    cases h
    rfl
  | status other state reason =>
    cases state with
    | failed =>
      cases h
      rfl
    | _ => cases h
  | _ => cases h

theorem reports_afterFetch (h : (p.afterFetch reply).1 = .error (.remote text)) :
    reply.Reports text := by
  cases reply with
  | error message =>
    cases h
    rfl
  | _ => cases h

end Phase

namespace TimedClient

variable {σ α : Type} {t : Transport σ} {s : TimedClient σ}

/-- The last thing on the log is this reply. -/
def Heard (s : TimedClient σ) (reply : ServerMessage) : Prop :=
  ∃ time, s.log.head? = some (.answered time (.ok reply))

/-- What an error reports is in the reply that was heard last. -/
def IsHeard (error? : Option ClientError) (s : TimedClient σ) : Prop :=
  ∀ text, error? = some (.remote text) → ∃ reply, s.Heard reply ∧ reply.Reports text

theorem isHeard_error {e : ClientError} (he : ∀ text, e ≠ .remote text) : IsHeard (some e) s := by
  rintro text ⟨⟩
  exact absurd rfl (he text)

theorem isHeard_exchange {deadline : Option Deadline} {session : Session σ} {m : ClientMessage}
    {after : ServerMessage → Except ClientError α × Phase}
    (hdeadline : ∀ d, deadline = some d → ∀ text, d.reason ≠ .remote text)
    (hafter : ∀ reply text, (after reply).1 = .error (.remote text) → reply.Reports text) :
    IsHeard (failure? (exchange t deadline s session m after).1)
      (exchange t deadline s session m after).2 := by
  rcases exchange_cases t deadline s session m after with
    ⟨d, s', hd, -, -, heq⟩ | ⟨e, s', -, -, heq⟩ | ⟨reply, s', -, -, ⟨time, hlog⟩, heq⟩
  · rw [heq]
    exact isHeard_error (hdeadline d hd)
  · rw [heq]
    exact isHeard_error fun _ => nofun
  · rw [heq]
    intro text htext
    exact ⟨reply, ⟨time, by rw [hlog]; rfl⟩, hafter reply text (failure?_eq_some htext)⟩

theorem isHeard_send (t : Transport σ) (s : TimedClient σ) (r : Request) :
    IsHeard (failure? (s.send t r).1) (s.send t r).2 := by
  rcases send_cases t s r with ⟨e, heq, he⟩ | ⟨session, -, -, -, heq⟩
  · rw [heq]
    apply isHeard_error
    rcases he with rfl | rfl | ⟨error, rfl⟩ <;> exact fun _ => nofun
  · rw [heq]
    exact isHeard_exchange (by simp) fun _ _ => Phase.reports_afterExecute

theorem isHeard_pollBefore {deadline : Option Deadline}
    (hdeadline : ∀ d, deadline = some d → ∀ text, d.reason ≠ .remote text) (s : TimedClient σ) :
    IsHeard (failure? (s.pollBefore t deadline).1) (s.pollBefore t deadline).2 := by
  rcases pollBefore_cases t deadline s with ⟨result, heq, he⟩ | ⟨session, id, -, -, -, heq⟩
  · rw [heq]
    intro text htext
    rcases he _ (failure?_eq_some htext) with h | ⟨state, h⟩ <;> cases h
  · rw [heq]
    exact isHeard_exchange hdeadline fun _ _ => Phase.reports_afterStatus

theorem isHeard_getResults (t : Transport σ) (s : TimedClient σ) :
    IsHeard (failure? (s.getResults t).1) (s.getResults t).2 := by
  rcases getResults_cases t s with ⟨e, heq, he⟩ | ⟨session, id, -, -, -, heq⟩
  · rw [heq]
    apply isHeard_error
    rcases he with rfl | ⟨state, rfl⟩ <;> exact fun _ => nofun
  · rw [heq]
    exact isHeard_exchange (by simp) fun _ _ => Phase.reports_afterFetch

theorem isHeard_wait (t : Transport σ) (s : TimedClient σ) (polls : Nat) (policy : PollPolicy)
    (cancel : Option Nat) :
    IsHeard (s.wait t polls policy cancel).1.failure? (s.wait t polls policy cancel).2 := by
  rcases wait_cases t s polls policy cancel with
    ⟨e, heq, he⟩ | ⟨-, heq⟩ | ⟨deadline, hdeadline, heq⟩
  · rw [heq]
    apply isHeard_error
    rcases he with rfl | ⟨state, rfl⟩ <;> exact fun _ => nofun
  · rw [heq]
    exact fun _ => nofun
  · have hreason : ∀ d, deadline = some d → ∀ text, d.reason ≠ .remote text := by
      intro d hd text htext
      rcases hdeadline d hd with ⟨ms, h⟩ | h <;> cases h.symm.trans htext
    rw [heq]
    refine waitFrom_elim (I := fun _ => True) (P := fun o => IsHeard o.1.failure? o.2) ?_
      (fun _ _ h => h) ?_ ?_ _ _ _ trivial
    · intro s s' result _ heq
      have hpoll := isHeard_pollBefore (t := t) hreason s
      rw [heq] at hpoll
      cases result with
      | error e =>
        rintro text ⟨⟩
        exact hpoll text rfl
      | ok status =>
        cases status with
        | pending => trivial
        | completed => exact fun _ => nofun
    · intro s d clock hd _
      exact isHeard_error (hreason d hd)
    · exact fun _ _ _ => nofun

theorem isHeard_run (t : Transport σ) (s : TimedClient σ) (polls : Nat) (policy : PollPolicy)
    (r : Request) : IsHeard (s.run t polls policy r).1.failure? (s.run t polls policy r).2 := by
  rcases run_cases t s polls policy r with
    ⟨e, s₁, hsend, hrun⟩ | ⟨name, s₁, waited, s₂, -, hwait, hrest⟩
  · have hsent := isHeard_send t s r
    rw [hsend] at hsent
    rw [hrun]
    exact hsent
  · have hwaited := isHeard_wait t s₁ polls policy none
    rw [hwait] at hwaited
    rcases hrest with ⟨-, hrun⟩ | ⟨ran, hran, -, hrun⟩
    · rw [hrun]
      exact isHeard_getResults t s₂
    · rw [hrun]
      exact hran ▸ hwaited

theorem isHeard_close (t : Transport σ) (s : TimedClient σ) :
    IsHeard (failure? (s.close t).1) (s.close t).2 := by
  intro text htext
  obtain ⟨error, herror⟩ := close_eq_error (failure?_eq_some htext)
  cases herror

/-- What an operation reports of the server, the reply that was heard last says. -/
theorem reports_of_perform {op : Operation} {text : String}
    (h : (s.perform t op).1 = some (.remote text)) :
    ∃ reply, (s.perform t op).2.Heard reply ∧ reply.Reports text := by
  cases op with
  | send r => exact isHeard_send t s r text h
  | poll => exact isHeard_pollBefore (by simp) s text h
  | getResults => exact isHeard_getResults t s text h
  | wait polls policy cancel => exact isHeard_wait t s polls policy cancel text h
  | run polls policy r => exact isHeard_run t s polls policy r text h
  | close => exact isHeard_close t s text h

end TimedClient

end EncryptedInference
