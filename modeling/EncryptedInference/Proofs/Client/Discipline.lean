import EncryptedInference.Client.Script
import EncryptedInference.Proofs.Client.Calls

/-!
# What a client says on a channel

On a channel a client greets first and once.  It submits only requests that are fit, one at a time;
it asks for the request that was accepted last, for the result once it has been told that the
request is completed, and for the state until then.  Before anything is said, everything that was
said on the channel has been answered (`Disciplined`).

That depends on what went over the channel (`Exchange`, `Pending`), which the phase of a session
sums up (`Follows`).  Every reply keeps the sum right, so every call keeps the discipline, whatever
the channels answer (`TimedClient.IsDisciplined.step`).
-/

namespace EncryptedInference

/-- A message on a channel, and the reply to it. -/
structure Exchange where
  sentAt : Nat
  message : ClientMessage
  answeredAt : Nat
  reply : ServerMessage

namespace Exchange

/-- An exchange in a trace. -/
def events (x : Exchange) : List Event :=
  [.sent x.sentAt x.message, .answered x.answeredAt (.ok x.reply)]

/-- A request is accepted under this name. -/
def Accepts (x : Exchange) (id : String) : Prop :=
  (∃ r, x.message = .execute r) ∧ x.reply = .accepted id

theorem not_accepts {x : Exchange} (h : ∀ r, x.message ≠ .execute r) (id : String) :
    ¬ x.Accepts id := by
  rintro ⟨⟨r, hr⟩, -⟩
  exact h r hr

/-- The request asked for is over: here is its result, or it has failed, or the server has an error
to report. -/
def Finishes (x : Exchange) : Prop :=
  ((∃ id, x.message = .fetchResult id) ∧
    ((∃ r, x.reply = .result r) ∨ ∃ text, x.reply = .error text)) ∨
  ((∃ id, x.message = .status id) ∧
    ((∃ id reason, x.reply = .status id .failed reason) ∨ ∃ text, x.reply = .error text))

/-- The client is told that the request with this name is completed. -/
def TellsCompleted (x : Exchange) (id : String) : Prop :=
  x.message = .status id ∧ ∃ id' reason, x.reply = .status id' .completed reason

end Exchange

/-! ## The rules -/

/-- The request that was accepted last has the name `id`, and nothing that came `since` says that it
is over. -/
def Pending (past : List Exchange) (id : String) (since : List Exchange) : Prop :=
  ∃ earlier x, past = earlier ++ x :: since ∧ x.Accepts id ∧
    ∀ y ∈ since, (∀ other, ¬ y.Accepts other) ∧ ¬ y.Finishes

/-- The first thing that went over the channel is a greeting that was returned. -/
def Greeted (past : List Exchange) : Prop :=
  ∃ x rest, past = x :: rest ∧ x.message = greeting ∧
    ∃ backend, backendOfGreeting x.reply = .ok backend

/-- What may be said when this went over the channel. -/
def Allowed (past : List Exchange) : ClientMessage → Prop
  | .hello version => past = [] ∧ version = protocolVersion
  | .execute r => Greeted past ∧ r.validate = .ok () ∧ ∀ id since, ¬ Pending past id since
  | .status id => Greeted past ∧ ∃ since, Pending past id since ∧ ∀ x ∈ since, ¬ x.TellsCompleted id
  | .fetchResult id => Greeted past ∧
      ∃ since, Pending past id since ∧ ∃ x ∈ since, x.TellsCompleted id
  | .goodbye => Greeted past

variable {σ : Type} {t : Transport σ}

/-- These exchanges, one after another, take a channel from the first state to the last. -/
def Carries (t : Transport σ) : σ → List Exchange → σ → Prop
  | first, [], last => first = last
  | first, x :: rest, last =>
    (t.call first x.message).1.outcome = .ok x.reply ∧
      Carries t (t.call first x.message).2 rest last

/-- The events are those of earlier channels, and of one on which there was nothing but these
exchanges, and which is now as given. -/
def Spoken (t : Transport σ) (events : List Event) (past : List Exchange) (channel : σ) : Prop :=
  ∃ before first, events = before ++ .opened :: past.flatMap Exchange.events ∧
    Carries t first past channel

/-- Whatever is said, everything said before on the channel has been answered and allows it. -/
def Disciplined (t : Transport σ) (trace : List Event) : Prop :=
  ∀ earlier time m, earlier ++ [.sent time m] <+: trace →
    ∃ past channel, Spoken t earlier past channel ∧ Allowed past m

/-! ## One more event -/

theorem Carries.concat {past : List Exchange} {first last : σ} (h : Carries t first past last)
    {x : Exchange} (hx : (t.call last x.message).1.outcome = .ok x.reply) :
    Carries t first (past ++ [x]) (t.call last x.message).2 := by
  induction past generalizing first with
  | nil =>
    obtain rfl : first = last := h
    exact ⟨hx, rfl⟩
  | cons y rest ih => exact ⟨h.1, ih h.2⟩

theorem spoken_opened (t : Transport σ) (events : List Event) (channel : σ) :
    Spoken t (events ++ [.opened]) [] channel :=
  ⟨events, channel, rfl, rfl⟩

theorem Spoken.concat {events : List Event} {past : List Exchange} {channel : σ}
    (h : Spoken t events past channel) {x : Exchange}
    (hx : (t.call channel x.message).1.outcome = .ok x.reply) :
    Spoken t (events ++ x.events) (past ++ [x]) (t.call channel x.message).2 := by
  obtain ⟨before, first, rfl, hcarries⟩ := h
  exact ⟨before, first, by simp, hcarries.concat hx⟩

namespace Disciplined

variable {trace : List Event}

theorem nil : Disciplined t [] := by
  intro earlier time m h
  simp at h

theorem sent (h : Disciplined t trace) {past : List Exchange} {channel : σ} {m : ClientMessage}
    (hspoken : Spoken t trace past channel) (hallowed : Allowed past m) (time : Nat) :
    Disciplined t (trace ++ [.sent time m]) := by
  intro earlier time' m' hprefix
  rcases List.prefix_concat_iff.1 hprefix with heq | hprefix
  · obtain ⟨rfl, hlast⟩ := List.append_inj' heq rfl
    cases hlast
    exact ⟨past, channel, hspoken, hallowed⟩
  · exact h earlier time' m' hprefix

/-- Only what is said has to be allowed. -/
theorem other (h : Disciplined t trace) {e : Event} (he : ∀ time m, e ≠ .sent time m) :
    Disciplined t (trace ++ [e]) := by
  intro earlier time m hprefix
  rcases List.prefix_concat_iff.1 hprefix with heq | hprefix
  · obtain ⟨-, hlast⟩ := List.append_inj' heq rfl
    exact absurd (List.singleton_inj.1 hlast).symm (he time m)
  · exact h earlier time m hprefix

theorem exchange (h : Disciplined t trace) {past : List Exchange} {channel : σ}
    {m : ClientMessage} (hspoken : Spoken t trace past channel) (hallowed : Allowed past m)
    (time time' : Nat) (outcome : Except ConnectionError ServerMessage) :
    Disciplined t (trace ++ [.sent time m, .answered time' outcome]) := by
  rw [List.append_cons]
  exact (h.sent hspoken hallowed time).other fun _ _ => nofun

end Disciplined

/-! ## One more exchange -/

namespace Pending

variable {past since : List Exchange} {x : Exchange} {id : String}

theorem of_accepts (past : List Exchange) (h : x.Accepts id) : Pending (past ++ [x]) id [] :=
  ⟨past, x, rfl, h, fun _ => nofun⟩

theorem concat (h : Pending past id since) (haccepts : ∀ other, ¬ x.Accepts other)
    (hfinishes : ¬ x.Finishes) : Pending (past ++ [x]) id (since ++ [x]) := by
  obtain ⟨earlier, first, rfl, hfirst, hsince⟩ := h
  refine ⟨earlier, first, by simp, hfirst, ?_⟩
  intro y hy
  rcases List.mem_append.1 hy with hy | hy
  · exact hsince y hy
  · obtain rfl := List.mem_singleton.1 hy
    exact ⟨haccepts, hfinishes⟩

/-- A request that is pending was accepted just now, or was pending and is not over. -/
theorem of_concat (h : Pending (past ++ [x]) id since) :
    x.Accepts id ∨ ¬ x.Finishes ∧ ∃ since, Pending past id since := by
  obtain ⟨earlier, first, heq, hfirst, hsince⟩ := h
  rcases List.eq_nil_or_concat since with rfl | ⟨since, last, rfl⟩
  · obtain ⟨-, hlast⟩ := List.append_inj' heq rfl
    cases hlast
    exact Or.inl hfirst
  · right
    rw [List.concat_eq_append, ← List.cons_append, ← List.append_assoc] at heq
    obtain ⟨hpast, hlast⟩ := List.append_inj' heq rfl
    cases hlast
    refine ⟨(hsince x (by simp)).2, since, earlier, first, hpast, hfirst, ?_⟩
    intro y hy
    exact hsince y (by simp [hy])

end Pending

theorem Greeted.concat {past : List Exchange} (h : Greeted past) (x : Exchange) :
    Greeted (past ++ [x]) := by
  obtain ⟨first, rest, rfl, hfirst⟩ := h
  exact ⟨first, rest ++ [x], rfl, hfirst⟩

/-! ## Phases -/

/-- The phase of a session sums up what went over its channel. -/
structure Follows (past : List Exchange) (p : Phase) : Prop where
  greeted : Greeted past
  free : p.requestId? = none → ∀ id since, ¬ Pending past id since
  inFlight : ∀ id, p.requestId? = some id →
    ∃ since, Pending past id since ∧ (p.isCompleted = true ↔ ∃ x ∈ since, x.TellsCompleted id)

namespace Follows

variable {past : List Exchange} {p q : Phase} {x : Exchange} {id : String}

/-! ### What may be said next -/

theorem allows_execute (h : Follows past p) (hp : p.requestId? = none) {r : Request}
    (hvalid : r.validate = .ok ()) : Allowed past (.execute r) :=
  ⟨h.greeted, hvalid, h.free hp⟩

theorem allows_status (h : Follows past p) (hid : p.requestId? = some id)
    (hcompleted : p.isCompleted = false) : Allowed past (.status id) := by
  obtain ⟨since, hpending, hiff⟩ := h.inFlight id hid
  refine ⟨h.greeted, since, hpending, ?_⟩
  intro x hx htells
  rw [hiff.2 ⟨x, hx, htells⟩] at hcompleted
  cases hcompleted

theorem allows_fetchResult (h : Follows past p) (hid : p.requestId? = some id)
    (hcompleted : p.isCompleted = true) : Allowed past (.fetchResult id) := by
  obtain ⟨since, hpending, hiff⟩ := h.inFlight id hid
  exact ⟨h.greeted, since, hpending, hiff.1 hcompleted⟩

theorem allows_goodbye (h : Follows past p) : Allowed past .goodbye :=
  h.greeted

/-! ### What a reply changes -/

theorem connected (hmessage : x.message = greeting) {backend : String}
    (hreply : backendOfGreeting x.reply = .ok backend) : Follows [x] .connected where
  greeted := ⟨x, [], rfl, hmessage, backend, hreply⟩
  free _ id since hpending := by
    have hpending : Pending ([] ++ [x]) id since := hpending
    rcases hpending.of_concat with hx | ⟨-, since, earlier, y, hy, -⟩
    · exact Exchange.not_accepts (by simp [hmessage, greeting]) id hx
    · simp at hy
  inFlight id hid := by cases hid

theorem accept (h : Follows past p) (hx : x.Accepts id) : Follows (past ++ [x]) (.sent id) where
  greeted := h.greeted.concat x
  free hfree := by cases hfree
  inFlight id' hid := by
    obtain rfl := Option.some.inj hid
    exact ⟨[], .of_accepts past hx, by simp [Phase.isCompleted]⟩

/-- A reply that says that the request is over, or that there is none, leaves none in flight. -/
theorem release (h : Follows past p) (haccepts : ∀ id, ¬ x.Accepts id)
    (hover : x.Finishes ∨ p.requestId? = none) (hq : q.requestId? = none) :
    Follows (past ++ [x]) q where
  greeted := h.greeted.concat x
  free _ id since hpending := by
    rcases hpending.of_concat with hx | ⟨hfinishes, since, hpending⟩
    · exact haccepts id hx
    · exact h.free (hover.resolve_left hfinishes) id since hpending
  inFlight id hid := by
    rw [hq] at hid
    cases hid

/-- Any other reply leaves the request in flight, and may say that it is completed. -/
theorem keep (h : Follows past p) (hid : p.requestId? = some id)
    (haccepts : ∀ other, ¬ x.Accepts other) (hfinishes : ¬ x.Finishes)
    (hq : q.requestId? = some id)
    (hcompleted : q.isCompleted = true ↔ p.isCompleted = true ∨ x.TellsCompleted id) :
    Follows (past ++ [x]) q where
  greeted := h.greeted.concat x
  free hfree := by
    rw [hq] at hfree
    cases hfree
  inFlight id' hid' := by
    obtain rfl := Option.some.inj (hq.symm.trans hid')
    obtain ⟨since, hpending, hiff⟩ := h.inFlight id hid
    refine ⟨since ++ [x], hpending.concat haccepts hfinishes, ?_⟩
    rw [hcompleted, hiff]
    simp [or_and_right, exists_or]

variable {reply : ServerMessage} (time time' : Nat)

theorem execute (h : Follows past p) (hp : p.requestId? = none) (r : Request) :
    Follows (past ++ [⟨time, .execute r, time', reply⟩]) (p.afterExecute reply).2 := by
  cases reply with
  | accepted id => exact h.accept ⟨⟨r, rfl⟩, rfl⟩
  | _ => exact h.release (fun id hx => nomatch hx.2) (Or.inr hp) hp

theorem status (h : Follows past p) (hid : p.requestId? = some id)
    (hcompleted : p.isCompleted = false) :
    Follows (past ++ [⟨time, .status id, time', reply⟩]) (p.afterStatus id reply).2 := by
  have haccepts := Exchange.not_accepts (x := ⟨time, .status id, time', reply⟩) fun _ => nofun
  -- The name in the reply does not matter, only the state that it tells.
  cases reply with
  | status id' state reason =>
    cases state with
    | failed =>
      exact h.release haccepts (Or.inl (Or.inr ⟨⟨id, rfl⟩, Or.inl ⟨id', reason, rfl⟩⟩)) rfl
    | completed =>
      refine h.keep hid haccepts (by simp [Exchange.Finishes]) rfl ?_
      simp [Phase.afterStatus, Phase.isCompleted, Exchange.TellsCompleted]
    | _ =>
      refine h.keep hid haccepts (by simp [Exchange.Finishes]) rfl ?_
      rw [hcompleted]
      simp [Phase.afterStatus, Phase.isCompleted, Exchange.TellsCompleted]
  | error text => exact h.release haccepts (Or.inl (Or.inr ⟨⟨id, rfl⟩, Or.inr ⟨text, rfl⟩⟩)) rfl
  | _ =>
    refine h.keep hid haccepts (by simp [Exchange.Finishes]) hid ?_
    simp [Phase.afterStatus, Exchange.TellsCompleted]

theorem fetchResult (h : Follows past p) (hid : p.requestId? = some id) :
    Follows (past ++ [⟨time, .fetchResult id, time', reply⟩]) (p.afterFetch reply).2 := by
  have haccepts := Exchange.not_accepts (x := ⟨time, .fetchResult id, time', reply⟩) fun _ => nofun
  cases reply with
  | result r => exact h.release haccepts (Or.inl (Or.inl ⟨⟨id, rfl⟩, Or.inl ⟨r, rfl⟩⟩)) rfl
  | error text => exact h.release haccepts (Or.inl (Or.inl ⟨⟨id, rfl⟩, Or.inr ⟨text, rfl⟩⟩)) rfl
  | _ =>
    refine h.keep hid haccepts (by simp [Exchange.Finishes]) hid ?_
    simp [Phase.afterFetch, Exchange.TellsCompleted]

end Follows

/-! ## Operations -/

namespace TimedClient

variable {α : Type} {s : TimedClient σ}

/-- Everything was said as it may be, and the session, if there is one, has its phase from what went
over the channel. -/
structure IsDisciplined (t : Transport σ) (s : TimedClient σ) : Prop where
  said : Disciplined t s.trace
  live : ∀ session, s.client = .live session →
    ∃ past, Spoken t s.trace past session.channel ∧ Follows past session.phase

namespace IsDisciplined

theorem initial : IsDisciplined t (TimedClient.initial : TimedClient σ) where
  said := .nil
  live session hlive := by cases hlive

theorem of_idle (said : Disciplined t s.trace) (hidle : s.client = .idle) : s.IsDisciplined t where
  said := said
  live session hlive := by
    rw [hidle] at hlive
    cases hlive

/-- An exchange keeps the discipline if the message is allowed and the reply is read rightly. -/
theorem exchange (hs : s.IsDisciplined t) {session : Session σ} (hlive : s.client = .live session)
    {deadline : Option Deadline} {m : ClientMessage}
    {after : ServerMessage → Except ClientError α × Phase}
    (hallowed : ∀ past, Follows past session.phase → Allowed past m)
    (hafter : ∀ past time time' reply, Follows past session.phase →
      Follows (past ++ [⟨time, m, time', reply⟩]) (after reply).2) :
    (TimedClient.exchange t deadline s session m after).2.IsDisciplined t := by
  obtain ⟨past, hspoken, hfollows⟩ := hs.live session hlive
  have hallowed := hallowed past hfollows
  rcases exchange_cases t deadline s session m after with
    ⟨d, s', -, hidle, hlog, heq⟩ | ⟨e, s', hidle, ⟨time, hlog⟩, heq⟩ |
      ⟨reply, s', hreply, hclient, ⟨time, hlog⟩, heq⟩
  -- Without a reply the client is idle, and only the trace has to be right.
  · rw [heq]
    refine of_idle ?_ hidle
    rw [trace, hlog, List.reverse_cons]
    exact hs.said.sent hspoken hallowed _
  · rw [heq]
    refine of_idle ?_ hidle
    rw [trace, hlog, List.reverse_cons, List.reverse_cons, ← List.append_cons]
    exact hs.said.exchange hspoken hallowed _ _ _
  · rw [heq]
    have htrace : s'.trace = s.trace ++ Exchange.events ⟨s.clock, m, time, reply⟩ := by
      rw [trace, hlog, List.reverse_cons, List.reverse_cons, ← List.append_cons]
      rfl
    constructor
    · rw [htrace]
      exact hs.said.exchange hspoken hallowed _ _ _
    · intro session' hsession
      rw [hclient] at hsession
      cases hsession
      refine ⟨_, ?_, hafter past s.clock time reply hfollows⟩
      rw [htrace]
      exact hspoken.concat (x := ⟨s.clock, m, time, reply⟩) hreply

theorem attach (hs : s.IsDisciplined t) (channel : σ) :
    (s.attach t channel).2.IsDisciplined t := by
  have hopened : Disciplined t (s.trace ++ [.opened]) := hs.said.other fun _ _ => nofun
  have hgreets : Allowed [] greeting := ⟨rfl, rfl⟩
  rcases attach_cases t channel s with
    ⟨session, -, heq⟩ | ⟨e, s', outcome, -, hidle, ⟨time, hlog⟩, heq⟩ |
      ⟨reply, backend, s', hreply, hbackend, -, hclient, ⟨time, hlog⟩, heq⟩
  · rw [heq]
    exact hs
  · rw [heq]
    refine of_idle ?_ hidle
    rw [trace, hlog, List.reverse_cons, List.reverse_cons, List.reverse_cons, ← List.append_cons]
    exact hopened.exchange (spoken_opened t s.trace channel) hgreets _ _ _
  · rw [heq]
    have htrace : s'.trace =
        (s.trace ++ [.opened]) ++ Exchange.events ⟨s.clock, greeting, time, reply⟩ := by
      rw [trace, hlog, List.reverse_cons, List.reverse_cons, List.reverse_cons, ← List.append_cons]
      rfl
    constructor
    · rw [htrace]
      exact hopened.exchange (spoken_opened t s.trace channel) hgreets _ _ _
    · intro session hsession
      rw [hclient] at hsession
      cases hsession
      refine ⟨_, ?_, .connected (x := ⟨s.clock, greeting, time, reply⟩) rfl hbackend⟩
      rw [htrace]
      exact (spoken_opened t s.trace channel).concat (x := ⟨s.clock, greeting, time, reply⟩) hreply

/-- Every call keeps the discipline. -/
theorem step (hs : s.IsDisciplined t) (call : Call σ) : (s.step t call).2.IsDisciplined t := by
  refine step_keeps (I := IsDisciplined t) ?_ ?_ ?_ ?_ ?_ ?_ ?_ call hs
  · intro s channel hs
    exact hs.attach channel
  · intro s session r hs hlive hphase hvalid
    exact hs.exchange hlive (fun past h => h.allows_execute hphase hvalid)
      fun past time time' reply h => h.execute time time' hphase r
  · intro s session id deadline hs hlive hid hcompleted
    exact hs.exchange hlive (fun past h => h.allows_status hid hcompleted)
      fun past time time' reply h => h.status time time' hid hcompleted
  · intro s session id hs hlive hid hcompleted
    exact hs.exchange hlive (fun past h => h.allows_fetchResult hid hcompleted)
      fun past time time' reply h => h.fetchResult time time' hid
  · intro s session hs hlive
    obtain ⟨past, hspoken, hfollows⟩ := hs.live session hlive
    have htrace : (s.record (.sent s.clock .goodbye)).abandon.trace =
        s.trace ++ [.sent s.clock .goodbye] := trace_record s _
    refine of_idle ?_ rfl
    rw [htrace]
    exact hs.said.sent hspoken hfollows.allows_goodbye _
  · intro s clock hs
    exact of_idle hs.said rfl
  · intro s clock hs
    exact ⟨hs.said, hs.live⟩

theorem after (hs : s.IsDisciplined t) (calls : List (Call σ)) :
    (s.after t calls).IsDisciplined t := by
  induction calls generalizing s with
  | nil => exact hs
  | cons call rest ih => exact ih (hs.step call)

end IsDisciplined

/-- Whatever is called, and whatever the channels answer, the client says only what it may; and
after a call that is to end the session or comes to its end, nothing is said until a new channel is
opened. -/
theorem disciplined_after (t : Transport σ) (calls : List (Call σ)) :
    Disciplined t (initial.after t calls).trace ∧
      ∀ first call rest, calls = first ++ call :: rest → (initial.after t first).EndsAt t call →
        ∃ later, (initial.after t calls).trace =
            ((initial.after t first).step t call).2.trace ++ later ∧
          ∀ e ∈ later.head?, e = .opened := by
  refine ⟨(IsDisciplined.initial.after calls).said, ?_⟩
  rintro first call rest rfl hends
  rw [after_append, after_cons]
  rcases opened_of_idle t (idle_of_endsAt hends) rest with hlog | ⟨new, hlog⟩
  · exact ⟨[], by rw [trace, hlog, List.append_nil]; rfl, fun _ => nofun⟩
  · exact ⟨.opened :: new.reverse, by simp [trace, hlog], by simp⟩

/-- A request is served, and the client takes its leave. -/
theorem disciplined_served :
    let script : Script := ⟨[⟨0, .ok (.hello protocolVersion "echo")⟩, ⟨0, .ok (.accepted "I")⟩,
      ⟨0, .ok (.status "I" .completed none)⟩, ⟨0, .ok (.result ⟨"I", .empty⟩)⟩], none, true⟩
    let r : Request := ⟨1, NameMap.empty.insert "x" (.real []), .empty, .empty, .empty, none⟩
    let s := initial.after Script.transport [.attach script, .operate (.send r), .operate .poll,
      .operate .getResults, .operate .close]
    s.trace.drop 7 = [.sent 0 (.fetchResult "I"),
        .answered 0 (.ok (.result ⟨"I", .empty⟩)), .sent 0 .goodbye] ∧
      Disciplined Script.transport s.trace :=
  ⟨rfl, (disciplined_after Script.transport _).1⟩

end TimedClient

end EncryptedInference
