import EncryptedInference.Proofs.Client.Operations
import EncryptedInference.Proofs.Host.Agreement
import EncryptedInference.Proofs.Host.Delivery

/-!
# Sessions

A client stays in agreement with the table (`TimedClient.Holds`) through each operation, and so
through any run of operations with whatever goes on around them (`TimedClient.Reached.sound`).  At
the end stands what follows: between two operations the client knows which of its requests has a
job, no reply is out of place, and the server reports nothing but refusals of requests and failures
of the engine.
-/

namespace EncryptedInference

theorem ClientError.IsFair.mono {reported reported' : String → Prop} {e : ClientError}
    (h : e.IsFair reported) (hreported : ∀ text, reported text → reported' text) :
    e.IsFair reported' := by
  cases e with
  | remote text => exact hreported text h
  | _ => exact h

theorem TellsOfRefusal.not_tellsOfTable {text : String} (h : TellsOfRefusal text) :
    ¬ TellsOfTable text := by
  obtain ⟨e, rfl⟩ := h
  exact e.not_tellsOfTable

namespace TimedClient

variable {hosts : HostByJob} {s : TimedClient Line} {r : Request}

/-- The log shows that the server accepted a request under this name, and the request arrived
there as `r`. -/
def Accepted (s : TimedClient Line) (id : String) (r : Request) : Prop :=
  ∃ r₀ time time', (ClientMessage.execute r₀).ArrivesAs (.execute r) ∧
    [.answered time' (.ok (.accepted id)), .sent time (.execute r₀)] <:+: s.log

theorem Accepted.of_suffix {s' : TimedClient Line} {id : String} (h : s.Accepted id r)
    (hlog : s.log <:+ s'.log) : s'.Accepted id r := by
  obtain ⟨r₀, time, time', hr, hmem⟩ := h
  exact ⟨r₀, time, time', hr, hmem.trans hlog.isInfix⟩

/-- The client is without a session, or on a line whose server it agrees with, where `r` is the
request it has in flight. -/
def Holds (hosts : HostByJob) (r : Request) (s : TimedClient Line) : Prop :=
  ∀ session, s.client = .live session → session.channel.Sound hosts r session.phase ∧
    ∀ id, session.phase.requestId? = some id → s.Accepted id r

/-- The engine fails on `r` as the request in flight, and the server says so in these words. -/
def Reports (hosts : HostByJob) (r : Request) (s : TimedClient Line) (text : String) : Prop :=
  ∃ id, s.client.requestId? = some id ∧ (hosts.engineFor id).FailsOn r text

theorem Reports.not_tellsOfTable {text : String} (h : Reports hosts r s text) :
    ¬ TellsOfTable text := by
  obtain ⟨id, -, task, hfails⟩ := h
  exact Job.not_tellsOfTable_of_failed hfails

/-- The client is without a session, or on a line whose server it agrees with. -/
def Sound (hosts : HostByJob) (s : TimedClient Line) : Prop := ∃ r, Holds hosts r s

theorem holds_of_idle (hosts : HostByJob) (r : Request) (h : s.client = .idle) :
    Holds hosts r s := by
  intro session hsession
  rw [h] at hsession
  cases hsession

/-- What an operation keeps, and what holds of the error it ends with, if there is one. -/
def Fares (invariant : TimedClient Line → Prop) (reported : String → Prop)
    (error? : Option ClientError) (s : TimedClient Line) : Prop :=
  invariant s ∧ ∀ e, error? = some e → e.IsFair reported

variable {α : Type} {invariant : TimedClient Line → Prop} {reported : String → Prop}

theorem Fares.mono {error? : Option ClientError} (h : Fares invariant reported error? s)
    {invariant' : TimedClient Line → Prop} (hinvariant : ∀ s, invariant s → invariant' s)
    {reported' : String → Prop} (hreported : ∀ text, reported text → reported' text) :
    Fares invariant' reported' error? s :=
  ⟨hinvariant _ h.1, fun e he => (h.2 e he).mono hreported⟩

theorem fares_error {e : ClientError} (hs : invariant s) (he : e.IsFair reported) :
    Fares invariant reported (some e) s := by
  refine ⟨hs, ?_⟩
  rintro _ ⟨⟩
  exact he

/-- An exchange fares well if the reply does. -/
theorem fares_exchange {deadline : Option Deadline} {session : Session Line} {m : ClientMessage}
    {after : ServerMessage → Except ClientError α × Phase}
    (hidle : ∀ s, s.client = .idle → invariant s)
    (hdeadline : ∀ d, deadline = some d → d.reason.IsFair reported)
    (hreply : ∀ reply s', (session.channel.call hosts m).1.outcome = .ok reply →
      s'.client = .live ⟨(session.channel.call hosts m).2, session.backend, (after reply).2⟩ →
      (∃ time, s'.log = .answered time (.ok reply) :: .sent s.clock m :: s.log) →
      Fares invariant reported (failure? (after reply).1) s') :
    Fares invariant reported
      (failure? (exchange (Line.transport hosts) deadline s session m after).1)
      (exchange (Line.transport hosts) deadline s session m after).2 := by
  rcases exchange_cases (Line.transport hosts) deadline s session m after with
    ⟨d, s', hd, hclient, -, heq⟩ | ⟨e, s', hclient, -, heq⟩ | ⟨reply, s', hcall, hclient, hlog, heq⟩
  · rw [heq]
    exact fares_error (hidle s' hclient) (hdeadline d hd)
  · rw [heq]
    exact fares_error (hidle s' hclient) trivial
  · rw [heq]
    exact hreply reply s' hcall hclient hlog

namespace Holds

variable (hs : Holds hosts r s) (hnames : Function.Injective hosts.requestName)
include hs hnames

theorem send (r₀ : Request) :
    Fares (Sound hosts) TellsOfRefusal (failure? (s.send (Line.transport hosts) r₀).1)
      (s.send (Line.transport hosts) r₀).2 := by
  rcases send_cases (Line.transport hosts) s r₀ with
    ⟨e, heq, he⟩ | ⟨session, hlive, hphase, -, heq⟩
  · rw [heq]
    apply fares_error ⟨r, hs⟩
    rcases he with rfl | rfl | ⟨error, rfl⟩ <;> trivial
  · rw [heq]
    apply fares_exchange (fun s h => ⟨r, holds_of_idle hosts r h⟩) (by simp)
    intro reply s' hcall hclient hlog
    obtain ⟨r', harrives, hsound, hfair⟩ := (hs session hlive).1.execute hnames hphase hcall
    refine ⟨⟨r', ?_⟩, fun e he => hfair e (failure?_eq_some he)⟩
    intro session' hsession
    rw [hclient] at hsession
    cases hsession
    refine ⟨hsound, ?_⟩
    intro id hid
    obtain ⟨time, hlog⟩ := hlog
    obtain rfl := Phase.requestId?_afterExecute hphase hid
    exact ⟨r₀, s.clock, time, harrives, [], s.log, by rw [hlog]; rfl⟩

theorem pollBefore {deadline : Option Deadline}
    (hdeadline : ∀ d, deadline = some d → ∀ reported, d.reason.IsFair reported) :
    Fares (Holds hosts r) (Reports hosts r s)
      (failure? (s.pollBefore (Line.transport hosts) deadline).1)
      (s.pollBefore (Line.transport hosts) deadline).2 := by
  rcases pollBefore_cases (Line.transport hosts) deadline s with
    ⟨result, heq, he⟩ | ⟨session, id, hlive, hphase, -, heq⟩
  · rw [heq]
    refine ⟨hs, ?_⟩
    intro e herror
    rcases he e (failure?_eq_some herror) with rfl | ⟨state, rfl⟩ <;> trivial
  · rw [heq]
    have hflight : s.client.requestId? = some id := by
      rw [hlive]
      exact hphase
    apply fares_exchange (fun s => holds_of_idle hosts r) (fun d hd => hdeadline d hd _)
    intro reply s' hcall hclient hlog
    obtain ⟨hholds, haccepted⟩ := hs session hlive
    obtain ⟨hsound, hfair⟩ := hholds.status hnames hphase hcall
    constructor
    · intro session' hsession
      rw [hclient] at hsession
      cases hsession
      refine ⟨hsound, ?_⟩
      intro other hother
      obtain ⟨time, hlog⟩ := hlog
      obtain rfl := Phase.requestId?_afterStatus hphase hother
      exact (haccepted other hphase).of_suffix ⟨[_, _], hlog.symm⟩
    · intro e he
      exact (hfair e (failure?_eq_some he)).mono fun _ hfails => ⟨id, hflight, hfails⟩

theorem getResults :
    Fares (Holds hosts r) (Reports hosts r s) (failure? (s.getResults (Line.transport hosts)).1)
      (s.getResults (Line.transport hosts)).2 := by
  rcases getResults_cases (Line.transport hosts) s with
    ⟨e, heq, he⟩ | ⟨session, id, hlive, hphase, hcompleted, heq⟩
  · rw [heq]
    apply fares_error hs
    rcases he with rfl | ⟨state, rfl⟩ <;> trivial
  · rw [heq]
    apply fares_exchange (fun s => holds_of_idle hosts r) (by simp)
    intro reply s' hcall hclient hlog
    obtain ⟨hholds, haccepted⟩ := hs session hlive
    obtain ⟨hsound, herror⟩ := hholds.fetchResult hnames hphase hcompleted hcall
    constructor
    · intro session' hsession
      rw [hclient] at hsession
      cases hsession
      refine ⟨hsound, ?_⟩
      intro other hother
      obtain ⟨time, hlog⟩ := hlog
      have hbefore : session.phase.requestId? = some other := Phase.requestId?_afterFetch hother
      exact (haccepted other hbefore).of_suffix ⟨[_, _], hlog.symm⟩
    · intro e he
      exact absurd (failure?_eq_some he) (herror e)

theorem wait (polls : Nat) (policy : PollPolicy) (cancel : Option Nat) :
    Fares (Holds hosts r) (fun text => ¬ TellsOfTable text)
      (s.wait (Line.transport hosts) polls policy cancel).1.failure?
      (s.wait (Line.transport hosts) polls policy cancel).2 := by
  rcases wait_cases (Line.transport hosts) s polls policy cancel with
    ⟨e, heq, he⟩ | ⟨-, heq⟩ | ⟨deadline, hreason, heq⟩
  · rw [heq]
    apply fares_error hs
    rcases he with rfl | ⟨state, rfl⟩ <;> trivial
  · rw [heq]
    exact ⟨hs, fun _ => nofun⟩
  · have hdeadline : ∀ d, deadline = some d → ∀ reported, d.reason.IsFair reported := by
      intro d hd reported
      rcases hreason d hd with ⟨ms, h⟩ | h <;> rw [h] <;> trivial
    have hpoll : ∀ s', Holds hosts r s' → Fares (Holds hosts r) (fun text => ¬ TellsOfTable text)
        (failure? (s'.pollBefore (Line.transport hosts) deadline).1)
        (s'.pollBefore (Line.transport hosts) deadline).2 := by
      intro s' hs'
      exact (pollBefore hs' hnames hdeadline).mono (fun _ h => h) fun _ h => h.not_tellsOfTable
    rw [heq]
    exact waitFrom_induct (I := Holds hosts r)
      (E := ClientError.IsFair fun text => ¬ TellsOfTable text) hpoll (fun s clock hs => hs)
      (fun s => holds_of_idle hosts r) (fun d hd => hdeadline d hd _) _ _ _ hs

end Holds

/-! ## All operations -/

/-- What keeps the client in agreement, and tells it nothing of the table. -/
def FaresWell (hosts : HostByJob) (error? : Option ClientError) (s : TimedClient Line) : Prop :=
  Fares (Sound hosts) (fun text => ¬ TellsOfTable text) error? s

namespace Sound

variable (hs : Sound hosts s) (hnames : Function.Injective hosts.requestName)
include hs hnames

theorem send (r : Request) :
    FaresWell hosts (failure? (s.send (Line.transport hosts) r).1)
      (s.send (Line.transport hosts) r).2 := by
  obtain ⟨r₀, hs⟩ := hs
  exact (hs.send hnames r).mono (fun _ h => h) fun _ h => h.not_tellsOfTable

theorem poll : FaresWell hosts (failure? (s.poll (Line.transport hosts)).1)
    (s.poll (Line.transport hosts)).2 := by
  obtain ⟨r, hs⟩ := hs
  exact (hs.pollBefore hnames (by simp)).mono (fun _ h => ⟨r, h⟩) fun _ h => h.not_tellsOfTable

theorem getResults : FaresWell hosts (failure? (s.getResults (Line.transport hosts)).1)
    (s.getResults (Line.transport hosts)).2 := by
  obtain ⟨r, hs⟩ := hs
  exact (hs.getResults hnames).mono (fun _ h => ⟨r, h⟩) fun _ h => h.not_tellsOfTable

theorem wait (polls : Nat) (policy : PollPolicy) (cancel : Option Nat) :
    FaresWell hosts (s.wait (Line.transport hosts) polls policy cancel).1.failure?
      (s.wait (Line.transport hosts) polls policy cancel).2 := by
  obtain ⟨r, hs⟩ := hs
  exact (hs.wait hnames polls policy cancel).mono (fun _ h => ⟨r, h⟩) fun _ h => h

theorem run (polls : Nat) (policy : PollPolicy) (r : Request) :
    FaresWell hosts (s.run (Line.transport hosts) polls policy r).1.failure?
      (s.run (Line.transport hosts) polls policy r).2 := by
  have hsent := send hs hnames r
  rcases run_cases (Line.transport hosts) s polls policy r with
    ⟨e, s₁, hsend, hrun⟩ | ⟨name, s₁, waited, s₂, hsend, hwait, hrest⟩
  · rw [hsend] at hsent
    rw [hrun]
    exact hsent
  · rw [hsend] at hsent
    have hwaited := wait hsent.1 hnames polls policy none
    rw [hwait] at hwaited
    rcases hrest with ⟨-, hrun⟩ | ⟨ran, hran, -, hrun⟩
    · rw [hrun]
      exact getResults hwaited.1 hnames
    · rw [hrun]
      exact hran ▸ hwaited

omit hnames in
theorem close : FaresWell hosts (failure? (s.close (Line.transport hosts)).1)
    (s.close (Line.transport hosts)).2 := by
  obtain ⟨r, hs⟩ := hs
  constructor
  · unfold TimedClient.close
    cases hclient : s.client with
    | idle => exact ⟨r, hs⟩
    | live session => exact ⟨r, holds_of_idle hosts r rfl⟩
  · intro e he
    obtain ⟨error, rfl⟩ := close_eq_error (failure?_eq_some he)
    trivial

theorem perform (op : Operation) : FaresWell hosts (s.perform (Line.transport hosts) op).1
    (s.perform (Line.transport hosts) op).2 := by
  cases op with
  | send r => exact send hs hnames r
  | poll => exact poll hs hnames
  | getResults => exact getResults hs hnames
  | wait polls policy cancel => exact wait hs hnames polls policy cancel
  | run polls policy r => exact run hs hnames polls policy r
  | close => exact close hs

/-- A client that comes to a server has nothing in flight there. -/
theorem attach {l : Line} (hl : ∀ r, l.Sound hosts r .connected) :
    Sound hosts (s.attach (Line.transport hosts) l).2 := by
  obtain ⟨r, hs⟩ := hs
  rcases attach_cases (Line.transport hosts) l s with
    ⟨_, -, heq⟩ | ⟨e, s', outcome, -, hidle, -, heq⟩ |
      ⟨reply, backend, s', hcall, -, -, hlive, -, heq⟩
  · rw [heq]
    exact ⟨r, hs⟩
  · rw [heq]
    exact ⟨r, holds_of_idle hosts r hidle⟩
  · rw [heq]
    have hsound := (hl r).hello hnames hcall
    refine ⟨r, ?_⟩
    intro session hsession
    rw [hlive] at hsession
    cases hsession
    exact ⟨hsound, nofun⟩

end Sound

/-! ## Reached states -/

/-- The client has come to a server, has used its operations, and things have gone on around it, in
any order. A visit begins in any state that moves lead to, those of earlier visits of the client
among them. -/
inductive Reached (hosts : HostByJob) : TimedClient Line → Prop
  | initial : Reached hosts initial
  | attach {s : TimedClient Line} (hs : Reached hosts s) (visit : Nat) (moves : List Move)
      (turns : List Turn)
      (hvisit : (SharedServer.initial.after hosts moves).visits visit = some .initial) :
      Reached hosts
        (s.attach (Line.transport hosts) ⟨visit, SharedServer.initial.after hosts moves, turns⟩).2
  | perform {s : TimedClient Line} (hs : Reached hosts s) (op : Operation) :
      Reached hosts (s.perform (Line.transport hosts) op).2
  | around {s : TimedClient Line} (hs : Reached hosts s) {session : Session Line}
      (hlive : s.client = .live session) (moves : List Move) :
      Reached hosts
        { s with client := .live { session with channel := session.channel.around hosts moves } }
  | pass {s : TimedClient Line} (hs : Reached hosts s) (milliseconds : Nat) :
      Reached hosts (s.pass milliseconds)

theorem Reached.sound (hnames : Function.Injective hosts.requestName) (h : Reached hosts s) :
    Sound hosts s := by
  induction h with
  | initial => exact ⟨.single, holds_of_idle hosts _ rfl⟩
  | attach _ visit moves turns hvisit ih =>
    apply ih.attach hnames
    intro r
    refine ⟨SharedServer.Orderly.initial.after hnames moves, ?_⟩
    intro v hv
    obtain rfl := Option.some.inj (hvisit.symm.trans hv)
    -- A new visit owns nothing, and the client has nothing in flight.
    refine ⟨fun id => ⟨?_, nofun⟩, nofun, nofun⟩
    rintro ⟨hmem, -⟩
    cases hmem
  | perform _ op ih => exact (ih.perform hnames op).1
  | around _ hlive moves ih =>
    obtain ⟨r, hs⟩ := ih
    obtain ⟨hsound, haccepted⟩ := hs _ hlive
    refine ⟨r, ?_⟩
    intro session hsession
    cases hsession
    exact ⟨hsound.around hnames moves, haccepted⟩
  | pass _ milliseconds ih => exact ih

/-- In every reached state a client on a visit that goes on agrees with the table; no operation
meets a reply out of place or a text about the table; and what a poll reports is that the engine
failed on the request in flight. -/
theorem Reached.agreement (hnames : Function.Injective hosts.requestName) (h : Reached hosts s) :
    (∀ session v, s.client = .live session →
      session.channel.shared.visits session.channel.visit = some v →
      ∃ r, Agrees hosts.engineFor r session.phase v.owned session.channel.shared.server.jobs ∧
        ∀ id, session.phase.requestId? = some id → s.Accepted id r) ∧
    (∀ op e, (s.perform (Line.transport hosts) op).1 = some e →
      (∀ expected got, e ≠ .unexpectedResponse expected got) ∧
      ∀ text, e = .remote text → ¬ TellsOfTable text) ∧
    ∀ text, (s.perform (Line.transport hosts) .poll).1 = some (.remote text) →
      ∃ id r, s.client.requestId? = some id ∧ s.Accepted id r ∧
        (hosts.engineFor id).FailsOn r text := by
  have hs := h.sound hnames
  refine ⟨?_, ?_, ?_⟩
  · intro session v hlive hv
    obtain ⟨r, hs⟩ := hs
    obtain ⟨hsound, haccepted⟩ := hs session hlive
    exact ⟨r, hsound.agrees v hv, haccepted⟩
  · intro op e he
    have hfair := (hs.perform hnames op).2 e he
    constructor
    · rintro expected got rfl
      exact hfair
    · rintro text rfl
      exact hfair
  · intro text htext
    obtain ⟨r, hs⟩ := hs
    have hreports : Reports hosts r s text :=
      (hs.pollBefore hnames (by simp)).2 _ htext
    obtain ⟨id, hflight, hfails⟩ := hreports
    refine ⟨id, r, hflight, ?_, hfails⟩
    cases hclient : s.client with
    | idle =>
      rw [hclient] at hflight
      cases hflight
    | live session =>
      rw [hclient] at hflight
      exact (hs session hclient).2 id hflight

end TimedClient

/-! ## A run -/

/-- An exchange with nothing around it. -/
def Turn.quiet : Turn := ⟨[], [], 0, none⟩

theorem Line.call_quiet {hosts : HostByJob} {i : Nat} {shared : SharedServer} {turns : List Turn}
    {m : ClientMessage} {reply : ServerMessage} {link : Link}
    (h : Link.call hosts.toHost (fun s => s) (shared.link i) m = (.ok reply, link)) :
    (transport hosts).call ⟨i, shared, .quiet :: turns⟩ m =
      (⟨0, .ok reply⟩, ⟨i, shared.put i link.visit link.server, turns⟩) := by
  show (let called := Link.call hosts.toHost (fun s => s) (shared.link i) m
    (Answer.mk 0 called.1, Line.mk i (shared.put i called.2.visit called.2.server) turns)) = _
  rw [h]

/-- A server at which visit 0 has submitted a request and owns it. -/
def SharedServer.single : SharedServer :=
  (initial.put 0 (some .initial) .initial).put 0 (some ⟨["I"]⟩)
    ⟨NameMap.empty.insert "I" (.queued .single), 1⟩

namespace TimedClient

/-- A client that has greeted the tally host. -/
def greeted : TimedClient Line where
  client := .live
    ⟨⟨0, SharedServer.initial.put 0 (some .initial) .initial, [.quiet]⟩, "echo", .connected⟩
  clock := 0
  log := [.answered 0 (.ok (.hello protocolVersion "echo")), .sent 0 greeting, .opened]

/-- The same client, waiting for a request. -/
def waiting : TimedClient Line where
  client := .live ⟨⟨0, .single, []⟩, "echo", .sent "I"⟩
  clock := 0
  log := .answered 0 (.ok (.accepted "I")) :: .sent 0 (.execute .single) :: greeted.log

theorem attach_initial :
    (initial.attach (Line.transport Host.tally.byJob) ⟨0, .initial, [.quiet, .quiet]⟩).2 =
      greeted := by
  have hcall : Link.call Host.tally.byJob.toHost (fun s => s) (SharedServer.initial.link 0)
      greeting =
      (.ok (.hello protocolVersion "echo"), ⟨.initial, some .initial⟩) :=
    Link.call_of_travels rfl (by decide : protocolVersion < 0x100000000) (by decide +kernel) rfl
      (by decide : protocolVersion < 0x100000000) (by decide +kernel)
  have hline : (Line.transport Host.tally.byJob).call ⟨0, .initial, [.quiet, .quiet]⟩ greeting =
      (⟨0, .ok (.hello protocolVersion "echo")⟩,
        ⟨0, SharedServer.initial.put 0 (some .initial) .initial, [.quiet]⟩) := by
    rw [Line.call_quiet hcall]
  rw [attach_eq (t := Line.transport Host.tally.byJob) (s := initial) rfl hline]
  rfl

theorem send_greeted :
    (greeted.perform (Line.transport Host.tally.byJob) (.send .single)).2 = waiting := by
  have hhandle : (SharedServer.initial.put 0 (some .initial) .initial).server.handle
      Host.tally.byJob.toHost (ClientMessage.execute .single).received =
        (some (.accepted "I"), SharedServer.single.server) := rfl
  have hcall : Link.call Host.tally.byJob.toHost (fun s => s)
      ((SharedServer.initial.put 0 (some .initial) .initial).link 0) (.execute .single) =
        (.ok (.accepted "I"),
          ⟨SharedServer.single.server, some (Visit.initial.noted (.accepted "I"))⟩) :=
    Link.call_of_travels rfl Request.travels_single (by decide +kernel) hhandle trivial
      (by decide +kernel)
  have hline : (Line.transport Host.tally.byJob).call
      ⟨0, SharedServer.initial.put 0 (some .initial) .initial, [.quiet]⟩ (.execute .single) =
        (⟨0, .ok (.accepted "I")⟩, ⟨0, .single, []⟩) := by
    rw [Line.call_quiet hcall]
    rfl
  rw [perform, send_eq (t := Line.transport Host.tally.byJob) (s := greeted) (r := .single) rfl rfl
    rfl hline]
  rfl

theorem reached_waiting : Reached Host.tally.byJob waiting := by
  rw [← send_greeted, ← attach_initial]
  exact .perform (.attach .initial 0 [] [.quiet, .quiet] rfl) (.send .single)

theorem agrees_waiting :
    ∃ r, Agrees (fun _ => .echo) r (.sent "I") ["I"] SharedServer.single.server.jobs ∧
      waiting.Accepted "I" r := by
  obtain ⟨r, hagrees, haccepted⟩ :=
    (Reached.agreement Host.injective_tally reached_waiting).1 _ ⟨["I"]⟩ rfl rfl
  exact ⟨r, hagrees, haccepted "I" rfl⟩

end TimedClient

end EncryptedInference
