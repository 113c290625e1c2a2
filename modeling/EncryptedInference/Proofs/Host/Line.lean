import EncryptedInference.Proofs.Client.Operations
import EncryptedInference.Proofs.Exchange.Frames
import EncryptedInference.Proofs.Host.SharedServer

/-!
# Lines

A line is the channel of a client whose server is shared: the client makes one of the visits, and
others come and go, their messages, the tasks of all jobs and the end of visits falling in any order
before, between and after what the client says and hears.  The others name only requests of their
own.  `Line.call_cases` says what comes back for a message that goes over the wire.
-/

namespace EncryptedInference

namespace SharedServer

/-- The move is not made by visit `i`, and names none of its requests. -/
def isForeign (h : SharedServer) (i : Nat) : Move → Bool
  | .message j m => j ≠ i && m.names.all fun id => !(h.owned i).contains id
  | .leave _ | .start _ | .finish _ _ => true

/-- What goes on around visit `i`; a move that would not be foreign to it does not happen. -/
def around (hosts : HostByJob) (i : Nat) (h : SharedServer) (moves : List Move) : SharedServer :=
  moves.foldl (fun h move => if h.isForeign i move then (h.step hosts move).2 else h) h

/-- What joins visit `i` to the server. -/
def link (h : SharedServer) (i : Nat) : Link := ⟨h.server, h.visits i⟩

end SharedServer

/-- What goes on around one exchange: moves before the message arrives and after it was answered,
how long the answer takes, and what becomes of it if it is lost. -/
structure Turn where
  before : List Move
  after : List Move
  delay : Nat
  failure : Option ConnectionError

/-- The client's end: the number of its visit, the server, and the turns that exchanges will take.
After the last turn the connection is closed. -/
structure Line where
  visit : Nat
  shared : SharedServer
  turns : List Turn

namespace Line

/-- Things go on at the server. -/
def around (hosts : HostByJob) (l : Line) (moves : List Move) : Line :=
  { l with shared := l.shared.around hosts l.visit moves }

/-- A message is taken to the server, and the reply is taken back. -/
def call (hosts : HostByJob) (l : Line) (m : ClientMessage) : Answer × Line :=
  match l.turns with
  | [] => (⟨0, .error .closed⟩, l)
  | turn :: turns =>
    let shared := l.shared.around hosts l.visit turn.before
    let (outcome, link) := Link.call hosts.toHost (fun s => s) (shared.link l.visit) m
    let shared := (shared.put l.visit link.visit link.server).around hosts l.visit turn.after
    (⟨turn.delay, match turn.failure with
      | some e => .error e
      | none => outcome⟩, ⟨l.visit, shared, turns⟩)

/-- A message without a reply. -/
def notify (hosts : HostByJob) (l : Line) (m : ClientMessage) :
    Except ConnectionError Unit × Line :=
  let (outcome, link) := Link.notify hosts.toHost (fun s => s) (l.shared.link l.visit) m
  (outcome, { l with shared := l.shared.put l.visit link.visit link.server })

def transport (hosts : HostByJob) : Transport Line := ⟨call hosts, notify hosts⟩

end Line

/-! ## Messages on a link -/

/-- The second message is what the frame of the first is received as. -/
def ClientMessage.ArrivesAs (m m' : ClientMessage) : Prop :=
  ∃ bytes, Frame.encode m.body = .ok bytes ∧ Link.receive ofJson? bytes = .ok m'

/-- A reply arrives as it is, except for the numbers of a result. -/
def ServerMessage.ArrivesAs (reply reply' : ServerMessage) : Prop :=
  reply' = reply ∨ ∃ r r', reply = .result r ∧ reply' = .result r'

namespace ClientMessage

theorem ArrivesAs.eq {m m' : ClientMessage} (h : m.ArrivesAs m') (hm : m.Travels) :
    m' = m.received := by
  obtain ⟨bytes, hbytes, hreceive⟩ := h
  rw [receive_of_travels hm hbytes] at hreceive
  exact (Except.ok.inj hreceive).symm

theorem ArrivesAs.execute {r : Request} {m' : ClientMessage} (h : (execute r).ArrivesAs m') :
    ∃ r', m' = .execute r' := by
  obtain ⟨bytes, hbytes, hreceive⟩ := h
  have hkind : m'.kind = "execute" := kind_of_receive hbytes hreceive
  cases m' with
  | execute r' => exact ⟨r', rfl⟩
  | _ => simp [kind] at hkind

end ClientMessage

theorem ServerMessage.arrivesAs_of_handled {host : Host} {s s' : Server} {m : ClientMessage}
    {reply reply' : ServerMessage} {bytes : List UInt8}
    (hm : Server.Handled host s m (some reply) s') (hbytes : Frame.encode reply.body = .ok bytes)
    (hreply : Link.receive ofJson? bytes = .ok reply') : reply.ArrivesAs reply' := by
  by_cases htravels : reply.Travels
  · left
    rw [receive_of_travels htravels hbytes] at hreply
    exact (Except.ok.inj hreply).symm
  · right
    have hkind := kind_of_receive hbytes hreply
    cases reply with
    | result r =>
      cases reply' with
      | result r' => exact ⟨r, r', rfl, rfl⟩
      | _ => simp [kind] at hkind
    | hello version backend =>
      cases hm
      have hversion : protocolVersion < 0x100000000 := by decide
      exact absurd hversion htravels
    | accepted id => exact absurd trivial htravels
    | status id state reason => exact absurd trivial htravels
    | error message => exact absurd trivial htravels

/-- A call fails, or it is answered by the server and the reply arrives. -/
theorem Link.call_cases (host : Host) (l : Link) (m : ClientMessage) :
    (∃ e l', Link.call host (fun s => s) l m = (.error e, l')) ∨
    ∃ v m' reply s reply', l.visit = some v ∧ m.ArrivesAs m' ∧
      Server.Handled host l.server m' (some reply) s ∧ reply.ArrivesAs reply' ∧
      Link.call host (fun s => s) l m = (.ok reply', ⟨s, some (v.noted reply)⟩) := by
  unfold Link.call
  cases hbytes : Frame.encode m.body with
  | error e => exact Or.inl ⟨_, _, rfl⟩
  | ok bytes =>
    dsimp only
    unfold answer
    cases hv : l.visit with
    | none => exact Or.inl ⟨_, _, rfl⟩
    | some v =>
      cases hreceive : receive ClientMessage.ofJson? bytes with
      | error e => exact Or.inl ⟨_, _, rfl⟩
      | ok m' =>
        have hhandled := Server.handled host l.server m'
        dsimp only [Visit.handle]
        generalize l.server.handle host m' = answered at hhandled ⊢
        obtain ⟨_ | reply, s⟩ := answered
        · exact Or.inl ⟨_, _, rfl⟩
        · dsimp only at hhandled ⊢
          cases hreply : Frame.encode reply.body with
          | error e => exact Or.inl ⟨_, _, rfl⟩
          | ok answer =>
            cases hreturn : receive ServerMessage.ofJson? answer with
            | error e =>
              left
              refine ⟨.ofFrameError e, ⟨s, some (v.noted reply)⟩, ?_⟩
              dsimp only
              rw [hreturn]
              rfl
            | ok reply' =>
              right
              refine ⟨v, m', reply, s, reply', rfl, ⟨bytes, hbytes, hreceive⟩, hhandled,
                ServerMessage.arrivesAs_of_handled hhandled hreply hreturn, ?_⟩
              dsimp only
              rw [hreturn]
              rfl

theorem Line.call_cases (hosts : HostByJob) (l : Line) (m : ClientMessage) :
    (∃ e, (l.call hosts m).1.outcome = .error e) ∨
    ∃ before after turns v m' reply s reply',
      (l.shared.around hosts l.visit before).visits l.visit = some v ∧ m.ArrivesAs m' ∧
      Server.Handled hosts.toHost (l.shared.around hosts l.visit before).server m' (some reply) s ∧
      reply.ArrivesAs reply' ∧ (l.call hosts m).1.outcome = .ok reply' ∧
      (l.call hosts m).2 = around hosts ⟨l.visit,
        (l.shared.around hosts l.visit before).put l.visit (some (v.noted reply)) s,
        turns⟩ after := by
  unfold call
  cases l.turns with
  | nil => exact Or.inl ⟨_, rfl⟩
  | cons turn turns =>
    obtain ⟨before, after, delay, failure⟩ := turn
    cases failure with
    | some e => exact Or.inl ⟨e, rfl⟩
    | none =>
      rcases Link.call_cases hosts.toHost ((l.shared.around hosts l.visit before).link l.visit)
        m with
        ⟨e, l', heq⟩ | ⟨v, m', reply, s, reply', hv, hm, hhandled, hreply, heq⟩
      · left
        refine ⟨e, ?_⟩
        dsimp only
        rw [heq]
      · right
        refine ⟨before, after, turns, v, m', reply, s, reply', hv, hm, hhandled, hreply, ?_, ?_⟩
        · dsimp only
          rw [heq]
        · dsimp only
          rw [heq]
          rfl

end EncryptedInference
