import EncryptedInference.Proofs.Exchange.Streams
import EncryptedInference.Proofs.Host.Delivery
import EncryptedInference.Proofs.Host.Ownership

/-!
# Connections

Here a server has all its connections as streams of bytes, each as far as it has come: bytes arrive
on it, its messages are read and answered one at a time until reading or writing fails or the client
says goodbye, and then its jobs are dropped.  The connections and the tasks of the jobs go on in any
order.  What goes on is what moves make of a shared server (`ByteServer.read_cases`), except that a
connection still owns its jobs between its end and their removal.

Every job in the table has one owner, a connection that has not been cleared, and with it goes the
job; at the end of all connections the table is empty.  Both follow from what each step keeps
(`ByteServer.Sound.step`).
-/

namespace EncryptedInference

/-- The message in the first frame of a stream, and the stream after that frame. -/
def ClientMessage.read? (bytes : List UInt8) : Option (ClientMessage × List UInt8) :=
  match Frame.split bytes with
  | .frame body rest => match Frame.decodeBody ofJson? body with
    | .ok m => some (m, rest)
    | .error _ => none
  | _ => none

/-- The frame of a message that travels is read to its end. -/
theorem ClientMessage.read?_of_encode {m : ClientMessage} (hm : m.Travels) {frame : List UInt8}
    (h : Frame.encode m.body = .ok frame) : read? frame = some (m.received, []) := by
  simp only [read?, Frame.split_of_encode h, decodeBody_body hm]

/-- How far a connection has come. -/
inductive Stage
  /-- Nobody has connected yet. -/
  | ahead
  /-- Messages are answered; these bytes of the stream have not been read. -/
  | running (visit : Visit) (unread : List UInt8)
  /-- No more messages are answered, and the jobs have not been dropped. -/
  | closing (visit : Visit)
  | cleared

namespace Stage

/-- The connection may own jobs. -/
def isLive : Stage → Bool
  | running _ _ | closing _ => true
  | ahead | cleared => false

/-- The requests that were accepted on the connection and whose results were not handed out. -/
def owned : Stage → List String
  | running v _ | closing v => v.owned
  | ahead | cleared => []

/-- The visit that is made on the connection. -/
def visit? : Stage → Option Visit
  | ahead => some .initial
  | running v _ | closing v => some v
  | cleared => none

end Stage

/-- A server with its table of jobs, and its connections, each under a number. -/
structure ByteServer where
  server : Server
  stage : Nat → Stage

/-- A step on one of the streams, or of the task of a job. -/
inductive StreamEvent
  /-- A client connects, and these are the bytes that will have come when it is gone. -/
  | connect (i : Nat) (bytes : List UInt8)
  /-- The next message is read and answered; `written` says whether the connection takes the
  reply. -/
  | read (i : Nat) (written : Bool)
  /-- Reading fails. -/
  | fail (i : Nat)
  /-- The jobs of a connection that has ended are dropped. -/
  | clear (i : Nat)
  | start (id : String)
  /-- The computation runs in a task of its own, with the given number. -/
  | finish (id : String) (task : Nat)

namespace ByteServer

/-- A server without jobs to which nobody has connected. -/
def initial : ByteServer := ⟨.initial, fun _ => .ahead⟩

/-- Another table of jobs and another stage of a connection. -/
def put (s : ByteServer) (i : Nat) (stage : Stage) (server : Server) : ByteServer :=
  ⟨server, fun j => if j = i then stage else s.stage j⟩

/-- The server answers the next message of a connection. The connection ends when there is no
message, no answer, or no way to send it. -/
def read (hosts : HostByJob) (s : ByteServer) (i : Nat) (written : Bool) :
    Option ServerMessage × ByteServer :=
  match s.stage i with
  | .running v unread => match ClientMessage.read? unread with
    | none => (none, s.put i (.closing v) s.server)
    | some (m, rest) => match v.handle hosts.toHost s.server m with
      | (none, server) => (none, s.put i (.closing v) server)
      | (some (reply, v), server) =>
        let stage := if written ∧ reply.body.length ≤ Frame.maxBody then .running v rest
          else .closing v
        (some reply, s.put i stage server)
  | _ => (none, s)

def step (hosts : HostByJob) (s : ByteServer) : StreamEvent → Option ServerMessage × ByteServer
  | .connect i bytes => (none, match s.stage i with
    | .ahead => s.put i (.running .initial bytes) s.server
    | _ => s)
  | .read i written => s.read hosts i written
  | .fail i => (none, match s.stage i with
    | .running v _ => s.put i (.closing v) s.server
    | _ => s)
  | .clear i => (none, match s.stage i with
    | .closing v => s.put i .cleared (v.leave s.server)
    | _ => s)
  | .start id => (none, { s with server := s.server.start id })
  | .finish id task => (none, { s with server := s.server.finish (hosts.hostFor id) id task })

/-- The state after what happens. -/
def after (hosts : HostByJob) (s : ByteServer) (events : List StreamEvent) : ByteServer :=
  events.foldl (fun s e => (s.step hosts e).2) s

/-- What happens, with the replies. -/
def trace (hosts : HostByJob) :
    ByteServer → List StreamEvent → List (StreamEvent × Option ServerMessage)
  | _, [] => []
  | s, e :: events => (e, (s.step hosts e).1) :: trace hosts (s.step hosts e).2 events

end ByteServer

/-- The request that is accepted when there is this reply, with its connection. -/
def StreamEvent.taken : StreamEvent → Option ServerMessage → List (Nat × String)
  | .read i _, reply => ServerMessage.taken i reply
  | _, _ => []

namespace ByteServer

/-- All requests that are accepted, each with the connection it came on. -/
def taken (hosts : HostByJob) (s : ByteServer) (events : List StreamEvent) : List (Nat × String) :=
  (s.trace hosts events).flatMap fun o => o.1.taken o.2

/-! ## Reading and clearing -/

section

variable {hosts : HostByJob} {s : ByteServer} {i : Nat} {v v' : Visit} {unread rest : List UInt8}
  {m : ClientMessage} {server : Server}

theorem read_eq_closing (hstage : s.stage i = .running v unread)
    (hread : ClientMessage.read? unread = none) (written : Bool) :
    s.read hosts i written = (none, s.put i (.closing v) s.server) := by
  simp only [read, hstage, hread]

theorem read_eq_answered {reply : ServerMessage} (hstage : s.stage i = .running v unread)
    (hread : ClientMessage.read? unread = some (m, rest))
    (hanswer : v.handle hosts.toHost s.server m = (some (reply, v'), server)) (written : Bool) :
    s.read hosts i written = (some reply,
      s.put i (if written ∧ reply.body.length ≤ Frame.maxBody then .running v' rest
        else .closing v') server) := by
  simp only [read, hstage, hread, hanswer]

/-- Without an answer the server is as it was. -/
theorem read_eq_goodbye (hstage : s.stage i = .running v unread)
    (hread : ClientMessage.read? unread = some (m, rest))
    (hanswer : v.handle hosts.toHost s.server m = (none, server)) (written : Bool) :
    server = s.server ∧ s.read hosts i written = (none, s.put i (.closing v) s.server) := by
  have hserver : server = s.server := by
    have hhandled := Server.handled hosts.toHost s.server m
    unfold Visit.handle at hanswer
    split at hanswer
    · cases hanswer
    · rename_i s' hnone
      rw [hnone] at hhandled
      obtain ⟨-, rfl⟩ := Prod.mk.inj hanswer
      cases hhandled
      rfl
  subst hserver
  exact ⟨rfl, by simp only [read, hstage, hread, hanswer]⟩

theorem step_clear (hosts : HostByJob) (hstage : s.stage i = .closing v) :
    s.step hosts (.clear i) = (none, s.put i .cleared (v.leave s.server)) := by
  simp only [step, hstage]

end

@[simp] theorem server_put (s : ByteServer) (i : Nat) (stage : Stage) (server : Server) :
    (s.put i stage server).server = server := rfl

@[simp] theorem put_put (s : ByteServer) (i : Nat) (stage stage' : Stage)
    (server server' : Server) :
    (s.put i stage server).put i stage' server' = s.put i stage' server' := by
  unfold put
  congr 1
  funext j
  by_cases hij : j = i <;> simp [hij]

@[simp] theorem stage_put_self (s : ByteServer) (i : Nat) (stage : Stage) (server : Server) :
    (s.put i stage server).stage i = stage := if_pos rfl

/-! ## As a shared server -/

/-- The connections as visits. -/
def shared (s : ByteServer) : SharedServer := ⟨s.server, fun i => (s.stage i).visit?⟩

@[simp] theorem server_shared (s : ByteServer) : s.shared.server = s.server := rfl

@[simp] theorem visits_shared (s : ByteServer) (i : Nat) :
    s.shared.visits i = (s.stage i).visit? := rfl

theorem owned_shared (s : ByteServer) (i : Nat) : s.shared.owned i = (s.stage i).owned := by
  rw [SharedServer.owned, visits_shared]
  cases s.stage i <;> rfl

theorem shared_put (s : ByteServer) (i : Nat) (stage : Stage) (server : Server) :
    (s.put i stage server).shared = s.shared.put i stage.visit? server := by
  unfold shared put SharedServer.put
  congr 1
  funext j
  exact apply_ite Stage.visit? ..

/-- A new stage with the visit of the old one changes nothing for the visits. -/
theorem shared_put_of_visit?_eq {s : ByteServer} {i : Nat} {stage : Stage}
    (h : (s.stage i).visit? = stage.visit?) : (s.put i stage s.server).shared = s.shared := by
  rw [shared_put]
  unfold SharedServer.put
  congr 1
  funext j
  by_cases hij : j = i
  · rw [if_pos hij, hij, ← h]
  · rw [if_neg hij]
    rfl

/-- Reading changes nothing for the visits, or it is the message of a visit. -/
theorem read_cases (hosts : HostByJob) (s : ByteServer) (i : Nat) (written : Bool) :
    ((s.read hosts i written).1 = none ∧ (s.read hosts i written).2.shared = s.shared) ∨
      ∃ m, (s.read hosts i written).1 = (s.shared.message hosts i m).1 ∧
        (s.read hosts i written).2.shared = (s.shared.message hosts i m).2 := by
  cases hstage : s.stage i with
  | running v unread =>
    have hvisit : s.shared.visits i = some v := by
      rw [visits_shared, hstage]
      rfl
    cases hread : ClientMessage.read? unread with
    | none =>
      rw [read_eq_closing hstage hread]
      exact Or.inl ⟨rfl, shared_put_of_visit?_eq hvisit⟩
    | some p =>
      obtain ⟨m, rest⟩ := p
      cases hanswer : v.handle hosts.toHost s.server m with
      | mk answer server =>
        cases answer with
        | none =>
          rw [(read_eq_goodbye hstage hread hanswer written).2]
          exact Or.inl ⟨rfl, shared_put_of_visit?_eq hvisit⟩
        | some p =>
          obtain ⟨reply, v'⟩ := p
          have hmessage : s.shared.message hosts i m =
              (some reply, s.shared.put i (some v') server) := by
            simp only [SharedServer.message, hvisit, server_shared, hanswer]
          rw [read_eq_answered hstage hread hanswer]
          refine Or.inr ⟨m, by rw [hmessage], ?_⟩
          rw [hmessage, shared_put]
          split_ifs <;> rfl
  | _ =>
    left
    simp only [read, hstage, and_self]

/-! ## Owners -/

/-- The visits are in order, and its jobs belong to the connections that their requests came on. -/
structure Sound (hosts : HostByJob) (taken : List (Nat × String)) (s : ByteServer) : Prop where
  orderly : s.shared.Orderly hosts
  attributed : s.shared.Attributed hosts taken

namespace Sound

variable {hosts : HostByJob} {taken : List (Nat × String)} {s s' : ByteServer}

theorem initial : Sound hosts [] .initial := ⟨.initial, .initial⟩

/-- What changes nothing for the visits keeps it sound. -/
theorem of_shared_eq (hs : s.Sound hosts taken) (h : s'.shared = s.shared) : s'.Sound hosts taken :=
  ⟨h ▸ hs.orderly, h ▸ hs.attributed⟩

theorem read (hs : s.Sound hosts taken) (hnames : Function.Injective hosts.requestName) (i : Nat)
    (written : Bool) : (s.read hosts i written).2.Sound hosts
      (taken ++ ServerMessage.taken i (s.read hosts i written).1) := by
  rcases s.read_cases hosts i written with ⟨hreply, hshared⟩ | ⟨m, hreply, hshared⟩
  · rw [hreply]
    simpa [ServerMessage.taken] using hs.of_shared_eq hshared
  · rw [hreply]
    refine ⟨?_, ?_⟩
    · rw [hshared]
      exact hs.orderly.message hnames i m
    · rw [hshared]
      exact hs.attributed.message hs.orderly hnames i m

theorem updateJob (hs : s.Sound hosts taken) (id : String) (f : Job → Job) :
    Sound hosts taken { s with server := s.server.updateJob id f } :=
  ⟨hs.orderly.updateJob id f, hs.attributed.updateJob id f⟩

/-- The jobs of a connection that has ended go with it. -/
theorem clear (hs : s.Sound hosts taken) {i : Nat} {v : Visit} (hstage : s.stage i = .closing v) :
    (s.put i .cleared (v.leave s.server)).Sound hosts taken := by
  have hshared : (s.put i .cleared (v.leave s.server)).shared = s.shared.leave i := by
    rw [shared_put, SharedServer.leave, owned_shared, hstage]
    rfl
  exact ⟨hshared ▸ hs.orderly.leave i, hshared ▸ hs.attributed.leave i⟩

theorem step (hs : s.Sound hosts taken) (hnames : Function.Injective hosts.requestName)
    (e : StreamEvent) : (s.step hosts e).2.Sound hosts (taken ++ e.taken (s.step hosts e).1) := by
  have hsilent : ∀ {s' : ByteServer}, s'.Sound hosts taken → s'.Sound hosts (taken ++ []) := by
    intro s' hs'
    rwa [List.append_nil]
  cases e with
  | read i written => exact hs.read hnames i written
  | start id => exact hsilent (hs.updateJob id Job.start)
  | finish id task => exact hsilent (hs.updateJob id (Job.finish (hosts.engineFor id) task))
  | connect i bytes =>
    apply hsilent
    unfold ByteServer.step
    dsimp only
    split
    · rename_i hstage
      exact hs.of_shared_eq (shared_put_of_visit?_eq (by rw [hstage]; rfl))
    · exact hs
  | fail i =>
    apply hsilent
    unfold ByteServer.step
    dsimp only
    split
    · rename_i v unread hstage
      exact hs.of_shared_eq (shared_put_of_visit?_eq (by rw [hstage]; rfl))
    · exact hs
  | clear i =>
    apply hsilent
    unfold ByteServer.step
    dsimp only
    split
    · rename_i v hstage
      exact hs.clear hstage
    · exact hs

theorem after (hs : s.Sound hosts taken) (hnames : Function.Injective hosts.requestName)
    (events : List StreamEvent) :
    (s.after hosts events).Sound hosts (taken ++ s.taken hosts events) := by
  induction events generalizing s taken with
  | nil => exact (List.append_nil taken).symm ▸ hs
  | cons e events ih =>
    have hrest := ih (hs.step hnames e)
    rwa [List.append_assoc] at hrest

/-- A job that is in the table is owned by the connection that its request came on. -/
theorem mem_owned_iff (hs : s.Sound hosts taken) {id : String} (hid : s.server.jobs.get? id ≠ none)
    (i : Nat) : id ∈ (s.stage i).owned ↔ (i, id) ∈ taken := by
  rw [← owned_shared]
  exact hs.attributed.owned_iff id hid i

end Sound

theorem Stage.isLive_of_mem_owned {stage : Stage} {id : String} (h : id ∈ stage.owned) :
    stage.isLive = true := by
  cases stage with
  | running v unread => rfl
  | closing v => rfl
  | ahead => cases h
  | cleared => cases h

/-- Each job in the table is in the hands of one connection, which has not been cleared.  When a
connection is cleared, the jobs of the requests that were accepted on it go, and no others change;
so there are none of them in the table from then on, and no jobs at all when no connection is
left. -/
theorem owner_of_job {hosts : HostByJob} (hnames : Function.Injective hosts.requestName)
    {events : List StreamEvent} {s : ByteServer} (hs : initial.after hosts events = s)
    {taken : List (Nat × String)} (htaken : initial.taken hosts events = taken) :
    (∀ id, s.server.jobs.get? id ≠ none →
      ∃! i, (s.stage i).isLive = true ∧ id ∈ (s.stage i).owned) ∧
    (∀ i j id, (i, id) ∈ taken → (j, id) ∈ taken → i = j) ∧
    (∀ i v, s.stage i = .closing v →
      (s.step hosts (.clear i)).2.stage i = .cleared ∧
      ∀ id, (s.step hosts (.clear i)).2.server.jobs.get? id =
        if (i, id) ∈ taken then none else s.server.jobs.get? id) ∧
    (∀ i, s.stage i = .cleared → ∀ id, (i, id) ∈ taken → s.server.jobs.get? id = none) ∧
    ((∀ i, (s.stage i).isLive = false) → s.server.jobs = .empty) := by
  have hsound : s.Sound hosts taken := by
    rw [← hs, ← htaken]
    exact Sound.initial.after hnames events
  have howner : ∀ id, s.server.jobs.get? id ≠ none →
      ∃! i, (s.stage i).isLive = true ∧ id ∈ (s.stage i).owned := by
    intro id hid
    obtain ⟨i, hi⟩ := hsound.attributed.exists_taken id hid
    have howned := (hsound.mem_owned_iff hid i).2 hi
    refine ⟨i, ⟨Stage.isLive_of_mem_owned howned, howned⟩, ?_⟩
    rintro j ⟨-, hj⟩
    exact hsound.attributed.once j i id ((hsound.mem_owned_iff hid j).1 hj) hi
  refine ⟨howner, hsound.attributed.once, ?_, ?_, ?_⟩
  · intro i v hstage
    rw [step_clear hosts hstage]
    refine ⟨stage_put_self .., ?_⟩
    intro id
    show (s.server.evict v.owned).jobs.get? id = _
    rw [Server.get?_evict]
    by_cases hid : s.server.jobs.get? id = none
    · rw [hid, ite_self, ite_self]
    · have hmem := hsound.mem_owned_iff hid i
      rw [hstage] at hmem
      simp only [← hmem]
      rfl
  · intro i hcleared id hid
    by_contra hjob
    have hmem := (hsound.mem_owned_iff hjob i).2 hid
    rw [hcleared] at hmem
    cases hmem
  · intro hnobody
    apply NameMap.ext_get?
    intro id
    by_contra hjob
    obtain ⟨i, ⟨hlive, -⟩, -⟩ := howner id hjob
    rw [hnobody i] at hlive
    cases hlive

/-- The request is accepted before reading fails, and its job goes with the connection. -/
theorem owner_of_single : ∃ (frame : List UInt8) (s : ByteServer),
    Frame.encode (ClientMessage.execute .single).body = .ok frame ∧
      initial.after Host.tally.byJob [.connect 0 frame, .read 0 true, .fail 0] = s ∧
      s.stage 0 = .closing ⟨["I"]⟩ ∧ s.server.jobs.get? "I" = some (.queued .single) ∧
      (∃! i, (s.stage i).isLive = true ∧ "I" ∈ (s.stage i).owned) ∧
      (s.step Host.tally.byJob (.clear 0)).2.server.jobs.get? "I" = none := by
  have hlimit : (ClientMessage.execute .single).body.length ≤ Frame.maxBody := by decide +kernel
  obtain ⟨frame, hframe⟩ : ∃ frame, Frame.encode (ClientMessage.execute .single).body = .ok frame :=
    ⟨_, Frame.encode_eq_ok.2 ⟨hlimit, rfl⟩⟩
  have htravels : (ClientMessage.execute .single).Travels := Request.travels_single
  have hread : ClientMessage.read? frame = some (.execute .single, []) :=
    ClientMessage.read?_of_encode htravels hframe
  have hreply : (ServerMessage.accepted "I").body.length ≤ Frame.maxBody := by decide +kernel
  have hanswer : Visit.initial.handle Host.tally.byJob.toHost Server.initial (.execute .single) =
      (some (.accepted "I", ⟨["I"]⟩), Server.initial.accept .tally .single) := rfl
  have hanswered : (initial.put 0 (.running .initial frame) .initial).read Host.tally.byJob 0
        true = (some (.accepted "I"),
          initial.put 0 (.running ⟨["I"]⟩ []) (Server.initial.accept .tally .single)) := by
    rw [read_eq_answered rfl hread hanswer, if_pos ⟨rfl, hreply⟩, put_put]
  have hafter : initial.after Host.tally.byJob [.connect 0 frame, .read 0 true, .fail 0] =
      initial.put 0 (.closing ⟨["I"]⟩) (Server.initial.accept .tally .single) := by
    show ((initial.put 0 (.running .initial frame) .initial).read Host.tally.byJob 0
      true).2.after Host.tally.byJob [.fail 0] = _
    rw [hanswered]
    exact put_put ..
  have htaken : initial.taken Host.tally.byJob [.connect 0 frame, .read 0 true, .fail 0] =
      [(0, "I")] := by
    show ServerMessage.taken 0 ((initial.put 0 (.running .initial frame) .initial).read
      Host.tally.byJob 0 true).1 ++ [] = _
    rw [hanswered]
    rfl
  obtain ⟨howner, -, hclear, -⟩ := owner_of_job Host.injective_tally hafter htaken
  have hjob : (initial.put 0 (.closing ⟨["I"]⟩)
      (Server.initial.accept .tally .single)).server.jobs.get? "I" = some (.queued .single) := rfl
  have hgone := (hclear 0 ⟨["I"]⟩ rfl).2 "I"
  rw [if_pos List.mem_cons_self] at hgone
  exact ⟨frame, _, hframe, hafter, rfl, hjob, howner "I" (by rw [hjob]; nofun), hgone⟩

end ByteServer

end EncryptedInference
