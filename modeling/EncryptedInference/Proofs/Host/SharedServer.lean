import EncryptedInference.Host.Link
import EncryptedInference.Proofs.Host.Replies

/-!
# A server and all its visits

A server is shared by all the visits that are made to it.  Its moves are what can happen there: a
message of a visit is answered, a visit ends, the task of a job begins or ends; they come in any
order.  What the engine makes of a request may be different for each job (`HostByJob`).
`SharedServer.trace` is what a run of moves shows from outside.

Names are given once (`Function.Injective hosts.requestName`), so in every state that moves lead to,
the jobs and the visits know only names that have been given, and no two visits own the same one:
`SharedServer.Orderly`, kept by each move (`Orderly.step`) and so by each run (`Orderly.after`).
-/

namespace EncryptedInference

/-- A host whose engine need not make the same of the same request every time: `engineFor` is the
engine as it treats the job of a name. -/
structure HostByJob extends Host where
  engineFor : String → Engine

namespace HostByJob

/-- The host as it treats the job of a name. -/
def hostFor (hosts : HostByJob) (id : String) : Host :=
  { hosts.toHost with engine := hosts.engineFor id }

end HostByJob

/-- The host that treats all jobs alike. -/
def Host.byJob (host : Host) : HostByJob := { host with engineFor := fun _ => host.engine }

/-- A server with its table of jobs, and the connections to it, each under a number, as far as the
server keeps account of them. A visit that is over is `none`. -/
structure SharedServer where
  server : Server
  visits : Nat → Option Visit

/-- Something that happens at a server: a message of a visit arrives, a visit ends, or the task of a
job begins or ends. -/
inductive Move
  | message (visit : Nat) (m : ClientMessage)
  /-- The visit ends, for whatever reason. -/
  | leave (visit : Nat)
  | start (id : String)
  /-- The computation runs in a task of its own, with the given number. -/
  | finish (id : String) (task : Nat)

/-- A move and the reply it is answered with. -/
structure Occurrence where
  move : Move
  reply : Option ServerMessage

namespace SharedServer

/-- Nothing has happened; every visit is still to come. -/
def initial : SharedServer := ⟨.initial, fun _ => some .initial⟩

/-- Another table of jobs and another state of a visit. -/
def put (h : SharedServer) (i : Nat) (v : Option Visit) (s : Server) : SharedServer :=
  ⟨s, fun j => if j = i then v else h.visits j⟩

/-- The requests that a visit owns; one that is over owns none. -/
def owned (h : SharedServer) (i : Nat) : List String := ((h.visits i).map Visit.owned).getD []

/-- A visit ends, and its jobs are gone. -/
def leave (h : SharedServer) (i : Nat) : SharedServer := h.put i none (h.server.evict (h.owned i))

/-- The reply to a message of a visit, and the state after it. -/
def message (hosts : HostByJob) (h : SharedServer) (i : Nat) (m : ClientMessage) :
    Option ServerMessage × SharedServer :=
  match h.visits i with
  | none => (none, h)
  | some v => match v.handle hosts.toHost h.server m with
    | (some (reply, v), s) => (some reply, h.put i (some v) s)
    | (none, s) => (none, h.put i none (v.leave s))

def step (hosts : HostByJob) (h : SharedServer) : Move → Option ServerMessage × SharedServer
  | .message i m => h.message hosts i m
  | .leave i => (none, h.leave i)
  | .start id => (none, { h with server := h.server.start id })
  | .finish id task => (none, { h with server := h.server.finish (hosts.hostFor id) id task })

/-- The state after moves. -/
def after (hosts : HostByJob) (h : SharedServer) (moves : List Move) : SharedServer :=
  moves.foldl (fun h move => (h.step hosts move).2) h

/-- What moves show from outside. -/
def trace (hosts : HostByJob) : SharedServer → List Move → List Occurrence
  | _, [] => []
  | h, move :: moves => ⟨move, (h.step hosts move).1⟩ :: trace hosts (h.step hosts move).2 moves

theorem trace_append (hosts : HostByJob) (h : SharedServer) (moves moves' : List Move) :
    h.trace hosts (moves ++ moves') =
      h.trace hosts moves ++ (h.after hosts moves).trace hosts moves' := by
  induction moves generalizing h with
  | nil => rfl
  | cons move moves ih => exact congrArg _ (ih _)

theorem length_trace (hosts : HostByJob) (h : SharedServer) (moves : List Move) :
    (h.trace hosts moves).length = moves.length := by
  induction moves generalizing h with
  | nil => rfl
  | cons move moves ih => exact congrArg _ (ih _)

/-- A trace in two parts comes from moves in two parts. -/
theorem exists_of_trace_eq_append {hosts : HostByJob} {h : SharedServer} {moves : List Move}
    {past future : List Occurrence} (ht : h.trace hosts moves = past ++ future) :
    ∃ before rest, moves = before ++ rest ∧ h.trace hosts before = past ∧
      (h.after hosts before).trace hosts rest = future := by
  have hle : past.length ≤ moves.length := by
    have hlength := congrArg List.length ht
    rw [length_trace, List.length_append] at hlength
    omega
  have hsplit : moves.take past.length ++ moves.drop past.length = moves := List.take_append_drop ..
  rw [← hsplit, trace_append] at ht
  have htake : (h.trace hosts (moves.take past.length)).length = past.length := by
    rw [length_trace, List.length_take]
    omega
  obtain ⟨hpast, hfuture⟩ := List.append_inj ht htake
  exact ⟨_, _, hsplit.symm, hpast, hfuture⟩

/-! ## Moves -/

@[simp] theorem server_put (h : SharedServer) (i : Nat) (v : Option Visit) (s : Server) :
    (h.put i v s).server = s := rfl

theorem owned_put (h : SharedServer) (i j : Nat) (v : Option Visit) (s : Server) :
    (h.put i v s).owned j = if j = i then (v.map Visit.owned).getD [] else h.owned j := by
  unfold owned put
  dsimp only
  by_cases hij : j = i
  · rw [if_pos hij, if_pos hij]
  · rw [if_neg hij, if_neg hij]

theorem owned_leave (h : SharedServer) (i j : Nat) :
    (h.leave i).owned j = if j = i then [] else h.owned j :=
  owned_put ..

/-- A reply gives its visit the request that it takes on, and takes from it the one whose result it
hands out. -/
theorem mem_owned_noted {h : SharedServer} {i : Nat} {v : Visit} (hv : h.visits i = some v)
    {reply : ServerMessage} {s : Server} {j : Nat} {id : String} :
    id ∈ (h.put i (some (v.noted reply)) s).owned j ↔
      (j = i ∧ reply = .accepted id) ∨
        (id ∈ h.owned j ∧ (j = i → ∀ r, reply = .result r → r.requestId ≠ id)) := by
  rw [owned_put]
  by_cases hij : j = i
  · have hown : h.owned i = v.owned := by rw [owned, hv]; rfl
    rw [if_pos hij, hij, hown]
    cases reply with
    | accepted other =>
      by_cases hid : id = other
      · simp [Visit.noted, hid]
      · simp [Visit.noted, hid, Ne.symm hid]
    | result r =>
      by_cases hid : id = r.requestId
      · simp [Visit.noted, hid]
      · simp [Visit.noted, hid, Ne.symm hid]
    | _ => simp [Visit.noted]
  · simp [hij]

/-- A message of a visit that is over does nothing, a goodbye ends the visit, and any other message
is answered. -/
theorem message_cases (hosts : HostByJob) (h : SharedServer) (i : Nat) (m : ClientMessage) :
    (h.visits i = none ∧ h.message hosts i m = (none, h)) ∨
    (m = .goodbye ∧ h.message hosts i m = (none, h.leave i)) ∨
    ∃ v reply s, h.visits i = some v ∧ Server.Handled hosts.toHost h.server m (some reply) s ∧
      h.message hosts i m = (some reply, h.put i (some (v.noted reply)) s) := by
  cases hv : h.visits i with
  | none => exact Or.inl ⟨rfl, by rw [message, hv]⟩
  | some v =>
    right
    have hhandled := Server.handled hosts.toHost h.server m
    cases hreply : (h.server.handle hosts.toHost m).1 with
    | none =>
      left
      have hanswer : h.server.handle hosts.toHost m = (none, (h.server.handle hosts.toHost m).2) :=
        Prod.ext hreply rfl
      rw [hreply] at hhandled
      cases hhandled
      refine ⟨rfl, ?_⟩
      rw [message, hv, leave, owned, hv]
      rfl
    | some reply =>
      right
      have hanswer : h.server.handle hosts.toHost m =
          (some reply, (h.server.handle hosts.toHost m).2) := Prod.ext hreply rfl
      rw [hreply] at hhandled
      refine ⟨v, reply, _, rfl, hhandled, ?_⟩
      rw [message, hv]
      simp only [Visit.handle]
      rw [hanswer]

/-! ## Names -/

/-- The name is one of those that a server has given. -/
def Given (hosts : HostByJob) (s : Server) (id : String) : Prop :=
  ∃ k < s.accepted, id = hosts.requestName k

theorem Given.mono {hosts : HostByJob} {s t : Server} {id : String} (h : Given hosts s id)
    (hle : s.accepted ≤ t.accepted) : Given hosts t id := by
  obtain ⟨k, hk, hid⟩ := h
  exact ⟨k, Nat.lt_of_lt_of_le hk hle, hid⟩

theorem not_given_next {hosts : HostByJob} (hnames : Function.Injective hosts.requestName)
    (s : Server) : ¬ Given hosts s (hosts.requestName s.accepted) := by
  rintro ⟨k, hk, hid⟩
  have heq := hnames hid
  omega

/-- The jobs and the visits know only names that were given, and each name has one owner at most. -/
structure Orderly (hosts : HostByJob) (h : SharedServer) : Prop where
  jobs : ∀ id, h.server.jobs.get? id ≠ none → Given hosts h.server id
  owned : ∀ i, ∀ id ∈ h.owned i, Given hosts h.server id
  apart : ∀ i j, i ≠ j → ∀ id ∈ h.owned i, id ∉ h.owned j

namespace Orderly

variable {hosts : HostByJob} {h : SharedServer}

theorem initial : Orderly hosts .initial where
  jobs _ hid := absurd rfl hid
  owned _ _ hid := by cases hid
  apart _ _ _ _ hid := by cases hid

theorem absent (ho : Orderly hosts h) {id : String} (hid : ¬ Given hosts h.server id) :
    h.server.jobs.get? id = none := by
  cases hjob : h.server.jobs.get? id with
  | none => rfl
  | some job =>
    have hgiven := ho.jobs id (by rw [hjob]; nofun)
    exact absurd hgiven hid

/-- Jobs and ownership may go. -/
theorem of_subset (ho : Orderly hosts h) {h' : SharedServer}
    (haccepted : h'.server.accepted = h.server.accepted)
    (hjobs : ∀ id, h'.server.jobs.get? id ≠ none → h.server.jobs.get? id ≠ none)
    (howned : ∀ i, ∀ id ∈ h'.owned i, id ∈ h.owned i) : Orderly hosts h' where
  jobs id hid := (ho.jobs id (hjobs id hid)).mono (Nat.le_of_eq haccepted.symm)
  owned i id hid := (ho.owned i id (howned i id hid)).mono (Nat.le_of_eq haccepted.symm)
  apart i j hij id hid hid' := ho.apart i j hij id (howned i id hid) (howned j id hid')

theorem leave (ho : Orderly hosts h) (i : Nat) : Orderly hosts (h.leave i) := by
  have haccepted : (h.leave i).server.accepted = h.server.accepted := rfl
  apply ho.of_subset haccepted
  · intro id
    exact mt (Server.absent_evict · (h.owned i))
  · intro j id hid
    rw [owned_leave] at hid
    by_cases hij : j = i
    · rw [if_pos hij] at hid
      cases hid
    · rwa [if_neg hij] at hid

theorem updateJob (ho : Orderly hosts h) (id : String) (f : Job → Job) :
    Orderly hosts { h with server := h.server.updateJob id f } := by
  apply ho.of_subset (Server.accepted_updateJob ..)
  · intro other
    exact mt (Server.absent_updateJob · id f)
  · intro i id hid
    exact hid

/-- The visit that sent a request owns it once it is taken on, and whatever it owned before. -/
theorem mem_owned_accept (ho : Orderly hosts h) (hnames : Function.Injective hosts.requestName)
    {i : Nat} {v : Visit} (hv : h.visits i = some v) (r : Request) (j : Nat) (id : String) :
    id ∈ (h.put i (some (v.noted (.accepted (hosts.requestName h.server.accepted))))
        (h.server.accept hosts.toHost r)).owned j ↔
      (j = i ∧ id = hosts.requestName h.server.accepted) ∨
        (id ≠ hosts.requestName h.server.accepted ∧ id ∈ h.owned j) := by
  have hother : id ∈ h.owned j → id ≠ hosts.requestName h.server.accepted := by
    rintro hid rfl
    exact not_given_next hnames h.server (ho.owned j _ hid)
  rw [mem_owned_noted hv, ServerMessage.accepted.injEq, eq_comm (b := id)]
  simp only [reduceCtorEq, false_implies, implies_true, and_true]
  exact or_congr_right ⟨fun hid => ⟨hother hid, hid⟩, And.right⟩

/-- The next name goes to the job and the owner of an accepted request. -/
theorem accept (ho : Orderly hosts h) (hnames : Function.Injective hosts.requestName) {i : Nat}
    {v : Visit} (hv : h.visits i = some v) (r : Request) :
    Orderly hosts (h.put i (some (v.noted (.accepted (hosts.requestName h.server.accepted))))
      (h.server.accept hosts.toHost r)) := by
  have hmem j id := (ho.mem_owned_accept hnames hv r j id).1
  constructor
  · intro id hid
    rw [server_put, Server.get?_accept] at hid
    by_cases heq : id = hosts.requestName h.server.accepted
    · exact ⟨_, Nat.lt_succ_self _, heq⟩
    · rw [if_neg heq] at hid
      exact (ho.jobs id hid).mono (Nat.le_succ _)
  · intro j id hid
    rcases hmem j id hid with ⟨-, rfl⟩ | ⟨-, hid⟩
    · exact ⟨_, Nat.lt_succ_self _, rfl⟩
    · exact (ho.owned j id hid).mono (Nat.le_succ _)
  · intro j k hjk id hid hid'
    rcases hmem j id hid with ⟨hj, hnext⟩ | ⟨hne, hj⟩
    · rcases hmem k id hid' with ⟨hk, -⟩ | ⟨hne, -⟩
      · exact hjk (hj.trans hk.symm)
      · exact hne hnext
    · rcases hmem k id hid' with ⟨-, hnext⟩ | ⟨-, hk⟩
      · exact hne hnext
      · exact ho.apart j k hjk id hj hk

/-- Any other reply gives no names. -/
theorem answer (ho : Orderly hosts h) {i : Nat} {v : Visit} (hv : h.visits i = some v)
    {reply : ServerMessage} (hreply : ∀ id, reply ≠ .accepted id) {s : Server}
    (haccepted : s.accepted = h.server.accepted)
    (hjobs : ∀ id, s.jobs.get? id ≠ none → h.server.jobs.get? id ≠ none) :
    Orderly hosts (h.put i (some (v.noted reply)) s) := by
  apply ho.of_subset haccepted hjobs
  intro j id hid
  rcases (mem_owned_noted hv).1 hid with ⟨-, htaken⟩ | ⟨hold, -⟩
  · exact absurd htaken (hreply id)
  · exact hold

theorem handled (ho : Orderly hosts h) (hnames : Function.Injective hosts.requestName) {i : Nat}
    {v : Visit} (hv : h.visits i = some v) {m : ClientMessage} {reply : ServerMessage} {s : Server}
    (hm : Server.Handled hosts.toHost h.server m (some reply) s) :
    Orderly hosts (h.put i (some (v.noted reply)) s) := by
  rcases hm.accepted_or_kept with ⟨r, rfl, rfl⟩ | ⟨hreply, haccepted, hjobs, -⟩
  · exact ho.accept hnames hv r
  · exact ho.answer hv hreply haccepted hjobs

theorem message (ho : Orderly hosts h) (hnames : Function.Injective hosts.requestName) (i : Nat)
    (m : ClientMessage) : Orderly hosts (h.message hosts i m).2 := by
  rcases h.message_cases hosts i m with ⟨-, heq⟩ | ⟨-, heq⟩ | ⟨v, reply, s, hv, hm, heq⟩
  · rw [heq]
    exact ho
  · rw [heq]
    exact ho.leave i
  · rw [heq]
    exact ho.handled hnames hv hm

theorem step (ho : Orderly hosts h) (hnames : Function.Injective hosts.requestName) (move : Move) :
    Orderly hosts (h.step hosts move).2 := by
  cases move with
  | message i m => exact ho.message hnames i m
  | leave i => exact ho.leave i
  | start id => exact ho.updateJob id Job.start
  | finish id task => exact ho.updateJob id (Job.finish (hosts.engineFor id) task)

theorem after (ho : Orderly hosts h) (hnames : Function.Injective hosts.requestName)
    (moves : List Move) : Orderly hosts (h.after hosts moves) := by
  induction moves generalizing h with
  | nil => exact ho
  | cons move moves ih =>
    have hstep := ho.step hnames move
    exact ih hstep

end Orderly

/-- Names are given one after the other. -/
theorem accepted_message_le (hosts : HostByJob) (h : SharedServer) (i : Nat) (m : ClientMessage) :
    h.server.accepted ≤ (h.message hosts i m).2.server.accepted := by
  rcases h.message_cases hosts i m with ⟨-, heq⟩ | ⟨-, heq⟩ | ⟨v, reply, s, -, hhandled, heq⟩
  · exact Nat.le_of_eq (by rw [heq])
  · exact Nat.le_of_eq (by rw [heq]; rfl)
  · rw [heq, server_put]
    cases hhandled with
    | accepted r => exact Nat.le_succ _
    | _ => exact Nat.le_refl _

theorem accepted_step_le (hosts : HostByJob) (h : SharedServer) (move : Move) :
    h.server.accepted ≤ (h.step hosts move).2.server.accepted := by
  cases move with
  | message i m => exact h.accepted_message_le hosts i m
  | leave i => exact Nat.le_refl _
  | start id => exact Nat.le_of_eq (Server.accepted_updateJob ..).symm
  | finish id task => exact Nat.le_of_eq (Server.accepted_updateJob ..).symm

theorem accepted_after_le (hosts : HostByJob) (h : SharedServer) (moves : List Move) :
    h.server.accepted ≤ (h.after hosts moves).server.accepted := by
  induction moves generalizing h with
  | nil => exact Nat.le_refl _
  | cons move moves ih =>
    have hstep := h.accepted_step_le hosts move
    exact Nat.le_trans hstep (ih _)

end SharedServer

end EncryptedInference
