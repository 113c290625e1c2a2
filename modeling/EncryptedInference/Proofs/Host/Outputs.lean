import EncryptedInference.Proofs.Host.Admission

/-!
# Outputs that can be told

An engine may give anything, infinities and NaNs among it, but a job only completes with outputs
that a document can hold.  So all results that a server ever keeps are finite (`Server.IsFinite`,
kept by each answer and each task), and every reply in every run can be sent
(`SharedServer.isSendable_of_mem_trace`).  With what holds of packed tensors and of all that was
read, this makes the round trip of messages a law about everything that either side writes.
-/

namespace EncryptedInference

/-! ## Jobs -/

namespace Job

/-- All outputs of a completed job are finite. -/
def IsFinite : Job → Prop
  | completed outputs => ∀ e ∈ outputs.entries, e.2.isFinite = true
  | _ => True

theorem isFinite_of_nonFiniteOutput? {outputs : NameMap SlotVector}
    (h : nonFiniteOutput? outputs = none) : (completed outputs).IsFinite := by
  intro e he
  have hnone := List.findSome?_eq_none_iff.1 h e he
  rw [Option.map_eq_none_iff] at hnone
  exact Option.isNone_iff_eq_none.2 hnone

/-- Whatever the engine gives, the job that ends with it is finite. -/
theorem isFinite_ofOutcome (task : Nat) (outcome : EngineOutcome) :
    (ofOutcome task outcome).IsFinite := by
  rcases ofOutcome_cases task outcome with ⟨outputs, h⟩ | ⟨reason, h⟩
  · rw [h]
    exact isFinite_of_nonFiniteOutput? (ofOutcome_eq_completed h).2
  · rw [h]
    trivial

theorem IsFinite.start {job : Job} (h : job.IsFinite) : job.start.IsFinite := by
  cases job with
  | queued r => trivial
  | _ => exact h

theorem IsFinite.finish {job : Job} (h : job.IsFinite) (engine : Engine) (task : Nat) :
    (job.finish engine task).IsFinite := by
  cases job with
  | running r => exact isFinite_ofOutcome ..
  | _ => exact h

end Job

/-! ## Servers -/

namespace Server

/-- All results that are kept are finite. -/
def IsFinite (s : Server) : Prop := ∀ id job, s.jobs.get? id = some job → job.IsFinite

namespace IsFinite

variable {s : Server}

theorem initial : Server.initial.IsFinite := by
  intro id job hjob
  have hnone : Server.initial.jobs.get? id = none := rfl
  rw [hnone] at hjob
  cases hjob

theorem accept (hs : s.IsFinite) (host : Host) (r : Request) : (s.accept host r).IsFinite := by
  intro id job hjob
  rw [get?_accept] at hjob
  split_ifs at hjob
  · obtain rfl := Option.some.inj hjob
    trivial
  · exact hs id job hjob

theorem drop (hs : s.IsFinite) (gone : String) : (s.drop gone).IsFinite := by
  intro id job hjob
  rw [get?_drop] at hjob
  split_ifs at hjob
  exact hs id job hjob

theorem evict (hs : s.IsFinite) (ids : List String) : (s.evict ids).IsFinite := by
  intro id job hjob
  rw [get?_evict] at hjob
  split_ifs at hjob
  exact hs id job hjob

theorem updateJob (hs : s.IsFinite) (id : String) {f : Job → Job}
    (hf : ∀ job, job.IsFinite → (f job).IsFinite) : (s.updateJob id f).IsFinite := by
  intro other job hjob
  rw [get?_updateJob] at hjob
  split_ifs at hjob
  · obtain ⟨job, hold, rfl⟩ := Option.map_eq_some_iff.1 hjob
    exact hf job (hs other job hold)
  · exact hs other job hjob

/-- The answer to a message, and the results that are kept after it, are finite. -/
theorem handled (hs : s.IsFinite) {host : Host} {m : ClientMessage}
    {reply : Option ServerMessage} {s' : Server} (hm : Handled host s m reply s') :
    (∀ answer ∈ reply, answer.IsSendable) ∧ s'.IsFinite := by
  have hplain : ∀ answer : ServerMessage, answer.FitsWords → answer.slots = [] →
      ∀ given ∈ some answer, given.IsSendable := by
    rintro answer hwords hslots _ ⟨⟩
    exact ⟨hwords, by simp [hslots]⟩
  cases hm with
  | hello => exact ⟨hplain _ (by decide : protocolVersion < 0x100000000) rfl, hs⟩
  | accepted r => exact ⟨hplain _ trivial rfl, hs.accept host r⟩
  | refused => exact ⟨hplain _ trivial rfl, hs⟩
  | unknownStatus => exact ⟨hplain _ trivial rfl, hs⟩
  | status => exact ⟨hplain _ trivial rfl, hs⟩
  | failedStatus => exact ⟨hplain _ trivial rfl, hs.drop _⟩
  | unknownFetch => exact ⟨hplain _ trivial rfl, hs⟩
  | result id outputs hjob =>
    refine ⟨?_, hs.drop id⟩
    rintro _ ⟨⟩
    refine ⟨trivial, ?_⟩
    have hfinite := hs id _ hjob
    intro slots hslots
    obtain ⟨e, he, rfl⟩ := List.mem_map.1 hslots
    exact hfinite e he
  | failure => exact ⟨hplain _ trivial rfl, hs.drop _⟩
  | early => exact ⟨hplain _ trivial rfl, hs⟩
  | goodbye => exact ⟨nofun, hs⟩

end IsFinite

end Server

/-! ## Runs -/

namespace SharedServer

variable {h : SharedServer}

theorem isFinite_message (hosts : HostByJob) (hs : h.server.IsFinite) (i : Nat)
    (m : ClientMessage) : (∀ reply ∈ (h.message hosts i m).1, reply.IsSendable) ∧
      (h.message hosts i m).2.server.IsFinite := by
  rcases h.message_cases hosts i m with ⟨-, heq⟩ | ⟨-, heq⟩ | ⟨v, reply, s, -, hhandled, heq⟩
  · rw [heq]
    exact ⟨nofun, hs⟩
  · rw [heq]
    exact ⟨nofun, hs.evict _⟩
  · rw [heq]
    exact hs.handled hhandled

/-- Each move is answered by what can be sent, and keeps the results finite. -/
theorem isFinite_step (hosts : HostByJob) (hs : h.server.IsFinite) (move : Move) :
    (∀ reply ∈ (h.step hosts move).1, reply.IsSendable) ∧
      (h.step hosts move).2.server.IsFinite := by
  cases move with
  | message i m => exact isFinite_message hosts hs i m
  | leave i => exact ⟨nofun, hs.evict _⟩
  | start id => exact ⟨nofun, hs.updateJob id fun _ => Job.IsFinite.start⟩
  | finish id task => exact ⟨nofun, hs.updateJob id fun _ hjob => hjob.finish ..⟩

/-- All replies of a run can be sent. -/
theorem isSendable_of_mem_trace (hosts : HostByJob) (hs : h.server.IsFinite) (moves : List Move) :
    ∀ e ∈ h.trace hosts moves, ∀ reply ∈ e.reply, reply.IsSendable := by
  induction moves generalizing h with
  | nil => exact List.forall_mem_nil _
  | cons move moves ih =>
    obtain ⟨hreply, hnext⟩ := isFinite_step hosts hs move
    exact List.forall_mem_cons.2 ⟨hreply, ih hnext⟩

end SharedServer

/-! ## Everything that is written -/

/-- Messages whose numbers are words and finite doubles are decoded to themselves, but for the
configuration of a request.  Such are the requests whose tensors were packed, the replies of a
server in any run with any engine, and all messages that any body is decoded to. -/
theorem Frame.decodeBody_traffic :
    (∀ m : ClientMessage, m.FitsWords → (∀ s ∈ m.slots, s.isFinite = true) →
      (∀ s ∈ m.slots, s.IsExact) → decodeBody ClientMessage.ofJson? m.body = .ok m.received) ∧
    (∀ m : ServerMessage, m.FitsWords → (∀ s ∈ m.slots, s.isFinite = true) →
      (∀ s ∈ m.slots, s.IsExact) → decodeBody ServerMessage.ofJson? m.body = .ok m) ∧
    (∀ r : Request, r.FitsWords →
      (∀ e ∈ r.tensors.entries, ∃ (p : Packer) (v : View) (packed : PackedBatch),
        p.pack v = .ok packed ∧ e.2 = packed.slots) →
      (∀ e ∈ r.tensors.entries, e.2.IsExact) →
      decodeBody ClientMessage.ofJson? (ClientMessage.execute r).body =
        .ok (.execute { r with config := none })) ∧
    (∀ (hosts : HostByJob) (moves : List Move), ∀ e ∈ SharedServer.initial.trace hosts moves,
      ∀ reply ∈ e.reply, reply.FitsWords ∧ (∀ s ∈ reply.slots, s.isFinite = true) ∧
        ((∀ s ∈ reply.slots, s.IsExact) →
          decodeBody ServerMessage.ofJson? reply.body = .ok reply)) ∧
    (∀ (body : List UInt8) (m : ClientMessage), decodeBody ClientMessage.ofJson? body = .ok m →
      (∀ s ∈ m.slots, s.IsExact) → decodeBody ClientMessage.ofJson? m.body = .ok m) ∧
    ∀ (body : List UInt8) (m : ServerMessage), decodeBody ServerMessage.ofJson? body = .ok m →
      (∀ s ∈ m.slots, s.IsExact) → decodeBody ServerMessage.ofJson? m.body = .ok m := by
  refine ⟨?_, ?_, ?_, ?_, ?_, ?_⟩
  · intro m hwords hfinite hexact
    exact ClientMessage.decodeBody_body (ClientMessage.travels_of_isFinite ⟨hwords, hfinite⟩ hexact)
  · intro m hwords hfinite hexact
    exact ServerMessage.decodeBody_body (ServerMessage.travels_of_isFinite ⟨hwords, hfinite⟩ hexact)
  · intro r hwords hpacked hexact
    have hslots : ∀ s ∈ (ClientMessage.execute r).slots, s.isFinite = true ∧ s.IsExact := by
      intro s hs
      obtain ⟨e, he, rfl⟩ := List.mem_map.1 hs
      obtain ⟨p, v, packed, hpack, hpacked⟩ := hpacked e he
      exact ⟨hpacked ▸ Packer.isFinite_of_pack hpack, hexact e he⟩
    have hsendable : (ClientMessage.execute r).IsSendable := ⟨hwords, fun s hs => (hslots s hs).1⟩
    exact ClientMessage.decodeBody_body
      (ClientMessage.travels_of_isFinite hsendable fun s hs => (hslots s hs).2)
  · intro hosts moves e he reply hreply
    have hsendable : reply.IsSendable :=
      SharedServer.isSendable_of_mem_trace hosts Server.IsFinite.initial moves e he reply hreply
    refine ⟨hsendable.words, hsendable.finite, ?_⟩
    intro hexact
    exact ServerMessage.decodeBody_body (ServerMessage.travels_of_isFinite hsendable hexact)
  · intro body m hm hexact
    obtain ⟨j, hj⟩ := ofJson?_of_decodeBody hm
    obtain ⟨hreceived, hsendable⟩ := ClientMessage.isSendable_of_ofJson? hj
    have hbody := ClientMessage.decodeBody_body (ClientMessage.travels_of_isFinite hsendable hexact)
    rwa [hreceived] at hbody
  · intro body m hm hexact
    obtain ⟨j, hj⟩ := ofJson?_of_decodeBody hm
    exact ServerMessage.decodeBody_body
      (ServerMessage.travels_of_isFinite (ServerMessage.isSendable_of_ofJson? hj) hexact)

/-! ## A run -/

/-- A host whose engine gives an output that is no number. -/
def Host.nan : Host :=
  { Host.tally with engine := ⟨"nan", fun _ => .outputs (NameMap.empty.insert "y" (.real [.nan]))⟩ }

/-- What such an engine makes of a request. -/
def ServerMessage.nan : ServerMessage :=
  .status "I" .failed (some "evaluation failed: output 'y' holds a non-finite value at slot 0")

/-- The request with the packed square arrives, and so does the news of an output that cannot be
told. -/
theorem Frame.decodeBody_square :
    decodeBody ClientMessage.ofJson? (ClientMessage.execute .square).body =
        .ok (.execute { Request.square with config := none }) ∧
    ⟨.message 0 (.status "I"), some .nan⟩ ∈ SharedServer.initial.trace Host.nan.byJob
        [.message 0 (.execute .single), .start "I", .finish "I" 7, .message 0 (.status "I")] ∧
    decodeBody ServerMessage.ofJson? ServerMessage.nan.body = .ok .nan := by
  have ht : SharedServer.initial.trace Host.nan.byJob
        [.message 0 (.execute .single), .start "I", .finish "I" 7, .message 0 (.status "I")] =
      [⟨.message 0 (.execute .single), some (.accepted "I")⟩, ⟨.start "I", none⟩,
        ⟨.finish "I" 7, none⟩, ⟨.message 0 (.status "I"), some .nan⟩] := rfl
  have hlast : (⟨.message 0 (.status "I"), some .nan⟩ : Occurrence) ∈
      SharedServer.initial.trace Host.nan.byJob
        [.message 0 (.execute .single), .start "I", .finish "I" 7, .message 0 (.status "I")] := by
    simp [ht]
  obtain ⟨-, -, hrequest, hreply, -⟩ := decodeBody_traffic
  refine ⟨hrequest .square ?_ ?_ ?_, hlast, ?_⟩
  · exact ⟨Request.travels_square.batchSize, Request.travels_square.packing⟩
  · exact List.forall_mem_singleton.2 ⟨_, _, _, PackedBatch.pack_square, rfl⟩
  · exact List.forall_mem_singleton.2 PackedBatch.isExact_square
  · exact (hreply _ _ _ hlast _ rfl).2.2 (List.forall_mem_nil _)

end EncryptedInference
