import EncryptedInference.Proofs.Host.ByteServer

/-!
# Following one connection

`Visit.followBytes` reads a connection to its end with the tasks of all jobs beginning between its
messages.  That is one way in which things can go at a server with streams of bytes
(`ByteServer.exists_events_followBytes`), so what holds of all of them holds of it.
-/

namespace EncryptedInference

/-! ## Streams -/

namespace ClientMessage

theorem readAll_of_read?_eq_none {bytes : List UInt8} (h : read? bytes = none) :
    ∃ e items, Frame.readAll ofJson? bytes = .error e :: items := by
  rw [Frame.readAll_eq]
  unfold read? at h
  cases hsplit : Frame.split bytes with
  | frame body rest =>
    rw [hsplit] at h
    cases hbody : Frame.decodeBody ofJson? body with
    | ok m => simp [hbody] at h
    | error e => exact ⟨e, Frame.readAll ofJson? rest, by simp only [hbody]⟩
  | _ => exact ⟨_, _, rfl⟩

theorem readAll_of_read?_eq_some {bytes rest : List UInt8} {m : ClientMessage}
    (h : read? bytes = some (m, rest)) :
    Frame.readAll ofJson? bytes = .ok m :: Frame.readAll ofJson? rest ∧
      rest.length < bytes.length := by
  rw [Frame.readAll_eq]
  unfold read? at h
  cases hsplit : Frame.split bytes with
  | frame body rest' =>
    rw [hsplit] at h
    cases hbody : Frame.decodeBody ofJson? body with
    | ok m' =>
      simp only [hbody, Option.some.injEq, Prod.mk.injEq] at h
      obtain ⟨rfl, rfl⟩ := h
      exact ⟨by simp only [hbody], Frame.length_rest_lt hsplit⟩
    | error e => simp [hbody] at h
  | _ => simp [hsplit] at h

end ClientMessage

namespace Visit

variable (host : Host) (meanwhile : Meanwhile) {bytes rest : List UInt8} (v : Visit) (s : Server)

/-- What cannot be read ends the visit. -/
theorem followBytes_of_none (h : ClientMessage.read? bytes = none) :
    v.followBytes host meanwhile bytes s = ([], v.leave s) := by
  obtain ⟨e, items, hitems⟩ := ClientMessage.readAll_of_read?_eq_none h
  simp only [followBytes, hitems, follow]

/-- A message is answered, and then the rest of the stream is followed. -/
theorem followBytes_of_some {m : ClientMessage} (h : ClientMessage.read? bytes = some (m, rest)) :
    v.followBytes host meanwhile bytes s = match v.handle host s m with
      | (none, s) => ([], v.leave s)
      | (some (reply, v), s) =>
        (reply :: (v.followBytes host meanwhile rest (meanwhile s)).1,
          (v.followBytes host meanwhile rest (meanwhile s)).2) := by
  simp only [followBytes, (ClientMessage.readAll_of_read?_eq_some h).1, follow]
  cases v.handle host s m with
  | mk answer s' => cases answer <;> rfl

end Visit

/-! ## Tasks -/

namespace Server

theorem foldl_start (s : Server) (ids : List String) :
    (ids.foldl start s).accepted = s.accepted ∧ ∀ id, (ids.foldl start s).jobs.get? id =
      if id ∈ ids then (s.jobs.get? id).map Job.start else s.jobs.get? id := by
  have htwice : ∀ job : Job, job.start.start = job.start := by
    intro job
    cases job <;> rfl
  induction ids generalizing s with
  | nil => exact ⟨rfl, fun id => (if_neg List.not_mem_nil).symm⟩
  | cons first ids ih =>
    obtain ⟨haccepted, hjobs⟩ := ih (s.start first)
    refine ⟨haccepted.trans (accepted_updateJob ..), ?_⟩
    intro id
    rw [List.foldl_cons, hjobs, start, get?_updateJob]
    by_cases hfirst : id = first
    · cases s.jobs.get? id <;> simp [hfirst, htwice]
    · simp [hfirst]

/-- All queued jobs start when they start one after the other. -/
theorem foldl_start_keys (s : Server) : s.jobs.keys.foldl start s = s.startAll := by
  obtain ⟨haccepted, hjobs⟩ := s.foldl_start s.jobs.keys
  have htable : (s.jobs.keys.foldl start s).jobs = s.startAll.jobs := by
    apply NameMap.ext_get?
    intro id
    rw [hjobs, startAll, NameMap.get?_mapValues]
    by_cases hid : id ∈ s.jobs.keys
    · rw [if_pos hid]
    · rw [if_neg hid]
      cases hjob : s.jobs.get? id with
      | none => rfl
      | some job => exact absurd (NameMap.mem_keys.2 (by rw [hjob]; rfl)) hid
  exact congr (congrArg Server.mk htable) haccepted

end Server

namespace ByteServer

/-- The replies to what happens. -/
def replies (hosts : HostByJob) (s : ByteServer) (events : List StreamEvent) : List ServerMessage :=
  (s.trace hosts events).filterMap (·.2)

section

variable (hosts : HostByJob) (s : ByteServer)

theorem replies_cons (e : StreamEvent) (events : List StreamEvent) :
    s.replies hosts (e :: events) =
      (s.step hosts e).1.toList ++ (s.step hosts e).2.replies hosts events := by
  unfold replies
  rw [trace, List.filterMap_cons]
  cases (s.step hosts e).1 <;> rfl

theorem after_append (events events' : List StreamEvent) :
    s.after hosts (events ++ events') =
      (s.after hosts events).after hosts events' :=
  List.foldl_append

theorem replies_append (events events' : List StreamEvent) :
    s.replies hosts (events ++ events') =
      s.replies hosts events ++ (s.after hosts events).replies hosts events' := by
  induction events generalizing s with
  | nil => rfl
  | cons e events ih =>
    rw [List.cons_append, replies_cons, replies_cons, ih, List.append_assoc]
    rfl

theorem after_map_start (ids : List String) :
    s.after hosts (ids.map .start) = { s with server := ids.foldl Server.start s.server } ∧
      s.replies hosts (ids.map .start) = [] := by
  induction ids generalizing s with
  | nil => exact ⟨rfl, rfl⟩
  | cons id ids ih =>
    obtain ⟨hafter, hreplies⟩ := ih (s.step hosts (.start id)).2
    refine ⟨hafter, ?_⟩
    rw [List.map_cons, replies_cons, hreplies]
    rfl

/-- The tasks of all jobs begin. -/
theorem after_start_keys : s.after hosts (s.server.jobs.keys.map .start) =
      { s with server := s.server.startAll } ∧
    s.replies hosts (s.server.jobs.keys.map .start) = [] := by
  rw [← Server.foldl_start_keys]
  exact after_map_start hosts s _

end

/-! ## One of many streams -/

/-- A connection that ends without a reply is cleared. -/
theorem after_read_clear {hosts : HostByJob} {s : ByteServer} {i : Nat} {v : Visit}
    (hread : s.step hosts (.read i true) = (none, s.put i (.closing v) s.server)) :
    s.after hosts [.read i true, .clear i] = s.put i .cleared (v.leave s.server) ∧
      s.replies hosts [.read i true, .clear i] = [] := by
  have hclear := step_clear hosts (stage_put_self s i (.closing v) s.server)
  rw [put_put] at hclear
  constructor
  · rw [after, List.foldl_cons, hread, List.foldl_cons, hclear]
    rfl
  · rw [replies_cons, hread, replies_cons, hclear]
    rfl

/-- Reading a connection to its end, with all tasks beginning between its messages, is something
that can happen at the server, if no reply is too long. -/
theorem exists_events_followBytes {hosts : HostByJob} {bytes : List UInt8} {s : ByteServer}
    {i : Nat} {v : Visit} (hstage : s.stage i = .running v bytes)
    (hreplies : ∀ reply ∈ (v.followBytes hosts.toHost Server.startAll bytes s.server).1,
      reply.body.length ≤ Frame.maxBody) :
    ∃ events,
      s.after hosts events =
        s.put i .cleared (v.followBytes hosts.toHost Server.startAll bytes s.server).2 ∧
      s.replies hosts events =
        (v.followBytes hosts.toHost Server.startAll bytes s.server).1 := by
  induction hlength : bytes.length using Nat.strongRecOn generalizing bytes s v with
  | _ n ih =>
    cases hread : ClientMessage.read? bytes with
    | none =>
      rw [Visit.followBytes_of_none _ _ _ _ hread]
      exact ⟨_, after_read_clear (read_eq_closing hstage hread true)⟩
    | some p =>
      obtain ⟨m, rest⟩ := p
      have hrest := (ClientMessage.readAll_of_read?_eq_some hread).2
      rw [Visit.followBytes_of_some _ _ _ _ hread] at hreplies ⊢
      cases hanswer : v.handle hosts.toHost s.server m with
      | mk answer server =>
        rw [hanswer] at hreplies
        cases answer with
        | none =>
          obtain ⟨rfl, hclosing⟩ := read_eq_goodbye hstage hread hanswer true
          exact ⟨_, after_read_clear hclosing⟩
        | some p =>
          obtain ⟨reply, v'⟩ := p
          obtain ⟨hreply, hlater⟩ := List.forall_mem_cons.1 hreplies
          have hstep : s.step hosts (.read i true) =
              (some reply, s.put i (.running v' rest) server) := by
            have hanswered := read_eq_answered hstage hread hanswer true
            rwa [if_pos ⟨rfl, hreply⟩] at hanswered
          have hstarts := after_start_keys hosts (s.put i (.running v' rest) server)
          rw [server_put] at hstarts
          obtain ⟨hstarted, hquiet⟩ := hstarts
          obtain ⟨events, hafter, hfollowed⟩ := ih rest.length (hlength ▸ hrest)
            (s := s.put i (.running v' rest) server.startAll) (stage_put_self ..) hlater rfl
          rw [put_put] at hafter
          refine ⟨.read i true :: (server.jobs.keys.map .start ++ events), ?_, ?_⟩
          · rw [after, List.foldl_cons, hstep, ← after, after_append, hstarted]
            exact hafter
          · rw [replies_cons, hstep, replies_append, hquiet, hstarted]
            exact congrArg (reply :: ·) hfollowed

end ByteServer

end EncryptedInference
