import EncryptedInference.Proofs.Host.Renaming

/-!
# A visit by itself

What else goes on at a server is none of a visit's business, as long as no visit names the requests
of another.  When all moves but those of one visit are left out, the names that are given change,
because they are given one after the other, and the tasks may be numbered in another way.  Nothing
else changes: with its requests under other names, the visit is answered alike and its jobs are at
every moment the same, but for the number of the task that the text about a panic tells
(`SharedServer.isolated`).

The two runs are tied together by `SharedServer.Mirrors`.  A move of the visit does the same in
both (`Mirrors.step_own`); any other move leaves alone what the visit can see
(`Mirrors.step_other`).
-/

namespace EncryptedInference

/-! ## One visit of a run -/

namespace SharedServer

/-- The requests that came on a visit, according to a log. -/
def namesOf (log : List (Nat × String)) (i : Nat) : List String :=
  (log.filter fun p => p.1 = i).map Prod.snd

theorem mem_namesOf {log : List (Nat × String)} {i : Nat} {id : String} :
    id ∈ namesOf log i ↔ (i, id) ∈ log := by
  unfold namesOf
  constructor
  · intro h
    obtain ⟨⟨j, id⟩, hmem, rfl⟩ := List.mem_map.1 h
    obtain ⟨hlog, hj⟩ := List.mem_filter.1 hmem
    obtain rfl : j = i := by simpa using hj
    exact hlog
  · intro h
    exact List.mem_map.2 ⟨(i, id), List.mem_filter.2 ⟨h, by simp⟩, rfl⟩

theorem namesOf_append (log log' : List (Nat × String)) (i : Nat) :
    namesOf (log ++ log') i = namesOf log i ++ namesOf log' i := by
  unfold namesOf
  rw [List.filter_append, List.map_append]

/-- The name that a request of a visit gets when there is no other visit. -/
def soleName (host : Host) (log : List (Nat × String)) (i : Nat) (id : String) : String :=
  if id ∈ namesOf log i then host.requestName ((namesOf log i).idxOf id) else id

/-- The name is not that of a request on another visit. -/
def IsOpen (log : List (Nat × String)) (i : Nat) (id : String) : Prop := ∀ k, (k, id) ∈ log → k = i

end SharedServer

/-- The move is one of a visit with the given requests. -/
def Move.isOf (i : Nat) (own : List String) : Move → Bool
  | .message j _ | .leave j => j = i
  | .start id | .finish id _ => id ∈ own

/-- What is taken on comes on the visit of the move. -/
theorem Move.isOf_of_mem_taken {move : Move} {reply : Option ServerMessage} {p : Nat × String}
    (hp : p ∈ Occurrence.taken ⟨move, reply⟩) (i : Nat) (own : List String) :
    move.isOf i own = decide (p.1 = i) := by
  cases move with
  | message j m =>
    cases reply with
    | none => cases hp
    | some reply =>
      cases reply with
      | accepted id =>
        obtain rfl := List.mem_singleton.1 hp
        rfl
      | _ => cases hp
  | _ => cases hp

namespace SharedServer

/-- The moves of a visit by themselves, where `ν` gives the numbers that the tasks have then. -/
def alone (host : Host) (log : List (Nat × String)) (i : Nat) (ν : Nat → Nat)
    (moves : List Move) : List Move :=
  (moves.filter (Move.isOf i (namesOf log i))).map (Move.rename (soleName host log i) ν)

/-- The part of a log that is about one visit, as it is when there is no other. -/
def soleLog (host : Host) (log past : List (Nat × String)) (i : Nat) : List (Nat × String) :=
  (past.filter fun p => p.1 = i).map (Prod.map id (soleName host log i))

section

variable {host : Host} {log past : List (Nat × String)} {i : Nat}

theorem soleName_of_mem {id : String} (h : (i, id) ∈ log) :
    soleName host log i id = host.requestName ((namesOf log i).idxOf id) := if_pos (mem_namesOf.2 h)

theorem soleName_of_notMem {id : String} (h : (i, id) ∉ log) : soleName host log i id = id :=
  if_neg (mem_namesOf.not.2 h)

theorem length_namesOf_le (log : List (Nat × String)) (i : Nat) :
    (namesOf log i).length ≤ log.length := by
  rw [namesOf, List.length_map]
  exact List.length_filter_le ..

theorem length_soleLog (host : Host) (log past : List (Nat × String)) (i : Nat) :
    (soleLog host log past i).length = (namesOf past i).length := by
  rw [soleLog, namesOf, List.length_map, List.length_map]

theorem soleLog_append_own {new : List (Nat × String)} (h : ∀ p ∈ new, p.1 = i) :
    soleLog host log (past ++ new) i =
      soleLog host log past i ++ new.map (Prod.map id (soleName host log i)) := by
  have hall : new.filter (fun p => p.1 = i) = new :=
    List.filter_eq_self.2 fun p hp => decide_eq_true (h p hp)
  rw [soleLog, List.filter_append, hall, List.map_append]
  rfl

theorem soleLog_append_other {new : List (Nat × String)} (h : ∀ p ∈ new, p.1 ≠ i) :
    soleLog host log (past ++ new) i = soleLog host log past i := by
  have hnone : new.filter (fun p => p.1 = i) = [] :=
    List.filter_eq_nil_iff.2 fun p hp => by simpa using h p hp
  rw [soleLog, List.filter_append, hnone, List.append_nil]
  rfl

variable (hlog : IsLog host.byJob log)
include hlog

/-- If the name that a request of the visit gets by itself is open, it is the visit's own as well:
it was given. -/
theorem mem_of_isOpen_soleName {a : String} (ha : (i, a) ∈ log)
    (hopen : IsOpen log i (soleName host log i a)) : (i, soleName host log i a) ∈ log := by
  have hidx : (namesOf log i).idxOf a < log.length :=
    Nat.lt_of_lt_of_le (List.idxOf_lt_length_of_mem (mem_namesOf.2 ha)) (length_namesOf_le log i)
  obtain ⟨k, hk⟩ := hlog.exists_mem hidx
  rw [soleName_of_mem ha] at hopen ⊢
  obtain rfl := hopen k hk
  exact hk

variable (hnames : Function.Injective host.requestName)
include hnames

theorem isOpen_of_mem {id : String} (h : (i, id) ∈ log) : IsOpen log i id :=
  fun _ hk => hlog.once hnames hk h

theorem soleName_inj (a b : String) (ha : IsOpen log i a) (hb : IsOpen log i b)
    (h : soleName host log i a = soleName host log i b) : a = b := by
  -- a name that the visit does not own stays, and none of those that are given is such a name
  have hmixed : ∀ a b, IsOpen log i b → (i, a) ∈ log → (i, b) ∉ log →
      soleName host log i a ≠ soleName host log i b := by
    intro a b hb hin hout heq
    rw [soleName_of_notMem hout] at heq
    subst heq
    exact hout (mem_of_isOpen_soleName hlog hin hb)
  by_cases hina : (i, a) ∈ log
  · by_cases hinb : (i, b) ∈ log
    · rw [soleName_of_mem hina, soleName_of_mem hinb] at h
      exact (List.idxOf_inj (mem_namesOf.2 hina)).1 (hnames h)
    · exact absurd h (hmixed a b hb hina hinb)
  · by_cases hinb : (i, b) ∈ log
    · exact absurd h.symm (hmixed b a ha hinb hina)
    · rwa [soleName_of_notMem hina, soleName_of_notMem hinb] at h

/-- The next request of the visit gets the next name by itself, too. -/
theorem soleName_next (hpast : past ++ [(i, host.requestName past.length)] <+: log) :
    soleName host log i (host.requestName past.length) =
      host.requestName (soleLog host log past i).length := by
  obtain ⟨future, rfl⟩ := hpast
  have hfresh : host.requestName past.length ∉ namesOf past i := by
    intro hmem
    have hnodup := hlog.nodup hnames
    rw [List.map_append, List.map_append, List.nodup_append, List.nodup_append] at hnodup
    have hin := List.mem_map_of_mem (f := Prod.snd) (mem_namesOf.1 hmem)
    exact hnodup.1.2.2 _ hin _ List.mem_cons_self rfl
  have hsplit : namesOf (past ++ [(i, host.requestName past.length)] ++ future) i =
      namesOf past i ++ host.requestName past.length :: namesOf future i := by
    rw [namesOf_append, namesOf_append, List.append_assoc]
    congr 1
    simp [namesOf]
  rw [soleName_of_mem (by simp), hsplit, List.idxOf_append_of_notMem hfresh, List.idxOf_cons_self,
    length_soleLog, Nat.add_zero]

end

/-! ## Two runs -/

/-- What the visit can see is the same on both servers, under other names and with other numbers. -/
structure SameTo (host : Host) (log : List (Nat × String)) (i : Nat) (ν : Nat → Nat)
    (h h' : SharedServer) : Prop where
  visit : h'.visits i = (h.visits i).map (Visit.rename (soleName host log i))
  jobs : h.server.AgreesOn (soleName host log i) ν (IsOpen log i) h'.server

/-- The second server is the first one without the other visits; `past` is the part of the log that
has come about. -/
structure Mirrors (host : Host) (log past : List (Nat × String)) (i : Nat) (ν : Nat → Nat)
    (h h' : SharedServer) : Prop where
  logged : Logged host.byJob past h
  earned : h.server.IsEarned
  sole : Logged host.byJob (soleLog host log past i) h'
  same : SameTo host log i ν h h'

theorem isEarned_step {h : SharedServer} (hs : h.server.IsEarned) (hosts : HostByJob)
    (move : Move) : (h.step hosts move).2.server.IsEarned := by
  cases move with
  | message i m =>
    rcases h.message_cases hosts i m with ⟨-, heq⟩ | ⟨-, heq⟩ | ⟨v, reply, s, -, hm, heq⟩
    · simpa only [step, heq] using hs
    · simp only [step, heq]
      exact hs.evict _
    · simp only [step, heq, server_put]
      exact hs.handled hm
  | leave i => exact hs.evict _
  | start id => exact hs.updateJob id fun _ => Job.IsEarned.start
  | finish id task => exact hs.updateJob id fun _ h => h.finish ..

section

variable {hosts : HostByJob} {h : SharedServer} {i : Nat} {v : Visit} {m : ClientMessage}
  (hv : h.visits i = some v)
include hv

theorem message_eq_put {reply : ServerMessage} {s : Server}
    (hanswer : h.server.handle hosts.toHost m = (some reply, s)) :
    h.message hosts i m = (some reply, h.put i (some (v.noted reply)) s) := by
  simp only [message, hv, Visit.handle, hanswer]

theorem message_eq_leave {s : Server} (hanswer : h.server.handle hosts.toHost m = (none, s)) :
    h.message hosts i m = (none, h.put i none (v.leave s)) := by
  simp only [message, hv, Visit.handle, hanswer]

end

/-- A visit goes on by its own moves only. -/
theorem visits_step_other {hosts : HostByJob} {h : SharedServer} {move : Move} {i : Nat}
    {own : List String}
    (hother : move.isOf i own = false) : (h.step hosts move).2.visits i = h.visits i := by
  have hput : ∀ j, j ≠ i → ∀ v s, (h.put j v s).visits i = h.visits i :=
    fun j hj v s => if_neg (Ne.symm hj)
  cases move with
  | message j m =>
    have hj : j ≠ i := of_decide_eq_false hother
    rcases h.message_cases hosts j m with ⟨-, heq⟩ | ⟨-, heq⟩ | ⟨v, reply, s, -, -, heq⟩
    · simp only [step, heq]
    · simp only [step, heq]
      exact hput j hj ..
    · simp only [step, heq]
      exact hput j hj ..
  | leave j => exact hput j (of_decide_eq_false hother) ..
  | _ => rfl

namespace SameTo

variable {host : Host} {log : List (Nat × String)} {i : Nat} {ν : Nat → Nat} {h h' : SharedServer}

theorem owned_eq (hs : SameTo host log i ν h h') :
    h'.owned i = (h.owned i).map (soleName host log i) := by
  rw [owned, owned, hs.visit]
  cases h.visits i <;> rfl

/-- Both servers come to the same state of the visit. -/
theorem put {v : Option Visit} {s s' : Server}
    (hjobs : s.AgreesOn (soleName host log i) ν (IsOpen log i) s') :
    SameTo host log i ν (h.put i v s)
      (h'.put i (v.map (Visit.rename (soleName host log i))) s') where
  visit := by simp [SharedServer.put]
  jobs := hjobs

end SameTo

namespace Mirrors

variable {host : Host} {log past : List (Nat × String)} {i : Nat} {ν : Nat → Nat}
  {h h' : SharedServer}

theorem initial : Mirrors host log [] i ν .initial .initial where
  logged := .initial
  earned := Server.isEarned_initial
  sole := .initial
  same := ⟨rfl, fun _ _ => .none⟩

section

variable (hm : Mirrors host log past i ν h h') (hnames : Function.Injective host.requestName)
  (hlog : IsLog host.byJob log) (hpast : past <+: log)
include hm hnames hlog hpast

theorem isOpen_owned : ∀ id ∈ h.owned i, IsOpen log i id :=
  fun id hid => isOpen_of_mem hlog hnames (hpast.subset (hm.logged.owned i id hid))

/-! ### Moves of the visit -/

theorem leave : SameTo host log i ν (h.leave i) (h'.leave i) := by
  have hjobs := hm.same.jobs.evict (soleName_inj hlog hnames) (hm.isOpen_owned hnames hlog hpast)
  rw [← hm.same.owned_eq] at hjobs
  exact .put hjobs

omit hpast in
/-- A request that the visit is about to get is its own on both servers. -/
theorem next (hgrown : past ++ [(i, host.requestName h.server.accepted)] <+: log) :
    IsOpen log i (host.requestName h.server.accepted) ∧
      soleName host log i (host.requestName h.server.accepted) =
        host.requestName h'.server.accepted := by
  rw [hm.logged.accepted] at hgrown ⊢
  rw [hm.sole.accepted]
  exact ⟨isOpen_of_mem hlog hnames (hgrown.subset (by simp)), soleName_next hlog hnames hgrown⟩

theorem message {m : ClientMessage} (hopen : ∀ id ∈ m.names, IsOpen log i id)
    (hgrown : past ++ ServerMessage.taken i (h.message host.byJob i m).1 <+: log) :
    Option.Rel (ServerMessage.Renamed (soleName host log i) ν) (h.message host.byJob i m).1
        (h'.message host.byJob i (m.rename (soleName host log i))).1 ∧
      SameTo host log i ν (h.message host.byJob i m).2
        (h'.message host.byJob i (m.rename (soleName host log i))).2 := by
  have hvisit := hm.same.visit
  cases hv : h.visits i with
  | none =>
    rw [hv] at hvisit
    rw [SharedServer.message, SharedServer.message, hv, hvisit]
    exact ⟨.none, hm.same⟩
  | some v =>
    have hvisit' : h'.visits i = some (v.rename (soleName host log i)) := by rw [hvisit, hv]; rfl
    have hinj := soleName_inj (i := i) hlog hnames
    have howned := hm.isOpen_owned hnames hlog hpast
    rw [owned, hv] at howned
    have hnext : (h.server.handle host m).1 =
        some (.accepted (host.requestName h.server.accepted)) →
        IsOpen log i (host.requestName h.server.accepted) ∧
          soleName host log i (host.requestName h.server.accepted) =
            host.requestName h'.server.accepted := by
      intro hreply
      have hanswer : h.server.handle host.byJob.toHost m = (_, _) := Prod.ext hreply rfl
      rw [message_eq_put hv hanswer] at hgrown
      exact hm.next hnames hlog hgrown
    have hhandled := h.server.handled host m
    obtain ⟨hreply, hjobs⟩ := hm.same.jobs.handle hinj hm.earned hopen hnext
    cases hanswer : h.server.handle host m with
    | mk reply s =>
      cases hanswer' : h'.server.handle host (m.rename (soleName host log i)) with
      | mk reply' s' =>
        rw [hanswer] at hhandled hnext
        rw [hanswer, hanswer'] at hreply hjobs
        cases hreply with
        | none =>
          rw [message_eq_leave hv hanswer, message_eq_leave hvisit' hanswer']
          have hevict := hjobs.evict hinj howned
          exact ⟨.none, .put hevict⟩
        | @some reply reply' hrenamed =>
          have hown : ∀ id ∈ reply.moved, IsOpen log i id := by
            intro id hid
            rcases hhandled.moved_cases id hid with hnamed | ⟨rfl, rfl⟩
            · exact hopen id hnamed
            · exact (hnext rfl).1
          rw [message_eq_put hv hanswer, message_eq_put hvisit' hanswer',
            ← Visit.rename_noted hinj howned hrenamed hown]
          exact ⟨.some hrenamed, .put hjobs⟩

/-- A move of the visit does the same on both servers. -/
theorem same_step_own {move : Move} (hown : move.isOf i (namesOf log i) = true)
    (hopen : ∀ j m, move = .message j m → ∀ id ∈ m.names, IsOpen log j id)
    (hgrown : past ++ Occurrence.taken ⟨move, (h.step host.byJob move).1⟩ <+: log) :
    Option.Rel (ServerMessage.Renamed (soleName host log i) ν) (h.step host.byJob move).1
        (h'.step host.byJob (move.rename (soleName host log i) ν)).1 ∧
      SameTo host log i ν (h.step host.byJob move).2
        (h'.step host.byJob (move.rename (soleName host log i) ν)).2 := by
  have htask : ∀ id, (decide (id ∈ namesOf log i) = true) → ∀ f f' : Job → Job,
      (∀ job job', job.Renumbered ν job' → (f job).Renumbered ν (f' job')) →
      SameTo host log i ν { h with server := h.server.updateJob id f }
        { h' with server := h'.server.updateJob (soleName host log i id) f' } := by
    intro id hid f f' hf
    have hin : (i, id) ∈ log := mem_namesOf.1 (of_decide_eq_true hid)
    exact ⟨hm.same.visit,
      hm.same.jobs.updateJob (soleName_inj hlog hnames) (isOpen_of_mem hlog hnames hin) hf⟩
  cases move with
  | message j m =>
    obtain rfl : j = i := of_decide_eq_true hown
    exact hm.message hnames hlog hpast (hopen j m rfl) hgrown
  | leave j =>
    obtain rfl : j = i := of_decide_eq_true hown
    exact ⟨.none, hm.leave hnames hlog hpast⟩
  | start id => exact ⟨.none, htask id hown _ _ fun _ _ hjob => hjob.start⟩
  | finish id task =>
    exact ⟨.none, htask id hown _ _ fun _ _ hjob => hjob.finish host.engine task⟩

/-! ### Other moves -/

omit hlog in
/-- Nobody else's move touches the jobs under open names: either such a name is the visit's own, and
nobody else uses it, or it was never given, and has no job. -/
theorem get?_step_other {move : Move} (hother : move.isOf i (namesOf log i) = false)
    (hopen : ∀ j m, move = .message j m → ∀ id ∈ m.names, IsOpen log j id)
    (hgrown : past ++ Occurrence.taken ⟨move, (h.step host.byJob move).1⟩ <+: log) {a : String}
    (ha : IsOpen log i a) :
    (h.step host.byJob move).2.server.jobs.get? a = h.server.jobs.get? a := by
  have hforeign : (∀ k, (k, a) ∈ log → k ≠ i) → h.server.jobs.get? a = none := by
    intro hne
    apply hm.logged.absent
    intro k hk
    have hin := hpast.subset hk
    exact hne k hin (ha k hin)
  have htask : ∀ id, (decide (id ∈ namesOf log i) = false) → ∀ f : Job → Job,
      (h.server.updateJob id f).jobs.get? a = h.server.jobs.get? a := by
    intro id hid f
    by_cases heq : a = id
    · subst heq
      have hnone := hforeign (by
        rintro k hk rfl
        exact of_decide_eq_false hid (mem_namesOf.2 hk))
      rw [Server.absent_updateJob hnone, hnone]
    · rw [Server.get?_updateJob, if_neg heq]
  have hevict : ∀ j, j ≠ i → (h.leave j).server.jobs.get? a = h.server.jobs.get? a := by
    intro j hj
    rw [SharedServer.leave, server_put, Server.get?_evict, if_neg]
    intro hmem
    exact hj (ha j (hpast.subset (hm.logged.owned j a hmem)))
  cases move with
  | message j m =>
    have hj : j ≠ i := of_decide_eq_false hother
    rcases h.message_cases host.byJob j m with
      ⟨-, heq⟩ | ⟨-, heq⟩ | ⟨v, reply, s, hv, hhandled, heq⟩
    · simp only [step, heq]
    · simp only [step, heq]
      exact hevict j hj
    · simp only [step, heq, server_put] at hgrown ⊢
      apply hhandled.get?_eq
      · exact hm.logged.orderly.absent (not_given_next hnames h.server)
      · intro hnamed
        apply hforeign
        intro k hk
        rw [hopen j m rfl a hnamed k hk]
        exact hj
      · rintro rfl rfl
        have hin : (j, host.requestName h.server.accepted) ∈ log :=
          hgrown.subset (List.mem_append_right _ List.mem_cons_self)
        exact hj (ha j hin)
  | leave j => exact hevict j (of_decide_eq_false hother)
  | start id => exact htask id hother Job.start
  | finish id task => exact htask id hother (Job.finish host.engine task)

end

/-! ### Steps and runs -/

section

variable (hm : Mirrors host log past i ν h h') (hnames : Function.Injective host.requestName)
  {move : Move} (hopen : ∀ j m, move = .message j m → ∀ id ∈ m.names, IsOpen log j id)
  (hgrown : past ++ Occurrence.taken ⟨move, (h.step host.byJob move).1⟩ <+: log)
include hm hnames hopen hgrown

theorem step_own (hlog : IsLog host.byJob log) (hown : move.isOf i (namesOf log i) = true) :
    Occurrence.Renamed (soleName host log i) ν ⟨move, (h.step host.byJob move).1⟩
        ⟨move.rename (soleName host log i) ν,
          (h'.step host.byJob (move.rename (soleName host log i) ν)).1⟩ ∧
      Mirrors host log (past ++ Occurrence.taken ⟨move, (h.step host.byJob move).1⟩) i ν
        (h.step host.byJob move).2
        (h'.step host.byJob (move.rename (soleName host log i) ν)).2 := by
  have hpast : past <+: log := (List.prefix_append ..).trans hgrown
  obtain ⟨hreply, hsame⟩ := hm.same_step_own hnames hlog hpast hown hopen hgrown
  have hrenamed : Occurrence.Renamed (soleName host log i) ν ⟨move, (h.step host.byJob move).1⟩
      ⟨move.rename (soleName host log i) ν,
        (h'.step host.byJob (move.rename (soleName host log i) ν)).1⟩ := ⟨rfl, hreply⟩
  refine ⟨hrenamed, hm.logged.step hnames move, isEarned_step hm.earned host.byJob move, ?_, hsame⟩
  have hsole := hm.sole.step hnames (move.rename (soleName host log i) ν)
  rw [hrenamed.taken_eq] at hsole
  rw [soleLog_append_own]
  · exact hsole
  · intro p hp
    rw [Move.isOf_of_mem_taken hp] at hown
    exact of_decide_eq_true hown

theorem step_other (hother : move.isOf i (namesOf log i) = false) :
    Mirrors host log (past ++ Occurrence.taken ⟨move, (h.step host.byJob move).1⟩) i ν
      (h.step host.byJob move).2 h' := by
  have hpast : past <+: log := (List.prefix_append ..).trans hgrown
  have hjobs := hm.same.jobs.of_eq fun a ha =>
    hm.get?_step_other hnames hpast hother hopen hgrown ha
  refine ⟨hm.logged.step hnames move, isEarned_step hm.earned host.byJob move, ?_, ?_, hjobs⟩
  · rw [soleLog_append_other]
    · exact hm.sole
    · intro p hp
      rw [Move.isOf_of_mem_taken hp] at hother
      exact of_decide_eq_false hother
  · rw [hm.same.visit, visits_step_other hother]

end

/-- Induction on the moves: those of the visit are made on both servers, the others on one. -/
theorem run (hm : Mirrors host log past i ν h h') (hnames : Function.Injective host.requestName)
    (hlog : IsLog host.byJob log) {moves : List Move}
    (hopen : ∀ j m, Move.message j m ∈ moves → ∀ id ∈ m.names, IsOpen log j id)
    (hgrown : past ++ h.taken host.byJob moves <+: log) :
    List.Forall₂ (Occurrence.Renamed (soleName host log i) ν)
        ((h.trace host.byJob moves).filter fun e => e.move.isOf i (namesOf log i))
        (h'.trace host.byJob (alone host log i ν moves)) ∧
      Mirrors host log (past ++ h.taken host.byJob moves) i ν (h.after host.byJob moves)
        (h'.after host.byJob (alone host log i ν moves)) := by
  induction moves generalizing past h h' with
  | nil => exact ⟨.nil, (List.append_nil past).symm ▸ hm⟩
  | cons move moves ih =>
    have hsplit : past ++ h.taken host.byJob (move :: moves) =
        past ++ Occurrence.taken ⟨move, (h.step host.byJob move).1⟩ ++
          (h.step host.byJob move).2.taken host.byJob moves := (List.append_assoc ..).symm
    have hopenNow : ∀ j m, move = .message j m → ∀ id ∈ m.names, IsOpen log j id := by
      rintro j m rfl
      exact hopen j m List.mem_cons_self
    have hopenLater : ∀ j m, Move.message j m ∈ moves → ∀ id ∈ m.names, IsOpen log j id :=
      fun j m hmem => hopen j m (List.mem_cons_of_mem move hmem)
    rw [hsplit] at hgrown ⊢
    have hgrownNow := (List.prefix_append _ _).trans hgrown
    cases hown : move.isOf i (namesOf log i) with
    | true =>
      obtain ⟨hrenamed, hmirrors⟩ := hm.step_own hnames hopenNow hgrownNow hlog hown
      obtain ⟨hrest, hafter⟩ := ih hmirrors hopenLater hgrown
      have halone : alone host log i ν (move :: moves) =
          move.rename (soleName host log i) ν :: alone host log i ν moves := by
        simp [alone, hown]
      simp only [halone, trace, List.filter_cons, hown, if_true]
      exact ⟨.cons hrenamed hrest, hafter⟩
    | false =>
      have hmirrors := hm.step_other hnames hopenNow hgrownNow hown
      obtain ⟨hrest, hafter⟩ := ih hmirrors hopenLater hgrown
      have halone : alone host log i ν (move :: moves) = alone host log i ν moves := by
        simp [alone, hown]
      simp only [halone, trace, List.filter_cons, hown, if_neg Bool.false_ne_true]
      exact ⟨hrest, hafter⟩

end Mirrors

end SharedServer

/-! ## Isolation -/

/-- The move can come after other moves: a visit that is over sends nothing and does not end again,
and a request has one task, which begins when the request has been taken on and then ends. -/
def Move.CanFollow (hosts : HostByJob) (before : List Move) : Move → Prop
  | .message i _ | .leave i => (SharedServer.initial.after hosts before).visits i ≠ none
  | .start id => (∃ i, (i, id) ∈ SharedServer.initial.taken hosts before) ∧ Move.start id ∉ before
  | .finish id _ => Move.start id ∈ before ∧ ∀ task, Move.finish id task ∉ before

namespace SharedServer

/-- Every move can follow those before it. -/
def IsRun (hosts : HostByJob) (moves : List Move) : Prop :=
  ∀ before move rest, moves = before ++ move :: rest → move.CanFollow hosts before

theorem isRun_nil (hosts : HostByJob) : IsRun hosts [] := by
  intro before move rest hsplit
  simp at hsplit

theorem IsRun.concat {hosts : HostByJob} {moves : List Move} (hmoves : IsRun hosts moves)
    {move : Move} (hmove : move.CanFollow hosts moves) : IsRun hosts (moves ++ [move]) := by
  intro before other rest hsplit
  rcases List.eq_nil_or_concat rest with rfl | ⟨front, last, rfl⟩
  · obtain ⟨rfl, heq⟩ := List.append_inj' hsplit rfl
    obtain rfl := List.singleton_injective heq
    exact hmove
  · rw [List.concat_eq_append, ← List.cons_append, ← List.append_assoc] at hsplit
    obtain ⟨rfl, -⟩ := List.append_inj' hsplit rfl
    exact hmoves before other front rfl

section

variable {host : Host} {log : List (Nat × String)} {i : Nat} {ν : Nat → Nat}

theorem exists_of_alone_eq {moves before' rest' : List Move} {move' : Move}
    (h : alone host log i ν moves = before' ++ move' :: rest') :
    ∃ before move rest, moves = before ++ move :: rest ∧ alone host log i ν before = before' ∧
      move.isOf i (namesOf log i) = true ∧ move.rename (soleName host log i) ν = move' := by
  obtain ⟨front, back, hfilter, hfront, hback⟩ := List.map_eq_append_iff.1 h
  obtain ⟨move, tail, rfl, hmove, -⟩ := List.map_eq_cons_iff.1 hback
  obtain ⟨before, others, rfl, hbefore, hothers⟩ := List.filter_eq_append_iff.1 hfilter
  obtain ⟨skipped, rest, rfl, hskipped, hown, -⟩ := List.filter_eq_cons_iff.1 hothers
  refine ⟨before ++ skipped, move, rest, (List.append_assoc ..).symm, ?_, hown, hmove⟩
  rw [alone, List.filter_append, hbefore, List.filter_eq_nil_iff.2 hskipped, List.append_nil]
  exact hfront

theorem mem_alone_iff {moves : List Move} {move' : Move} :
    move' ∈ alone host log i ν moves ↔ ∃ move ∈ moves,
      move.isOf i (namesOf log i) = true ∧ move.rename (soleName host log i) ν = move' := by
  simp [alone, and_assoc]

variable (hnames : Function.Injective host.requestName) (hlog : IsLog host.byJob log)
include hnames hlog

/-- The tasks of the visit are told apart by the new names, too. -/
theorem task_mem_alone_iff {id : String} (hid : (i, id) ∈ log) (moves : List Move) :
    (.start (soleName host log i id) ∈ alone host log i ν moves ↔ .start id ∈ moves) ∧
      ((∃ task, .finish (soleName host log i id) task ∈ alone host log i ν moves) ↔
        ∃ task, .finish id task ∈ moves) := by
  have hown : decide (id ∈ namesOf log i) = true := decide_eq_true (mem_namesOf.2 hid)
  have heq : ∀ a, decide (a ∈ namesOf log i) = true →
      soleName host log i a = soleName host log i id → a = id := by
    intro a ha
    have hin : (i, a) ∈ log := mem_namesOf.1 (of_decide_eq_true ha)
    exact soleName_inj hlog hnames a id (isOpen_of_mem hlog hnames hin)
      (isOpen_of_mem hlog hnames hid)
  constructor
  · rw [mem_alone_iff]
    refine ⟨?_, fun hmem => ⟨.start id, hmem, hown, rfl⟩⟩
    rintro ⟨move, hmem, hmove, hname⟩
    cases move with
    | start a =>
      obtain rfl := heq a hmove (Move.start.inj hname)
      exact hmem
    | _ => cases hname
  · simp only [mem_alone_iff]
    constructor
    · rintro ⟨task, move, hmem, hmove, hname⟩
      cases move with
      | finish a task' =>
        obtain rfl := heq a hmove (Move.finish.inj hname).1
        exact ⟨task', hmem⟩
      | _ => cases hname
    · rintro ⟨task, hmem⟩
      exact ⟨ν task, .finish id task, hmem, hown, rfl⟩

variable {before : List Move} (hpast : initial.taken host.byJob before <+: log)
  (hm : Mirrors host log (initial.taken host.byJob before) i ν (initial.after host.byJob before)
    (initial.after host.byJob (alone host log i ν before)))
include hpast hm

/-- What was taken on for the visit is taken on when it is by itself. -/
theorem exists_taken_alone {id : String} (hid : (i, id) ∈ log) {k : Nat}
    (htaken : (k, id) ∈ initial.taken host.byJob before) :
    ∃ j, (j, soleName host log i id) ∈ initial.taken host.byJob (alone host log i ν before) := by
  obtain rfl := hlog.once hnames (hpast.subset htaken) hid
  have hsole : Logged host.byJob (initial.taken host.byJob (alone host log k ν before))
      (initial.after host.byJob (alone host log k ν before)) := Logged.initial.after hnames _
  have hlength := hm.sole.accepted.symm.trans hsole.accepted
  have hmem : soleName host log k id ∈
      (soleLog host log (initial.taken host.byJob before) k).map Prod.snd := by
    refine List.mem_map.2 ⟨(k, soleName host log k id), ?_, rfl⟩
    exact List.mem_map.2 ⟨(k, id), List.mem_filter.2 ⟨htaken, by simp⟩, rfl⟩
  rw [hm.sole.isLog, hlength, ← hsole.isLog] at hmem
  obtain ⟨⟨j, name⟩, hj, rfl⟩ := List.mem_map.1 hmem
  exact ⟨j, hj⟩

/-- A move of the visit that could come still can when the moves of the others are left out. -/
theorem canFollow_alone {move : Move} (hown : move.isOf i (namesOf log i) = true)
    (hcan : move.CanFollow host.byJob before) :
    (move.rename (soleName host log i) ν).CanFollow host.byJob (alone host log i ν before) := by
  have hvisit : ∀ j, decide (j = i) = true →
      (initial.after host.byJob before).visits j ≠ none →
      (initial.after host.byJob (alone host log i ν before)).visits j ≠ none := by
    intro j hj hthere
    obtain rfl := of_decide_eq_true hj
    rwa [hm.same.visit, ne_eq, Option.map_eq_none_iff]
  cases move with
  | message j m => exact hvisit j hown hcan
  | leave j => exact hvisit j hown hcan
  | start id =>
    have hid : (i, id) ∈ log := mem_namesOf.1 (of_decide_eq_true hown)
    obtain ⟨⟨k, htaken⟩, hstart⟩ := hcan
    exact ⟨exists_taken_alone hnames hlog hpast hm hid htaken,
      (task_mem_alone_iff hnames hlog hid before).1.not.2 hstart⟩
  | finish id task =>
    have hid : (i, id) ∈ log := mem_namesOf.1 (of_decide_eq_true hown)
    obtain ⟨hstart, hfinish⟩ := hcan
    obtain ⟨hstartIff, hfinishIff⟩ := task_mem_alone_iff hnames hlog hid before
    exact ⟨hstartIff.2 hstart, not_exists.1 (hfinishIff.not.2 (not_exists.2 hfinish))⟩

end

/-- Take any run in which no visit names a request of another, with an engine whose outcome depends
on the request alone.  Leave out the messages, the tasks and the end of all visits but one.  With
the names that its requests get then, of which no two are the same, that visit is answered alike,
message by message, and after each of its moves its jobs are as they were; and if each move could
come when it came, it still can.  The process that the server runs in numbers the tasks, so they may
have any other numbers then (`ν`), and such a number shows in the text about a panic, but nowhere
else.  With the numbers as they were, the replies are the same but for the names, as then no text is
retold in other words (`retold_self_iff`), and the jobs are the same. -/
theorem isolated {host : Host} (hnames : Function.Injective host.requestName) (i : Nat)
    (ν : Nat → Nat) {moves : List Move} {log : List (Nat × String)}
    (hlog : initial.taken host.byJob moves = log)
    (hopen : ∀ j m, Move.message j m ∈ moves → ∀ id ∈ m.names, IsOpen log j id) :
    (∀ a b, IsOpen log i a → IsOpen log i b →
      soleName host log i a = soleName host log i b → a = b) ∧
    List.Forall₂ (Occurrence.Renamed (soleName host log i) ν)
      ((initial.trace host.byJob moves).filter fun e => e.move.isOf i (namesOf log i))
      (initial.trace host.byJob (alone host log i ν moves)) ∧
    (∀ before rest, moves = before ++ rest → ∀ id ∈ namesOf log i,
      Option.Rel (Job.Renumbered ν)
        ((initial.after host.byJob before).server.jobs.get? id)
        ((initial.after host.byJob (alone host log i ν before)).server.jobs.get?
          (soleName host log i id))) ∧
    (IsRun host.byJob moves → IsRun host.byJob (alone host log i ν moves)) ∧
    List.Forall₂ (Occurrence.Renamed (soleName host log i) fun task => task)
      ((initial.trace host.byJob moves).filter fun e => e.move.isOf i (namesOf log i))
      (initial.trace host.byJob (alone host log i (fun task => task) moves)) ∧
    ∀ before rest, moves = before ++ rest → ∀ id ∈ namesOf log i,
      (initial.after host.byJob (alone host log i (fun task => task) before)).server.jobs.get?
          (soleName host log i id) =
        (initial.after host.byJob before).server.jobs.get? id := by
  have hlogged : Logged host.byJob (initial.taken host.byJob moves)
      (initial.after host.byJob moves) := Logged.initial.after hnames moves
  have hisLog : IsLog host.byJob log := hlog ▸ hlogged.isLog
  have hinj := soleName_inj (i := i) hisLog hnames
  have hsofar : ∀ before rest, moves = before ++ rest →
      initial.taken host.byJob before <+: log := by
    rintro before rest rfl
    rw [taken_append] at hlog
    exact ⟨_, hlog⟩
  have hrun ν before rest (hsplit : moves = before ++ rest) :=
    (Mirrors.initial (ν := ν)).run (i := i) hnames hisLog
      (fun j m hmem => hopen j m (hsplit ▸ List.mem_append_left _ hmem)) (hsofar before rest hsplit)
  have hjobs : ∀ ν before rest, moves = before ++ rest → ∀ id ∈ namesOf log i,
      Option.Rel (Job.Renumbered ν)
        ((initial.after host.byJob before).server.jobs.get? id)
        ((initial.after host.byJob (alone host log i ν before)).server.jobs.get?
          (soleName host log i id)) := by
    intro ν before rest hsplit id hid
    have hsame := (hrun ν before rest hsplit).2.same.jobs
    exact hsame id (isOpen_of_mem hisLog hnames (mem_namesOf.1 hid))
  have hreplies ν := (hrun ν moves [] (List.append_nil _).symm).1
  refine ⟨hinj, hreplies ν, hjobs ν, ?_, hreplies fun task => task, ?_⟩
  · intro hmoves before' move' rest' halone
    obtain ⟨before, move, rest, rfl, rfl, hown, rfl⟩ := exists_of_alone_eq halone
    exact canFollow_alone hnames hisLog (hsofar before (move :: rest) rfl)
      (hrun ν before (move :: rest) rfl).2 hown (hmoves before move rest rfl)
  · intro before rest hsplit id hid
    have hsame := hjobs (fun task => task) before rest hsplit id hid
    generalize (initial.after host.byJob before).server.jobs.get? id = found,
      (initial.after host.byJob (alone host log i (fun task => task) before)).server.jobs.get?
        (soleName host log i id) = found' at hsame ⊢
    cases hsame with
    | none => rfl
    | some hjob => rw [Job.renumbered_self_iff.1 hjob]

/-- Two visits, of which the first one ends while the job of the second one runs; then the engine
panics in task 7.  By itself the second one does all that under the first name, and in task 3. -/
theorem isolated_boom :
    let host : Host := { Host.tally with engine := ⟨"boom", fun _ => .panicked (some "boom")⟩ }
    let moves : List Move := [.message 0 (.execute .single), .message 1 (.execute .single),
      .start "II", .leave 0, .finish "II" 7, .message 1 (.fetchResult "II")]
    let sole : List Move := [.message 1 (.execute .single), .start "I", .finish "I" 3,
      .message 1 (.fetchResult "I")]
    List.Forall₂ (Occurrence.Renamed (fun id => if id = "II" then "I" else id) fun task => task - 4)
        ((initial.trace host.byJob moves).filter fun e => e.move.isOf 1 ["II"])
        (initial.trace host.byJob sole) ∧
      IsRun host.byJob moves ∧ IsRun host.byJob sole := by
  intro host moves sole
  have hlog : initial.taken host.byJob moves = [(0, "I"), (1, "II")] := by decide +kernel
  have hopen : ∀ j m, Move.message j m ∈ moves → ∀ id ∈ m.names,
      IsOpen [(0, "I"), (1, "II")] j id := by
    intro j m hmem id hid k hk
    simp [moves] at hmem
    rcases hmem with ⟨rfl, rfl⟩ | ⟨rfl, rfl⟩ | ⟨rfl, rfl⟩
    · cases hid
    · cases hid
    · obtain rfl := List.mem_singleton.1 hid
      simpa using hk
  have hname : soleName host [(0, "I"), (1, "II")] 1 = fun id => if id = "II" then "I" else id := by
    funext id
    have hown : namesOf [(0, "I"), (1, "II")] 1 = ["II"] := rfl
    rw [soleName, hown]
    by_cases hid : id = "II"
    · subst hid
      rfl
    · rw [if_neg (by simpa using hid), if_neg hid]
  have hrun : IsRun host.byJob moves := by
    have hthere : ∀ (before : List Move) (i : Nat),
        ((initial.after host.byJob before).visits i).isSome = true →
          (initial.after host.byJob before).visits i ≠ none := by
      intro before i hsome hnone
      rw [hnone] at hsome
      cases hsome
    have htaken : initial.taken host.byJob ([] ++ [.message 0 (.execute .single)] ++
        [.message 1 (.execute .single)]) = [(0, "I"), (1, "II")] := by decide +kernel
    show IsRun host.byJob ([] ++ [.message 0 (.execute .single)] ++
      [.message 1 (.execute .single)] ++ [.start "II"] ++ [.leave 0] ++ [.finish "II" 7] ++
      [.message 1 (.fetchResult "II")])
    refine ((((((isRun_nil _).concat ?_).concat ?_).concat ?_).concat ?_).concat ?_).concat ?_
    · exact hthere _ 0 (by decide +kernel)
    · exact hthere _ 1 (by decide +kernel)
    · exact ⟨⟨1, by rw [htaken]; simp⟩, by simp⟩
    · exact hthere _ 0 (by decide +kernel)
    · exact ⟨by simp, by simp⟩
    · exact hthere _ 1 (by decide +kernel)
  have halone : alone host [(0, "I"), (1, "II")] 1 (fun task => task - 4) moves = sole := by
    rw [alone, hname]
    rfl
  have hnames : Function.Injective host.requestName := Host.injective_tally
  obtain ⟨-, hreplies, -, hsole, -⟩ := isolated hnames 1 (fun task => task - 4) hlog hopen
  rw [halone] at hreplies hsole
  rw [hname] at hreplies
  exact ⟨hreplies, hrun, hsole hrun⟩

end SharedServer

end EncryptedInference
