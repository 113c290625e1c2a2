import EncryptedInference.Host.Visit
import EncryptedInference.Proofs.Host.Texts
import Mathlib.Tactic.SplitIfs

/-!
# What a server does

`Server.Handled` lists the ways in which a message is answered, each with the reply and the server
after it; `Server.handled` says that there are no others.  Answers, tasks and the end of a visit act
on the table of jobs one name at a time: `Handled.get?_cases`, `get?_updateJob`, `get?_evict`.
-/

namespace EncryptedInference

/-! ## Jobs -/

namespace Job

theorem ofOutcome_eq_completed {task : Nat} {outcome : EngineOutcome}
    {outputs : NameMap SlotVector} (h : ofOutcome task outcome = completed outputs) :
    outcome = .outputs outputs ∧ nonFiniteOutput? outputs = none := by
  unfold ofOutcome at h
  cases outcome with
  | outputs given =>
    cases hfinite : nonFiniteOutput? given with
    | none =>
      simp only [EngineOutcome.result, hfinite, completed.injEq] at h
      subst h
      exact ⟨rfl, hfinite⟩
    | some slot => simp [EngineOutcome.result, hfinite] at h
  | unsupported reason => cases h
  | failed reason => cases h
  | panicked message => cases h

/-- The task of a job ends either way: no outcome leaves a job in the queue or running. -/
theorem ofOutcome_cases (task : Nat) (outcome : EngineOutcome) :
    (∃ outputs, ofOutcome task outcome = completed outputs) ∨
      ∃ reason, ofOutcome task outcome = failed reason := by
  unfold ofOutcome
  cases outcome.result task with
  | ok outputs => exact Or.inl ⟨outputs, rfl⟩
  | error reason => exact Or.inr ⟨reason, rfl⟩

/-- A failure of a job is one that came out of the computation. -/
theorem ofOutcome_eq_failed {task : Nat} {outcome : EngineOutcome} {reason : String} :
    ofOutcome task outcome = failed reason ↔ outcome.result task = .error reason := by
  unfold ofOutcome
  cases outcome.result task <;> simp

/-- A job that is there for a request. -/
def Serves (engine : Engine) (r : Request) (job : Job) : Prop :=
  job = .queued r ∨ job = .running r ∨ ∃ task, job = ofOutcome task (engine.evaluate r)

variable {engine : Engine} {r : Request} {job : Job}

theorem start_ofOutcome (task : Nat) (outcome : EngineOutcome) :
    (ofOutcome task outcome).start = ofOutcome task outcome := by
  rcases ofOutcome_cases task outcome with ⟨outputs, h⟩ | ⟨reason, h⟩ <;> rw [h] <;> rfl

theorem finish_ofOutcome (task task' : Nat) (outcome : EngineOutcome) :
    (ofOutcome task outcome).finish engine task' = ofOutcome task outcome := by
  rcases ofOutcome_cases task outcome with ⟨outputs, h⟩ | ⟨reason, h⟩ <;> rw [h] <;> rfl

theorem Serves.start (h : job.Serves engine r) : job.start.Serves engine r := by
  rcases h with rfl | rfl | ⟨task, rfl⟩
  · exact Or.inr (Or.inl rfl)
  · exact Or.inr (Or.inl rfl)
  · exact Or.inr (Or.inr ⟨task, start_ofOutcome ..⟩)

theorem Serves.finish (h : job.Serves engine r) (task : Nat) :
    (job.finish engine task).Serves engine r := by
  rcases h with rfl | rfl | ⟨task', rfl⟩
  · exact Or.inl rfl
  · exact Or.inr (Or.inr ⟨task, rfl⟩)
  · exact Or.inr (Or.inr ⟨task', finish_ofOutcome ..⟩)

theorem Serves.evaluate_eq {outputs : NameMap SlotVector}
    (h : (completed outputs).Serves engine r) : engine.evaluate r = .outputs outputs := by
  rcases h with h | h | ⟨task, h⟩
  · cases h
  · cases h
  · exact (ofOutcome_eq_completed h.symm).1

theorem not_tellsOfTable_of_failed {task : Nat} {outcome : EngineOutcome} {reason : String}
    (h : ofOutcome task outcome = failed reason) : ¬ TellsOfTable reason :=
  EngineOutcome.not_tellsOfTable (ofOutcome_eq_failed.1 h)

theorem Serves.ofOutcome_eq {reason : String} (h : (failed reason).Serves engine r) :
    ∃ task, ofOutcome task (engine.evaluate r) = failed reason := by
  rcases h with h | h | ⟨task, h⟩
  · cases h
  · cases h
  · exact ⟨task, h.symm⟩

end Job

/-! ## Answers -/

/-- The requests that a message names. -/
def ClientMessage.names : ClientMessage → List String
  | .status id | .fetchResult id => [id]
  | _ => []

namespace Server

/-- The server with a queued job for one more request. -/
def accept (host : Host) (s : Server) (r : Request) : Server :=
  ⟨s.jobs.insert (host.requestName s.accepted) (.queued r), s.accepted + 1⟩

/-- The server without the job of a name. -/
def drop (s : Server) (id : String) : Server := { s with jobs := s.jobs.erase id }

/-- How a message can be answered, and what that makes of the server. -/
inductive Handled (host : Host) (s : Server) : ClientMessage → Option ServerMessage → Server → Prop
  | hello (version : Nat) :
    Handled host s (.hello version) (some (.hello protocolVersion host.engine.backend)) s
  | accepted (r : Request) :
    Handled host s (.execute r) (some (.accepted (host.requestName s.accepted))) (s.accept host r)
  | refused (r : Request) (e : SubmitError) :
    Handled host s (.execute r) (some (.error e.message)) s
  | unknownStatus (id : String) (h : s.jobs.get? id = none) :
    Handled host s (.status id) (some (notFound id)) s
  | status (id : String) (job : Job) (h : s.jobs.get? id = some job)
    (hstate : job.state ≠ .failed) :
    Handled host s (.status id) (some (.status id job.state none)) s
  | failedStatus (id reason : String) (h : s.jobs.get? id = some (.failed reason)) :
    Handled host s (.status id) (some (.status id .failed (some reason))) (s.drop id)
  | unknownFetch (id : String) (h : s.jobs.get? id = none) :
    Handled host s (.fetchResult id) (some (notFound id)) s
  | result (id : String) (outputs : NameMap SlotVector)
    (h : s.jobs.get? id = some (.completed outputs)) :
    Handled host s (.fetchResult id) (some (.result ⟨id, outputs⟩)) (s.drop id)
  | failure (id reason : String) (h : s.jobs.get? id = some (.failed reason)) :
    Handled host s (.fetchResult id) (some (.error reason)) (s.drop id)
  | early (id : String) (job : Job) (h : s.jobs.get? id = some job)
    (hstate : job.state.isTerminal = false) :
    Handled host s (.fetchResult id)
      (some (.error ("request '" ++ id ++ "' is still " ++ job.state.toText))) s
  | goodbye : Handled host s .goodbye none s

theorem handled_status (host : Host) (s : Server) (id : String) :
    Handled host s (.status id) (some (s.status id).1) (s.status id).2 := by
  unfold status
  cases h : s.jobs.get? id with
  | none => exact .unknownStatus id h
  | some job =>
    cases job with
    | queued r => exact .status id _ h (by simp [Job.state])
    | running r => exact .status id _ h (by simp [Job.state])
    | completed outputs => exact .status id _ h (by simp [Job.state])
    | failed reason => exact .failedStatus id reason h

theorem handled_fetch (host : Host) (s : Server) (id : String) :
    Handled host s (.fetchResult id) (some (s.fetch id).1) (s.fetch id).2 := by
  unfold fetch
  cases h : s.jobs.get? id with
  | none => exact .unknownFetch id h
  | some job =>
    cases job with
    | queued r => exact .early id _ h rfl
    | running r => exact .early id _ h rfl
    | completed outputs => exact .result id outputs h
    | failed reason => exact .failure id reason h

theorem handled (host : Host) (s : Server) (m : ClientMessage) :
    Handled host s m (s.handle host m).1 (s.handle host m).2 := by
  cases m with
  | hello version => exact .hello version
  | execute r =>
    simp only [handle, submit]
    cases checkRequest host.files r with
    | error e => exact .refused r e
    | ok _ => exact .accepted r
  | status id => exact handled_status host s id
  | fetchResult id => exact handled_fetch host s id
  | goodbye => exact .goodbye

/-! ## The table -/

theorem get?_accept (host : Host) (s : Server) (r : Request) (other : String) :
    (s.accept host r).jobs.get? other =
      if other = host.requestName s.accepted then some (.queued r) else s.jobs.get? other :=
  NameMap.get?_insert s.jobs _ other _

theorem get?_drop (s : Server) (id other : String) :
    (s.drop id).jobs.get? other = if other = id then none else s.jobs.get? other :=
  NameMap.get?_erase s.jobs id other

theorem get?_updateJob (s : Server) (id other : String) (f : Job → Job) :
    (s.updateJob id f).jobs.get? other =
      if other = id then (s.jobs.get? other).map f else s.jobs.get? other := by
  unfold updateJob
  cases h : s.jobs.get? id with
  | none =>
    by_cases hid : other = id
    · rw [if_pos hid, hid, h]
      rfl
    · rw [if_neg hid]
  | some job =>
    rw [NameMap.get?_insert]
    by_cases hid : other = id
    · rw [if_pos hid, if_pos hid, hid, h]
      rfl
    · rw [if_neg hid, if_neg hid]

theorem accepted_updateJob (s : Server) (id : String) (f : Job → Job) :
    (s.updateJob id f).accepted = s.accepted := by
  unfold updateJob
  cases s.jobs.get? id <;> rfl

theorem get?_evict (s : Server) (ids : List String) (other : String) :
    (s.evict ids).jobs.get? other = if other ∈ ids then none else s.jobs.get? other := by
  unfold evict
  dsimp only
  induction ids generalizing s with
  | nil => simp
  | cons id ids ih =>
    show (ids.foldl NameMap.erase (s.drop id).jobs).get? other = _
    rw [ih, get?_drop]
    by_cases hid : other = id <;> simp [hid]

/-! A name without a job gets none from tasks, and none when jobs go. -/

section

variable {s : Server} {id : String}

theorem absent_drop (h : s.jobs.get? id = none) (other : String) :
    (s.drop other).jobs.get? id = none := by
  rw [get?_drop, h, ite_self]

theorem absent_updateJob (h : s.jobs.get? id = none) (other : String) (f : Job → Job) :
    (s.updateJob other f).jobs.get? id = none := by
  rw [get?_updateJob, h, Option.map_none, ite_self]

theorem absent_evict (h : s.jobs.get? id = none) (ids : List String) :
    (s.evict ids).jobs.get? id = none := by
  rw [get?_evict, h, ite_self]

variable {job : Job}

theorem get?_of_get?_drop {other : String} (h : (s.drop other).jobs.get? id = some job) :
    s.jobs.get? id = some job := by
  rw [get?_drop] at h
  split_ifs at h
  exact h

theorem get?_of_get?_evict {ids : List String} (h : (s.evict ids).jobs.get? id = some job) :
    s.jobs.get? id = some job := by
  rw [get?_evict] at h
  split_ifs at h
  exact h

/-- A job that is there after a task has made a step was there before, and only the job of that task
has changed. -/
theorem exists_of_get?_updateJob {other : String} {f : Job → Job}
    (h : (s.updateJob other f).jobs.get? id = some job) :
    ∃ old, s.jobs.get? id = some old ∧ (job = old ∨ (id = other ∧ job = f old)) := by
  rw [get?_updateJob] at h
  split_ifs at h with hid
  · obtain ⟨old, hold, rfl⟩ := Option.map_eq_some_iff.1 h
    exact ⟨old, hold, Or.inr ⟨hid, rfl⟩⟩
  · exact ⟨job, h, Or.inl rfl⟩

end

/-- An answer adds a job under the next name, takes away one that the message names, or leaves it
alone. -/
theorem Handled.get?_cases {host : Host} {s s' : Server} {m : ClientMessage}
    {reply : Option ServerMessage} (hm : Handled host s m reply s') (id : String) :
    s'.jobs.get? id = s.jobs.get? id ∨ (id ∈ m.names ∧ s'.jobs.get? id = none) ∨
      id = host.requestName s.accepted := by
  have hdrop : ∀ other, (s.drop other).jobs.get? id = s.jobs.get? id ∨
      (id ∈ [other] ∧ (s.drop other).jobs.get? id = none) ∨ id = host.requestName s.accepted := by
    intro other
    rw [get?_drop]
    by_cases hid : id = other
    · rw [if_pos hid]
      exact Or.inr (Or.inl ⟨List.mem_singleton.2 hid, rfl⟩)
    · rw [if_neg hid]
      exact Or.inl rfl
  cases hm with
  | accepted r =>
    rw [get?_accept]
    by_cases hid : id = host.requestName s.accepted
    · exact Or.inr (Or.inr hid)
    · rw [if_neg hid]
      exact Or.inl rfl
  | failedStatus other => exact hdrop other
  | result other => exact hdrop other
  | failure other => exact hdrop other
  | _ => exact Or.inl rfl

/-- A job that is there after an answer was there before, or is that of the request taken on. -/
theorem Handled.job_cases {host : Host} {s s' : Server} {m : ClientMessage}
    {reply : Option ServerMessage} (hm : Handled host s m reply s') {id : String} {job : Job}
    (hjob : s'.jobs.get? id = some job) :
    (id = host.requestName s.accepted ∧ ∃ r, job = .queued r) ∨ s.jobs.get? id = some job := by
  cases hm with
  | accepted r =>
    rw [get?_accept] at hjob
    split_ifs at hjob with hid
    · exact Or.inl ⟨hid, r, (Option.some.inj hjob).symm⟩
    · exact Or.inr hjob
  | failedStatus other => exact Or.inr (get?_of_get?_drop hjob)
  | result other => exact Or.inr (get?_of_get?_drop hjob)
  | failure other => exact Or.inr (get?_of_get?_drop hjob)
  | _ => exact Or.inr hjob

/-- A request is taken on under the next name.  Any other reply gives no name and adds no job, and
with a result its job goes. -/
theorem Handled.accepted_or_kept {host : Host} {s s' : Server} {m : ClientMessage}
    {reply : ServerMessage} (hm : Handled host s m (some reply) s') :
    (∃ r, reply = .accepted (host.requestName s.accepted) ∧ s' = s.accept host r) ∨
    ((∀ id, reply ≠ .accepted id) ∧ s'.accepted = s.accepted ∧
      (∀ id, s'.jobs.get? id ≠ none → s.jobs.get? id ≠ none) ∧
      ∀ r, reply = .result r → s'.jobs.get? r.requestId = none) := by
  have hdrop : ∀ gone id, (s.drop gone).jobs.get? id ≠ none → s.jobs.get? id ≠ none :=
    fun gone _ => mt (absent_drop · gone)
  cases hm with
  | accepted r => exact Or.inl ⟨r, rfl, rfl⟩
  | failedStatus id => exact Or.inr ⟨nofun, rfl, hdrop id, nofun⟩
  | failure id => exact Or.inr ⟨nofun, rfl, hdrop id, nofun⟩
  | result id outputs =>
    refine Or.inr ⟨nofun, rfl, hdrop id, ?_⟩
    rintro r ⟨⟩
    rw [get?_drop, if_pos rfl]
  | _ => exact Or.inr ⟨nofun, rfl, fun _ hid => hid, nofun⟩

/-- An answer touches no job that is neither that of a request it takes on nor named in the
message. -/
theorem Handled.get?_eq {host : Host} {s s' : Server} {m : ClientMessage} {reply : ServerMessage}
    (hm : Handled host s m (some reply) s')
    (hnext : s.jobs.get? (host.requestName s.accepted) = none) {a : String}
    (hnamed : a ∈ m.names → s.jobs.get? a = none)
    (htaken : reply = .accepted (host.requestName s.accepted) → a ≠ host.requestName s.accepted) :
    s'.jobs.get? a = s.jobs.get? a := by
  rcases hm.accepted_or_kept with ⟨r, hreply, rfl⟩ | ⟨-, -, hjobs, -⟩
  · rw [get?_accept, if_neg (htaken hreply)]
  · rcases hm.get?_cases a with hsame | ⟨hin, hgone⟩ | rfl
    · exact hsame
    · rw [hgone, hnamed hin]
    · rw [hnext]
      cases hjob : s'.jobs.get? (host.requestName s.accepted) with
      | none => rfl
      | some job => exact absurd hnext (hjobs _ (by rw [hjob]; nofun))

end Server

/-! ## A host -/

/-- A host without files that gives everything back and names requests by tally marks. -/
def Host.tally : Host :=
  ⟨.echo, fun _ => .error .notFound, fun k => String.ofList (List.replicate (k + 1) 'I')⟩

theorem Host.injective_tally : Function.Injective Host.tally.requestName := by
  intro j k h
  have hlength := congrArg (fun s => s.toList.length) h
  simpa [Host.tally] using hlength

end EncryptedInference
