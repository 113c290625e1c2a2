import EncryptedInference.Proofs.Host.Lifecycle
import EncryptedInference.Proofs.Host.Log

/-!
# Other names for requests

Messages, moves and replies under other names for requests and other numbers of tasks
(`Occurrence.Renamed`).  A number is told only in the text about a panic (`Retold`).  Two servers
with the same jobs under different names (`Server.AgreesOn`) answer alike, as far as the names that
the renaming tells apart go, and still agree afterwards (`AgreesOn.handle`); the same holds of the
steps of tasks and of dropping jobs.
-/

namespace EncryptedInference

/-! ## Numbers of tasks -/

/-- The text is about a panic. -/
def TellsOfPanic (text : String) : Prop := ∃ task message, text = panicText task message

theorem Opens.not_tellsOfPanic {openings : List String} {text : String} (h : Opens openings text)
    (hapart : ∀ opening ∈ openings, Apart opening panicOpening) : ¬ TellsOfPanic text := by
  rintro ⟨task, message, rfl⟩
  exact not_begins_of_apart h hapart (begins_panicText task message)

/-- The second text is the first one, where the number of a task is told as `ν` of that number. -/
inductive Retold (ν : Nat → Nat) : String → String → Prop
  | panic (task : Nat) (message : Option String) :
    Retold ν (panicText task message) (panicText (ν task) message)
  | other (text : String) (h : ¬ TellsOfPanic text) : Retold ν text text

theorem retold_self_iff {text text' : String} :
    Retold (fun task => task) text text' ↔ text' = text := by
  constructor
  · rintro (⟨task, message⟩ | ⟨-, -⟩) <;> rfl
  · rintro rfl
    by_cases h : TellsOfPanic text'
    · obtain ⟨task, message, rfl⟩ := h
      exact .panic task message
    · exact .other text' h

/-- The second job is the first one; the reason of a failure may tell another number. -/
inductive Job.Renumbered (ν : Nat → Nat) : Job → Job → Prop
  | same (job : Job) (h : job.state ≠ .failed) : Renumbered ν job job
  | failed {reason reason' : String} (h : Retold ν reason reason') :
    Renumbered ν (failed reason) (failed reason')

namespace Job

theorem renumbered_self_iff {job job' : Job} :
    Renumbered (fun task => task) job job' ↔ job' = job := by
  constructor
  · rintro (⟨-, -⟩ | h)
    · rfl
    · rw [retold_self_iff.1 h]
  · rintro rfl
    cases job' with
    | failed reason => exact .failed (retold_self_iff.2 rfl)
    | _ => exact .same _ nofun

variable {ν : Nat → Nat}

theorem renumbered_of_not_panic {job : Job}
    (h : ∀ reason, job = failed reason → ¬ TellsOfPanic reason) : job.Renumbered ν job := by
  cases job with
  | failed reason => exact .failed (.other reason (h reason rfl))
  | _ => exact .same _ nofun

/-- Under another number a computation comes to the same end. -/
theorem renumbered_ofOutcome (ν : Nat → Nat) (task : Nat) (outcome : EngineOutcome) :
    (ofOutcome task outcome).Renumbered ν (ofOutcome (ν task) outcome) := by
  cases outcome with
  | panicked message => exact .failed (.panic task message)
  | _ =>
    refine renumbered_of_not_panic ?_
    intro reason hreason
    have hopens := EngineOutcome.opens_of_ne_panicked (ofOutcome_eq_failed.1 hreason) nofun
    exact hopens.not_tellsOfPanic (by decide)

namespace Renumbered

variable {job job' : Job} (h : job.Renumbered ν job')
include h

theorem state_eq : job'.state = job.state := by
  cases h <;> rfl

theorem start : job.start.Renumbered ν job'.start := by
  cases h with
  | same _ hstate =>
    cases job with
    | failed reason => exact absurd rfl hstate
    | _ => exact .same _ nofun
  | failed h => exact .failed h

theorem finish (engine : Engine) (task : Nat) :
    (job.finish engine task).Renumbered ν (job'.finish engine (ν task)) := by
  cases h with
  | same _ hstate =>
    cases job with
    | running r => exact renumbered_ofOutcome ν task _
    | _ => exact .same _ hstate
  | failed h => exact .failed h

theorem error? : Option.Rel (Retold ν) job.error? job'.error? := by
  cases h with
  | same _ hstate =>
    cases job with
    | failed reason => exact absurd rfl hstate
    | _ => exact .none
  | failed h => exact .some h

end Renumbered

end Job

/-! ## Renaming -/

/-- The message with other names. -/
def ClientMessage.rename (ρ : String → String) : ClientMessage → ClientMessage
  | .status id => .status (ρ id)
  | .fetchResult id => .fetchResult (ρ id)
  | m => m

/-- The move with other names and numbers. -/
def Move.rename (ρ : String → String) (ν : Nat → Nat) : Move → Move
  | .message i m => .message i (m.rename ρ)
  | .leave i => .leave i
  | .start id => .start (ρ id)
  | .finish id task => .finish (ρ id) (ν task)

/-- The visit with other names. -/
def Visit.rename (ρ : String → String) (v : Visit) : Visit := ⟨v.owned.map ρ⟩

/-- The second reply is the first one with other names, also in the texts about the table, and with
other numbers of tasks. -/
inductive ServerMessage.Renamed (ρ : String → String) (ν : Nat → Nat) :
    ServerMessage → ServerMessage → Prop
  | hello (version : Nat) (backend : String) :
    Renamed ρ ν (.hello version backend) (.hello version backend)
  | accepted (id : String) : Renamed ρ ν (.accepted id) (.accepted (ρ id))
  | status (id : String) (state : JobState) {reason reason' : Option String}
    (h : Option.Rel (Retold ν) reason reason') :
    Renamed ρ ν (.status id state reason) (.status (ρ id) state reason')
  | result (id : String) (outputs : NameMap SlotVector) :
    Renamed ρ ν (.result ⟨id, outputs⟩) (.result ⟨ρ id, outputs⟩)
  | notFound (id : String) : Renamed ρ ν (Server.notFound id) (Server.notFound (ρ id))
  | early (id : String) (state : JobState) :
    Renamed ρ ν (.error ("request '" ++ id ++ "' is still " ++ state.toText))
      (.error ("request '" ++ ρ id ++ "' is still " ++ state.toText))
  | error {text text' : String} (htable : ¬ TellsOfTable text) (h : Retold ν text text') :
    Renamed ρ ν (.error text) (.error text')

/-- The second occurrence is the first one with other names and numbers. -/
structure Occurrence.Renamed (ρ : String → String) (ν : Nat → Nat) (e e' : Occurrence) : Prop where
  move : e'.move = e.move.rename ρ ν
  reply : Option.Rel (ServerMessage.Renamed ρ ν) e.reply e'.reply

variable {ρ : String → String} {ν : Nat → Nat} {P : String → Prop}

theorem Occurrence.Renamed.taken_eq {e e' : Occurrence} (h : e.Renamed ρ ν e') :
    e'.taken = e.taken.map (Prod.map id ρ) := by
  obtain ⟨move, reply⟩ := e
  obtain ⟨move', reply'⟩ := e'
  obtain ⟨rfl, hreply⟩ := h
  cases move with
  | message i m =>
    cases hreply with
    | none => rfl
    | some hreply => cases hreply <;> rfl
  | _ => rfl

/-- The request that a reply adds to those that a visit owns, or takes from them. -/
def ServerMessage.moved : ServerMessage → Option String
  | .accepted id => some id
  | .result r => some r.requestId
  | _ => none

section

variable (hρ : ∀ a b, P a → P b → ρ a = ρ b → a = b)
include hρ

theorem map_filter_ne {l : List String} (hl : ∀ a ∈ l, P a) {id : String} (hid : P id) :
    (l.filter (· ≠ id)).map ρ = (l.map ρ).filter (· ≠ ρ id) := by
  rw [List.filter_map]
  congr 1
  apply List.filter_congr
  intro a ha
  have hiff : ρ a = ρ id ↔ a = id := ⟨hρ a id (hl a ha) hid, congrArg ρ⟩
  simp [hiff]

/-- What a reply means for the requests of a visit does not depend on their names. -/
theorem Visit.rename_noted {v : Visit} (hv : ∀ a ∈ v.owned, P a) {reply reply' : ServerMessage}
    (h : reply.Renamed ρ ν reply') (hmoved : ∀ id ∈ reply.moved, P id) :
    (v.noted reply).rename ρ = (v.rename ρ).noted reply' := by
  cases h with
  | accepted id =>
    have hid : P id := hmoved id rfl
    exact congrArg (fun l => Visit.mk (ρ id :: l)) (map_filter_ne hρ hv hid)
  | result id outputs =>
    have hid : P id := hmoved id rfl
    exact congrArg Visit.mk (map_filter_ne hρ hv hid)
  | _ => rfl

end

/-! ## Servers that agree -/

namespace Server

/-- The jobs of the second server are those of the first one under other names and with other
numbers, as far as the names in question go. -/
def AgreesOn (ρ : String → String) (ν : Nat → Nat) (P : String → Prop) (s s' : Server) : Prop :=
  ∀ id, P id → Option.Rel (Job.Renumbered ν) (s.jobs.get? id) (s'.jobs.get? (ρ id))

/-- Whether a request is taken on does not depend on the jobs. -/
theorem handle_execute_cases (host : Host) (r : Request) :
    (∃ e : SubmitError, ∀ s : Server,
      s.handle host (.execute r) = (some (.error e.message), s)) ∨
    ∀ s : Server, s.handle host (.execute r) =
      (some (.accepted (host.requestName s.accepted)), s.accept host r) := by
  cases hcheck : checkRequest host.files r with
  | error e => exact Or.inl ⟨e, fun s => by simp only [handle, submit, hcheck]⟩
  | ok _ => exact Or.inr fun s => by simp only [handle, submit, hcheck, accept]

namespace AgreesOn

variable {s t s' : Server}

/-- A change to the first server that cannot be seen. -/
theorem of_eq (hs : AgreesOn ρ ν P s s') (h : ∀ id, P id → t.jobs.get? id = s.jobs.get? id) :
    AgreesOn ρ ν P t s' := by
  intro id hid
  rw [h id hid]
  exact hs id hid

section

variable (hρ : ∀ a b, P a → P b → ρ a = ρ b → a = b)
include hρ

theorem updateJob (hs : AgreesOn ρ ν P s s') {id : String} (hid : P id) {f f' : Job → Job}
    (hf : ∀ job job', job.Renumbered ν job' → (f job).Renumbered ν (f' job')) :
    AgreesOn ρ ν P (s.updateJob id f) (s'.updateJob (ρ id) f') := by
  intro a ha
  have hiff : ρ a = ρ id ↔ a = id := ⟨hρ a id ha hid, congrArg ρ⟩
  have hjob := hs a ha
  simp only [get?_updateJob, hiff]
  split_ifs
  · generalize s.jobs.get? a = found, s'.jobs.get? (ρ a) = found' at hjob ⊢
    cases hjob with
    | none => exact .none
    | some hjob => exact .some (hf _ _ hjob)
  · exact hjob

theorem drop (hs : AgreesOn ρ ν P s s') {id : String} (hid : P id) :
    AgreesOn ρ ν P (s.drop id) (s'.drop (ρ id)) := by
  intro a ha
  have hiff : ρ a = ρ id ↔ a = id := ⟨hρ a id ha hid, congrArg ρ⟩
  simp only [get?_drop, hiff]
  split_ifs
  · exact .none
  · exact hs a ha

theorem evict (hs : AgreesOn ρ ν P s s') {ids : List String} (hids : ∀ id ∈ ids, P id) :
    AgreesOn ρ ν P (s.evict ids) (s'.evict (ids.map ρ)) := by
  intro a ha
  have hiff : ρ a ∈ ids.map ρ ↔ a ∈ ids := by
    refine ⟨?_, List.mem_map_of_mem⟩
    intro hmem
    obtain ⟨id, hid, heq⟩ := List.mem_map.1 hmem
    rwa [← hρ id a (hids id hid) ha heq]
  simp only [get?_evict, hiff]
  split_ifs
  · exact .none
  · exact hs a ha

theorem accept (hs : AgreesOn ρ ν P s s') {host : Host} (hid : P (host.requestName s.accepted))
    (hname : ρ (host.requestName s.accepted) = host.requestName s'.accepted) (r : Request) :
    AgreesOn ρ ν P (s.accept host r) (s'.accept host r) := by
  intro a ha
  have hiff : ρ a = host.requestName s'.accepted ↔ a = host.requestName s.accepted := by
    rw [← hname]
    exact ⟨hρ a _ ha hid, congrArg ρ⟩
  simp only [get?_accept, hiff]
  split_ifs
  · exact .some (.same _ nofun)
  · exact hs a ha

theorem status (hs : AgreesOn ρ ν P s s') {id : String} (hid : P id) :
    (s.status id).1.Renamed ρ ν (s'.status (ρ id)).1 ∧
      AgreesOn ρ ν P (s.status id).2 (s'.status (ρ id)).2 := by
  have hjob := hs id hid
  unfold Server.status
  cases hget : s.jobs.get? id with
  | none =>
    rw [hget] at hjob
    generalize s'.jobs.get? (ρ id) = found at hjob ⊢
    cases hjob
    exact ⟨.notFound id, hs⟩
  | some job =>
    rw [hget] at hjob
    generalize s'.jobs.get? (ρ id) = found at hjob ⊢
    cases hjob with
    | some hjob =>
      dsimp only
      rw [hjob.state_eq]
      refine ⟨.status id _ hjob.error?, ?_⟩
      split_ifs
      · exact hs.drop hρ hid
      · exact hs

theorem fetch (hs : AgreesOn ρ ν P s s') (hearned : s.IsEarned) {id : String} (hid : P id) :
    (s.fetch id).1.Renamed ρ ν (s'.fetch (ρ id)).1 ∧
      AgreesOn ρ ν P (s.fetch id).2 (s'.fetch (ρ id)).2 := by
  have hjob := hs id hid
  unfold Server.fetch
  cases hget : s.jobs.get? id with
  | none =>
    rw [hget] at hjob
    generalize s'.jobs.get? (ρ id) = found at hjob ⊢
    cases hjob
    exact ⟨.notFound id, hs⟩
  | some job =>
    rw [hget] at hjob
    generalize s'.jobs.get? (ρ id) = found at hjob ⊢
    cases hjob with
    | some hjob =>
      cases hjob with
      | failed htold => exact ⟨.error (hearned.not_tellsOfTable hget) htold, hs.drop hρ hid⟩
      | same _ hstate =>
        cases job with
        | queued r => exact ⟨.early id _, hs⟩
        | running r => exact ⟨.early id _, hs⟩
        | completed outputs => exact ⟨.result id outputs, hs.drop hρ hid⟩
        | failed reason => exact absurd rfl hstate

/-- A message is answered alike, if its names are in question, and so is the next one. -/
theorem handle (hs : AgreesOn ρ ν P s s') (hearned : s.IsEarned) {host : Host} {m : ClientMessage}
    (hm : ∀ id ∈ m.names, P id)
    (hnext : (s.handle host m).1 = some (.accepted (host.requestName s.accepted)) →
      P (host.requestName s.accepted) ∧
        ρ (host.requestName s.accepted) = host.requestName s'.accepted) :
    Option.Rel (ServerMessage.Renamed ρ ν) (s.handle host m).1 (s'.handle host (m.rename ρ)).1 ∧
      AgreesOn ρ ν P (s.handle host m).2 (s'.handle host (m.rename ρ)).2 := by
  cases m with
  | hello version => exact ⟨.some (.hello ..), hs⟩
  | execute r =>
    show Option.Rel _ _ (s'.handle host (.execute r)).1 ∧
      AgreesOn ρ ν P _ (s'.handle host (.execute r)).2
    rcases handle_execute_cases host r with ⟨e, hrefused⟩ | haccepted
    · rw [hrefused s, hrefused s']
      have hpanic : ¬ TellsOfPanic e.message := e.opens.not_tellsOfPanic (by decide)
      exact ⟨.some (.error e.not_tellsOfTable (.other _ hpanic)), hs⟩
    · rw [haccepted s] at hnext ⊢
      rw [haccepted s']
      obtain ⟨hid, hname⟩ := hnext rfl
      refine ⟨?_, hs.accept hρ hid hname r⟩
      rw [← hname]
      exact .some (.accepted _)
  | status id =>
    obtain ⟨hreply, hjobs⟩ := hs.status hρ (hm id List.mem_cons_self)
    exact ⟨.some hreply, hjobs⟩
  | fetchResult id =>
    obtain ⟨hreply, hjobs⟩ := hs.fetch hρ hearned (hm id List.mem_cons_self)
    exact ⟨.some hreply, hjobs⟩
  | goodbye => exact ⟨.none, hs⟩

end

end AgreesOn

/-- A reply moves a request that the message names, or the one that it takes on. -/
theorem Handled.moved_cases {host : Host} {s s' : Server} {m : ClientMessage}
    {reply : ServerMessage} (hm : Handled host s m (some reply) s') :
    ∀ id ∈ reply.moved, id ∈ m.names ∨
      (id = host.requestName s.accepted ∧ reply = .accepted (host.requestName s.accepted)) := by
  cases hm with
  | accepted r =>
    rintro _ ⟨⟩
    exact Or.inr ⟨rfl, rfl⟩
  | result id outputs =>
    rintro _ ⟨⟩
    exact Or.inl List.mem_cons_self
  | _ => exact fun _ => nofun

end Server

end EncryptedInference
