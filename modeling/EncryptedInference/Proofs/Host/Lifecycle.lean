import EncryptedInference.Client.Script
import EncryptedInference.Proofs.Client.Reports
import EncryptedInference.Proofs.Host.Outputs
import EncryptedInference.Proofs.Host.Records
import Mathlib.Logic.Relation

/-!
# The life of a job

A job is queued, runs and comes to one end, and its record is coherent at every moment: it has
outputs exactly when it is completed, and a reason exactly when it has failed.  What one deed does
to a job that is there before and after it is one step of its life, or none (`Server.grows_act`), so
in a run its states only move forward (`Server.grows_after`).  As every failure is told with its
reason, the words that stand in for a reason that is not there are never used, neither by the server
nor by a client that has heard it.
-/

open Relation

namespace EncryptedInference

/-! ## States -/

/-- One step in the life of a job. -/
inductive JobState.LeadsTo : JobState → JobState → Prop
  | starts : LeadsTo .queued .running
  | completes : LeadsTo .running .completed
  | fails : LeadsTo .running .failed

namespace Job

/-- The second job is what the first one may become: its states move forward, and once they have
come to an end nothing changes. -/
structure Grows (job job' : Job) : Prop where
  forward : ReflTransGen JobState.LeadsTo job.state job'.state
  settled : job.state.isTerminal = true → job' = job

namespace Grows

theorem refl (job : Job) : Grows job job := ⟨.refl, fun _ => rfl⟩

theorem trans {a b c : Job} (hab : Grows a b) (hbc : Grows b c) : Grows a c where
  forward := hab.forward.trans hbc.forward
  settled ha := by
    have hba := hab.settled ha
    rw [hbc.settled (hba ▸ ha), hba]

end Grows

theorem grows_start (job : Job) : job.Grows job.start := by
  cases job with
  | queued r => exact ⟨.single .starts, nofun⟩
  | _ => exact .refl _

theorem grows_finish (engine : Engine) (task : Nat) (job : Job) :
    job.Grows (job.finish engine task) := by
  cases job with
  | running r =>
    rcases ofOutcome_cases task (engine.evaluate r) with ⟨outputs, h⟩ | ⟨reason, h⟩
    · rw [finish, h]
      exact ⟨.single .completes, nofun⟩
    · rw [finish, h]
      exact ⟨.single .fails, nofun⟩
  | _ => exact .refl _

/-- The job is on its way, or it has come to the end that some outcome of a computation leads to. -/
def IsEarned : Job → Prop
  | queued _ | running _ => True
  | job => ∃ task outcome, job = ofOutcome task outcome

theorem isEarned_ofOutcome (task : Nat) (outcome : EngineOutcome) :
    (ofOutcome task outcome).IsEarned := by
  rcases ofOutcome_cases task outcome with ⟨outputs, h⟩ | ⟨reason, h⟩
  · rw [h]
    exact ⟨task, outcome, h.symm⟩
  · rw [h]
    exact ⟨task, outcome, h.symm⟩

theorem IsEarned.start {job : Job} (h : job.IsEarned) : job.start.IsEarned := by
  cases job with
  | queued r => trivial
  | _ => exact h

theorem IsEarned.finish {job : Job} (h : job.IsEarned) (engine : Engine) (task : Nat) :
    (job.finish engine task).IsEarned := by
  cases job with
  | running r => exact isEarned_ofOutcome ..
  | _ => exact h

theorem IsEarned.isFinite {job : Job} (h : job.IsEarned) : job.IsFinite := by
  cases job with
  | completed outputs =>
    obtain ⟨task, outcome, houtcome⟩ := h
    rw [houtcome]
    exact isFinite_ofOutcome task outcome
  | _ => trivial

end Job

/-! ## Records -/

/-- The fields of a record fit together. -/
structure JobRecord.IsCoherent (j : JobRecord) : Prop where
  completed_iff : j.state = .completed ↔ j.outputs?.isSome
  failed_iff : j.state = .failed ↔ j.error?.isSome
  underway : j.state = .queued ∨ j.state = .running → j.error? = none ∧ j.outputs? = none
  finite : ∀ outputs, j.outputs? = some outputs → ∀ e ∈ outputs.entries, e.2.isFinite = true

theorem Job.IsEarned.isCoherent_record {job : Job} (h : job.IsEarned) : job.record.IsCoherent := by
  have hfinite := h.isFinite
  cases job with
  | completed outputs =>
    constructor
    · simp [record, state, outputs?]
    · simp [record, state, error?]
    · simp [record, state]
    · rintro _ ⟨⟩
      exact hfinite
  | _ => constructor <;> simp [record, state, error?, outputs?]

/-! ## Deeds -/

namespace Server

variable {hosts : HostByJob} {s : Server}

/-- Every job in the table is on its way, or has come to an end that it earned. -/
def IsEarned (s : Server) : Prop := ∀ id job, s.jobs.get? id = some job → job.IsEarned

theorem isEarned_initial : initial.IsEarned := by
  intro id job hjob
  have hnone : initial.jobs.get? id = none := rfl
  rw [hnone] at hjob
  cases hjob

/-- What is in the table after a deed was accepted by it, or was there before and grew. -/
theorem job_of_act (hosts : HostByJob) (s : Server) (deed : Deed) {id : String} {job' : Job}
    (hjob : (s.act hosts deed).2.jobs.get? id = some job') :
    (id = hosts.requestName s.accepted ∧ ∃ r, job' = .queued r) ∨
      ∃ job, s.jobs.get? id = some job ∧
        (job' = job ∨ job' = job.start ∨ ∃ task, job' = job.finish (hosts.engineFor id) task) := by
  cases deed with
  | message m =>
    rcases (s.handled hosts.toHost m).job_cases hjob with hnew | hold
    · exact Or.inl hnew
    · exact Or.inr ⟨job', hold, Or.inl rfl⟩
  | start k =>
    right
    obtain ⟨job, hold, hsame | ⟨-, hstart⟩⟩ := exists_of_get?_updateJob hjob
    · exact ⟨job, hold, Or.inl hsame⟩
    · exact ⟨job, hold, Or.inr (Or.inl hstart)⟩
  | finish k task =>
    right
    obtain ⟨job, hold, hsame | ⟨rfl, hfinish⟩⟩ := exists_of_get?_updateJob hjob
    · exact ⟨job, hold, Or.inl hsame⟩
    · exact ⟨job, hold, Or.inr (Or.inr ⟨task, hfinish⟩)⟩
  | evict ids =>
    exact Or.inr ⟨job', get?_of_get?_evict hjob, Or.inl rfl⟩

theorem IsEarned.handled (hs : s.IsEarned) {host : Host} {m : ClientMessage}
    {reply : Option ServerMessage} {s' : Server} (hm : Handled host s m reply s') :
    s'.IsEarned := by
  intro id job hjob
  rcases hm.job_cases hjob with ⟨-, r, rfl⟩ | hold
  · trivial
  · exact hs id job hold

theorem IsEarned.updateJob (hs : s.IsEarned) (id : String) {f : Job → Job}
    (hf : ∀ job, job.IsEarned → (f job).IsEarned) : (s.updateJob id f).IsEarned := by
  intro other job hjob
  obtain ⟨old, hold, rfl | ⟨-, rfl⟩⟩ := exists_of_get?_updateJob hjob
  · exact hs other _ hold
  · exact hf old (hs other old hold)

theorem IsEarned.evict (hs : s.IsEarned) (ids : List String) : (s.evict ids).IsEarned := by
  intro id job hjob
  exact hs id job (get?_of_get?_evict hjob)

theorem IsEarned.act (hs : s.IsEarned) (hosts : HostByJob) (deed : Deed) :
    (s.act hosts deed).2.IsEarned := by
  cases deed with
  | message m => exact hs.handled (s.handled hosts.toHost m)
  | start k => exact hs.updateJob _ fun _ => Job.IsEarned.start
  | finish k task => exact hs.updateJob _ fun _ h => h.finish ..
  | evict ids => exact hs.evict ids

theorem IsEarned.after (hs : s.IsEarned) (hosts : HostByJob) (deeds : List Deed) :
    (s.after hosts deeds).IsEarned := by
  induction deeds generalizing s with
  | nil => exact hs
  | cons deed deeds ih => exact ih (hs.act hosts deed)

theorem accepted_act_le (hosts : HostByJob) (s : Server) (deed : Deed) :
    s.accepted ≤ (s.act hosts deed).2.accepted := by
  cases deed with
  | message m =>
    have hm := s.handled hosts.toHost m
    change s.accepted ≤ (s.handle hosts.toHost m).2.accepted
    generalize s.handle hosts.toHost m = answered at hm
    obtain ⟨reply, s'⟩ := answered
    cases hm with
    | accepted r => exact Nat.le_succ _
    | _ => exact Nat.le_refl _
  | start k => exact Nat.le_of_eq (accepted_updateJob ..).symm
  | finish k task => exact Nat.le_of_eq (accepted_updateJob ..).symm
  | evict ids => exact Nat.le_refl _

/-- A deed brings a job under a name that was given before at most one step further. -/
theorem grows_act (hnames : Function.Injective hosts.requestName) (deed : Deed) {id : String}
    (hgiven : SharedServer.Given hosts s id) {job' : Job}
    (hjob : (s.act hosts deed).2.jobs.get? id = some job') :
    ∃ job, s.jobs.get? id = some job ∧ job.Grows job' := by
  rcases job_of_act hosts s deed hjob with ⟨rfl, -⟩ | ⟨job, hold, rfl | rfl | ⟨task, rfl⟩⟩
  · exact absurd hgiven (SharedServer.not_given_next hnames s)
  · exact ⟨_, hold, .refl _⟩
  · exact ⟨job, hold, job.grows_start⟩
  · exact ⟨job, hold, job.grows_finish ..⟩

/-- A job that is there after a run was there before it, if its name had been given, and has grown
in between. -/
theorem grows_after (hnames : Function.Injective hosts.requestName) (deeds : List Deed)
    {id : String} (hgiven : SharedServer.Given hosts s id) {job' : Job}
    (hjob : (s.after hosts deeds).jobs.get? id = some job') :
    ∃ job, s.jobs.get? id = some job ∧ job.Grows job' := by
  induction deeds generalizing s with
  | nil => exact ⟨job', hjob, .refl _⟩
  | cons deed deeds ih =>
    obtain ⟨job, hold, hgrows⟩ := ih (hgiven.mono (s.accepted_act_le hosts deed)) hjob
    obtain ⟨first, hfirst, hstep⟩ := grows_act hnames deed hgiven hold
    exact ⟨first, hfirst, hstep.trans hgrows⟩

/-! ### What is shown of states -/

theorem after_append (hosts : HostByJob) (s : Server) (before rest : List Deed) :
    s.after hosts (before ++ rest) = (s.after hosts before).after hosts rest :=
  List.foldl_append

/-- What is shown in a run is the answer to a deed at some moment of it. -/
theorem exists_of_mem_trace {deeds : List Deed} {e : Showing} (he : e ∈ s.trace hosts deeds) :
    ∃ before, e.reply = ((s.after hosts before).act hosts e.deed).1 := by
  induction deeds generalizing s with
  | nil => cases he
  | cons deed deeds ih =>
    rcases List.mem_cons.1 he with rfl | he
    · exact ⟨[], rfl⟩
    · obtain ⟨before, hbefore⟩ := ih he
      exact ⟨deed :: before, hbefore⟩

end Server

/-- The reply to a message shows the state of the job of a request. -/
inductive ShowsState : ClientMessage → ServerMessage → String → JobState → Prop
  | status (id : String) (state : JobState) (reason : Option String) :
    ShowsState (.status id) (.status id state reason) id state
  | early (id : String) (state : JobState) :
    ShowsState (.fetchResult id) (.error ("request '" ++ id ++ "' is still " ++ state.toText)) id
      state
  | result (id : String) (outputs : NameMap SlotVector) :
    ShowsState (.fetchResult id) (.result ⟨id, outputs⟩) id .completed
  | failure (id reason : String) (h : ¬ TellsOfTable reason) :
    ShowsState (.fetchResult id) (.error reason) id .failed

/-- What was answered shows the state of the job of a request. -/
def Showing.Shows (e : Showing) (id : String) (state : JobState) : Prop :=
  ∃ m reply, e.deed = .message m ∧ e.reply = some reply ∧ ShowsState m reply id state

theorem early_inj {id : String} {state state' : JobState}
    (h : "request '" ++ id ++ "' is still " ++ state.toText =
      "request '" ++ id ++ "' is still " ++ state'.toText) : state = state' := by
  have htext : state.toText = state'.toText := (String.append_right_inj _).1 h
  cases state <;> cases state' <;> first | rfl | exact absurd htext (by decide)

namespace Server

variable {hosts : HostByJob} {s : Server}

theorem IsEarned.not_tellsOfTable (hs : s.IsEarned) {id reason : String}
    (hjob : s.jobs.get? id = some (.failed reason)) : ¬ TellsOfTable reason := by
  obtain ⟨task, outcome, houtcome⟩ := hs id _ hjob
  exact Job.not_tellsOfTable_of_failed houtcome.symm

/-- The state that is shown is that of the job in the table. -/
theorem Handled.job_of_showsState (hs : s.IsEarned) {m : ClientMessage} {reply : ServerMessage}
    {s' : Server} (hm : Handled hosts.toHost s m (some reply) s') {id : String} {state : JobState}
    (h : ShowsState m reply id state) :
    ∃ job, s.jobs.get? id = some job ∧ job.state = state := by
  cases h with
  | status _ _ reason =>
    cases hm with
    | status _ job hjob hstate => exact ⟨job, hjob, rfl⟩
    | failedStatus _ reason hjob => exact ⟨_, hjob, rfl⟩
  | early _ state =>
    generalize htext : "request '" ++ id ++ "' is still " ++ state.toText = text at hm
    generalize hreply : ServerMessage.error text = reply at hm
    cases hm with
    | unknownFetch _ hnone =>
      obtain rfl := ServerMessage.error.inj hreply
      exact absurd htext (early_ne_notFound _ _)
    | result _ outputs hjob => cases hreply
    | failure _ reason hjob =>
      obtain rfl := ServerMessage.error.inj hreply
      exact absurd (htext ▸ tellsOfTable_early id state) (hs.not_tellsOfTable hjob)
    | early _ job hjob hstate =>
      obtain rfl := ServerMessage.error.inj hreply
      exact ⟨job, hjob, (early_inj htext).symm⟩
  | result _ outputs =>
    generalize hreply : ServerMessage.result ⟨id, outputs⟩ = reply at hm
    cases hm with
    | unknownFetch _ hnone => cases hreply
    | result _ outputs hjob => exact ⟨_, hjob, rfl⟩
    | failure _ reason hjob => cases hreply
    | early _ job hjob hstate => cases hreply
  | failure _ reason htext =>
    generalize hreply : ServerMessage.error reason = reply at hm
    cases hm with
    | unknownFetch _ hnone =>
      obtain rfl := ServerMessage.error.inj hreply
      exact absurd (tellsOfTable_notFound id) htext
    | result _ outputs hjob => cases hreply
    | failure _ reason hjob => exact ⟨_, hjob, rfl⟩
    | early _ job hjob hstate =>
      obtain rfl := ServerMessage.error.inj hreply
      exact absurd (tellsOfTable_early id _) htext

theorem job_of_shows (hs : s.IsEarned) {deed : Deed} {id : String} {state : JobState}
    (h : Showing.Shows ⟨deed, (s.act hosts deed).1⟩ id state) :
    ∃ job, s.jobs.get? id = some job ∧ job.state = state := by
  obtain ⟨m, reply, rfl, hreply, hshows⟩ := h
  have hm := s.handled hosts.toHost m
  rw [show (s.handle hosts.toHost m).1 = some reply from hreply] at hm
  exact hm.job_of_showsState hs hshows

/-- What is shown of the states of a job moves forward. -/
theorem pairwise_shows (hnames : Function.Injective hosts.requestName) (hs : s.IsEarned)
    {g : Registry} (hg : g.Represents hosts s) (deeds : List Deed) :
    (s.trace hosts deeds).Pairwise fun a b => ∀ id state state', a.Shows id state →
      b.Shows id state' → ReflTransGen JobState.LeadsTo state state' := by
  induction deeds generalizing s g with
  | nil => exact .nil
  | cons deed deeds ih =>
    rw [trace, List.pairwise_cons]
    refine ⟨?_, ih (hs.act hosts deed) (hg.act hnames deed).2⟩
    intro e he id state state' ha hb
    obtain ⟨before, hbefore⟩ := exists_of_mem_trace he
    obtain ⟨job, hjob, rfl⟩ := job_of_shows hs ha
    have hlater : Showing.Shows
        ⟨e.deed, ((s.after hosts (deed :: before)).act hosts e.deed).1⟩ id state' := by
      obtain ⟨m, reply, hdeed, hreply, hshows⟩ := hb
      exact ⟨m, reply, hdeed, hbefore.symm.trans hreply, hshows⟩
    obtain ⟨job', hjob', rfl⟩ := job_of_shows (hs.after hosts (deed :: before)) hlater
    have hgiven := hg.given id (by rw [hjob]; exact Option.some_ne_none job)
    obtain ⟨first, hfirst, hgrows⟩ := grows_after hnames (deed :: before) hgiven hjob'
    obtain rfl := Option.some.inj (hfirst.symm.trans hjob)
    exact hgrows.forward

end Server

/-! ## Reasons -/

/-- The words that stand in for a reason that is not there. -/
def IsFallback (text : String) : Prop := text = "unknown error" ∨ text = "request failed"

/-- A text with one of the given openings is not such words. -/
theorem Opens.not_isFallback {openings : List String} {text : String} (h : Opens openings text)
    (hunknown : ∀ opening ∈ openings, Apart opening "unknown error")
    (hfailed : ∀ opening ∈ openings, Apart opening "request failed") : ¬ IsFallback text := by
  rintro (rfl | rfl)
  · exact not_begins_of_apart h hunknown (begins_self _)
  · exact not_begins_of_apart h hfailed (begins_self _)

theorem TellsOfTable.not_isFallback {text : String} (h : TellsOfTable text) :
    ¬ IsFallback text :=
  have hopens : Opens ["request '"] text := ⟨_, List.mem_singleton_self _, h⟩
  hopens.not_isFallback (by decide) (by decide)

theorem SubmitError.not_isFallback (e : SubmitError) : ¬ IsFallback e.message :=
  e.opens.not_isFallback (by decide) (by decide)

/-- A job that has failed has a reason of its own. -/
theorem Job.not_isFallback_of_failed {task : Nat} {outcome : EngineOutcome} {reason : String}
    (h : ofOutcome task outcome = failed reason) : ¬ IsFallback reason :=
  (EngineOutcome.opens (ofOutcome_eq_failed.1 h)).not_isFallback (by decide) (by decide)

/-- The reply uses no words that stand in for others, and if it tells of a failure it has a
reason. -/
def ServerMessage.IsPlain : ServerMessage → Prop
  | .error message => ¬ IsFallback message
  | .status _ state reason =>
    (state = .failed → reason.isSome) ∧ ∀ text ∈ reason, ¬ IsFallback text
  | _ => True

namespace ServerMessage

theorem IsPlain.not_isFallback {reply : ServerMessage} (h : reply.IsPlain) {text : String}
    (htext : reply.Reports text) : ¬ IsFallback text := by
  cases reply with
  | error message =>
    obtain rfl : text = message := htext
    exact h
  | status id state reason =>
    cases state with
    | failed =>
      obtain ⟨own, rfl⟩ := Option.isSome_iff_exists.1 (h.1 rfl)
      obtain rfl : text = own := htext
      exact h.2 text rfl
    | _ => exact htext.elim
  | _ => exact htext.elim

/-- The second message is what the frame of the first is received as. -/
def Delivers (given reply : ServerMessage) : Prop :=
  ∃ bytes, Frame.encode given.body = .ok bytes ∧ Link.receive ofJson? bytes = .ok reply

theorem IsPlain.delivers {given reply : ServerMessage} (h : given.IsPlain)
    (hdelivers : given.Delivers reply) : reply.IsPlain := by
  obtain ⟨bytes, hbytes, hreceive⟩ := hdelivers
  have harrived : given.Travels → reply = given := by
    intro htravels
    rw [receive_of_travels htravels hbytes] at hreceive
    exact (Except.ok.inj hreceive).symm
  have hkind : reply.kind = given.kind := kind_of_receive hbytes hreceive
  cases given with
  | error message => exact harrived trivial ▸ h
  | status id state reason => exact harrived trivial ▸ h
  | _ =>
    cases reply with
    | error message => simp [kind] at hkind
    | status id state reason => simp [kind] at hkind
    | _ => trivial

end ServerMessage

namespace Server

variable {hosts : HostByJob} {s : Server}

theorem Handled.isPlain (hs : s.IsEarned) {m : ClientMessage} {reply : ServerMessage} {s' : Server}
    (hm : Handled hosts.toHost s m (some reply) s') : reply.IsPlain := by
  have hreason : ∀ {id reason}, s.jobs.get? id = some (.failed reason) → ¬ IsFallback reason := by
    intro id reason hjob
    obtain ⟨task, outcome, houtcome⟩ := hs id _ hjob
    exact Job.not_isFallback_of_failed houtcome.symm
  cases hm with
  | refused r e => exact e.not_isFallback
  | unknownStatus id => exact (tellsOfTable_notFound id).not_isFallback
  | unknownFetch id => exact (tellsOfTable_notFound id).not_isFallback
  | status id job hjob hstate => exact ⟨fun h => absurd h hstate, nofun⟩
  | failedStatus id reason hjob =>
    refine ⟨fun _ => rfl, ?_⟩
    rintro _ ⟨⟩
    exact hreason hjob
  | failure id reason hjob => exact hreason hjob
  | early id job => exact (tellsOfTable_early id job.state).not_isFallback
  | _ => trivial

theorem isPlain_act (hs : s.IsEarned) (deed : Deed) :
    ∀ reply ∈ (s.act hosts deed).1, reply.IsPlain := by
  intro reply hreply
  cases deed with
  | message m =>
    have hm := s.handled hosts.toHost m
    rw [show (s.handle hosts.toHost m).1 = some reply from hreply] at hm
    exact hm.isPlain hs
  | _ => cases hreply

end Server

/-! ## Runs -/

namespace Registry

/-- In every run the records are those of the server that answers alike, each of them is coherent,
and from one moment to a later one, as in what is shown, the states of a job move forward to an end
that does not change.  No reply uses the words that stand in for others, and no client reports them
whose last reply came from the server. -/
theorem isCoherent_after {hosts : HostByJob} (hnames : Function.Injective hosts.requestName)
    (deeds : List Deed) :
    (initial.trace hosts deeds = Server.initial.trace hosts deeds ∧
      (initial.after hosts deeds).records =
        (Server.initial.after hosts deeds).jobs.mapValues fun _ job => job.record) ∧
    (∀ id j, (initial.after hosts deeds).records.get? id = some j → j.IsCoherent) ∧
    (∀ before rest, deeds = before ++ rest → ∀ id j j',
      (initial.after hosts before).records.get? id = some j →
      (initial.after hosts deeds).records.get? id = some j' →
      ReflTransGen JobState.LeadsTo j.state j'.state ∧ (j.state.isTerminal = true → j' = j)) ∧
    ((initial.trace hosts deeds).Pairwise fun a b => ∀ id state state', a.Shows id state →
      b.Shows id state' → ReflTransGen JobState.LeadsTo state state') ∧
    (∀ e ∈ initial.trace hosts deeds, ∀ reply ∈ e.reply, reply.IsPlain) ∧
    ∀ (σ : Type) (t : Transport σ) (s : TimedClient σ) (op : Operation) (text : String),
      (s.perform t op).1 = some (.remote text) →
      (∀ reply, (s.perform t op).2.Heard reply →
        ∃ e ∈ initial.trace hosts deeds, ∃ given ∈ e.reply, given.Delivers reply) →
      ¬ IsFallback text := by
  have hrepresents := Represents.initial.after hnames deeds
  have htrace : initial.trace hosts deeds = Server.initial.trace hosts deeds :=
    Represents.initial.trace hnames deeds
  have hearned : ∀ before, (Server.initial.after hosts before).IsEarned :=
    Server.isEarned_initial.after hosts
  have hplain : ∀ e ∈ initial.trace hosts deeds, ∀ reply ∈ e.reply, reply.IsPlain := by
    intro e he reply hreply
    rw [htrace] at he
    obtain ⟨before, hbefore⟩ := Server.exists_of_mem_trace he
    rw [hbefore] at hreply
    exact Server.isPlain_act (hearned before) e.deed reply hreply
  refine ⟨⟨htrace, hrepresents.records⟩, ?_, ?_, ?_, hplain, ?_⟩
  · intro id j hj
    rw [hrepresents.get?_records] at hj
    obtain ⟨job, hjob, rfl⟩ := Option.map_eq_some_iff.1 hj
    exact (hearned deeds id job hjob).isCoherent_record
  · rintro before rest rfl id j j' hj hj'
    have hbefore := Represents.initial.after hnames before
    rw [hbefore.get?_records] at hj
    rw [hrepresents.get?_records, Server.after_append] at hj'
    obtain ⟨job, hjob, rfl⟩ := Option.map_eq_some_iff.1 hj
    obtain ⟨job', hjob', rfl⟩ := Option.map_eq_some_iff.1 hj'
    have hgiven := hbefore.given id (by rw [hjob]; nofun)
    obtain ⟨first, hfirst, hgrows⟩ := Server.grows_after hnames rest hgiven hjob'
    obtain rfl := Option.some.inj (hfirst.symm.trans hjob)
    exact ⟨hgrows.forward, fun hend => congrArg Job.record (hgrows.settled hend)⟩
  · rw [htrace]
    exact Server.pairwise_shows hnames Server.isEarned_initial Represents.initial deeds
  · intro σ t s op text htext hserved
    obtain ⟨reply, hheard, hreports⟩ := TimedClient.reports_of_perform htext
    obtain ⟨e, he, given, hgiven, hdelivers⟩ := hserved reply hheard
    exact ((hplain e he given hgiven).delivers hdelivers).not_isFallback hreports

end Registry

/-! ## A run -/

/-- A client with a request in flight, on a channel that answers that the request has failed. -/
def TimedClient.failing : TimedClient Script where
  client := .live ⟨⟨[⟨0, .ok .nan⟩], none, false⟩, "nan", .sent "I"⟩
  clock := 0
  log := []

/-- The job fails while it runs, and the client is told why. -/
theorem Registry.isCoherent_nan :
    let deeds : List Deed := [.message (.execute .single), .start 0, .finish 0 7]
    let reason := "evaluation failed: output 'y' holds a non-finite value at slot 0"
    (initial.after Host.nan.byJob deeds).records.get? "I" = some ⟨.failed, some reason, none⟩ ∧
      JobRecord.IsCoherent ⟨.failed, some reason, none⟩ ∧
      ReflTransGen JobState.LeadsTo .running .failed ∧
      (TimedClient.failing.perform Script.transport .poll).1 = some (.remote reason) ∧
      ¬ IsFallback reason := by
  intro deeds reason
  have hnames : Function.Injective Host.nan.byJob.requestName := Host.injective_tally
  have hfailed : (initial.after Host.nan.byJob deeds).records.get? "I" =
      some ⟨.failed, some reason, none⟩ := rfl
  have hrunning :
      (initial.after Host.nan.byJob [.message (.execute .single), .start 0]).records.get? "I" =
        some ⟨.running, none, none⟩ := rfl
  have hpoll : (TimedClient.failing.perform Script.transport .poll).1 = some (.remote reason) := rfl
  have hheard : ∀ reply, (TimedClient.failing.perform Script.transport .poll).2.Heard reply →
      reply = .nan := by
    rintro reply ⟨time, hlog⟩
    cases hlog
    rfl
  have hlimit : ServerMessage.nan.body.length ≤ Frame.maxBody := by decide +kernel
  have hframe : Frame.encode ServerMessage.nan.body =
      .ok (Frame.littleEndian Frame.headerLength ServerMessage.nan.body.length ++
        ServerMessage.nan.body) :=
    Frame.encode_eq_ok.2 ⟨hlimit, rfl⟩
  have hdelivers : ServerMessage.nan.Delivers .nan :=
    ⟨_, hframe, ServerMessage.receive_of_travels (m := .nan) trivial hframe⟩
  obtain ⟨-, hcoherent, hforward, -⟩ := isCoherent_after hnames deeds
  obtain ⟨-, -, -, -, -, hclient⟩ := isCoherent_after hnames (deeds ++ [.message (.status "I")])
  refine ⟨hfailed, hcoherent "I" _ hfailed, ?_, hpoll, ?_⟩
  · exact (hforward [.message (.execute .single), .start 0] [.finish 0 7] rfl "I" _ _ hrunning
      hfailed).1
  · refine hclient Script Script.transport TimedClient.failing .poll reason hpoll ?_
    intro reply hreply
    obtain rfl := hheard reply hreply
    exact ⟨⟨.message (.status "I"), some .nan⟩, by simp [trace, deeds]; rfl, .nan, rfl, hdelivers⟩

end EncryptedInference
