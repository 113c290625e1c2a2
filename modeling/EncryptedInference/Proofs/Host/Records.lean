import EncryptedInference.Host.Records
import EncryptedInference.Proofs.Host.SharedServer
import EncryptedInference.Proofs.NameMaps

/-!
# The records of a server

Three fields that are written one by one, by two parties, could say anything.  The answers, the two
writes of each task and the dropping of jobs keep them so that the records are those of the jobs of
a server (`Registry.Represents`): each deed is answered alike and leads to records of the jobs that
it leads to (`Represents.act`), and so does every run of deeds (`represents_after`).
-/

namespace EncryptedInference

/-- Something that is done at a server: a message is answered, the task of the request with a number
writes at its beginning or at its end, or jobs are dropped. -/
inductive Deed
  | message (m : ClientMessage)
  | start (k : Nat)
  /-- The computation runs in a task of its own, with the given number. -/
  | finish (k task : Nat)
  | evict (ids : List String)

/-- A deed and the reply it is answered with. -/
structure Showing where
  deed : Deed
  reply : Option ServerMessage

/-! ## Deeds at a server -/

namespace Server

def act (hosts : HostByJob) (s : Server) : Deed → Option ServerMessage × Server
  | .message m => s.handle hosts.toHost m
  | .start k => (none, s.start (hosts.requestName k))
  | .finish k task =>
    (none, s.finish (hosts.hostFor (hosts.requestName k)) (hosts.requestName k) task)
  | .evict ids => (none, s.evict ids)

/-- The server after deeds. -/
def after (hosts : HostByJob) (s : Server) (deeds : List Deed) : Server :=
  deeds.foldl (fun s deed => (s.act hosts deed).2) s

/-- What deeds show from outside. -/
def trace (hosts : HostByJob) : Server → List Deed → List Showing
  | _, [] => []
  | s, deed :: deeds => ⟨deed, (s.act hosts deed).1⟩ :: trace hosts (s.act hosts deed).2 deeds

theorem updateJob_eq_self {s : Server} {id : String} {f : Job → Job}
    (h : ∀ job, s.jobs.get? id = some job → f job = job) : s.updateJob id f = s := by
  have hjobs : (s.updateJob id f).jobs = s.jobs := by
    apply NameMap.ext_get?
    intro other
    rw [get?_updateJob]
    split_ifs with hid
    · rw [hid]
      cases hjob : s.jobs.get? id with
      | none => rfl
      | some job => rw [Option.map_some, h job hjob]
    · rfl
  have haccepted := accepted_updateJob s id f
  exact congr (congrArg mk hjobs) haccepted

end Server

/-! ## Records of jobs -/

/-- The record of a job. -/
def Job.record (job : Job) : JobRecord := ⟨job.state, job.error?, job.outputs?⟩

/-- What a task writes at its end is the record of what becomes of the job. -/
theorem JobRecord.finish_running (task : Nat) (outcome : EngineOutcome) (r : Request) :
    (Job.running r).record.finish (outcome.result task) = (Job.ofOutcome task outcome).record := by
  unfold Job.ofOutcome
  cases outcome.result task <;> rfl

/-- The task is as far as the job. -/
def JobTask.Fits (t : JobTask) : Job → Prop
  | .queued r => t.stage = .waiting ∧ r = t.request
  | .running r => t.stage = .computing ∧ r = t.request
  | .completed _ | .failed _ => t.stage = .over

theorem JobTask.fits_ofOutcome {t : JobTask} (ht : t.stage = .over) (task : Nat)
    (outcome : EngineOutcome) : t.Fits (Job.ofOutcome task outcome) := by
  rcases Job.ofOutcome_cases task outcome with ⟨outputs, h⟩ | ⟨reason, h⟩
  · rw [h]
    exact ht
  · rw [h]
    exact ht

/-! ## Deeds in records -/

namespace Registry

def act (hosts : HostByJob) (g : Registry) : Deed → Option ServerMessage × Registry
  | .message m => g.handle hosts.toHost m
  | .start k => (none, g.start k)
  | .finish k task => (none, g.finish (hosts.engineFor (hosts.requestName k)) k task)
  | .evict ids => (none, g.evict ids)

/-- The registry after deeds. -/
def after (hosts : HostByJob) (g : Registry) (deeds : List Deed) : Registry :=
  deeds.foldl (fun g deed => (g.act hosts deed).2) g

/-- What deeds show from outside. -/
def trace (hosts : HostByJob) : Registry → List Deed → List Showing
  | _, [] => []
  | g, deed :: deeds => ⟨deed, (g.act hosts deed).1⟩ :: trace hosts (g.act hosts deed).2 deeds

/-- The records are those of the jobs of a server, and each task knows its job and is as far as
that, if it is still there. -/
structure Represents (hosts : HostByJob) (g : Registry) (s : Server) : Prop where
  accepted : s.accepted = g.tasks.length
  records : g.records = s.jobs.mapValues fun _ job => job.record
  name : ∀ (k : Nat) (t : JobTask), g.tasks[k]? = some t → t.id = hosts.requestName k
  fits : ∀ (k : Nat) (t : JobTask), g.tasks[k]? = some t →
    ∀ job, s.jobs.get? t.id = some job → t.Fits job
  given : ∀ id, s.jobs.get? id ≠ none → SharedServer.Given hosts s id

namespace Represents

variable {hosts : HostByJob} {g : Registry} {s : Server}

theorem initial : Represents hosts .initial .initial where
  accepted := rfl
  records := rfl
  name k t ht := by simp [Registry.initial] at ht
  fits k t ht := by simp [Registry.initial] at ht
  given _ hid := absurd rfl hid

theorem get?_records (hg : Represents hosts g s) (id : String) :
    g.records.get? id = (s.jobs.get? id).map Job.record := by
  rw [hg.records, NameMap.get?_mapValues]

/-! ### Jobs come and go -/

theorem accept (hg : Represents hosts g s) (hnames : Function.Injective hosts.requestName)
    (r : Request) : Represents hosts
      ⟨g.records.insert (hosts.requestName g.tasks.length) .fresh,
        g.tasks ++ [⟨hosts.requestName g.tasks.length, r, .waiting⟩]⟩
      (s.accept hosts.toHost r) := by
  have hlast : ∀ {k : Nat} {t : JobTask},
      (g.tasks ++ [⟨hosts.requestName g.tasks.length, r, .waiting⟩])[k]? = some t →
      (g.tasks[k]? = some t ∧ k < g.tasks.length) ∨
        (k = g.tasks.length ∧ t = ⟨hosts.requestName g.tasks.length, r, .waiting⟩) := by
    intro k t ht
    rcases Nat.lt_or_ge k g.tasks.length with hk | hk
    · rw [List.getElem?_append_left hk] at ht
      exact Or.inl ⟨ht, hk⟩
    · rw [List.getElem?_append_right hk, List.getElem?_singleton] at ht
      split_ifs at ht with hzero
      exact Or.inr ⟨by omega, (Option.some.inj ht).symm⟩
  constructor
  · simp [Server.accept, hg.accepted]
  · rw [hg.records, ← hg.accepted]
    exact (NameMap.mapValues_insert (fun _ job => job.record) s.jobs _ (Job.queued r)).symm
  · intro k t ht
    rcases hlast ht with ⟨ht, -⟩ | ⟨rfl, rfl⟩
    · exact hg.name k t ht
    · rfl
  · intro k t ht job hjob
    rw [Server.get?_accept, hg.accepted] at hjob
    rcases hlast ht with ⟨ht, hk⟩ | ⟨rfl, rfl⟩
    · have hne : t.id ≠ hosts.requestName g.tasks.length := by
        rw [hg.name k t ht]
        intro heq
        have := hnames heq
        omega
      rw [if_neg hne] at hjob
      exact hg.fits k t ht job hjob
    · rw [if_pos rfl] at hjob
      obtain rfl := Option.some.inj hjob
      exact ⟨rfl, rfl⟩
  · intro id hid
    rw [Server.get?_accept] at hid
    by_cases heq : id = hosts.requestName s.accepted
    · exact ⟨s.accepted, Nat.lt_succ_self _, heq⟩
    · rw [if_neg heq] at hid
      exact (hg.given id hid).mono (Nat.le_succ _)

/-- Jobs may go, and their records with them. -/
theorem of_subset (hg : Represents hosts g s) {g' : Registry} {s' : Server}
    (htasks : g'.tasks = g.tasks) (haccepted : s'.accepted = s.accepted)
    (hrecords : g'.records = s'.jobs.mapValues fun _ job => job.record)
    (hjobs : ∀ id job, s'.jobs.get? id = some job → s.jobs.get? id = some job) :
    Represents hosts g' s' where
  accepted := by rw [haccepted, htasks, hg.accepted]
  records := hrecords
  name k t ht := hg.name k t (htasks ▸ ht)
  fits k t ht job hjob := hg.fits k t (htasks ▸ ht) job (hjobs _ job hjob)
  given id hid := by
    obtain ⟨job, hjob⟩ := Option.ne_none_iff_exists'.1 hid
    have hold := hg.given id (by rw [hjobs id job hjob]; nofun)
    exact hold.mono (Nat.le_of_eq haccepted.symm)

theorem drop (hg : Represents hosts g s) (id : String) :
    Represents hosts { g with records := g.records.erase id } (s.drop id) := by
  refine hg.of_subset rfl rfl ?_ ?_
  · rw [hg.records]
    exact (NameMap.mapValues_erase ..).symm
  · intro other job hjob
    rw [Server.get?_drop] at hjob
    split_ifs at hjob
    exact hjob

theorem evict (hg : Represents hosts g s) (ids : List String) :
    Represents hosts (g.evict ids) (s.evict ids) := by
  refine hg.of_subset rfl rfl ?_ ?_
  · show ids.foldl NameMap.erase g.records = _
    rw [hg.records]
    exact (NameMap.mapValues_foldl_erase ..).symm
  · intro other job hjob
    rw [Server.get?_evict] at hjob
    split_ifs at hjob
    exact hjob

/-! ### Answers -/

theorem status (hg : Represents hosts g s) (id : String) :
    (g.status id).1 = (s.status id).1 ∧ Represents hosts (g.status id).2 (s.status id).2 := by
  unfold Registry.status Server.status
  rw [hg.get?_records]
  cases hjob : s.jobs.get? id with
  | none => exact ⟨rfl, hg⟩
  | some job =>
    refine ⟨rfl, ?_⟩
    cases job with
    | failed reason => exact hg.drop id
    | _ => exact hg

theorem fetch (hg : Represents hosts g s) (id : String) :
    (g.fetch id).1 = (s.fetch id).1 ∧ Represents hosts (g.fetch id).2 (s.fetch id).2 := by
  unfold Registry.fetch Server.fetch
  rw [hg.get?_records]
  cases hjob : s.jobs.get? id with
  | none => exact ⟨rfl, hg⟩
  | some job =>
    cases job with
    | queued r => exact ⟨rfl, hg⟩
    | running r => exact ⟨rfl, hg⟩
    | completed outputs => exact ⟨rfl, hg.drop id⟩
    | failed reason => exact ⟨rfl, hg.drop id⟩

theorem handle (hg : Represents hosts g s) (hnames : Function.Injective hosts.requestName)
    (m : ClientMessage) :
    (g.handle hosts.toHost m).1 = (s.handle hosts.toHost m).1 ∧
      Represents hosts (g.handle hosts.toHost m).2 (s.handle hosts.toHost m).2 := by
  cases m with
  | hello version => exact ⟨rfl, hg⟩
  | execute r =>
    simp only [Registry.handle, Server.handle, Registry.submit, Server.submit]
    cases checkRequest hosts.files r with
    | error e => exact ⟨rfl, hg⟩
    | ok _ =>
      dsimp only
      rw [hg.accepted]
      have haccept := hg.accept hnames r
      rw [Server.accept, hg.accepted] at haccept
      exact ⟨rfl, haccept⟩
  | status id =>
    obtain ⟨hreply, hafter⟩ := hg.status id
    exact ⟨congrArg some hreply, hafter⟩
  | fetchResult id =>
    obtain ⟨hreply, hafter⟩ := hg.fetch id
    exact ⟨congrArg some hreply, hafter⟩
  | goodbye => exact ⟨rfl, hg⟩

/-! ### Tasks -/

/-- A task writes to a record what becomes of the job. -/
theorem write (hg : Represents hosts g s) (hnames : Function.Injective hosts.requestName) {k : Nat}
    {t : JobTask} (ht : g.tasks[k]? = some t) {f : JobRecord → JobRecord} {step : Job → Job}
    {stage : TaskStage}
    (hstep : ∀ job, t.Fits job →
      (step job).record = f job.record ∧ JobTask.Fits { t with stage } (step job)) :
    Represents hosts (g.write k t f stage) (s.updateJob t.id step) := by
  have hk : k < g.tasks.length := (List.getElem?_eq_some_iff.1 ht).1
  have htask : ∀ {k' : Nat} {t' : JobTask}, (g.write k t f stage).tasks[k']? = some t' →
      (k' = k ∧ t' = { t with stage }) ∨ (k' ≠ k ∧ g.tasks[k']? = some t') := by
    intro k' t' ht'
    rw [Registry.write, List.getElem?_set] at ht'
    split_ifs at ht' with heq
    · exact Or.inl ⟨heq.symm, (Option.some.inj ht').symm⟩
    · exact Or.inr ⟨Ne.symm heq, ht'⟩
  constructor
  · rw [Server.accepted_updateJob, hg.accepted, Registry.write, List.length_set]
  · simp only [Registry.write, hg.get?_records]
    unfold Server.updateJob
    cases hjob : s.jobs.get? t.id with
    | none => exact hg.records
    | some job =>
      dsimp only [Option.map_some]
      rw [NameMap.mapValues_insert, hg.records, (hstep job (hg.fits k t ht job hjob)).1]
  · intro k' t' ht'
    rcases htask ht' with ⟨rfl, rfl⟩ | ⟨-, ht'⟩
    · exact hg.name k' t ht
    · exact hg.name k' t' ht'
  · intro k' t' ht' job hjob
    rw [Server.get?_updateJob] at hjob
    rcases htask ht' with ⟨rfl, rfl⟩ | ⟨hne, ht'⟩
    · rw [if_pos rfl] at hjob
      obtain ⟨old, hold, rfl⟩ := Option.map_eq_some_iff.1 hjob
      exact (hstep old (hg.fits k' t ht old hold)).2
    · have hid : t'.id ≠ t.id := by
        rw [hg.name k' t' ht', hg.name k t ht]
        exact fun heq => hne (hnames heq)
      rw [if_neg hid] at hjob
      exact hg.fits k' t' ht' job hjob
  · intro id hid
    have hold : s.jobs.get? id ≠ none := mt (Server.absent_updateJob · _ _) hid
    exact (hg.given id hold).mono (Nat.le_of_eq (Server.accepted_updateJob ..).symm)

/-- Where there is no task, there is no job. -/
theorem get?_of_no_task (hg : Represents hosts g s) (hnames : Function.Injective hosts.requestName)
    {k : Nat} (ht : g.tasks[k]? = none) : s.jobs.get? (hosts.requestName k) = none := by
  cases hjob : s.jobs.get? (hosts.requestName k) with
  | none => rfl
  | some job =>
    obtain ⟨n, hn, heq⟩ := hg.given (hosts.requestName k) (by rw [hjob]; nofun)
    have hlength := List.getElem?_eq_none_iff.1 ht
    have hkn := hnames heq
    rw [hg.accepted] at hn
    omega

theorem start (hg : Represents hosts g s) (hnames : Function.Injective hosts.requestName)
    (k : Nat) : Represents hosts (g.start k) (s.start (hosts.requestName k)) := by
  unfold Registry.start Server.start
  cases ht : g.tasks[k]? with
  | none =>
    have hnone := hg.get?_of_no_task hnames ht
    rw [Server.updateJob_eq_self (by simp [hnone])]
    exact hg
  | some t =>
    rw [← hg.name k t ht]
    dsimp only
    split_ifs with hstage
    · refine hg.write hnames ht ?_
      intro job hfits
      cases job with
      | queued r => exact ⟨rfl, rfl, hfits.2⟩
      | running r => exact absurd (hstage.symm.trans hfits.1) nofun
      | completed outputs => exact absurd (hstage.symm.trans hfits) nofun
      | failed reason => exact absurd (hstage.symm.trans hfits) nofun
    · have hsame : ∀ job, s.jobs.get? t.id = some job → job.start = job := by
        intro job hjob
        have hfits := hg.fits k t ht job hjob
        cases job with
        | queued r => exact absurd hfits.1 hstage
        | _ => rfl
      rw [Server.updateJob_eq_self hsame]
      exact hg

theorem finish (hg : Represents hosts g s) (hnames : Function.Injective hosts.requestName)
    (k task : Nat) : Represents hosts (g.finish (hosts.engineFor (hosts.requestName k)) k task)
      (s.finish (hosts.hostFor (hosts.requestName k)) (hosts.requestName k) task) := by
  unfold Registry.finish Server.finish
  cases ht : g.tasks[k]? with
  | none =>
    have hnone := hg.get?_of_no_task hnames ht
    rw [Server.updateJob_eq_self (by simp [hnone])]
    exact hg
  | some t =>
    rw [← hg.name k t ht]
    dsimp only
    split_ifs with hstage
    · refine hg.write hnames ht ?_
      intro job hfits
      cases job with
      | queued r => exact absurd (hstage.symm.trans hfits.1) nofun
      | running r =>
        obtain ⟨-, rfl⟩ := hfits
        exact ⟨(JobRecord.finish_running ..).symm, JobTask.fits_ofOutcome rfl ..⟩
      | completed outputs => exact absurd (hstage.symm.trans hfits) nofun
      | failed reason => exact absurd (hstage.symm.trans hfits) nofun
    · have hsame : ∀ job, s.jobs.get? t.id = some job →
          job.finish (hosts.engineFor t.id) task = job := by
        intro job hjob
        have hfits := hg.fits k t ht job hjob
        cases job with
        | running r => exact absurd hfits.1 hstage
        | _ => rfl
      rw [HostByJob.hostFor, Server.updateJob_eq_self hsame]
      exact hg

/-- A deed is answered alike, and leads to the records of the jobs that it leads to. -/
theorem act (hg : Represents hosts g s) (hnames : Function.Injective hosts.requestName)
    (deed : Deed) : (g.act hosts deed).1 = (s.act hosts deed).1 ∧
      Represents hosts (g.act hosts deed).2 (s.act hosts deed).2 := by
  cases deed with
  | message m => exact hg.handle hnames m
  | start k => exact ⟨rfl, hg.start hnames k⟩
  | finish k task => exact ⟨rfl, hg.finish hnames k task⟩
  | evict ids => exact ⟨rfl, hg.evict ids⟩

theorem after (hg : Represents hosts g s) (hnames : Function.Injective hosts.requestName)
    (deeds : List Deed) : Represents hosts (g.after hosts deeds) (s.after hosts deeds) := by
  induction deeds generalizing g s with
  | nil => exact hg
  | cons deed deeds ih =>
    have hstep := (hg.act hnames deed).2
    exact ih hstep

theorem trace (hg : Represents hosts g s) (hnames : Function.Injective hosts.requestName)
    (deeds : List Deed) : g.trace hosts deeds = s.trace hosts deeds := by
  induction deeds generalizing g s with
  | nil => rfl
  | cons deed deeds ih =>
    obtain ⟨hreply, hstep⟩ := hg.act hnames deed
    rw [Registry.trace, Server.trace, hreply, ih hstep]

end Represents

end Registry

end EncryptedInference
