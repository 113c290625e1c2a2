import EncryptedInference.Proofs.Exchange.Messages
import EncryptedInference.Proofs.Host.SharedServer

/-!
# What became of a job is told once

An accepted request has a job in the table (`SharedServer.Kept`) until a reply tells how the job
ended or the visit that owns it ends; from then on there is none (`SharedServer.Gone`), whatever its
task still does.  `SharedServer.Kept.step` is what one move does to a job in the table, and
`SharedServer.Kept.delivered` what a run shows of it.
-/

namespace EncryptedInference

/-! ## Occurrences -/

namespace Occurrence

/-- Somebody asks for the state or the result of a request. -/
def Asks (id : String) (e : Occurrence) : Prop :=
  ∃ i, e.move = .message i (.status id) ∨ e.move = .message i (.fetchResult id)

/-- A visit ends. -/
def Ends (i : Nat) (e : Occurrence) : Prop := e.move = .leave i ∨ e.move = .message i .goodbye

/-- The reply tells how the job of request `r`, named `id`, ended: it is the result, or it says that
the job failed, or it answers the question for the result with the reason of the failure. -/
def Tells (engine : Engine) (r : Request) (id : String) (e : Occurrence) : Prop :=
  (∃ outputs, e.reply = some (.result ⟨id, outputs⟩)) ∨
  (∃ reason, e.reply = some (.status id .failed reason)) ∨
  ∃ i reason, e.move = .message i (.fetchResult id) ∧ e.reply = some (.error reason) ∧
    ∃ task, Job.ofOutcome task (engine.evaluate r) = .failed reason

end Occurrence

namespace Server

/-- About a name that is not in the table, nothing is told but that. -/
theorem Handled.of_absent {host : Host} {s s' : Server} {m : ClientMessage} {reply : ServerMessage}
    (hm : Handled host s m (some reply) s') {id : String} (habsent : s.jobs.get? id = none)
    (i : Nat) (engine : Engine) (r : Request) :
    ¬ Occurrence.Tells engine r id ⟨.message i m, some reply⟩ ∧
      (Occurrence.Asks id ⟨.message i m, some reply⟩ → reply = notFound id) := by
  have hkept : ∀ other task, Job.ofOutcome task (engine.evaluate r) ≠
      .failed ("request '" ++ other ++ "' not found") := by
    intro other task heq
    exact Job.not_tellsOfTable_of_failed heq (tellsOfTable_notFound other)
  have hpresent : ∀ {other job}, s.jobs.get? other = some job → other ≠ id := by
    rintro other job h rfl
    rw [habsent] at h
    cases h
  cases hm with
  | hello => simp [Occurrence.Tells, Occurrence.Asks]
  | accepted => simp [Occurrence.Tells, Occurrence.Asks]
  | refused => simp [Occurrence.Tells, Occurrence.Asks]
  | unknownStatus other h =>
    simp [Occurrence.Tells, Occurrence.Asks, notFound]
  | status other job h hstate => simp [Occurrence.Tells, Occurrence.Asks, hpresent h]
  | failedStatus other reason h => simp [Occurrence.Tells, Occurrence.Asks, hpresent h]
  | unknownFetch other h =>
    simp [Occurrence.Tells, Occurrence.Asks, notFound, hkept]
  | result other outputs h => simp [Occurrence.Tells, Occurrence.Asks, hpresent h]
  | failure other reason h => simp [Occurrence.Tells, Occurrence.Asks, hpresent h]
  | early other job h hstate => simp [Occurrence.Tells, Occurrence.Asks, hpresent h]

end Server

namespace SharedServer

variable {hosts : HostByJob} {h : SharedServer} {i : Nat} {r : Request} {id : String}

/-! ## Names without a job -/

theorem tells_of_absent (habsent : h.server.jobs.get? id = none) (engine : Engine) (r : Request)
    (move : Move) : ¬ Occurrence.Tells engine r id ⟨move, (h.step hosts move).1⟩ ∧
      (Occurrence.Asks id ⟨move, (h.step hosts move).1⟩ →
        ∀ reply ∈ (h.step hosts move).1, reply = Server.notFound id) := by
  have hsilent : ∀ move, ¬ Occurrence.Tells engine r id ⟨move, none⟩ := by
    simp [Occurrence.Tells]
  cases move with
  | message i m =>
    rcases h.message_cases hosts i m with ⟨-, heq⟩ | ⟨-, heq⟩ | ⟨v, reply, s, -, hm, heq⟩
    · simp only [step, heq]
      exact ⟨hsilent _, fun _ _ => nofun⟩
    · simp only [step, heq]
      exact ⟨hsilent _, fun _ _ => nofun⟩
    · obtain ⟨htells, hasks⟩ := hm.of_absent habsent i engine r
      simp only [step, heq]
      refine ⟨htells, ?_⟩
      intro hask other hother
      rw [← Option.some.inj hother]
      exact hasks hask
  | leave i => exact ⟨hsilent _, fun _ _ => nofun⟩
  | start other => exact ⟨hsilent _, fun _ _ => nofun⟩
  | finish other task => exact ⟨hsilent _, fun _ _ => nofun⟩

/-- The name was given, and its job is not in the table any more. -/
structure Gone (hosts : HostByJob) (id : String) (h : SharedServer) : Prop where
  absent : h.server.jobs.get? id = none
  given : Given hosts h.server id

/-- No move brings a job back: the next name is another one, and a task only changes a job that is
still there. -/
theorem Gone.step (hg : Gone hosts id h) (hnames : Function.Injective hosts.requestName)
    (move : Move) : Gone hosts id (h.step hosts move).2 := by
  have hnext : id ≠ hosts.requestName h.server.accepted := by
    rintro rfl
    exact not_given_next hnames h.server hg.given
  refine ⟨?_, hg.given.mono (h.accepted_step_le hosts move)⟩
  cases move with
  | message i m =>
    rcases h.message_cases hosts i m with ⟨-, heq⟩ | ⟨-, heq⟩ | ⟨v, reply, s, -, hm, heq⟩
    · simpa only [SharedServer.step, heq] using hg.absent
    · simp only [SharedServer.step, heq]
      exact Server.absent_evict hg.absent _
    · simp only [SharedServer.step, heq, server_put]
      rcases hm.get?_cases id with hsame | ⟨-, hgone⟩ | hname
      · rw [hsame, hg.absent]
      · exact hgone
      · exact absurd hname hnext
  | leave i => exact Server.absent_evict hg.absent _
  | start other => exact Server.absent_updateJob hg.absent other _
  | finish other task => exact Server.absent_updateJob hg.absent other _

/-- Once a job is gone, a run tells nothing of it. -/
theorem Gone.trace (hg : Gone hosts id h) (hnames : Function.Injective hosts.requestName)
    (engine : Engine) (r : Request) (moves : List Move) :
    ∀ e ∈ h.trace hosts moves, ¬ e.Tells engine r id ∧
      (e.Asks id → ∀ reply ∈ e.reply, reply = Server.notFound id) := by
  induction moves generalizing h with
  | nil =>
    intro e he
    cases he
  | cons move moves ih =>
    intro e he
    rcases List.mem_cons.1 he with rfl | he
    · exact tells_of_absent hg.absent engine r move
    · have hgone := hg.step hnames move
      exact ih hgone e he

/-! ## Names with a job -/

/-- The job of a request is in the table, and the visit on which it was accepted owns it. -/
structure Kept (hosts : HostByJob) (i : Nat) (r : Request) (id : String) (h : SharedServer) :
    Prop where
  owner : id ∈ h.owned i
  job : ∃ job, h.server.jobs.get? id = some job ∧ job.Serves (hosts.engineFor id) r

/-- The job stays, and the occurrence does not say otherwise. -/
structure Stays (hosts : HostByJob) (i : Nat) (r : Request) (id : String) (e : Occurrence)
    (h : SharedServer) : Prop where
  kept : Kept hosts i r id h
  quiet : ¬ e.Tells (hosts.engineFor id) r id
  lasts : ¬ e.Ends i
  found : e.Asks id → e.reply ≠ some (Server.notFound id)

/-- The job goes, and the occurrence is what takes it away. -/
structure Goes (hosts : HostByJob) (i : Nat) (r : Request) (id : String) (e : Occurrence)
    (h : SharedServer) : Prop where
  gone : Gone hosts id h
  reason : e.Tells (hosts.engineFor id) r id ∨ e.Ends i
  result : ∀ outputs, e.reply = some (.result ⟨id, outputs⟩) →
    (hosts.engineFor id).evaluate r = .outputs outputs
  found : e.Asks id → e.reply ≠ some (Server.notFound id)

namespace Kept

theorem visit (hk : Kept hosts i r id h) : ∃ v, h.visits i = some v ∧ id ∈ v.owned := by
  have howner := hk.owner
  unfold owned at howner
  cases hv : h.visits i with
  | none =>
    rw [hv] at howner
    cases howner
  | some v =>
    rw [hv] at howner
    exact ⟨v, rfl, howner⟩

theorem given (hk : Kept hosts i r id h) (ho : Orderly hosts h) : Given hosts h.server id :=
  ho.owned i id hk.owner

/-- A change that leaves the job and its owner alone. -/
theorem of_eq (hk : Kept hosts i r id h) {h' : SharedServer}
    (hjob : h'.server.jobs.get? id = h.server.jobs.get? id) (howner : id ∈ h'.owned i) :
    Kept hosts i r id h' :=
  { owner := howner
    job := by
      rw [hjob]
      exact hk.job }

theorem updateJob (hk : Kept hosts i r id h) {other : String} {f : Job → Job}
    (hf : id = other → ∀ job, job.Serves (hosts.engineFor id) r →
      (f job).Serves (hosts.engineFor id) r) :
    Kept hosts i r id { h with server := h.server.updateJob other f } := by
  obtain ⟨job, hjob, hserves⟩ := hk.job
  refine ⟨hk.owner, ?_⟩
  rw [Server.get?_updateJob, hjob]
  split_ifs with hid
  · exact ⟨f job, rfl, hf hid job hserves⟩
  · exact ⟨job, rfl, hserves⟩

/-- Only the visit that owns the job takes it along when it ends. -/
theorem leave (hk : Kept hosts i r id h) (ho : Orderly hosts h) (j : Nat) :
    (j ≠ i ∧ Kept hosts i r id (h.leave j)) ∨ (j = i ∧ Gone hosts id (h.leave j)) := by
  by_cases hji : j = i
  · right
    refine ⟨hji, ?_, hk.given ho⟩
    rw [SharedServer.leave, server_put, Server.get?_evict, hji, if_pos hk.owner]
  · left
    have hapart : id ∉ h.owned j := ho.apart i j (Ne.symm hji) id hk.owner
    have hjob : (h.leave j).server.jobs.get? id = h.server.jobs.get? id := by
      rw [SharedServer.leave, server_put, Server.get?_evict, if_neg hapart]
    have howner : id ∈ (h.leave j).owned i := by
      rw [owned_leave, if_neg (Ne.symm hji)]
      exact hk.owner
    exact ⟨hji, hk.of_eq hjob howner⟩

/-- A reply other than the result of the job leaves its owner alone. -/
theorem owner_noted (hk : Kept hosts i r id h) {j : Nat} {v : Visit} (hv : h.visits j = some v)
    {reply : ServerMessage} (hreply : ∀ outputs, reply ≠ .result ⟨id, outputs⟩) (s : Server) :
    id ∈ (h.put j (some (v.noted reply)) s).owned i := by
  refine (mem_owned_noted hv).2 (Or.inr ⟨hk.owner, ?_⟩)
  rintro - ⟨other, outputs⟩ rfl rfl
  exact hreply outputs rfl

theorem ne_of_absent (hk : Kept hosts i r id h) {other : String}
    (hnone : h.server.jobs.get? other = none) : other ≠ id := by
  rintro rfl
  obtain ⟨job, hjob, -⟩ := hk.job
  rw [hnone] at hjob
  cases hjob

variable {j : Nat} {v : Visit} (hv : h.visits j = some v)
include hv

/-- An answer that leaves the job alone and is not its result. -/
theorem answered (hk : Kept hosts i r id h) {reply : ServerMessage}
    (hreply : ∀ outputs, reply ≠ .result ⟨id, outputs⟩) {s : Server}
    (hjob : s.jobs.get? id = h.server.jobs.get? id) :
    Kept hosts i r id (h.put j (some (v.noted reply)) s) :=
  hk.of_eq hjob (hk.owner_noted hv hreply s)

/-- An answer that takes another job out of the table. -/
theorem answered_drop (hk : Kept hosts i r id h) {reply : ServerMessage}
    (hreply : ∀ outputs, reply ≠ .result ⟨id, outputs⟩) {other : String} (hne : other ≠ id) :
    Kept hosts i r id (h.put j (some (v.noted reply)) (h.server.drop other)) := by
  apply hk.answered hv hreply
  rw [Server.get?_drop, if_neg (Ne.symm hne)]

omit hv in
/-- The job is taken out of the table. -/
theorem gone_drop (hk : Kept hosts i r id h) (ho : Orderly hosts h) (v : Option Visit) :
    Gone hosts id (h.put j v (h.server.drop id)) := by
  refine ⟨?_, hk.given ho⟩
  rw [server_put, Server.get?_drop, if_pos rfl]

theorem answer_status (hk : Kept hosts i r id h) (ho : Orderly hosts h) {other : String}
    {reply : ServerMessage} {s : Server}
    (hm : Server.Handled hosts.toHost h.server (.status other) (some reply) s) :
    Stays hosts i r id ⟨.message j (.status other), some reply⟩
        (h.put j (some (v.noted reply)) s) ∨
      Goes hosts i r id ⟨.message j (.status other), some reply⟩
        (h.put j (some (v.noted reply)) s) := by
  cases hm with
  | unknownStatus _ hnone =>
    left
    have hne := hk.ne_of_absent hnone
    exact ⟨hk.answered hv (by simp [Server.notFound]) rfl,
      by simp [Occurrence.Tells, Server.notFound], by simp [Occurrence.Ends],
      by simp [Occurrence.Asks, hne]⟩
  | status _ found hfound hstate =>
    left
    refine ⟨hk.answered hv (by simp) rfl, ?_, by simp [Occurrence.Ends],
      by simp [Occurrence.Asks, Server.notFound]⟩
    simpa [Occurrence.Tells] using fun _ => hstate
  | failedStatus _ reason hfound =>
    by_cases hid : other = id
    · right
      subst hid
      exact ⟨hk.gone_drop ho _, Or.inl (by simp [Occurrence.Tells]), by simp,
        by simp [Occurrence.Asks, Server.notFound]⟩
    · left
      exact ⟨hk.answered_drop hv (by simp) hid, by simp [Occurrence.Tells, hid],
        by simp [Occurrence.Ends], by simp [Occurrence.Asks, hid]⟩

theorem answer_fetch (hk : Kept hosts i r id h) (ho : Orderly hosts h) {other : String}
    {reply : ServerMessage} {s : Server}
    (hm : Server.Handled hosts.toHost h.server (.fetchResult other) (some reply) s) :
    Stays hosts i r id ⟨.message j (.fetchResult other), some reply⟩
        (h.put j (some (v.noted reply)) s) ∨
      Goes hosts i r id ⟨.message j (.fetchResult other), some reply⟩
        (h.put j (some (v.noted reply)) s) := by
  obtain ⟨job, hjob, hserves⟩ := hk.job
  cases hm with
  | unknownFetch _ hnone =>
    left
    have hne := hk.ne_of_absent hnone
    exact ⟨hk.answered hv (by simp [Server.notFound]) rfl,
      by simp [Occurrence.Tells, Server.notFound, hne], by simp [Occurrence.Ends],
      by simp [Occurrence.Asks, hne]⟩
  | result _ outputs hfound =>
    by_cases hid : other = id
    · right
      subst hid
      rw [hjob] at hfound
      obtain rfl := Option.some.inj hfound
      refine ⟨hk.gone_drop ho _, Or.inl (by simp [Occurrence.Tells]), ?_,
        by simp [Occurrence.Asks, Server.notFound]⟩
      simpa using hserves.evaluate_eq
    · left
      exact ⟨hk.answered_drop hv (by simp [hid]) hid, by simp [Occurrence.Tells, hid],
        by simp [Occurrence.Ends], by simp [Occurrence.Asks, hid]⟩
  | failure _ reason hfound =>
    by_cases hid : other = id
    · right
      subst hid
      rw [hjob] at hfound
      obtain rfl := Option.some.inj hfound
      obtain ⟨task, htold⟩ := hserves.ofOutcome_eq
      have hkept : reason ≠ "request '" ++ other ++ "' not found" := by
        rintro rfl
        exact Job.not_tellsOfTable_of_failed htold (tellsOfTable_notFound other)
      have htells : Occurrence.Tells (hosts.engineFor other) r other
          ⟨.message j (.fetchResult other), some (.error reason)⟩ :=
        Or.inr (Or.inr ⟨j, reason, rfl, rfl, task, htold⟩)
      exact ⟨hk.gone_drop ho _, Or.inl htells, by simp,
        by simp [Occurrence.Asks, Server.notFound, hkept]⟩
    · left
      exact ⟨hk.answered_drop hv (by simp) hid, by simp [Occurrence.Tells, hid],
        by simp [Occurrence.Ends], by simp [Occurrence.Asks, hid]⟩
  | early _ found hfound hstate =>
    left
    have htold : ∀ task, Job.ofOutcome task ((hosts.engineFor id).evaluate r) ≠
        .failed ("request '" ++ other ++ "' is still " ++ found.state.toText) := by
      intro task heq
      exact Job.not_tellsOfTable_of_failed heq (tellsOfTable_early other found.state)
    refine ⟨hk.answered hv (by simp) rfl, by simp [Occurrence.Tells, htold],
      by simp [Occurrence.Ends], ?_⟩
    rintro ⟨_, hask | hask⟩ hreply
    · cases hask
    · cases hask
      exact early_ne_notFound _ _ (by simpa [Server.notFound] using hreply)

/-- An answer says nothing else than what the table says, and takes the job away when it tells how
the job ended. -/
theorem answer (hk : Kept hosts i r id h) (ho : Orderly hosts h)
    (hnames : Function.Injective hosts.requestName) {m : ClientMessage} {reply : ServerMessage}
    {s : Server} (hm : Server.Handled hosts.toHost h.server m (some reply) s) :
    Stays hosts i r id ⟨.message j m, some reply⟩ (h.put j (some (v.noted reply)) s) ∨
      Goes hosts i r id ⟨.message j m, some reply⟩ (h.put j (some (v.noted reply)) s) := by
  cases m with
  | hello version =>
    left
    cases hm
    exact ⟨hk.answered hv (by simp) rfl, by simp [Occurrence.Tells], by simp [Occurrence.Ends],
      by simp [Occurrence.Asks]⟩
  | execute r' =>
    left
    have hne : id ≠ hosts.requestName h.server.accepted := by
      rintro rfl
      exact not_given_next hnames h.server (hk.given ho)
    cases hm with
    | accepted =>
      have hjob : (h.server.accept hosts.toHost r').jobs.get? id = h.server.jobs.get? id := by
        rw [Server.get?_accept, if_neg hne]
      exact ⟨hk.answered hv (by simp) hjob, by simp [Occurrence.Tells], by simp [Occurrence.Ends],
        by simp [Occurrence.Asks]⟩
    | refused _ e =>
      exact ⟨hk.answered hv (by simp) rfl, by simp [Occurrence.Tells], by simp [Occurrence.Ends],
        by simp [Occurrence.Asks]⟩
  | status other => exact hk.answer_status hv ho hm
  | fetchResult other => exact hk.answer_fetch hv ho hm
  | goodbye => cases hm

omit hv in
/-- What one move does to a job in the table, and what it shows of it. -/
theorem step (hk : Kept hosts i r id h) (ho : Orderly hosts h)
    (hnames : Function.Injective hosts.requestName) (move : Move) :
    Stays hosts i r id ⟨move, (h.step hosts move).1⟩ (h.step hosts move).2 ∨
      Goes hosts i r id ⟨move, (h.step hosts move).1⟩ (h.step hosts move).2 := by
  cases move with
  | message j m =>
    rcases h.message_cases hosts j m with ⟨hv, heq⟩ | ⟨rfl, heq⟩ | ⟨v, reply, s, hv, hm, heq⟩
    · left
      obtain ⟨v, hvisit, -⟩ := hk.visit
      have hji : j ≠ i := by
        rintro rfl
        rw [hv] at hvisit
        cases hvisit
      simp only [SharedServer.step, heq]
      exact ⟨hk, by simp [Occurrence.Tells], by simp [Occurrence.Ends, hji], fun _ => nofun⟩
    · simp only [SharedServer.step, heq]
      rcases hk.leave ho j with ⟨hji, hkept⟩ | ⟨hji, hgone⟩
      · left
        exact ⟨hkept, by simp [Occurrence.Tells], by simp [Occurrence.Ends, hji], fun _ => nofun⟩
      · right
        exact ⟨hgone, Or.inr (by simp [Occurrence.Ends, hji]), fun _ => nofun, fun _ => nofun⟩
    · simp only [SharedServer.step, heq]
      exact hk.answer hv ho hnames hm
  | leave j =>
    rcases hk.leave ho j with ⟨hji, hkept⟩ | ⟨hji, hgone⟩
    · left
      exact ⟨hkept, by simp [Occurrence.Tells, SharedServer.step], by simp [Occurrence.Ends, hji],
        fun _ => nofun⟩
    · right
      exact ⟨hgone, Or.inr (by simp [Occurrence.Ends, hji]), fun _ => nofun, fun _ => nofun⟩
  | start other =>
    left
    have hkept : Kept hosts i r id { h with server := h.server.start other } :=
      hk.updateJob fun _ _ hserves => hserves.start
    exact ⟨hkept, by simp [Occurrence.Tells, SharedServer.step], by simp [Occurrence.Ends],
      fun _ => nofun⟩
  | finish other task =>
    left
    -- The task of another job may meet an engine that behaves otherwise.
    have hkept : Kept hosts i r id
        { h with server := h.server.finish (hosts.hostFor other) other task } :=
      hk.updateJob (by rintro rfl job hserves; exact hserves.finish task)
    exact ⟨hkept, by simp [Occurrence.Tells, SharedServer.step], by simp [Occurrence.Ends],
      fun _ => nofun⟩

end Kept

/-! ## Runs -/

/-- What a run shows of a request that was accepted on visit `i` under the name `id`. -/
structure Delivered (engine : Engine) (i : Nat) (r : Request) (id : String)
    (future : List Occurrence) : Prop where
  /-- How the job ended is told at most once. -/
  once : future.Pairwise fun a b => ¬ (a.Tells engine r id ∧ b.Tells engine r id)
  /-- A result under that name is what the engine made of the request. -/
  result : ∀ e ∈ future, ∀ outputs, e.reply = some (.result ⟨id, outputs⟩) →
    engine.evaluate r = .outputs outputs
  /-- After that, or after the end of the visit, the request is not found. -/
  gone : future.Pairwise fun a b => a.Tells engine r id ∨ a.Ends i → b.Asks id →
    ∀ reply ∈ b.reply, reply = Server.notFound id
  /-- Until then it is. -/
  kept : ∀ before e later, future = before ++ e :: later →
    (∀ a ∈ before, ¬ a.Tells engine r id ∧ ¬ a.Ends i) → e.Asks id →
    e.reply ≠ some (Server.notFound id)

namespace Delivered

variable {engine : Engine} {e : Occurrence} {future : List Occurrence}

theorem cons_of_stays (hs : Stays hosts i r id e h)
    (hfuture : Delivered (hosts.engineFor id) i r id future) :
    Delivered (hosts.engineFor id) i r id (e :: future) where
  once := by
    rw [List.pairwise_cons]
    refine ⟨?_, hfuture.once⟩
    intro b _ hb
    exact hs.quiet hb.1
  result := by
    rw [List.forall_mem_cons]
    refine ⟨?_, hfuture.result⟩
    intro outputs hreply
    exact absurd (Or.inl ⟨outputs, hreply⟩) hs.quiet
  gone := by
    rw [List.pairwise_cons]
    refine ⟨?_, hfuture.gone⟩
    rintro b _ (htells | hends)
    · exact absurd htells hs.quiet
    · exact absurd hends hs.lasts
  kept before a later heq hbefore := by
    cases before with
    | nil =>
      obtain ⟨rfl, -⟩ := List.cons.inj heq
      exact hs.found
    | cons b before =>
      obtain ⟨-, rfl⟩ := List.cons.inj heq
      exact hfuture.kept before a later rfl fun c hc => hbefore c (List.mem_cons_of_mem b hc)

theorem cons_of_goes (hg : Goes hosts i r id e h)
    (hfuture : ∀ b ∈ future, ¬ b.Tells (hosts.engineFor id) r id ∧
      (b.Asks id → ∀ reply ∈ b.reply, reply = Server.notFound id)) :
    Delivered (hosts.engineFor id) i r id (e :: future) where
  once := by
    rw [List.pairwise_cons]
    constructor
    · intro b hb htells
      exact (hfuture b hb).1 htells.2
    · apply List.pairwise_of_forall_mem_list
      intro a ha b _ htells
      exact (hfuture a ha).1 htells.1
  result := by
    rw [List.forall_mem_cons]
    refine ⟨hg.result, ?_⟩
    intro b hb outputs hreply
    exact absurd (Or.inl ⟨outputs, hreply⟩) (hfuture b hb).1
  gone := by
    rw [List.pairwise_cons]
    constructor
    · intro b hb _
      exact (hfuture b hb).2
    · apply List.pairwise_of_forall_mem_list
      intro _ _ b hb _
      exact (hfuture b hb).2
  kept before a later heq hbefore := by
    cases before with
    | nil =>
      obtain ⟨rfl, -⟩ := List.cons.inj heq
      exact hg.found
    | cons b before =>
      obtain ⟨rfl, -⟩ := List.cons.inj heq
      obtain ⟨hquiet, hlasts⟩ := hbefore e List.mem_cons_self
      exact absurd hg.reason (not_or.2 ⟨hquiet, hlasts⟩)

end Delivered

/-- Induction on the moves: as long as the job stays the rest of the run goes on from a state that
keeps it, and when it goes the rest tells nothing. -/
theorem Kept.delivered (hk : Kept hosts i r id h) (ho : Orderly hosts h)
    (hnames : Function.Injective hosts.requestName) (moves : List Move) :
    Delivered (hosts.engineFor id) i r id (h.trace hosts moves) := by
  induction moves generalizing h with
  | nil => exact ⟨.nil, by simp [SharedServer.trace], .nil, by simp [SharedServer.trace]⟩
  | cons move moves ih =>
    rcases hk.step ho hnames move with hstays | hgoes
    · have hfuture := ih hstays.kept (ho.step hnames move)
      exact .cons_of_stays hstays hfuture
    · have hfuture := hgoes.gone.trace hnames (hosts.engineFor id) r moves
      exact .cons_of_goes hgoes hfuture

/-! ## Accepted requests -/

/-- Before a name is given, nothing is told about it. -/
theorem trace_of_not_given (ho : Orderly hosts h) (hnames : Function.Injective hosts.requestName)
    {k : Nat} {moves : List Move} (hk : (h.after hosts moves).server.accepted ≤ k)
    (engine : Engine) (r : Request) :
    ∀ e ∈ h.trace hosts moves, ¬ e.Tells engine r (hosts.requestName k) ∧
      (e.Asks (hosts.requestName k) →
        ∀ reply ∈ e.reply, reply = Server.notFound (hosts.requestName k)) := by
  induction moves generalizing h with
  | nil =>
    intro e he
    cases he
  | cons move moves ih =>
    intro e he
    rcases List.mem_cons.1 he with rfl | he
    · apply tells_of_absent
      apply ho.absent
      rintro ⟨n, hn, hkn⟩
      have hle := h.accepted_after_le hosts (move :: moves)
      have heq : k = n := hnames hkn
      omega
    · exact ih (ho.step hnames move) hk e he

/-- An accepted request has a job under the next name. -/
theorem kept_of_accepted
    (haccepted : (h.message hosts i (.execute r)).1 = some (.accepted id)) :
    id = hosts.requestName h.server.accepted ∧
      Kept hosts i r id (h.message hosts i (.execute r)).2 := by
  rcases h.message_cases hosts i (.execute r) with ⟨-, heq⟩ | ⟨hm, -⟩ | ⟨v, reply, s, hv, hm, heq⟩
  · rw [heq] at haccepted
    cases haccepted
  · cases hm
  · rw [heq] at haccepted ⊢
    obtain rfl := Option.some.inj haccepted
    cases hm
    refine ⟨rfl, ?_, ?_⟩
    · rw [owned_put, if_pos rfl]
      exact List.mem_cons_self
    · exact ⟨.queued r, by rw [server_put, Server.get?_accept, if_pos rfl], Or.inl rfl⟩

/-- In every run, what became of an accepted request is told at most once and as it was; from then
on, or when its visit has ended, the request is not found, and never before. -/
theorem delivered_of_accepted (hnames : Function.Injective hosts.requestName) {moves : List Move}
    {past future : List Occurrence}
    (ht : initial.trace hosts moves =
      past ++ ⟨.message i (.execute r), some (.accepted id)⟩ :: future) :
    (∀ e ∈ past, ¬ e.Tells (hosts.engineFor id) r id) ∧
      Delivered (hosts.engineFor id) i r id future := by
  obtain ⟨before, rest, -, hpast, hrest⟩ := exists_of_trace_eq_append ht
  have ho : Orderly hosts (initial.after hosts before) := Orderly.initial.after hnames before
  cases rest with
  | nil => cases hrest
  | cons move rest =>
    obtain ⟨hmove, hfuture⟩ := List.cons.inj hrest
    obtain ⟨rfl, hreply⟩ := Occurrence.mk.inj hmove
    obtain ⟨hid, hkept⟩ := kept_of_accepted hreply
    constructor
    · rw [← hpast, hid]
      intro e he
      exact (trace_of_not_given Orderly.initial hnames (Nat.le_refl _) _ r e he).1
    · rw [← hfuture]
      exact hkept.delivered (ho.message hnames i _) hnames rest

end SharedServer

/-! ## A run -/

/-- A request with a single zero, and a parameter map with nothing switched on. -/
def Request.single : Request where
  batchSize := 1
  tensors := NameMap.empty.insert "x" (.real [.zero])
  packing := .empty
  directives := .empty
  parameters := .ofList [("backend", "HE_SEAL"), ("device_id", ""), ("encryption_parameters", ""),
    ("enable_client", "off"), ("encrypt_server_data", "off"), ("complex_packing", "off"),
    ("pack_data", "off")]
  config := none

theorem Request.travels_single : Request.single.Travels where
  batchSize := by decide
  tensors := by
    have hentries : Request.single.tensors.entries = [("x", .real [.zero])] := rfl
    have hzero : Double.zero.IsReproduced := by
      unfold Double.IsReproduced
      rfl
    rw [hentries]
    simpa [SlotVector.IsReproduced] using hzero
  packing e he := by cases he

/-- The result is handed out, and then another visit asks in vain. -/
theorem SharedServer.delivered_of_tally :
    Delivered .echo 0 .single "I"
      [⟨.start "I", none⟩, ⟨.finish "I" 7, none⟩,
        ⟨.message 0 (.fetchResult "I"), some (.result ⟨"I", Request.single.tensors⟩)⟩,
        ⟨.message 1 (.status "I"), some (Server.notFound "I")⟩] := by
  have ht : initial.trace Host.tally.byJob [.message 0 (.execute .single), .start "I",
        .finish "I" 7, .message 0 (.fetchResult "I"), .message 1 (.status "I")] =
      [] ++ ⟨.message 0 (.execute .single), some (.accepted "I")⟩ ::
        [⟨.start "I", none⟩, ⟨.finish "I" 7, none⟩,
          ⟨.message 0 (.fetchResult "I"), some (.result ⟨"I", Request.single.tensors⟩)⟩,
          ⟨.message 1 (.status "I"), some (Server.notFound "I")⟩] := rfl
  exact (delivered_of_accepted Host.injective_tally ht).2

end EncryptedInference
