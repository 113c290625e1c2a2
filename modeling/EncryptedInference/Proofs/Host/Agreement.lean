import EncryptedInference.Proofs.Host.Line

/-!
# Clients and the table agree

Between two exchanges a client and the server it visits agree (`Agrees`): the request that the
client has in flight is the one request of its visit with a job, and a request that the client knows
to be completed is completed in the table.  `Line.Sound` adds what holds of the server as a whole.
What goes on around a visit keeps it (`Line.Sound.around`), and so does every exchange of the client
(`Line.Sound.execute`, `Line.Sound.status`, `Line.Sound.fetchResult`), which is why no question of a
client meets a table that has no answer for it.
-/

namespace EncryptedInference

/-! ## Agreement -/

/-- The request in flight is the one owned request with a job, and the job is for `r`; when the
client knows it to be completed, it is. -/
structure Agrees (engineFor : String → Engine) (r : Request) (phase : Phase) (owned : List String)
    (jobs : NameMap Job) : Prop where
  inFlight : ∀ id, (id ∈ owned ∧ jobs.get? id ≠ none) ↔ phase.requestId? = some id
  serves : ∀ id, phase.requestId? = some id →
    ∃ job, jobs.get? id = some job ∧ job.Serves (engineFor id) r
  completed : phase.isCompleted = true → ∀ id, phase.requestId? = some id →
    ∃ outputs, jobs.get? id = some (.completed outputs)

/-- A job is there as before and for the same request, and if it was completed it is as it was. -/
structure Job.Lasts (engine : Engine) (before after : Option Job) : Prop where
  absent : after = none ↔ before = none
  serves : ∀ r job, before = some job → job.Serves engine r →
    ∃ job', after = some job' ∧ job'.Serves engine r
  completed : ∀ outputs, before = some (.completed outputs) → after = some (.completed outputs)

theorem Job.Lasts.refl (engine : Engine) (job : Option Job) : Lasts engine job job where
  absent := Iff.rfl
  serves _ job hjob hserves := ⟨job, hjob, hserves⟩
  completed _ hjob := hjob

theorem Agrees.of_lasts {engineFor : String → Engine} {r : Request} {phase : Phase}
    {owned : List String} {jobs jobs' : NameMap Job} (ha : Agrees engineFor r phase owned jobs)
    (hjobs : ∀ id ∈ owned, Job.Lasts (engineFor id) (jobs.get? id) (jobs'.get? id)) :
    Agrees engineFor r phase owned jobs' where
  inFlight id := by
    rw [← ha.inFlight id]
    apply and_congr_right
    intro hid
    exact not_congr (hjobs id hid).absent
  serves id hid := by
    obtain ⟨howned, -⟩ := (ha.inFlight id).2 hid
    obtain ⟨job, hjob, hserves⟩ := ha.serves id hid
    exact (hjobs id howned).serves r job hjob hserves
  completed hcompleted id hid := by
    obtain ⟨howned, -⟩ := (ha.inFlight id).2 hid
    obtain ⟨outputs, hjob⟩ := ha.completed hcompleted id hid
    exact ⟨outputs, (hjobs id howned).completed outputs hjob⟩

namespace SharedServer

variable {hosts : HostByJob} {h : SharedServer} {i : Nat}

theorem lasts_updateJob {engine : Engine} (s : Server) (other id : String) {f : Job → Job}
    (hserves : id = other → ∀ r job, job.Serves engine r → (f job).Serves engine r)
    (hcompleted : ∀ outputs, f (.completed outputs) = .completed outputs) :
    Job.Lasts engine (s.jobs.get? id) ((s.updateJob other f).jobs.get? id) := by
  rw [Server.get?_updateJob]
  by_cases hid : id = other
  · rw [if_pos hid]
    constructor
    · exact Option.map_eq_none_iff
    · intro r job hjob h
      rw [hjob, Option.map_some]
      exact ⟨f job, rfl, hserves hid r job h⟩
    · intro outputs hjob
      rw [hjob, Option.map_some, hcompleted]
  · rw [if_neg hid]
    exact .refl ..

/-- When another visit ends, the jobs of visit `i` stay. -/
theorem lasts_leave (ho : Orderly hosts h) {j : Nat} (hj : j ≠ i) {id : String}
    (hid : id ∈ h.owned i) : Job.Lasts (hosts.engineFor id) (h.server.jobs.get? id)
      ((h.leave j).server.jobs.get? id) := by
  have hapart : id ∉ h.owned j := ho.apart i j (Ne.symm hj) id hid
  rw [leave, server_put, Server.get?_evict, if_neg hapart]
  exact .refl ..

/-- A foreign message leaves the jobs of visit `i` alone. -/
theorem lasts_handled (ho : Orderly hosts h) (hnames : Function.Injective hosts.requestName)
    {m : ClientMessage} (hforeign : ∀ id ∈ m.names, id ∉ h.owned i) {reply : ServerMessage}
    {s : Server} (hm : Server.Handled hosts.toHost h.server m (some reply) s) {id : String}
    (hid : id ∈ h.owned i) :
    Job.Lasts (hosts.engineFor id) (h.server.jobs.get? id) (s.jobs.get? id) := by
  have hgiven := ho.owned i id hid
  rcases hm.get?_cases id with hsame | ⟨hnamed, -⟩ | hnext
  · rw [hsame]
    exact .refl ..
  · exact absurd hid (hforeign id hnamed)
  · rw [hnext] at hgiven
    exact absurd hgiven (not_given_next hnames h.server)

theorem visits_put_of_ne (h : SharedServer) {j : Nat} (hj : j ≠ i) (v : Option Visit) (s : Server) :
    (h.put j v s).visits i = h.visits i :=
  if_neg (Ne.symm hj)

/-- A foreign move ends visit `i`, or leaves it and its jobs alone. -/
theorem lasts_step (ho : Orderly hosts h) (hnames : Function.Injective hosts.requestName)
    {move : Move} (hforeign : h.isForeign i move = true) :
    (h.step hosts move).2.visits i = none ∨
      ((h.step hosts move).2.visits i = h.visits i ∧ ∀ id ∈ h.owned i,
        Job.Lasts (hosts.engineFor id) (h.server.jobs.get? id)
          ((h.step hosts move).2.server.jobs.get? id)) := by
  cases move with
  | message j m =>
    right
    simp only [isForeign, Bool.and_eq_true, decide_eq_true_eq, List.all_eq_true, Bool.not_eq_true',
      List.contains_eq_mem, decide_eq_false_iff_not] at hforeign
    obtain ⟨hj, hnamed⟩ := hforeign
    rcases h.message_cases hosts j m with ⟨-, heq⟩ | ⟨-, heq⟩ | ⟨v, reply, s, -, hm, heq⟩
    · simp only [step, heq]
      exact ⟨trivial, fun _ _ => .refl ..⟩
    · simp only [step, heq]
      refine ⟨visits_put_of_ne h hj _ _, ?_⟩
      intro id hid
      exact lasts_leave ho hj hid
    · simp only [step, heq]
      refine ⟨visits_put_of_ne h hj _ _, ?_⟩
      intro id hid
      exact lasts_handled ho hnames hnamed hm hid
  | leave j =>
    by_cases hj : j = i
    · left
      exact if_pos hj.symm
    · right
      refine ⟨visits_put_of_ne h hj _ _, ?_⟩
      intro id hid
      exact lasts_leave ho hj hid
  | start other =>
    right
    refine ⟨rfl, ?_⟩
    intro id _
    apply lasts_updateJob
    · intro _ r job hserves
      exact hserves.start
    · exact fun _ => rfl
  | finish other task =>
    right
    refine ⟨rfl, ?_⟩
    intro id _
    apply lasts_updateJob
    · rintro rfl r job hserves
      exact hserves.finish task
    · exact fun _ => rfl

end SharedServer

/-- The visits are in order, and the client of a visit that goes on agrees with it. -/
structure Line.Sound (hosts : HostByJob) (l : Line) (r : Request) (phase : Phase) : Prop where
  orderly : SharedServer.Orderly hosts l.shared
  agrees : ∀ v, l.shared.visits l.visit = some v →
    Agrees hosts.engineFor r phase v.owned l.shared.server.jobs

namespace Line.Sound

variable {hosts : HostByJob} {l : Line} {r : Request} {phase : Phase}

theorem step (hs : l.Sound hosts r phase) (hnames : Function.Injective hosts.requestName)
    {move : Move} (hforeign : l.shared.isForeign l.visit move = true) :
    Sound hosts { l with shared := (l.shared.step hosts move).2 } r phase := by
  refine ⟨hs.orderly.step hnames move, ?_⟩
  intro v hv
  dsimp only at hv ⊢
  rcases SharedServer.lasts_step hs.orderly hnames hforeign with hover | ⟨hvisit, hjobs⟩
  · rw [hover] at hv
    cases hv
  · rw [hvisit] at hv
    have howned : l.shared.owned l.visit = v.owned := by
      rw [SharedServer.owned, hv]
      rfl
    apply (hs.agrees v hv).of_lasts
    intro id hid
    exact hjobs id (howned ▸ hid)

/-- Induction on what goes on around the visit. -/
theorem around (hs : l.Sound hosts r phase) (hnames : Function.Injective hosts.requestName)
    (moves : List Move) : (l.around hosts moves).Sound hosts r phase := by
  obtain ⟨visit, shared, turns⟩ := l
  unfold Line.around SharedServer.around
  dsimp only
  induction moves generalizing shared with
  | nil => exact hs
  | cons move moves ih =>
    rw [List.foldl_cons]
    by_cases hforeign : shared.isForeign visit move = true
    · rw [if_pos hforeign]
      have hstep := hs.step hnames hforeign
      exact ih _ hstep
    · rw [if_neg hforeign]
      exact ih _ hs

end Line.Sound

/-! ## Exchanges -/

namespace Agrees

variable {engineFor : String → Engine} {r : Request} {phase : Phase} {owned : List String}
  {jobs : NameMap Job}

/-- Without a request in flight, it does not matter which one it would be. -/
theorem of_none (ha : Agrees engineFor r phase owned jobs) (hphase : phase.requestId? = none)
    (r' : Request) : Agrees engineFor r' phase owned jobs where
  inFlight := ha.inFlight
  serves id hid := by
    rw [hphase] at hid
    cases hid
  completed := ha.completed

/-- Without a request in flight, an accepted one is the only one with a job. -/
theorem accepted (ha : Agrees engineFor r phase owned jobs) (hphase : phase.requestId? = none)
    {id : String} (r' : Request) :
    Agrees engineFor r' (.sent id) (id :: owned.filter (· ≠ id)) (jobs.insert id (.queued r')) where
  inFlight other := by
    rw [NameMap.get?_insert]
    constructor
    · rintro ⟨hmem, hjob⟩
      rcases List.mem_cons.1 hmem with rfl | hmem
      · rfl
      · obtain ⟨hmem, hne⟩ := List.mem_filter.1 hmem
        rw [if_neg (by simpa using hne)] at hjob
        have hflight := (ha.inFlight other).1 ⟨hmem, hjob⟩
        rw [hphase] at hflight
        cases hflight
    · intro hid
      cases hid
      rw [if_pos rfl]
      exact ⟨List.mem_cons_self, nofun⟩
  serves other hother := by
    cases hother
    rw [NameMap.get?_insert, if_pos rfl]
    exact ⟨.queued r', rfl, Or.inl rfl⟩
  completed hcompleted := by cases hcompleted

/-- When the job of the request in flight is gone, there is none left. -/
theorem erase (ha : Agrees engineFor r phase owned jobs) {id : String}
    (hphase : phase.requestId? = some id) {owned' : List String}
    (howned : ∀ other ∈ owned', other ∈ owned) :
    Agrees engineFor r .done owned' (jobs.erase id) where
  inFlight other := by
    rw [NameMap.get?_erase]
    constructor
    · rintro ⟨hmem, hjob⟩
      by_cases hother : other = id
      · rw [if_pos hother] at hjob
        exact absurd rfl hjob
      · rw [if_neg hother] at hjob
        have hflight := (ha.inFlight other).1 ⟨howned other hmem, hjob⟩
        rw [hphase] at hflight
        exact absurd (Option.some.inj hflight).symm hother
    · intro hid
      cases hid
  serves other hother := by cases hother
  completed hcompleted := by cases hcompleted

theorem polling (ha : Agrees engineFor r phase owned jobs) {id : String}
    (hphase : phase.requestId? = some id) {completed : Bool}
    (hcompleted : completed = true → ∃ outputs, jobs.get? id = some (.completed outputs)) :
    Agrees engineFor r (.polling id completed) owned jobs where
  inFlight other := by
    rw [ha.inFlight other, hphase]
    rfl
  serves other hother := by
    cases hother
    exact ha.serves id hphase
  completed h other hother := by
    cases hother
    exact hcompleted h

end Agrees

/-- The engine fails on the request, and the server says so in these words. -/
def Engine.FailsOn (engine : Engine) (r : Request) (text : String) : Prop :=
  ∃ task, Job.ofOutcome task (engine.evaluate r) = .failed text

/-- The server has refused a request in these words. -/
def TellsOfRefusal (text : String) : Prop := ∃ e : SubmitError, text = e.message

/-- No reply is out of place, and what the server reports is of the given kind. -/
def ClientError.IsFair (reported : String → Prop) : ClientError → Prop
  | .remote text => reported text
  | .unexpectedResponse _ _ => False
  | _ => True

namespace Line.Sound

variable {hosts : HostByJob} {l : Line} {r : Request} {phase : Phase}

/-- The reply and the phase it leads to restore the agreement. -/
theorem put (hs : l.Sound hosts r phase) (hnames : Function.Injective hosts.requestName) {v : Visit}
    (hv : l.shared.visits l.visit = some v) {m : ClientMessage} {reply : ServerMessage} {s : Server}
    (hm : Server.Handled hosts.toHost l.shared.server m (some reply) s) {r' : Request}
    {phase' : Phase} (ha : Agrees hosts.engineFor r' phase' (v.noted reply).owned s.jobs)
    (turns : List Turn) :
    Sound hosts ⟨l.visit, l.shared.put l.visit (some (v.noted reply)) s, turns⟩ r' phase' := by
  refine ⟨hs.orderly.handled hnames hv hm, ?_⟩
  intro w hw
  have hvisit : (l.shared.put l.visit (some (v.noted reply)) s).visits l.visit =
      some (v.noted reply) := if_pos rfl
  obtain rfl := Option.some.inj (hvisit.symm.trans hw)
  exact ha

/-- The reply that comes back was given by a server that the client agreed with, and the phase it
leads to has to agree with that server afterwards. -/
theorem call (hs : l.Sound hosts r phase) (hnames : Function.Injective hosts.requestName)
    {m : ClientMessage} {reply' : ServerMessage}
    (hcall : (l.call hosts m).1.outcome = .ok reply') :
    ∃ (s : Server) (v : Visit) (m' : ClientMessage) (reply : ServerMessage) (s' : Server),
      m.ArrivesAs m' ∧ Agrees hosts.engineFor r phase v.owned s.jobs ∧
      Server.Handled hosts.toHost s m' (some reply) s' ∧ reply.ArrivesAs reply' ∧
      ∀ r' phase', Agrees hosts.engineFor r' phase' (v.noted reply).owned s'.jobs →
        (l.call hosts m).2.Sound hosts r' phase' := by
  rcases Line.call_cases hosts l m with
    ⟨e, heq⟩ | ⟨before, after, turns, v, m', reply, s, arrived, hv, hm, hhandled, hr, heq, hline⟩
  · rw [heq] at hcall
    cases hcall
  · rw [heq] at hcall
    obtain rfl := Except.ok.inj hcall
    have hbefore := hs.around hnames before
    refine ⟨_, v, m', reply, s, hm, hbefore.agrees v hv, hhandled, hr, ?_⟩
    intro r' phase' ha
    have hput := hbefore.put hnames hv hhandled ha turns
    rw [hline]
    exact hput.around hnames after

theorem execute (hs : l.Sound hosts r phase) (hnames : Function.Injective hosts.requestName)
    (hphase : phase.requestId? = none) {r₀ : Request} {reply' : ServerMessage}
    (hcall : (l.call hosts (.execute r₀)).1.outcome = .ok reply') :
    ∃ r', (ClientMessage.execute r₀).ArrivesAs (.execute r') ∧
      (l.call hosts (.execute r₀)).2.Sound hosts r' (phase.afterExecute reply').2 ∧
      ∀ e, (phase.afterExecute reply').1 = .error e → e.IsFair TellsOfRefusal := by
  obtain ⟨s, v, m', reply, s', hm, ha, hhandled, hr, hsound⟩ := hs.call hnames hcall
  obtain ⟨r', rfl⟩ := hm.execute
  refine ⟨r', hm, ?_⟩
  cases hhandled with
  | accepted =>
    rcases hr with rfl | ⟨_, _, h, -⟩
    · exact ⟨hsound _ _ (ha.accepted hphase r'), fun _ => nofun⟩
    · cases h
  | refused _ error =>
    rcases hr with rfl | ⟨_, _, h, -⟩
    · refine ⟨hsound _ _ (ha.of_none hphase r'), ?_⟩
      rintro _ ⟨⟩
      exact ⟨error, rfl⟩
    · cases h

theorem status (hs : l.Sound hosts r phase) (hnames : Function.Injective hosts.requestName)
    {id : String} (hphase : phase.requestId? = some id) {reply' : ServerMessage}
    (hcall : (l.call hosts (.status id)).1.outcome = .ok reply') :
    (l.call hosts (.status id)).2.Sound hosts r (phase.afterStatus id reply').2 ∧
      ∀ e, (phase.afterStatus id reply').1 = .error e →
        e.IsFair ((hosts.engineFor id).FailsOn r) := by
  obtain ⟨s, v, m', reply, s', hm, ha, hhandled, hr, hsound⟩ := hs.call hnames hcall
  obtain rfl : m' = .status id := hm.eq trivial
  obtain ⟨job, hjob, hserves⟩ := ha.serves id hphase
  cases hhandled with
  | unknownStatus _ hnone =>
    rw [hjob] at hnone
    cases hnone
  | status _ job' hjob' hstate =>
    rcases hr with rfl | ⟨_, _, h, -⟩
    · cases job' with
      | queued _ => exact ⟨hsound _ _ (ha.polling hphase nofun), fun _ => nofun⟩
      | running _ => exact ⟨hsound _ _ (ha.polling hphase nofun), fun _ => nofun⟩
      | completed outputs =>
        exact ⟨hsound _ _ (ha.polling hphase fun _ => ⟨outputs, hjob'⟩), fun _ => nofun⟩
      | failed reason => exact absurd rfl hstate
    · cases h
  | failedStatus _ reason hjob' =>
    rw [hjob] at hjob'
    cases hjob'
    rcases hr with rfl | ⟨_, _, h, -⟩
    · refine ⟨hsound _ _ (ha.erase hphase fun _ h => h), ?_⟩
      rintro _ ⟨⟩
      exact hserves.ofOutcome_eq
    · cases h

theorem fetchResult (hs : l.Sound hosts r phase) (hnames : Function.Injective hosts.requestName)
    {id : String} (hphase : phase.requestId? = some id) (hcompleted : phase.isCompleted = true)
    {reply' : ServerMessage} (hcall : (l.call hosts (.fetchResult id)).1.outcome = .ok reply') :
    (l.call hosts (.fetchResult id)).2.Sound hosts r (phase.afterFetch reply').2 ∧
      ∀ e, (phase.afterFetch reply').1 ≠ .error e := by
  obtain ⟨s, v, m', reply, s', hm, ha, hhandled, hr, hsound⟩ := hs.call hnames hcall
  obtain rfl : m' = .fetchResult id := hm.eq trivial
  obtain ⟨outputs, hjob⟩ := ha.completed hcompleted id hphase
  have hdone : Agrees hosts.engineFor r .done (v.noted (.result ⟨id, outputs⟩)).owned
      (s.drop id).jobs := ha.erase hphase fun _ h => (List.mem_filter.1 h).1
  cases hhandled with
  | unknownFetch _ hnone =>
    rw [hjob] at hnone
    cases hnone
  | result _ outputs' hjob' =>
    rw [hjob] at hjob'
    cases hjob'
    rcases hr with rfl | ⟨_, r', -, rfl⟩
    · exact ⟨hsound _ _ hdone, fun _ => nofun⟩
    · exact ⟨hsound _ _ hdone, fun _ => nofun⟩
  | failure _ reason hjob' =>
    rw [hjob] at hjob'
    cases hjob'
  | early _ job hjob' hstate =>
    rw [hjob] at hjob'
    cases hjob'
    cases hstate

/-- A greeting is answered, and no request is in flight after it. -/
theorem hello (hs : l.Sound hosts r .connected) (hnames : Function.Injective hosts.requestName)
    {reply' : ServerMessage} (hcall : (l.call hosts greeting).1.outcome = .ok reply') :
    (l.call hosts greeting).2.Sound hosts r .connected := by
  obtain ⟨s, v, m', reply, s', hm, ha, hhandled, hr, hsound⟩ := hs.call hnames hcall
  obtain rfl : m' = greeting := hm.eq (by decide : protocolVersion < 0x100000000)
  cases hhandled
  exact hsound _ _ ha

end Line.Sound

end EncryptedInference
