import EncryptedInference.Client.Script
import EncryptedInference.CommandLine.Run
import EncryptedInference.Proofs.Batch.Packed
import EncryptedInference.Proofs.Batch.Unpacked
import EncryptedInference.Proofs.Client.Polls
import EncryptedInference.Proofs.Outcomes

/-!
# How runs end

A run of the client that ends does so with a summary or with a message, except in two situations, in
which it breaks off without a word: none of the examples of an input without axes are asked for, and
a result lacks the output that is asked for (`CommandLine.ending_of_accepted`).  Everywhere else
what a step takes for granted was checked before: the axis that is cut, the batch size that is
divided by, the number of values that are laid out in rows, the interval of a wait.

A run does not end while the server keeps saying that the request is pending
(`CommandLine.run_eq_none_iff`).  If there is a timeout, that comes to an end.
-/

namespace EncryptedInference

namespace CommandLine

/-! ## The input -/

section

variable {v : View} {n count : Nat} {features : List Nat}

theorem firstExamples_of_nil (h : v.shape = []) : firstExamples v count =
    .error (if count = 0 then .noBatchAxis else .tooFewExamples count 0) := by
  have haxes : v.axes = [] := List.map_eq_nil_iff.1 h
  by_cases hcount : count = 0
  · simp [firstExamples, h, haxes, hcount]
  · simp [firstExamples, h, hcount, Nat.pos_of_ne_zero hcount]

theorem firstExamples_of_cons (h : v.shape = n :: features) : firstExamples v count =
    if n < count then .error (.tooFewExamples count n) else .ok (v.examples 0 count) := by
  have haxes : v.axes ≠ [] := by
    intro hnil
    rw [View.shape, hnil] at h
    cases h
  simp [firstExamples, h, haxes]

/-- Cutting takes an axis that is long enough. -/
theorem firstExamples_eq_ok {v' : View} : firstExamples v count = .ok v' ↔
    ∃ n features, v.shape = n :: features ∧ count ≤ n ∧ v' = v.examples 0 count := by
  cases hshape : v.shape with
  | nil => simp [firstExamples_of_nil hshape]
  | cons n features =>
    rw [firstExamples_of_cons hshape]
    by_cases hfew : n < count
    · simp [hfew, Nat.not_le.2 hfew]
    · simp [hfew, Nat.le_of_not_lt hfew, eq_comm]

theorem firstExamples_eq_noBatchAxis :
    firstExamples v count = .error .noBatchAxis ↔ v.shape = [] ∧ count = 0 := by
  cases hshape : v.shape with
  | nil => by_cases hcount : count = 0 <;> simp [firstExamples_of_nil hshape, hcount]
  | cons n features =>
    rw [firstExamples_of_cons hshape]
    by_cases hfew : n < count <;> simp [hfew]

end

theorem batchOfText_eq_ok {text : String} {v : View} : batchOfText text = .ok v ↔
    ∃ shape data, (Json.parse? text).bind shapeAndData? = some (shape, data) ∧
      shapeFault? shape data.length = none ∧ v = .ofRowMajor shape data := by
  unfold batchOfText
  cases (Json.parse? text).bind shapeAndData? with
  | none => simp
  | some p =>
    obtain ⟨shape, data⟩ := p
    cases hfault : shapeFault? shape data.length with
    | some fault => simp [hfault]
    | none => simp [hfault, eq_comm]

theorem batchOfText_ne_noBatchAxis (text : String) : batchOfText text ≠ .error .noBatchAxis := by
  unfold batchOfText
  cases (Json.parse? text).bind shapeAndData? with
  | none => simp
  | some p =>
    obtain ⟨shape, data⟩ := p
    cases hfault : shapeFault? shape data.length <;> simp [hfault]

/-- A shape without axes takes one value. -/
theorem shapeFault?_nil {values : Nat} : shapeFault? [] values = none ↔ values = 1 := by
  rw [shapeFault?_eq_none_iff, elementCount_nil]
  exact and_iff_right (by decide)

/-- The file holds a single number without axes. -/
def IsPoint (files : FileSystem) (path : String) : Prop :=
  ∃ text x, files path = .ok text ∧ (Json.parse? text).bind shapeAndData? = some ([], [x])

theorem readBatch_eq_noBatchAxis {files : FileSystem} {path : String} {count : Option Nat} :
    readBatch files path count = .error .noBatchAxis ↔ count = some 0 ∧ IsPoint files path := by
  constructor
  · intro h
    unfold readBatch at h
    rcases bind_eq_error_iff.1 h with hfile | ⟨text, hfile, h⟩
    · obtain ⟨e, -, he⟩ := mapError_eq_error_iff.1 hfile
      cases he
    · rcases bind_eq_error_iff.1 h with hbatch | ⟨v, hbatch, h⟩
      · exact absurd hbatch (batchOfText_ne_noBatchAxis text)
      · cases count with
        | none => cases h
        | some count =>
          obtain ⟨hshape, rfl⟩ := firstExamples_eq_noBatchAxis.1 h
          obtain ⟨shape, data, hparsed, hfault, rfl⟩ := batchOfText_eq_ok.1 hbatch
          rw [View.shape_ofRowMajor] at hshape
          subst hshape
          obtain ⟨x, rfl⟩ := List.length_eq_one_iff.1 (shapeFault?_nil.1 hfault)
          exact ⟨rfl, text, x, mapError_eq_ok_iff.1 hfile, hparsed⟩
  · rintro ⟨rfl, text, x, hfile, hparsed⟩
    have hbatch : batchOfText text = .ok (.ofRowMajor [] [x]) :=
      batchOfText_eq_ok.2 ⟨[], [x], hparsed, shapeFault?_nil.2 rfl, rfl⟩
    have hcut : firstExamples (.ofRowMajor [] [x]) 0 = .error .noBatchAxis :=
      firstExamples_eq_noBatchAxis.2 ⟨rfl, rfl⟩
    simp only [readBatch, hfile, hbatch, Except.mapError, bind, Except.bind, hcut]

/-! ## Preparations -/

/-- None of the examples of an input without axes are asked for, and the run gets as far as cutting
it. -/
def Options.CutsPoint (files : FileSystem) (environment : String → Option String) (o : Options) :
    Prop :=
  (∃ c, o.config files environment = .ok c) ∧ o.batchSize = some 0 ∧ IsPoint files o.input

section

variable {files : FileSystem} {environment : String → Option String} {o : Options}

theorem prepare_breaksOff_iff :
    (∃ e, prepare files environment o = .error e ∧ e.breaksOff = true) ↔
      o.CutsPoint files environment := by
  constructor
  · rintro ⟨e, h, hbreaks⟩
    unfold prepare at h
    rcases bind_eq_error_iff.1 h with h | ⟨config, hconfig, h⟩
    · obtain ⟨e', -, rfl⟩ := mapError_eq_error_iff.1 h
      cases hbreaks
    rcases bind_eq_error_iff.1 h with h | ⟨batch, -, h⟩
    · obtain ⟨e', hbatch, rfl⟩ := mapError_eq_error_iff.1 h
      cases e' with
      | noBatchAxis =>
        obtain ⟨hcount, hpoint⟩ := readBatch_eq_noBatchAxis.1 hbatch
        exact ⟨⟨config, mapError_eq_ok_iff.1 hconfig⟩, hcount, hpoint⟩
      | _ => cases hbreaks
    rcases bind_eq_error_iff.1 h with h | ⟨packed, -, h⟩
    · obtain ⟨e', -, rfl⟩ := mapError_eq_error_iff.1 h
      cases hbreaks
    have hrequest : ∀ labels : Option (List Nat),
        (((Request.create packed.info.batchSize config).withTensor o.tensorName packed).mapError
          RunError.request >>= fun request => pure (⟨request, packed.info, labels⟩ : Preparation)) ≠
            .error e := by
      intro labels h
      rcases bind_eq_error_iff.1 h with h | ⟨request, -, h⟩
      · obtain ⟨e', -, rfl⟩ := mapError_eq_error_iff.1 h
        cases hbreaks
      · cases h
    cases hlabels : o.labels with
    | none =>
      rw [hlabels] at h
      exact absurd h (hrequest none)
    | some path =>
      rw [hlabels] at h
      rcases bind_eq_error_iff.1 h with h | ⟨labels, -, h⟩
      · cases hread : readLabels files path packed.info.batchSize with
        | error e' =>
          rw [hread] at h
          obtain rfl := Except.error.inj h
          cases hbreaks
        | ok labels =>
          rw [hread] at h
          cases h
      · exact absurd h (hrequest labels)
  · rintro ⟨⟨config, hconfig⟩, hcount, hpoint⟩
    have hbatch := readBatch_eq_noBatchAxis.2 ⟨hcount, hpoint⟩
    refine ⟨.input .noBatchAxis, ?_, rfl⟩
    simp only [prepare, hconfig, hbatch, Except.mapError, bind, Except.bind]

theorem length_readLabels {path : String} {n : Nat} {labels : List Nat}
    (h : readLabels files path n = .ok labels) : labels.length = n := by
  unfold readLabels at h
  obtain ⟨text, -, h⟩ := exists_of_bind_eq_ok h
  obtain ⟨all, -, h⟩ := exists_of_bind_eq_ok h
  unfold alignLabels at h
  split_ifs at h with hfew
  obtain rfl := Except.ok.inj h
  rw [List.length_take]
  omega

/-- As many examples are read as are asked for. -/
theorem shape_readBatch {path : String} {n : Nat} {v : View}
    (h : readBatch files path (some n) = .ok v) : ∃ features, v.shape = n :: features := by
  unfold readBatch at h
  obtain ⟨text, -, h⟩ := exists_of_bind_eq_ok h
  obtain ⟨batch, -, h⟩ := exists_of_bind_eq_ok h
  obtain ⟨k, features, hshape, -, rfl⟩ := firstExamples_eq_ok.1 h
  exact ⟨features, View.shape_examples hshape 0 n⟩

/-- What a preparation has made sure of. -/
structure Preparation.IsSound (o : Options) (p : Preparation) : Prop where
  nonEmpty : p.info.batchSize ≠ 0
  divisible : p.info.batchSize % p.info.factor.value = 0
  count : ∀ n, o.batchSize = some n → p.info.batchSize = n
  labels : ∀ labels, p.labels = some labels → labels.length = p.info.batchSize

theorem isSound_of_prepare {p : Preparation} (h : prepare files environment o = .ok p) :
    p.IsSound o := by
  unfold prepare at h
  obtain ⟨config, -, h⟩ := exists_of_bind_eq_ok h
  obtain ⟨batch, hbatch, h⟩ := exists_of_bind_eq_ok h
  obtain ⟨packed, hpacked, h⟩ := exists_of_bind_eq_ok h
  obtain ⟨n, features, s, hshape, hn, hdiv, -, -, rfl⟩ :=
    Packer.pack_eq_ok (mapError_eq_ok_iff.1 hpacked)
  have hcount : ∀ k, o.batchSize = some k → n = k := by
    intro k hk
    rw [hk] at hbatch
    obtain ⟨features', hshape'⟩ := shape_readBatch (mapError_eq_ok_iff.1 hbatch)
    rw [hshape] at hshape'
    exact (List.cons.inj hshape').1
  cases hlabels : o.labels with
  | none =>
    rw [hlabels] at h
    obtain ⟨labels, hnone, h⟩ := exists_of_bind_eq_ok h
    obtain ⟨request, -, h⟩ := exists_of_bind_eq_ok h
    obtain rfl := Except.ok.inj hnone
    obtain rfl := Except.ok.inj h
    exact ⟨hn, hdiv, hcount, nofun⟩
  | some path =>
    rw [hlabels] at h
    obtain ⟨labels, hread, h⟩ := exists_of_bind_eq_ok h
    obtain ⟨request, -, h⟩ := exists_of_bind_eq_ok h
    obtain rfl := Except.ok.inj h
    refine ⟨hn, hdiv, hcount, ?_⟩
    rintro given rfl
    cases hlist : readLabels files path n with
    | error e =>
      rw [hlist] at hread
      cases hread
    | ok list =>
      rw [hlist] at hread
      obtain rfl := Option.some.inj (Except.ok.inj hread)
      exact length_readLabels hlist

end

/-! ## Conclusions -/

section

variable {info : PackingMeta} {result : InferenceResult} {name : String}

/-- The scores are missing when the output is. -/
theorem scoresOf_eq_noSuchOutput {name' : String} :
    scoresOf info result name = .error (.noSuchOutput name') ↔
      result.outputs.get? name = none ∧ name' = name := by
  unfold scoresOf
  cases result.outputs.get? name with
  | none => simp [eq_comm]
  | some slots =>
    dsimp only
    split_ifs
    · simp
    · cases Unpacker.ofMeta info (slots.valueCount / info.batchSize) with
      | error e => simp
      | ok u => simp [mapError_eq_error_iff]

/-- The output that is picked is the one that is asked for, or it is there. -/
theorem pickOutput_eq_ok {outputName : Option String}
    (h : pickOutput result outputName = .ok name) :
    outputName = some name ∨ result.outputs.get? name ≠ none := by
  cases outputName with
  | some asked => exact Or.inl (congrArg some (Except.ok.inj h))
  | none =>
    unfold pickOutput at h
    dsimp only at h
    split at h
    · rename_i only hkeys
      obtain rfl := Except.ok.inj h
      have hthere : only ∈ result.outputs.keys := hkeys ▸ List.mem_singleton_self only
      rw [NameMap.mem_keys] at hthere
      exact Or.inr (Option.ne_none_iff_isSome.2 hthere)
    · cases h
    · cases h

theorem pickOutput_ne_noSuchOutput {outputName : Option String} :
    pickOutput result outputName ≠ .error (.noSuchOutput name) := by
  unfold pickOutput
  split
  · nofun
  · split <;> nofun

theorem reportOf_ne_noSuchOutput {layout : ScoreLayout} {scores : Matrix}
    {labels : Option (List Nat)} : reportOf layout scores labels ≠ .error (.noSuchOutput name) := by
  unfold reportOf
  split
  · nofun
  · split <;> nofun

/-- Only an output that is asked for can be missing: where none is, one is picked that is there. -/
theorem ofResult_eq_noSuchOutput {layout : ScoreLayout} {labels : Option (List Nat)}
    {outputName : Option String} :
    (∃ name, Summary.ofResult info layout labels outputName result =
        .error (.noSuchOutput name)) ↔
      ∃ name, outputName = some name ∧ result.outputs.get? name = none := by
  constructor
  · rintro ⟨name, h⟩
    unfold Summary.ofResult at h
    rcases bind_eq_error_iff.1 h with h | ⟨output, hpick, h⟩
    · exact absurd h pickOutput_ne_noSuchOutput
    rcases bind_eq_error_iff.1 h with h | ⟨scores, -, h⟩
    · obtain ⟨hmissing, -⟩ := scoresOf_eq_noSuchOutput.1 h
      rcases pickOutput_eq_ok hpick with hasked | hthere
      · exact ⟨output, hasked, hmissing⟩
      · exact absurd hmissing hthere
    rcases bind_eq_error_iff.1 h with h | ⟨report, -, h⟩
    · exact absurd h reportOf_ne_noSuchOutput
    · cases h
  · rintro ⟨name, rfl, hmissing⟩
    have hscores : scoresOf info result name = .error (.noSuchOutput name) :=
      scoresOf_eq_noSuchOutput.2 ⟨hmissing, rfl⟩
    exact ⟨name, by simp only [Summary.ofResult, pickOutput, hscores, bind, Except.bind]⟩

/-- The values of an output fill a matrix that has a row for each example. -/
theorem scoresOf_eq_ok {scores : Matrix} (h : scoresOf info result name = .ok scores) :
    ∃ slots, result.outputs.get? name = some slots ∧ scores.rows = info.batchSize ∧
      scores.cols ≠ 0 ∧ scores.rows * scores.cols = slots.valueCount ∧
      scores.data.length = scores.rows * scores.cols := by
  unfold scoresOf at h
  cases hslots : result.outputs.get? name with
  | none =>
    rw [hslots] at h
    cases h
  | some slots =>
    rw [hslots] at h
    dsimp only at h
    split_ifs at h with hvalues
    obtain ⟨-, heven⟩ := not_or.1 hvalues
    cases hu : Unpacker.ofMeta info (slots.valueCount / info.batchSize) with
    | error e =>
      rw [hu] at h
      cases h
    | ok u =>
      rw [hu] at h
      obtain ⟨-, helements, hdiv, rfl⟩ := Unpacker.create_eq_ok_iff.1 hu
      have hunpack := mapError_eq_ok_iff.1 h
      rw [Unpacker.unpackOutput, hslots] at hunpack
      obtain ⟨hrows, hcols, hlength⟩ := Unpacker.length_data_of_unpack hdiv hunpack
      dsimp only at hrows hcols hlength
      rw [hrows, hcols]
      have hall := Nat.mul_div_cancel' (Nat.dvd_of_mod_eq_zero (not_not.1 heven))
      exact ⟨slots, rfl, rfl, helements, hall, hlength⟩

theorem conclude_breaksOff_iff {o : Options} {p : Preparation}
    {outcome : Except ClientError InferenceResult} :
    (∃ e, conclude o p outcome = .error e ∧ e.breaksOff = true) ↔
      ∃ result name, outcome = .ok result ∧ o.outputName = some name ∧
        result.outputs.get? name = none := by
  constructor
  · rintro ⟨e, h, hbreaks⟩
    unfold conclude at h
    rcases bind_eq_error_iff.1 h with h | ⟨result, houtcome, h⟩
    · obtain ⟨e', -, rfl⟩ := mapError_eq_error_iff.1 h
      cases hbreaks
    rcases bind_eq_error_iff.1 h with h | ⟨summary, -, h⟩
    · obtain ⟨e', hsummary, rfl⟩ := mapError_eq_error_iff.1 h
      cases e' with
      | noSuchOutput name =>
        obtain ⟨asked, hasked, hmissing⟩ := ofResult_eq_noSuchOutput.1 ⟨name, hsummary⟩
        exact ⟨result, asked, mapError_eq_ok_iff.1 houtcome, hasked, hmissing⟩
      | _ => cases hbreaks
    · cases h
  · rintro ⟨result, name, rfl, hasked, hmissing⟩
    have hsummary : ∃ name', Summary.ofResult p.info o.resultLayout p.labels o.outputName result =
        .error (.noSuchOutput name') := ofResult_eq_noSuchOutput.2 ⟨name, hasked, hmissing⟩
    obtain ⟨name', hsummary⟩ := hsummary
    refine ⟨.result (.noSuchOutput name'), ?_, rfl⟩
    simp only [conclude, hsummary, Except.mapError, bind, Except.bind]

end

/-! ## Runs -/

section

variable {σ : Type} {w : Surroundings σ} {o : Options}

/-- A server hands out a result, and the output that is asked for is not in it. -/
def Options.MissesOutput (w : Surroundings σ) (o : Options) : Prop :=
  ∃ p result name, prepare w.files w.environment o = .ok p ∧
    (consult w o p.request .initial).1 = .returned (.ok result) ∧ o.outputName = some name ∧
    result.outputs.get? name = none

/-- The run has submitted its request and waits for it; the first `n` answers to the question how
far the request is say that it is queued or running, and come before the timeout. -/
def Options.KeepsWaiting (w : Surroundings σ) (o : Options) (n : Nat) : Prop :=
  ∃ p id, prepare w.files w.environment o = .ok p ∧
    let connected := TimedClient.initial.connect w.transport o.retryPolicy o.address w.dial
    let sent := connected.2.send w.transport p.request
    connected.1 = .ok () ∧ sent.1 = .ok id ∧
      ∃ v : PendingWait w.transport, v.origin = sent.2 ∧ v.id = id ∧ v.policy = o.pollPolicy ∧
        v.cancel = none ∧ v.IsCalm v.deadline n

theorem interval_pollPolicy (o : Options) : o.pollPolicy.interval ≠ 0 := by
  show max o.pollInterval 1 ≠ 0
  omega

section

variable {request : Request} {s : TimedClient σ}

theorem consult_ongoing_iff : (consult w o request s).1 = .ongoing ↔
    (s.connect w.transport o.retryPolicy o.address w.dial).1 = .ok () ∧
      ((s.connect w.transport o.retryPolicy o.address w.dial).2.run w.transport w.polls o.pollPolicy
        request).1 = .ongoing := by
  unfold consult
  generalize s.connect w.transport o.retryPolicy o.address w.dial = connected
  obtain ⟨e | _, s₁⟩ := connected
  · simp
  · dsimp only
    generalize s₁.run w.transport w.polls o.pollPolicy request = ran
    obtain ⟨(_ | _) | _ | _, s₂⟩ := ran <;> simp

theorem consult_ne_panicked : (consult w o request s).1 ≠ .panicked := by
  unfold consult
  generalize s.connect w.transport o.retryPolicy o.address w.dial = connected
  obtain ⟨e | _, s₁⟩ := connected
  · nofun
  · have hran : (s₁.run w.transport w.polls o.pollPolicy request).1 ≠ .panicked :=
      TimedClient.run_ne_panicked (interval_pollPolicy o)
    dsimp only
    generalize s₁.run w.transport w.polls o.pollPolicy request = ran at hran
    obtain ⟨(_ | _) | _ | _, s₂⟩ := ran
    · nofun
    · nofun
    · exact absurd rfl hran
    · nofun

theorem consult_of_le {polls : Nat} (hle : w.polls ≤ polls)
    (h : (consult w o request s).1 ≠ .ongoing) :
    consult { w with polls } o request s = consult w o request s := by
  have hran : (s.connect w.transport o.retryPolicy o.address w.dial).1 = .ok () →
      (s.connect w.transport o.retryPolicy o.address w.dial).2.run w.transport polls o.pollPolicy
        request =
      (s.connect w.transport o.retryPolicy o.address w.dial).2.run w.transport w.polls o.pollPolicy
        request := by
    intro hconnected
    exact TimedClient.run_of_le hle fun hongoing => h (consult_ongoing_iff.2 ⟨hconnected, hongoing⟩)
  unfold consult
  dsimp only
  generalize s.connect w.transport o.retryPolicy o.address w.dial = connected at hran
  obtain ⟨e | _, s₁⟩ := connected
  · rfl
  · dsimp only
    rw [hran rfl]

end

theorem ofOutcome_eq_brokenOff {outcome : Except RunError String} :
    Ending.ofOutcome outcome = .brokenOff ↔ ∃ e, outcome = .error e ∧ e.breaksOff = true := by
  cases outcome with
  | ok text => simp [Ending.ofOutcome]
  | error e =>
    cases hbreaks : e.breaksOff <;> simp [Ending.ofOutcome, Ending.ofError, hbreaks]

/-- A run has an ending, and not the refusal of its command line, unless its server keeps it
waiting. -/
theorem run_cases (w : Surroundings σ) (o : Options) :
    (∃ outcome, run w o = some (.ofOutcome outcome) ∧
      ((∃ e, outcome = .error e ∧ prepare w.files w.environment o = .error e) ∨
        ∃ p result, prepare w.files w.environment o = .ok p ∧
          (consult w o p.request .initial).1 = .returned result ∧ outcome = conclude o p result)) ∨
    ∃ p, prepare w.files w.environment o = .ok p ∧
      (consult w o p.request .initial).1 = .ongoing ∧ run w o = none := by
  unfold run
  cases hprepare : prepare w.files w.environment o with
  | error e => exact Or.inl ⟨.error e, rfl, Or.inl ⟨e, rfl, rfl⟩⟩
  | ok p =>
    dsimp only
    cases hconsult : (consult w o p.request .initial).1 with
    | returned result => exact Or.inl ⟨_, rfl, Or.inr ⟨p, result, rfl, hconsult, rfl⟩⟩
    | panicked => exact absurd hconsult consult_ne_panicked
    | ongoing => exact Or.inr ⟨p, rfl, hconsult, rfl⟩

theorem run_eq_brokenOff_iff (w : Surroundings σ) (o : Options) :
    run w o = some .brokenOff ↔ o.CutsPoint w.files w.environment ∨ o.MissesOutput w := by
  constructor
  · intro h
    rcases run_cases w o with ⟨outcome, hrun, hsteps⟩ | ⟨-, -, -, hrun⟩
    · rw [h] at hrun
      obtain ⟨e, rfl, hbreaks⟩ := ofOutcome_eq_brokenOff.1 (Option.some.inj hrun).symm
      rcases hsteps with ⟨e', heq, hprepare⟩ | ⟨p, result, hprepare, hconsult, hconclude⟩
      · obtain rfl := Except.error.inj heq
        exact Or.inl (prepare_breaksOff_iff.1 ⟨e, hprepare, hbreaks⟩)
      · obtain ⟨result, name, rfl, hasked, hmissing⟩ :=
          conclude_breaksOff_iff.1 ⟨e, hconclude.symm, hbreaks⟩
        exact Or.inr ⟨p, result, name, hprepare, hconsult, hasked, hmissing⟩
    · rw [h] at hrun
      cases hrun
  · rintro (hcuts | ⟨p, result, name, hprepare, hconsult, hasked, hmissing⟩)
    · obtain ⟨e, hprepare, hbreaks⟩ := prepare_breaksOff_iff.2 hcuts
      simp only [run, hprepare, Ending.ofError, hbreaks, if_true]
    · obtain ⟨e, hconclude, hbreaks⟩ :=
        conclude_breaksOff_iff (p := p).2 ⟨result, name, rfl, hasked, hmissing⟩
      simp only [run, hprepare, hconsult, endingAfter, hconclude, Ending.ofOutcome, Ending.ofError,
        hbreaks, if_true]

/-- A run does not end within so many polls if so many times its request is said to be pending. -/
theorem run_eq_none_iff : run w o = none ↔ o.KeepsWaiting w w.polls := by
  have hinterval : 0 < o.pollPolicy.interval := Nat.pos_of_ne_zero (interval_pollPolicy o)
  constructor
  · intro h
    rcases run_cases w o with ⟨outcome, hrun, -⟩ | ⟨p, hprepare, hongoing, -⟩
    · rw [h] at hrun
      cases hrun
    · obtain ⟨hconnected, hran⟩ := consult_ongoing_iff.1 hongoing
      obtain ⟨id, hsent, hwaited⟩ := TimedClient.run_ongoing_iff.1 hran
      obtain ⟨v, horigin, hid, hpolicy, hcancel⟩ := PendingWait.exists_of_send hsent hinterval none
      refine ⟨p, id, hprepare, hconnected, hsent, v, horigin, hid, hpolicy, hcancel, ?_⟩
      rw [← PendingWait.wait_ongoing_iff, PendingWait.wait, horigin, hpolicy, hcancel]
      exact hwaited
  · rintro ⟨p, id, hprepare, hconnected, hsent, v, horigin, -, hpolicy, hcancel, hcalm⟩
    rw [← PendingWait.wait_ongoing_iff, PendingWait.wait, horigin, hpolicy, hcancel] at hcalm
    have hongoing : (consult w o p.request .initial).1 = .ongoing :=
      consult_ongoing_iff.2 ⟨hconnected, TimedClient.run_ongoing_iff.2 ⟨id, hsent, hcalm⟩⟩
    simp only [run, hprepare, hongoing, endingAfter]

/-- Following a run that has ended for more polls makes no difference. -/
theorem run_of_le {polls : Nat} {ended : Ending} (hle : w.polls ≤ polls)
    (h : run w o = some ended) : run { w with polls } o = some ended := by
  unfold run at h ⊢
  cases hprepare : prepare w.files w.environment o with
  | error e => rwa [hprepare] at h
  | ok p =>
    rw [hprepare] at h
    have hended : (consult w o p.request .initial).1 ≠ .ongoing := by
      intro hongoing
      simp only [hongoing, endingAfter] at h
      cases h
    dsimp only at h ⊢
    rwa [consult_of_le hle hended]

/-- With a timeout a run is not kept waiting for ever: no more polls than the timeout has
milliseconds, and one, are answered. -/
theorem Options.KeepsWaiting.le {n milliseconds : Nat} (h : o.KeepsWaiting w n)
    (htimeout : o.pollPolicy.timeout = some milliseconds) : n ≤ sleepLength milliseconds + 1 := by
  obtain ⟨p, id, -, -, -, v, -, -, hpolicy, hcancel, hcalm⟩ := h
  have hbound : v.IsBound ⟨v.origin.clock + sleepLength milliseconds, .timeout milliseconds⟩ :=
    .timeout (by rw [hpolicy, htimeout])
  have hdeadline := v.deadline_eq hbound (by
    rintro _ (hms | hms) hne
    · rw [hpolicy, htimeout] at hms
      obtain rfl := Option.some.inj hms
      exact absurd rfl hne
    · rw [hcancel] at hms
      cases hms)
  rw [hdeadline] at hcalm
  have hle := hcalm.le
  dsimp only at hle
  omega

/-- A run for an accepted command line breaks off in two situations and in no others: when none of
the examples of an input without axes are asked for, and when the result lacks the output that is
asked for.  If it ends otherwise, it ends with its summary or with a message about what went wrong.
It does not end as long as its server keeps saying that the request is pending, which with a timeout
is not for ever; and it ends only once, however long it is followed.  What its steps take for
granted holds when they are reached: an input that was cut has an axis with so many examples; the
batch that was packed is not empty, is divided by the packing factor, and has a label for each
example if there are labels; the pauses of the wait are not empty; and the scores have a row for
each example and all values of the output. -/
theorem ending_of_accepted (w : Surroundings σ) {args : List String} {o : Options}
    (h : Options.ofArguments args = .ok o) :
    (ending w args = some .brokenOff ↔ o.CutsPoint w.files w.environment ∨ o.MissesOutput w) ∧
    (∀ ended, ending w args = some ended → ended ≠ .brokenOff →
      (ended.code = 0 ∧ ∃ text, ended = .printed text) ∨
      (ended.code = 1 ∧ ∃ message, ended.complaint? = some ("Error: " ++ message))) ∧
    (ending w args = none ↔ o.KeepsWaiting w w.polls) ∧
    (∀ ended, ending w args = some ended →
      ∀ polls ≥ w.polls, ending { w with polls } args = some ended) ∧
    (∀ milliseconds, o.pollPolicy.timeout = some milliseconds →
      ∀ polls > sleepLength milliseconds + 1, (ending { w with polls } args).isSome) ∧
    (∀ v v' count, firstExamples v count = .ok v' →
      ∃ n features, v.shape = n :: features ∧ count ≤ n ∧ v' = v.examples 0 count) ∧
    ∀ p, prepare w.files w.environment o = .ok p → p.IsSound o ∧ o.pollPolicy.interval ≠ 0 ∧
      ∀ result name scores, scoresOf p.info result name = .ok scores →
        ∃ slots, result.outputs.get? name = some slots ∧ scores.rows = p.info.batchSize ∧
          scores.cols ≠ 0 ∧ scores.rows * scores.cols = slots.valueCount ∧
          scores.data.length = scores.rows * scores.cols := by
  have hending : ∀ w : Surroundings σ, ending w args = run w o := fun w => by simp only [ending, h]
  refine ⟨?_, ?_, ?_, ?_, ?_, fun _ _ _ => firstExamples_eq_ok.1, ?_⟩
  · rw [hending, run_eq_brokenOff_iff]
  · intro ended hended hproper
    rw [hending] at hended
    rcases run_cases w o with ⟨outcome, hrun, -⟩ | ⟨-, -, -, hrun⟩
    · obtain rfl := Option.some.inj (hended.symm.trans hrun)
      cases outcome with
      | ok text => exact Or.inl ⟨rfl, text, rfl⟩
      | error e =>
        have hbreaks : e.breaksOff = false := by
          by_contra hbreaks
          rw [Bool.not_eq_false] at hbreaks
          exact hproper (ofOutcome_eq_brokenOff.2 ⟨e, rfl, hbreaks⟩)
        have hfailed : Ending.ofOutcome (.error e) = .failed e.message := by
          simp only [Ending.ofOutcome, Ending.ofError, hbreaks, Bool.false_eq_true, if_false]
        rw [hfailed]
        exact Or.inr ⟨rfl, e.message, rfl⟩
    · rw [hended] at hrun
      cases hrun
  · rw [hending, run_eq_none_iff]
  · intro ended hended polls hle
    rw [hending] at hended ⊢
    exact run_of_le hle hended
  · intro milliseconds htimeout polls hpolls
    rw [hending, Option.isSome_iff_ne_none]
    intro hnone
    have hle := (run_eq_none_iff.1 hnone).le htimeout
    dsimp only at hle
    omega
  · intro p hp
    exact ⟨isSound_of_prepare hp, interval_pollPolicy o, fun _ _ _ => scoresOf_eq_ok⟩

end

/-! ## Runs against a server -/

/-- Surroundings with one input, and a server that computes one output. -/
def Surroundings.served (input : String) : Surroundings Script where
  files path := if path = "in.json" then .ok input else .error .notFound
  environment _ := none
  dial _ := .ok {
    answers := [⟨0, .ok (.hello protocolVersion "echo")⟩, ⟨0, .ok (.accepted "I")⟩,
      ⟨0, .ok (.status "I" .completed none)⟩,
      ⟨0, .ok (.result ⟨"I", NameMap.empty.insert "y" (.real [.zero])⟩)⟩]
    fallback := none
    notifies := true }
  transport := Script.transport
  polls := 1

/-- A single example with a single value. -/
def single : String := "\x7b\"shape\":[1],\"data\":[1.0]\x7d"

/-- A number without axes. -/
def point : String := "\x7b\"shape\":[],\"data\":[1.0]\x7d"

/-- Where neither a number of examples nor an output is asked for, nothing breaks off. -/
theorem ending_of_single :
    (Options.ofArguments ["--input", "in.json"]).isOk = true ∧
      ending (.served single) ["--input", "in.json"] ≠ some .brokenOff ∧
      (ending (.served single) ["--input", "in.json"]).map Ending.code = some 0 := by
  have hasked : (Options.ofArguments ["--input", "in.json"]).map
      (fun o => (o.batchSize, o.outputName)) = .ok (none, none) := by decide +kernel
  cases ho : Options.ofArguments ["--input", "in.json"] with
  | error e =>
    rw [ho] at hasked
    cases hasked
  | ok o =>
    rw [ho] at hasked
    obtain ⟨hcount, houtput⟩ := Prod.mk.inj (Except.ok.inj hasked)
    obtain ⟨hbroken, -⟩ := ending_of_accepted (.served single) ho
    refine ⟨rfl, ?_, by decide +kernel⟩
    rw [Ne, hbroken]
    rintro (⟨-, hzero, -⟩ | ⟨p, result, name, -, -, hname, -⟩)
    · rw [hcount] at hzero
      cases hzero
    · rw [houtput] at hname
      cases hname

/-- Two command lines that are accepted, and runs of them that break off.  Where no number of
examples is asked for, an input without axes is reported. -/
theorem ending_of_point :
    ((Options.ofArguments ["--input", "in.json", "--batch_size", "0"]).isOk = true ∧
      (ending (.served point) ["--input", "in.json", "--batch_size", "0"]).map Ending.code =
        some 101) ∧
    ((Options.ofArguments ["--input", "in.json", "--output_name", "z"]).isOk = true ∧
      (ending (.served single) ["--input", "in.json", "--output_name", "z"]).map Ending.code =
        some 101) ∧
    (ending (.served point) ["--input", "in.json"]).bind Ending.complaint? =
      some ("Error: " ++ PackingError.missingBatchAxis.message) := by
  decide +kernel

end CommandLine

end EncryptedInference
