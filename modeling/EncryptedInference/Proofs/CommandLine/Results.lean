import EncryptedInference.Proofs.Batch.Stepwise
import EncryptedInference.Proofs.CommandLine.Endings
import EncryptedInference.Proofs.Scores.Layouts
import EncryptedInference.Proofs.Scores.Ties

/-!
# What is made of a result

How many scores an example has is taken from the output itself.  That lets no slots of the wrong
kind through: a complex slot for one example, or a real one for two, carries twice or half the
values that the slots are counted by (`CommandLine.scoresOf_of_kind_ne`).  Predictions and accuracy
come from the same rows, in whatever layout the scores are reported (`CommandLine.ofResult_other`,
`CommandLine.top1Correct_eq`).  They depend on the signs of zeros
(`CommandLine.predictions_canonical_iff`).
-/

namespace EncryptedInference

/-! ## Numbers of values -/

namespace SlotVector

variable {n : Nat} {factor : PackingFactor} {s : SlotVector}

theorem kind_eq_ofFactor_iff : s.kind = .ofFactor factor ↔ (s.kind = .complex ↔ factor = .two) := by
  cases s <;> cases factor <;> simp [kind, LaneKind.ofFactor]

/-- Slots of the right kind fill rows of the length that is taken from them if that is no rounded
number. -/
theorem length_eq_iff (hdiv : n % factor.value = 0) (hkind : s.kind = .ofFactor factor) :
    s.length = n * (s.valueCount / n) / factor.value ↔ s.valueCount % n = 0 := by
  have hrows := Nat.div_add_mod s.valueCount n
  cases factor with
  | one =>
    cases s with
    | complex => cases hkind
    | real values =>
      simp only [length, valueCount, PackingFactor.value, Nat.div_one] at *
      omega
  | two =>
    cases s with
    | real => cases hkind
    | complex values =>
      have heven : 2 ∣ n * (2 * values.length / n) :=
        Nat.dvd_mul_right_of_dvd (Nat.dvd_of_mod_eq_zero hdiv) _
      simp only [length, valueCount, PackingFactor.value] at *
      omega

/-- Slots of the wrong kind are twice or half as many as are expected. -/
theorem length_ne_of_kind_ne (hkind : s.kind ≠ .ofFactor factor) (hvalues : s.valueCount ≠ 0) :
    s.length ≠ s.valueCount / factor.value := by
  cases factor with
  | one =>
    cases s with
    | real => exact absurd rfl hkind
    | complex values =>
      simp only [length, valueCount, PackingFactor.value] at *
      omega
  | two =>
    cases s with
    | complex => exact absurd rfl hkind
    | real values =>
      simp only [length, valueCount, PackingFactor.value] at *
      omega

end SlotVector

namespace CommandLine

/-! ## Scores -/

section

variable {info : PackingMeta} {result : InferenceResult} {name : String} {slots : SlotVector}
  {scores : Matrix}

/-- The scores in an output, with as many for each example as there are values for it; no number of
values is refused beforehand. -/
def inferScores (info : PackingMeta) (result : InferenceResult) (name : String)
    (slots : SlotVector) : Except UnpackError Matrix := do
  let u ← Unpacker.ofMeta info (slots.valueCount / info.batchSize)
  u.unpackOutput result.outputs name

theorem unpackOutput_eq (hslots : result.outputs.get? name = some slots) (u : Unpacker) :
    u.unpackOutput result.outputs name = u.unpack slots := by
  rw [Unpacker.unpackOutput, hslots]

theorem ofMeta_eq_ok (hn : info.batchSize ≠ 0) (hdiv : info.batchSize % info.factor.value = 0)
    {elements : Nat} (helements : elements ≠ 0) : Unpacker.ofMeta info elements =
      .ok ⟨info.batchSize, elements, info.order.resolveFlat, info.factor⟩ :=
  Unpacker.create_eq_ok_iff.2 ⟨hn, helements, hdiv, rfl⟩

/-- The slots that are laid out carry a number of values for each example, in lanes of the kind that
the batch was packed in. -/
theorem exists_inferScores_iff (hn : info.batchSize ≠ 0)
    (hdiv : info.batchSize % info.factor.value = 0)
    (hslots : result.outputs.get? name = some slots) :
    (∃ scores, inferScores info result name slots = .ok scores) ↔
      slots.valueCount ≠ 0 ∧ slots.valueCount % info.batchSize = 0 ∧
        slots.kind = .ofFactor info.factor := by
  constructor
  · rintro ⟨scores, hscores⟩
    obtain ⟨u, hu, hunpack⟩ := exists_of_bind_eq_ok hscores
    obtain ⟨-, helements, -, rfl⟩ := Unpacker.create_eq_ok_iff.1 hu
    rw [unpackOutput_eq hslots] at hunpack
    obtain ⟨hlength, hkind⟩ := (Unpacker.exists_unpack_iff hdiv).1 ⟨scores, hunpack⟩
    refine ⟨?_, (SlotVector.length_eq_iff hdiv hkind).1 hlength, hkind⟩
    intro hzero
    rw [hzero, Nat.zero_div] at helements
    exact helements rfl
  · rintro ⟨hvalues, hmultiple, hkind⟩
    have helements : slots.valueCount / info.batchSize ≠ 0 := by
      intro hzero
      have hrows := Nat.div_add_mod slots.valueCount info.batchSize
      rw [hzero, hmultiple] at hrows
      exact hvalues hrows.symm
    obtain ⟨scores, hscores⟩ := (Unpacker.exists_unpack_iff
      (u := ⟨_, slots.valueCount / info.batchSize, info.order.resolveFlat, _⟩) hdiv).2
      ⟨(SlotVector.length_eq_iff hdiv hkind).2 hmultiple, hkind⟩
    refine ⟨scores, ?_⟩
    rw [inferScores, ofMeta_eq_ok hn hdiv helements]
    exact (unpackOutput_eq hslots _).trans hscores

theorem scoresOf_eq (hslots : result.outputs.get? name = some slots) :
    scoresOf info result name =
      if slots.valueCount = 0 ∨ slots.valueCount % info.batchSize ≠ 0 then
        .error (.unevenOutput name slots.valueCount info.batchSize)
      else (inferScores info result name slots).mapError .unpack := by
  unfold scoresOf inferScores
  rw [hslots]
  dsimp only
  cases Unpacker.ofMeta info (slots.valueCount / info.batchSize) <;> rfl

/-- What is refused beforehand would not be laid out. -/
theorem scoresOf_eq_ok_iff (hn : info.batchSize ≠ 0)
    (hdiv : info.batchSize % info.factor.value = 0)
    (hslots : result.outputs.get? name = some slots) :
    scoresOf info result name = .ok scores ↔ inferScores info result name slots = .ok scores := by
  rw [scoresOf_eq hslots]
  split_ifs with huneven
  · refine iff_of_false nofun fun hscores => ?_
    obtain ⟨hvalues, hmultiple, -⟩ := (exists_inferScores_iff hn hdiv hslots).1 ⟨scores, hscores⟩
    exact huneven.elim hvalues fun h => h hmultiple
  · exact mapError_eq_ok_iff

/-- Rows of the right number of values in lanes of the wrong kind are refused for their number. -/
theorem scoresOf_of_kind_ne (hn : info.batchSize ≠ 0)
    (hdiv : info.batchSize % info.factor.value = 0)
    (hslots : result.outputs.get? name = some slots) (hvalues : slots.valueCount ≠ 0)
    (hmultiple : slots.valueCount % info.batchSize = 0)
    (hkind : slots.kind ≠ .ofFactor info.factor) :
    scoresOf info result name = .error (.unpack (.lengthMismatch
      (slots.valueCount / info.factor.value) slots.length info.batchSize
      (slots.valueCount / info.batchSize) info.factor.value)) := by
  have hall : info.batchSize * (slots.valueCount / info.batchSize) = slots.valueCount :=
    Nat.mul_div_cancel' (Nat.dvd_of_mod_eq_zero hmultiple)
  have helements : slots.valueCount / info.batchSize ≠ 0 := by
    intro hzero
    rw [hzero] at hall
    exact hvalues hall.symm
  have hlength := SlotVector.length_ne_of_kind_ne hkind hvalues
  rw [← hall] at hlength
  have hunpack := Unpacker.unpack_of_length_ne
    (u := ⟨_, slots.valueCount / info.batchSize, info.order.resolveFlat, _⟩) hlength
  rw [scoresOf_eq hslots, if_neg (not_or.2 ⟨hvalues, not_not.2 hmultiple⟩), inferScores,
    ofMeta_eq_ok hn hdiv helements]
  show ((Unpacker.unpackOutput _ result.outputs name).mapError ResultError.unpack) = _
  rw [unpackOutput_eq hslots, hunpack, hall]
  rfl

end

/-! ## Best classes -/

/-- Where rows are not empty, every prediction is the best class of its row. -/
theorem map_some_predictions {scores : Matrix} (h : ∀ row ∈ scores.toRows, row ≠ []) :
    (predictions scores).map some = scores.toRows.map Scores.best? := by
  rw [predictions, List.map_map]
  refine List.map_congr_left fun row hrow => ?_
  obtain ⟨c, hc⟩ := Scores.exists_best? (h row hrow)
  simp [hc]

/-- What becomes of an output of a result for a packed batch.  Its values are laid out if there is a
whole number of them for each example, and if its lanes are complex exactly when two examples share
a slot; then the scores have a row for each example, no row is empty, and every prediction is the
best class of its row.  Lanes of the other kind are refused for the number of slots.  Step by step
the same becomes of the output, so that no shape is found not to fit. -/
theorem scoresOf_of_pack {p : Packer} {v : View} {packed : PackedBatch}
    (hpack : p.pack v = .ok packed) {result : InferenceResult} {name : String} {slots : SlotVector}
    (hslots : result.outputs.get? name = some slots) :
    let info := packed.info
    let n := info.batchSize
    let values := slots.valueCount
    ((∃ scores, inferScores info result name slots = .ok scores) ↔
      values ≠ 0 ∧ values % n = 0 ∧ (slots.kind = .complex ↔ info.factor = .two)) ∧
    (∀ scores, scoresOf info result name = .ok scores ↔
      inferScores info result name slots = .ok scores) ∧
    (∀ scores, scoresOf info result name = .ok scores →
      scores.rows = n ∧ scores.cols = values / n ∧ scores.toRows.length = n ∧
      (∀ row ∈ scores.toRows, row.length = values / n ∧ row ≠ []) ∧
      (predictions scores).map some = scores.toRows.map Scores.best?) ∧
    (values ≠ 0 → values % n = 0 → ¬ (slots.kind = .complex ↔ info.factor = .two) →
      scoresOf info result name = .error (.unpack (.lengthMismatch (values / info.factor.value)
        slots.length n (values / n) info.factor.value))) ∧
    (values ≤ maxElements → ∀ u, Unpacker.ofMeta info (values / n) = .ok u →
      u.assembleOutput result.outputs name =
        (u.unpackOutput result.outputs name).mapError .refused) := by
  obtain ⟨n, features, s, -, hn, hdiv, -, -, rfl⟩ := Packer.pack_eq_ok hpack
  simp only [← SlotVector.kind_eq_ofFactor_iff]
  refine ⟨exists_inferScores_iff hn hdiv hslots, fun _ => scoresOf_eq_ok_iff hn hdiv hslots, ?_,
    fun hvalues hmultiple hkind => scoresOf_of_kind_ne hn hdiv hslots hvalues hmultiple hkind, ?_⟩
  · intro scores hscores
    obtain ⟨slots', hslots', hrows, hcols, hall, hfull⟩ := scoresOf_eq_ok hscores
    obtain rfl := Option.some.inj (hslots.symm.trans hslots')
    have hquotient : scores.cols = slots.valueCount / n := by
      rw [← hall, hrows, Nat.mul_div_cancel_left _ (Nat.pos_of_ne_zero hn)]
    have hrow : ∀ row ∈ scores.toRows, row.length = slots.valueCount / n ∧ row ≠ [] := by
      intro row hrow
      have hlength := Matrix.length_of_mem_toRows hfull hrow
      refine ⟨hlength.trans hquotient, ?_⟩
      rintro rfl
      exact hcols hlength.symm
    exact ⟨hrows, hquotient, scores.length_toRows.trans hrows, hrow,
      map_some_predictions fun row h => (hrow row h).2⟩
  · intro hmax u hu
    refine Unpacker.assembleOutput_eq hu fun slots' hslots' => ?_
    obtain rfl := Option.some.inj (hslots.symm.trans hslots')
    exact hmax

/-- Two examples that share a slot: an output of two complex slots, and one of four real ones. -/
theorem scoresOf_of_pack_pair :
    let info : PackingMeta := ⟨2, [1], .rowMajor, .two⟩
    let scores : Matrix := ⟨2, 2, [1, 2, 4, 3].map .ofNat⟩
    let result : InferenceResult := ⟨"I", (NameMap.empty.insert "y"
      (.complex [⟨.ofNat 1, .ofNat 4⟩, ⟨.ofNat 2, .ofNat 3⟩])).insert "z"
      (.real ([1, 2, 4, 3].map .ofNat))⟩
    (⟨.rowMajor, .two⟩ : Packer).pack (.ofRowMajor [2, 1] [.ofNat 5, .ofNat 6]) =
        .ok ⟨.complex [⟨.ofNat 5, .ofNat 6⟩], info⟩ ∧
      scoresOf info result "y" = .ok scores ∧ (predictions scores).map some = [some 1, some 0] ∧
      Unpacker.assembleOutput ⟨2, 2, .rowMajor, .two⟩ result.outputs "y" = .ok scores ∧
      scoresOf info result "z" = .error (.unpack (.lengthMismatch 2 4 2 2 2)) := by
  intro info scores result
  have hpack : (⟨.rowMajor, .two⟩ : Packer).pack (.ofRowMajor [2, 1] [.ofNat 5, .ofNat 6]) =
      .ok ⟨.complex [⟨.ofNat 5, .ofNat 6⟩], info⟩ := by decide +kernel
  have hy : result.outputs.get? "y" =
      some (.complex [⟨.ofNat 1, .ofNat 4⟩, ⟨.ofNat 2, .ofNat 3⟩]) := by decide +kernel
  have hz : result.outputs.get? "z" = some (.real ([1, 2, 4, 3].map .ofNat)) := by decide +kernel
  obtain ⟨-, hscores, hlaid, -, hstepwise⟩ := scoresOf_of_pack hpack hy
  obtain ⟨-, -, -, hrefused, -⟩ := scoresOf_of_pack hpack hz
  have hok : scoresOf info result "y" = .ok scores := (hscores scores).2 (by decide +kernel)
  obtain ⟨-, -, -, -, hbest⟩ := hlaid scores hok
  have hfirst : Scores.best? ([1, 2].map .ofNat) = some 1 :=
    Scores.best?_eq_some_iff.2 (by decide +kernel)
  have hsecond : Scores.best? ([4, 3].map .ofNat) = some 0 :=
    Scores.best?_eq_some_iff.2 (by decide +kernel)
  have hpredictions : (predictions scores).map some = [some 1, some 0] := by
    rw [hbest, ← hfirst, ← hsecond]
    rfl
  have hassemble : Unpacker.assembleOutput ⟨2, 2, .rowMajor, .two⟩ result.outputs "y" =
      .ok scores := (hstepwise (by decide) _ (by decide)).trans (by decide +kernel)
  exact ⟨hpack, hok, hpredictions, hassemble,
    (hrefused (by decide) (by decide) (by decide)).trans (by decide +kernel)⟩

/-! ## Layouts -/

namespace ResultError

/-- The same error, said about the scores in the other layout. -/
def transposed : ResultError → ResultError
  | evaluation e => evaluation e.transposed
  | e => e

end ResultError

section

variable {layout : ScoreLayout} {scores : Matrix}

theorem isFull_arrange (h : scores.IsFull) : (arrange layout scores).IsFull := by
  cases layout with
  | batchByClass => exact h
  | classByBatch => exact scores.isFull_transpose

theorem arrange_other (h : scores.IsFull) :
    arrange layout.other scores = (arrange layout scores).transpose := by
  cases layout with
  | batchByClass => rfl
  | classByBatch => exact (Matrix.transpose_transpose h).symm

theorem examples_arrange : layout.examples (arrange layout scores) = scores.rows := by
  cases layout <;> rfl

theorem classes_arrange : layout.classes (arrange layout scores) = scores.cols := by
  cases layout <;> rfl

/-- In whatever layout scores are reported, the examples are their rows. -/
theorem rows_arrange (h : scores.IsFull) : layout.rows (arrange layout scores) = scores.toRows := by
  have hrows : ScoreLayout.batchByClass.rows scores = scores.toRows :=
    (Matrix.toRows_of_full h).symm
  cases layout with
  | batchByClass => exact hrows
  | classByBatch => exact (ScoreLayout.rows_other .batchByClass scores).trans hrows

theorem reportOf_some (labels : List Nat) : reportOf layout scores (some labels) =
    ((Scores.evaluate layout (arrange layout scores) labels).map some).mapError .evaluation := by
  unfold reportOf
  dsimp only
  cases Scores.evaluate layout (arrange layout scores) labels <;> rfl

theorem reportOf_other (h : scores.IsFull) (labels : Option (List Nat)) :
    reportOf layout.other scores labels =
      (reportOf layout scores labels).mapError ResultError.transposed := by
  cases labels with
  | none => rfl
  | some labels =>
    rw [reportOf_some, reportOf_some, arrange_other h,
      Scores.evaluate_other layout (isFull_arrange h)]
    cases Scores.evaluate layout (arrange layout scores) labels <;> rfl

variable {info : PackingMeta} {result : InferenceResult} {name : String} {e : ResultError}

theorem transposed_of_pickOutput {outputName : Option String}
    (h : pickOutput result outputName = .error e) : e.transposed = e := by
  unfold pickOutput at h
  split at h
  · cases h
  · split at h <;> cases h <;> rfl

theorem transposed_of_scoresOf (h : scoresOf info result name = .error e) : e.transposed = e := by
  cases hslots : result.outputs.get? name with
  | none =>
    rw [scoresOf_eq_noSuchOutput.2 ⟨hslots, rfl⟩] at h
    cases h
    rfl
  | some slots =>
    rw [scoresOf_eq hslots] at h
    split_ifs at h
    · cases h
      rfl
    · obtain ⟨e', -, rfl⟩ := mapError_eq_error_iff.1 h
      rfl

/-- The summaries of a result in the two layouts differ in nothing else. -/
theorem ofResult_other (layout : ScoreLayout) (labels : Option (List Nat))
    (outputName : Option String) :
    Summary.ofResult info layout.other labels outputName result =
      ((Summary.ofResult info layout labels outputName result).map fun s =>
        { s with layout := layout.other }).mapError ResultError.transposed := by
  simp only [Summary.ofResult, bind, Except.bind]
  cases hpick : pickOutput result outputName with
  | error e => exact congrArg Except.error (transposed_of_pickOutput hpick).symm
  | ok output =>
    dsimp only
    cases hscores : scoresOf info result output with
    | error e => exact congrArg Except.error (transposed_of_scoresOf hscores).symm
    | ok scores =>
      obtain ⟨-, -, -, -, -, hfull⟩ := scoresOf_eq_ok hscores
      dsimp only
      rw [reportOf_other hfull]
      cases reportOf layout scores labels <;> rfl

/-- With a label for each example no layout is refused. -/
theorem transposed_of_reportOf {labels : Option (List Nat)}
    (hlabels : ∀ list, labels = some list → list.length = info.batchSize)
    (hscores : scoresOf info result name = .ok scores)
    (h : reportOf layout scores labels = .error e) : e.transposed = e := by
  cases labels with
  | none => cases h
  | some labels =>
    obtain ⟨-, -, hrows, hcols, -, hfull⟩ := scoresOf_eq_ok hscores
    have hexamples : layout.examples (arrange layout scores) = labels.length := by
      rw [examples_arrange, hrows, hlabels labels rfl]
    have hclasses : layout.classes (arrange layout scores) ≠ 0 := by rwa [classes_arrange]
    rw [reportOf_some] at h
    obtain ⟨e', he', rfl⟩ := mapError_eq_error_iff.1 h
    cases hevaluate : Scores.evaluate layout (arrange layout scores) labels with
    | ok r =>
      rw [hevaluate] at he'
      cases he'
    | error e'' =>
      rw [hevaluate] at he'
      obtain rfl := Except.error.inj he'
      cases e'' with
      | layoutMismatch =>
        exact absurd hevaluate
          (Scores.evaluate_ne_layoutMismatch (isFull_arrange hfull) hexamples hclasses)
      | _ => rfl

theorem ofResult_other_of_labels {labels : Option (List Nat)}
    (hlabels : ∀ list, labels = some list → list.length = info.batchSize)
    (outputName : Option String) :
    Summary.ofResult info layout.other labels outputName result =
      (Summary.ofResult info layout labels outputName result).map fun s =>
        { s with layout := layout.other } := by
  rw [ofResult_other]
  cases hresult : Summary.ofResult info layout labels outputName result with
  | ok s => rfl
  | error e =>
    have he : e.transposed = e := by
      rcases bind_eq_error_iff.1 hresult with hpick | ⟨output, -, hresult⟩
      · exact transposed_of_pickOutput hpick
      rcases bind_eq_error_iff.1 hresult with hscores | ⟨scores, hscores, hresult⟩
      · exact transposed_of_scoresOf hscores
      rcases bind_eq_error_iff.1 hresult with hreport | ⟨report, -, hresult⟩
      · exact transposed_of_reportOf hlabels hscores hreport
      · cases hresult
    exact congrArg Except.error he

/-- The lines for a reader do not depend on the layout. -/
theorem toText_of_layout (s : Summary) (layout : ScoreLayout) :
    Summary.toText { s with layout := layout } false = s.toText false := by
  simp only [Summary.toText, Bool.false_eq_true, if_false]
  rfl

theorem conclude_other {o : Options} {p : Preparation} (hjson : o.json = false)
    (hlabels : ∀ list, p.labels = some list → list.length = p.info.batchSize)
    (outcome : Except ClientError InferenceResult) :
    conclude { o with resultLayout := o.resultLayout.other } p outcome = conclude o p outcome := by
  cases outcome with
  | error e => rfl
  | ok result =>
    simp only [conclude, ofResult_other_of_labels hlabels, hjson, Except.mapError, bind,
      Except.bind]
    cases Summary.ofResult p.info o.resultLayout p.labels o.outputName result with
    | error e => rfl
    | ok s => exact congrArg Except.ok (toText_of_layout s _)

/-- The report counts the examples whose label is predicted. -/
theorem top1Correct_eq {labels : List Nat} {r : AccuracyReport} (h : scores.IsFull)
    (hr : Scores.evaluate layout (arrange layout scores) labels = .ok r) :
    (predictions scores).length = labels.length ∧
      r.top1Correct = ((predictions scores).zip labels).countP fun x => x.1 = x.2 := by
  obtain ⟨hexamples, -, hsound, rfl⟩ := (Scores.evaluate_eq_ok_iff (isFull_arrange h)).1 hr
  rw [ScoreLayout.batch, rows_arrange h] at hsound ⊢
  rw [examples_arrange] at hexamples
  refine ⟨?_, ?_⟩
  · rw [predictions, List.length_map, scores.length_toRows, hexamples]
  · rw [predictions, List.zip_map_left, List.countP_map]
    refine List.countP_congr fun x hx => ?_
    have hbest := Scores.best?_getD_eq_iff (hsound x hx).1
    simp [hbest]

end

/-- Predictions and accuracy are about the same scores.  The transposed scores are evaluated alike
in the other layout, also where they make a square; so the summaries of a result in the two layouts
have the same scores, predictions and report, a run that has a label for each example says the same
to a reader, and the report counts the examples whose label is predicted. -/
theorem predictions_of_layout :
    (∀ m : Matrix, m.IsFull → ∀ labels,
      Scores.evaluate .classByBatch m.transpose labels =
        (Scores.evaluate .batchByClass m labels).mapError EvaluationError.transposed) ∧
    (∀ info labels outputName result,
      Summary.ofResult info .classByBatch labels outputName result =
        ((Summary.ofResult info .batchByClass labels outputName result).map fun s =>
          { s with layout := .classByBatch }).mapError ResultError.transposed) ∧
    (∀ (o : Options) (p : Preparation) (outcome : Except ClientError InferenceResult),
      o.json = false → (∀ labels, p.labels = some labels → labels.length = p.info.batchSize) →
        conclude { o with resultLayout := .classByBatch } p outcome =
          conclude { o with resultLayout := .batchByClass } p outcome) ∧
    ∀ info layout labels outputName result s,
      Summary.ofResult info layout (some labels) outputName result = .ok s →
        ∃ r, s.report = some r ∧ (predictions s.scores).length = labels.length ∧
          r.top1Correct = ((predictions s.scores).zip labels).countP fun x => x.1 = x.2 := by
  refine ⟨fun m hm labels => Scores.evaluate_other .batchByClass hm labels,
    fun info labels outputName result => ofResult_other .batchByClass labels outputName,
    ?_, ?_⟩
  · intro o p outcome hjson hlabels
    exact conclude_other (o := { o with resultLayout := .batchByClass }) hjson hlabels outcome
  · intro info layout labels outputName result s hs
    obtain ⟨output, -, hs⟩ := exists_of_bind_eq_ok hs
    obtain ⟨scores, hscores, hs⟩ := exists_of_bind_eq_ok hs
    obtain ⟨report, hreport, hs⟩ := exists_of_bind_eq_ok hs
    obtain rfl := Except.ok.inj hs
    obtain ⟨-, -, -, -, -, hfull⟩ := scoresOf_eq_ok hscores
    rw [reportOf_some, mapError_eq_ok_iff] at hreport
    cases hevaluate : Scores.evaluate layout (arrange layout scores) labels with
    | error e =>
      rw [hevaluate] at hreport
      cases hreport
    | ok r =>
      rw [hevaluate] at hreport
      obtain rfl := Except.ok.inj hreport
      exact ⟨r, rfl, top1Correct_eq hfull hevaluate⟩

/-- Two examples with two classes, one of which is predicted right. -/
theorem predictions_of_layout_square :
    let m : Matrix := ⟨2, 2, [1, 2, 4, 3].map .ofNat⟩
    let report : AccuracyReport := .ofCounts 2 1 2
    let s : Summary := ⟨"I", "y", .batchByClass, m, some report⟩
    let info : PackingMeta := ⟨2, [1], .rowMajor, .one⟩
    let result : InferenceResult := ⟨"I", NameMap.empty.insert "y" (.real m.data)⟩
    let o : Options := ⟨"in.json", none, none, "localhost", 1, none, none, none, none, none, none,
      "x", none, .rowMajor, .batchByClass, 1, none, 0, 1, false⟩
    let p : Preparation := ⟨⟨2, .empty, .empty, .empty, .empty, none⟩, info, some [1, 1]⟩
    m.IsFull ∧ Scores.evaluate .classByBatch m.transpose [1, 1] = .ok report ∧
      Summary.ofResult info .batchByClass (some [1, 1]) none result = .ok s ∧
      Summary.ofResult info .classByBatch (some [1, 1]) none result =
        .ok { s with layout := .classByBatch } ∧
      ((predictions m).zip [1, 1]).countP (fun x => x.1 = x.2) = 1 ∧
      conclude { o with resultLayout := .classByBatch } p (.ok result) =
        conclude { o with resultLayout := .batchByClass } p (.ok result) := by
  intro m report s info result o p
  obtain ⟨hevaluate, hresult, hconclude, hcount⟩ := predictions_of_layout
  have hm : m.IsFull := by decide
  have hreport : Scores.evaluate .batchByClass m [1, 1] = .ok report := by
    rw [Scores.evaluate_of_isSound hm (by decide) rfl (by decide) (by decide)]
    decide +kernel
  have hs : Summary.ofResult info .batchByClass (some [1, 1]) none result = .ok s := by
    have hscores : scoresOf info result "y" = .ok m := by decide +kernel
    have hpick : pickOutput result none = .ok "y" := by decide +kernel
    have hreported : reportOf .batchByClass m (some [1, 1]) = .ok (some report) := by
      rw [reportOf_some, arrange, hreport]
      rfl
    simp only [Summary.ofResult, hpick, hscores, hreported, bind, Except.bind]
    rfl
  obtain ⟨r, hr, -, htop1⟩ := hcount info .batchByClass [1, 1] none result s hs
  obtain rfl : report = r := Option.some.inj hr
  refine ⟨hm, ?_, hs, ?_, htop1.symm, hconclude o p (.ok result) rfl ?_⟩
  · rw [hevaluate m hm [1, 1], hreport]
    rfl
  · rw [hresult info (some [1, 1]) none result, hs]
    rfl
  · rintro labels ⟨⟩
    rfl

/-! ## Signs of zeros -/

section

open Scores

/-- Predictions do not change with the signs of zeros if no best class has overtaken another one. -/
theorem predictions_canonical_iff (scores : Matrix) :
    predictions scores.canonical = predictions scores ↔
      ∀ row ∈ scores.toRows, ∀ c, best? row = some c → ∀ d, ¬ Overtakes row c d := by
  rw [predictions, predictions, Matrix.toRows_canonical, List.map_map, List.map_inj_left]
  exact forall₂_congr fun row _ => best?_canonical_iff row

/-- How ties are ranked.  Of two classes with the same number as their score, the one with the lower
index comes first; but a zero overtakes the negative zeros before it, and then the one with the
higher index comes first.  So the signs of zeros matter to a ranking where a class overtakes another
one, to a prediction where the best class does, and to a report where a label does or is
overtaken. -/
theorem outcome_of_ties (scores : List Double) (layout : ScoreLayout) (m : Matrix)
    (labels : List Nat) :
    (∀ a b, a < b → b < scores.length → (score scores a).units = (score scores b).units →
      ((∀ k, b ∈ topK scores k → ComesFirst (topK scores k) a b) ↔ ¬ Overtakes scores b a)) ∧
    (∀ k a b, Overtakes scores b a → a ∈ topK scores k → ComesFirst (topK scores k) b a) ∧
    ((∀ k, topK (scores.map Double.canonical) k = topK scores k) ↔
      ∀ c d, ¬ Overtakes scores d c) ∧
    (predictions m.canonical = predictions m ↔
      ∀ row ∈ m.toRows, ∀ c, best? row = some c → ∀ d, ¬ Overtakes row c d) ∧
    (m.IsFull →
      (evaluate layout m.canonical labels = (evaluate layout m labels).map fun r =>
        .ofCounts r.examples (unsignedHits 1 (layout.batch m labels))
          (unsignedHits 5 (layout.batch m labels))) ∧
      ((∀ row ∈ layout.rows m, ∀ c d, ¬ Overtakes row d c) →
        evaluate layout m.canonical labels = evaluate layout m labels)) := by
  refine ⟨fun a b hab hb htie => comesFirst_of_tie_iff hab hb htie, ?_, topK_canonical_iff,
    predictions_canonical_iff m,
    fun hm => ⟨evaluate_canonical hm, evaluate_canonical_of_not_overtakes hm⟩⟩
  intro k a b hovertakes ha
  exact comesFirst_topK_iff.2 ⟨hovertakes.lt, ha, hovertakes.precedes⟩

/-- Two ones, the second of them behind; a zero and a negative zero in this order, and the other way
round. -/
theorem outcome_of_ties_two :
    let ones : List Double := [.ofNat 1, .ofNat 1]
    let zeros : List Double := [.minusZero, .zero]
    let m : Matrix := ⟨1, 2, [.zero, .minusZero]⟩
    ComesFirst (topK ones 2) 0 1 ∧ ComesFirst (topK zeros 2) 1 0 ∧
      predictions m.canonical = predictions m ∧
      evaluate .batchByClass m.canonical [0] = evaluate .batchByClass m [0] := by
  intro ones zeros m
  obtain ⟨hfirst, -, -, hpredictions, hevaluate⟩ := outcome_of_ties ones .batchByClass m [0]
  obtain ⟨-, hovertaken, -⟩ := outcome_of_ties zeros .batchByClass m [0]
  have hnone : ∀ c d, ¬ Overtakes [.zero, .minusZero] d c := by
    have hbelow : ∀ d < 2, ∀ c < 2, ¬ Overtakes [.zero, .minusZero] d c := by decide
    exact fun c d h => hbelow d h.lt c (h.behind.trans h.lt) h
  have hrow : ∀ row ∈ m.toRows, ∀ c d, ¬ Overtakes row d c := by
    intro row hrow
    obtain rfl := List.mem_singleton.1 hrow
    exact hnone
  refine ⟨(hfirst 0 1 (by decide) (by decide) rfl).2 (by decide) 2 (mem_topK.2 (by decide)),
    hovertaken 2 0 1 (by decide) (mem_topK.2 (by decide)), hpredictions.2 ?_,
    (hevaluate (by decide)).2 hrow⟩
  exact fun row h c _ d => hrow row h d c

/-- A zero overtakes a negative zero, and the prediction and the report change with its sign. -/
theorem outcome_of_minusZero :
    let scores : List Double := [.minusZero, .zero]
    let m : Matrix := ⟨1, 2, scores⟩
    (score scores 0).units = (score scores 1).units ∧ 1 ∈ topK scores 1 ∧ 0 ∉ topK scores 1 ∧
      predictions m = [1] ∧ predictions m.canonical = [0] ∧
      evaluate .batchByClass m [0] = .ok (.ofCounts 1 0 1) ∧
      evaluate .batchByClass m.canonical [0] = .ok (.ofCounts 1 1 1) := by
  intro scores m
  have hm : m.IsFull := rfl
  have hbest : best? scores = some 1 := best?_eq_some_iff.2 (by decide)
  have hcanonical : best? (scores.map Double.canonical) = some 0 := best?_eq_some_iff.2 (by decide)
  have hlast : 0 ∉ topK scores 1 := fun h => absurd (mem_topK.1 h) (by decide)
  refine ⟨by decide, mem_topK.2 (by decide), hlast, ?_, ?_, ?_, ?_⟩
  · show [(best? scores).getD 0] = [1]
    rw [hbest]
    rfl
  · show [(best? (scores.map Double.canonical)).getD 0] = [0]
    rw [hcanonical]
    rfl
  · exact (evaluate_of_isSound hm (by decide) rfl (by decide) (by decide)).trans (by decide +kernel)
  · exact (evaluate_of_isSound (Matrix.isFull_canonical hm) (by decide) rfl (by decide)
      (by decide)).trans (by decide +kernel)

end

end CommandLine

end EncryptedInference
