import EncryptedInference.Scores.Accuracy
import EncryptedInference.Proofs.Scores.Ranking
import EncryptedInference.Proofs.Tensor.Matrices

/-!
# What an evaluation reports

Read in its layout, a score matrix with its labels is a list of examples, each with its scores by
class and its label (`ScoreLayout.batch`).  The report counts the examples by the rank of the label
(`Scores.hits`); it depends on nothing else (`Scores.evaluate_eq_ok_iff`), so the order of the
examples does not matter, and the counts of two batches add up.
-/

namespace EncryptedInference

/-! ## Batches -/

namespace ScoreLayout

variable (layout : ScoreLayout) (m : Matrix)

/-- How many examples the matrix has scores of. -/
def examples : Nat :=
  match layout with
  | batchByClass => m.rows
  | classByBatch => m.cols

/-- How many classes the matrix has scores of. -/
def classes : Nat :=
  match layout with
  | batchByClass => m.cols
  | classByBatch => m.rows

/-- The score of class `c` of example `i`. -/
def score (i c : Nat) : Double :=
  match layout with
  | batchByClass => m.get i c
  | classByBatch => m.get c i

/-- The scores of each example, by class. -/
def rows : List (List Double) :=
  (List.range (layout.examples m)).map fun i =>
    (List.range (layout.classes m)).map (layout.score m i)

/-- The examples, each with its scores by class and its label. -/
def batch (labels : List Nat) : List (List Double × Nat) := (layout.rows m).zip labels

variable {layout m} {labels : List Nat}

theorem length_of_mem_batch {x : List Double × Nat} (h : x ∈ layout.batch m labels) :
    x.1.length = layout.classes m := by
  obtain ⟨i, -, hrow⟩ := List.mem_map.1 (List.of_mem_zip h).1
  rw [← hrow, List.length_map, List.length_range]

theorem length_batch (h : layout.examples m = labels.length) :
    (layout.batch m labels).length = labels.length := by
  simp [batch, rows, h]

end ScoreLayout

namespace Scores

/-! ## Examples -/

/-- The label is one of the classes, and all scores are finite. -/
def IsSound (x : List Double × Nat) : Prop := x.2 < x.1.length ∧ ∀ s ∈ x.1, s.isFinite = true

instance (x : List Double × Nat) : Decidable (IsSound x) := inferInstanceAs (Decidable (_ ∧ _))

/-- What is wrong with example `i`: its label, or else the first score that is not finite. -/
inductive IsFault (i : Nat) : List Double × Nat → EvaluationError → Prop
  | label {row : List Double} {label : Nat} (h : row.length ≤ label) :
      IsFault i (row, label) (.labelOutOfRange i label row.length)
  | score {row : List Double} {label c : Nat} (h : label < row.length) (hc : c < row.length)
      (hbad : (score row c).isFinite = false) (hleast : ∀ d < c, (score row d).isFinite = true) :
      IsFault i (row, label) (.nonFiniteScore i c)

/-- How many labels have a rank below `k`. -/
def hits (k : Nat) (batch : List (List Double × Nat)) : Nat :=
  batch.countP fun x => rank x.1 x.2 < k

/-- The report on a batch of sound examples. -/
def reportOn (batch : List (List Double × Nat)) : AccuracyReport :=
  .ofCounts batch.length (hits 1 batch) (hits 5 batch)

theorem findIdx?_eq_some_iff {row : List Double} {c : Nat} :
    row.findIdx? (fun s => !s.isFinite) = some c ↔
      c < row.length ∧ (score row c).isFinite = false ∧
        ∀ d < c, (score row d).isFinite = true := by
  rw [List.findIdx?_eq_some_iff_getElem]
  constructor
  · rintro ⟨hc, hbad, hleast⟩
    refine ⟨hc, by simpa [score, hc] using hbad, fun d hd => ?_⟩
    simpa [score, hd.trans hc] using hleast d hd
  · rintro ⟨hc, hbad, hleast⟩
    refine ⟨hc, by simpa [score, hc] using hbad, fun d hd => ?_⟩
    simpa [score, hd.trans hc] using hleast d hd

theorem isSound_or_isFault (i : Nat) (x : List Double × Nat) : IsSound x ∨ ∃ e, IsFault i x e := by
  obtain ⟨row, label⟩ := x
  by_cases hlabel : label < row.length
  · cases hbad : row.findIdx? (fun s => !s.isFinite) with
    | none =>
      left
      refine ⟨hlabel, fun s hs => ?_⟩
      simpa using List.findIdx?_eq_none_iff.1 hbad s hs
    | some c =>
      right
      obtain ⟨hc, hbad, hleast⟩ := findIdx?_eq_some_iff.1 hbad
      exact ⟨_, .score hlabel hc hbad hleast⟩
  · exact Or.inr ⟨_, .label (Nat.le_of_not_lt hlabel)⟩

/-- All examples are sound, or there is a first one that is not. -/
theorem forall_isSound_or_isFault (batch : List (List Double × Nat)) :
    (∀ x ∈ batch, IsSound x) ∨
      ∃ i x e, batch[i]? = some x ∧ IsFault i x e ∧
        ∀ j < i, ∀ y, batch[j]? = some y → IsSound y := by
  cases hfirst : batch.findIdx? (fun x => ¬ IsSound x) with
  | none =>
    left
    intro x hx
    simpa using List.findIdx?_eq_none_iff.1 hfirst x hx
  | some i =>
    right
    obtain ⟨hi, hunsound, hbefore⟩ := List.findIdx?_eq_some_iff_getElem.1 hfirst
    obtain ⟨e, hfault⟩ := (isSound_or_isFault i batch[i]).resolve_left (by simpa using hunsound)
    refine ⟨i, _, e, List.getElem?_eq_getElem hi, hfault, fun j hj y hy => ?_⟩
    obtain ⟨-, rfl⟩ := List.getElem?_eq_some_iff.1 hy
    simpa using hbefore j hj

theorem judge_of_isSound {x : List Double × Nat} (h : IsSound x) (i : Nat) :
    judge x.1.length i x.2 x.1 = .ok (decide (rank x.1 x.2 < 1), decide (rank x.1 x.2 < 5)) := by
  obtain ⟨hlabel, hfinite⟩ := h
  have hnone : x.1.findIdx? (fun s => !s.isFinite) = none :=
    List.findIdx?_eq_none_iff.2 fun s hs => by simp [hfinite s hs]
  have hbest : (topK x.1 nearMisses).head? = some x.2 ↔ rank x.1 x.2 < 1 := by
    rw [head?_topK (by decide), Nat.lt_one_iff]
    exact and_iff_right hlabel
  have hnear : x.2 ∈ topK x.1 nearMisses ↔ rank x.1 x.2 < 5 := mem_topK.trans (and_iff_right hlabel)
  simp [judge, Nat.not_le_of_lt hlabel, hnone, hbest, hnear]

theorem judge_of_isFault {i : Nat} {x : List Double × Nat} {e : EvaluationError}
    (h : IsFault i x e) : judge x.1.length i x.2 x.1 = .error e := by
  cases h with
  | label h => exact if_pos h
  | @score row label c h hc hbad hleast =>
    have hfirst : row.findIdx? (fun s => !s.isFinite) = some c :=
      findIdx?_eq_some_iff.2 ⟨hc, hbad, hleast⟩
    simp [judge, Nat.not_le_of_lt h, hfirst]

/-! ## Example after example -/

section

variable {classes : Nat} {batch : List (List Double × Nat)}

theorem judgeAll_of_isSound (hclasses : ∀ x ∈ batch, x.1.length = classes)
    (h : ∀ x ∈ batch, IsSound x) (index : Nat) :
    judgeAll classes index batch =
      .ok (batch.map fun x => (decide (rank x.1 x.2 < 1), decide (rank x.1 x.2 < 5))) := by
  induction batch generalizing index with
  | nil => rfl
  | cons x batch ih =>
    obtain ⟨hlength, hclasses⟩ := List.forall_mem_cons.1 hclasses
    obtain ⟨hx, h⟩ := List.forall_mem_cons.1 h
    have hjudge := judge_of_isSound hx index
    rw [hlength] at hjudge
    rw [judgeAll, hjudge, ih hclasses h]
    rfl

/-- The first example that is not sound is the one that is reported. -/
theorem judgeAll_of_isFault (hclasses : ∀ x ∈ batch, x.1.length = classes) {index i : Nat}
    {x : List Double × Nat} {e : EvaluationError} (hx : batch[i]? = some x)
    (hfault : IsFault (index + i) x e) (h : ∀ j < i, ∀ y, batch[j]? = some y → IsSound y) :
    judgeAll classes index batch = .error e := by
  induction batch generalizing index i with
  | nil => cases hx
  | cons y batch ih =>
    obtain ⟨hlength, hclasses⟩ := List.forall_mem_cons.1 hclasses
    cases i with
    | zero =>
      obtain rfl : y = x := Option.some.inj hx
      have hjudge := judge_of_isFault hfault
      rw [hlength, Nat.add_zero] at hjudge
      rw [judgeAll, hjudge]
      rfl
    | succ i =>
      have hjudge := judge_of_isSound (h 0 (Nat.succ_pos i) y rfl) index
      rw [hlength] at hjudge
      have hrest : judgeAll classes (index + 1) batch = .error e := by
        refine ih hclasses hx ?_ fun j hj => h (j + 1) (Nat.succ_lt_succ hj)
        rwa [Nat.add_assoc, Nat.add_comm 1]
      rw [judgeAll, hjudge, hrest]
      rfl

end

/-! ## The evaluation -/

section

variable {layout : ScoreLayout} {m : Matrix} {labels : List Nat}

theorem orient_of_mismatch {n : Nat} (h : layout.examples m ≠ n ∨ layout.classes m = 0) :
    orient layout m n = .error (.layoutMismatch layout m.rows m.cols n) := by
  unfold orient
  cases layout <;> exact ite_eq_left_iff.2 fun hfits => if_pos (h.resolve_left hfits)

theorem orient_of_fits (hclasses : layout.classes m ≠ 0) :
    ∃ byExample, orient layout m (layout.examples m) = .ok byExample ∧
      byExample.cols = layout.classes m ∧ (m.IsFull → byExample.toRows = layout.rows m) := by
  unfold orient
  cases layout with
  | batchByClass =>
    exact ⟨m, (if_neg (not_not.2 rfl)).trans (if_neg hclasses), rfl, Matrix.toRows_of_full⟩
  | classByBatch =>
    exact ⟨m.transpose, (if_neg (not_not.2 rfl)).trans (if_neg hclasses), rfl,
      fun _ => m.toRows_transpose⟩

theorem evaluate_nil : evaluate layout m [] = .error .emptyBatch := rfl

theorem evaluate_of_mismatch (hlabels : labels ≠ [])
    (h : layout.examples m ≠ labels.length ∨ layout.classes m = 0) :
    evaluate layout m labels = .error (.layoutMismatch layout m.rows m.cols labels.length) := by
  rw [evaluate, if_neg (by simpa using hlabels), orient_of_mismatch h]
  rfl

theorem evaluate_of_fits (hm : m.IsFull) (hlabels : labels ≠ [])
    (hexamples : layout.examples m = labels.length) (hclasses : layout.classes m ≠ 0) :
    evaluate layout m labels =
      (judgeAll (layout.classes m) 0 (layout.batch m labels)).map fun verdicts =>
        .ofCounts labels.length (verdicts.countP (·.1)) (verdicts.countP (·.2)) := by
  obtain ⟨byExample, horient, hcols, hrows⟩ := orient_of_fits hclasses
  rw [evaluate, if_neg (by simpa using hlabels), ← hexamples, horient, ← hcols, ScoreLayout.batch,
    ← hrows hm]
  rfl

/-- If all examples are sound, they are counted by the ranks of their labels. -/
theorem evaluate_of_isSound (hm : m.IsFull) (hlabels : labels ≠ [])
    (hexamples : layout.examples m = labels.length) (hclasses : layout.classes m ≠ 0)
    (h : ∀ x ∈ layout.batch m labels, IsSound x) :
    evaluate layout m labels = .ok (reportOn (layout.batch m labels)) := by
  rw [evaluate_of_fits hm hlabels hexamples hclasses,
    judgeAll_of_isSound (fun x hx => ScoreLayout.length_of_mem_batch hx) h, reportOn,
    ScoreLayout.length_batch hexamples]
  simp [Except.map, hits, List.countP_map, Function.comp_def]

/-- The first example that is not sound is reported. -/
theorem evaluate_of_isFault (hm : m.IsFull) (hexamples : layout.examples m = labels.length)
    (hclasses : layout.classes m ≠ 0) {i : Nat} {x : List Double × Nat} {e : EvaluationError}
    (hx : (layout.batch m labels)[i]? = some x) (hfault : IsFault i x e)
    (h : ∀ j < i, ∀ y, (layout.batch m labels)[j]? = some y → IsSound y) :
    evaluate layout m labels = .error e := by
  have hlabels : labels ≠ [] := by
    rintro rfl
    simp [ScoreLayout.batch] at hx
  have hjudge : judgeAll (layout.classes m) 0 (layout.batch m labels) = .error e :=
    judgeAll_of_isFault (fun x hx => ScoreLayout.length_of_mem_batch hx) hx
      (by rwa [Nat.zero_add]) h
  rw [evaluate_of_fits hm hlabels hexamples hclasses, hjudge]
  rfl

/-- There is a report on a batch with examples that are all sound, and it depends on nothing but the
examples. -/
theorem evaluate_eq_ok_iff (hm : m.IsFull) {r : AccuracyReport} :
    evaluate layout m labels = .ok r ↔
      layout.examples m = labels.length ∧ layout.batch m labels ≠ [] ∧
        (∀ x ∈ layout.batch m labels, IsSound x) ∧ r = reportOn (layout.batch m labels) := by
  constructor
  · intro h
    have hlabels : labels ≠ [] := by
      rintro rfl
      cases h
    have hfits : layout.examples m = labels.length ∧ layout.classes m ≠ 0 := by
      by_contra hmismatch
      rw [not_and_or, not_not] at hmismatch
      rw [evaluate_of_mismatch hlabels hmismatch] at h
      cases h
    obtain ⟨hexamples, hclasses⟩ := hfits
    have hbatch : layout.batch m labels ≠ [] := by
      rw [← List.length_pos_iff, ScoreLayout.length_batch hexamples]
      exact List.length_pos_iff.2 hlabels
    rcases forall_isSound_or_isFault (layout.batch m labels) with
      hsound | ⟨i, x, e, hx, hfault, hbefore⟩
    · rw [evaluate_of_isSound hm hlabels hexamples hclasses hsound] at h
      exact ⟨hexamples, hbatch, hsound, (Except.ok.inj h).symm⟩
    · rw [evaluate_of_isFault hm hexamples hclasses hx hfault hbefore] at h
      cases h
  · rintro ⟨hexamples, hbatch, hsound, rfl⟩
    have hlabels : labels ≠ [] := by
      rintro rfl
      exact hbatch List.zip_nil_right
    obtain ⟨x, hx⟩ := List.exists_mem_of_ne_nil _ hbatch
    have hclasses : layout.classes m ≠ 0 := by
      rw [← ScoreLayout.length_of_mem_batch hx]
      exact Nat.ne_zero_of_lt (hsound x hx).1
    exact evaluate_of_isSound hm hlabels hexamples hclasses hsound

end

/-! ## Counting -/

section

variable {k k' : Nat} {batch batch' : List (List Double × Nat)}

theorem hits_mono (hk : k ≤ k') : hits k batch ≤ hits k' batch :=
  List.countP_mono_left fun x _ h => by
    simp only [decide_eq_true_eq] at *
    omega

theorem hits_of_length_le (hsound : ∀ x ∈ batch, IsSound x) (h : ∀ x ∈ batch, x.1.length ≤ k) :
    hits k batch = batch.length := by
  refine List.countP_eq_length.2 fun x hx => ?_
  have hrank : rank x.1 x.2 < x.1.length := rank_lt (hsound x hx).1
  exact decide_eq_true (hrank.trans_le (h x hx))

theorem reportOn_perm (h : batch'.Perm batch) : reportOn batch' = reportOn batch := by
  rw [reportOn, hits, hits, h.length_eq, h.countP_eq, h.countP_eq]
  rfl

theorem reportOn_append (batch batch' : List (List Double × Nat)) :
    reportOn (batch ++ batch') =
      .ofCounts ((reportOn batch).examples + (reportOn batch').examples)
        ((reportOn batch).top1Correct + (reportOn batch').top1Correct)
        ((reportOn batch).top5Correct + (reportOn batch').top5Correct) := by
  rw [reportOn, hits, hits, List.length_append, List.countP_append, List.countP_append]
  rfl

end

/-- Scores in a layout and labels are refused, or counted by the ranks of the labels; the counts do
not depend on the order of the examples, and those of two batches add up. -/
theorem evaluate_of_ranks (layout : ScoreLayout) {m : Matrix} (hm : m.IsFull) (labels : List Nat) :
    let batch := layout.batch m labels
    (labels = [] → evaluate layout m labels = .error .emptyBatch) ∧
    (labels ≠ [] → layout.examples m ≠ labels.length ∨ layout.classes m = 0 →
      evaluate layout m labels = .error (.layoutMismatch layout m.rows m.cols labels.length)) ∧
    (layout.examples m = labels.length → layout.classes m ≠ 0 →
      ∀ i x e, batch[i]? = some x → IsFault i x e →
        (∀ j < i, ∀ y, batch[j]? = some y → IsSound y) → evaluate layout m labels = .error e) ∧
    (labels ≠ [] → layout.examples m = labels.length → layout.classes m ≠ 0 →
      (∀ x ∈ batch, IsSound x) →
        evaluate layout m labels = .ok (.ofCounts labels.length (hits 1 batch) (hits 5 batch))) ∧
    ∀ r, evaluate layout m labels = .ok r →
      r.top1Correct ≤ r.top5Correct ∧ r.top5Correct ≤ r.examples ∧
      (layout.classes m ≤ 5 → r.top5Correct = r.examples) ∧
      (∀ m' labels', m'.IsFull → layout.examples m' = labels'.length →
        (layout.batch m' labels').Perm batch → evaluate layout m' labels' = .ok r) ∧
      ∀ m₂ labels₂ r₂, m₂.IsFull → evaluate layout m₂ labels₂ = .ok r₂ →
        ∀ m', m'.IsFull → layout.examples m' = (labels ++ labels₂).length →
          layout.batch m' (labels ++ labels₂) = batch ++ layout.batch m₂ labels₂ →
          evaluate layout m' (labels ++ labels₂) =
            .ok (.ofCounts (r.examples + r₂.examples) (r.top1Correct + r₂.top1Correct)
              (r.top5Correct + r₂.top5Correct)) := by
  intro batch
  refine ⟨?_, evaluate_of_mismatch, ?_, ?_, ?_⟩
  · rintro rfl
    exact evaluate_nil
  · intro hexamples hclasses i x e hx hfault hbefore
    exact evaluate_of_isFault hm hexamples hclasses hx hfault hbefore
  · intro hlabels hexamples hclasses hsound
    rw [evaluate_of_isSound hm hlabels hexamples hclasses hsound, reportOn,
      ScoreLayout.length_batch hexamples]
  · intro r hr
    obtain ⟨hexamples, hbatch, hsound, rfl⟩ := (evaluate_eq_ok_iff hm).1 hr
    refine ⟨hits_mono (by decide), List.countP_le_length, fun hclasses => ?_, ?_, ?_⟩
    · refine hits_of_length_le hsound fun x hx => ?_
      rwa [ScoreLayout.length_of_mem_batch hx]
    · intro m' labels' hm' hexamples' hperm
      refine (evaluate_eq_ok_iff hm').2 ⟨hexamples', ?_, ?_, (reportOn_perm hperm).symm⟩
      · exact fun hnil => hbatch (List.Perm.nil_eq (hnil ▸ hperm)).symm
      · exact fun x hx => hsound x (hperm.mem_iff.1 hx)
    · intro m₂ labels₂ r₂ hm₂ hr₂ m' hm' hexamples' happend
      obtain ⟨-, -, hsound₂, rfl⟩ := (evaluate_eq_ok_iff hm₂).1 hr₂
      refine (evaluate_eq_ok_iff hm').2 ⟨hexamples', ?_, ?_, ?_⟩
      · rw [happend]
        exact List.append_ne_nil_of_left_ne_nil hbatch _
      · rw [happend]
        exact fun x hx => (List.mem_append.1 hx).elim (hsound x) (hsound₂ x)
      · rw [happend, reportOn_append]

/-- Three examples, as a batch of two and one of one. -/
theorem evaluate_of_ranks_append :
    let m : Matrix := ⟨2, 2, [1, 2, 4, 3].map .ofNat⟩
    let m₂ : Matrix := ⟨1, 2, [0, 0].map .ofNat⟩
    let m' : Matrix := ⟨3, 2, [1, 2, 4, 3, 0, 0].map .ofNat⟩
    m.IsFull ∧ evaluate .batchByClass m [1, 1] = .ok (.ofCounts 2 1 2) ∧
      evaluate .batchByClass m₂ [0] = .ok (.ofCounts 1 1 1) ∧
      evaluate .batchByClass m' [1, 1, 0] = .ok (.ofCounts 3 2 3) := by
  intro m m₂ m'
  have hm : m.IsFull := by decide
  have hm₂ : m₂.IsFull := by decide
  obtain ⟨-, -, -, hreport, hreports⟩ := evaluate_of_ranks .batchByClass hm [1, 1]
  obtain ⟨-, -, -, hreport₂, -⟩ := evaluate_of_ranks .batchByClass hm₂ [0]
  have hr : evaluate .batchByClass m [1, 1] = .ok (.ofCounts 2 1 2) := by
    have hhits : hits 1 (ScoreLayout.batchByClass.batch m [1, 1]) = 1 ∧
        hits 5 (ScoreLayout.batchByClass.batch m [1, 1]) = 2 := by decide
    rw [hreport (by decide) rfl (by decide) (by decide), hhits.1, hhits.2]
    rfl
  have hr₂ : evaluate .batchByClass m₂ [0] = .ok (.ofCounts 1 1 1) := by
    have hhits : hits 1 (ScoreLayout.batchByClass.batch m₂ [0]) = 1 ∧
        hits 5 (ScoreLayout.batchByClass.batch m₂ [0]) = 1 := by decide
    rw [hreport₂ (by decide) rfl (by decide) (by decide), hhits.1, hhits.2]
    rfl
  obtain ⟨-, -, -, -, happend⟩ := hreports _ hr
  exact ⟨hm, hr, hr₂, happend m₂ [0] _ hm₂ hr₂ m' (by decide) rfl rfl⟩

end Scores

end EncryptedInference
