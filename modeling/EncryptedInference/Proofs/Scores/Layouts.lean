import EncryptedInference.Proofs.Outcomes
import EncryptedInference.Proofs.Scores.Accuracy

/-!
# Layouts exchanged

Scores can be given with the examples as rows or as columns.  The transposed matrix in the other
layout holds the same batch (`ScoreLayout.batch_other`), so it is evaluated alike: with the same
report, or with the same error, which names the shape and the layout that were given
(`Scores.evaluate_other`).
-/

namespace EncryptedInference

namespace ScoreLayout

/-- The layout of the transposed matrix. -/
def other : ScoreLayout → ScoreLayout
  | batchByClass => classByBatch
  | classByBatch => batchByClass

variable (layout : ScoreLayout) (m : Matrix)

@[simp] theorem examples_other : layout.other.examples m.transpose = layout.examples m := by
  cases layout <;> rfl

@[simp] theorem classes_other : layout.other.classes m.transpose = layout.classes m := by
  cases layout <;> rfl

variable {m} {i c : Nat}

theorem score_other (hi : i < layout.examples m) (hc : c < layout.classes m) :
    layout.other.score m.transpose i c = layout.score m i c := by
  cases layout with
  | batchByClass => exact m.get_transpose hi hc
  | classByBatch => exact m.get_transpose hc hi

variable (m)

theorem rows_other : layout.other.rows m.transpose = layout.rows m := by
  rw [rows, rows, examples_other, classes_other]
  refine List.map_congr_left fun i hi => List.map_congr_left fun c hc => ?_
  exact layout.score_other (List.mem_range.1 hi) (List.mem_range.1 hc)

/-- The transposed matrix holds the same examples in the other layout. -/
theorem batch_other (labels : List Nat) :
    layout.other.batch m.transpose labels = layout.batch m labels := by
  rw [batch, batch, rows_other]

end ScoreLayout

namespace EvaluationError

/-- The same error, said about the transposed matrix in the other layout. -/
def transposed : EvaluationError → EvaluationError
  | layoutMismatch layout rows cols labels => layoutMismatch layout.other cols rows labels
  | e => e

end EvaluationError

namespace Scores

variable {layout : ScoreLayout} {m : Matrix} {labels : List Nat}

theorem judgeAll_ne_layoutMismatch {classes index rows cols n : Nat} {layout : ScoreLayout}
    (batch : List (List Double × Nat)) :
    judgeAll classes index batch ≠ .error (.layoutMismatch layout rows cols n) := by
  induction batch generalizing index with
  | nil => nofun
  | cons x batch ih =>
    refine bind_ne_error ?_ fun verdict => bind_ne_error ih nofun
    unfold judge
    split_ifs
    · nofun
    · split <;> nofun

/-- Only a matrix of another shape is said to have another layout. -/
theorem evaluate_ne_layoutMismatch (hm : m.IsFull) (hexamples : layout.examples m = labels.length)
    (hclasses : layout.classes m ≠ 0) {layout' : ScoreLayout} {rows cols n : Nat} :
    evaluate layout m labels ≠ .error (.layoutMismatch layout' rows cols n) := by
  by_cases hlabels : labels = []
  · rw [hlabels, evaluate_nil]
    nofun
  · rw [evaluate_of_fits hm hlabels hexamples hclasses]
    intro h
    cases hverdicts : judgeAll (layout.classes m) 0 (layout.batch m labels) with
    | ok verdicts =>
      rw [hverdicts] at h
      cases h
    | error e =>
      rw [hverdicts] at h
      obtain rfl := Except.error.inj h
      exact judgeAll_ne_layoutMismatch _ hverdicts

/-- The transposed matrix is evaluated alike in the other layout, also if it is a square. -/
theorem evaluate_other (layout : ScoreLayout) (hm : m.IsFull) (labels : List Nat) :
    evaluate layout.other m.transpose labels =
      (evaluate layout m labels).mapError EvaluationError.transposed := by
  by_cases hlabels : labels = []
  · rw [hlabels, evaluate_nil, evaluate_nil]
    rfl
  by_cases hfits : layout.examples m = labels.length ∧ layout.classes m ≠ 0
  · obtain ⟨hexamples, hclasses⟩ := hfits
    have hother : evaluate layout.other m.transpose labels = evaluate layout m labels := by
      rw [evaluate_of_fits hm hlabels hexamples hclasses,
        evaluate_of_fits m.isFull_transpose hlabels (by rwa [ScoreLayout.examples_other])
          (by rwa [ScoreLayout.classes_other]), ScoreLayout.classes_other,
        ScoreLayout.batch_other]
    rw [hother]
    cases hevaluate : evaluate layout m labels with
    | ok r => rfl
    | error e =>
      cases e with
      | layoutMismatch => exact absurd hevaluate (evaluate_ne_layoutMismatch hm hexamples hclasses)
      | _ => rfl
  · rw [not_and_or, not_not] at hfits
    rw [evaluate_of_mismatch hlabels hfits,
      evaluate_of_mismatch hlabels (by rwa [ScoreLayout.examples_other, ScoreLayout.classes_other])]
    rfl

end Scores

end EncryptedInference
