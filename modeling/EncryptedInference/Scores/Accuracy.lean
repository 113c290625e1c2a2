import EncryptedInference.Scores.Layout
import EncryptedInference.Scores.Ranking
import EncryptedInference.Tensor.View
/-!
# Accuracy of scores

How often the label of an example has the best score, and how often it is among the five best. The
layout of the score matrix is declared, checked against the number of labels, and never guessed.
-/

namespace EncryptedInference

/-- Why scores or labels cannot be evaluated. -/
inductive EvaluationError
  | layoutMismatch (layout : ScoreLayout) (rows cols labels : Nat)
  | emptyBatch
  | labelOutOfRange (index label classes : Nat)
  | nonFiniteScore (index score : Nat)
  | invalidOneHot (row : Nat)
  deriving DecidableEq

namespace EvaluationError

def message : EvaluationError → String
  | layoutMismatch layout rows cols labels =>
    "score matrix of shape " ++ toString rows ++ "x" ++ toString cols ++
      " does not match declared layout " ++ layout.toText ++ " with " ++ toString labels ++
      " labels"
  | emptyBatch => "no examples to evaluate"
  | labelOutOfRange i label classes =>
    "label " ++ toString label ++ " of example " ++ toString i ++ " is out of range for " ++
      toString classes ++ " classes"
  | nonFiniteScore i c =>
    "non-finite score for example " ++ toString i ++ ", class " ++ toString c
  | invalidOneHot row => "row " ++ toString row ++ " is not a one-hot vector"

end EvaluationError

/-- How well scores agree with labels. -/
structure AccuracyReport where
  examples : Nat
  top1Correct : Nat
  top5Correct : Nat
  top1 : Double
  top5 : Double
  deriving DecidableEq

namespace AccuracyReport

/-- A share in percent, with two places. -/
def percent (x : Double) : String := (x.times 100).fixed 2

def toText (r : AccuracyReport) : String :=
  let line (name : String) (share : Double) (correct : Nat) :=
    name ++ " accuracy: " ++ percent share ++ "% (" ++ toString correct ++ "/" ++
      toString r.examples ++ ")"
  line "top-1" r.top1 r.top1Correct ++ ", " ++ line "top-5" r.top5 r.top5Correct

def toJson (r : AccuracyReport) : Json :=
  .ofFields [("examples", .nat r.examples), ("top1_correct", .nat r.top1Correct),
    ("top5_correct", .nat r.top5Correct), ("top1", .double r.top1), ("top5", .double r.top5)]

/-- The report for counts of examples. -/
def ofCounts (examples top1Correct top5Correct : Nat) : AccuracyReport :=
  ⟨examples, top1Correct, top5Correct, .quotient top1Correct examples,
    .quotient top5Correct examples⟩

end AccuracyReport

namespace Scores

/-- How many of the best scores may hold the label. -/
def nearMisses : Nat := 5

/-- The scores with one row per example, if they have the declared layout for so many labels. -/
def orient (layout : ScoreLayout) (m : Matrix) (labels : Nat) : Except EvaluationError Matrix :=
  let mismatch := .error (.layoutMismatch layout m.rows m.cols labels)
  let axis := match layout with
    | .batchByClass => m.rows
    | .classByBatch => m.cols
  if axis ≠ labels then mismatch
  else
    let byExample := match layout with
      | .batchByClass => m
      | .classByBatch => m.transpose
    if byExample.cols = 0 then mismatch else .ok byExample

/-- Whether the label of an example has the best score, and whether it is near. -/
def judge (classes index label : Nat) (row : List Double) : Except EvaluationError (Bool × Bool) :=
  if classes ≤ label then .error (.labelOutOfRange index label classes)
  else
    match row.findIdx? (fun s => !s.isFinite) with
    | some c => .error (.nonFiniteScore index c)
    | none =>
      let nearest := topK row nearMisses
      .ok (nearest.head? = some label, nearest.contains label)

/-- The verdicts on examples, numbered from `index`, up to the first error. -/
def judgeAll (classes : Nat) : Nat → List (List Double × Nat) →
    Except EvaluationError (List (Bool × Bool))
  | _, [] => .ok []
  | index, (row, label) :: rest => do
    let verdict ← judge classes index label row
    let verdicts ← judgeAll classes (index + 1) rest
    return verdict :: verdicts

/-- Compares the scores of a batch with its labels. -/
def evaluate (layout : ScoreLayout) (m : Matrix) (labels : List Nat) :
    Except EvaluationError AccuracyReport :=
  if labels.isEmpty then .error .emptyBatch
  else do
    let byExample ← orient layout m labels.length
    let verdicts ← judgeAll byExample.cols 0 (byExample.toRows.zip labels)
    return .ofCounts labels.length (verdicts.countP (·.1)) (verdicts.countP (·.2))

/-! ## One-hot labels -/

/-- The class of a row: its best score, which has to be positive. -/
def labelOfRow? (row : List Double) : Option Nat :=
  (best? row).filter fun i => (score row i).isPositive

/-- The classes of rows, numbered from `index`, up to the first row without one. -/
def labelsOfRows : Nat → List (List Double) → Except EvaluationError (List Nat)
  | _, [] => .ok []
  | index, row :: rest => do
    let label ← match labelOfRow? row with
      | some label => .ok label
      | none => .error (.invalidOneHot index)
    let labels ← labelsOfRows (index + 1) rest
    return label :: labels

/-- The class of each row of a matrix with one column per class. Without columns, the first row
already has none. -/
def labelsOfOneHot (m : Matrix) : Except EvaluationError (List Nat) :=
  if 0 < m.rows ∧ m.cols = 0 then .error (.invalidOneHot 0) else labelsOfRows 0 m.toRows

/-- Looking at the columns first changes nothing. -/
theorem labelsOfOneHot_eq (m : Matrix) : labelsOfOneHot m = labelsOfRows 0 m.toRows := by
  obtain ⟨rows, cols, data⟩ := m
  match rows, cols with
  | 0, _ => rfl
  | _ + 1, 0 =>
    simp [labelsOfOneHot, labelsOfRows, labelOfRow?, best?, topK, ranking, Matrix.toRows,
      Matrix.pieces]
    rfl
  | _ + 1, _ + 1 => rfl

end Scores

end EncryptedInference
