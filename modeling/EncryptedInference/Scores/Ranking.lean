import EncryptedInference.Double.Basic
/-!
# Ranking scores

`topK` lists the best scores by index: higher in the total order of doubles first, and of equal
scores the one with the lower index.
-/

namespace EncryptedInference.Scores

/-- The score of an index; past the end, zero. -/
def score (scores : List Double) (i : Nat) : Double := scores.getD i .zero

/-- A score with its index comes before another one in the ranking, or is the same. -/
def outranks (a b : Double × Nat) : Bool :=
  b.1.place < a.1.place || (a.1.place = b.1.place && a.2 ≤ b.2)

/-- All indices, best first. -/
def ranking (scores : List Double) : List Nat :=
  (scores.zipIdx.mergeSort outranks).map (·.2)

/-- The indices of the `k` best scores, best first; all of them when there are fewer. -/
def topK (scores : List Double) (k : Nat) : List Nat := (ranking scores).take k

/-- The index of the best score. -/
def best? (scores : List Double) : Option Nat := (topK scores 1).head?

end EncryptedInference.Scores
