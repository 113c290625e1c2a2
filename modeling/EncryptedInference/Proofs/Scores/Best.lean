import EncryptedInference.Proofs.Double.Order
import EncryptedInference.Proofs.Scores.Ranking
import Mathlib.Order.Defs.Unbundled

/-!
# The best classes

Whatever the scores are, NaNs and signed zeros included, the classes are in a strict total order,
and they can be sorted in one way only (`Scores.eq_ranking`).  Cut off after `k` places, this gives
the classes of the ranks below `k`, from the best one on: `Scores.topK_of_ranks`.
-/

namespace EncryptedInference.Scores

variable {scores : List Double} {c d : Nat}

/-! ## One order -/

/-- A class comes before another one if its score has the greater key, or the scores are the same
and its own number is lower. -/
theorem precedes_iff_key : Precedes scores d c ↔
    (score scores c).key.slt (score scores d).key = true ∨
      score scores d = score scores c ∧ d < c := by
  rw [Precedes, BitVec.slt_iff_toInt_lt, ← Double.place_eq_toInt, ← Double.place_eq_toInt,
    Double.place_injective.eq_iff]

theorem isStrictTotalOrder_precedes (scores : List Double) :
    IsStrictTotalOrder Nat (Precedes scores) where
  irrefl _ h := h.asymm h
  trans _ _ _ := Precedes.trans
  trichotomous a b hab hba := by
    by_contra hne
    exact (precedes_or_of_ne hne).elim hab hba

theorem outranks_iff_not_precedes (a b : Nat) :
    outranks (score scores a, a) (score scores b, b) = true ↔ ¬ Precedes scores b a := by
  rw [outranks_iff, Precedes]
  dsimp only
  omega

/-- Classes that are sorted in whatever way are in the order of the ranking. -/
theorem eq_ranking {l : List Nat} (hperm : l.Perm (List.range scores.length))
    (hsorted : l.Pairwise fun a b => ¬ Precedes scores b a) : l = ranking scores := by
  refine List.Perm.eq_of_pairwise ?_ hsorted ((pairwise_ranking scores).imp Precedes.asymm)
    (hperm.trans (perm_ranking scores).symm)
  intro a b _ _ hab hba
  by_contra hne
  exact (precedes_or_of_ne hne).elim hba hab

/-! ## Ranks of the best -/

theorem nodup_topK (scores : List Double) (k : Nat) : (topK scores k).Nodup :=
  ((perm_ranking scores).nodup_iff.2 List.nodup_range).sublist (List.take_sublist ..)

theorem length_topK (scores : List Double) (k : Nat) :
    (topK scores k).length = min k scores.length := by
  rw [topK, List.length_take, (perm_ranking scores).length_eq, List.length_range]

/-- The ranks of the best classes are `0`, `1` and so on. -/
theorem map_rank_topK (scores : List Double) (k : Nat) :
    (topK scores k).map (rank scores) = List.range (min k scores.length) := by
  refine List.ext_getElem (by rw [List.length_map, length_topK, List.length_range]) ?_
  intro i hi _
  rw [List.length_map] at hi
  obtain ⟨-, -, hrank⟩ := getElem?_topK.1 (List.getElem?_eq_getElem hi)
  rw [List.getElem_map, List.getElem_range, hrank]

theorem pairwise_topK (scores : List Double) (k : Nat) :
    (topK scores k).Pairwise fun a b => rank scores a < rank scores b := by
  rw [← List.pairwise_map, map_rank_topK]
  exact List.pairwise_lt_range

/-- The keys of the scores, and the numbers of the classes where scores are the same, make a strict
total order, in which the classes can be sorted in one way only.  The `k` best classes are those
whose rank is below `k`, each once and in the order of the ranks, and there are `k` of them if there
are so many classes; fewer of the best are the first of these. -/
theorem topK_of_ranks (scores : List Double) :
    (∀ d c, Precedes scores d c ↔ (score scores c).key.slt (score scores d).key = true ∨
      score scores d = score scores c ∧ d < c) ∧
    IsStrictTotalOrder Nat (Precedes scores) ∧
    (∀ a b, outranks (score scores a, a) (score scores b, b) = true ↔ ¬ Precedes scores b a) ∧
    (∀ l : List Nat, l.Perm (List.range scores.length) →
      (l.Pairwise fun a b => ¬ Precedes scores b a) → ∀ k, topK scores k = l.take k) ∧
    ∀ k,
      (topK scores k).length = min k scores.length ∧ (topK scores k).Nodup ∧
      (∀ c, c ∈ topK scores k ↔ c < scores.length ∧ rank scores c < k) ∧
      ((topK scores k).Pairwise fun a b => rank scores a < rank scores b) ∧
      ∀ j ≤ k, topK scores j <+: topK scores k := by
  refine ⟨fun _ _ => precedes_iff_key, isStrictTotalOrder_precedes scores,
    outranks_iff_not_precedes, ?_, ?_⟩
  · intro l hperm hsorted k
    rw [topK, eq_ranking hperm hsorted]
  · intro k
    exact ⟨length_topK scores k, nodup_topK scores k, fun _ => mem_topK, pairwise_topK scores k,
      fun _ hjk => List.take_prefix_take_left hjk⟩

/-- The greatest NaN, two zeros with a negative zero before them, and the least NaN. -/
theorem topK_of_ranks_nan :
    let scores : List Double := [.minusZero, .zero, .nan, ⟨true, Double.nan.magnitude⟩, .zero]
    topK scores 4 = [2, 1, 4, 0] ∧ topK scores 2 <+: topK scores 4 := by
  intro scores
  obtain ⟨-, -, -, hsorted, hbest⟩ := topK_of_ranks scores
  obtain ⟨-, -, -, -, hfewer⟩ := hbest 4
  exact ⟨hsorted [2, 1, 4, 0, 3] (by decide) (by decide) 4, hfewer 2 (by decide)⟩

end EncryptedInference.Scores
