import EncryptedInference.Scores.Ranking
import Mathlib.Data.List.Perm.Basic
import Mathlib.Data.List.Range

/-!
# Ranks

A class comes before another one if its score is greater in the total order of doubles, or equal and
its index lower (`Scores.Precedes`).  That is a strict order in which any two classes can be
compared, and the ranking lists the classes in it: at each place stands the class of that rank
(`Scores.getElem?_ranking_eq_some_iff`).
-/

namespace EncryptedInference.Scores

variable {scores : List Double} {c d : Nat}

/-! ## The order of the classes -/

/-- Class `d` comes before class `c` in the ranking. -/
def Precedes (scores : List Double) (d c : Nat) : Prop :=
  (score scores c).place < (score scores d).place ∨
    (score scores d).place = (score scores c).place ∧ d < c

instance (scores : List Double) : DecidableRel (Precedes scores) :=
  fun _ _ => inferInstanceAs (Decidable (_ ∨ _))

theorem Precedes.asymm (h : Precedes scores d c) : ¬ Precedes scores c d := by
  unfold Precedes at *
  omega

theorem Precedes.trans {e : Nat} (hdc : Precedes scores d c) (hce : Precedes scores c e) :
    Precedes scores d e := by
  unfold Precedes at *
  omega

theorem precedes_or_of_ne (h : d ≠ c) : Precedes scores d c ∨ Precedes scores c d := by
  unfold Precedes
  omega

/-- How many classes come before a class. -/
def rank (scores : List Double) (c : Nat) : Nat :=
  (List.range scores.length).countP fun d => Precedes scores d c

/-! ## The ranking -/

theorem perm_ranking (scores : List Double) :
    (ranking scores).Perm (List.range scores.length) := by
  have hperm := (List.mergeSort_perm scores.zipIdx outranks).map (·.2)
  rwa [List.zipIdx_map_snd, ← List.range_eq_range'] at hperm

theorem outranks_iff {a b : Double × Nat} :
    outranks a b = true ↔ b.1.place < a.1.place ∨ a.1.place = b.1.place ∧ a.2 ≤ b.2 := by
  simp [outranks]

theorem outranks_trans (a b c : Double × Nat) (hab : outranks a b) (hbc : outranks b c) :
    outranks a c := by
  rw [outranks_iff] at *
  omega

theorem outranks_total (a b : Double × Nat) : outranks a b || outranks b a := by
  rw [Bool.or_eq_true, outranks_iff, outranks_iff]
  omega

theorem score_of_mem {a : Double × Nat} (h : a ∈ scores.zipIdx) : score scores a.2 = a.1 := by
  rw [score, List.getD_eq_getElem?_getD, List.mem_zipIdx_iff_getElem?.1 h, Option.getD_some]

theorem pairwise_ranking (scores : List Double) : (ranking scores).Pairwise (Precedes scores) := by
  have hsorted := List.pairwise_mergeSort outranks_trans outranks_total scores.zipIdx
  have hnodup := List.pairwise_map.1 ((perm_ranking scores).nodup_iff.2 List.nodup_range)
  refine List.pairwise_map.2 ((hsorted.and hnodup).imp_of_mem ?_)
  intro a b ha hb hab
  have hscore_a := score_of_mem (List.mem_mergeSort.1 ha)
  have hscore_b := score_of_mem (List.mem_mergeSort.1 hb)
  obtain ⟨houtranks, hne⟩ := hab
  rw [outranks_iff] at houtranks
  rw [Precedes, hscore_a, hscore_b]
  omega

/-! ## Places in the ranking -/

/-- In a list that is sorted by a strict order, as many elements come before one as stand before
it. -/
theorem countP_of_pairwise {R : Nat → Nat → Prop} [DecidableRel R]
    (hasymm : ∀ a b, R a b → ¬ R b a) {l : List Nat} (h : l.Pairwise R) {i : Nat}
    (hi : i < l.length) : l.countP (R · l[i]) = i := by
  induction l generalizing i with
  | nil => cases hi
  | cons a l ih =>
    obtain ⟨hfirst, hrest⟩ := List.pairwise_cons.1 h
    cases i with
    | zero =>
      have hnone : ∀ b ∈ a :: l, ¬ R b a := by
        intro b hb hba
        rcases List.mem_cons.1 hb with rfl | hb
        · exact hasymm b b hba hba
        · exact hasymm a b (hfirst b hb) hba
      simpa [List.countP_eq_zero] using hnone
    | succ i =>
      have hlt : i < l.length := Nat.lt_of_succ_lt_succ hi
      have hbefore : R a l[i] := hfirst _ (List.getElem_mem hlt)
      simp [hbefore, ih hrest hlt]

/-- At each place of the ranking stands the class of that rank. -/
theorem getElem?_ranking_eq_some_iff {i : Nat} :
    (ranking scores)[i]? = some c ↔ c < scores.length ∧ rank scores c = i := by
  have hrank : ∀ i (hi : i < (ranking scores).length), rank scores (ranking scores)[i] = i := by
    intro i hi
    rw [rank, ← (perm_ranking scores).countP_eq]
    exact countP_of_pairwise (fun _ _ => Precedes.asymm) (pairwise_ranking scores) hi
  have hmem : c ∈ ranking scores ↔ c < scores.length := by
    rw [(perm_ranking scores).mem_iff, List.mem_range]
  rw [← hmem]
  constructor
  · intro h
    obtain ⟨hi, rfl⟩ := List.getElem?_eq_some_iff.1 h
    exact ⟨List.getElem_mem hi, hrank i hi⟩
  · rintro ⟨hc, rfl⟩
    obtain ⟨i, hi, rfl⟩ := List.getElem_of_mem hc
    rw [hrank i hi, List.getElem?_eq_getElem hi]

theorem rank_lt (hc : c < scores.length) : rank scores c < scores.length := by
  have hplace : (ranking scores)[rank scores c]? = some c :=
    getElem?_ranking_eq_some_iff.2 ⟨hc, rfl⟩
  obtain ⟨hlt, -⟩ := List.getElem?_eq_some_iff.1 hplace
  rwa [(perm_ranking scores).length_eq, List.length_range] at hlt

/-- The ranks are in the order of the classes. -/
theorem rank_lt_iff (hd : d < scores.length) (hc : c < scores.length) :
    rank scores d < rank scores c ↔ Precedes scores d c := by
  have hbefore : ∀ {a b}, a < scores.length → b < scores.length →
      rank scores a < rank scores b → Precedes scores a b := by
    intro a b ha hb hlt
    obtain ⟨hi, hia⟩ := List.getElem?_eq_some_iff.1 (getElem?_ranking_eq_some_iff.2 ⟨ha, rfl⟩)
    obtain ⟨hj, hjb⟩ := List.getElem?_eq_some_iff.1 (getElem?_ranking_eq_some_iff.2 ⟨hb, rfl⟩)
    have hpair := List.pairwise_iff_getElem.1 (pairwise_ranking scores) _ _ hi hj hlt
    rwa [hia, hjb] at hpair
  refine ⟨hbefore hd hc, fun h => ?_⟩
  rcases lt_trichotomy (rank scores d) (rank scores c) with hlt | heq | hlt
  · exact hlt
  · have hplace_d := getElem?_ranking_eq_some_iff.2 ⟨hd, heq⟩
    have hplace_c := getElem?_ranking_eq_some_iff.2 ⟨hc, rfl⟩
    obtain rfl := Option.some.inj (hplace_d.symm.trans hplace_c)
    exact absurd h h.asymm
  · exact absurd (hbefore hc hd hlt) h.asymm

/-- Scores with the same ranks have the same ranking. -/
theorem ranking_eq_iff {scores' : List Double} (h : scores'.length = scores.length) :
    ranking scores' = ranking scores ↔ ∀ c < scores.length, rank scores' c = rank scores c := by
  constructor
  · intro heq c hc
    have hplace : (ranking scores)[rank scores' c]? = some c := by
      rw [← heq]
      exact getElem?_ranking_eq_some_iff.2 ⟨hc.trans_eq h.symm, rfl⟩
    exact (getElem?_ranking_eq_some_iff.1 hplace).2.symm
  · intro hrank
    refine List.ext_getElem? fun i => Option.ext fun c => ?_
    rw [getElem?_ranking_eq_some_iff, getElem?_ranking_eq_some_iff, h]
    exact and_congr_right fun hc => by rw [hrank c hc]

theorem getElem?_topK {i k : Nat} :
    (topK scores k)[i]? = some c ↔ i < k ∧ c < scores.length ∧ rank scores c = i := by
  rw [topK, List.getElem?_take, Option.ite_none_right_eq_some, getElem?_ranking_eq_some_iff]

/-- The `k` best classes are those of a rank below `k`. -/
theorem mem_topK {k : Nat} : c ∈ topK scores k ↔ c < scores.length ∧ rank scores c < k := by
  rw [List.mem_iff_getElem?]
  simp only [getElem?_topK]
  exact ⟨fun ⟨i, hi, hc, hrank⟩ => ⟨hc, hrank.trans_lt hi⟩, fun ⟨hc, hlt⟩ => ⟨_, hlt, hc, rfl⟩⟩

theorem head?_topK {k : Nat} (hk : 0 < k) :
    (topK scores k).head? = some c ↔ c < scores.length ∧ rank scores c = 0 := by
  rw [topK, List.head?_take, if_neg hk.ne', List.head?_eq_getElem?, getElem?_ranking_eq_some_iff]

/-- The best class is the one of rank zero. -/
theorem best?_eq_some_iff : best? scores = some c ↔ c < scores.length ∧ rank scores c = 0 :=
  head?_topK Nat.one_pos

theorem exists_best? (h : scores ≠ []) : ∃ c, best? scores = some c := by
  have hlength : 0 < (ranking scores).length := by
    rw [(perm_ranking scores).length_eq, List.length_range]
    exact List.length_pos_iff.2 h
  have hfirst := getElem?_ranking_eq_some_iff.1 (List.getElem?_eq_getElem hlength)
  exact ⟨_, best?_eq_some_iff.2 hfirst⟩

/-- A class is the best one if its rank is below one. -/
theorem best?_getD_eq_iff (hc : c < scores.length) :
    (best? scores).getD 0 = c ↔ rank scores c < 1 := by
  obtain ⟨b, hb⟩ := exists_best? (List.ne_nil_of_length_pos (Nat.zero_lt_of_lt hc))
  rw [hb, Option.getD_some, ← Option.some_inj, ← hb, best?_eq_some_iff, Nat.lt_one_iff]
  exact and_iff_right hc

end EncryptedInference.Scores
