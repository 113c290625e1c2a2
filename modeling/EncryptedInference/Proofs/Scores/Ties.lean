import EncryptedInference.Proofs.Double.Order
import EncryptedInference.Proofs.Scores.Accuracy
import Mathlib.Tactic.MkIffOfInductiveProp

/-!
# Ties

Of two classes whose scores are the same number, the one with the lower index comes first, unless
its score is negative zero and the other one's is zero: then it is overtaken
(`Scores.Overtakes`).  Where zeros lose their signs, a class goes up by the classes that overtake it
and down by those that it overtakes (`Scores.rank_canonical`), and nothing else changes in what is
reported (`Scores.evaluate_canonical`).
-/

namespace EncryptedInference

namespace Scores

variable {scores : List Double} {a b c d k : Nat}

/-! ## Overtaking -/

/-- Class `c` has negative zero as its score, and class `d` behind it zero.  They are the same
number, but class `d` comes first. -/
@[mk_iff]
structure Overtakes (scores : List Double) (d c : Nat) : Prop where
  behind : c < d
  lt : d < scores.length
  isMinusZero : score scores c = .minusZero
  isZero : score scores d = .zero

instance (scores : List Double) : DecidableRel (Overtakes scores) :=
  fun _ _ => decidable_of_iff' _ (overtakes_iff ..)

theorem Overtakes.precedes (h : Overtakes scores d c) : Precedes scores d c :=
  .inl (Double.place_lt_iff.2 (.inr ⟨h.isMinusZero, h.isZero⟩))

/-- A class that overtakes has no negative zero. -/
theorem Overtakes.not_overtakes {e : Nat} (h : Overtakes scores d c) : ¬ Overtakes scores e d := by
  intro he
  have hzero : Double.zero = .minusZero := h.isZero.symm.trans he.isMinusZero
  cases hzero

theorem precedes_of_units_eq (hab : a < b) (hb : b < scores.length)
    (htie : (score scores a).units = (score scores b).units) (h : ¬ Overtakes scores b a) :
    Precedes scores a b := by
  have hle : ¬ (score scores a).place < (score scores b).place := by
    rw [Double.place_lt_iff]
    rintro (hlt | ⟨hminus, hzero⟩)
    · exact hlt.ne htie
    · exact h ⟨hab, hb, hminus, hzero⟩
  unfold Precedes
  omega

/-- Class `a` stands in a ranking before class `b`. -/
def ComesFirst (ranked : List Nat) (a b : Nat) : Prop :=
  ∃ i j : Nat, i < j ∧ ranked[i]? = some a ∧ ranked[j]? = some b

/-- With a class, all classes that precede it are among the best ones. -/
theorem comesFirst_topK_iff : ComesFirst (topK scores k) a b ↔
    a < scores.length ∧ b ∈ topK scores k ∧ Precedes scores a b := by
  constructor
  · rintro ⟨i, j, hlt, hi, hj⟩
    obtain ⟨-, ha, rfl⟩ := getElem?_topK.1 hi
    obtain ⟨hk, hb, rfl⟩ := getElem?_topK.1 hj
    exact ⟨ha, mem_topK.2 ⟨hb, hk⟩, (rank_lt_iff ha hb).1 hlt⟩
  · rintro ⟨ha, hb, h⟩
    obtain ⟨hb, hk⟩ := mem_topK.1 hb
    have hlt := (rank_lt_iff ha hb).2 h
    exact ⟨_, _, hlt, getElem?_topK.2 ⟨hlt.trans hk, ha, rfl⟩, getElem?_topK.2 ⟨hk, hb, rfl⟩⟩

/-- Of two tied classes the one with the lower index comes first in all rankings that have the other
one, unless it is overtaken. -/
theorem comesFirst_of_tie_iff (hab : a < b) (hb : b < scores.length)
    (htie : (score scores a).units = (score scores b).units) :
    (∀ k, b ∈ topK scores k → ComesFirst (topK scores k) a b) ↔ ¬ Overtakes scores b a := by
  constructor
  · intro h hovertakes
    obtain ⟨-, -, hprecedes⟩ :=
      comesFirst_topK_iff.1 (h scores.length (mem_topK.2 ⟨hb, rank_lt hb⟩))
    exact hovertakes.precedes.asymm hprecedes
  · intro h k hk
    exact comesFirst_topK_iff.2 ⟨hab.trans hb, hk, precedes_of_units_eq hab hb htie h⟩

/-! ## Zeros without signs -/

theorem score_canonical (scores : List Double) (c : Nat) :
    score (scores.map Double.canonical) c = (score scores c).canonical := by
  simp only [score, List.getD_eq_getElem?_getD, List.getElem?_map]
  cases scores[c]? <;> rfl

/-- How many classes overtake a class. -/
def overtakers (scores : List Double) (c : Nat) : Nat :=
  (List.range scores.length).countP fun d => Overtakes scores d c

/-- How many classes a class overtakes. -/
def overtaken (scores : List Double) (c : Nat) : Nat :=
  (List.range scores.length).countP fun d => Overtakes scores c d

theorem overtakers_eq_zero_iff : overtakers scores c = 0 ↔ ∀ d, ¬ Overtakes scores d c := by
  simp only [overtakers, List.countP_eq_zero, List.mem_range, decide_eq_true_eq]
  exact ⟨fun h d hd => h d hd.lt hd, fun h d _ => h d⟩

theorem overtaken_eq_zero_iff : overtaken scores c = 0 ↔ ∀ d, ¬ Overtakes scores c d := by
  simp only [overtaken, List.countP_eq_zero, List.mem_range, decide_eq_true_eq]
  exact ⟨fun h d hd => h d (hd.behind.trans hd.lt) hd, fun h d _ => h d⟩

theorem overtakers_le_rank (scores : List Double) (c : Nat) :
    overtakers scores c ≤ rank scores c :=
  List.countP_mono_left fun _ _ h => decide_eq_true (of_decide_eq_true h).precedes

theorem units_eq_of_zeros {x y : Double} (h : x = .minusZero ∧ y = .zero) : x.units = y.units := by
  obtain ⟨rfl, rfl⟩ := h
  decide

theorem precedes_canonical_iff (hc : c < scores.length) (hd : d < scores.length) :
    Precedes (scores.map Double.canonical) d c ↔
      Precedes scores d c ∧ ¬ Overtakes scores d c ∨ Overtakes scores c d := by
  have hlt := @Double.place_lt_iff (score scores c) (score scores d)
  have hgt := @Double.place_lt_iff (score scores d) (score scores c)
  have hlt' := @Double.place_canonical_lt_iff (score scores c) (score scores d)
  have hgt' := @Double.place_canonical_lt_iff (score scores d) (score scores c)
  have hbehind := @units_eq_of_zeros (score scores c) (score scores d)
  have hbefore := @units_eq_of_zeros (score scores d) (score scores c)
  simp only [overtakes_iff, Precedes, score_canonical, hc, hd, true_and]
  -- the places are in the order of the numbers, and two zeros are one number
  grind

/-- Counts add up alike if they do for every element. -/
theorem countP_add_countP {l : List Nat} {p q r s : Nat → Bool}
    (h : ∀ x ∈ l, (p x).toNat + (q x).toNat = (r x).toNat + (s x).toNat) :
    l.countP p + l.countP q = l.countP r + l.countP s := by
  induction l with
  | nil => rfl
  | cons x l ih =>
    obtain ⟨hx, h⟩ := List.forall_mem_cons.1 h
    have hrest := ih h
    have hcount : ∀ f : Nat → Bool, (x :: l).countP f = l.countP f + (f x).toNat := by
      intro f
      cases hf : f x <;> simp [hf]
    simp only [hcount]
    omega

/-- Where zeros have no signs, a class goes up by the classes that overtake it and down by those
that it overtakes. -/
theorem rank_canonical (hc : c < scores.length) :
    rank (scores.map Double.canonical) c + overtakers scores c =
      rank scores c + overtaken scores c := by
  rw [rank, rank, List.length_map]
  refine countP_add_countP fun d hd => ?_
  have hiff := precedes_canonical_iff hc (List.mem_range.1 hd)
  -- of two classes at most one overtakes the other one, and what overtakes precedes
  by_cases hbehind : Overtakes scores d c
  · have hnot : ¬ Overtakes scores c d := hbehind.not_overtakes
    simp [hiff, hbehind, hnot, hbehind.precedes]
  · by_cases hbefore : Overtakes scores c d
    · simp [hiff, hbehind, hbefore, hbefore.precedes.asymm]
    · simp [hiff, hbehind, hbefore]

/-- Signs of zeros do not matter in a ranking if no class overtakes another one. -/
theorem topK_canonical_iff :
    (∀ k, topK (scores.map Double.canonical) k = topK scores k) ↔
      ∀ c d, ¬ Overtakes scores d c := by
  have hranking : (∀ k, topK (scores.map Double.canonical) k = topK scores k) ↔
      ranking (scores.map Double.canonical) = ranking scores := by
    refine ⟨fun h => List.ext_getElem? fun i => ?_, fun h k => by rw [topK, topK, h]⟩
    have hplace := congrArg (·[i]?) (h (i + 1))
    simpa [topK, List.getElem?_take] using hplace
  rw [hranking, ranking_eq_iff (List.length_map _)]
  constructor
  · intro h c d hd
    have hc : c < scores.length := hd.behind.trans hd.lt
    have hovertakers : overtakers scores c ≠ 0 := fun hnone => overtakers_eq_zero_iff.1 hnone d hd
    have hovertaken : overtaken scores c = 0 :=
      overtaken_eq_zero_iff.2 fun e he => he.not_overtakes hd
    have hrank := rank_canonical hc
    rw [h c hc, hovertaken] at hrank
    omega
  · intro h c hc
    have hrank := rank_canonical hc
    rwa [overtakers_eq_zero_iff.2 (h c), overtaken_eq_zero_iff.2 (h · c)] at hrank

/-- The best class is still the best one without signs if it has overtaken none. -/
theorem best?_canonical_iff (scores : List Double) :
    (best? (scores.map Double.canonical)).getD 0 = (best? scores).getD 0 ↔
      ∀ c, best? scores = some c → ∀ d, ¬ Overtakes scores c d := by
  by_cases hscores : scores = []
  · subst hscores
    exact iff_of_true rfl fun c _ d h => absurd (h.behind.trans h.lt) d.not_lt_zero
  obtain ⟨c, hbest⟩ := exists_best? hscores
  obtain ⟨hc, hfirst⟩ := best?_eq_some_iff.1 hbest
  have hrank := rank_canonical hc
  have hovertakers := overtakers_le_rank scores c
  rw [hbest, Option.getD_some, best?_getD_eq_iff (hc.trans_eq (List.length_map _).symm)]
  simp only [Option.some_inj, forall_eq']
  rw [← overtaken_eq_zero_iff]
  omega

end Scores

/-! ## Matrices -/

/-- The scores with no sign on zeros. -/
def Matrix.canonical (m : Matrix) : Matrix := { m with data := m.data.map Double.canonical }

section

variable {layout : ScoreLayout} {m : Matrix}

theorem Matrix.isFull_canonical (h : m.IsFull) : m.canonical.IsFull :=
  (List.length_map _).trans h

theorem Matrix.toRows_canonical (m : Matrix) :
    m.canonical.toRows = m.toRows.map (List.map Double.canonical) := by
  rw [toRows_eq, toRows_eq, List.map_map]
  refine List.map_congr_left fun i _ => ?_
  simp only [row, canonical, Function.comp_apply, List.map_take, List.map_drop]

theorem Matrix.get_canonical (m : Matrix) (i j : Nat) :
    m.canonical.get i j = (m.get i j).canonical :=
  Scores.score_canonical m.data (i * m.cols + j)

theorem ScoreLayout.examples_canonical : layout.examples m.canonical = layout.examples m := by
  cases layout <;> rfl

theorem ScoreLayout.classes_canonical : layout.classes m.canonical = layout.classes m := by
  cases layout <;> rfl

theorem ScoreLayout.score_canonical (i c : Nat) :
    layout.score m.canonical i c = (layout.score m i c).canonical := by
  cases layout with
  | batchByClass => exact m.get_canonical i c
  | classByBatch => exact m.get_canonical c i

theorem ScoreLayout.rows_canonical :
    layout.rows m.canonical = (layout.rows m).map (List.map Double.canonical) := by
  rw [rows, rows, examples_canonical, classes_canonical, List.map_map]
  refine List.map_congr_left fun i _ => ?_
  simp [ScoreLayout.score_canonical]

end

namespace Scores

/-- An example with no sign on zeros. -/
def canonicalExample (x : List Double × Nat) : List Double × Nat := (x.1.map Double.canonical, x.2)

/-- How many labels have a rank below `k` where zeros have no signs. -/
def unsignedHits (k : Nat) (batch : List (List Double × Nat)) : Nat :=
  batch.countP fun x => rank x.1 x.2 + overtaken x.1 x.2 < k + overtakers x.1 x.2

section

variable {x : List Double × Nat} {batch : List (List Double × Nat)} {i k : Nat}
  {e : EvaluationError}

theorem isSound_canonicalExample (h : IsSound x) : IsSound (canonicalExample x) := by
  obtain ⟨hlabel, hfinite⟩ := h
  refine ⟨hlabel.trans_eq (List.length_map _).symm, fun s hs => ?_⟩
  obtain ⟨s', hs', rfl⟩ := List.mem_map.1 hs
  rw [Double.isFinite_canonical]
  exact hfinite s' hs'

theorem IsFault.canonicalExample (h : IsFault i x e) : IsFault i (canonicalExample x) e := by
  cases h with
  | @label row label h =>
    have hlength : (row.map Double.canonical).length = row.length := List.length_map _
    rw [← hlength] at h ⊢
    exact .label h
  | @score row label c h hc hbad hleast =>
    have hlength : (row.map Double.canonical).length = row.length := List.length_map _
    refine .score (h.trans_eq hlength.symm) (hc.trans_eq hlength.symm) ?_ fun d hd => ?_
    · rw [score_canonical, Double.isFinite_canonical, hbad]
    · rw [score_canonical, Double.isFinite_canonical, hleast d hd]

theorem hits_canonicalExample (h : ∀ x ∈ batch, IsSound x) :
    hits k (batch.map canonicalExample) = unsignedHits k batch := by
  rw [hits, unsignedHits, List.countP_map]
  refine List.countP_congr fun x hx => ?_
  have hrank := rank_canonical (h x hx).1
  rw [Function.comp_apply, decide_eq_true_iff, decide_eq_true_iff]
  show rank (x.1.map Double.canonical) x.2 < k ↔ _
  omega

theorem unsignedHits_eq (h : ∀ x ∈ batch, ∀ c d, ¬ Overtakes x.1 d c) :
    unsignedHits k batch = hits k batch := by
  refine List.countP_congr fun x hx => ?_
  rw [overtakers_eq_zero_iff.2 (h x hx x.2), overtaken_eq_zero_iff.2 (h x hx · x.2)]
  rfl

end

section

variable {layout : ScoreLayout} {m : Matrix} {labels : List Nat}

theorem batch_canonical :
    layout.batch m.canonical labels = (layout.batch m labels).map canonicalExample := by
  rw [ScoreLayout.batch, ScoreLayout.rows_canonical, List.zip_map_left]
  rfl

/-- Without the signs of zeros the same is refused, and otherwise the labels are counted by what
ranks remain. -/
theorem evaluate_canonical (hm : m.IsFull) :
    evaluate layout m.canonical labels = (evaluate layout m labels).map fun r =>
      .ofCounts r.examples (unsignedHits 1 (layout.batch m labels))
        (unsignedHits 5 (layout.batch m labels)) := by
  have hcanonical := Matrix.isFull_canonical hm
  by_cases hlabels : labels = []
  · subst hlabels
    rfl
  by_cases hfits : layout.examples m = labels.length ∧ layout.classes m ≠ 0
  · have hfits' := hfits
    rw [← ScoreLayout.examples_canonical, ← ScoreLayout.classes_canonical] at hfits'
    rcases forall_isSound_or_isFault (layout.batch m labels) with
      hsound | ⟨i, x, e, hx, hfault, hbefore⟩
    · have hsound' : ∀ x ∈ layout.batch m.canonical labels, IsSound x := by
        rw [batch_canonical]
        exact List.forall_mem_map.2 fun x hx => isSound_canonicalExample (hsound x hx)
      rw [evaluate_of_isSound hm hlabels hfits.1 hfits.2 hsound,
        evaluate_of_isSound hcanonical hlabels hfits'.1 hfits'.2 hsound', batch_canonical,
        reportOn, hits_canonicalExample hsound, hits_canonicalExample hsound, List.length_map]
      rfl
    · have hplace : ∀ j : Nat, (layout.batch m.canonical labels)[j]? =
          (layout.batch m labels)[j]?.map canonicalExample := by
        intro j
        rw [batch_canonical, List.getElem?_map]
      have hx' : (layout.batch m.canonical labels)[i]? = some (canonicalExample x) := by
        rw [hplace, hx]
        rfl
      have hbefore' : ∀ j < i, ∀ y, (layout.batch m.canonical labels)[j]? = some y →
          IsSound y := by
        intro j hj y hy
        rw [hplace, Option.map_eq_some_iff] at hy
        obtain ⟨y, hy, rfl⟩ := hy
        exact isSound_canonicalExample (hbefore j hj y hy)
      rw [evaluate_of_isFault hm hfits.1 hfits.2 hx hfault hbefore,
        evaluate_of_isFault hcanonical hfits'.1 hfits'.2 hx' hfault.canonicalExample hbefore']
      rfl
  · have hfits' := hfits
    rw [← ScoreLayout.examples_canonical, ← ScoreLayout.classes_canonical] at hfits'
    rw [not_and_or, not_not] at hfits hfits'
    rw [evaluate_of_mismatch hlabels hfits, evaluate_of_mismatch hlabels hfits']
    rfl

/-- Signs of zeros do not matter in a report if no class overtakes another one. -/
theorem evaluate_canonical_of_not_overtakes (hm : m.IsFull)
    (h : ∀ row ∈ layout.rows m, ∀ c d, ¬ Overtakes row d c) :
    evaluate layout m.canonical labels = evaluate layout m labels := by
  rw [evaluate_canonical hm]
  cases hevaluate : evaluate layout m labels with
  | error e => rfl
  | ok r =>
    obtain ⟨-, -, -, rfl⟩ := (evaluate_eq_ok_iff hm).1 hevaluate
    have hbatch : ∀ x ∈ layout.batch m labels, ∀ c d, ¬ Overtakes x.1 d c :=
      fun x hx => h x.1 (List.of_mem_zip hx).1
    simp only [Except.map, unsignedHits_eq hbatch]
    rfl

end

end Scores

end EncryptedInference
