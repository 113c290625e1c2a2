import EncryptedInference.Proofs.Double.Order
import EncryptedInference.Proofs.Outcomes
import EncryptedInference.Proofs.Scores.Ranking
import EncryptedInference.Proofs.Tensor.Matrices
import EncryptedInference.Scores.Accuracy

/-!
# One-hot labels

A one-hot row has a one at the class and zeros elsewhere (`Scores.IsOneHot`).  What is read from a
row is the class with the best score, if that is positive (`Scores.Leads`).  On one-hot rows this is
the class of the one (`Scores.IsOneHot.leads`); but other rows have such a class as well, and they
are not refused (`Scores.exists_leads_iff`).
-/

namespace EncryptedInference

/-- The rows for labels: a one at the label, zeros elsewhere. -/
def Matrix.oneHot (classes : Nat) (labels : List Nat) : Matrix :=
  ⟨labels.length, classes, (labels.map fun label =>
    (List.range classes).map fun c => if c = label then .ofNat 1 else .zero).flatten⟩

namespace Scores

/-! ## Classes of rows -/

/-- The row is one at class `c` and zero elsewhere. -/
structure IsOneHot (row : List Double) (c : Nat) : Prop where
  lt : c < row.length
  isOne : score row c = .ofNat 1
  isZero : ∀ d < row.length, d ≠ c → (score row d).isZero = true

/-- Class `c` has the best score of the row, the first of several, and it is positive. -/
structure Leads (row : List Double) (c : Nat) : Prop where
  lt : c < row.length
  isBest : ∀ d < row.length, (score row d).place ≤ (score row c).place
  isFirst : ∀ d < c, (score row d).place < (score row c).place
  isPositive : (score row c).isPositive = true

variable {row : List Double} {c : Nat}

theorem rank_eq_zero_iff (hc : c < row.length) : rank row c = 0 ↔
    (∀ d < row.length, (score row d).place ≤ (score row c).place) ∧
      ∀ d < c, (score row d).place < (score row c).place := by
  have hnone : rank row c = 0 ↔ ∀ d < row.length, ¬ Precedes row d c := by
    simp [rank, List.countP_eq_zero]
  rw [hnone]
  unfold Precedes
  constructor
  · intro h
    refine ⟨fun d hd => ?_, fun d hd => ?_⟩
    · have hfirst := h d hd
      omega
    · have hfirst := h d (hd.trans hc)
      omega
  · rintro ⟨hbest, hfirst⟩ d hd
    have hle := hbest d hd
    by_cases hlt : d < c
    · have hless := hfirst d hlt
      omega
    · omega

theorem labelOfRow?_eq_some_iff : labelOfRow? row = some c ↔ Leads row c := by
  rw [labelOfRow?, Option.filter_eq_some_iff, best?_eq_some_iff]
  constructor
  · rintro ⟨⟨hc, hrank⟩, hpositive⟩
    obtain ⟨hbest, hfirst⟩ := (rank_eq_zero_iff hc).1 hrank
    exact ⟨hc, hbest, hfirst, hpositive⟩
  · rintro ⟨hc, hbest, hfirst, hpositive⟩
    exact ⟨⟨hc, (rank_eq_zero_iff hc).2 ⟨hbest, hfirst⟩⟩, hpositive⟩

theorem labelOfRow?_eq_none_iff : labelOfRow? row = none ↔ ∀ c, ¬ Leads row c := by
  simp only [← labelOfRow?_eq_some_iff, ← Option.eq_none_iff_forall_ne_some]

/-- On a one-hot row the class of the one leads. -/
theorem IsOneHot.leads (h : IsOneHot row c) : Leads row c := by
  have hone : 0 < (score row c).place := by
    rw [h.isOne]
    decide
  have hbefore : ∀ d < row.length, d ≠ c → (score row d).place < (score row c).place :=
    fun d hd hne => (Double.place_le_zero_of_isZero (h.isZero d hd hne)).trans_lt hone
  refine ⟨h.lt, fun d hd => ?_, fun d hd => hbefore d (hd.trans h.lt) hd.ne, ?_⟩
  · by_cases hne : d = c
    · rw [hne]
    · exact (hbefore d hd hne).le
  · rw [h.isOne]
    decide

theorem mem_iff_exists_score {s : Double} : s ∈ row ↔ ∃ d < row.length, score row d = s := by
  rw [List.mem_iff_getElem]
  constructor
  · rintro ⟨d, hd, rfl⟩
    exact ⟨d, hd, by simp [score, hd]⟩
  · rintro ⟨d, hd, rfl⟩
    exact ⟨d, hd, by simp [score, hd]⟩

/-- A class leads in every row that has a positive score and in which no NaN comes after all
numbers. -/
theorem exists_leads_iff : (∃ c, Leads row c) ↔
    (∃ s ∈ row, s.isPositive = true) ∧ ∀ s ∈ row, s.isNaN = true → s.negative = true := by
  constructor
  · rintro ⟨c, h⟩
    refine ⟨⟨_, mem_iff_exists_score.2 ⟨c, h.lt, rfl⟩, h.isPositive⟩, fun s hs hnan => ?_⟩
    obtain ⟨d, hd, rfl⟩ := mem_iff_exists_score.1 hs
    by_contra hsign
    have hlast := Double.infinityMagnitude_lt_place_iff.2 ⟨hnan, Bool.eq_false_iff.2 hsign⟩
    obtain ⟨hc, -⟩ := Double.infinityMagnitude_lt_place_iff.1 (hlast.trans_le (h.isBest d hd))
    rw [(Double.isPositive_iff.1 h.isPositive).2] at hc
    cases hc
  · rintro ⟨⟨s, hs, hpositive⟩, hnans⟩
    obtain ⟨d, hd, rfl⟩ := mem_iff_exists_score.1 hs
    obtain ⟨c, hc⟩ := exists_best? (List.ne_nil_of_length_pos (Nat.zero_lt_of_lt hd))
    obtain ⟨hlt, hrank⟩ := best?_eq_some_iff.1 hc
    obtain ⟨hbest, hfirst⟩ := (rank_eq_zero_iff hlt).1 hrank
    have hplace : 0 < (score row c).place :=
      (Double.isPositive_iff.1 hpositive).1.trans_le (hbest d hd)
    refine ⟨c, hlt, hbest, hfirst, Double.isPositive_iff.2 ⟨hplace, ?_⟩⟩
    rw [Bool.eq_false_iff]
    intro hnan
    have hsign := hnans _ (mem_iff_exists_score.2 ⟨c, hlt, rfl⟩) hnan
    rw [Double.place, if_pos hsign] at hplace
    omega

/-! ## Row after row -/

section

variable {rows : List (List Double)} {labels : List Nat} {e : EvaluationError} {index : Nat}

theorem labelsOfRows_cons_of_none (h : labelOfRow? row = none) :
    labelsOfRows index (row :: rows) = .error (.invalidOneHot index) := by
  rw [labelsOfRows, h]
  rfl

theorem labelsOfRows_cons_of_some (h : labelOfRow? row = some c) :
    labelsOfRows index (row :: rows) = (labelsOfRows (index + 1) rows).map (c :: ·) := by
  rw [labelsOfRows, h]
  cases labelsOfRows (index + 1) rows <;> rfl

/-- Labels are read where a class leads in every row. -/
theorem labelsOfRows_eq_ok_iff :
    labelsOfRows index rows = .ok labels ↔ List.Forall₂ Leads rows labels := by
  induction rows generalizing index labels with
  | nil =>
    rw [List.forall₂_nil_left_iff]
    exact ⟨fun h => (Except.ok.inj h).symm, fun h => h ▸ rfl⟩
  | cons row rows ih =>
    cases hrow : labelOfRow? row with
    | none =>
      rw [labelsOfRows_cons_of_none hrow]
      refine iff_of_false nofun ?_
      rintro (_ | ⟨hc, -⟩)
      exact labelOfRow?_eq_none_iff.1 hrow _ hc
    | some c =>
      rw [labelsOfRows_cons_of_some hrow]
      constructor
      · intro h
        cases hrows : labelsOfRows (index + 1) rows with
        | error e =>
          rw [hrows] at h
          cases h
        | ok labels' =>
          rw [hrows] at h
          obtain rfl := Except.ok.inj h
          exact .cons (labelOfRow?_eq_some_iff.1 hrow) (ih.1 hrows)
      · rintro (_ | ⟨hc, hrows⟩)
        rw [ih.2 hrows]
        obtain rfl := Option.some.inj (hrow.symm.trans (labelOfRow?_eq_some_iff.2 hc))
        rfl

/-- The first row in which no class leads is reported. -/
theorem labelsOfRows_eq_error_iff : labelsOfRows index rows = .error e ↔
    ∃ i row, rows[i]? = some row ∧ e = .invalidOneHot (index + i) ∧ (∀ c, ¬ Leads row c) ∧
      ∀ j < i, ∀ row', rows[j]? = some row' → ∃ c, Leads row' c := by
  induction rows generalizing index with
  | nil =>
    refine iff_of_false nofun ?_
    rintro ⟨i, row, hrow, -⟩
    cases hrow
  | cons first rows ih =>
    cases hfirst : labelOfRow? first with
    | none =>
      rw [labelsOfRows_cons_of_none hfirst, labelOfRow?_eq_none_iff] at *
      constructor
      · intro h
        exact ⟨0, first, rfl, (Except.error.inj h).symm, hfirst,
          fun j hj => absurd hj j.not_lt_zero⟩
      · rintro ⟨_ | i, row, hrow, rfl, -, hbefore⟩
        · rfl
        · obtain ⟨c, hc⟩ := hbefore 0 (Nat.succ_pos i) first rfl
          exact absurd hc (hfirst c)
    | some c =>
      have hleads := labelOfRow?_eq_some_iff.1 hfirst
      have hrest : labelsOfRows index (first :: rows) = .error e ↔
          labelsOfRows (index + 1) rows = .error e := by
        rw [labelsOfRows_cons_of_some hfirst]
        cases labelsOfRows (index + 1) rows <;> simp [Except.map]
      rw [hrest, ih]
      constructor
      · rintro ⟨i, row, hrow, rfl, hnone, hbefore⟩
        refine ⟨i + 1, row, hrow, by rw [Nat.add_right_comm, Nat.add_assoc], hnone, ?_⟩
        rintro (_ | j) hj row' hrow'
        · obtain rfl := Option.some.inj hrow'
          exact ⟨c, hleads⟩
        · exact hbefore j (Nat.lt_of_succ_lt_succ hj) row' hrow'
      · rintro ⟨_ | i, row, hrow, rfl, hnone, hbefore⟩
        · obtain rfl := Option.some.inj hrow
          exact absurd hleads (hnone c)
        · refine ⟨i, row, hrow, by rw [Nat.add_right_comm, Nat.add_assoc], hnone, ?_⟩
          intro j hj row' hrow'
          exact hbefore (j + 1) (Nat.succ_lt_succ hj) row' hrow'

end

/-! ## Matrices -/

theorem toRows_oneHot (classes : Nat) (labels : List Nat) :
    (Matrix.oneHot classes labels).toRows = labels.map fun label =>
      (List.range classes).map fun c => if c = label then .ofNat 1 else .zero := by
  have hrow : ∀ row ∈ labels.map fun label =>
      (List.range classes).map fun c => if c = label then Double.ofNat 1 else .zero,
      row.length = classes := by
    simp
  have hpieces := Matrix.pieces_flatten hrow
  rwa [List.length_map] at hpieces

theorem isOneHot_of_lt {classes label : Nat} (h : label < classes) :
    IsOneHot ((List.range classes).map fun c => if c = label then .ofNat 1 else .zero) label where
  lt := by simpa using h
  isOne := by simp [score, h]
  isZero d hd hne := by
    have hlt : d < classes := by simpa using hd
    simp [score, hlt, hne, Double.isZero, Double.zero]

section

variable {m : Matrix}

theorem labelsOfOneHot_eq_ok_iff {labels : List Nat} :
    labelsOfOneHot m = .ok labels ↔ List.Forall₂ Leads m.toRows labels := by
  rw [labelsOfOneHot_eq, labelsOfRows_eq_ok_iff]

theorem getElem?_toRows_eq_some_iff {r : Nat} {row : List Double} :
    m.toRows[r]? = some row ↔ r < m.rows ∧ m.row r = row := by
  simp only [Matrix.toRows_eq, List.getElem?_map, Option.map_eq_some_iff,
    List.getElem?_eq_some_iff, List.getElem_range, List.length_range]
  constructor
  · rintro ⟨_, ⟨hr, rfl⟩, hrow⟩
    exact ⟨hr, hrow⟩
  · rintro ⟨hr, hrow⟩
    exact ⟨r, ⟨hr, rfl⟩, hrow⟩

theorem labelsOfOneHot_eq_error_iff {e : EvaluationError} :
    labelsOfOneHot m = .error e ↔ ∃ r < m.rows, e = .invalidOneHot r ∧
      (∀ c, ¬ Leads (m.row r) c) ∧ ∀ q < r, ∃ c, Leads (m.row q) c := by
  rw [labelsOfOneHot_eq, labelsOfRows_eq_error_iff]
  constructor
  · rintro ⟨r, row, hr, rfl, hnone, hbefore⟩
    obtain ⟨hlt, rfl⟩ := getElem?_toRows_eq_some_iff.1 hr
    exact ⟨r, hlt, by rw [Nat.zero_add], hnone,
      fun q hq => hbefore q hq _ (getElem?_toRows_eq_some_iff.2 ⟨hq.trans hlt, rfl⟩)⟩
  · rintro ⟨r, hlt, rfl, hnone, hbefore⟩
    refine ⟨r, _, getElem?_toRows_eq_some_iff.2 ⟨hlt, rfl⟩, by rw [Nat.zero_add], hnone, ?_⟩
    intro q hq row hq'
    obtain ⟨-, rfl⟩ := getElem?_toRows_eq_some_iff.1 hq'
    exact hbefore q hq

theorem forall₂_toRows_iff {R : List Double → Nat → Prop} {labels : List Nat} :
    List.Forall₂ R m.toRows labels ↔ m.rows = labels.length ∧
      ∀ r < m.rows, ∀ hlabel : r < labels.length, R (m.row r) labels[r] := by
  rw [Matrix.toRows_eq, List.forall₂_map_left_iff, List.forall₂_iff_get]
  simp

/-- The rows that are accepted are the one-hot ones, and the first other one is reported. -/
structure AcceptsOneHot (m : Matrix) : Prop where
  ok_iff : ∀ labels, labelsOfOneHot m = .ok labels ↔ List.Forall₂ IsOneHot m.toRows labels
  error_iff : ∀ e, labelsOfOneHot m = .error e ↔ ∃ r < m.rows, e = .invalidOneHot r ∧
    (∀ c, ¬ IsOneHot (m.row r) c) ∧ ∀ q < r, ∃ c, IsOneHot (m.row q) c

theorem Leads.unique {d : Nat} (hc : Leads row c) (hd : Leads row d) : c = d :=
  Option.some.inj ((labelOfRow?_eq_some_iff.2 hc).symm.trans (labelOfRow?_eq_some_iff.2 hd))

/-- If none of the rows behind one-hot ones is mistaken for one, rows with a class are one-hot as
long as all before have a class. -/
theorem exists_isOneHot_of_leads (h : ∀ r < m.rows, (∀ q < r, ∃ c, IsOneHot (m.row q) c) →
      (∃ c, Leads (m.row r) c) → ∃ c, IsOneHot (m.row r) c)
    {r : Nat} (hr : r ≤ m.rows) (hleads : ∀ q < r, ∃ c, Leads (m.row q) c) :
    ∀ q < r, ∃ c, IsOneHot (m.row q) c := by
  -- on the rows that were read; the last of them has only one-hot rows before it
  induction r with
  | zero => exact fun q hq => absurd hq q.not_lt_zero
  | succ r ih =>
    have hbefore := ih (Nat.le_of_succ_le hr) fun q hq => hleads q (Nat.lt_succ_of_lt hq)
    intro q hq
    rcases Nat.lt_succ_iff_lt_or_eq.1 hq with hlt | rfl
    · exact hbefore q hlt
    · exact h q hr hbefore (hleads q hq)

theorem acceptsOneHot_iff : AcceptsOneHot m ↔
    ∀ r < m.rows, (∀ q < r, ∃ c, IsOneHot (m.row q) c) →
      (∃ c, Leads (m.row r) c) → ∃ c, IsOneHot (m.row r) c := by
  constructor
  · intro h r hr hbefore hleads
    by_contra hother
    have hrefused := (h.error_iff _).2 ⟨r, hr, rfl, not_exists.1 hother, hbefore⟩
    obtain ⟨r', -, hr', hnone, -⟩ := labelsOfOneHot_eq_error_iff.1 hrefused
    cases hr'
    exact not_exists.2 hnone hleads
  · intro h
    refine ⟨fun labels => ?_, fun e => ?_⟩
    · rw [labelsOfOneHot_eq_ok_iff]
      refine ⟨fun hleads => ?_, List.Forall₂.imp fun _ _ => IsOneHot.leads⟩
      obtain ⟨hlength, hleads⟩ := forall₂_toRows_iff.1 hleads
      have hall : ∀ r < m.rows, ∃ c, Leads (m.row r) c :=
        fun r hr => ⟨_, hleads r hr (hr.trans_eq hlength)⟩
      refine forall₂_toRows_iff.2 ⟨hlength, fun r hr hlabel => ?_⟩
      obtain ⟨c, hc⟩ := exists_isOneHot_of_leads h le_rfl hall r hr
      rwa [(hleads r hr hlabel).unique hc.leads]
    · rw [labelsOfOneHot_eq_error_iff]
      constructor
      · rintro ⟨r, hr, rfl, hnone, hbefore⟩
        exact ⟨r, hr, rfl, fun c hc => hnone c hc.leads,
          exists_isOneHot_of_leads h hr.le hbefore⟩
      · rintro ⟨r, hr, rfl, hother, hbefore⟩
        refine ⟨r, hr, rfl, ?_, fun q hq => (hbefore q hq).imp fun _ => IsOneHot.leads⟩
        intro c hc
        exact not_exists.2 hother (h r hr hbefore ⟨c, hc⟩)

/-- A matrix that is held column by column is read alike. -/
theorem labelsOfOneHot_transpose (hm : m.IsFull) {columns : Matrix} (hrows : columns.rows = m.cols)
    (hcols : columns.cols = m.rows)
    (hentry : ∀ r < m.rows, ∀ c < m.cols, columns.get c r = m.get r c) :
    labelsOfOneHot columns.transpose = labelsOfOneHot m := by
  have hall : columns.transpose.toRows = m.toRows := by
    rw [Matrix.toRows_transpose, Matrix.toRows_of_full hm, hrows, hcols]
    refine List.map_congr_left fun r hr => List.map_congr_left fun c hc => ?_
    exact hentry r (List.mem_range.1 hr) c (List.mem_range.1 hc)
  rw [labelsOfOneHot_eq, labelsOfOneHot_eq, hall]

end

/-- What is read from a matrix of labels.  The labels are the classes that lead in the rows, and the
first row without one is reported; a row has one if it has a positive score and no NaN that comes
after all numbers.  In a one-hot row the class of the one leads, so one-hot labels are read back,
and a row that is reported is not one-hot.  But a class may lead in the first row that is not
one-hot, and then this row is accepted.  A matrix that is held column by column is read alike. -/
theorem labelsOfOneHot_outcome (m : Matrix) :
    (∀ labels, labelsOfOneHot m = .ok labels ↔ List.Forall₂ Leads m.toRows labels) ∧
    (∀ e, labelsOfOneHot m = .error e ↔ ∃ r < m.rows, e = .invalidOneHot r ∧
      (∀ c, ¬ Leads (m.row r) c) ∧ ∀ q < r, ∃ c, Leads (m.row q) c) ∧
    (∀ row, (∃ c, Leads row c) ↔ (∃ s ∈ row, s.isPositive = true) ∧
      ∀ s ∈ row, s.isNaN = true → s.negative = true) ∧
    (∀ row c, IsOneHot row c → Leads row c) ∧
    (AcceptsOneHot m ↔ ∀ r < m.rows, (∀ q < r, ∃ c, IsOneHot (m.row q) c) →
      (∃ c, Leads (m.row r) c) → ∃ c, IsOneHot (m.row r) c) ∧
    (∀ classes labels, (∀ c ∈ labels, c < classes) →
      labelsOfOneHot (.oneHot classes labels) = .ok labels) ∧
    (m.IsFull → ∀ columns : Matrix, columns.rows = m.cols → columns.cols = m.rows →
      (∀ r < m.rows, ∀ c < m.cols, columns.get c r = m.get r c) →
        labelsOfOneHot columns.transpose = labelsOfOneHot m) := by
  refine ⟨fun labels => labelsOfOneHot_eq_ok_iff, fun e => labelsOfOneHot_eq_error_iff,
    fun row => exists_leads_iff, fun row c => IsOneHot.leads, acceptsOneHot_iff, ?_,
    fun hm columns => labelsOfOneHot_transpose hm⟩
  intro classes labels hlabels
  rw [labelsOfOneHot_eq_ok_iff, toRows_oneHot, List.forall₂_map_left_iff, List.forall₂_same]
  exact fun label hlabel => (isOneHot_of_lt (hlabels label hlabel)).leads

/-- The labels of two rows. -/
theorem labelsOfOneHot_outcome_square :
    let m : Matrix := .oneHot 2 [1, 1]
    let columns : Matrix := ⟨2, 2, [0, 0, 1, 1].map .ofNat⟩
    m.IsFull ∧ labelsOfOneHot m = .ok [1, 1] ∧ labelsOfOneHot columns.transpose = .ok [1, 1] ∧
      Leads (m.row 0) 1 ∧ AcceptsOneHot m := by
  intro m columns
  obtain ⟨-, -, -, hleads, haccepts, hread, htranspose⟩ := labelsOfOneHot_outcome m
  have hm : m.IsFull := by decide
  have hlabels : labelsOfOneHot m = .ok [1, 1] := hread 2 [1, 1] (by decide)
  have hcolumns : labelsOfOneHot columns.transpose = labelsOfOneHot m :=
    htranspose hm columns rfl rfl (by decide)
  have hfirst : IsOneHot (m.row 0) 1 := ⟨by decide, by decide, by decide⟩
  have hsecond : IsOneHot (m.row 1) 1 := ⟨by decide, by decide, by decide⟩
  refine ⟨hm, hlabels, hcolumns.trans hlabels, hleads _ _ hfirst, haccepts.2 ?_⟩
  intro r hr _ _
  match r, hr with
  | 0, _ => exact ⟨1, hfirst⟩
  | 1, _ => exact ⟨1, hsecond⟩

/-- A row with two ones is not refused. -/
theorem labelsOfOneHot_ones :
    let m : Matrix := ⟨2, 2, [1, 1, 0, 1].map .ofNat⟩
    labelsOfOneHot m = .ok [0, 1] ∧ (∀ c, ¬ IsOneHot (m.row 0) c) ∧ ¬ AcceptsOneHot m := by
  intro m
  have hlabels : labelsOfOneHot m = .ok [0, 1] := by
    rw [labelsOfOneHot_eq_ok_iff]
    exact .cons ⟨by decide, by decide, by decide, by decide⟩
      (.cons ⟨by decide, by decide, by decide, by decide⟩ .nil)
  have hother : ∀ c, ¬ IsOneHot (m.row 0) c := by
    intro c h
    by_cases hc : c = 0
    · exact absurd (h.isZero 1 (by decide) (by omega)) (by decide)
    · exact absurd (h.isZero 0 (by decide) (by omega)) (by decide)
  refine ⟨hlabels, hother, fun h => ?_⟩
  obtain ⟨-, honehot⟩ := forall₂_toRows_iff.1 ((h.ok_iff _).1 hlabels)
  exact hother _ (honehot 0 (by decide) (by decide))

end Scores

end EncryptedInference
