import EncryptedInference.Proofs.Tensor.Digits
import Mathlib.Data.List.Nodup
import Mathlib.Data.List.Perm.Subperm

/-!
# Orders and the memory

The elements of a view lie in an order when the one at place `i` of that order lies `i` steps after
the offset (`View.LiesIn`).  Looking at strides decides this, for the order with the last axis
fastest (`View.isStandard_iff`) and on the transposed view for the one with the first axis fastest
(`View.isStandard_transpose_iff`).  So the native order is the order of the memory whenever one of
the two is.
-/

namespace EncryptedInference

namespace View

/-- Where the element at a multi-index lies. -/
def address (v : View) (index : List Nat) : Int := v.offset + displacement v.axes index

/-- The elements lie side by side in memory, listed in an order. -/
def LiesIn (v : View) (order : ElementOrder) : Prop :=
  ∀ i < elementCount v.shape, v.address (indexAt order v.shape i) = v.offset + i

instance (v : View) (order : ElementOrder) : Decidable (v.LiesIn order) :=
  inferInstanceAs (Decidable (∀ i < elementCount v.shape, _))

theorem liesIn_iff {v : View} {order : ElementOrder} :
    v.LiesIn order ↔
      ∀ i < elementCount v.shape, displacement v.axes (indexAt order v.shape i) = i := by
  simp only [LiesIn, address, Int.add_right_inj]

/-! ## Strides -/

theorem displacement_digits_zero (axes : List Axis) :
    displacement axes (digits (axes.map (·.length)) 0) = 0 := by
  induction axes with
  | nil => rfl
  | cons axis axes ih =>
    rw [List.map_cons, digits, displacement, Nat.zero_mod, Nat.zero_div, ih]
    simp

/-- Axes, innermost first, are contiguous in steps of `step` when the elements lie that far apart,
one after the other. -/
theorem contiguousFrom_iff {axes : List Axis} (h : elementCount (axes.map (·.length)) ≠ 0)
    (step : Int) : contiguousFrom step axes = true ↔
      ∀ i < elementCount (axes.map (·.length)),
        displacement axes (digits (axes.map (·.length)) i) = step * i := by
  induction axes generalizing step with
  | nil =>
    refine iff_of_true rfl ?_
    intro i hi
    obtain rfl : i = 0 := Nat.lt_one_iff.1 hi
    rw [displacement_digits_zero]
    simp
  | cons axis outer ih =>
    obtain ⟨n, stride⟩ := axis
    rw [List.map_cons, elementCount_cons] at h ⊢
    have hn : 0 < n := Nat.pos_of_ne_zero (Nat.mul_ne_zero_iff.1 h).1
    have houter := (Nat.mul_ne_zero_iff.1 h).2
    simp only [digits, displacement]
    -- The elements whose position on this axis is zero show the outer axes.
    have hzero : (∀ i < n * elementCount (outer.map (·.length)),
        ((i % n : Nat) : Int) * stride +
          displacement outer (digits (outer.map (·.length)) (i / n)) = step * i) →
        contiguousFrom (step * n) outer = true := by
      intro hall
      rw [ih houter]
      intro j hj
      have hplace := hall (n * j) (Nat.mul_lt_mul_of_pos_left hj hn)
      rw [Nat.mul_mod_right, Nat.mul_div_cancel_left _ hn] at hplace
      push_cast at hplace
      rwa [Int.zero_mul, Int.zero_add, ← Int.mul_assoc] at hplace
    by_cases hone : n = 1
    · subst hone
      rw [contiguousFrom, if_pos rfl]
      constructor
      · intro hcontiguous i hi
        rw [Nat.one_mul] at hi
        rw [Nat.mod_one, Nat.div_one, (ih houter step).1 hcontiguous i hi]
        simp
      · intro hall
        simpa using hzero hall
    · rw [contiguousFrom, if_neg hone, Bool.and_eq_true, decide_eq_true_eq]
      constructor
      · rintro ⟨rfl, hcontiguous⟩ i hi
        have hrest := (ih houter _).1 hcontiguous (i / n) (Nat.div_lt_of_lt_mul hi)
        rw [hrest, Int.mul_assoc, Int.mul_comm, ← Int.mul_add]
        norm_cast
        rw [Nat.mod_add_div]
      · intro hall
        refine ⟨?_, hzero hall⟩
        have hlt : 1 < n * elementCount (outer.map (·.length)) :=
          Nat.lt_of_lt_of_le (by omega) (Nat.le_mul_of_pos_right n (Nat.pos_of_ne_zero houter))
        have hnext := hall 1 hlt
        rw [Nat.mod_eq_of_lt (by omega), Nat.div_eq_of_lt (by omega), displacement_digits_zero]
          at hnext
        simpa using hnext

theorem isEmpty_iff (v : View) : v.isEmpty = true ↔ elementCount v.shape = 0 := by
  unfold isEmpty shape
  induction v.axes with
  | nil => simp
  | cons axis axes ih =>
    rw [List.any_cons, Bool.or_eq_true, decide_eq_true_eq, ih, List.map_cons, elementCount_cons,
      Nat.mul_eq_zero]

/-- The test on strides tells whether the elements lie in memory with the last axis fastest. -/
theorem isStandard_iff (v : View) : v.isStandard = true ↔ v.LiesIn .rowMajor := by
  rw [isStandard, Bool.or_eq_true, isEmpty_iff, liesIn_iff]
  by_cases hcount : elementCount v.shape = 0
  · simp [hcount]
  · have hreverse : v.axes.reverse.map (·.length) = v.shape.reverse := List.map_reverse
    have hpos : elementCount (v.axes.reverse.map (·.length)) ≠ 0 := by
      rwa [hreverse, elementCount_reverse]
    rw [contiguousFrom_iff hpos, hreverse, elementCount_reverse]
    simp only [hcount, false_or, Int.one_mul]
    refine forall₂_congr fun i hi => ?_
    have hlength : (digits v.shape.reverse i).length = v.axes.reverse.length := by
      rw [← elementCount_reverse] at hi
      rw [(digits_lt hi).length_eq, List.length_reverse, List.length_reverse, length_shape]
    rw [← displacement_reverse hlength, List.reverse_reverse]
    rfl

theorem liesIn_transpose {v : View} : v.transpose.LiesIn .rowMajor ↔ v.LiesIn .columnMajor := by
  rw [liesIn_iff, liesIn_iff, shape_transpose, elementCount_reverse]
  refine forall₂_congr fun i hi => ?_
  have hlength : (digits v.shape i).length = v.axes.length := by
    rw [(digits_lt hi).length_eq, length_shape]
  show displacement v.axes.reverse (digits v.shape.reverse.reverse i).reverse = i ↔ _
  rw [List.reverse_reverse, displacement_reverse hlength]
  rfl

/-- The test on the strides of the transposed view tells whether the elements lie in memory with the
first axis fastest. -/
theorem isStandard_transpose_iff (v : View) :
    v.transpose.isStandard = true ↔ v.LiesIn .columnMajor := by
  rw [isStandard_iff, liesIn_transpose]

/-! ## The native order -/

theorem resolveOrder_native_of_liesIn {v : View}
    (h : v.LiesIn .rowMajor ∨ v.LiesIn .columnMajor) :
    v.resolveOrder .native = if v.isStandard then .rowMajor else .columnMajor := by
  rw [resolveOrder]
  by_cases hstandard : v.isStandard = true
  · simp [hstandard]
  · have hcolumn : v.transpose.isStandard = true := by
      rw [isStandard_iff] at hstandard
      exact v.isStandard_transpose_iff.2 (h.resolve_left hstandard)
    simp [hstandard, hcolumn]

/-- If there is an order in which the elements lie, the native order is one. -/
theorem liesIn_resolveOrder {v : View} (h : v.LiesIn .rowMajor ∨ v.LiesIn .columnMajor) :
    v.LiesIn (v.resolveOrder .native) := by
  rw [resolveOrder_native_of_liesIn h]
  split_ifs with hstandard
  · exact v.isStandard_iff.1 hstandard
  · exact h.resolve_left fun hrow => hstandard (v.isStandard_iff.2 hrow)

/-- An array whose elements do not lie with the first axis fastest is taken with the last. -/
theorem resolveOrder_native_of_not_liesIn {v : View} (h : ¬ v.LiesIn .columnMajor) :
    v.resolveOrder .native = .rowMajor := by
  rw [← isStandard_transpose_iff] at h
  simp [resolveOrder, h]

/-! ## Arrays made of a list -/

theorem liesIn_ofRowMajor (shape : List Nat) (values : List Double) :
    (ofRowMajor shape values).LiesIn .rowMajor := by
  rw [liesIn_iff, shape_ofRowMajor]
  intro i hi
  show displacement (rowMajorAxes shape) _ = _
  rw [displacement_rowMajorAxes, place_indexAt_rowMajor hi]

/-- On such an array the native order is that of data without a memory layout. -/
theorem resolveOrder_ofRowMajor (shape : List Nat) (values : List Double) (order : ElementOrder) :
    (ofRowMajor shape values).resolveOrder order = order.resolveFlat := by
  have hlies := liesIn_ofRowMajor shape values
  cases order with
  | native =>
    rw [resolveOrder_native_of_liesIn (Or.inl hlies), if_pos ((isStandard_iff _).2 hlies)]
    rfl
  | rowMajor => rfl
  | columnMajor => rfl

/-! ## Every multi-index once -/

theorem indexAt_inj {order : ElementOrder} {shape : List Nat} {i j : Nat}
    (hi : i < elementCount shape) (hj : j < elementCount shape)
    (h : indexAt order shape i = indexAt order shape j) : i = j := by
  have hrow : indexAt .rowMajor shape i = indexAt .rowMajor shape j → i = j := by
    intro h
    rw [← place_indexAt_rowMajor hi, h, place_indexAt_rowMajor hj]
  cases order with
  | rowMajor => exact hrow h
  | native => exact hrow h
  | columnMajor =>
    have h : digits shape i = digits shape j := h
    rw [← place_reverse_digits hi, h, place_reverse_digits hj]

/-- Each order lists all multi-indices of a shape, each of them once. -/
theorem perm_indices (order : ElementOrder) (shape : List Nat) :
    ((List.range (elementCount shape)).map (indexAt order shape)).Perm (indices shape) := by
  have hnodup : ((List.range (elementCount shape)).map (indexAt order shape)).Nodup := by
    refine List.Nodup.map_on ?_ List.nodup_range
    intro i hi j hj h
    exact indexAt_inj (List.mem_range.1 hi) (List.mem_range.1 hj) h
  have hsubset : (List.range (elementCount shape)).map (indexAt order shape) ⊆ indices shape := by
    intro index hindex
    obtain ⟨i, hi, rfl⟩ := List.mem_map.1 hindex
    exact mem_indices.2 (indexAt_lt order (List.mem_range.1 hi))
  have hlength : (indices shape).length =
      ((List.range (elementCount shape)).map (indexAt order shape)).length := by
    rw [length_indices, List.length_map, List.length_range]
  exact (hnodup.subperm hsubset).perm_of_length_le (Nat.le_of_eq hlength)

end View

end EncryptedInference
