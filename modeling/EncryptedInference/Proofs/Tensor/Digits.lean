import EncryptedInference.Proofs.Tensor.Positions

/-!
# Places in mixed radix

The place of an element in a list of elements is a number in mixed radix: the lengths of the axes
are its radices, the positions on the axes its digits, and the fastest axis has the last digit.
`indexAt order shape i` reads the multi-index off the place `i`, and so a view lists its elements
with the last axis fastest (`elements_eq_map`), or with the first (`elements_transpose_eq_map`), and
an array made of a list lists that (`elements_ofRowMajor`).
-/

namespace EncryptedInference

namespace View

/-- The digits of a number in mixed radix, the fastest first. -/
def digits : List Nat → Nat → List Nat
  | [], _ => []
  | n :: radices, i => i % n :: digits radices (i / n)

/-- The multi-index at place `i` when the elements of a shape are listed in an order: with the last
axis fastest, or with the first. -/
def indexAt (order : ElementOrder) (shape : List Nat) (i : Nat) : List Nat :=
  match order with
  | .columnMajor => digits shape i
  | _ => (digits shape.reverse i).reverse

/-! ## Digits -/

theorem digits_lt {radices : List Nat} {i : Nat} (h : i < elementCount radices) :
    List.Forall₂ (· < ·) (digits radices i) radices := by
  induction radices generalizing i with
  | nil => exact .nil
  | cons n radices ih =>
    rw [elementCount_cons] at h
    have hn : 0 < n := Nat.pos_of_mul_pos_right (Nat.zero_lt_of_lt h)
    exact .cons (Nat.mod_lt i hn) (ih (Nat.div_lt_of_lt_mul h))

theorem place_append_singleton {shape index : List Nat} (h : index.length = shape.length)
    (n k : Nat) : place (shape ++ [n]) (index ++ [k]) = place shape index * n + k := by
  induction shape generalizing index with
  | nil =>
    obtain rfl := List.length_eq_zero_iff.1 h
    simp [place]
  | cons m shape ih =>
    cases index with
    | nil => simp at h
    | cons i index =>
      rw [List.cons_append, List.cons_append, place, place, ih (Nat.succ.inj h),
        elementCount_append, elementCount_cons, elementCount_nil, Nat.mul_one, ← Nat.mul_assoc,
        ← Nat.add_assoc, ← Nat.add_mul]

/-- A number is the place of its digits. -/
theorem place_reverse_digits {radices : List Nat} {i : Nat} (h : i < elementCount radices) :
    place radices.reverse (digits radices i).reverse = i := by
  induction radices generalizing i with
  | nil =>
    obtain rfl : i = 0 := Nat.lt_one_iff.1 h
    rfl
  | cons n radices ih =>
    rw [elementCount_cons] at h
    have hi : i / n < elementCount radices := Nat.div_lt_of_lt_mul h
    have hlength : (digits radices (i / n)).reverse.length = radices.reverse.length := by
      rw [List.length_reverse, List.length_reverse, (digits_lt hi).length_eq]
    rw [digits, List.reverse_cons, List.reverse_cons, place_append_singleton hlength, ih hi,
      Nat.mul_comm, Nat.div_add_mod]

/-! ## Multi-indices by their places -/

theorem indexAt_lt (order : ElementOrder) {shape : List Nat} {i : Nat}
    (h : i < elementCount shape) : List.Forall₂ (· < ·) (indexAt order shape i) shape := by
  have hreverse : List.Forall₂ (· < ·) (digits shape.reverse i).reverse shape := by
    have hdigits := List.rel_reverse (digits_lt ((elementCount_reverse shape).symm ▸ h))
    rwa [List.reverse_reverse] at hdigits
  cases order with
  | columnMajor => exact digits_lt h
  | rowMajor => exact hreverse
  | native => exact hreverse

theorem place_indexAt_rowMajor {shape : List Nat} {i : Nat} (h : i < elementCount shape) :
    place shape (indexAt .rowMajor shape i) = i := by
  rw [← elementCount_reverse] at h
  have hplace := place_reverse_digits h
  rwa [List.reverse_reverse] at hplace

theorem indices_eq_map (shape : List Nat) :
    indices shape = (List.range (elementCount shape)).map (indexAt .rowMajor shape) := by
  apply List.ext_getElem
  · rw [length_indices, List.length_map, List.length_range]
  · intro i hi' _
    have hi : i < elementCount shape := by rwa [length_indices] at hi'
    have hindex := getElem?_indices_place (indexAt_lt .rowMajor hi)
    rw [place_indexAt_rowMajor hi, List.getElem?_eq_getElem hi'] at hindex
    rw [Option.some.inj hindex, List.getElem_map, List.getElem_range]

/-! ## Elements by their places -/

theorem elements_eq_map (v : View) :
    v.elements = (List.range (elementCount v.shape)).map fun i =>
      v.get (indexAt .rowMajor v.shape i) := by
  rw [elements_eq, indices_eq_map, List.map_map]
  rfl

theorem elements_transpose_eq_map (v : View) :
    v.transpose.elements = (List.range (elementCount v.shape)).map fun i =>
      v.get (indexAt .columnMajor v.shape i) := by
  rw [elements_eq_map, shape_transpose, elementCount_reverse]
  apply List.map_congr_left
  intro i hi
  have hlength : (digits v.shape i).length = v.axes.length := by
    rw [(digits_lt (List.mem_range.1 hi)).length_eq, length_shape]
  -- Reading a transposed view with the last axis fastest reverses the axes twice.
  show v.transpose.get (digits v.shape.reverse.reverse i).reverse = _
  rw [List.reverse_reverse]
  exact get_transpose v hlength

/-! ## Lists by their places -/

theorem map_range_getD {α : Type} (l : List α) (d : α) :
    (List.range l.length).map (fun j => l.getD j d) = l := by
  apply List.ext_getElem
  · simp
  · intro j hj hj'
    simp [List.getD_eq_getElem?_getD, List.getElem?_eq_getElem hj']

/-- An array made of a list has the values of the list for its elements. -/
theorem elements_ofRowMajor {shape : List Nat} {values : List Double}
    (h : values.length = elementCount shape) : (ofRowMajor shape values).elements = values := by
  rw [elements_eq_map, shape_ofRowMajor]
  conv_rhs => rw [← map_range_getD values .zero, h]
  apply List.map_congr_left
  intro i hi
  rw [get_ofRowMajor, place_indexAt_rowMajor (List.mem_range.1 hi)]

end View

end EncryptedInference
