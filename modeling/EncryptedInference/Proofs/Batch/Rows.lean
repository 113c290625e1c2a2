import EncryptedInference.Proofs.Batch.RoundTrip
import EncryptedInference.Proofs.Tensor.Digits
import EncryptedInference.Proofs.Tensor.Matrices

/-!
# Results with one row per example

The slots of a batch depend on nothing but how each of its examples is flattened
(`Packer.slots_congr`), so they are also the slots of the matrix that has the flattened examples for
its rows.  Laid out with one row per example they give that matrix: `Unpacker.unpack_slots`.
-/

namespace EncryptedInference

namespace View

variable {v w : View} {n : Nat} {features : List Nat}

/-! ## Single examples -/

theorem select_eq {axis : Axis} {axes : List Axis} (haxes : v.axes = axis :: axes) (b : Nat) :
    v.select 0 b = ⟨v.data, v.offset + b * axis.stride, axes⟩ := by
  have hposition : position axis.length (b : Int) = b := if_neg (by omega)
  simp [select, haxes, hposition]

theorem exists_axes (h : v.shape = n :: features) :
    ∃ axis axes, v.axes = axis :: axes ∧ axis.length = n ∧ axes.map (·.length) = features := by
  obtain ⟨axis, axes, haxes, hn, hfeatures⟩ := List.map_eq_cons_iff.1 h
  exact ⟨axis, axes, haxes, hn, hfeatures⟩

theorem shape_select (h : v.shape = n :: features) (b : Nat) : (v.select 0 b).shape = features := by
  obtain ⟨axis, axes, haxes, -, hfeatures⟩ := exists_axes h
  rw [select_eq haxes]
  exact hfeatures

theorem get_select (h : v.shape = n :: features) (b : Nat) (index : List Nat) :
    (v.select 0 b).get index = v.get (b :: index) := by
  obtain ⟨axis, axes, haxes, -, -⟩ := exists_axes h
  rw [select_eq haxes, get, get, haxes, displacement, Int.add_assoc]

/-- An example among the examples from `start` on. -/
theorem select_examples (h : v.shape = n :: features) (start count b : Nat) :
    (v.examples start count).select 0 b = v.select 0 (start + b : Nat) := by
  obtain ⟨axis, axes, haxes, -, -⟩ := exists_axes h
  have hexamples : v.examples start count =
      ⟨v.data, v.offset + start * axis.stride, ⟨count, axis.stride⟩ :: axes⟩ := by
    rw [examples, haxes]
  rw [hexamples, select_eq rfl, select_eq haxes]
  push_cast
  rw [Int.add_mul, Int.add_assoc]

theorem length_flatten_select (h : v.shape = n :: features) (b : Nat) (order : ElementOrder) :
    ((v.select 0 b).flatten order).length = elementCount features := by
  rw [length_flatten, shape_select h]

/-! ## Elements by example -/

theorem elements_eq_flatMap (h : v.shape = n :: features) :
    v.elements = (List.range n).flatMap fun (b : Nat) => (v.select 0 b).elements := by
  rw [elements_eq, h, indices, List.map_flatMap]
  congr 1
  funext b
  rw [elements_eq, shape_select h, List.map_map]
  apply List.map_congr_left
  intro index _
  exact (get_select h b index).symm

/-- The multi-indices by the position on the last axis. -/
theorem indices_append_singleton (shape : List Nat) (n : Nat) :
    indices (shape ++ [n]) =
      (indices shape).flatMap fun index => (List.range n).map fun i => index ++ [i] := by
  induction shape with
  | nil => simp [indices, List.map_eq_flatMap]
  | cons k shape ih =>
    rw [List.cons_append, indices, indices, ih]
    simp only [List.flatMap_assoc, List.flatMap_map, List.map_flatMap, List.map_map]
    rfl

theorem get_transpose_append (h : v.shape = n :: features) {index : List Nat}
    (hindex : index ∈ indices features.reverse) (b : Nat) :
    v.transpose.get (index ++ [b]) = (v.select 0 b).transpose.get index := by
  have hlength : index.reverse.length = features.length := by
    rw [List.length_reverse, (mem_indices.1 hindex).length_eq, List.length_reverse]
  have hv : (b :: index.reverse).length = v.axes.length := by
    rw [← length_shape, h, List.length_cons, List.length_cons, hlength]
  have hselect : index.reverse.length = (v.select 0 b).axes.length := by
    rw [← length_shape, shape_select h, hlength]
  have htranspose := get_transpose (v.select 0 b) hselect
  rw [List.reverse_reverse] at htranspose
  rw [htranspose, get_select h, ← get_transpose v hv, List.reverse_cons, List.reverse_reverse]

/-- With the first axis fastest, each value of an example is followed by those of the other examples
at its place. -/
theorem elements_transpose_eq (h : v.shape = n :: features) :
    v.transpose.elements = (List.range (elementCount features)).flatMap fun j =>
      (List.range n).map fun (b : Nat) => (v.select 0 b).transpose.elements.getD j .zero := by
  have hcount : (indices features.reverse).length = elementCount features := by
    rw [length_indices, elementCount_reverse]
  rw [elements_eq, shape_transpose, h, List.reverse_cons, indices_append_singleton,
    List.map_flatMap]
  conv_lhs => rw [← map_range_getD (indices features.reverse) []]
  rw [List.flatMap_map, hcount, List.flatMap_def, List.flatMap_def]
  congr 1
  apply List.map_congr_left
  intro j hj
  have hlt : j < (indices features.reverse).length := by
    rw [hcount]
    exact List.mem_range.1 hj
  rw [List.map_map]
  apply List.map_congr_left
  intro b _
  simp only [Function.comp_apply, elements_eq, shape_transpose, shape_select h,
    List.getD_eq_getElem?_getD, List.getElem?_map, List.getElem?_eq_getElem hlt, Option.map_some,
    Option.getD_some]
  exact get_transpose_append h (List.getElem_mem hlt) b

/-- Views whose examples are flattened alike are flattened alike. -/
theorem flatten_congr {features' : List Nat} (hv : v.shape = n :: features)
    (hw : w.shape = n :: features') (hcount : elementCount features = elementCount features')
    {order : ElementOrder} (horder : order ≠ .native)
    (h : ∀ b < n, (v.select 0 b).flatten order = (w.select 0 b).flatten order) :
    v.flatten order = w.flatten order := by
  cases order with
  | native => exact absurd rfl horder
  | rowMajor =>
    rw [flatten_rowMajor, flatten_rowMajor, elements_eq_flatMap hv, elements_eq_flatMap hw,
      List.flatMap_def, List.flatMap_def]
    congr 1
    apply List.map_congr_left
    intro b hb
    exact h b (List.mem_range.1 hb)
  | columnMajor =>
    rw [flatten_columnMajor, flatten_columnMajor, elements_transpose_eq hv,
      elements_transpose_eq hw, hcount]
    congr 1
    funext j
    apply List.map_congr_left
    intro b hb
    have hrow := h b (List.mem_range.1 hb)
    rw [flatten_columnMajor, flatten_columnMajor] at hrow
    rw [hrow]

/-! ## Matrices -/

/-- An array with one axis lists its elements in one way. -/
theorem flatten_of_shape_singleton {k : Nat} (h : v.shape = [k]) (order : ElementOrder) :
    v.flatten order = v.elements := by
  obtain ⟨data, offset, axes⟩ := v
  obtain ⟨axis, rfl, -⟩ := List.map_eq_singleton_iff.1 h
  unfold flatten
  split <;> rfl

theorem elements_of_shape_singleton {k : Nat} (h : v.shape = [k]) :
    v.elements = (List.range k).map fun j => v.get [j] := by
  rw [elements_eq, h]
  simp [indices, ← List.map_eq_flatMap]

/-- The rows of a matrix that is made of rows of one length. -/
theorem flatten_select_ofRowMajor {size : Nat} {row : Nat → List Double}
    (hrow : ∀ b, (row b).length = size) {b : Nat} (hb : b < n) (order : ElementOrder) :
    ((ofRowMajor [n, size] ((List.range n).flatMap row)).select 0 b).flatten order = row b := by
  have hshape := shape_ofRowMajor [n, size] ((List.range n).flatMap row)
  rw [flatten_of_shape_singleton (shape_select hshape b),
    elements_of_shape_singleton (shape_select hshape b)]
  conv_rhs => rw [← map_range_getD (row b) .zero, hrow]
  apply List.map_congr_left
  intro j hj
  have hplace : place [n, size] [b, j] = b * size + j := by
    simp only [place, elementCount_cons, elementCount_nil, Nat.mul_one, Nat.add_zero]
  rw [get_select hshape, get_ofRowMajor, hplace, List.getD_eq_getElem?_getD,
    getElem?_flatMap_range hrow hb (List.mem_range.1 hj), List.getD_eq_getElem?_getD]

end View

namespace Packer

variable {v w : View} {n : Nat} {features features' : List Nat}

/-- The slots of a batch depend on nothing but how its examples are flattened. -/
theorem slots_congr (hv : v.shape = n :: features) (hw : w.shape = n :: features')
    (hcount : elementCount features = elementCount features') {order : ElementOrder}
    (horder : order ≠ .native)
    (h : ∀ b < n, (v.select 0 b).flatten order = (w.select 0 b).flatten order)
    (factor : PackingFactor) : slots factor order n v = slots factor order n w := by
  have hexamples : ∀ start count, start + count ≤ n →
      (v.examples start count).flatten order = (w.examples start count).flatten order := by
    intro start count hle
    apply View.flatten_congr (View.shape_examples hv start count)
      (View.shape_examples hw start count) hcount horder
    intro b hb
    rw [View.select_examples hv, View.select_examples hw]
    exact h (start + b) (by omega)
  cases factor with
  | one => rw [slots_one, slots_one, View.flatten_congr hv hw hcount horder h]
  | two =>
    have hfirst := hexamples 0 (n / 2) (by omega)
    have hsecond := hexamples (n / 2) (n - n / 2) (by omega)
    rw [slots, slots, hfirst, hsecond]

end Packer

namespace Matrix

/-- The matrix that has the examples of a batch for its rows, each flattened in an order. -/
def ofExamples (n : Nat) (features : List Nat) (order : ElementOrder) (v : View) : Matrix :=
  ⟨n, elementCount features, (List.range n).flatMap fun (b : Nat) => (v.select 0 b).flatten order⟩

variable {v : View} {n : Nat} {features : List Nat}

theorem toRows_ofExamples (h : v.shape = n :: features) (order : ElementOrder) :
    (ofExamples n features order v).toRows =
      (List.range n).map fun (b : Nat) => (v.select 0 b).flatten order := by
  have hrow : ∀ row ∈ (List.range n).map fun (b : Nat) => (v.select 0 b).flatten order,
      row.length = elementCount features := by
    intro row hrow
    obtain ⟨b, -, rfl⟩ := List.mem_map.1 hrow
    exact View.length_flatten_select h b order
  have hpieces := pieces_flatten hrow
  rw [List.length_map, List.length_range] at hpieces
  exact hpieces

/-- The matrix of a batch with one feature axis is the batch. -/
theorem get_ofExamples {k : Nat} (h : v.shape = [n, k]) (order : ElementOrder) {i j : Nat}
    (hi : i < n) (hj : j < k) : (ofExamples n [k] order v).get i j = v.get [i, j] := by
  have hcount := elementCount_singleton k
  have hrow : ∀ b : Nat, ((v.select 0 b).flatten order).length = k := by
    intro b
    rw [View.length_flatten_select h, hcount]
  have hlt : j < (List.range k).length := by rwa [List.length_range]
  show ((List.range n).flatMap fun (b : Nat) => (v.select 0 b).flatten order).getD
    (i * elementCount [k] + j) .zero = _
  rw [hcount, List.getD_eq_getElem?_getD, getElem?_flatMap_range hrow hi hj,
    View.flatten_of_shape_singleton (View.shape_select h i),
    View.elements_of_shape_singleton (View.shape_select h i), List.getElem?_map,
    List.getElem?_eq_getElem hlt, List.getElem_range, Option.map_some, Option.getD_some,
    View.get_select h]

end Matrix

namespace Unpacker

variable {v : View} {n : Nat} {features : List Nat} {order : ElementOrder} {factor : PackingFactor}

/-- Laid out with one row per example, the slots of a batch give the flattened examples. -/
theorem unpack_slots (h : v.shape = n :: features) (hdiv : n % factor.value = 0)
    (horder : order ≠ .native) {s : SlotVector} (hs : Packer.slots factor order n v = .ok s) :
    unpack ⟨n, elementCount features, order, factor⟩ s =
      .ok (Matrix.ofExamples n features order v) := by
  have hrow : ∀ b : Nat, ((v.select 0 b).flatten order).length = elementCount features :=
    fun b => View.length_flatten_select h b order
  have hshape := View.shape_ofRowMajor [n, elementCount features]
    ((List.range n).flatMap fun (b : Nat) => (v.select 0 b).flatten order)
  have hcount := (elementCount_singleton (elementCount features)).symm
  rw [Packer.slots_congr h hshape hcount horder
    (fun b hb => (View.flatten_select_ofRowMajor hrow hb order).symm)] at hs
  have hunpack := unpackShaped_slots hshape hdiv horder hs
  rw [← hcount] at hunpack
  have hlength : ((List.range n).flatMap fun (b : Nat) => (v.select 0 b).flatten order).length =
      elementCount [n, elementCount features] := by
    simp [List.length_flatMap, hrow]
  simp only [unpack, hunpack, bind, Except.bind, pure, Except.pure, Tensor.ofView,
    View.elements_ofRowMajor hlength, Matrix.ofExamples]

end Unpacker

end EncryptedInference
