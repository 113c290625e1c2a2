import EncryptedInference.Proofs.Batch.Packed
import EncryptedInference.Proofs.Batch.Stepwise

/-!
# Laying out what was packed

Flattening a view and laying the values out again under the same order gives the array that the
view shows (`ofOrder_flatten`), also by halves (`elements_halves`).  So the slots of a batch lay out
as the batch itself (`unpackShaped_slots`), and unpacking inverts packing whatever the memory behind
the view looks like.
-/

namespace EncryptedInference

namespace View

/-- Reading a transposed list of the elements at the reversed place reads the view. -/
theorem get_ofColumnMajor_transpose (v : View) {index : List Nat}
    (h : List.Forall₂ (· < ·) index v.shape) :
    (ofColumnMajor v.shape v.transpose.elements).get index = v.get index := by
  have hlen : index.length = v.axes.length := by rw [h.length_eq, length_shape]
  have hrev : List.Forall₂ (· < ·) index.reverse v.transpose.shape := by
    rw [shape_transpose]
    exact List.rel_reverse h
  have hplace := getD_elements_place v.transpose hrev
  rw [shape_transpose, get_transpose v hlen] at hplace
  rw [get_ofColumnMajor _ h.length_eq, hplace]

/-- The elements of a batch are those of its first examples and those of the others. -/
theorem elements_halves {v : View} {n : Nat} {features : List Nat} (h : v.shape = n :: features)
    {k : Nat} (hk : k ≤ n) :
    (v.examples 0 k).elements ++ (v.examples k (n - k)).elements = v.elements := by
  rw [elements_eq, elements_eq, elements_eq, shape_examples h, shape_examples h, h]
  simp only [indices, List.map_flatMap, List.map_map, Function.comp_def, get_examples]
  conv_rhs => rw [show n = k + (n - k) by omega, List.range_add, List.flatMap_append]
  simp [List.flatMap_map]

end View

namespace Tensor

theorem get_ofView (v : View) {index : List Nat} (h : List.Forall₂ (· < ·) index v.shape) :
    (ofView v).get index = v.get index := by
  show (View.ofRowMajor v.shape v.elements).get index = _
  rw [View.get_ofRowMajor, View.getD_elements_place v h]

/-- Values listed in an order are laid out again by that order. -/
theorem ofOrder_flatten (v : View) {order : ElementOrder} (h : order ≠ .native) :
    ofOrder order v.shape (v.flatten order) = ofView v := by
  cases order with
  | native => exact absurd rfl h
  | rowMajor => rfl
  | columnMajor =>
    have hshape := View.shape_ofColumnMajor v.shape v.transpose.elements
    have helements : (View.ofColumnMajor v.shape v.transpose.elements).elements = v.elements := by
      apply View.elements_congr hshape
      intro index hindex
      rw [hshape] at hindex
      exact View.get_ofColumnMajor_transpose v hindex
    show Tensor.mk _ _ = Tensor.mk _ _
    rw [View.flatten_columnMajor, hshape, helements]

end Tensor

namespace Unpacker

variable {v : View} {n : Nat} {features : List Nat} {order : ElementOrder} {factor : PackingFactor}

theorem resolveFlat_of_ne_native (h : order ≠ .native) : order.resolveFlat = order := by
  cases order with
  | native => exact absurd rfl h
  | rowMajor => rfl
  | columnMajor => rfl

/-- The unpacker for a batch that was packed under a resolved order. -/
theorem ofMeta_eq (hn : n ≠ 0) (hdiv : n % factor.value = 0) (horder : order ≠ .native)
    {elements : Nat} (helements : elements ≠ 0) :
    ofMeta ⟨n, features, order, factor⟩ elements = .ok ⟨n, elements, order, factor⟩ := by
  simp only [ofMeta, create, hn, helements, hdiv, or_self, if_false, ne_eq, not_true_eq_false,
    resolveFlat_of_ne_native horder]

/-- The number of slots of a batch. -/
theorem length_slots (h : v.shape = n :: features) (hdiv : n % factor.value = 0) {s : SlotVector}
    (hs : Packer.slots factor order n v = .ok s) :
    s.length = n * elementCount features / factor.value := by
  cases factor with
  | one =>
    obtain rfl := Except.ok.inj hs
    show (v.flatten order).length = _
    rw [View.length_flatten, h, elementCount_cons, PackingFactor.value, Nat.div_one]
  | two =>
    rw [Packer.slots_two h hdiv order] at hs
    obtain rfl := Except.ok.inj hs
    rw [SlotVector.length_complex_zipWith (Packer.length_flatten_halves h hdiv order),
      View.length_flatten, View.shape_examples h, elementCount_cons, PackingFactor.value]
    have hn : n = 2 * (n / 2) := by
      simp only [PackingFactor.value] at hdiv
      omega
    conv_rhs => rw [hn, Nat.mul_assoc, Nat.mul_div_cancel_left _ (by omega)]

/-- The slots of a batch are laid out as the batch. -/
theorem unpackShaped_slots (h : v.shape = n :: features) (hdiv : n % factor.value = 0)
    (horder : order ≠ .native) {s : SlotVector} (hs : Packer.slots factor order n v = .ok s) :
    unpackShaped ⟨n, elementCount features, order, factor⟩ s features = .ok (Tensor.ofView v) := by
  have hlen := length_slots h hdiv hs
  unfold unpackShaped
  rw [if_neg (not_not.2 hlen)]
  cases factor with
  | one =>
    obtain rfl := Except.ok.inj hs
    show Except.ok (Tensor.ofOrder order (n :: features) (v.flatten order)) = _
    rw [← h, Tensor.ofOrder_flatten v horder]
  | two =>
    have hlengths := Packer.length_flatten_halves h hdiv order
    have hn : n - n / 2 = n / 2 := by
      simp only [PackingFactor.value] at hdiv
      omega
    have hre : Tensor.ofOrder order (n / 2 :: features) ((v.examples 0 (n / 2)).flatten order) =
        Tensor.ofView (v.examples 0 (n / 2)) := by
      rw [← View.shape_examples h 0 (n / 2), Tensor.ofOrder_flatten _ horder]
    have him : Tensor.ofOrder order (n / 2 :: features)
        ((v.examples (n / 2) (n - n / 2)).flatten order) =
        Tensor.ofView (v.examples (n / 2) (n - n / 2)) := by
      rw [← Tensor.ofOrder_flatten _ horder, View.shape_examples h, hn]
    rw [Packer.slots_two h hdiv order] at hs
    obtain rfl := Except.ok.inj hs
    simp only [SlotVector.map_re_zipWith hlengths, SlotVector.map_im_zipWith hlengths, hre, him]
    show Except.ok (Tensor.mk (n :: features) ((v.examples 0 (n / 2)).elements ++
      (v.examples (n / 2) (n - n / 2)).elements)) = _
    rw [View.elements_halves h (Nat.div_le_self n 2), ← h]
    rfl

/-- The slots of a packed batch carry the elements of the batch. -/
theorem valueCount_of_pack {p : Packer} {packed : PackedBatch} (h : p.pack v = .ok packed) :
    packed.slots.valueCount = elementCount v.shape := by
  obtain ⟨n, features, s, hshape, -, hdiv, hs, -, rfl⟩ := Packer.pack_eq_ok h
  have hlaid := unpackShaped_slots hshape hdiv (View.resolveOrder_ne_native v p.order) hs
  have haccepts := accepts_of_unpackShaped hdiv hlaid
  rw [hshape, elementCount_cons]
  exact haccepts.valueCount_eq hdiv

/-- A packed batch is laid out again as the batch. -/
theorem unpackPacked_eq {p : Packer} {packed : PackedBatch} (h : p.pack v = .ok packed)
    (hshape : v.shape = n :: features) (hfeatures : elementCount features ≠ 0) :
    unpackPacked packed = .ok (Tensor.ofView v) := by
  obtain ⟨n', features', s, hshape', hn, hdiv, hs, -, rfl⟩ := Packer.pack_eq_ok h
  obtain ⟨rfl, rfl⟩ := List.cons.inj (hshape'.symm.trans hshape)
  have horder := v.resolveOrder_ne_native p.order
  simp only [unpackPacked, PackingMeta.elements, ofMeta_eq hn hdiv horder hfeatures, bind,
    Except.bind]
  exact unpackShaped_slots hshape' hdiv horder hs

/-- Unpacking a packed batch gives back the batch: the array has its shape, and every element is
the element of the batch at the same multi-index.  Only a batch whose examples have no value is
refused.  Step by step the outcome is the same, so that no shape is found not to fit. -/
theorem unpackPacked_of_pack {p : Packer} {v : View} {packed : PackedBatch}
    (h : p.pack v = .ok packed) :
    ∃ n features, v.shape = n :: features ∧
      (elementCount features = 0 → unpackPacked packed = .error (.zeroSized n 0)) ∧
      (elementCount features ≠ 0 → ∃ t, unpackPacked packed = .ok t ∧ t.shape = v.shape ∧
        t.data.length = elementCount v.shape ∧
        ∀ index, List.Forall₂ (· < ·) index v.shape → t.get index = v.get index) ∧
      (elementCount v.shape ≤ maxElements →
        assemblePacked packed = (unpackPacked packed).mapError .refused) := by
  have hcount := valueCount_of_pack h
  obtain ⟨n, features, s, hshape, -, -, -, -, hpacked⟩ := Packer.pack_eq_ok h
  refine ⟨n, features, hshape, ?_, ?_, fun hmax => assemblePacked_eq (hcount ▸ hmax)⟩
  · intro hzero
    simp [hpacked, unpackPacked, ofMeta, create, PackingMeta.elements, hzero, bind, Except.bind]
  · intro hfeatures
    exact ⟨Tensor.ofView v, unpackPacked_eq h hshape hfeatures, rfl, View.length_elements v,
      fun index hindex => Tensor.get_ofView v hindex⟩

/-- Six values in a matrix of two rows that is stored column by column, packed two examples to a
slot in the order of the memory. -/
theorem unpackPacked_columnMajor :
    (⟨.native, .two⟩ : Packer).pack
        (View.ofColumnMajor [2, 3]
          [⟨false, 1⟩, ⟨true, 2⟩, ⟨false, 3⟩, ⟨true, 4⟩, ⟨false, 5⟩, ⟨true, 6⟩]) =
      .ok ⟨.complex [⟨⟨false, 1⟩, ⟨true, 2⟩⟩, ⟨⟨false, 3⟩, ⟨true, 4⟩⟩, ⟨⟨false, 5⟩, ⟨true, 6⟩⟩],
        ⟨2, [3], .columnMajor, .two⟩⟩ ∧
    ∃ t, unpackPacked
        ⟨.complex [⟨⟨false, 1⟩, ⟨true, 2⟩⟩, ⟨⟨false, 3⟩, ⟨true, 4⟩⟩, ⟨⟨false, 5⟩, ⟨true, 6⟩⟩],
          ⟨2, [3], .columnMajor, .two⟩⟩ = .ok t ∧
      assemblePacked
        ⟨.complex [⟨⟨false, 1⟩, ⟨true, 2⟩⟩, ⟨⟨false, 3⟩, ⟨true, 4⟩⟩, ⟨⟨false, 5⟩, ⟨true, 6⟩⟩],
          ⟨2, [3], .columnMajor, .two⟩⟩ = .ok t ∧
      t.shape = [2, 3] ∧ t.get [1, 2] = ⟨true, 6⟩ := by
  refine ⟨rfl, ?_⟩
  obtain ⟨n, features, hshape, -, hunpack, hstepwise⟩ := unpackPacked_of_pack (p := ⟨.native, .two⟩)
    (v := View.ofColumnMajor [2, 3]
      [⟨false, 1⟩, ⟨true, 2⟩, ⟨false, 3⟩, ⟨true, 4⟩, ⟨false, 5⟩, ⟨true, 6⟩]) rfl
  obtain ⟨rfl, rfl⟩ := List.cons.inj hshape
  obtain ⟨t, ht, htshape, -, hget⟩ := hunpack (by decide)
  have hassemble := hstepwise (by decide)
  rw [ht] at hassemble
  exact ⟨t, ht, hassemble, htshape, hget [1, 2] (by decide)⟩

end Unpacker

end EncryptedInference
