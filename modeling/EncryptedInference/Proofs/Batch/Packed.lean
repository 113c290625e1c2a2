import EncryptedInference.Proofs.Tensor.Positions

/-!
# What packing gives

`pack_eq_ok` says everything that a packed batch is: its slots come from the view under an order
that is never the native one (`resolveOrder_ne_native`), one example to a slot (`slots_one`) or two
(`slots_two`).
-/

namespace EncryptedInference

namespace View

/-! ## Orders -/

theorem resolveOrder_ne_native (v : View) (order : ElementOrder) :
    v.resolveOrder order ≠ .native := by
  cases order with
  | native =>
    unfold resolveOrder
    split_ifs <;> simp
  | rowMajor => simp [resolveOrder]
  | columnMajor => simp [resolveOrder]

@[simp] theorem flatten_rowMajor (v : View) : v.flatten .rowMajor = v.elements := rfl

@[simp] theorem flatten_columnMajor (v : View) :
    v.flatten .columnMajor = v.transpose.elements := rfl

theorem length_flatten (v : View) (order : ElementOrder) :
    (v.flatten order).length = elementCount v.shape := by
  unfold flatten
  split
  · rw [length_elements, shape_transpose, elementCount_reverse]
  · exact length_elements v

/-! ## Examples -/

/-- The examples from `start` on have the shape of the view, but for their number. -/
theorem shape_examples {v : View} {n : Nat} {features : List Nat} (h : v.shape = n :: features)
    (start count : Nat) : (v.examples start count).shape = count :: features := by
  obtain ⟨data, offset, axes⟩ := v
  cases axes with
  | nil => cases h
  | cons axis axes =>
    obtain ⟨-, rfl⟩ := List.cons.inj h
    rfl

theorem get_examples (v : View) (start count i : Nat) (index : List Nat) :
    (v.examples start count).get (i :: index) = v.get ((start + i) :: index) := by
  obtain ⟨data, offset, axes⟩ := v
  cases axes with
  | nil => rfl
  | cons axis axes =>
    show fetch data (offset + start * axis.stride + (i * axis.stride + displacement axes index)) =
      fetch data (offset + ((start + i : Nat) * axis.stride + displacement axes index))
    push_cast
    rw [Int.add_mul]
    congr 1
    omega

end View

namespace SlotVector

theorem ofHalves?_eq_some {re im : List Double} (h : re.length = im.length) :
    ofHalves? re im = some (.complex (List.zipWith Complex.mk re im)) := if_pos h

theorem length_complex_zipWith {re im : List Double} (h : re.length = im.length) :
    (complex (List.zipWith Complex.mk re im)).length = re.length := by
  show (List.zipWith Complex.mk re im).length = re.length
  rw [List.length_zipWith, ← h, Nat.min_self]

theorem map_re_zipWith {re im : List Double} (h : re.length = im.length) :
    (List.zipWith Complex.mk re im).map (·.re) = re := by
  induction re generalizing im with
  | nil => rfl
  | cons x re ih =>
    cases im with
    | nil => cases h
    | cons y im => simp [ih (Nat.succ.inj h)]

theorem map_im_zipWith {re im : List Double} (h : re.length = im.length) :
    (List.zipWith Complex.mk re im).map (·.im) = im := by
  induction re generalizing im with
  | nil =>
    obtain rfl := List.length_eq_zero_iff.1 h.symm
    rfl
  | cons x re ih =>
    cases im with
    | nil => cases h
    | cons y im => simp [ih (Nat.succ.inj h)]

end SlotVector

namespace Packer

variable {v : View} {n : Nat} {features : List Nat}

theorem slots_one (order : ElementOrder) (n : Nat) (v : View) :
    slots .one order n v = .ok (.real (v.flatten order)) := rfl

/-- The halves of a batch of even size are equally long. -/
theorem length_flatten_halves (h : v.shape = n :: features) (heven : n % 2 = 0)
    (order : ElementOrder) :
    ((v.examples 0 (n / 2)).flatten order).length =
      ((v.examples (n / 2) (n - n / 2)).flatten order).length := by
  have hhalf : n - n / 2 = n / 2 := by omega
  rw [View.length_flatten, View.length_flatten, View.shape_examples h, View.shape_examples h, hhalf]

theorem slots_two (h : v.shape = n :: features) (heven : n % 2 = 0) (order : ElementOrder) :
    slots .two order n v = .ok (.complex (List.zipWith Complex.mk
      ((v.examples 0 (n / 2)).flatten order)
      ((v.examples (n / 2) (n - n / 2)).flatten order))) := by
  simp only [slots, SlotVector.ofHalves?_eq_some (length_flatten_halves h heven order)]

/-- Packing succeeds only on batches with examples that the factor divides, and then the slots are
finite and come from the view under the order that was resolved on it. -/
theorem pack_eq_ok {p : Packer} {packed : PackedBatch} (h : p.pack v = .ok packed) :
    ∃ n features s, v.shape = n :: features ∧ n ≠ 0 ∧ n % p.factor.value = 0 ∧
      slots p.factor (v.resolveOrder p.order) n v = .ok s ∧ s.firstNonFinite? = none ∧
      packed = ⟨s, ⟨n, features, v.resolveOrder p.order, p.factor⟩⟩ := by
  unfold pack at h
  split at h
  · cases h
  · rename_i n features hshape
    split_ifs at h with hzero hdiv
    cases hslots : slots p.factor (v.resolveOrder p.order) n v with
    | error e => simp [hslots, bind, Except.bind] at h
    | ok s =>
      cases hfinite : s.firstNonFinite? with
      | some i => simp [hslots, hfinite, bind, Except.bind] at h
      | none =>
        simp only [hslots, hfinite, bind, Except.bind, Except.ok.injEq] at h
        exact ⟨n, features, s, hshape, hzero, by simpa using hdiv, hslots, hfinite, h.symm⟩

end Packer

end EncryptedInference
