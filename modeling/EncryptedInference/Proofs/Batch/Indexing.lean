import EncryptedInference.Proofs.Batch.Packed
import EncryptedInference.Proofs.Tensor.Digits

/-!
# Where an element of a batch goes

Whatever the strides of a view, flattening it puts into each place the element whose multi-index is
read off the place (`View.flatten_eq`).  So packing with one example to a slot is said by an index
law, and what packing under a definite order gives depends on the array alone and not on the memory
behind it: `Packer.pack_by_index`.
-/

namespace EncryptedInference

namespace View

/-! ## Flattened views -/

/-- A flattened view has at each place the element whose multi-index is read off the place. -/
theorem flatten_eq (v : View) (order : ElementOrder) :
    v.flatten order = (List.range (elementCount v.shape)).map fun i =>
      v.get (indexAt (v.resolveOrder order) v.shape i) := by
  unfold flatten
  split
  next h => rw [h, elements_transpose_eq_map]
  next h =>
    have hrow : v.resolveOrder order = .rowMajor := by
      cases hresolved : v.resolveOrder order with
      | rowMajor => rfl
      | columnMajor => exact absurd hresolved h
      | native => exact absurd hresolved (resolveOrder_ne_native v order)
    rw [hrow, elements_eq_map]

theorem resolveOrder_of_ne_native (v : View) {order : ElementOrder} (h : order ≠ .native) :
    v.resolveOrder order = order := by
  cases order with
  | native => exact absurd rfl h
  | rowMajor => rfl
  | columnMajor => rfl

/-! ## The same array -/

/-- Two views show the same array, whatever the memory behind them looks like. -/
structure Shows (v w : View) : Prop where
  shape : v.shape = w.shape
  get : ∀ index, List.Forall₂ (· < ·) index v.shape → v.get index = w.get index

namespace Shows

variable {v w : View}

theorem flatten_eq (h : Shows v w) {order : ElementOrder} (horder : order ≠ .native) :
    v.flatten order = w.flatten order := by
  rw [View.flatten_eq, View.flatten_eq, v.resolveOrder_of_ne_native horder,
    w.resolveOrder_of_ne_native horder, ← h.shape]
  apply List.map_congr_left
  intro i hi
  exact h.get _ (indexAt_lt order (List.mem_range.1 hi))

theorem examples (h : Shows v w) {n : Nat} {features : List Nat} (hv : v.shape = n :: features)
    (start count : Nat) (hcount : start + count ≤ n) :
    Shows (v.examples start count) (w.examples start count) := by
  have hw : w.shape = n :: features := h.shape.symm.trans hv
  refine ⟨by rw [shape_examples hv, shape_examples hw], ?_⟩
  rw [shape_examples hv]
  rintro _ (_ | ⟨hi, hrest⟩)
  rw [get_examples, get_examples]
  apply h.get
  rw [hv]
  exact .cons (by omega) hrest

end Shows

end View

namespace Packer

open View

variable {v w : View} {n : Nat} {features : List Nat} {factor : PackingFactor}

/-! ## Packing step by step -/

/-- The halves of a batch always fit together. -/
theorem exists_slots (h : v.shape = n :: features) (hdiv : n % factor.value = 0)
    (order : ElementOrder) : ∃ s, slots factor order n v = .ok s := by
  cases factor with
  | one => exact ⟨_, slots_one order n v⟩
  | two => exact ⟨_, slots_two h hdiv order⟩

/-- Slots are kept if they are finite. -/
theorem pack_of_slots {p : Packer} (h : v.shape = n :: features) (hn : n ≠ 0)
    (hdiv : n % p.factor.value = 0) {s : SlotVector}
    (hs : slots p.factor (v.resolveOrder p.order) n v = .ok s) :
    p.pack v = match s.firstNonFinite? with
      | some i => .error (.nonFinite i)
      | none => .ok ⟨s, ⟨n, features, v.resolveOrder p.order, p.factor⟩⟩ := by
  cases hfinite : s.firstNonFinite? <;>
    simp only [pack, h, hn, hdiv, hs, hfinite, if_false, ne_eq, not_true_eq_false, bind,
      Except.bind]

theorem pack_resolveOrder (v : View) (order : ElementOrder) (factor : PackingFactor) :
    pack ⟨v.resolveOrder order, factor⟩ v = pack ⟨order, factor⟩ v := by
  unfold pack
  rw [v.resolveOrder_of_ne_native (v.resolveOrder_ne_native order)]

/-! ## The array decides -/

theorem slots_of_shows (h : Shows v w) (hv : v.shape = n :: features) {order : ElementOrder}
    (horder : order ≠ .native) : slots factor order n v = slots factor order n w := by
  cases factor with
  | one => rw [slots_one, slots_one, h.flatten_eq horder]
  | two =>
    have hfirst := (h.examples hv 0 (n / 2) (by omega)).flatten_eq horder
    have hsecond := (h.examples hv (n / 2) (n - n / 2) (by omega)).flatten_eq horder
    rw [slots, slots, hfirst, hsecond]

theorem pack_of_shows (h : Shows v w) {order : ElementOrder} (horder : order ≠ .native)
    (factor : PackingFactor) : pack ⟨order, factor⟩ v = pack ⟨order, factor⟩ w := by
  unfold pack
  rw [← h.shape, v.resolveOrder_of_ne_native horder, w.resolveOrder_of_ne_native horder]
  cases hv : v.shape with
  | nil => rfl
  | cons n features =>
    dsimp only
    rw [slots_of_shows h hv horder]

theorem firstNonFinite?_flatten (hfinite : ∀ index, List.Forall₂ (· < ·) index v.shape →
    (v.get index).isFinite = true) (order : ElementOrder) :
    (SlotVector.real (v.flatten order)).firstNonFinite? = none := by
  simp only [SlotVector.firstNonFinite?, List.findIdx?_eq_none_iff, Bool.not_eq_false']
  intro x hx
  rw [flatten_eq] at hx
  obtain ⟨i, hi, rfl⟩ := List.mem_map.1 hx
  exact hfinite _ (indexAt_lt _ (List.mem_range.1 hi))

/-- A finite batch packed with one example to a slot has in each slot the element whose multi-index
is read off the number of the slot.  And with the first or the last axis fastest the outcome of
packing is that of every view of the same array; the native order gives each of them one of the
two. -/
theorem pack_by_index (v w : View) :
    (∀ n features order, v.shape = n :: features → n ≠ 0 →
      (∀ index, List.Forall₂ (· < ·) index v.shape → (v.get index).isFinite = true) →
      pack ⟨order, .one⟩ v = .ok
        ⟨.real ((List.range (elementCount v.shape)).map fun i =>
          v.get (indexAt (v.resolveOrder order) v.shape i)),
        ⟨n, features, v.resolveOrder order, .one⟩⟩) ∧
    (v.shape = w.shape →
      (∀ index, List.Forall₂ (· < ·) index v.shape → v.get index = w.get index) →
      ∀ factor, pack ⟨.rowMajor, factor⟩ v = pack ⟨.rowMajor, factor⟩ w ∧
        pack ⟨.columnMajor, factor⟩ v = pack ⟨.columnMajor, factor⟩ w ∧
        ∀ u ∈ [v, w], pack ⟨.native, factor⟩ u = pack ⟨.rowMajor, factor⟩ v ∨
          pack ⟨.native, factor⟩ u = pack ⟨.columnMajor, factor⟩ v) := by
  constructor
  · intro n features order hshape hn hfinite
    have hflatten : v.flatten (v.resolveOrder order) = v.flatten order := by
      rw [flatten_eq, flatten_eq, v.resolveOrder_of_ne_native (v.resolveOrder_ne_native order)]
    rw [← flatten_eq, pack_of_slots (p := ⟨order, .one⟩) hshape hn (Nat.mod_one n) rfl]
    simp only [hflatten, firstNonFinite?_flatten hfinite]
  · intro hshape hget factor
    have hpack : ∀ u ∈ [v, w], ∀ order, order ≠ .native →
        pack ⟨order, factor⟩ u = pack ⟨order, factor⟩ v := by
      intro u hu order horder
      rcases List.mem_pair.1 hu with rfl | rfl
      · rfl
      · exact (pack_of_shows ⟨hshape, hget⟩ horder factor).symm
    refine ⟨(hpack w (by simp) .rowMajor (by decide)).symm,
      (hpack w (by simp) .columnMajor (by decide)).symm, ?_⟩
    intro u hu
    rw [← pack_resolveOrder u]
    cases hresolved : u.resolveOrder .native with
    | native => exact absurd hresolved (u.resolveOrder_ne_native .native)
    | rowMajor => exact Or.inl (hpack u hu .rowMajor (by decide))
    | columnMajor => exact Or.inr (hpack u hu .columnMajor (by decide))

/-- A matrix of two rows whose columns lie in memory from the last to the first, and the same matrix
stored row by row. -/
theorem pack_inverted :
    let v := ((View.ofRowMajor [3, 2] [⟨false, 1⟩, ⟨true, 2⟩, ⟨false, 3⟩, ⟨true, 4⟩, ⟨false, 5⟩,
      ⟨true, 6⟩]).transpose).invertAxis 1
    let w := View.ofRowMajor [2, 3] [⟨false, 5⟩, ⟨false, 3⟩, ⟨false, 1⟩, ⟨true, 6⟩, ⟨true, 4⟩,
      ⟨true, 2⟩]
    pack ⟨.columnMajor, .one⟩ v = .ok ⟨.real [⟨false, 5⟩, ⟨true, 6⟩, ⟨false, 3⟩, ⟨true, 4⟩,
        ⟨false, 1⟩, ⟨true, 2⟩], ⟨2, [3], .columnMajor, .one⟩⟩ ∧
      pack ⟨.columnMajor, .two⟩ v = pack ⟨.columnMajor, .two⟩ w ∧
      ∀ u ∈ [v, w], pack ⟨.native, .two⟩ u = pack ⟨.rowMajor, .two⟩ v ∨
        pack ⟨.native, .two⟩ u = pack ⟨.columnMajor, .two⟩ v := by
  intro v w
  obtain ⟨hindex, hstorage⟩ := pack_by_index v w
  have hget : ∀ index, List.Forall₂ (· < ·) index v.shape → v.get index = w.get index := by
    have hall : ∀ index ∈ indices v.shape, v.get index = w.get index := by decide
    exact fun index h => hall index (mem_indices.2 h)
  have hfinite : ∀ index, List.Forall₂ (· < ·) index v.shape → (v.get index).isFinite = true := by
    have hall : ∀ index ∈ indices v.shape, (v.get index).isFinite = true := by decide
    exact fun index h => hall index (mem_indices.2 h)
  obtain ⟨-, hcolumn, hnative⟩ := hstorage rfl hget .two
  exact ⟨hindex 2 [3] .columnMajor rfl (by decide) hfinite, hcolumn, hnative⟩

end Packer

end EncryptedInference
