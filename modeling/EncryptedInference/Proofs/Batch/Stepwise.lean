import EncryptedInference.Batch.Shaping
import EncryptedInference.Proofs.Batch.Unpacked

/-!
# Step by step

Laying slots out step by step, where each step looks at the shapes that it is given, has the same
outcome as laying them out at once (`Unpacker.assembleShaped_eq`), also as rows
(`Unpacker.assemble_eq`), for an output of a result (`Unpacker.assembleOutput_eq`) and for a batch
that was packed (`Unpacker.assemblePacked_eq`).  What an unpacker is made of and the checks of the
number and of the kind of the slots leave nothing that a step could find not to fit, as long as the
slots hold no more values than a shape may span.
-/

namespace EncryptedInference

namespace Tensor

variable {shape features : List Nat} {values : List Double}

/-- Values that are as many as a shape has places fill it. -/
theorem fill_eq (order : ElementOrder) (hlength : values.length = elementCount shape)
    (hpos : elementCount shape ≠ 0) (hmax : elementCount shape ≤ maxElements) :
    fill order shape values = .ok (ofOrder order shape values) := by
  have hfault : shapeFault? shape values.length = none := by
    rw [shapeFault?_eq_none_iff, filter_of_elementCount_ne_zero hpos]
    exact ⟨hmax, hlength⟩
  rw [fill, hfault]

theorem concatenate_eq {a b : Tensor} {n m : Nat} (ha : a.shape = n :: features)
    (hb : b.shape = m :: features) (hpos : elementCount ((n + m) :: features) ≠ 0)
    (hmax : elementCount ((n + m) :: features) ≤ maxElements) :
    a.concatenate b = .ok ⟨(n + m) :: features, a.data ++ b.data⟩ := by
  rw [concatenate, ha, hb]
  dsimp only
  rw [if_neg (not_not.2 rfl), filter_of_elementCount_ne_zero hpos, if_neg (Nat.not_lt.2 hmax)]

end Tensor

namespace Unpacker

variable {u : Unpacker} {n elements : Nat} {order : ElementOrder} {factor : PackingFactor}
  {s : SlotVector} {features : List Nat}

/-! ## Slots that are refused -/

theorem assembleShaped_of_length_ne
    (h : s.length ≠ u.batchSize * u.elements / u.factor.value) (features : List Nat) :
    u.assembleShaped s features = .error (.refused (.lengthMismatch
      (u.batchSize * u.elements / u.factor.value) s.length u.batchSize u.elements
      u.factor.value)) :=
  if_pos h

theorem assembleShaped_of_kind_ne
    (hlength : s.length = u.batchSize * u.elements / u.factor.value)
    (hkind : s.kind ≠ .ofFactor u.factor) (features : List Nat) : u.assembleShaped s features =
      .error (.refused (.laneKindMismatch (.ofFactor u.factor) s.kind u.factor.value)) := by
  obtain ⟨n, elements, order, factor⟩ := u
  unfold assembleShaped
  dsimp only at hlength hkind ⊢
  rw [if_neg (not_not.2 hlength)]
  cases factor <;> cases s <;> first | rfl | exact absurd rfl hkind

/-! ## Slots that fit -/

theorem assembleShaped_real {values : List Double}
    (h : values.length = n * elementCount features) (hpos : elementCount (n :: features) ≠ 0)
    (hmax : elementCount (n :: features) ≤ maxElements) (order : ElementOrder) :
    assembleShaped ⟨n, elementCount features, order, .one⟩ (.real values) features =
      .ok (.ofOrder order (n :: features) values) := by
  have hlength : (SlotVector.real values).length = n * elementCount features / 1 := by
    rwa [Nat.div_one]
  rw [← elementCount_cons] at h
  exact (if_neg (not_not.2 hlength)).trans (Tensor.fill_eq order h hpos hmax)

theorem assembleShaped_complex {values : List Complex} (heven : n % 2 = 0)
    (h : values.length = n / 2 * elementCount features)
    (hpos : elementCount (n :: features) ≠ 0)
    (hmax : elementCount (n :: features) ≤ maxElements) (order : ElementOrder) :
    assembleShaped ⟨n, elementCount features, order, .two⟩ (.complex values) features =
      .ok ⟨n :: features, (Tensor.ofOrder order (n / 2 :: features) (values.map (·.re))).data ++
        (Tensor.ofOrder order (n / 2 :: features) (values.map (·.im))).data⟩ := by
  have hlength : (SlotVector.complex values).length =
      n * elementCount features / PackingFactor.two.value :=
    ((accepts_iff heven).1 (.complex h)).1
  have hsum : n / 2 + n / 2 = n := by omega
  rw [← elementCount_cons] at h
  -- A half of the batch is neither empty nor larger than the whole.
  have hhalf : elementCount (n / 2 :: features) ≠ 0 ∧
      elementCount (n / 2 :: features) ≤ maxElements := by
    rw [elementCount_cons] at hpos hmax ⊢
    obtain ⟨hn, hfeatures⟩ := Nat.mul_ne_zero_iff.1 hpos
    exact ⟨Nat.mul_ne_zero (by omega) hfeatures,
      Nat.le_trans (Nat.mul_le_mul_right _ (Nat.div_le_self n 2)) hmax⟩
  have hre : Tensor.fill order (n / 2 :: features) (values.map (·.re)) = .ok _ :=
    Tensor.fill_eq order (by rwa [List.length_map]) hhalf.1 hhalf.2
  have him : Tensor.fill order (n / 2 :: features) (values.map (·.im)) = .ok _ :=
    Tensor.fill_eq order (by rwa [List.length_map]) hhalf.1 hhalf.2
  rw [← hsum] at hpos hmax
  have hboth := Tensor.concatenate_eq
    (Tensor.shape_ofOrder order (n / 2 :: features) (values.map (·.re)))
    (Tensor.shape_ofOrder order (n / 2 :: features) (values.map (·.im))) hpos hmax
  rw [hsum] at hboth
  unfold assembleShaped
  dsimp only
  rw [if_neg (not_not.2 hlength)]
  simp only [SlotVector.halves?, hre, him, hboth, bind, Except.bind]

/-! ## The same outcome -/

/-- Step by step the same slots are laid out in the same way, and the others refused for the same
reason; no shape is ever found not to fit. -/
theorem assembleShaped_eq (hn : n ≠ 0) (hdiv : n % factor.value = 0)
    (hfeatures : elementCount features ≠ 0) (hmax : s.valueCount ≤ maxElements)
    (order : ElementOrder) :
    assembleShaped ⟨n, elementCount features, order, factor⟩ s features =
      (unpackShaped ⟨n, elementCount features, order, factor⟩ s features).mapError .refused := by
  by_cases hlength : s.length = n * elementCount features / factor.value
  · by_cases hkind : s.kind = .ofFactor factor
    · have haccepts := (accepts_iff hdiv).2 ⟨hlength, hkind⟩
      have hcount : elementCount (n :: features) ≤ maxElements := by
        rwa [elementCount_cons, ← haccepts.valueCount_eq hdiv]
      have hpos : elementCount (n :: features) ≠ 0 := by
        rw [elementCount_cons]
        exact Nat.mul_ne_zero hn hfeatures
      cases haccepts with
      | real h =>
        rw [unpackShaped_real h, assembleShaped_real h hpos hcount]
        rfl
      | complex h =>
        rw [unpackShaped_complex hdiv h, assembleShaped_complex hdiv h hpos hcount]
        rfl
    · rw [assembleShaped_of_kind_ne hlength hkind, unpackShaped_of_kind_ne hlength hkind]
      rfl
  · rw [assembleShaped_of_length_ne hlength, unpackShaped_of_length_ne hlength]
    rfl

/-- The rows of any unpacker that can be made. -/
theorem assemble_eq (hu : create n elements order factor = .ok u)
    (hmax : s.valueCount ≤ maxElements) : u.assemble s = (u.unpack s).mapError .refused := by
  obtain ⟨hn, helements, hdiv, rfl⟩ := create_eq_ok_iff.1 hu
  have hcount := (elementCount_singleton elements).symm
  have hassemble : assembleShaped ⟨n, elementCount [elements], order.resolveFlat, factor⟩ s
      [elements] = _ := assembleShaped_eq hn hdiv (hcount ▸ helements) hmax order.resolveFlat
  rw [← hcount] at hassemble
  simp only [assemble, unpack, hassemble]
  cases h : unpackShaped ⟨n, elements, order.resolveFlat, factor⟩ s [elements] with
  | error e => rfl
  | ok t =>
    have hshape := shape_of_unpackShaped hdiv h
    simp only [Except.mapError, bind, Except.bind, pure, Except.pure, Tensor.toMatrix, hshape]

/-- An output of a result, or its absence. -/
theorem assembleOutput_eq (hu : create n elements order factor = .ok u)
    {outputs : NameMap SlotVector} {name : String}
    (hmax : ∀ s, outputs.get? name = some s → s.valueCount ≤ maxElements) :
    u.assembleOutput outputs name = (u.unpackOutput outputs name).mapError .refused := by
  unfold assembleOutput unpackOutput
  cases houtput : outputs.get? name with
  | none => rfl
  | some s => exact assemble_eq hu (hmax s houtput)

/-- A batch in slots, whether or not there is an unpacker for it. -/
theorem assemblePacked_eq {packed : PackedBatch} (hmax : packed.slots.valueCount ≤ maxElements) :
    assemblePacked packed = (unpackPacked packed).mapError .refused := by
  unfold assemblePacked unpackPacked
  cases hu : ofMeta packed.info packed.info.elements with
  | error e => rfl
  | ok u =>
    obtain ⟨hn, hfeatures, hdiv, rfl⟩ := create_eq_ok_iff.1 hu
    exact assembleShaped_eq hn hdiv hfeatures hmax _

end Unpacker

end EncryptedInference
