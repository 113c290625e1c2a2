import EncryptedInference.Batch.Unpacking
import EncryptedInference.Proofs.Outcomes
import EncryptedInference.Proofs.Tensor.Positions

/-!
# What unpacking takes

An unpacker for `n` examples of so many values lays out the slots that hold just those values, of
the kind that its factor asks for (`Unpacker.Accepts`), and refuses all others: for their number, or
if the number is right for their kind.
-/

namespace EncryptedInference

namespace Tensor

theorem shape_ofOrder (order : ElementOrder) (shape : List Nat) (values : List Double) :
    (ofOrder order shape values).shape = shape := by
  cases order with
  | columnMajor => exact View.shape_ofColumnMajor shape values
  | _ => rfl

theorem length_data_ofOrder (order : ElementOrder) {shape : List Nat} {values : List Double}
    (h : values.length = elementCount shape) :
    (ofOrder order shape values).data.length = elementCount shape := by
  cases order with
  | columnMajor => exact (View.length_elements _).trans (by rw [View.shape_ofColumnMajor])
  | _ => exact h

end Tensor

namespace Unpacker

variable {u : Unpacker} {n elements : Nat} {order : ElementOrder} {factor : PackingFactor}
  {s : SlotVector} {features : List Nat} {t : Tensor}

/-- What an unpacker is made of. -/
theorem create_eq_ok_iff : create n elements order factor = .ok u ↔
    n ≠ 0 ∧ elements ≠ 0 ∧ n % factor.value = 0 ∧ u = ⟨n, elements, order.resolveFlat, factor⟩ := by
  unfold create
  split_ifs with hzero hdiv
  · refine iff_of_false (by simp) ?_
    rintro ⟨hn, helements, -, -⟩
    exact hzero.elim hn helements
  · simp [hdiv]
  · obtain ⟨hn, helements⟩ := not_or.1 hzero
    simp only [Except.ok.injEq, hn, helements, not_not.1 hdiv, ne_eq, not_false_eq_true, true_and]
    exact eq_comm

/-! ## Slots that fit -/

/-- The slots that hold the values of `n` examples, so many for each. -/
inductive Accepts (n elements : Nat) : PackingFactor → SlotVector → Prop
  | real {values : List Double} (h : values.length = n * elements) :
    Accepts n elements .one (.real values)
  | complex {values : List Complex} (h : values.length = n / 2 * elements) :
    Accepts n elements .two (.complex values)

theorem accepts_iff (hdiv : n % factor.value = 0) : Accepts n elements factor s ↔
    s.length = n * elements / factor.value ∧ s.kind = .ofFactor factor := by
  rw [← Nat.div_mul_right_comm (Nat.dvd_of_mod_eq_zero hdiv)]
  constructor
  · rintro (h | h)
    · exact ⟨by rwa [PackingFactor.value, Nat.div_one], rfl⟩
    · exact ⟨h, rfl⟩
  · rintro ⟨hlength, hkind⟩
    cases factor with
    | one =>
      cases s with
      | real values => exact .real (by rwa [PackingFactor.value, Nat.div_one] at hlength)
      | complex values => cases hkind
    | two =>
      cases s with
      | real values => cases hkind
      | complex values => exact .complex hlength

/-- Slots that fit carry as many values as all examples together. -/
theorem Accepts.valueCount_eq (h : Accepts n elements factor s) (hdiv : n % factor.value = 0) :
    s.valueCount = n * elements := by
  cases h with
  | real h => exact h
  | complex h =>
    have heven : 2 * (n / 2) = n := Nat.mul_div_cancel' (Nat.dvd_of_mod_eq_zero hdiv)
    rw [SlotVector.valueCount, h, ← Nat.mul_assoc, heven]

/-! ## Outcomes -/

theorem unpackShaped_of_length_ne (h : s.length ≠ u.batchSize * u.elements / u.factor.value)
    (features : List Nat) : u.unpackShaped s features = .error (.lengthMismatch
      (u.batchSize * u.elements / u.factor.value) s.length u.batchSize u.elements u.factor.value) :=
  if_pos h

theorem unpackShaped_of_kind_ne (hlength : s.length = u.batchSize * u.elements / u.factor.value)
    (hkind : s.kind ≠ .ofFactor u.factor) (features : List Nat) : u.unpackShaped s features =
      .error (.laneKindMismatch (.ofFactor u.factor) s.kind u.factor.value) := by
  obtain ⟨n, elements, order, factor⟩ := u
  unfold unpackShaped
  dsimp only at hlength hkind ⊢
  rw [if_neg (not_not.2 hlength)]
  cases factor <;> cases s <;> first | rfl | exact absurd rfl hkind

theorem accepts_of_unpackShaped (hdiv : u.batchSize % u.factor.value = 0)
    (h : u.unpackShaped s features = .ok t) : Accepts u.batchSize u.elements u.factor s := by
  rw [accepts_iff hdiv]
  by_contra hnot
  by_cases hlength : s.length = u.batchSize * u.elements / u.factor.value
  · have hkind : s.kind ≠ .ofFactor u.factor := fun hkind => hnot ⟨hlength, hkind⟩
    cases (unpackShaped_of_kind_ne hlength hkind features).symm.trans h
  · cases (unpackShaped_of_length_ne hlength features).symm.trans h

theorem unpackShaped_real {values : List Double} (h : values.length = n * elements)
    (order : ElementOrder) (features : List Nat) :
    unpackShaped ⟨n, elements, order, .one⟩ (.real values) features =
      .ok (.ofOrder order (n :: features) values) := by
  have hlength : (SlotVector.real values).length = n * elements / 1 := by
    rwa [Nat.div_one]
  exact if_neg (not_not.2 hlength)

/-- The halves of complex slots are laid out one after the other. -/
theorem unpackShaped_complex {values : List Complex} (heven : n % 2 = 0)
    (h : values.length = n / 2 * elements) (order : ElementOrder) (features : List Nat) :
    unpackShaped ⟨n, elements, order, .two⟩ (.complex values) features =
      .ok ⟨n :: features, (Tensor.ofOrder order (n / 2 :: features) (values.map (·.re))).data ++
        (Tensor.ofOrder order (n / 2 :: features) (values.map (·.im))).data⟩ := by
  have hlength : (SlotVector.complex values).length = n * elements / 2 :=
    ((accepts_iff heven).1 (.complex h)).1
  exact if_neg (not_not.2 hlength)

/-- Slots that fit are laid out. -/
theorem Accepts.exists_unpackShaped (h : Accepts n elements factor s)
    (hdiv : n % factor.value = 0) (order : ElementOrder) (features : List Nat) :
    ∃ t, unpackShaped ⟨n, elements, order, factor⟩ s features = .ok t ∧
      t.shape = n :: features := by
  cases h with
  | real h => exact ⟨_, unpackShaped_real h order features, Tensor.shape_ofOrder _ _ _⟩
  | complex h => exact ⟨_, unpackShaped_complex hdiv h order features, rfl⟩

/-- What is laid out has the shape that was asked for. -/
theorem shape_of_unpackShaped {t : Tensor} (hdiv : u.batchSize % u.factor.value = 0)
    (h : u.unpackShaped s features = .ok t) : t.shape = u.batchSize :: features := by
  obtain ⟨n, elements, order, factor⟩ := u
  obtain ⟨t', ht', hshape⟩ :=
    (accepts_of_unpackShaped hdiv h).exists_unpackShaped hdiv order features
  obtain rfl := Except.ok.inj (ht'.symm.trans h)
  exact hshape

/-- An array that is laid out has as many values as places. -/
theorem length_data_of_unpackShaped (hdiv : u.batchSize % u.factor.value = 0)
    (hfeatures : u.elements = elementCount features) (h : u.unpackShaped s features = .ok t) :
    t.data.length = u.batchSize * u.elements := by
  have haccepts := accepts_of_unpackShaped hdiv h
  obtain ⟨n, elements, order, factor⟩ := u
  dsimp only at *
  subst hfeatures
  cases haccepts with
  | real hvalues =>
    obtain rfl := Except.ok.inj ((unpackShaped_real hvalues order features).symm.trans h)
    rw [← elementCount_cons] at hvalues ⊢
    exact Tensor.length_data_ofOrder order hvalues
  | complex hvalues =>
    obtain rfl := Except.ok.inj ((unpackShaped_complex hdiv hvalues order features).symm.trans h)
    have heven : n / 2 + n / 2 = n := by
      simp only [PackingFactor.value] at hdiv
      omega
    rw [← elementCount_cons] at hvalues
    rw [List.length_append, Tensor.length_data_ofOrder order (by rwa [List.length_map]),
      Tensor.length_data_ofOrder order (by rwa [List.length_map]), elementCount_cons, ← Nat.add_mul,
      heven]

/-- The slots that are laid out with one row per example are those of the right number and kind. -/
theorem exists_unpack_iff (hdiv : u.batchSize % u.factor.value = 0) : (∃ m, u.unpack s = .ok m) ↔
    s.length = u.batchSize * u.elements / u.factor.value ∧ s.kind = .ofFactor u.factor := by
  constructor
  · rintro ⟨m, hm⟩
    obtain ⟨t, ht, -⟩ := exists_of_bind_eq_ok hm
    exact (accepts_iff hdiv).1 (accepts_of_unpackShaped hdiv ht)
  · intro hfits
    obtain ⟨t, ht, -⟩ := ((accepts_iff hdiv).2 hfits).exists_unpackShaped hdiv u.order [u.elements]
    exact ⟨_, by rw [unpack, ht]; rfl⟩

theorem unpack_of_length_ne (h : s.length ≠ u.batchSize * u.elements / u.factor.value) :
    u.unpack s = .error (.lengthMismatch (u.batchSize * u.elements / u.factor.value) s.length
      u.batchSize u.elements u.factor.value) := by
  rw [unpack, unpackShaped_of_length_ne h]
  rfl

/-- Rows of slots hold as many values as the matrix has places. -/
theorem length_data_of_unpack (hdiv : u.batchSize % u.factor.value = 0) {m : Matrix}
    (h : u.unpack s = .ok m) :
    m.rows = u.batchSize ∧ m.cols = u.elements ∧
      m.data.length = u.batchSize * u.elements := by
  obtain ⟨t, ht, hm⟩ := exists_of_bind_eq_ok h
  obtain rfl := Except.ok.inj hm
  exact ⟨rfl, rfl, length_data_of_unpackShaped hdiv (elementCount_singleton _).symm ht⟩

end Unpacker

end EncryptedInference
