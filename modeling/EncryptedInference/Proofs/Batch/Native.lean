import EncryptedInference.Proofs.Batch.Halves
import EncryptedInference.Proofs.Tensor.Memory

/-!
# The native order

A batch whose elements lie side by side in memory, with the last axis fastest or with the first, is
packed in the native order as it lies there; every other batch as it is with the last axis fastest:
`Packer.pack_native`.
-/

namespace EncryptedInference

namespace Packer

open View

variable {v : View} {n : Nat} {features : List Nat}

/-- A batch with one example to a slot. -/
theorem fills_one (h : v.shape = n :: features) (hn : n ≠ 0) (order : ElementOrder) :
    Fills ⟨order, .one⟩ v n features (.real (v.flatten (v.resolveOrder order))) where
  shape := h
  ne_zero := hn
  divides := Nat.mod_one n
  slots := rfl

/-- A finite batch is packed as its elements are listed in the order that is resolved on it. -/
theorem pack_one_of_finite (h : v.shape = n :: features) (hn : n ≠ 0)
    (hfinite : ∀ index, List.Forall₂ (· < ·) index v.shape → (v.get index).isFinite = true)
    (order : ElementOrder) :
    pack ⟨order, .one⟩ v = .ok
      ⟨.real (v.flatten (v.resolveOrder order)), ⟨n, features, v.resolveOrder order, .one⟩⟩ := by
  rw [(fills_one h hn order).pack_eq_ok_iff, ← SlotVector.firstNonFinite?_eq_none_iff]
  exact ⟨firstNonFinite?_flatten hfinite _, rfl⟩

/-- The test on strides tells whether the elements lie with the last axis fastest.  In the native
order a finite batch whose elements lie in one of the two orders is packed from its first address
to its last, each element once; the order that is recorded is the one with the last axis fastest if
they lie in that one.  Every view whose elements lie in neither is packed, or refused, as it is with
the last axis fastest. -/
theorem pack_native (v : View) :
    (v.isStandard = true ↔ v.LiesIn .rowMajor) ∧
    (∀ n features, v.shape = n :: features → n ≠ 0 →
      (∀ index, List.Forall₂ (· < ·) index v.shape → (v.get index).isFinite = true) →
      v.LiesIn .rowMajor ∨ v.LiesIn .columnMajor →
      ∃ l : List (List Nat), l.Perm (indices v.shape) ∧
        l.map v.address = (List.range (elementCount v.shape)).map (fun i => v.offset + (i : Nat)) ∧
        pack ⟨.native, .one⟩ v = .ok ⟨.real (l.map v.get),
          ⟨n, features, if v.isStandard then .rowMajor else .columnMajor, .one⟩⟩) ∧
    (¬ (v.LiesIn .rowMajor ∨ v.LiesIn .columnMajor) →
      ∀ factor, pack ⟨.native, factor⟩ v = pack ⟨.rowMajor, factor⟩ v) := by
  refine ⟨v.isStandard_iff, ?_, ?_⟩
  · intro n features hshape hn hfinite hlies
    refine ⟨(List.range (elementCount v.shape)).map (indexAt (v.resolveOrder .native) v.shape),
      perm_indices _ _, ?_, ?_⟩
    · rw [List.map_map]
      apply List.map_congr_left
      intro i hi
      exact liesIn_resolveOrder hlies i (List.mem_range.1 hi)
    · rw [pack_one_of_finite hshape hn hfinite, flatten_eq,
        v.resolveOrder_of_ne_native (v.resolveOrder_ne_native _), List.map_map,
        resolveOrder_native_of_liesIn hlies]
      rfl
  · intro hlies factor
    rw [not_or] at hlies
    rw [← pack_resolveOrder v .native, resolveOrder_native_of_not_liesIn hlies.2]

/-- Six values with the first axis fastest, whatever the stride of the axis of length one, and the
same view with its last axis run backwards. -/
theorem pack_native_backwards :
    let v : View := ⟨#[⟨false, 1⟩, ⟨true, 2⟩, ⟨false, 3⟩, ⟨true, 4⟩, ⟨false, 5⟩, ⟨true, 6⟩], 0,
      [⟨2, 1⟩, ⟨1, 7⟩, ⟨3, 2⟩]⟩
    (∃ l : List (List Nat), l.Perm (indices [2, 1, 3]) ∧ l.map v.address = [0, 1, 2, 3, 4, 5] ∧
      pack ⟨.native, .one⟩ v = .ok ⟨.real (l.map v.get), ⟨2, [1, 3], .columnMajor, .one⟩⟩) ∧
    pack ⟨.native, .two⟩ (v.invertAxis 2) = pack ⟨.rowMajor, .two⟩ (v.invertAxis 2) := by
  intro v
  have hfinite : ∀ index, List.Forall₂ (· < ·) index v.shape → (v.get index).isFinite = true :=
    forall_mem_indices.1 (by decide)
  obtain ⟨-, hlies, -⟩ := pack_native v
  obtain ⟨-, -, hneither⟩ := pack_native (v.invertAxis 2)
  exact ⟨hlies 2 [1, 3] rfl (by decide) hfinite (by decide), hneither (by decide) .two⟩

end Packer

end EncryptedInference
