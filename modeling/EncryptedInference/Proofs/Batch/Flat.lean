import EncryptedInference.Proofs.Batch.Native
import EncryptedInference.Proofs.Batch.RoundTrip

/-!
# Batches given as lists

A batch can be given as the list of its elements with the last axis fastest.  The list is refused if
it does not fill its shape, or if the shape spans too much with its empty axes left out, and for
nothing else; otherwise it is packed as any array that shows it, and gives itself back:
`Packer.packFlat_outcome`.
-/

namespace EncryptedInference

namespace Packer

open View

/-! ## What packing reports -/

/-- A batch that comes as an array is never refused for its length. -/
theorem pack_ne_lengthMismatch (p : Packer) (v : View) (expected actual batchSize elements : Nat) :
    p.pack v ≠ .error (.lengthMismatch expected actual batchSize elements) := by
  intro h
  cases hshape : v.shape with
  | nil => simp [pack, hshape] at h
  | cons n features =>
    by_cases hn : n = 0
    · simp [pack, hshape, hn] at h
    · by_cases hdiv : n % p.factor.value = 0
      · obtain ⟨s, hfills⟩ := exists_fills hshape hn hdiv
        rcases hfills.pack_cases with ⟨packed, hpacked⟩ | ⟨i, hi⟩
        · cases hpacked.symm.trans h
        · cases hi.symm.trans h
      · simp [pack, hshape, hn, hdiv] at h

/-! ## Flat batches -/

/-- The list does not fill its shape, or the shape spans too much. -/
def Misfits (data : List Double) (n : Nat) (features : List Nat) : Prop :=
  data.length ≠ n * elementCount features ∨
    maxElements < elementCount ((n :: features).filter (· ≠ 0))

instance (data : List Double) (n : Nat) (features : List Nat) :
    Decidable (Misfits data n features) :=
  inferInstanceAs (Decidable (_ ∨ _))

variable {p : Packer} {data : List Double} {n : Nat} {features : List Nat}

theorem packFlat_of_misfits (h : Misfits data n features) : p.packFlat data n features =
    .error (.lengthMismatch (n * elementCount features) data.length n (elementCount features)) :=
  if_pos h

theorem packFlat_of_not_misfits (h : ¬ Misfits data n features) :
    p.packFlat data n features = p.pack (ofRowMajor (n :: features) data) := if_neg h

/-- Packing a list reports a length exactly if the list does not fit its shape.  Otherwise its
outcome is that of packing the array made of the list, and that of packing any view that shows the
same array in the order that the list is taken in; and if that is a packed batch of which the
examples have values, then it is laid out again as the list in its shape, at once and step by
step. -/
theorem packFlat_outcome (p : Packer) (data : List Double) (n : Nat) (features : List Nat) :
    ((∃ expected actual batchSize elements, p.packFlat data n features =
        .error (.lengthMismatch expected actual batchSize elements)) ↔ Misfits data n features) ∧
    (Misfits data n features → p.packFlat data n features =
      .error (.lengthMismatch (n * elementCount features) data.length n
        (elementCount features))) ∧
    (¬ Misfits data n features →
      p.packFlat data n features = p.pack (ofRowMajor (n :: features) data) ∧
      ∀ v : View, Shows v (ofRowMajor (n :: features) data) →
        p.packFlat data n features = pack ⟨p.order.resolveFlat, p.factor⟩ v) ∧
    ∀ packed, p.packFlat data n features = .ok packed → elementCount (n :: features) ≠ 0 →
      Unpacker.unpackPacked packed = .ok ⟨n :: features, data⟩ ∧
        Unpacker.assemblePacked packed = .ok ⟨n :: features, data⟩ := by
  refine ⟨?_, packFlat_of_misfits, ?_, ?_⟩
  · constructor
    · rintro ⟨expected, actual, batchSize, elements, herror⟩
      by_contra hfits
      rw [packFlat_of_not_misfits hfits] at herror
      exact pack_ne_lengthMismatch p _ _ _ _ _ herror
    · intro hmisfits
      exact ⟨_, _, _, _, packFlat_of_misfits hmisfits⟩
  · intro hfits
    refine ⟨packFlat_of_not_misfits hfits, ?_⟩
    intro v hv
    have hresolve := resolveOrder_ofRowMajor (n :: features) data p.order
    rw [packFlat_of_not_misfits hfits, ← hresolve,
      pack_of_shows hv (resolveOrder_ne_native _ _), pack_resolveOrder]
  · intro packed hpacked hcount
    by_cases hmisfits : Misfits data n features
    · cases (packFlat_of_misfits hmisfits).symm.trans hpacked
    · obtain ⟨hlength, hspan⟩ := not_or.1 hmisfits
      have hfilled : data.length = elementCount (n :: features) := by
        rw [elementCount_cons]
        exact not_not.1 hlength
      rw [filter_of_elementCount_ne_zero hcount, Nat.not_lt] at hspan
      rw [elementCount_cons] at hcount
      rw [packFlat_of_not_misfits hmisfits] at hpacked
      have hshape := shape_ofRowMajor (n :: features) data
      have hunpack : Unpacker.unpackPacked packed = .ok ⟨n :: features, data⟩ := by
        rw [Unpacker.unpackPacked_eq hpacked hshape (Nat.mul_ne_zero_iff.1 hcount).2,
          Tensor.ofView, hshape, elements_ofRowMajor hfilled]
      have hvalues : packed.slots.valueCount ≤ maxElements := by
        rwa [Unpacker.valueCount_of_pack hpacked, hshape]
      refine ⟨hunpack, ?_⟩
      rw [Unpacker.assemblePacked_eq hvalues, hunpack]
      rfl

/-- No value fills a shape with an empty axis, which is refused for its other axes.  Four values
that fill a square are packed as the square is that lies in memory column by column. -/
theorem packFlat_square :
    let data : List Double := [⟨false, 1⟩, ⟨true, 2⟩, ⟨false, 3⟩, ⟨true, 4⟩]
    packFlat ⟨.native, .two⟩ [] 3000000000 [4000000000, 0] =
        .error (.lengthMismatch 0 0 3000000000 0) ∧
      packFlat ⟨.native, .two⟩ data 2 [2] = pack ⟨.rowMajor, .two⟩
        (View.ofColumnMajor [2, 2] [⟨false, 1⟩, ⟨false, 3⟩, ⟨true, 2⟩, ⟨true, 4⟩]) ∧
      ∃ packed, packFlat ⟨.native, .two⟩ data 2 [2] = .ok packed ∧
        Unpacker.unpackPacked packed = .ok ⟨[2, 2], data⟩ ∧
        Unpacker.assemblePacked packed = .ok ⟨[2, 2], data⟩ := by
  intro data
  obtain ⟨-, hmisfits, -, -⟩ := packFlat_outcome ⟨.native, .two⟩ [] 3000000000 [4000000000, 0]
  obtain ⟨-, -, hfits, hunpack⟩ := packFlat_outcome ⟨.native, .two⟩ data 2 [2]
  have hshows : Shows
      (View.ofColumnMajor [2, 2] [⟨false, 1⟩, ⟨false, 3⟩, ⟨true, 2⟩, ⟨true, 4⟩])
      (ofRowMajor [2, 2] data) :=
    ⟨rfl, forall_mem_indices.1 (by decide)⟩
  exact ⟨hmisfits (by decide), (hfits (by decide)).2 _ hshows, _, rfl, hunpack _ rfl (by decide)⟩

end Packer

end EncryptedInference
