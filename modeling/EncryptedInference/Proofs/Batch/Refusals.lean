import EncryptedInference.Proofs.Batch.Halves
import EncryptedInference.Proofs.Batch.RoundTrip
import Mathlib.Data.Set.Basic

/-!
# What packing refuses, and what it promises

A slot of a packed batch is shared by as many examples as its factor says, one of each part of the
batch, and has the element of each at one place (`View.sharing`, `Packer.Fills.valuesAt_eq`).  Said
in these terms, packing refuses what has no batch axis, no example, a number of examples that the
factor does not divide, or a value that is not finite, in this order, and otherwise gives what those
who take a packed batch rely on (`PackedBatch.IsSound`): `Packer.pack_outcome`.
-/

namespace EncryptedInference

namespace View

/-- The elements that share slot `i` of a batch that is packed in the way of `info`.  The batch is
cut into as many parts as examples share a slot, and each part has its own element at place `i`. -/
def sharing (v : View) (info : PackingMeta) (i : Nat) : List Double :=
  let part := info.batchSize / info.factor.value
  (List.range info.factor.value).map fun k =>
    v.get ((indexAt info.order (part :: info.featureShape) i).modifyHead (k * part + ·))

variable {v : View} {n : Nat} {features : List Nat}

theorem examples_zero (h : v.shape = n :: features) : v.examples 0 n = v := by
  obtain ⟨data, offset, axes⟩ := v
  cases axes with
  | nil => cases h
  | cons axis axes =>
    obtain ⟨rfl, -⟩ := List.cons.inj h
    simp [examples]

/-- The element at a place among the examples from `start` on. -/
theorem getElem?_flatten_examples (h : v.shape = n :: features) {order : ElementOrder}
    (horder : order ≠ .native) (start count : Nat) {i : Nat}
    (hi : i < elementCount (count :: features)) :
    ((v.examples start count).flatten order)[i]? =
      some (v.get ((indexAt order (count :: features) i).modifyHead (start + ·))) := by
  have hindex := indexAt_lt order hi
  rw [flatten_eq, resolveOrder_of_ne_native _ horder, shape_examples h, List.getElem?_map,
    List.getElem?_range hi, Option.map_some]
  cases hplace : indexAt order (count :: features) i with
  | nil =>
    rw [hplace] at hindex
    cases hindex
  | cons b index => rw [get_examples, List.modifyHead_cons]

end View

namespace SlotVector

theorem lt_length_of_mem_valuesAt {s : SlotVector} {i : Nat} {x : Double}
    (h : x ∈ s.valuesAt i) : i < s.length := by
  cases s with
  | real values =>
    have hx : values[i]? = some x := by simpa [valuesAt] using h
    exact (List.getElem?_eq_some_iff.1 hx).1
  | complex values =>
    obtain ⟨z, hz, -⟩ := List.mem_flatMap.1 h
    have hz : values[i]? = some z := by simpa using hz
    exact (List.getElem?_eq_some_iff.1 hz).1

end SlotVector

/-- What those who take a packed batch rely on without looking. -/
structure PackedBatch.IsSound (packed : PackedBatch) : Prop where
  /-- There are as many slots as the description says. -/
  length : packed.slots.length = packed.info.slotCount
  kind : packed.slots.kind = .complex ↔ packed.info.factor = .two
  finite : ∀ i, ∀ x ∈ packed.slots.valuesAt i, x.isFinite = true
  order : packed.info.order ≠ .native
  /-- A result with any number of values for each example can be laid out again. -/
  unpacker : ∀ elements ≠ 0, ∃ u, Unpacker.ofMeta packed.info elements = .ok u

namespace Packer

open View

variable {p : Packer} {v : View} {n : Nat} {features : List Nat} {s : SlotVector}

namespace Fills

theorem length_eq (h : p.Fills v n features s) :
    s.length = PackingMeta.slotCount ⟨n, features, v.resolveOrder p.order, p.factor⟩ :=
  Unpacker.length_slots h.shape h.divides h.slots

theorem kind_eq (h : p.Fills v n features s) : s.kind = .ofFactor p.factor := by
  obtain ⟨order, factor⟩ := p
  have hs := h.slots
  cases factor with
  | one =>
    obtain rfl := Except.ok.inj hs
    rfl
  | two =>
    rw [slots_two h.shape h.divides] at hs
    obtain rfl := Except.ok.inj hs
    rfl

/-- Each slot has the elements that share it. -/
theorem valuesAt_eq (h : p.Fills v n features s) {i : Nat} (hi : i < s.length) :
    s.valuesAt i = v.sharing ⟨n, features, v.resolveOrder p.order, p.factor⟩ i := by
  have hshape := h.shape
  have horder := v.resolveOrder_ne_native p.order
  have hplace : i < elementCount (n / p.factor.value :: features) := by
    rwa [h.length_eq, PackingMeta.slotCount, PackingMeta.elements,
      ← Nat.div_mul_right_comm (Nat.dvd_of_mod_eq_zero h.divides), ← elementCount_cons] at hi
  obtain ⟨order, factor⟩ := p
  have hs := h.slots
  cases factor with
  | one =>
    obtain rfl := Except.ok.inj hs
    rw [PackingFactor.value, Nat.div_one] at hplace
    have hget := getElem?_flatten_examples hshape horder 0 n hplace
    rw [examples_zero hshape] at hget
    simp [SlotVector.valuesAt, sharing, PackingFactor.value, hget]
  | two =>
    have heven : n % 2 = 0 := h.divides
    have hhalf : n - n / 2 = n / 2 := by omega
    rw [slots_two hshape heven, hhalf] at hs
    obtain rfl := Except.ok.inj hs
    have hre := getElem?_flatten_examples hshape horder 0 (n / 2) hplace
    have him := getElem?_flatten_examples hshape horder (n / 2) (n / 2) hplace
    simp [SlotVector.valuesAt, sharing, PackingFactor.value, List.getElem?_zipWith, hre, him,
      List.range_succ]

/-- A slot is spoilt by an element that shares it. -/
theorem isSpoilt_iff (h : p.Fills v n features s) {i : Nat} :
    s.IsSpoilt i ↔ i < s.length ∧
      ∃ x ∈ v.sharing ⟨n, features, v.resolveOrder p.order, p.factor⟩ i, x.isFinite = false := by
  constructor
  · rintro ⟨x, hmem, hx⟩
    have hi := SlotVector.lt_length_of_mem_valuesAt hmem
    exact ⟨hi, x, h.valuesAt_eq hi ▸ hmem, hx⟩
  · rintro ⟨hi, x, hmem, hx⟩
    exact ⟨x, (h.valuesAt_eq hi).symm ▸ hmem, hx⟩

theorem isSound (h : p.Fills v n features s) (hfinite : ∀ i, ¬ s.IsSpoilt i) :
    PackedBatch.IsSound ⟨s, ⟨n, features, v.resolveOrder p.order, p.factor⟩⟩ where
  length := h.length_eq
  kind := by
    rw [h.kind_eq]
    cases p.factor <;> simp [LaneKind.ofFactor]
  finite i x hx :=
    (Bool.eq_false_or_eq_true x.isFinite).resolve_right fun hfalse => hfinite i ⟨x, hx, hfalse⟩
  order := v.resolveOrder_ne_native p.order
  unpacker elements helements :=
    ⟨_, Unpacker.ofMeta_eq h.ne_zero h.divides (v.resolveOrder_ne_native p.order) helements⟩

end Fills

/-- What becomes of a view.  Without a batch axis, without examples, or with a number of them that
the factor does not divide it is refused.  Otherwise there are slots; if an element that shares a
slot is not finite, the first such slot is reported, and else the slots are packed. -/
theorem pack_outcome (p : Packer) (v : View) :
    (v.shape = [] → p.pack v = .error .missingBatchAxis) ∧
    ∀ n features, v.shape = n :: features →
      (n = 0 → p.pack v = .error .emptyBatch) ∧
      (n ≠ 0 → n % p.factor.value ≠ 0 → p.pack v = .error (.notDivisible n p.factor.value)) ∧
      (n ≠ 0 → n % p.factor.value = 0 →
        let info : PackingMeta := ⟨n, features, v.resolveOrder p.order, p.factor⟩
        let spoilt := {i | i < info.slotCount ∧ ∃ x ∈ v.sharing info i, x.isFinite = false}
        (∃ s, slots p.factor info.order n v = .ok s) ∧
        ((∃ i, IsLeast spoilt i ∧ p.pack v = .error (.nonFinite i)) ∨
          spoilt = ∅ ∧ ∃ s, p.pack v = .ok ⟨s, info⟩ ∧ PackedBatch.IsSound ⟨s, info⟩ ∧
            ∀ i < info.slotCount, s.valuesAt i = v.sharing info i)) := by
  refine ⟨fun hshape => by simp only [pack, hshape], ?_⟩
  intro n features hshape
  refine ⟨?_, ?_, ?_⟩
  · intro hn
    simp only [pack, hshape, hn, if_true]
  · intro hn hdiv
    simp only [pack, hshape, hn, hdiv, if_false, ne_eq, not_false_eq_true, if_true]
  · intro hn hdiv info spoilt
    obtain ⟨s, h⟩ := exists_fills hshape hn hdiv
    have hspoilt : spoilt = {i | s.IsSpoilt i} := by
      ext i
      show _ ↔ s.IsSpoilt i
      rw [h.isSpoilt_iff, h.length_eq]
      rfl
    refine ⟨⟨s, h.slots⟩, ?_⟩
    rw [hspoilt]
    rcases h.pack_cases with ⟨packed, hpacked⟩ | ⟨i, hi⟩
    · obtain ⟨hfinite, rfl⟩ := h.pack_eq_ok_iff.1 hpacked
      right
      refine ⟨Set.eq_empty_iff_forall_notMem.2 hfinite, s, hpacked, h.isSound hfinite, ?_⟩
      intro i hi
      exact h.valuesAt_eq (h.length_eq ▸ hi)
    · exact Or.inl ⟨i, h.pack_eq_nonFinite_iff.1 hi, hi⟩

/-- Two examples to a slot, of which the first spoils slot 1 and the second slot 2. -/
theorem pack_outcome_spoilt :
    let v := View.ofRowMajor [2, 3] [⟨false, 1⟩, .infinity true, ⟨false, 3⟩, ⟨true, 4⟩, ⟨false, 5⟩,
      .nan]
    let info : PackingMeta := ⟨2, [3], .rowMajor, .two⟩
    v.sharing info 1 = [.infinity true, ⟨false, 5⟩] ∧ v.sharing info 2 = [⟨false, 3⟩, .nan] ∧
      ∃ i, IsLeast {i | i < info.slotCount ∧ ∃ x ∈ v.sharing info i, x.isFinite = false} i ∧
        pack ⟨.native, .two⟩ v = .error (.nonFinite i) := by
  intro v info
  obtain ⟨-, houtcome⟩ := pack_outcome ⟨.native, .two⟩ v
  obtain ⟨-, -, hfit⟩ := houtcome 2 [3] rfl
  obtain ⟨-, hspoilt | ⟨hempty, -⟩⟩ := hfit (by decide) (by decide)
  · exact ⟨by decide, by decide, hspoilt⟩
  · have hmem : 1 < info.slotCount ∧ ∃ x ∈ v.sharing info 1, x.isFinite = false :=
      ⟨by decide, .infinity true, by decide, rfl⟩
    exact absurd hmem (Set.eq_empty_iff_forall_notMem.1 hempty 1)

end Packer

end EncryptedInference
