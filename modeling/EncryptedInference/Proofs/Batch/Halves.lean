import EncryptedInference.Proofs.Batch.Indexing
import Mathlib.Order.Bounds.Defs

/-!
# Two halves in one batch

A batch that is fit for a packer has its slots (`Packer.Fills`), and what becomes of it depends on
whether a slot is spoilt by an infinity or by no number (`Fills.pack_eq_ok_iff`), and which one is
the first (`Fills.pack_eq_nonFinite_iff`).  A slot of two halves is spoilt when the slot of either
is, so packing two examples to a slot is packing each half by itself, in the order that was resolved
on the whole batch: `Packer.pack_halves`.
-/

namespace EncryptedInference

namespace SlotVector

/-! ## Spoilt slots -/

/-- The values in a slot. -/
def valuesAt : SlotVector → Nat → List Double
  | real values, i => values[i]?.toList
  | complex values, i => values[i]?.toList.flatMap fun z => [z.re, z.im]

/-- A slot holds an infinity or no number, in either component. -/
def IsSpoilt (s : SlotVector) (i : Nat) : Prop := ∃ x ∈ s.valuesAt i, x.isFinite = false

theorem isSpoilt_real_iff {values : List Double} {i : Nat} :
    (real values).IsSpoilt i ↔ ∃ x, values[i]? = some x ∧ (!x.isFinite) = true := by
  simp [IsSpoilt, valuesAt]

theorem isSpoilt_complex_iff {values : List Complex} {i : Nat} :
    (complex values).IsSpoilt i ↔ ∃ z, values[i]? = some z ∧ (!z.isFinite) = true := by
  simp only [IsSpoilt, valuesAt, Complex.isFinite, List.mem_flatMap, Option.mem_toList,
    List.mem_cons, List.not_mem_nil, or_false, Bool.not_and, Bool.or_eq_true, Bool.not_eq_true']
  constructor
  · rintro ⟨x, ⟨z, hz, rfl | rfl⟩, hx⟩
    · exact ⟨z, hz, Or.inl hx⟩
    · exact ⟨z, hz, Or.inr hx⟩
  · rintro ⟨z, hz, hx | hx⟩
    · exact ⟨z.re, ⟨z, hz, Or.inl rfl⟩, hx⟩
    · exact ⟨z.im, ⟨z, hz, Or.inr rfl⟩, hx⟩

theorem findIdx?_eq_some_iff_isLeast {α : Type} {p : α → Bool} {l : List α} {i : Nat} :
    l.findIdx? p = some i ↔ IsLeast {j | ∃ x, l[j]? = some x ∧ p x = true} i := by
  rw [List.findIdx?_eq_some_iff_getElem]
  constructor
  · rintro ⟨hi, hp, hbefore⟩
    refine ⟨⟨l[i], List.getElem?_eq_getElem hi, hp⟩, ?_⟩
    rintro j ⟨x, hx, hpx⟩
    obtain ⟨hj, rfl⟩ := List.getElem?_eq_some_iff.1 hx
    exact Nat.le_of_not_lt fun hlt => hbefore j hlt hpx
  · rintro ⟨⟨x, hx, hpx⟩, hleast⟩
    obtain ⟨hi, rfl⟩ := List.getElem?_eq_some_iff.1 hx
    refine ⟨hi, hpx, ?_⟩
    intro j hlt hpj
    have hle : i ≤ j := hleast ⟨l[j], List.getElem?_eq_getElem _, hpj⟩
    omega

theorem findIdx?_eq_none_iff_forall {α : Type} {p : α → Bool} {l : List α} :
    l.findIdx? p = none ↔ ∀ i : Nat, ¬ ∃ x, l[i]? = some x ∧ p x = true := by
  rw [List.findIdx?_eq_none_iff]
  constructor
  · rintro h i ⟨x, hx, hpx⟩
    rw [h x (List.mem_of_getElem? hx)] at hpx
    cases hpx
  · intro h x hx
    obtain ⟨i, hi⟩ := List.getElem?_of_mem hx
    exact Bool.eq_false_iff.2 fun hpx => h i ⟨x, hi, hpx⟩

/-- The first slot that is not finite is the first that is spoilt. -/
theorem firstNonFinite?_eq_some_iff {s : SlotVector} {i : Nat} :
    s.firstNonFinite? = some i ↔ IsLeast {j | s.IsSpoilt j} i := by
  cases s with
  | real values => simp only [firstNonFinite?, findIdx?_eq_some_iff_isLeast, isSpoilt_real_iff]
  | complex values =>
    simp only [firstNonFinite?, findIdx?_eq_some_iff_isLeast, isSpoilt_complex_iff]

theorem firstNonFinite?_eq_none_iff {s : SlotVector} :
    s.firstNonFinite? = none ↔ ∀ i, ¬ s.IsSpoilt i := by
  cases s with
  | real values => simp only [firstNonFinite?, findIdx?_eq_none_iff_forall, isSpoilt_real_iff]
  | complex values =>
    simp only [firstNonFinite?, findIdx?_eq_none_iff_forall, isSpoilt_complex_iff]

/-- A slot of two halves is spoilt when the slot of either is. -/
theorem isSpoilt_zipWith_iff {re im : List Double} (h : re.length = im.length) {i : Nat} :
    (complex (List.zipWith Complex.mk re im)).IsSpoilt i ↔
      (real re).IsSpoilt i ∨ (real im).IsSpoilt i := by
  by_cases hi : i < re.length
  · have hi' : i < im.length := h ▸ hi
    simp [IsSpoilt, valuesAt, List.getElem?_zipWith, List.getElem?_eq_getElem hi,
      List.getElem?_eq_getElem hi']
  · have hre : re[i]? = none := List.getElem?_eq_none (Nat.le_of_not_lt hi)
    have him : im[i]? = none := List.getElem?_eq_none (h ▸ Nat.le_of_not_lt hi)
    simp [IsSpoilt, valuesAt, List.getElem?_zipWith, hre, him]

end SlotVector

namespace Packer

open View

variable {p : Packer} {v : View} {n : Nat} {features : List Nat} {s : SlotVector}

/-! ## Batches that are fit for a packer -/

/-- The view is a batch of `n` examples that the packer divides into slots, and these are they. -/
structure Fills (p : Packer) (v : View) (n : Nat) (features : List Nat) (s : SlotVector) :
    Prop where
  shape : v.shape = n :: features
  ne_zero : n ≠ 0
  divides : n % p.factor.value = 0
  slots : slots p.factor (v.resolveOrder p.order) n v = .ok s

theorem exists_fills (h : v.shape = n :: features) (hn : n ≠ 0) (hdiv : n % p.factor.value = 0) :
    ∃ s, p.Fills v n features s := by
  obtain ⟨s, hs⟩ := exists_slots h hdiv (v.resolveOrder p.order)
  exact ⟨s, h, hn, hdiv, hs⟩

namespace Fills

theorem pack_eq_ok_iff (h : p.Fills v n features s) {packed : PackedBatch} :
    p.pack v = .ok packed ↔ (∀ i, ¬ s.IsSpoilt i) ∧
      packed = ⟨s, ⟨n, features, v.resolveOrder p.order, p.factor⟩⟩ := by
  rw [pack_of_slots h.shape h.ne_zero h.divides h.slots, ← SlotVector.firstNonFinite?_eq_none_iff]
  cases s.firstNonFinite? with
  | none => simp [eq_comm]
  | some i => simp

theorem exists_pack_iff (h : p.Fills v n features s) :
    (∃ packed, p.pack v = .ok packed) ↔ ∀ i, ¬ s.IsSpoilt i := by
  simp only [h.pack_eq_ok_iff, exists_and_left, exists_eq, and_true]

theorem pack_eq_nonFinite_iff (h : p.Fills v n features s) {i : Nat} :
    p.pack v = .error (.nonFinite i) ↔ IsLeast {j | s.IsSpoilt j} i := by
  rw [pack_of_slots h.shape h.ne_zero h.divides h.slots, ← SlotVector.firstNonFinite?_eq_some_iff]
  cases s.firstNonFinite? with
  | none => simp
  | some j => simp

/-- A batch that is fit for the packer is packed, or refused for a slot that is spoilt. -/
theorem pack_cases (h : p.Fills v n features s) :
    (∃ packed, p.pack v = .ok packed) ∨ ∃ i, p.pack v = .error (.nonFinite i) := by
  rw [pack_of_slots h.shape h.ne_zero h.divides h.slots]
  cases s.firstNonFinite? with
  | none => exact Or.inl ⟨_, rfl⟩
  | some i => exact Or.inr ⟨i, rfl⟩

end Fills

/-! ## Halves -/

/-- Examples packed one to a slot in a definite order. -/
theorem fills_examples (h : v.shape = n :: features) {order : ElementOrder}
    (horder : order ≠ .native) (start count : Nat) (hcount : count ≠ 0) :
    Fills ⟨order, .one⟩ (v.examples start count) count features
      (.real ((v.examples start count).flatten order)) where
  shape := shape_examples h start count
  ne_zero := hcount
  divides := Nat.mod_one count
  slots := by rw [slots_one, View.resolveOrder_of_ne_native _ horder]

theorem fills_two (h : v.shape = n :: features) (hn : n ≠ 0) (heven : n % 2 = 0)
    (order : ElementOrder) :
    Fills ⟨order, .two⟩ v n features (.complex (List.zipWith Complex.mk
      ((v.examples 0 (n / 2)).flatten (v.resolveOrder order))
      ((v.examples (n / 2) (n / 2)).flatten (v.resolveOrder order)))) where
  shape := h
  ne_zero := hn
  divides := heven
  slots := by
    have hhalf : n - n / 2 = n / 2 := by omega
    rw [slots_two h heven, hhalf]

/-- Packing two examples to a slot is packing each half of the batch one example to a slot, in the
order that was resolved on the whole batch: it succeeds when both do, and then lays the one over the
other; else the first slot that is spoilt is the first that is spoilt in a half. -/
theorem pack_halves (h : v.shape = n :: features) (hn : 2 ≤ n) (heven : n % 2 = 0)
    (order : ElementOrder) :
    let first := pack ⟨v.resolveOrder order, .one⟩ (v.examples 0 (n / 2))
    let second := pack ⟨v.resolveOrder order, .one⟩ (v.examples (n / 2) (n / 2))
    let whole := pack ⟨order, .two⟩ v
    ((∃ packed, whole = .ok packed) ↔ (∃ a, first = .ok a) ∧ ∃ b, second = .ok b) ∧
    (∀ a b, first = .ok a → second = .ok b →
      ∃ re im s, a.slots = .real re ∧ b.slots = .real im ∧ SlotVector.ofHalves? re im = some s ∧
        whole = .ok ⟨s, ⟨n, features, v.resolveOrder order, .two⟩⟩) ∧
    ((¬ ∃ packed, whole = .ok packed) → ∃ i, whole = .error (.nonFinite i) ∧
      IsLeast {j | first = .error (.nonFinite j) ∨ second = .error (.nonFinite j)} i) := by
  intro first second whole
  have horder := v.resolveOrder_ne_native order
  have hfirst := fills_examples h horder 0 (n / 2) (by omega)
  have hsecond := fills_examples h horder (n / 2) (n / 2) (by omega)
  have hwhole := fills_two h (by omega) heven order
  have hlength : ((v.examples 0 (n / 2)).flatten (v.resolveOrder order)).length =
      ((v.examples (n / 2) (n / 2)).flatten (v.resolveOrder order)).length := by
    rw [length_flatten, length_flatten, shape_examples h, shape_examples h]
  -- From here on the halves are two lists of one length.
  generalize (v.examples 0 (n / 2)).flatten (v.resolveOrder order) = re at hfirst hwhole hlength
  generalize (v.examples (n / 2) (n / 2)).flatten (v.resolveOrder order) = im
    at hsecond hwhole hlength
  have hspoilt := @SlotVector.isSpoilt_zipWith_iff re im hlength
  refine ⟨?_, ?_, ?_⟩
  · rw [hwhole.exists_pack_iff, hfirst.exists_pack_iff, hsecond.exists_pack_iff]
    simp only [hspoilt, not_or, forall_and]
  · intro a b ha hb
    obtain ⟨hre, rfl⟩ := hfirst.pack_eq_ok_iff.1 ha
    obtain ⟨him, rfl⟩ := hsecond.pack_eq_ok_iff.1 hb
    refine ⟨re, im, _, rfl, rfl, SlotVector.ofHalves?_eq_some hlength,
      hwhole.pack_eq_ok_iff.2 ⟨?_, rfl⟩⟩
    intro i hi
    rcases hspoilt.1 hi with hi | hi
    · exact hre i hi
    · exact him i hi
  · intro hfails
    obtain ⟨i, hi⟩ := hwhole.pack_cases.resolve_left hfails
    obtain ⟨hmem, hbound⟩ := hwhole.pack_eq_nonFinite_iff.1 hi
    have hleast : ∀ j, (SlotVector.real re).IsSpoilt j ∨ (SlotVector.real im).IsSpoilt j → i ≤ j :=
      fun j hj => hbound (hspoilt.2 hj)
    refine ⟨i, hi, ?_, ?_⟩
    · rcases hspoilt.1 hmem with hmem | hmem
      · exact Or.inl (hfirst.pack_eq_nonFinite_iff.2 ⟨hmem, fun j hj => hleast j (Or.inl hj)⟩)
      · exact Or.inr (hsecond.pack_eq_nonFinite_iff.2 ⟨hmem, fun j hj => hleast j (Or.inr hj)⟩)
    · rintro j (hj | hj)
      · exact hleast j (Or.inl (hfirst.pack_eq_nonFinite_iff.1 hj).1)
      · exact hleast j (Or.inr (hsecond.pack_eq_nonFinite_iff.1 hj).1)

/-- Four examples stored column by column, in which the halves are spoilt at different slots.
Neither half is contiguous, so by itself it would be taken row by row. -/
theorem pack_halves_spoilt :
    let v := View.ofColumnMajor [4, 2] [⟨false, 1⟩, ⟨true, 2⟩, ⟨false, 3⟩, .nan, .infinity true,
      ⟨true, 6⟩, ⟨false, 7⟩, ⟨true, 8⟩]
    v.resolveOrder .native = .columnMajor ∧
      (v.examples 0 2).resolveOrder .native = .rowMajor ∧
      pack ⟨.columnMajor, .one⟩ (v.examples 0 2) = .error (.nonFinite 2) ∧
      pack ⟨.columnMajor, .one⟩ (v.examples 2 2) = .error (.nonFinite 1) ∧
      ∃ i, pack ⟨.native, .two⟩ v = .error (.nonFinite i) ∧
        IsLeast {j | pack ⟨.columnMajor, .one⟩ (v.examples 0 2) = .error (.nonFinite j) ∨
          pack ⟨.columnMajor, .one⟩ (v.examples 2 2) = .error (.nonFinite j)} i := by
  intro v
  obtain ⟨hiff, -, hfails⟩ := @pack_halves v 4 [2] rfl (by decide) (by decide) .native
  have hfirst : pack ⟨.columnMajor, .one⟩ (v.examples 0 2) = .error (.nonFinite 2) := rfl
  refine ⟨rfl, rfl, hfirst, rfl, hfails ?_⟩
  intro hok
  obtain ⟨⟨a, ha⟩, -⟩ := hiff.1 hok
  exact nomatch hfirst.symm.trans ha

end Packer

end EncryptedInference
