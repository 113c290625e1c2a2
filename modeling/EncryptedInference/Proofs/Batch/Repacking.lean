import EncryptedInference.Proofs.Batch.Halves
import EncryptedInference.Proofs.Batch.RoundTrip
import Mathlib.Data.List.GetD

/-!
# Packing what was laid out

Slots that are laid out are what packing makes of the array, whatever the memory behind it looks
like (`Unpacker.slots_of_unpackShaped`).  What is laid out at all can be told from the number and
the kind of the slots, also step by step.  Together: `Unpacker.unpack_outcome`.
-/

namespace EncryptedInference

namespace View

variable {v w : View} {features : List Nat} {values : List Double} {order : ElementOrder}

/-! ## Laid out and listed again -/

theorem Shows.trans {u : View} (h : Shows v w) (h' : Shows w u) : Shows v u :=
  ⟨h.shape.trans h'.shape, fun index hindex =>
    (h.get index hindex).trans (h'.get index (h.shape ▸ hindex))⟩

theorem transpose_transpose (v : View) : v.transpose.transpose = v := by
  simp only [transpose, List.reverse_reverse]

theorem shows_ofView (v : View) : Shows (Tensor.ofView v).toView v := by
  refine ⟨shape_ofRowMajor _ _, ?_⟩
  intro index hindex
  rw [Tensor.toView, shape_ofRowMajor] at hindex
  exact Tensor.get_ofView v hindex

/-- Values that are laid out in an order are listed by it again, from any memory. -/
theorem flatten_of_shows {shape : List Nat} (hlength : values.length = elementCount shape)
    (horder : order ≠ .native) (h : Shows v (Tensor.ofOrder order shape values).toView) :
    v.flatten order = values := by
  rw [h.flatten_eq horder]
  cases order with
  | native => exact absurd rfl horder
  | rowMajor => exact elements_ofRowMajor hlength
  | columnMajor =>
    rw [← elementCount_reverse] at hlength
    rw [Tensor.ofOrder, (shows_ofView _).flatten_eq horder, flatten_columnMajor, ofColumnMajor_eq,
      transpose_transpose, elements_ofRowMajor hlength]

/-! ## Two arrays, one after the other -/

section

variable {k m : Nat} {a b : List Double}

theorem shows_examples_left (ha : a.length = elementCount (k :: features)) :
    Shows ((ofRowMajor ((k + m) :: features) (a ++ b)).examples 0 k)
      (ofRowMajor (k :: features) a) := by
  have hshape := shape_examples (shape_ofRowMajor ((k + m) :: features) (a ++ b)) 0 k
  refine ⟨by rw [hshape, shape_ofRowMajor], ?_⟩
  rw [hshape]
  intro index hindex
  have hlt : place (k :: features) index < a.length := ha ▸ place_lt hindex
  cases hindex with
  | @cons i _ index _ hi hrest =>
    rw [get_examples, Nat.zero_add, get_ofRowMajor, get_ofRowMajor]
    exact List.getD_append _ _ _ _ hlt

theorem shows_examples_right (ha : a.length = elementCount (k :: features)) :
    Shows ((ofRowMajor ((k + m) :: features) (a ++ b)).examples k m)
      (ofRowMajor (m :: features) b) := by
  have hshape := shape_examples (shape_ofRowMajor ((k + m) :: features) (a ++ b)) k m
  refine ⟨by rw [hshape, shape_ofRowMajor], ?_⟩
  rw [hshape]
  intro index hindex
  cases hindex with
  | @cons i _ index _ hi hrest =>
    have hplace : place ((k + m) :: features) ((k + i) :: index) =
        a.length + place (m :: features) (i :: index) := by
      rw [ha, elementCount_cons, place, place, Nat.add_mul, Nat.add_assoc]
    rw [get_examples, get_ofRowMajor, get_ofRowMajor, hplace,
      List.getD_append_right _ _ _ _ (Nat.le_add_right _ _), Nat.add_sub_cancel_left]

end

end View

namespace SlotVector

/-- Complex slots are their halves laid over one another. -/
theorem zipWith_halves (values : List Complex) :
    List.zipWith Complex.mk (values.map (·.re)) (values.map (·.im)) = values := by
  induction values with
  | nil => rfl
  | cons z values ih => rw [List.map_cons, List.map_cons, List.zipWith_cons_cons, ih]

end SlotVector

namespace Unpacker

open View

variable {n elements : Nat} {order : ElementOrder} {factor : PackingFactor} {s : SlotVector}
  {features : List Nat} {t : Tensor} {v : View}

/-! ## Packed again -/

/-- Of two arrays that are laid out one after the other each half of the batch shows one. -/
theorem flatten_halves_of_shows {re im : List Double} (heven : n % 2 = 0)
    (horder : order ≠ .native) (hre : re.length = elementCount (n / 2 :: features))
    (him : im.length = elementCount (n / 2 :: features))
    (hv : Shows v (Tensor.toView ⟨n :: features,
      (Tensor.ofOrder order (n / 2 :: features) re).data ++
        (Tensor.ofOrder order (n / 2 :: features) im).data⟩)) :
    (v.examples 0 (n / 2)).flatten order = re ∧
      (v.examples (n / 2) (n / 2)).flatten order = im := by
  have hsum : n / 2 + n / 2 = n := by omega
  have hshape : v.shape = n :: features := hv.shape.trans (shape_ofRowMajor _ _)
  have hdata := Tensor.length_data_ofOrder order hre
  have hleft := shows_examples_left (m := n / 2)
    (b := (Tensor.ofOrder order (n / 2 :: features) im).data) hdata
  have hright := shows_examples_right (m := n / 2)
    (b := (Tensor.ofOrder order (n / 2 :: features) im).data) hdata
  rw [hsum] at hleft hright
  constructor
  · refine flatten_of_shows hre horder ?_
    rw [Tensor.toView, Tensor.shape_ofOrder]
    exact (hv.examples hshape 0 (n / 2) (by omega)).trans hleft
  · refine flatten_of_shows him horder ?_
    rw [Tensor.toView, Tensor.shape_ofOrder]
    exact (hv.examples hshape (n / 2) (n / 2) (by omega)).trans hright

/-- Slots that are laid out are the slots of every view that shows the array. -/
theorem slots_of_unpackShaped (hdiv : n % factor.value = 0) (horder : order ≠ .native)
    (h : unpackShaped ⟨n, elementCount features, order, factor⟩ s features = .ok t)
    (hv : Shows v t.toView) : Packer.slots factor order n v = .ok s := by
  have haccepts := accepts_of_unpackShaped hdiv h
  dsimp only at haccepts
  cases haccepts with
  | real hvalues =>
    obtain rfl := Except.ok.inj ((unpackShaped_real hvalues order features).symm.trans h)
    rw [← elementCount_cons] at hvalues
    rw [Packer.slots_one, flatten_of_shows hvalues horder hv]
  | @complex values hvalues =>
    obtain rfl := Except.ok.inj ((unpackShaped_complex hdiv hvalues order features).symm.trans h)
    have heven : n % 2 = 0 := hdiv
    have hhalf : n - n / 2 = n / 2 := by omega
    have hshape : v.shape = n :: features := hv.shape.trans (shape_ofRowMajor _ _)
    rw [← elementCount_cons] at hvalues
    obtain ⟨hfirst, hsecond⟩ := flatten_halves_of_shows heven horder
      (by rwa [List.length_map]) (by rwa [List.length_map]) hv
    rw [Packer.slots_two hshape heven, hhalf, hfirst, hsecond, SlotVector.zipWith_halves]

theorem resolveFlat_ne_native (order : ElementOrder) : order.resolveFlat ≠ .native := by
  cases order <;> simp [ElementOrder.resolveFlat]

/-- Finite slots that are laid out are packed again as they were. -/
theorem pack_of_unpackShaped (hn : n ≠ 0) (hdiv : n % factor.value = 0) (horder : order ≠ .native)
    (hfinite : s.isFinite = true)
    (h : unpackShaped ⟨n, elementCount features, order, factor⟩ s features = .ok t)
    (hshape : t.shape = n :: features) (hv : Shows v t.toView) :
    Packer.pack ⟨order, factor⟩ v = .ok ⟨s, ⟨n, features, order, factor⟩⟩ := by
  have hresolve := v.resolveOrder_of_ne_native horder
  have hfills : Packer.Fills ⟨order, factor⟩ v n features s := by
    refine ⟨hv.shape.trans ((shape_ofRowMajor _ _).trans hshape), hn, hdiv, ?_⟩
    rw [hresolve]
    exact slots_of_unpackShaped hdiv horder h hv
  rw [hfills.pack_eq_ok_iff, hresolve, ← SlotVector.firstNonFinite?_eq_none_iff]
  exact ⟨Option.isNone_iff_eq_none.1 hfinite, rfl⟩

end Unpacker

namespace Unpacker

open View

variable {n : Nat} {factor : PackingFactor} {s : SlotVector}

/-! ## Rows -/

/-- A matrix that finite slots are laid out as is packed as those slots. -/
theorem pack_of_unpack {elements : Nat} {order : ElementOrder} {m : Matrix} {v : View} (hn : n ≠ 0)
    (hdiv : n % factor.value = 0) (horder : order ≠ .native) (hfinite : s.isFinite = true)
    (h : unpack ⟨n, elements, order, factor⟩ s = .ok m) (hv : Shows v m.toView) :
    Packer.pack ⟨order, factor⟩ v = .ok ⟨s, ⟨n, [elements], order, factor⟩⟩ := by
  obtain ⟨t, ht, hm⟩ := exists_of_bind_eq_ok h
  obtain rfl := Except.ok.inj hm
  have hcount := (elementCount_singleton elements).symm
  have hshape : t.shape = [n, elements] := shape_of_unpackShaped hdiv ht
  have htensor : t.toView = Matrix.toView ⟨n, elements, t.data⟩ := by
    rw [Tensor.toView, hshape]
    rfl
  have hlaid : unpackShaped ⟨n, elementCount [elements], order, factor⟩ s [elements] = .ok t := by
    rwa [← hcount]
  exact pack_of_unpackShaped hn hdiv horder hfinite hlaid hshape (htensor ▸ hv)

/-- What an unpacker makes of slots.  It lays out those of the right number and kind, reports a
wrong number whatever the kind is, and else a wrong kind; the same becomes of the slots step by
step, so that no shape is found not to fit.  The matrix has a row for each example, and finite slots
are what packing makes of it again, whatever the memory behind it looks like. -/
theorem unpack_outcome {n elements : Nat} {order : ElementOrder} {factor : PackingFactor}
    {u : Unpacker} (hu : create n elements order factor = .ok u) (s : SlotVector) :
    ((∃ m, u.unpack s = .ok m) ↔
      s.length = n * elements / factor.value ∧ s.kind = .ofFactor factor) ∧
    (s.length ≠ n * elements / factor.value → u.unpack s =
      .error (.lengthMismatch (n * elements / factor.value) s.length n elements factor.value)) ∧
    (s.length = n * elements / factor.value → s.kind ≠ .ofFactor factor →
      u.unpack s = .error (.laneKindMismatch (.ofFactor factor) s.kind factor.value)) ∧
    (s.valueCount ≤ maxElements → u.assemble s = (u.unpack s).mapError .refused) ∧
    ∀ m, u.unpack s = .ok m →
      m.rows = n ∧ m.cols = elements ∧ m.data.length = n * elements ∧
        (s.isFinite = true → ∀ v, Shows v m.toView →
          Packer.pack ⟨order.resolveFlat, factor⟩ v =
            .ok ⟨s, ⟨n, [elements], order.resolveFlat, factor⟩⟩) := by
  obtain ⟨hn, -, hdiv, rfl⟩ := create_eq_ok_iff.1 hu
  refine ⟨exists_unpack_iff hdiv, fun hlength => unpack_of_length_ne hlength, ?_, ?_, ?_⟩
  · intro hlength hkind
    rw [unpack, unpackShaped_of_kind_ne hlength hkind]
    rfl
  · intro hmax
    exact assemble_eq hu hmax
  · intro m hm
    obtain ⟨hrows, hcols, hlength⟩ := length_data_of_unpack hdiv hm
    refine ⟨hrows, hcols, hlength, ?_⟩
    intro hfinite v hv
    exact pack_of_unpack hn hdiv (resolveFlat_ne_native order) hfinite hm hv

/-- Four examples of two values, two to a slot.  Each half of the matrix is laid out column by
column, and so it is packed from a matrix that lies in memory column by column as a whole. -/
theorem unpack_columns :
    let u : Unpacker := ⟨4, 2, .columnMajor, .two⟩
    let s : SlotVector := .complex [⟨.ofNat 1, .ofNat 5⟩, ⟨.ofNat 2, .ofNat 6⟩,
      ⟨.ofNat 3, .ofNat 7⟩, ⟨.ofNat 4, .ofNat 8⟩]
    let m : Matrix := ⟨4, 2, [1, 3, 2, 4, 5, 7, 6, 8].map .ofNat⟩
    let v := View.ofColumnMajor [4, 2] ([1, 2, 5, 6, 3, 4, 7, 8].map .ofNat)
    create 4 2 .columnMajor .two = .ok u ∧ u.unpack s = .ok m ∧
      u.unpack (.real [.nan]) = .error (.lengthMismatch 4 1 4 2 2) ∧
      Packer.pack ⟨.columnMajor, .two⟩ v = .ok ⟨s, ⟨4, [2], .columnMajor, .two⟩⟩ := by
  intro u s m v
  have hu : create 4 2 .columnMajor .two = .ok u := rfl
  obtain ⟨-, -, -, -, hlaid⟩ := unpack_outcome hu s
  obtain ⟨-, hlength, -, -, -⟩ := unpack_outcome hu (.real [.nan])
  have hm : u.unpack s = .ok m := by decide +kernel
  have hv : Shows v m.toView := ⟨rfl, forall_mem_indices.1 (by decide +kernel)⟩
  obtain ⟨-, -, -, hpack⟩ := hlaid m hm
  exact ⟨hu, hm, hlength (by decide), hpack (by decide +kernel) v hv⟩

end Unpacker

end EncryptedInference
