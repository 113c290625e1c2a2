import EncryptedInference.Batch.Packing
import Mathlib.Data.List.Forall2

/-!
# Multi-indices and their places

Values fill a shape if they are as many as its elements (`shapeFault?_eq_none_iff`).
`indices shape` lists the multi-indices of a shape with the last axis fastest, and
`place shape index` is where a multi-index stands in that list.  A view lists its elements in this
order (`elements_eq`), so an array made of a list gives back the value at the place of the
multi-index (`get_ofRowMajor`, `get_ofColumnMajor`).
-/

namespace EncryptedInference

theorem foldl_mul_eq (k : Nat) (shape : List Nat) :
    shape.foldl (· * ·) k = k * elementCount shape := by
  unfold elementCount
  induction shape generalizing k with
  | nil => simp
  | cons n shape ih =>
    simp only [List.foldl_cons]
    rw [ih (k * n), ih (1 * n)]
    simp only [Nat.one_mul, Nat.mul_assoc]

@[simp] theorem elementCount_nil : elementCount [] = 1 := rfl

@[simp] theorem elementCount_cons (n : Nat) (shape : List Nat) :
    elementCount (n :: shape) = n * elementCount shape := by
  show shape.foldl (· * ·) (1 * n) = _
  rw [foldl_mul_eq, Nat.one_mul]

theorem elementCount_singleton (n : Nat) : elementCount [n] = n := by
  rw [elementCount_cons, elementCount_nil, Nat.mul_one]

theorem elementCount_append (a b : List Nat) :
    elementCount (a ++ b) = elementCount a * elementCount b := by
  show (a ++ b).foldl (· * ·) 1 = _
  rw [List.foldl_append, foldl_mul_eq]
  rfl

theorem elementCount_reverse (shape : List Nat) :
    elementCount shape.reverse = elementCount shape := by
  induction shape with
  | nil => rfl
  | cons n shape ih =>
    rw [List.reverse_cons, elementCount_append, ih, elementCount_cons, elementCount_cons,
      elementCount_nil, Nat.mul_one, Nat.mul_comm]

/-! ## Shapes that are filled -/

/-- A shape that has elements has no empty axis to leave out. -/
theorem filter_of_elementCount_ne_zero {shape : List Nat} (h : elementCount shape ≠ 0) :
    shape.filter (· ≠ 0) = shape := by
  induction shape with
  | nil => rfl
  | cons n shape ih =>
    rw [elementCount_cons] at h
    obtain ⟨hn, hrest⟩ := Nat.mul_ne_zero_iff.1 h
    rw [List.filter_cons_of_pos (by simpa using hn), ih hrest]

/-- Values fill a shape if they are as many as its elements and it does not span too much. -/
theorem shapeFault?_eq_none_iff {shape : List Nat} {values : Nat} :
    shapeFault? shape values = none ↔
      elementCount (shape.filter (· ≠ 0)) ≤ maxElements ∧ values = elementCount shape := by
  unfold shapeFault?
  dsimp only
  split_ifs with hspan hfew hmany
  · exact iff_of_false nofun fun h => absurd h.1 (Nat.not_le.2 hspan)
  · exact iff_of_false nofun fun h => absurd h.2 (Nat.ne_of_lt hfew)
  · exact iff_of_false nofun fun h => absurd h.2 (Nat.ne_of_gt hmany)
  · exact iff_of_true rfl ⟨Nat.not_lt.1 hspan, by omega⟩

/-! ## Pieces of one size -/

/-- The element `j` of piece `i` of a list that is made of pieces of one size. -/
theorem getElem?_flatMap_range {α : Type} {f : Nat → List α} {size : Nat}
    (hf : ∀ i, (f i).length = size) {n i j : Nat} (hi : i < n) (hj : j < size) :
    ((List.range n).flatMap f)[i * size + j]? = (f i)[j]? := by
  have hlen (n : Nat) : ((List.range n).flatMap f).length = n * size := by
    simp [List.length_flatMap, hf]
  induction n with
  | zero => omega
  | succ n ih =>
    rw [List.range_succ, List.flatMap_append, List.flatMap_singleton]
    by_cases h : i < n
    · have hle : (i + 1) * size ≤ n * size := Nat.mul_le_mul_right size h
      rw [Nat.succ_mul] at hle
      have hlt : i * size + j < ((List.range n).flatMap f).length := by
        rw [hlen]
        omega
      rw [List.getElem?_append_left hlt, ih h]
    · obtain rfl : i = n := by omega
      have hge : ((List.range i).flatMap f).length ≤ i * size + j := by
        rw [hlen]
        omega
      rw [List.getElem?_append_right hge, hlen, Nat.add_sub_cancel_left]

namespace View

/-! ## Multi-indices -/

/-- The multi-indices of a shape, the last axis fastest. -/
def indices : List Nat → List (List Nat)
  | [] => [[]]
  | n :: shape => (List.range n).flatMap fun i => (indices shape).map (i :: ·)

/-- The place of a multi-index among those of its shape. -/
def place : List Nat → List Nat → Nat
  | _ :: shape, i :: index => i * elementCount shape + place shape index
  | _, _ => 0

theorem mem_indices {shape index : List Nat} :
    index ∈ indices shape ↔ List.Forall₂ (· < ·) index shape := by
  induction shape generalizing index with
  | nil => simp [indices]
  | cons n shape ih =>
    cases index with
    | nil => simp [indices]
    | cons i index => simp [indices, ih]

/-- What holds of all multi-indices of a shape can be found out by listing them. -/
theorem forall_mem_indices {shape : List Nat} {p : List Nat → Prop} :
    (∀ index ∈ indices shape, p index) ↔ ∀ index, List.Forall₂ (· < ·) index shape → p index := by
  simp only [mem_indices]

theorem length_indices (shape : List Nat) : (indices shape).length = elementCount shape := by
  induction shape with
  | nil => rfl
  | cons n shape ih => simp [indices, List.length_flatMap, ih]

theorem place_lt {shape index : List Nat} (h : List.Forall₂ (· < ·) index shape) :
    place shape index < elementCount shape := by
  induction h with
  | nil => simp [place]
  | @cons i n index shape hi _ ih =>
    have hle : (i + 1) * elementCount shape ≤ n * elementCount shape :=
      Nat.mul_le_mul_right _ hi
    rw [Nat.succ_mul] at hle
    rw [place, elementCount_cons]
    omega

theorem getElem?_indices_place {shape index : List Nat} (h : List.Forall₂ (· < ·) index shape) :
    (indices shape)[place shape index]? = some index := by
  induction h with
  | nil => rfl
  | @cons i n index shape hi hrest ih =>
    have hsize : ∀ j, ((indices shape).map (j :: ·)).length = elementCount shape := by
      intro j
      rw [List.length_map, length_indices]
    have hlt := place_lt hrest
    rw [indices, place, getElem?_flatMap_range hsize hi hlt, List.getElem?_map, ih, Option.map_some]

/-! ## Elements in order -/

@[simp] theorem length_shape (v : View) : v.shape.length = v.axes.length := List.length_map _

theorem gather_eq (data : Array Double) (axes : List Axis) (address : Int) :
    gather data axes address =
      (indices (axes.map (·.length))).map fun index =>
        fetch data (address + displacement axes index) := by
  induction axes generalizing address with
  | nil => simp [gather, indices, displacement]
  | cons axis axes ih =>
    simp only [gather, List.map_cons, indices, List.map_flatMap, List.map_map]
    congr 1
    funext i
    rw [ih]
    apply List.map_congr_left
    intro index _
    simp [displacement, Int.add_assoc]

theorem indices_of_isEmpty {v : View} (h : v.isEmpty = true) : indices v.shape = [] := by
  obtain ⟨axis, hmem, hzero⟩ := List.any_eq_true.1 h
  have hmem : 0 ∈ v.shape := List.mem_map.2 ⟨axis, hmem, by simpa using hzero⟩
  generalize v.shape = shape at hmem ⊢
  induction shape with
  | nil => cases hmem
  | cons n shape ih =>
    rcases List.mem_cons.1 hmem with rfl | hmem
    · rfl
    · simp [indices, ih hmem]

/-- The elements of a view are those at its multi-indices, the last axis fastest. -/
theorem elements_eq (v : View) : v.elements = (indices v.shape).map v.get := by
  unfold elements
  by_cases h : v.isEmpty = true
  · rw [if_pos h, indices_of_isEmpty h, List.map_nil]
  · rw [if_neg h]
    exact gather_eq _ _ _

theorem length_elements (v : View) : v.elements.length = elementCount v.shape := by
  rw [elements_eq, List.length_map, length_indices]

theorem getD_elements_place (v : View) {index : List Nat}
    (h : List.Forall₂ (· < ·) index v.shape) :
    v.elements.getD (place v.shape index) .zero = v.get index := by
  rw [elements_eq, List.getD_eq_getElem?_getD, List.getElem?_map, getElem?_indices_place h]
  rfl

/-- Views of one shape with the same elements list them alike. -/
theorem elements_congr {v w : View} (hshape : v.shape = w.shape)
    (hget : ∀ index, List.Forall₂ (· < ·) index v.shape → v.get index = w.get index) :
    v.elements = w.elements := by
  rw [elements_eq, elements_eq, ← hshape]
  apply List.map_congr_left
  intro index hindex
  exact hget index (mem_indices.1 hindex)

/-! ## Arrays made of a list -/

theorem map_length_rowMajorAxes (shape : List Nat) :
    (rowMajorAxes shape).map (·.length) = shape := by
  induction shape with
  | nil => rfl
  | cons n shape ih => simp [rowMajorAxes, ih]

theorem displacement_rowMajorAxes (shape index : List Nat) :
    displacement (rowMajorAxes shape) index = place shape index := by
  induction shape generalizing index with
  | nil => simp [rowMajorAxes, displacement, place]
  | cons n shape ih =>
    cases index with
    | nil => simp [rowMajorAxes, displacement, place]
    | cons i index =>
      simp only [rowMajorAxes, displacement, place, ih]
      push_cast
      rfl

theorem fetch_toArray (values : List Double) (i : Nat) :
    fetch values.toArray (0 + (i : Int)) = values.getD i .zero := by
  simp [fetch, List.getD_eq_getElem?_getD]

@[simp] theorem shape_ofRowMajor (shape : List Nat) (values : List Double) :
    (ofRowMajor shape values).shape = shape := map_length_rowMajorAxes shape

theorem get_ofRowMajor (shape index : List Nat) (values : List Double) :
    (ofRowMajor shape values).get index = values.getD (place shape index) .zero := by
  show fetch values.toArray (0 + displacement (rowMajorAxes shape) index) = _
  rw [displacement_rowMajorAxes, fetch_toArray]

/-! ## Transposition -/

theorem displacement_append {outer inner : List Axis} {i j : List Nat}
    (h : i.length = outer.length) :
    displacement (outer ++ inner) (i ++ j) = displacement outer i + displacement inner j := by
  induction outer generalizing i with
  | nil =>
    obtain rfl := List.length_eq_zero_iff.1 h
    simp [displacement]
  | cons axis outer ih =>
    cases i with
    | nil => simp at h
    | cons k i =>
      simp only [List.cons_append, displacement, ih (Nat.succ.inj h)]
      omega

theorem displacement_reverse {axes : List Axis} {index : List Nat}
    (h : index.length = axes.length) :
    displacement axes.reverse index.reverse = displacement axes index := by
  induction axes generalizing index with
  | nil =>
    obtain rfl := List.length_eq_zero_iff.1 h
    rfl
  | cons axis axes ih =>
    cases index with
    | nil => simp at h
    | cons i index =>
      have hlen : index.length = axes.length := Nat.succ.inj h
      rw [List.reverse_cons, List.reverse_cons, displacement_append (by simpa using hlen), ih hlen]
      simp only [displacement]
      omega

@[simp] theorem shape_transpose (v : View) : v.transpose.shape = v.shape.reverse :=
  List.map_reverse

theorem get_transpose (v : View) {index : List Nat} (h : index.length = v.axes.length) :
    v.transpose.get index.reverse = v.get index := by
  show fetch v.data (v.offset + displacement v.axes.reverse index.reverse) = _
  rw [displacement_reverse h]
  rfl

theorem ofColumnMajor_eq (shape : List Nat) (values : List Double) :
    ofColumnMajor shape values = (ofRowMajor shape.reverse values).transpose := rfl

@[simp] theorem shape_ofColumnMajor (shape : List Nat) (values : List Double) :
    (ofColumnMajor shape values).shape = shape := by
  rw [ofColumnMajor_eq, shape_transpose, shape_ofRowMajor, List.reverse_reverse]

theorem get_ofColumnMajor {shape index : List Nat} (values : List Double)
    (h : index.length = shape.length) :
    (ofColumnMajor shape values).get index =
      values.getD (place shape.reverse index.reverse) .zero := by
  have hlen : index.reverse.length = (ofRowMajor shape.reverse values).axes.length := by
    rw [← length_shape, shape_ofRowMajor, List.length_reverse, List.length_reverse, h]
  have hget := get_transpose (ofRowMajor shape.reverse values) hlen
  rw [List.reverse_reverse] at hget
  rw [ofColumnMajor_eq, hget, get_ofRowMajor]

end View

end EncryptedInference
