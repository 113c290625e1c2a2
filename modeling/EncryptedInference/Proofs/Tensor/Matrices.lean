import EncryptedInference.Proofs.Tensor.Positions

/-!
# Rows and columns of a matrix

The rows of a matrix, and those of the transposed matrix, by their entries (`Matrix.toRows_of_full`,
`Matrix.toRows_transpose`).  Transposing exchanges the indices (`Matrix.get_transpose`), and twice
it gives the matrix back (`Matrix.transpose_transpose`).
-/

namespace EncryptedInference.Matrix

/-- Rows of one length, one after the other, are cut apart again. -/
theorem pieces_flatten {size : Nat} {rows : List (List Double)}
    (h : ∀ row ∈ rows, row.length = size) : pieces size rows.length rows.flatten = rows := by
  induction rows with
  | nil => rfl
  | cons row rows ih =>
    have hrow : row.length = size := h row List.mem_cons_self
    have htail := ih fun other hother => h other (List.mem_cons_of_mem row hother)
    rw [List.length_cons, List.flatten_cons, pieces, List.take_left' hrow, List.drop_left' hrow,
      htail]

/-- A matrix has as many entries as its shape says. -/
def IsFull (m : Matrix) : Prop := m.data.length = m.rows * m.cols

instance (m : Matrix) : Decidable m.IsFull := inferInstanceAs (Decidable (_ = _))

variable {m : Matrix}

theorem row_eq (h : m.IsFull) {i : Nat} (hi : i < m.rows) :
    m.row i = (List.range m.cols).map (m.get i) := by
  have hle : (i + 1) * m.cols ≤ m.data.length := by
    rw [h]
    exact Nat.mul_le_mul_right _ hi
  rw [Nat.succ_mul] at hle
  apply List.ext_getElem
  · rw [row, List.length_take, List.length_drop, List.length_map, List.length_range]
    omega
  · intro j _ hj
    have hlt : j < m.cols := by simpa using hj
    have hdata : i * m.cols + j < m.data.length := by omega
    simp [row, get, List.getElem?_eq_getElem hdata]

theorem toRows_of_full (h : m.IsFull) :
    m.toRows = (List.range m.rows).map fun i => (List.range m.cols).map (m.get i) := by
  rw [toRows_eq]
  exact List.map_congr_left fun i hi => row_eq h (List.mem_range.1 hi)

theorem length_toRows (m : Matrix) : m.toRows.length = m.rows := by
  rw [toRows_eq, List.length_map, List.length_range]

theorem length_of_mem_toRows (h : m.IsFull) {row : List Double} (hrow : row ∈ m.toRows) :
    row.length = m.cols := by
  rw [toRows_of_full h] at hrow
  obtain ⟨i, -, rfl⟩ := List.mem_map.1 hrow
  rw [List.length_map, List.length_range]

theorem get_toView_transpose (m : Matrix) (i j : Nat) :
    m.toView.transpose.get [j, i] = m.get i j := by
  have hlength : [i, j].length = m.toView.axes.length := rfl
  have htranspose : m.toView.transpose.get [j, i] = m.toView.get [i, j] :=
    m.toView.get_transpose hlength
  rw [htranspose, toView, View.get_ofRowMajor]
  simp [View.place, get]

theorem data_transpose (m : Matrix) :
    m.transpose.data =
      ((List.range m.cols).map fun j => (List.range m.rows).map (m.get · j)).flatten := by
  have hshape : m.toView.transpose.shape = [m.cols, m.rows] := by
    rw [View.shape_transpose, toView, View.shape_ofRowMajor]
    rfl
  have hindices : View.indices [m.cols, m.rows] =
      (List.range m.cols).flatMap fun j => (List.range m.rows).map fun i => [j, i] := by
    simp only [View.indices, List.map_cons, List.map_nil, ← List.map_eq_flatMap, List.map_map,
      Function.comp_def]
  rw [transpose, View.elements_eq, hshape, hindices]
  simp [List.flatMap_def, Function.comp_def, get_toView_transpose]

/-- The rows of the transposed matrix are the columns. -/
theorem toRows_transpose (m : Matrix) :
    m.transpose.toRows = (List.range m.cols).map fun j => (List.range m.rows).map (m.get · j) := by
  have hrow : ∀ row ∈ (List.range m.cols).map fun j => (List.range m.rows).map (m.get · j),
      row.length = m.rows := by
    simp
  have hpieces := pieces_flatten hrow
  rw [List.length_map, List.length_range, ← data_transpose] at hpieces
  exact hpieces

theorem isFull_transpose (m : Matrix) : m.transpose.IsFull := by
  show m.transpose.data.length = m.cols * m.rows
  rw [data_transpose, ← List.flatMap_def]
  simp [List.length_flatMap]

theorem get_transpose (m : Matrix) {i j : Nat} (hi : i < m.rows) (hj : j < m.cols) :
    m.transpose.get j i = m.get i j := by
  have hlength : ∀ k, ((List.range m.rows).map (m.get · k)).length = m.rows := by simp
  have hentry : m.transpose.data[j * m.rows + i]? = some (m.get i j) := by
    rw [data_transpose, ← List.flatMap_def, getElem?_flatMap_range hlength hj hi]
    simp [hi]
  show m.transpose.data.getD (j * m.rows + i) .zero = _
  rw [List.getD_eq_getElem?_getD, hentry, Option.getD_some]

theorem flatten_pieces (size count : Nat) (values : List Double) :
    (pieces size count values).flatten = values.take (count * size) := by
  induction count generalizing values with
  | zero => simp [pieces]
  | succ count ih =>
    rw [pieces, List.flatten_cons, ih, Nat.succ_mul, Nat.add_comm, List.take_add]

theorem transpose_transpose (h : m.IsFull) : m.transpose.transpose = m := by
  have hrows : (List.range m.rows).map (fun i => (List.range m.cols).map (m.transpose.get · i)) =
      m.toRows := by
    rw [toRows_of_full h]
    refine List.map_congr_left fun i hi => List.map_congr_left fun j hj => ?_
    exact get_transpose m (List.mem_range.1 hi) (List.mem_range.1 hj)
  have hdata : m.transpose.transpose.data = m.data := by
    rw [data_transpose]
    show ((List.range m.rows).map fun i => (List.range m.cols).map (m.transpose.get · i)).flatten =
      m.data
    rw [hrows, toRows, flatten_pieces, ← h, List.take_length]
  exact congrArg (Matrix.mk m.rows m.cols) hdata

end EncryptedInference.Matrix
