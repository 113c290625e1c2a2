import EncryptedInference.Tensor.Order
import EncryptedInference.Double.Basic
/-!
# Strided views

A view gives the shape of an array to a block of memory: the element at a multi-index lies at the
offset plus, for each axis, the index times the stride of the axis. Transposing a view, inverting an
axis and choosing positions change the offset and the axes only. Reading outside the block gives
zero.

`View.elements` lists a view with the last axis fastest; `View.isStandard` says that this is the
order in memory.
-/

namespace EncryptedInference

/-- One axis of a view: how many positions it has, and how far apart they lie. -/
structure Axis where
  length : Nat
  stride : Int
  deriving DecidableEq, Inhabited

/-- An array laid over a block of memory. -/
structure View where
  data : Array Double
  offset : Int
  axes : List Axis

namespace View

def shape (v : View) : List Nat := v.axes.map (·.length)

/-! ## Elements -/

/-- The double at an address. -/
def fetch (data : Array Double) (address : Int) : Double :=
  if 0 ≤ address then data.getD address.toNat .zero else .zero

/-- The address of a multi-index, counted from the offset. -/
def displacement : List Axis → List Nat → Int
  | axis :: axes, i :: index => i * axis.stride + displacement axes index
  | _, _ => 0

/-- The element at a multi-index. -/
def get (v : View) (index : List Nat) : Double :=
  fetch v.data (v.offset + displacement v.axes index)

/-- The elements below an address, the last axis fastest. -/
def gather (data : Array Double) : List Axis → Int → List Double
  | [], address => [fetch data address]
  | axis :: axes, address =>
    (List.range axis.length).flatMap fun (i : Nat) => gather data axes (address + i * axis.stride)

/-- Some axis has no position, so that there is no element. -/
def isEmpty (v : View) : Bool := v.axes.any (fun axis => axis.length = 0)

/-- All elements, the last axis fastest. -/
def elements (v : View) : List Double :=
  if v.isEmpty then [] else gather v.data v.axes v.offset

/-! ## Contiguous views -/

/-- The axes of an array of the given shape whose elements lie side by side, the last axis
fastest. -/
def rowMajorAxes : List Nat → List Axis
  | [] => []
  | n :: shape => ⟨n, (shape.foldl (· * ·) 1 : Nat)⟩ :: rowMajorAxes shape

/-- Values listed with the last axis fastest, as an array of the given shape. -/
def ofRowMajor (shape : List Nat) (values : List Double) : View :=
  ⟨values.toArray, 0, rowMajorAxes shape⟩

/-- Values listed with the first axis fastest, as an array of the given shape. -/
def ofColumnMajor (shape : List Nat) (values : List Double) : View :=
  ⟨values.toArray, 0, (rowMajorAxes shape.reverse).reverse⟩

/-- Whether the strides of axes, innermost first, are those of elements lying side by side in steps
of `step`; the stride of an axis of length one does not count. -/
def contiguousFrom (step : Int) : List Axis → Bool
  | [] => true
  | axis :: outer =>
    if axis.length = 1 then contiguousFrom step outer
    else axis.stride = step && contiguousFrom (step * axis.length) outer

/-- The memory order is the order with the last axis fastest. An array without elements is in any
order. -/
def isStandard (v : View) : Bool :=
  v.isEmpty || contiguousFrom 1 v.axes.reverse

/-! ## Operations -/

/-- The axes in reverse. -/
def transpose (v : View) : View := { v with axes := v.axes.reverse }

/-- An axis run backwards. -/
def invertAxis (v : View) (a : Nat) : View :=
  match v.axes[a]? with
  | some axis =>
    { v with
      offset := v.offset + ((axis.length - 1 : Nat) : Int) * axis.stride
      axes := v.axes.set a ⟨axis.length, -axis.stride⟩ }
  | none => v

/-- A position on an axis; a negative one counts from the end. -/
def position (length : Nat) (i : Int) : Nat :=
  if i < 0 then (length + i).toNat else i.toNat

/-- One position of an axis; the axis is gone. -/
def select (v : View) (a : Nat) (i : Int) : View :=
  match v.axes[a]? with
  | some axis =>
    { v with
      offset := v.offset + position axis.length i * axis.stride
      axes := v.axes.eraseIdx a }
  | none => v

/-- The examples `start, …, start + count - 1`: positions of the first axis. -/
def examples (v : View) (start count : Nat) : View :=
  match v.axes with
  | axis :: axes =>
    ⟨v.data, v.offset + start * axis.stride, ⟨count, axis.stride⟩ :: axes⟩
  | [] => v

/-! ## Orders -/

/-- The order that a request for `order` means on this view: the native order is the one with the
first axis fastest only if that, and not the other, is the order in memory. -/
def resolveOrder (v : View) : ElementOrder → ElementOrder
  | .native => if !v.isStandard && v.transpose.isStandard then .columnMajor else .rowMajor
  | order => order

/-- The elements in a given order. -/
def flatten (v : View) (order : ElementOrder) : List Double :=
  match v.resolveOrder order with
  | .columnMajor => v.transpose.elements
  | _ => v.elements

end View

/-- An array of doubles: its shape, and its elements with the last axis fastest. -/
structure Tensor where
  shape : List Nat
  data : List Double
  deriving DecidableEq

namespace Tensor

/-- A view copied out. -/
def ofView (v : View) : Tensor := ⟨v.shape, v.elements⟩

/-- The array of a given shape whose elements, listed in a given order, are `values`. -/
def ofOrder (order : ElementOrder) (shape : List Nat) (values : List Double) : Tensor :=
  match order with
  | .columnMajor => ofView (View.ofColumnMajor shape values)
  | _ => ⟨shape, values⟩

def toView (t : Tensor) : View := View.ofRowMajor t.shape t.data

/-- The element at a multi-index. -/
def get (t : Tensor) (index : List Nat) : Double := t.toView.get index

end Tensor

/-- A matrix of doubles, row after row. -/
structure Matrix where
  rows : Nat
  cols : Nat
  data : List Double
  deriving DecidableEq

namespace Matrix

def toView (m : Matrix) : View := View.ofRowMajor [m.rows, m.cols] m.data

def get (m : Matrix) (i j : Nat) : Double := m.data.getD (i * m.cols + j) .zero

def row (m : Matrix) (i : Nat) : List Double := (m.data.drop (i * m.cols)).take m.cols

/-- Cuts `count` pieces of `size` values off a list. -/
def pieces (size : Nat) : (count : Nat) → List Double → List (List Double)
  | 0, _ => []
  | count + 1, values => values.take size :: pieces size count (values.drop size)

theorem pieces_eq (size count : Nat) (values : List Double) :
    pieces size count values =
      (List.range count).map fun i => (values.drop (i * size)).take size := by
  induction count generalizing values with
  | zero => rfl
  | succ count ih =>
    simp [pieces, ih, List.range_succ_eq_map, Nat.succ_mul, Nat.add_comm]

/-- The rows, each a list of `cols` values. -/
def toRows (m : Matrix) : List (List Double) := pieces m.cols m.rows m.data

theorem toRows_eq (m : Matrix) : m.toRows = (List.range m.rows).map m.row :=
  pieces_eq m.cols m.rows m.data

def transpose (m : Matrix) : Matrix := ⟨m.cols, m.rows, m.toView.transpose.elements⟩

end Matrix

end EncryptedInference
