import EncryptedInference.Batch.Unpacking
/-!
# Laying slots out step by step

Slots can also be laid out by steps each of which looks at the shapes it is given: values are put
into a shape, two arrays are put one after the other, an array is taken for a matrix. A step that is
given shapes that do not fit fails by itself, whatever was checked before.
-/

namespace EncryptedInference

/-- Why slots cannot be laid out step by step: they are refused, or a shape does not fit. -/
inductive AssemblyError
  | refused (error : UnpackError)
  /-- Values do not fill the shape that they are put into. -/
  | unfilled (fault : ShapeFault)
  /-- There is no first axis to put arrays together on. -/
  | noAxis
  /-- Arrays differ on another axis than the first, or there are not two axes. -/
  | incompatible
  deriving DecidableEq

namespace AssemblyError

def message : AssemblyError → String
  | refused e => e.message
  | unfilled fault => "reshape failed: " ++ fault.message
  | noAxis => "reshape failed: ShapeError/OutOfBounds: out of bounds indexing"
  | incompatible => "reshape failed: ShapeError/IncompatibleShape: incompatible shapes"

end AssemblyError

namespace Tensor

/-- The array of a given shape whose elements, listed in a given order, are `values`; they have to
fill it. -/
def fill (order : ElementOrder) (shape : List Nat) (values : List Double) :
    Except AssemblyError Tensor :=
  match shapeFault? shape values.length with
  | some fault => .error (.unfilled fault)
  | none => .ok (ofOrder order shape values)

/-- Two arrays one after the other on their first axis; they have to be alike on the others. -/
def concatenate (a b : Tensor) : Except AssemblyError Tensor :=
  match a.shape, b.shape with
  | n :: features, m :: features' =>
    let shape := (n + m) :: features
    if features' ≠ features then .error .incompatible
    else if maxElements < elementCount (shape.filter (· ≠ 0)) then
      .error (.unfilled .overflow)
    else .ok ⟨shape, a.data ++ b.data⟩
  | _, _ => .error .noAxis

/-- An array with two axes is a matrix. -/
def toMatrix (t : Tensor) : Except AssemblyError Matrix :=
  match t.shape with
  | [rows, cols] => .ok ⟨rows, cols, t.data⟩
  | _ => .error .incompatible

end Tensor

namespace Unpacker

/-- Lays slots out as one array per example of the given shape, step by step. -/
def assembleShaped (u : Unpacker) (slots : SlotVector) (featureShape : List Nat) :
    Except AssemblyError Tensor :=
  let factor := u.factor.value
  let expected := u.batchSize * u.elements / factor
  let wrongKind := AssemblyError.refused (.laneKindMismatch (.ofFactor u.factor) slots.kind factor)
  if slots.length ≠ expected then
    .error (.refused (.lengthMismatch expected slots.length u.batchSize u.elements factor))
  else
    match u.factor with
    | .one => match slots.real? with
      | none => .error wrongKind
      | some values => Tensor.fill u.order (u.batchSize :: featureShape) values
    | .two => match slots.halves? with
      | none => .error wrongKind
      | some (re, im) => do
        let half := u.batchSize / 2
        let a ← Tensor.fill u.order (half :: featureShape) re
        let b ← Tensor.fill u.order (half :: featureShape) im
        a.concatenate b

/-- Lays slots out with one row per example, step by step. -/
def assemble (u : Unpacker) (slots : SlotVector) : Except AssemblyError Matrix := do
  let t ← u.assembleShaped slots [u.elements]
  t.toMatrix

/-- Lays the output of a given name out with one row per example, step by step. -/
def assembleOutput (u : Unpacker) (outputs : NameMap SlotVector) (name : String) :
    Except AssemblyError Matrix :=
  match outputs.get? name with
  | none => .error (.refused (.missingOutput name))
  | some slots => u.assemble slots

/-- The batch that was packed, laid out step by step. -/
def assemblePacked (packed : PackedBatch) : Except AssemblyError Tensor := do
  let u ← (ofMeta packed.info packed.info.elements).mapError .refused
  u.assembleShaped packed.slots packed.info.featureShape

end Unpacker

end EncryptedInference
