/-!
# Shapes and the values that fill them

A shape lists the lengths of the axes. Values fill it if they are as many as its elements; a shape
that spans too much is refused first, and there an axis without positions is left out, so that a
shape without elements can span too much as well.
-/

namespace EncryptedInference

/-- The number of elements of an array of a given shape. -/
def elementCount (shape : List Nat) : Nat := shape.foldl (· * ·) 1

/-- The largest number of elements that a shape may span, its empty axes left out. -/
def maxElements : Nat := 0x7FFFFFFFFFFFFFFF

/-- Why values do not fill a shape. -/
inductive ShapeFault
  /-- The shape has more elements than can be addressed. -/
  | overflow
  | tooFew
  | tooMany
  deriving DecidableEq

namespace ShapeFault

def message : ShapeFault → String
  | overflow => "ShapeError/Overflow: arithmetic overflow"
  | tooFew => "ShapeError/OutOfBounds: out of bounds indexing"
  | tooMany => "ShapeError/IncompatibleShape: incompatible shapes"

end ShapeFault

/-- What keeps values from filling a shape. -/
def shapeFault? (shape : List Nat) (values : Nat) : Option ShapeFault :=
  let count := elementCount shape
  if maxElements < elementCount (shape.filter (· ≠ 0)) then some .overflow
  else if values < count then some .tooFew
  else if count < values then some .tooMany
  else none

end EncryptedInference
