import EncryptedInference.Batch.Packing
import EncryptedInference.Encryption.Config
import EncryptedInference.Exchange.Request
import EncryptedInference.Scores.Accuracy
/-!
# Batches and labels

The two files a run works on. The input is a document with the shape of the batch and its values,
the last axis fastest; of its examples only the first few may be asked for. The labels are class
indices, or one-hot rows.
-/

namespace EncryptedInference.CommandLine

/-! ## The input -/

/-- Why there is no batch. -/
inductive InputError
  | unreadable (path : String) (error : ReadError)
  | malformed
  | mismatch (shape : List Nat) (fault : ShapeFault)
  | tooFewExamples (requested available : Nat)
  /-- Some of the examples were asked for, and there is no axis that holds them. -/
  | noBatchAxis
  deriving DecidableEq

namespace InputError

def message : InputError → String
  | unreadable path e => "cannot read input file '" ++ path ++ "': " ++ e.message
  | malformed => "invalid JSON input (expected \x7bshape, data\x7d)"
  | mismatch shape fault =>
    "input data does not match shape " ++ listText shape ++ ": " ++ fault.message
  | tooFewExamples requested available =>
    "--batch_size " ++ toString requested ++ " exceeds the " ++ toString available ++
      " examples in the input"
  | noBatchAxis => "input has no batch axis to cut"

end InputError

/-- The shape and the values of a batch. -/
def shapeAndData? (j : Json) : Option (List Nat × List Double) := do
  match ← j.record? ["shape", "data"] with
  | [some shape, some data] => return (← shape.list? Json.size?, ← data.list? Json.double?)
  | _ => none

/-- The batch that an input file describes. -/
def batchOfText (text : String) : Except InputError View :=
  match (Json.parse? text).bind shapeAndData? with
  | none => .error .malformed
  | some (shape, data) => match shapeFault? shape data.length with
    | some fault => .error (.mismatch shape fault)
    | none => .ok (.ofRowMajor shape data)

/-- The first examples of a batch. -/
def firstExamples (v : View) (count : Nat) : Except InputError View :=
  let available := v.shape.head?.getD 0
  if available < count then .error (.tooFewExamples count available)
  else if v.axes.isEmpty then .error .noBatchAxis
  else .ok (v.examples 0 count)

/-- Reads the batch in a file, cut to `count` examples if that is given. -/
def readBatch (files : FileSystem) (path : String) (count : Option Nat) :
    Except InputError View := do
  let text ← (files path).mapError (.unreadable path)
  let v ← batchOfText text
  match count with
  | some count => firstExamples v count
  | none => return v

/-! ## Labels -/

/-- Why there are no labels. -/
inductive LabelError
  | unreadable (path : String) (error : ReadError)
  | malformed
  | ragged (row entries expected : Nat)
  | oneHot (error : EvaluationError)
  | tooFew (labels batchSize : Nat)
  deriving DecidableEq

namespace LabelError

def message : LabelError → String
  | unreadable path e => "cannot read labels file '" ++ path ++ "': " ++ e.message
  | malformed => "invalid labels (expected class indices or one-hot rows)"
  | ragged row entries expected =>
    "one-hot label row " ++ toString row ++ " has " ++ toString entries ++ " entries, expected " ++
      toString expected
  | oneHot e => e.message
  | tooFew labels batchSize =>
    toString labels ++ " labels supplied for a batch of " ++ toString batchSize ++ " examples"

end LabelError

/-- The classes of one-hot rows, which are equally long. -/
def labelsOfOneHotRows (rows : List (List Double)) : Except LabelError (List Nat) :=
  let classes := (rows.head?.map List.length).getD 0
  match rows.findIdx? (fun row => row.length ≠ classes) with
  | some i => .error (.ragged i (rows.getD i []).length classes)
  | none => (Scores.labelsOfOneHot ⟨rows.length, classes, rows.flatten⟩).mapError .oneHot

/-- The labels that a file holds: class indices, or else one-hot rows. -/
def labelsOfText (text : String) : Except LabelError (List Nat) :=
  match Json.parse? text with
  | none => .error .malformed
  | some j => match j.list? Json.size? with
    | some labels => .ok labels
    | none => match j.list? (fun row => row.list? Json.double?) with
      | some rows => labelsOfOneHotRows rows
      | none => .error .malformed

/-- The labels of the examples that are sent; there may be more of them. -/
def alignLabels (labels : List Nat) (batchSize : Nat) : Except LabelError (List Nat) :=
  if labels.length < batchSize then .error (.tooFew labels.length batchSize)
  else .ok (labels.take batchSize)

/-- Reads the labels of a batch. -/
def readLabels (files : FileSystem) (path : String) (batchSize : Nat) :
    Except LabelError (List Nat) := do
  let text ← (files path).mapError (.unreadable path)
  alignLabels (← labelsOfText text) batchSize

end EncryptedInference.CommandLine
