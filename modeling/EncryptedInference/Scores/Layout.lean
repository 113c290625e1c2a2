import EncryptedInference.Setting
import EncryptedInference.Json.Decode
/-!
# Layouts of score matrices

Which axis of a score matrix runs over the examples.
-/

namespace EncryptedInference

/-- Whether the rows of a score matrix are examples or classes. -/
inductive ScoreLayout
  | batchByClass
  | classByBatch
  deriving DecidableEq, Inhabited

namespace ScoreLayout

def toText : ScoreLayout → String
  | batchByClass => "batch_by_class"
  | classByBatch => "class_by_batch"

def spellings : List (String × ScoreLayout) :=
  [("batch_by_class", batchByClass), ("batch-by-class", batchByClass), ("batch", batchByClass),
   ("class_by_batch", classByBatch), ("class-by-batch", classByBatch), ("class", classByBatch)]

def ofText (s : String) : Except SettingError ScoreLayout :=
  match lookupSpelling spellings s with
  | some layout => .ok layout
  | none => .error (.unknownLayout s)

def toJson (layout : ScoreLayout) : Json := .text layout.toText

end ScoreLayout

end EncryptedInference
