import EncryptedInference.Setting
import EncryptedInference.Json.Decode
/-!
# Element orders

The order in which the elements of a batch are written into slots.
-/

namespace EncryptedInference

/-- The order in which elements are listed: last axis fastest, first axis fastest, or the one in
which they lie in memory. -/
inductive ElementOrder
  | rowMajor
  | columnMajor
  | native
  deriving DecidableEq, Inhabited

namespace ElementOrder

/-- The name of an order in documents. -/
def wireName : ElementOrder → String
  | rowMajor => "row_major"
  | columnMajor => "column_major"
  | native => "native_storage_order"

def spellings : List (String × ElementOrder) :=
  [("c", rowMajor), ("row", rowMajor), ("row_major", rowMajor), ("row-major", rowMajor),
   ("f", columnMajor), ("column", columnMajor), ("column_major", columnMajor),
   ("column-major", columnMajor), ("col", columnMajor),
   ("a", native), ("native", native), ("native_storage_order", native),
   ("native-storage-order", native)]

def ofText (s : String) : Except SettingError ElementOrder :=
  match lookupSpelling spellings s with
  | some order => .ok order
  | none => .error (.unknownOrder s)

/-- The order of data that comes without a memory layout, which is laid out row by row. -/
def resolveFlat : ElementOrder → ElementOrder
  | native => rowMajor
  | order => order

def all : List ElementOrder := [rowMajor, columnMajor, native]

def toJson (order : ElementOrder) : Json := .text order.wireName

def ofJson? (setting : Json.Setting) (j : Json) : Option ElementOrder := do
  let name ← j.alternative? setting
  all.find? (fun order => order.wireName = name)

end ElementOrder

end EncryptedInference
