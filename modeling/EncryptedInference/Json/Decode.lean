import EncryptedInference.Json.Basic
import EncryptedInference.NameMap
/-!
# Reading values off documents

What a part of a document means, once somebody asks for it. A record is read from an object, where
unknown fields are passed over and a known one may not come twice, or from an array of its fields in
order. A tagged record is read whole: nothing in it may be out of range, even in fields that are
passed over.
-/

namespace EncryptedInference.Json

/-- How deeply documents may be nested. -/
def maxDepth : Nat := 127

/-! ## Plain values -/

def text? : Json → Option String
  | .string s => s
  | _ => none

def bool? : Json → Option Bool
  | .bool b => some b
  | _ => none

/-- A whole number of 64 bits below `limit`, written without sign, fraction and exponent. -/
def nat? (limit : Nat) : Json → Option Nat
  | .number ⟨false, w⟩ => w.word?.filter (· < limit)
  | _ => none

/-- A size: a whole number of 64 bits. -/
def size? : Json → Option Nat := nat? 0x10000000000000000

/-- The double that a number stands for, unless it is too large. -/
def double? : Json → Option Double
  | .number l => l.written.toDouble? l.negative
  | _ => none

def list? {α : Type} (item : Json → Option α) : Json → Option (List α)
  | .array js => js.mapM item
  | _ => none

/-- The fields of an object, their keys being texts. -/
def fields? : Json → Option (List (String × Json))
  | .object fs => fs.mapM fun (key, value) => key.map fun key => (key, value)
  | _ => none

/-- A map from names; of a name that comes twice the last value counts. -/
def map? {α : Type} (value : Json → Option α) (j : Json) : Option (NameMap α) := do
  let fs ← fields? j
  let entries ← fs.mapM fun (key, v) => (value v).map fun v => (key, v)
  return NameMap.ofList entries

/-! ## Records -/

/-- The field `name` of an object that may hold it once: its value, if it is there. -/
def uniqueField? (fs : List (String × Json)) (name : String) : Option (Option Json) :=
  match fs.filter (fun f => f.1 = name) with
  | [] => some none
  | [f] => some (some f.2)
  | _ => none

/-- The fields of a record, in the order of `names`, each with its value if it is there. -/
def record? (names : List String) : Json → Option (List (Option Json))
  | .array js =>
    if js.length ≤ names.length then
      some (js.map some ++ List.replicate (names.length - js.length) none)
    else none
  | j => do
    let fs ← fields? j
    names.mapM (uniqueField? fs)

/-! ## Whole documents -/

mutual

/-- Every part of the document has a meaning of its own, and it is nested at most `depth` deep. -/
def isSound (depth : Nat) : Json → Bool
  | .null | .bool _ => true
  | .number l => (double? (.number l)).isSome
  | .string s => s.isSome
  | .array js => match depth with
    | 0 => false
    | depth + 1 => areSound depth js
  | .object fs => match depth with
    | 0 => false
    | depth + 1 => fieldsAreSound depth fs

def areSound (depth : Nat) : List Json → Bool
  | [] => true
  | j :: rest => isSound depth j && areSound depth rest

def fieldsAreSound (depth : Nat) : List (Option String × Json) → Bool
  | [] => true
  | (key, j) :: rest => key.isSome && isSound depth j && fieldsAreSound depth rest

end

/-- A record with its kind in a field named `tag`, or in front of its fields: the kind, and the
record without it. -/
def tagged? (tag : String) (j : Json) : Option (String × Json) :=
  if isSound maxDepth j then
    match j with
    | .array (kind :: rest) => (text? kind).map fun kind => (kind, .array rest)
    | .object fs => do
      match fs.filter (fun f => f.1 = some tag) with
      | [(_, kind)] => (text? kind).map fun kind =>
        (kind, .object (fs.filter fun f => f.1 ≠ some tag))
      | _ => none
    | _ => none
  else none

/-! ## Alternatives -/

/-- Whether a document is read as it comes, or as a part of a tagged record that has been read
whole. The only difference is in how an alternative may be named. -/
inductive Setting
  | alone
  | withinTagged
  deriving DecidableEq

/-- The name of an alternative without content: a text, or an object that gives it nothing. -/
def alternative? (setting : Setting) : Json → Option String
  | .string s => s
  | .object [(key, .null)] => key
  | .object [(key, .object [])] => if setting = .withinTagged then key else none
  | _ => none

/-- The name, out of `names`, of an alternative that leads the list of what it holds: a text, or
within a tagged record the place among the names. -/
def leading? (setting : Setting) (names : List String) (j : Json) : Option String :=
  match setting, j with
  | _, .string s => s.filter names.contains
  | .withinTagged, j => (nat? names.length j).bind (names[·]?)
  | .alone, _ => none

end EncryptedInference.Json
