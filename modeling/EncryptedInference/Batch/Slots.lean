import EncryptedInference.Double.Basic
import EncryptedInference.Json.Decode
/-!
# Slot vectors

What the parallel lanes of one ciphertext hold: real numbers, or complex ones that carry two values
each.
-/

namespace EncryptedInference

/-- A complex number. -/
structure Complex where
  re : Double
  im : Double
  deriving DecidableEq

namespace Complex

def isFinite (z : Complex) : Bool := z.re.isFinite && z.im.isFinite

end Complex

/-- How many examples share a slot. -/
inductive PackingFactor
  | one
  | two
  deriving DecidableEq, Inhabited

/-- A flat sequence of slot values. -/
inductive SlotVector
  | real (values : List Double)
  | complex (values : List Complex)
  deriving DecidableEq

/-- The kind of number that slots hold. -/
inductive LaneKind
  | real
  | complex
  deriving DecidableEq

namespace LaneKind

def toText : LaneKind → String
  | real => "real"
  | complex => "complex"

/-- The kind that carries `factor` values in a slot. -/
def ofFactor : PackingFactor → LaneKind
  | .one => real
  | .two => complex

/-- The kind of slots: their field holds an alternative, and a list of kind and values leads with
one. -/
def ofJson? (setting : Json.Setting) (inList : Bool) (j : Json) : Option LaneKind := do
  let kinds := [real, complex]
  let name ← if inList then j.leading? setting (kinds.map toText) else j.alternative? setting
  kinds.find? fun kind => kind.toText = name

end LaneKind

namespace SlotVector

/-- Two equally long halves laid over one another: slot `i` is `re[i] + im[i]·i`. -/
def ofHalves? (re im : List Double) : Option SlotVector :=
  if re.length = im.length then some (.complex (List.zipWith Complex.mk re im)) else none

/-- The number of slots. -/
def length : SlotVector → Nat
  | real values => values.length
  | complex values => values.length

/-- The number of values carried, two in a complex slot. -/
def valueCount : SlotVector → Nat
  | real values => values.length
  | complex values => 2 * values.length

def kind : SlotVector → LaneKind
  | real _ => .real
  | complex _ => .complex

def real? : SlotVector → Option (List Double)
  | real values => some values
  | complex _ => none

/-- The two halves of complex slots. -/
def halves? : SlotVector → Option (List Double × List Double)
  | real _ => none
  | complex values => some (values.map (·.re), values.map (·.im))

/-- The first slot that holds an infinity or no number, in either component. -/
def firstNonFinite? : SlotVector → Option Nat
  | real values => values.findIdx? (fun x => !x.isFinite)
  | complex values => values.findIdx? (fun z => !z.isFinite)

def isFinite (s : SlotVector) : Bool := s.firstNonFinite?.isNone

def toJson (s : SlotVector) : Json :=
  let values := match s with
    | real values => values.map Json.double
    | complex values => values.map fun z => .array [.double z.re, .double z.im]
  .ofFields [("lanes", .text s.kind.toText), ("values", .array values)]

def complexOfJson? : Json → Option Complex
  | .array [re, im] => return ⟨← re.double?, ← im.double?⟩
  | _ => none

/-- Slots are the record of a kind and its values. -/
def ofJson? (setting : Json.Setting) (j : Json) : Option SlotVector := do
  match ← j.record? ["lanes", "values"] with
  | [some lanes, some values] =>
    match ← LaneKind.ofJson? setting (j matches .array _) lanes with
    | .real => return .real (← values.list? Json.double?)
    | .complex => return .complex (← values.list? complexOfJson?)
  | _ => none

end SlotVector

namespace PackingFactor

def value : PackingFactor → Nat
  | one => 1
  | two => 2

def ofNat? : Nat → Option PackingFactor
  | 1 => some one
  | 2 => some two
  | _ => none

def toJson (f : PackingFactor) : Json := .nat f.value

def ofJson? (j : Json) : Option PackingFactor := j.size?.bind ofNat?

end PackingFactor

end EncryptedInference
