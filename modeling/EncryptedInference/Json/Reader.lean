import EncryptedInference.Json.Basic
import EncryptedInference.Text.Numeral
/-!
# Reading documents

`Json.parse?` reads a text that is one document, with blanks around its parts. Every function here
takes the characters that are left and returns those after what it read; the documents inside a
document are read with one unit of fuel less, and a text has never more of them than characters.
-/

namespace EncryptedInference.Json.Reader

/-- The characters between the parts of a document. -/
def isSpace (c : Char) : Bool := c = ' ' || c = '\t' || c = '\n' || c = '\r'

def skipSpace (cs : List Char) : List Char := cs.dropWhile isSpace

/-! ## Numbers -/

/-- The decimal digits at the front, and what follows them. -/
def digits (cs : List Char) : List Char × List Char :=
  (cs.takeWhile Char.isDigit, cs.dropWhile Char.isDigit)

/-- The digits after a point: at least one. Without a point there are none. -/
def fraction (cs : List Char) : Option (List Char × List Char) :=
  match cs with
  | '.' :: rest =>
    let (ds, rest) := digits rest
    if ds.isEmpty then none else some (ds, rest)
  | _ => some ([], cs)

/-- The exponent after the mark `e`, if there is one. -/
def exponent (cs : List Char) : Option (Option Int × List Char) :=
  let read (negative : Bool) (rest : List Char) : Option (Option Int × List Char) :=
    let (ds, rest) := digits rest
    if ds.isEmpty then none
    else some (some (if negative then -(Text.digitsValue ds : Int) else Text.digitsValue ds), rest)
  match cs with
  | mark :: rest =>
    if mark = 'e' ∨ mark = 'E' then
      match rest with
      | '-' :: rest => read true rest
      | '+' :: rest => read false rest
      | _ => read false rest
    else some (none, cs)
  | [] => some (none, cs)

/-- A number after its sign. A whole part of several digits does not begin with a zero. -/
def unsigned (negative : Bool) (cs : List Char) : Option (Literal × List Char) := do
  let (whole, rest) := digits cs
  guard (!whole.isEmpty && (whole.length = 1 || whole.head? ≠ some '0'))
  let (places, rest) ← fraction rest
  let (power, rest) ← exponent rest
  return (⟨negative, ⟨whole, places, power⟩⟩, rest)

def number (cs : List Char) : Option (Literal × List Char) :=
  match cs with
  | '-' :: rest => unsigned true rest
  | _ => unsigned false cs

/-! ## Strings -/

/-- The value of a hexadecimal digit. -/
def hexValue (c : Char) : Option Nat :=
  if c.isDigit then some (c.toNat - 48)
  else if 'a' ≤ c ∧ c ≤ 'f' then some (c.toNat - 87)
  else if 'A' ≤ c ∧ c ≤ 'F' then some (c.toNat - 55)
  else none

/-- The number that four hexadecimal digits write. -/
def hexUnit (a b c d : Char) : Option Nat := do
  let a ← hexValue a
  let b ← hexValue b
  let c ← hexValue c
  let d ← hexValue d
  return 4096 * a + 256 * b + 16 * c + d

/-- The character of a letter escape. -/
def letterEscape (c : Char) : Option Char :=
  if c = '"' ∨ c = '\\' ∨ c = '/' then some c
  else if c = 'b' then some '\x08'
  else if c = 'f' then some '\x0c'
  else if c = 'n' then some '\n'
  else if c = 'r' then some '\r'
  else if c = 't' then some '\t'
  else none

def isHighSurrogate (unit : Nat) : Bool := 0xD800 ≤ unit && unit < 0xDC00

def isLowSurrogate (unit : Nat) : Bool := 0xDC00 ≤ unit && unit < 0xE000

/-- The character of two paired surrogates. -/
def pairedChar (high low : Nat) : Char :=
  Char.ofNat (0x10000 + (high - 0xD800) * 1024 + (low - 0xDC00))

/-- What a string literal spells, one unit at a time: a character, or a surrogate written as an
escape. -/
inductive Unit16
  | char (c : Char)
  | surrogate (unit : Nat)

/-- The unit with a given number. -/
def Unit16.ofNat (unit : Nat) : Unit16 :=
  if isHighSurrogate unit || isLowSurrogate unit then .surrogate unit else .char (Char.ofNat unit)

/-- The units of a string literal up to its closing quote. A control character is refused. -/
def stringUnits : List Char → Option (List Unit16 × List Char)
  | [] => none
  | '"' :: rest => some ([], rest)
  | '\\' :: 'u' :: a :: b :: c :: d :: rest => do
    let unit ← hexUnit a b c d
    let (units, rest) ← stringUnits rest
    return (.ofNat unit :: units, rest)
  | '\\' :: c :: rest => do
    let c ← letterEscape c
    let (units, rest) ← stringUnits rest
    return (.char c :: units, rest)
  | c :: rest =>
    if c.toNat < 32 || c = '\\' then none
    else do
      let (units, rest) ← stringUnits rest
      return (.char c :: units, rest)

/-- The characters that units spell, if every surrogate has its partner beside it. -/
def spelled : List Unit16 → Option (List Char)
  | [] => some []
  | .char c :: rest => (spelled rest).map (c :: ·)
  | .surrogate high :: .surrogate low :: rest =>
    if isHighSurrogate high && isLowSurrogate low then (spelled rest).map (pairedChar high low :: ·)
    else none
  | .surrogate _ :: _ => none

/-- A string literal after its opening quote. -/
def stringLiteral (cs : List Char) : Option (Option String × List Char) :=
  (stringUnits cs).map fun (units, rest) => ((spelled units).map String.ofList, rest)

/-! ## Documents -/

/-- `cs` without `word` in front. -/
def keyword? (word : List Char) (cs : List Char) : Option (List Char) :=
  if word.isPrefixOf cs then some (cs.drop word.length) else none

mutual

/-- A document, after blanks. -/
def value : Nat → List Char → Option (Json × List Char)
  | 0, _ => none
  | fuel + 1, cs => match skipSpace cs with
    | [] => none
    | c :: rest =>
      if c = '"' then (stringLiteral rest).map fun (s, rest) => (.string s, rest)
      else if c = '[' then
        match skipSpace rest with
        | ']' :: rest => some (.array [], rest)
        | _ => (items fuel rest).map fun (js, rest) => (.array js, rest)
      else if c = '\x7b' then
        match skipSpace rest with
        | '\x7d' :: rest => some (.object [], rest)
        | _ => (fields fuel rest).map fun (fs, rest) => (.object fs, rest)
      else if c = 'n' then (keyword? ['u', 'l', 'l'] rest).map fun rest => (.null, rest)
      else if c = 't' then (keyword? ['r', 'u', 'e'] rest).map fun rest => (.bool true, rest)
      else if c = 'f' then (keyword? ['a', 'l', 's', 'e'] rest).map fun rest => (.bool false, rest)
      else (number (c :: rest)).map fun (l, rest) => (.number l, rest)

/-- The items of a list, at least one, up to the closing bracket. -/
def items : Nat → List Char → Option (List Json × List Char)
  | 0, _ => none
  | fuel + 1, cs => do
    let (j, rest) ← value fuel cs
    match skipSpace rest with
    | ']' :: rest => return ([j], rest)
    | ',' :: rest => do
      let (js, rest) ← items fuel rest
      return (j :: js, rest)
    | _ => none

/-- The fields of an object, at least one, up to the closing brace. -/
def fields : Nat → List Char → Option (List (Option String × Json) × List Char)
  | 0, _ => none
  | fuel + 1, cs => do
    match skipSpace cs with
    | '"' :: rest => do
      let (key, rest) ← stringLiteral rest
      match skipSpace rest with
      | ':' :: rest => do
        let (j, rest) ← value fuel rest
        match skipSpace rest with
        | '\x7d' :: rest => return ([(key, j)], rest)
        | ',' :: rest => do
          let (fs, rest) ← fields fuel rest
          return ((key, j) :: fs, rest)
        | _ => none
      | _ => none
    | _ => none

end

end EncryptedInference.Json.Reader

namespace EncryptedInference

/-- The document that a text is, if it is one. -/
def Json.parse? (s : String) : Option Json := do
  let cs := s.toList
  let (j, rest) ← Json.Reader.value (cs.length + 1) cs
  guard (Json.Reader.skipSpace rest).isEmpty
  return j

end EncryptedInference
