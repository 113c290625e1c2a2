import EncryptedInference.Double.Decimal
/-!
# Documents

The tree of a JSON document. A number stays as it was written, and a string literal with an unpaired
surrogate escape denotes no text, so what a part means is decided only when it is read: a part
nobody reads has to be well formed, nothing more.
-/

namespace EncryptedInference

/-- A number with its sign. -/
structure Literal where
  negative : Bool
  written : Written
  deriving DecidableEq

/-- A document. The text of a string or a key is missing when the literal holds an unpaired
surrogate. -/
inductive Json
  | null
  | bool (value : Bool)
  | number (value : Literal)
  | string (text : Option String)
  | array (items : List Json)
  | object (fields : List (Option String × Json))
  deriving Inhabited

namespace Json

/-! ## Building documents -/

def text (s : String) : Json := .string (some s)

def nat (n : Nat) : Json := .number ⟨false, .ofNat n⟩

/-- The document of a double: the shortest decimal that reads back, or `null` if there is none. -/
def double (x : Double) : Json :=
  if x.isFinite then
    .number ⟨x.negative, DecimalStyle.document.layOut (x.shortest DecimalStyle.document.tie)⟩
  else .null

/-- An object with the given fields, in that order. -/
def ofFields (fields : List (String × Json)) : Json :=
  .object (fields.map fun f => (some f.1, f.2))

end Json

end EncryptedInference
