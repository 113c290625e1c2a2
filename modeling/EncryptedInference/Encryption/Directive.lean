import EncryptedInference.Setting
import EncryptedInference.Json.Decode
/-!
# Directives

What the engine does with a tensor. Directives are ranked; where several apply to one tensor, the
highest wins.
-/

namespace EncryptedInference

/-- What the engine does with a tensor. -/
inductive Directive
  | plain
  | packed
  | encrypt
  | clientInput
  deriving DecidableEq, Inhabited

namespace Directive

def toText : Directive → String
  | plain => "plain"
  | packed => "packed"
  | encrypt => "encrypt"
  | clientInput => "client_input"

/-- The place of a directive in the order of precedence. -/
def rank : Directive → Nat
  | plain => 0
  | packed => 1
  | encrypt => 2
  | clientInput => 3

def all : List Directive := [plain, packed, encrypt, clientInput]

/-- The directive of a name, which has to be exact. -/
def ofText? (s : String) : Option Directive := all.find? (fun d => d.toText = s)

/-- The directive of two that wins. -/
def strongest (a b : Directive) : Directive := if a.rank ≤ b.rank then b else a

def toJson (d : Directive) : Json := .text d.toText

def ofJson? (setting : Json.Setting) (j : Json) : Option Directive :=
  (j.alternative? setting).bind ofText?

end Directive

end EncryptedInference
