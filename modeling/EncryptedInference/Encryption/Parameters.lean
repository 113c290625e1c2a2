import EncryptedInference.Files
import EncryptedInference.Text.Blank
import EncryptedInference.Json.Reader
import EncryptedInference.Json.Printer
import EncryptedInference.Json.Decode
/-!
# Encryption parameters

The parameters of the encryption scheme come from the built-in defaults, a file or a text, and are
checked before anything is encrypted with them.
-/

namespace EncryptedInference

/-- The one supported scheme. -/
def schemeName : String := "HE_SEAL"

/-- Where parameters come from. -/
inductive ParameterSource
  | default
  | file (path : String)
  | inline (text : String)
  deriving DecidableEq, Inhabited

namespace ParameterSource

/-- A setting as a source: a blank one is the default, one that begins with a brace is itself the
parameters, and any other is a path. -/
def ofText (s : String) : ParameterSource :=
  let s := Text.trim s
  match s.toList with
  | [] => .default
  | '\x7b' :: _ => .inline s
  | _ => .file s

end ParameterSource

/-- What is wrong with parameters that were read. -/
inductive ParameterFault
  | scheme (name : String)
  | degree (degree : Nat)
  | security (level : Nat)
  | noModulus
  | modulusBits (bits : Nat)
  | scale (scale : Double)
  deriving DecidableEq

/-- Why there are no parameters. -/
inductive ParameterError
  | missing (path : String)
  | unreadable (path : String) (error : ReadError)
  | malformed (origin : String)
  | invalid (fault : ParameterFault)
  deriving DecidableEq

/-- Parameters of the encryption scheme. -/
structure EncryptionParameters where
  scheme : String
  degree : Nat
  security : Nat
  /-- The sizes of the coefficient moduli, in bits. -/
  modulus : List Nat
  /-- The encoding scale; with zero the engine chooses. -/
  scale : Double
  complexPacking : Bool
  deriving DecidableEq

/-- The sizes of polynomial rings that are supported. -/
def ringDegrees : List Nat := [1024, 2048, 4096, 8192, 16384, 32768]

def securityLevels : List Nat := [0, 128, 192, 256]

/-- The largest size of a coefficient modulus. -/
def maxModulusBits : Nat := 60

/-- Numbers in brackets. -/
def listText (ns : List Nat) : String := "[" ++ ", ".intercalate (ns.map toString) ++ "]"

namespace ParameterFault

def message : ParameterFault → String
  | scheme name => "scheme_name must be " ++ schemeName ++ ", got '" ++ name ++ "'"
  | degree n => "poly_modulus_degree " ++ toString n ++ " not in " ++ listText ringDegrees
  | security n => "security_level " ++ toString n ++ " not in " ++ listText securityLevels
  | noModulus => "coeff_modulus is empty"
  | modulusBits b =>
    "coeff_modulus bit size " ++ toString b ++ " outside 1..=" ++ toString maxModulusBits
  | scale x => "scale must be finite and non-negative, got " ++ x.toText

end ParameterFault

namespace ParameterError

/-- The message, without what the reader of the text or the file has to add. -/
def message : ParameterError → String
  | missing path => "encryption parameter file not found: " ++ path
  | unreadable path _ => "failed to read " ++ path
  | malformed origin => "malformed encryption parameters from " ++ origin
  | invalid fault => "invalid encryption parameters: " ++ fault.message

end ParameterError

namespace EncryptionParameters

/-- The parameters used when none are given. -/
def standard : EncryptionParameters :=
  ⟨schemeName, 1024, 0, List.replicate 5 30, .zero, false⟩

/-- The first thing wrong with parameters. -/
def fault? (p : EncryptionParameters) : Option ParameterFault :=
  if p.scheme ≠ schemeName then some (.scheme p.scheme)
  else if !ringDegrees.contains p.degree then some (.degree p.degree)
  else if !securityLevels.contains p.security then some (.security p.security)
  else if p.modulus.isEmpty then some .noModulus
  else match p.modulus.find? (fun b => b = 0 || maxModulusBits < b) with
    | some b => some (.modulusBits b)
    | none => if !p.scale.isFinite || p.scale.isNegative then some (.scale p.scale) else none

def validate (p : EncryptionParameters) : Except ParameterError Unit :=
  match p.fault? with
  | some fault => .error (.invalid fault)
  | none => .ok ()

/-- The number of real slots of a ciphertext. -/
def slotCapacity (p : EncryptionParameters) : Nat := p.degree / 2

def toJson (p : EncryptionParameters) : Json :=
  .ofFields [("scheme_name", .text p.scheme), ("poly_modulus_degree", .nat p.degree),
    ("security_level", .nat p.security), ("coeff_modulus", .array (p.modulus.map .nat)),
    ("scale", .double p.scale), ("complex_packing", .bool p.complexPacking)]

/-- A whole number of 32 bits. -/
def word? : Json → Option Nat := Json.nat? 0x100000000

/-- The scale and the packing flag may be left out. -/
def ofJson? (j : Json) : Option EncryptionParameters := do
  match ← j.record? ["scheme_name", "poly_modulus_degree", "security_level", "coeff_modulus",
      "scale", "complex_packing"] with
  | [some scheme, some degree, some security, some modulus, scale, complexPacking] =>
    return {
      scheme := ← scheme.text?
      degree := ← degree.size?
      security := ← word? security
      modulus := ← modulus.list? word?
      scale := ← match scale with
        | some scale => scale.double?
        | none => some .zero
      complexPacking := ← match complexPacking with
        | some flag => flag.bool?
        | none => some false }
  | _ => none

/-- The text of parameters, as it travels in a parameter map. -/
def toText (p : EncryptionParameters) : String := p.toJson.compress

def ofText (text origin : String) : Except ParameterError EncryptionParameters :=
  match (Json.parse? text).bind ofJson? with
  | some p => .ok p
  | none => .error (.malformed origin)

/-- What a source gives, unchecked. -/
def read (files : FileSystem) : ParameterSource → Except ParameterError EncryptionParameters
  | .default => .ok standard
  | .file path => match files path with
    | .ok text => ofText text path
    | .error .notFound => .error (.missing path)
    | .error e => .error (.unreadable path e)
  | .inline text => ofText text "inline JSON"

/-- The parameters of a source, checked. -/
def load (files : FileSystem) (source : ParameterSource) :
    Except ParameterError EncryptionParameters := do
  let p ← read files source
  p.validate
  return p

end EncryptionParameters

end EncryptedInference
