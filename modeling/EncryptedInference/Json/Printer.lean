import EncryptedInference.Json.Basic
/-!
# Printing documents

`Json.compress` writes a document without blanks, `Json.pretty` with a line for each item and two
blanks of indentation. Strings escape what they must and nothing else.
-/

namespace EncryptedInference

/-- The digits of a number below 16, in lower case. -/
def hexDigit (n : Nat) : Char :=
  if n < 10 then Char.ofNat (48 + n) else Char.ofNat (87 + n)

namespace Json

/-- A character inside a string: a quote, a backslash and the control characters are escaped. -/
def escape (c : Char) : List Char :=
  if c = '"' then ['\\', '"']
  else if c = '\\' then ['\\', '\\']
  else if c = '\x08' then ['\\', 'b']
  else if c = '\t' then ['\\', 't']
  else if c = '\n' then ['\\', 'n']
  else if c = '\x0c' then ['\\', 'f']
  else if c = '\r' then ['\\', 'r']
  else if c.toNat < 32 then ['\\', 'u', '0', '0', hexDigit (c.toNat / 16), hexDigit (c.toNat % 16)]
  else [c]

/-- A string literal. -/
def quote (s : String) : String :=
  String.ofList ('"' :: s.toList.flatMap escape ++ ['"'])

/-- A number as it is written. -/
def numberText (l : Literal) : String := Double.signText l.negative ++ l.written.text

mutual

/-- A document without blanks. -/
def compress : Json → String
  | .null => "null"
  | .bool true => "true"
  | .bool false => "false"
  | .number l => numberText l
  | .string s => quote (s.getD "")
  | .array items => compressItems "[" "" items ++ "]"
  | .object fields => compressFields "\x7b" "" fields ++ "\x7d"

/-- The items of a list behind `before`, the first after `separator`, the others after a comma. -/
def compressItems (before separator : String) : List Json → String
  | [] => before
  | item :: rest => compressItems (before ++ separator ++ compress item) "," rest

/-- The fields of an object behind `before`, separated like the items of a list. -/
def compressFields (before separator : String) : List (Option String × Json) → String
  | [] => before
  | (key, value) :: rest =>
    compressFields (before ++ separator ++ quote (key.getD "") ++ ":" ++ compress value) "," rest

end

theorem compressItems_append (a b separator : String) (items : List Json) :
    compressItems (a ++ b) separator items = a ++ compressItems b separator items := by
  induction items generalizing b separator with
  | nil => simp [compressItems]
  | cons item rest ih => simp only [compressItems, String.append_assoc, ih]

theorem compressFields_append (a b separator : String) (fields : List (Option String × Json)) :
    compressFields (a ++ b) separator fields = a ++ compressFields b separator fields := by
  induction fields generalizing b separator with
  | nil => simp [compressFields]
  | cons field rest ih => simp only [compressFields, String.append_assoc, ih]

/-- A line break and the indentation of a level. -/
def newLine (level : Nat) : String :=
  "\n" ++ String.ofList (List.replicate (2 * level) ' ')

mutual

/-- A document over several lines, its inner lines indented below `level`. An empty list or object
stays on its line. -/
def prettyAt (level : Nat) : Json → String
  | .array (item :: items) =>
    prettyItems (level + 1) ("[" ++ newLine (level + 1) ++ prettyAt (level + 1) item) items ++
      newLine level ++ "]"
  | .object ((key, value) :: fields) =>
    prettyFields (level + 1) ("\x7b" ++ newLine (level + 1) ++ quote (key.getD "") ++ ": " ++
      prettyAt (level + 1) value) fields ++ newLine level ++ "\x7d"
  | .null => "null"
  | .bool true => "true"
  | .bool false => "false"
  | .number l => numberText l
  | .string s => quote (s.getD "")
  | .array [] => "[]"
  | .object [] => "\x7b\x7d"

/-- The items of a list behind `before`, each after a comma. -/
def prettyItems (level : Nat) (before : String) : List Json → String
  | [] => before
  | item :: rest => prettyItems level (before ++ "," ++ newLine level ++ prettyAt level item) rest

/-- The fields of an object behind `before`, each after a comma. -/
def prettyFields (level : Nat) (before : String) : List (Option String × Json) → String
  | [] => before
  | (key, value) :: rest =>
    prettyFields level (before ++ "," ++ newLine level ++ quote (key.getD "") ++ ": " ++
      prettyAt level value) rest

end

/-- A document over several lines. -/
def pretty (j : Json) : String := prettyAt 0 j

end Json

end EncryptedInference
