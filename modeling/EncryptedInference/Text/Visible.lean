import EncryptedInference.Text.Hidden
/-!
# Text made visible

A text between quotes in which every character can be seen: the quote, the backslash and the most
common control characters have a short escape, and every other hidden character is given by its
number.
-/

namespace EncryptedInference.Text

/-- A character between quotes. -/
def visible (c : Char) : List Char :=
  if c = '"' then ['\\', '"']
  else if c = '\\' then ['\\', '\\']
  else if c = '\x00' then ['\\', '0']
  else if c = '\t' then ['\\', 't']
  else if c = '\n' then ['\\', 'n']
  else if c = '\r' then ['\\', 'r']
  else if isHidden c then '\\' :: 'u' :: '\x7b' :: (Nat.toDigits 16 c.toNat ++ ['\x7d'])
  else [c]

/-- A text between quotes. -/
def quoted (s : String) : String :=
  String.ofList ('"' :: s.toList.flatMap visible ++ ['"'])

end EncryptedInference.Text
