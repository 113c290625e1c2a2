/-!
# Files

A file system as far as it is read: from a path to the text of the file, or to why there is none.
-/

namespace EncryptedInference

/-- Why a file cannot be read as text. -/
inductive ReadError
  | notFound
  | isDirectory
  | notDirectory
  | nameTooLong
  | invalidPath
  | notText
  | other (reason : String)
  deriving DecidableEq

namespace ReadError

def message : ReadError → String
  | notFound => "No such file or directory (os error 2)"
  | isDirectory => "Is a directory (os error 21)"
  | notDirectory => "Not a directory (os error 20)"
  | nameTooLong => "File name too long (os error 36)"
  | invalidPath => "file name contained an unexpected NUL byte"
  | notText => "stream did not contain valid UTF-8"
  | other reason => reason

end ReadError

/-- What reading the file at a path gives. -/
abbrev FileSystem := String → Except ReadError String

/-- The text that bytes encode. -/
def textOfBytes? (bytes : List UInt8) : Option String := String.fromUTF8? ⟨bytes.toArray⟩

/-- The bytes that encode a text. -/
def bytesOfText (s : String) : List UInt8 := s.toUTF8.data.toList

end EncryptedInference
