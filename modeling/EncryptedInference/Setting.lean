import EncryptedInference.Text.Blank
/-!
# Named settings

Settings with a few values are given by name. The spellings of a setting are a table; a name is
looked up without its surrounding blanks and in lower case, and one that is not there is an error
that quotes it as given.
-/

namespace EncryptedInference

/-- A setting that names none of its values. -/
inductive SettingError
  | unknownOrder (text : String)
  | unknownLayout (text : String)
  | unknownDirective (text : String)
  | unknownFactor (value : Nat)
  deriving DecidableEq

namespace SettingError

def message : SettingError → String
  | unknownOrder s =>
    "unknown order '" ++ s ++ "', expected 'row_major' (C), 'column_major' (F) or 'native' (A)"
  | unknownLayout s =>
    "unknown result layout '" ++ s ++ "', expected 'batch_by_class' or 'class_by_batch'"
  | unknownDirective s => "unknown tensor directive '" ++ s ++ "'"
  | unknownFactor n => "packing factor must be 1 or 2, got " ++ toString n

end SettingError

/-- The value that a table gives to a name, blanks around it and its case aside. -/
def lookupSpelling {α : Type} (spellings : List (String × α)) (name : String) : Option α :=
  spellings.lookup (Text.fold name)

end EncryptedInference
