import EncryptedInference.Text.Numeral
/-!
# Arguments

A command line is a list of arguments. An option has a name behind two dashes; its value is the next
argument, or stands behind an equals sign in the same one. `Given.ofArguments` sorts arguments into
options with their values; what a value means is decided by the reader of the option.
-/

namespace EncryptedInference.CommandLine

/-- The options of the client. -/
inductive OptionName
  | input
  | labels
  | batchSize
  | hostname
  | port
  | backend
  | encryptionParameters
  | enableClient
  | encryptServerData
  | packData
  | complexPacking
  | tensorName
  | outputName
  | order
  | resultLayout
  | pollInterval
  | timeout
  | connectRetries
  | retryBackoff
  | json
  deriving DecidableEq

/-- Whether an option has a value. -/
inductive Operand
  | none
  /-- Without a value the option means this one. -/
  | optional (value : String)
  | required

namespace OptionName

def toText : OptionName → String
  | input => "input"
  | labels => "labels"
  | batchSize => "batch_size"
  | hostname => "hostname"
  | port => "port"
  | backend => "backend"
  | encryptionParameters => "encryption_parameters"
  | enableClient => "enable_client"
  | encryptServerData => "encrypt_server_data"
  | packData => "pack_data"
  | complexPacking => "complex_packing"
  | tensorName => "tensor_name"
  | outputName => "output_name"
  | order => "order"
  | resultLayout => "result_layout"
  | pollInterval => "poll_interval_ms"
  | timeout => "timeout_secs"
  | connectRetries => "connect_retries"
  | retryBackoff => "retry_backoff_ms"
  | json => "json"

def all : List OptionName :=
  [input, labels, batchSize, hostname, port, backend, encryptionParameters, enableClient,
   encryptServerData, packData, complexPacking, tensorName, outputName, order, resultLayout,
   pollInterval, timeout, connectRetries, retryBackoff, json]

/-- The names under which options are known. -/
def spellings : List (String × OptionName) :=
  ("encrypt_data", encryptServerData) :: all.map fun name => (name.toText, name)

def ofText? (s : String) : Option OptionName := spellings.lookup s

def operand : OptionName → Operand
  | json => .none
  | enableClient | encryptServerData | packData | complexPacking => .optional "true"
  | _ => .required

end OptionName

/-- Why a command line is not accepted. -/
inductive UsageError
  | unknownOption (name : String)
  | unexpectedArgument (text : String)
  | missingValue (name : OptionName)
  | needlessValue (name : OptionName)
  | repeated (name : OptionName)
  | invalidValue (name : OptionName) (value : String)
  | missingOption (name : OptionName)
  deriving DecidableEq

namespace UsageError

def message : UsageError → String
  | unknownOption name => "unknown option --" ++ name
  | unexpectedArgument text => "unexpected argument '" ++ text ++ "'"
  | missingValue name => "option --" ++ name.toText ++ " needs a value"
  | needlessValue name => "option --" ++ name.toText ++ " takes no value"
  | repeated name => "option --" ++ name.toText ++ " is given twice"
  | invalidValue name value => "invalid value '" ++ value ++ "' for option --" ++ name.toText
  | missingOption name => "option --" ++ name.toText ++ " is required"

end UsageError

/-- One argument by its form. -/
inductive Argument
  /-- Two dashes: no options follow. -/
  | terminator
  | option (name : String) (value : Option String)
  /-- A dash and letters; the client has no such options. -/
  | letters (text : String)
  | plain (text : String)
  deriving DecidableEq

namespace Argument

/-- The characters of an option: its name, and what stands behind the first equals sign. -/
def optionOf (cs : List Char) : Argument :=
  let name := String.ofList (cs.takeWhile (· ≠ '='))
  match cs.dropWhile (· ≠ '=') with
  | [] => option name none
  | _ :: value => option name (some (String.ofList value))

/-- A dash by itself is a plain argument. -/
def ofText (s : String) : Argument :=
  match s.toList with
  | ['-', '-'] => terminator
  | '-' :: '-' :: cs => optionOf cs
  | '-' :: _ :: _ => letters s
  | _ => plain s

end Argument

/-- An option that is given, with its value. Where an option has none, the value is empty. -/
abbrev Given := OptionName × String

namespace Given

/-- What an option means behind which no value stands. -/
def withoutValue (name : OptionName) : Except UsageError (List Given) :=
  match name.operand with
  | .none => .ok [(name, "")]
  | .optional value => .ok [(name, value)]
  | .required => .error (.missingValue name)

/-- What an option means that still waited for its value when the next argument was none. -/
def settled (pending : Option OptionName) : Except UsageError (List Given) :=
  match pending with
  | some name => withoutValue name
  | none => .ok []

/-- An option with the value behind its equals sign: what it means so far, and whether it waits for
a value. -/
def begin (name : OptionName) (value : Option String) :
    Except UsageError (List Given × Option OptionName) :=
  match name.operand, value with
  | .none, none => .ok ([(name, "")], none)
  | .none, some _ => .error (.needlessValue name)
  | _, some value => .ok ([(name, value)], none)
  | _, none => .ok ([], some name)

/-- The options of arguments, the first of which may be the value of `pending`. -/
def collect : (pending : Option OptionName) → List String → Except UsageError (List Given)
  | pending, [] => settled pending
  | pending, arg :: rest => match Argument.ofText arg with
    | .plain text => match pending with
      | some name => do return (name, text) :: (← collect none rest)
      | none => .error (.unexpectedArgument text)
    | .letters text => .error (.unexpectedArgument text)
    | .terminator => match rest with
      | [] => settled pending
      | text :: _ => .error (.unexpectedArgument text)
    | .option text value => do
      let earlier ← settled pending
      let name ← match OptionName.ofText? text with
        | some name => .ok name
        | none => .error (.unknownOption text)
      let (given, pending) ← begin name value
      return earlier ++ given ++ (← collect pending rest)

/-- The first option that is given again later. -/
def repeated? : List Given → Option OptionName
  | [] => none
  | (name, _) :: rest => if rest.any (·.1 = name) then some name else repeated? rest

/-- The options of a command line, each at most once. -/
def ofArguments (args : List String) : Except UsageError (List Given) := do
  let given ← collect none args
  match repeated? given with
  | some name => .error (.repeated name)
  | none => .ok given

end Given

end EncryptedInference.CommandLine
