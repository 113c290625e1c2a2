import EncryptedInference.Encryption.Directive
import EncryptedInference.Encryption.Parameters
import EncryptedInference.Scores.Layout
import EncryptedInference.Batch.Slots
/-!
# Configurations

A configuration says how every tensor of a request is treated. It is built from settings: global
flags, which concern the registered inputs only, and rules for single tensors. Building checks the
settings, loads the parameters and settles the directive of every tensor that was mentioned; all
others are plain.
-/

namespace EncryptedInference

/-- What is wrong with an entry of a parameter map. -/
inductive EntryFault
  | unknownDirective (text : String)
  /-- The map gives the tensor another directive than the request. -/
  | mapSays (directive : Directive)
  deriving DecidableEq

/-- Why there is no configuration. -/
inductive ConfigError
  | conflictingDirectives
  | parameters (error : ParameterError)
  | invalidFlag (name value : String)
  | reservedName (name : String)
  | emptyTensorName
  | missingKey (key : String)
  | invalidEntry (key value : String) (fault : EntryFault)
  deriving DecidableEq

namespace EntryFault

def message : EntryFault → String
  | unknownDirective text => (SettingError.unknownDirective text).message
  | mapSays d => "parameter map says " ++ d.toText

end EntryFault

namespace ConfigError

def message : ConfigError → String
  | conflictingDirectives => "enable_client and encrypt_server_data are mutually exclusive"
  | parameters e => e.message
  | invalidFlag name value =>
    "invalid boolean for " ++ name ++ ": '" ++ value ++
      "' (expected one of 1/on/y/yes/true or 0/off/n/no/false)"
  | reservedName name => "tensor name '" ++ name ++ "' collides with a reserved configuration key"
  | emptyTensorName => "tensor name must not be empty"
  | missingKey key => "parameter map is missing '" ++ key ++ "'"
  | invalidEntry key value fault =>
    "invalid value '" ++ value ++ "' for '" ++ key ++ "': " ++ fault.message

end ConfigError

/-! ## Flags -/

/-- The spellings of the two truth values. -/
def flagSpellings : List (String × Bool) :=
  [("1", true), ("on", true), ("y", true), ("yes", true), ("true", true),
   ("0", false), ("off", false), ("n", false), ("no", false), ("false", false)]

/-- The value of the flag `name` when it is given as `value`. -/
def parseFlag (name value : String) : Except ConfigError Bool :=
  match lookupSpelling flagSpellings value with
  | some on => .ok on
  | none => .error (.invalidFlag name value)

/-- A flag as a parameter map holds it. -/
def flagText (on : Bool) : String := if on then "True" else "False"

/-- The keys of a parameter map that are not names of tensors. -/
def reservedKeys : List String :=
  ["backend", "device_id", "encryption_parameters", "enable_client", "encrypt_server_data",
   "complex_packing", "pack_data"]

/-! ## Settings -/

/-- What a configuration is built from. -/
structure Settings where
  backend : String
  deviceId : String
  source : ParameterSource
  enableClient : Bool
  encryptServerData : Bool
  packData : Bool
  complexPacking : Bool
  resultLayout : ScoreLayout
  /-- The registered inputs. -/
  inputs : NameMap Unit
  /-- The rules for single tensors, in the order in which they were given. -/
  rules : List (String × Directive)

/-- One change to settings. -/
inductive SettingsChange
  | backend (name : String)
  | deviceId (id : String)
  | source (source : ParameterSource)
  | enableClient (on : Bool)
  | encryptServerData (on : Bool)
  | packData (on : Bool)
  | complexPacking (on : Bool)
  | resultLayout (layout : ScoreLayout)
  | input (name : String)
  | rule (name : String) (directive : Directive)

namespace Settings

/-- The settings before any change. -/
def initial : Settings where
  backend := schemeName
  deviceId := ""
  source := .default
  enableClient := false
  encryptServerData := false
  packData := false
  complexPacking := false
  resultLayout := .batchByClass
  inputs := .empty
  rules := []

def change (s : Settings) : SettingsChange → Settings
  | .backend name => { s with backend := name }
  | .deviceId id => { s with deviceId := id }
  | .source source => { s with source := source }
  | .enableClient on => { s with enableClient := on }
  | .encryptServerData on => { s with encryptServerData := on }
  | .packData on => { s with packData := on }
  | .complexPacking on => { s with complexPacking := on }
  | .resultLayout layout => { s with resultLayout := layout }
  | .input name => { s with inputs := s.inputs.insert name () }
  | .rule name d => { s with rules := s.rules ++ [(name, d)] }

def changes (s : Settings) (cs : List SettingsChange) : Settings := cs.foldl change s

/-- A flag of the environment; a variable that is not set is off. -/
def environmentFlag (lookup : String → Option String) (name : String) : Except ConfigError Bool :=
  match lookup name with
  | some value => parseFlag name value
  | none => .ok false

/-- The settings that an environment gives. A blank backend counts as not set. -/
def ofEnvironment (lookup : String → Option String) : Except ConfigError Settings := do
  let enableClient ← environmentFlag lookup "HE_ENABLE_CLIENT"
  let encryptServerData ← environmentFlag lookup "HE_ENCRYPT_DATA"
  let packData ← environmentFlag lookup "HE_BATCH_DATA"
  let complexPacking ← environmentFlag lookup "HE_COMPLEX_PACK"
  let backend := ((lookup "HE_BACKEND").map Text.trim).filter (· ≠ "")
  return { initial with
    enableClient, encryptServerData, packData, complexPacking
    backend := backend.getD initial.backend
    source := ((lookup "HE_SEAL_CONFIG").map ParameterSource.ofText).getD .default }

/-- The directive that the global flags give to the registered inputs. -/
def globalDirective (s : Settings) : Directive :=
  if s.enableClient then .clientInput
  else if s.encryptServerData then .encrypt
  else if s.packData then .packed
  else .plain

/-- The tensors that are mentioned: the inputs by name, then the rules as given. -/
def names (s : Settings) : List String := s.inputs.keys ++ s.rules.map (·.1)

/-- What is wrong with the name of a tensor. -/
def nameError? (name : String) : Option ConfigError :=
  if name.isEmpty then some .emptyTensorName
  else if reservedKeys.contains name then some (.reservedName name)
  else none

/-- Adds a rule to directives, of which the strongest stays. -/
def addRule (directives : NameMap Directive) (rule : String × Directive) : NameMap Directive :=
  directives.insert rule.1 (((directives.get? rule.1).getD .plain).strongest rule.2)

/-- The directive of every tensor that is mentioned. -/
def directives (s : Settings) : NameMap Directive :=
  s.rules.foldl addRule (s.inputs.mapValues fun _ _ => s.globalDirective)

end Settings

/-! ## Configurations -/

/-- How the tensors of a request are treated. -/
structure Config where
  backend : String
  deviceId : String
  source : ParameterSource
  parameters : EncryptionParameters
  enableClient : Bool
  encryptServerData : Bool
  packData : Bool
  complexPacking : Bool
  resultLayout : ScoreLayout
  directives : NameMap Directive
  deriving DecidableEq

/-- The configuration that settings ask for. -/
def Settings.build (files : FileSystem) (s : Settings) : Except ConfigError Config :=
  if s.enableClient && s.encryptServerData then .error .conflictingDirectives
  else match s.names.findSome? Settings.nameError? with
    | some e => .error e
    | none => match EncryptionParameters.load files s.source with
      | .error e => .error (.parameters e)
      | .ok parameters => .ok {
          backend := s.backend
          deviceId := s.deviceId
          source := s.source
          parameters
          enableClient := s.enableClient
          encryptServerData := s.encryptServerData
          packData := s.packData
          complexPacking := s.complexPacking || parameters.complexPacking
          resultLayout := s.resultLayout
          directives := s.directives }

namespace Config

/-- The directive of a tensor; one that was never mentioned is plain. -/
def directive (c : Config) (name : String) : Directive := (c.directives.get? name).getD .plain

def packingFactor (c : Config) : PackingFactor := if c.complexPacking then .two else .one

/-- The number of real slots of a ciphertext. -/
def slotCapacity (c : Config) : Nat := c.parameters.slotCapacity

/-! ## Parameter maps -/

/-- The entries of the reserved keys. -/
def reservedEntries (c : Config) : List (String × String) :=
  [("backend", c.backend), ("device_id", c.deviceId),
   ("encryption_parameters", c.parameters.toText),
   ("enable_client", flagText c.enableClient),
   ("encrypt_server_data", flagText c.encryptServerData),
   ("complex_packing", flagText c.complexPacking), ("pack_data", flagText c.packData)]

/-- The configuration as the engine is told it: the directive of every tensor that was mentioned,
and the reserved keys. -/
def parameterMap (c : Config) : NameMap String :=
  c.reservedEntries.foldl (fun m e => m.insert e.1 e.2) (c.directives.mapValues fun _ d => d.toText)

/-- The rules in a parameter map. -/
def mapRules : List (String × String) → Except ConfigError (List (String × Directive))
  | [] => .ok []
  | (name, value) :: rest =>
    if reservedKeys.contains name then mapRules rest
    else match Directive.ofText? value with
      | none => .error (.invalidEntry name value (.unknownDirective value))
      | some d => do
        let rules ← mapRules rest
        return (name, d) :: rules

/-- The settings that a parameter map stands for. -/
def settingsOfMap (m : NameMap String) : Except ConfigError Settings := do
  let entry (key : String) : Except ConfigError String :=
    match m.get? key with
    | some value => .ok value
    | none => .error (.missingKey key)
  let flag (key : String) : Except ConfigError Bool := do parseFlag key (← entry key)
  let backend ← entry "backend"
  let deviceId ← entry "device_id"
  let parameters ← entry "encryption_parameters"
  let enableClient ← flag "enable_client"
  let encryptServerData ← flag "encrypt_server_data"
  let complexPacking ← flag "complex_packing"
  let packData ← flag "pack_data"
  let rules ← mapRules m.entries
  return { Settings.initial with
    backend, deviceId, source := .ofText parameters, enableClient, encryptServerData,
    complexPacking, packData, rules }

/-- The configuration that a parameter map stands for. -/
def ofParameterMap (files : FileSystem) (m : NameMap String) : Except ConfigError Config := do
  let settings ← settingsOfMap m
  settings.build files

end Config

end EncryptedInference
