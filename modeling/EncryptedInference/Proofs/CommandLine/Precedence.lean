import EncryptedInference.CommandLine.Options
import EncryptedInference.Proofs.Encryption.Acceptance
import EncryptedInference.Proofs.Outcomes

/-!
# Where settings come from

The value of a setting is the one that the command line gives, or else the one that the environment
tells, or else the default (`Setter.effective`).  But the variables of the flags have to be in order
even where the command line gives the flags: the first that is not (`FirstMisspelt`) is reported,
and nothing is built.  So two environments that differ only in what the command line gives lead to
the same outcome just when they agree in this: `CommandLine.config_of_accepted`.
-/

namespace EncryptedInference

open CommandLine

/-! ## Flags -/

/-- The text is a word for a truth value, in any case and with white space around it. -/
def SpellsFlag (text : String) : Prop :=
  ∃ word on, (word, on) ∈ flagSpellings ∧ Text.Spells text word

theorem parseFlag_eq (name text : String) : parseFlag name text =
    match flag? text with
    | some on => .ok on
    | none => .error (.invalidFlag name text) := by
  unfold flag? parseFlag
  cases lookupSpelling flagSpellings text <;> rfl

theorem flag?_eq_none {text : String} : flag? text = none ↔ ¬ SpellsFlag text := by
  have hsome : ∀ on, flag? text = some on ↔
      ∃ word, (word, on) ∈ flagSpellings ∧ Text.Spells text word := by
    intro on
    rw [← @parseFlag_eq_ok "", parseFlag_eq]
    cases flag? text <;> simp
  rw [SpellsFlag, exists_comm]
  simp only [← hsome]
  cases flag? text <;> simp

/-! ## Sources of values -/

namespace Setter

/-- The option that gives a setting. -/
def optionName? : Setter → Option OptionName
  | backend => some .backend
  | deviceId => none
  | source => some .encryptionParameters
  | enableClient => some .enableClient
  | encryptServerData => some .encryptServerData
  | packData => some .packData
  | complexPacking => some .complexPacking
  | resultLayout => some .resultLayout

/-- The variable that tells a setting. -/
def variableName? : Setter → Option String
  | backend => some "HE_BACKEND"
  | source => some "HE_SEAL_CONFIG"
  | enableClient => some "HE_ENABLE_CLIENT"
  | encryptServerData => some "HE_ENCRYPT_DATA"
  | packData => some "HE_BATCH_DATA"
  | complexPacking => some "HE_COMPLEX_PACK"
  | deviceId | resultLayout => none

/-- What a text behind the option means. -/
def ofOption : (k : Setter) → String → Option k.Value
  | backend, text => some text
  | deviceId, _ => none
  | source, text => some (.ofText text)
  | enableClient, text | encryptServerData, text | packData, text | complexPacking, text =>
    flag? text
  | resultLayout, text => (ScoreLayout.ofText text).toOption

/-- What a text in the variable means.  A blank backend or source counts as not set. -/
def ofVariable : (k : Setter) → String → Option k.Value
  | backend, text => if text.toList.all Text.isBlank then none else some (Text.trim text)
  | source, text => if text.toList.all Text.isBlank then none else some (.ofText text)
  | enableClient, text | encryptServerData, text | packData, text | complexPacking, text =>
    flag? text
  | deviceId, _ | resultLayout, _ => none

/-- The value that options give to a setting. -/
def given? (given : List Given) (k : Setter) : Option k.Value :=
  (k.optionName?.bind fun name => given.lookup name).bind k.ofOption

/-- The value that an environment tells of a setting. -/
def told? (environment : String → Option String) (k : Setter) : Option k.Value :=
  (k.variableName?.bind environment).bind k.ofVariable

/-- The value of a setting: as it is given, or else as it is told, or else the default. -/
def effective (given : List Given) (environment : String → Option String) (k : Setter) : k.Value :=
  ((k.given? given).or (k.told? environment)).getD (Settings.initial.value k)

/-- What is given hides what is told. -/
theorem effective_congr {given : List Given} {environment environment' : String → Option String}
    (k : Setter) (h : ∀ name, k.variableName? = some name → k.given? given = none →
      environment' name = environment name) :
    k.effective given environment' = k.effective given environment := by
  unfold effective
  cases hgiven : k.given? given with
  | some value => rfl
  | none =>
    have htold : k.told? environment' = k.told? environment := by
      unfold told?
      cases hname : k.variableName? with
      | none => rfl
      | some name => rw [Option.bind_some, Option.bind_some, h name hname hgiven]
    rw [htold]

end Setter

/-! ## Environments -/

/-- The variables of the flags, in the order in which they are read. -/
def flagVariables : List String :=
  ["HE_ENABLE_CLIENT", "HE_ENCRYPT_DATA", "HE_BATCH_DATA", "HE_COMPLEX_PACK"]

/-- The first variable of a flag that is set to something else than a truth value. -/
structure FirstMisspelt (environment : String → Option String) (name text : String) : Prop where
  set : environment name = some text
  misspelt : ¬ SpellsFlag text
  first : ∃ before after, flagVariables = before ++ name :: after ∧
    ∀ other ∈ before, ∀ text', environment other = some text' → SpellsFlag text'

/-- The text of a flag's variable that is set to something else than a truth value. -/
def misspelt? (environment : String → Option String) (name : String) : Option String :=
  (environment name).filter fun text => flag? text = none

/-- The first of these variables with its text, as it is found by reading them in order. -/
def firstMisspelt? (environment : String → Option String) : Option (String × String) :=
  flagVariables.findSome? fun name => (misspelt? environment name).map (name, ·)

variable {environment : String → Option String} {name text : String}

theorem misspelt?_eq_some :
    misspelt? environment name = some text ↔ environment name = some text ∧ ¬ SpellsFlag text := by
  rw [misspelt?, Option.filter_eq_some_iff, decide_eq_true_eq, flag?_eq_none]

theorem misspelt?_eq_none :
    misspelt? environment name = none ↔ ∀ text, environment name = some text → SpellsFlag text := by
  rw [Option.eq_none_iff_forall_not_mem]
  simp only [Option.mem_def, misspelt?_eq_some, not_and, not_not]

theorem firstMisspelt?_eq_some :
    firstMisspelt? environment = some (name, text) ↔ FirstMisspelt environment name text := by
  rw [firstMisspelt?, List.findSome?_eq_some_iff]
  constructor
  · rintro ⟨before, name', after, hsplit, hname, hbefore⟩
    obtain ⟨text', htext, heq⟩ := Option.map_eq_some_iff.1 hname
    obtain ⟨rfl, rfl⟩ := Prod.mk.inj heq
    obtain ⟨hset, hmisspelt⟩ := misspelt?_eq_some.1 htext
    refine ⟨hset, hmisspelt, before, after, hsplit, ?_⟩
    intro other hother
    exact misspelt?_eq_none.1 (Option.map_eq_none_iff.1 (hbefore other hother))
  · rintro ⟨hset, hmisspelt, before, after, hsplit, hbefore⟩
    refine ⟨before, name, after, hsplit, ?_, ?_⟩
    · rw [misspelt?_eq_some.2 ⟨hset, hmisspelt⟩, Option.map_some]
    · intro other hother
      rw [misspelt?_eq_none.2 (hbefore other hother), Option.map_none]

theorem firstMisspelt?_eq_none : firstMisspelt? environment = none ↔
    ∀ name text, ¬ FirstMisspelt environment name text := by
  rw [Option.eq_none_iff_forall_ne_some, Prod.forall]
  exact forall₂_congr fun _ _ => not_congr firstMisspelt?_eq_some

namespace Settings

theorem environmentFlag_eq (environment : String → Option String) (name : String) :
    environmentFlag environment name =
      match misspelt? environment name with
      | some text => .error (.invalidFlag name text)
      | none => .ok (((environment name).bind flag?).getD false) := by
  unfold environmentFlag misspelt?
  cases environment name with
  | none => rfl
  | some text =>
    dsimp only
    rw [parseFlag_eq, Option.bind_some]
    cases hflag : flag? text <;> simp [Option.filter, hflag]

/-- The settings as an environment tells them. -/
def told (environment : String → Option String) : Settings :=
  { initial with
    backend := (Setter.backend.told? environment).getD initial.backend
    source := (Setter.source.told? environment).getD initial.source
    enableClient := (Setter.enableClient.told? environment).getD initial.enableClient
    encryptServerData := (Setter.encryptServerData.told? environment).getD initial.encryptServerData
    packData := (Setter.packData.told? environment).getD initial.packData
    complexPacking := (Setter.complexPacking.told? environment).getD initial.complexPacking }

theorem value_told (environment : String → Option String) (k : Setter) :
    (told environment).value k = (k.told? environment).getD (initial.value k) := by
  cases k <;> rfl

theorem told?_backend : Setter.backend.told? environment =
    ((environment "HE_BACKEND").map Text.trim).filter (· ≠ "") := by
  show (environment "HE_BACKEND").bind (Setter.ofVariable .backend) = _
  cases environment "HE_BACKEND" with
  | none => rfl
  | some text =>
    simp only [Option.bind_some, Setter.ofVariable, Text.all_isBlank_iff, Option.map_some]
    by_cases hblank : Text.trim text = "" <;> simp [Option.filter, hblank]

/-- A blank source is the default, as if it were not set. -/
theorem told?_source : (Setter.source.told? environment).getD .default =
    ((environment "HE_SEAL_CONFIG").map ParameterSource.ofText).getD .default := by
  show ((environment "HE_SEAL_CONFIG").bind (Setter.ofVariable .source)).getD .default = _
  cases environment "HE_SEAL_CONFIG" with
  | none => rfl
  | some text =>
    simp only [Option.bind_some, Setter.ofVariable, Text.all_isBlank_iff, Option.map_some]
    by_cases hblank : Text.trim text = ""
    · simp [hblank, ParameterSource.ofText]
    · simp [hblank]

theorem ofEnvironment_eq (environment : String → Option String) : ofEnvironment environment =
    match firstMisspelt? environment with
    | some (name, text) => .error (.invalidFlag name text)
    | none => .ok (told environment) := by
  simp only [ofEnvironment, environmentFlag_eq, firstMisspelt?, flagVariables,
    List.findSome?_cons, List.findSome?_nil]
  cases misspelt? environment "HE_ENABLE_CLIENT" with
  | some text => rfl
  | none =>
    cases misspelt? environment "HE_ENCRYPT_DATA" with
    | some text => rfl
    | none =>
      cases misspelt? environment "HE_BATCH_DATA" with
      | some text => rfl
      | none =>
        cases misspelt? environment "HE_COMPLEX_PACK" with
        | some text => rfl
        | none =>
          show Except.ok _ = Except.ok (told environment)
          rw [told, told?_backend]
          congr 2
          exact told?_source.symm

/-- Building never finds fault with a flag. -/
theorem build_ne_invalidFlag (files : FileSystem) (s : Settings) :
    s.build files ≠ .error (.invalidFlag name text) := by
  unfold build
  split_ifs
  · nofun
  · split
    · rename_i e hnames
      obtain ⟨other, -, hother⟩ := List.exists_of_findSome?_eq_some hnames
      obtain ⟨-, rfl⟩ := isForbidden_of_nameError? hother
      unfold forbiddenError
      split_ifs <;> nofun
    · split <;> nofun

end Settings

/-! ## Command lines -/

/-- A configuration has these values and the parameters of their source.  It packs in pairs also if
the parameters ask for it. -/
structure Config.Reflects (files : FileSystem) (value : (k : Setter) → k.Value) (c : Config) :
    Prop where
  backend : c.backend = value .backend
  deviceId : c.deviceId = value .deviceId
  source : c.source = value .source
  parameters : EncryptionParameters.load files (value .source) = .ok c.parameters
  enableClient : c.enableClient = value .enableClient
  encryptServerData : c.encryptServerData = value .encryptServerData
  packData : c.packData = value .packData
  complexPacking : c.complexPacking = (value .complexPacking || c.parameters.complexPacking)
  resultLayout : c.resultLayout = value .resultLayout

theorem Config.reflects_of_build {files : FileSystem} {s : Settings} {c : Config}
    (h : s.build files = .ok c) : c.Reflects files s.value := by
  obtain ⟨-, -, p, hload, rfl⟩ := Settings.build_eq_ok.1 h
  exact ⟨rfl, rfl, rfl, hload, rfl, rfl, rfl, rfl, rfl⟩

namespace CommandLine

variable {given : List Given} {o : Options}

theorem valueOf_eq_ok {α : Type} {name : OptionName} {read : String → Option α} {value : Option α} :
    valueOf given name read = .ok value ↔
      (∀ text, given.lookup name = some text → read text ≠ none) ∧
        value = (given.lookup name).bind read := by
  unfold valueOf
  cases given.lookup name with
  | none => simp [eq_comm]
  | some text => cases hread : read text <;> simp [hread, eq_comm]

theorem valueOr_eq_ok {α : Type} {name : OptionName} {read : String → Option α} {default value : α}
    (h : valueOr given name read default = .ok value) :
    (∀ text, given.lookup name = some text → read text ≠ none) ∧
      value = ((given.lookup name).bind read).getD default := by
  unfold valueOr at h
  cases hvalue : valueOf given name read with
  | error e =>
    rw [hvalue] at h
    cases h
  | ok v =>
    rw [hvalue] at h
    obtain rfl := Except.ok.inj h
    obtain ⟨hread, rfl⟩ := valueOf_eq_ok.1 hvalue
    exact ⟨hread, rfl⟩

/-- The options say of the settings what is given, and all of that has a meaning. -/
structure Options.Tells (given : List Given) (o : Options) : Prop where
  backend : o.backend = Setter.backend.given? given
  source : o.encryptionParameters.map .ofText = Setter.source.given? given
  enableClient : o.enableClient = Setter.enableClient.given? given
  encryptServerData : o.encryptServerData = Setter.encryptServerData.given? given
  packData : o.packData = Setter.packData.given? given
  complexPacking : o.complexPacking = Setter.complexPacking.given? given
  resultLayout : o.resultLayout = (Setter.resultLayout.given? given).getD .batchByClass
  readable : ∀ k name text, Setter.optionName? k = some name → given.lookup name = some text →
    k.ofOption text ≠ none

theorem Options.tells_of_ofGiven (h : ofGiven given = .ok o) : o.Tells given := by
  unfold ofGiven at h
  obtain ⟨input?, -, h⟩ := exists_of_bind_eq_ok h
  cases input? with
  | none => cases h
  | some path =>
    simp only [bind_eq_ok_iff] at h
    obtain ⟨input, -, labels, -, batchSize, -, hostname, -, port, -, backend, hbackend, parameters,
      hparameters, client, hclient, server, hserver, pack, hpack, complex, hcomplex, tensorName, -,
      outputName, -, order, -, layout, hlayout, interval, -, timeout, -, retries, -, backoff, -,
      h⟩ := h
    obtain rfl := Except.ok.inj h
    obtain ⟨-, rfl⟩ := valueOf_eq_ok.1 hbackend
    obtain ⟨-, rfl⟩ := valueOf_eq_ok.1 hparameters
    obtain ⟨hclientRead, rfl⟩ := valueOf_eq_ok.1 hclient
    obtain ⟨hserverRead, rfl⟩ := valueOf_eq_ok.1 hserver
    obtain ⟨hpackRead, rfl⟩ := valueOf_eq_ok.1 hpack
    obtain ⟨hcomplexRead, rfl⟩ := valueOf_eq_ok.1 hcomplex
    obtain ⟨hlayoutRead, rfl⟩ := valueOr_eq_ok hlayout
    refine ⟨rfl, ?_, rfl, rfl, rfl, rfl, rfl, ?_⟩
    · show ((given.lookup .encryptionParameters).bind some).map ParameterSource.ofText =
        (given.lookup .encryptionParameters).bind fun text => some (.ofText text)
      cases given.lookup .encryptionParameters <;> rfl
    · intro k name text hname hlookup
      cases k <;> cases hname
      · nofun
      · nofun
      · exact hclientRead text hlookup
      · exact hserverRead text hlookup
      · exact hpackRead text hlookup
      · exact hcomplexRead text hlookup
      · exact hlayoutRead text hlookup

/-- The settings for the given options and an environment. -/
def effective (given : List Given) (environment : String → Option String) (tensorName : String) :
    Settings where
  backend := Setter.backend.effective given environment
  deviceId := Setter.deviceId.effective given environment
  source := Setter.source.effective given environment
  enableClient := Setter.enableClient.effective given environment
  encryptServerData := Setter.encryptServerData.effective given environment
  packData := Setter.packData.effective given environment
  complexPacking := Setter.complexPacking.effective given environment
  resultLayout := Setter.resultLayout.effective given environment
  inputs := NameMap.empty.insert tensorName ()
  rules := []

theorem value_effective (given : List Given) (environment : String → Option String)
    (tensorName : String) :
    (effective given environment tensorName).value = Setter.effective given environment := by
  funext k
  cases k <;> rfl

theorem lastValue?_resultLayout (o : Options) :
    lastValue? o.changes .resultLayout = some o.resultLayout := by
  rw [Options.changes, lastValue?_append]
  rfl

namespace Options.Tells

variable {environment environment' : String → Option String} {files : FileSystem}
  {name text : String} (ho : o.Tells given)

include ho

/-- Options change just the settings that are given, and the layout. -/
theorem lastValue?_changes {k : Setter} (hk : k ≠ .resultLayout) :
    lastValue? o.changes k = k.given? given := by
  have hend : lastValue? [.input o.tensorName, .resultLayout o.resultLayout] k = none := by
    cases k <;> first | rfl | exact absurd rfl hk
  simp only [changes, lastValue?_append, hend, lastValue?_toList]
  cases k with
  | backend => simp [SettingsChange.value?, ho.backend]
  | deviceId => simp [SettingsChange.value?, Setter.given?, Setter.optionName?]
  | source => simp [SettingsChange.value?, ← ho.source, Option.map_eq_bind]
  | enableClient => simp [SettingsChange.value?, ho.enableClient]
  | encryptServerData => simp [SettingsChange.value?, ho.encryptServerData]
  | packData => simp [SettingsChange.value?, ho.packData]
  | complexPacking => simp [SettingsChange.value?, ho.complexPacking]
  | resultLayout => exact absurd rfl hk

theorem value_changes (k : Setter) :
    ((Settings.told environment).changes o.changes).value k = k.effective given environment := by
  rw [Settings.value_changes, Settings.value_told, Setter.effective]
  by_cases hk : k = .resultLayout
  · subst hk
    rw [lastValue?_resultLayout, Option.getD_some, ho.resultLayout]
    cases Setter.resultLayout.given? given <;> rfl
  · rw [ho.lastValue?_changes hk]
    cases k.given? given <;> rfl

theorem changes_told :
    (Settings.told environment).changes o.changes = effective given environment o.tensorName := by
  have hinputs : o.changes.filterMap SettingsChange.input? = [o.tensorName] := by
    simp [changes, List.filterMap_map, SettingsChange.input?, Function.comp_def]
  have hrules : o.changes.filterMap SettingsChange.rule? = [] := by
    simp [changes, List.filterMap_map, SettingsChange.rule?, Function.comp_def]
  refine Settings.eq_of_value ?_ ?_ ?_
  · intro k
    rw [ho.value_changes, value_effective]
  · rw [Settings.inputs_changes, hinputs]
    rfl
  · rw [Settings.rules_changes, hrules]
    rfl

/-! ## Outcomes -/

theorem config_eq : o.config files environment =
    match firstMisspelt? environment with
    | some (name, text) => .error (.invalidFlag name text)
    | none => (effective given environment o.tensorName).build files := by
  rw [config, Settings.ofEnvironment_eq]
  cases firstMisspelt? environment with
  | some misspelt => rfl
  | none =>
    rw [← ho.changes_told]
    rfl

theorem config_of_forall (h : ∀ name text, ¬ FirstMisspelt environment name text) :
    o.config files environment = (effective given environment o.tensorName).build files := by
  rw [ho.config_eq, firstMisspelt?_eq_none.2 h]

theorem config_eq_invalidFlag_iff :
    o.config files environment = .error (.invalidFlag name text) ↔
      FirstMisspelt environment name text := by
  rw [← firstMisspelt?_eq_some, ho.config_eq]
  cases firstMisspelt? environment with
  | some misspelt => simp [Prod.ext_iff]
  | none => exact iff_of_false (Settings.build_ne_invalidFlag files _) nofun

theorem reflects_of_config {c : Config} (h : o.config files environment = .ok c) :
    c.Reflects files (Setter.effective given environment) := by
  have hnone : ∀ name text, ¬ FirstMisspelt environment name text := by
    intro name text hfirst
    cases h.symm.trans (ho.config_eq_invalidFlag_iff.2 hfirst)
  rw [ho.config_of_forall hnone] at h
  have hreflects := Config.reflects_of_build h
  rwa [value_effective] at hreflects

/-- Environments that differ in what is given only lead to the same outcome if the variables of the
flags are in order in both, or out of order alike. -/
theorem config_eq_iff (hagree : ∀ k name, Setter.variableName? k = some name →
      k.given? given = none → environment' name = environment name) :
    o.config files environment' = o.config files environment ↔
      ∀ name text, FirstMisspelt environment' name text ↔ FirstMisspelt environment name text := by
  constructor
  · intro h name text
    have hiff : o.config files environment' = .error (.invalidFlag name text) ↔
        o.config files environment = .error (.invalidFlag name text) := by rw [h]
    rwa [ho.config_eq_invalidFlag_iff, ho.config_eq_invalidFlag_iff] at hiff
  · intro h
    have hfirst : firstMisspelt? environment' = firstMisspelt? environment := by
      ext ⟨name, text⟩
      simp only [firstMisspelt?_eq_some, h name text]
    have hsettings : effective given environment' o.tensorName =
        effective given environment o.tensorName := by
      refine Settings.eq_of_value ?_ rfl rfl
      intro k
      rw [value_effective, value_effective]
      exact k.effective_congr (hagree k)
    rw [ho.config_eq, ho.config_eq, hfirst, hsettings]

end Options.Tells

/-- What an accepted command line and an environment make of the settings.  An option that is given
has a meaning, and that is the value of the setting.  The first variable of a flag that is set to
something else than a truth value is reported, whatever is given; otherwise the settings are built,
each with the value that is given, or else told, or else the default, and a configuration that
results has these values.  Of two environments that differ only in what is given, both lead to the
same outcome just when they have the same first variable of a flag out of order, if they have
one. -/
theorem config_of_accepted {args : List String} {o : Options}
    (h : Options.ofArguments args = .ok o) :
    ∃ given, Given.ofArguments args = .ok given ∧
      (∀ k name text, Setter.optionName? k = some name → given.lookup name = some text →
        ∃ value, k.ofOption text = some value ∧
          ∀ environment, k.effective given environment = value) ∧
      ∀ files environment,
        (∀ name text, o.config files environment = .error (.invalidFlag name text) ↔
          FirstMisspelt environment name text) ∧
        ((∀ name text, ¬ FirstMisspelt environment name text) →
          o.config files environment = (effective given environment o.tensorName).build files) ∧
        (∀ c, o.config files environment = .ok c →
          c.Reflects files (Setter.effective given environment)) ∧
        ∀ environment', (∀ k name, Setter.variableName? k = some name → k.given? given = none →
            environment' name = environment name) →
          (o.config files environment' = o.config files environment ↔
            ∀ name text, FirstMisspelt environment' name text ↔
              FirstMisspelt environment name text) := by
  obtain ⟨given, hgiven, h⟩ := exists_of_bind_eq_ok h
  have ho := Options.tells_of_ofGiven h
  refine ⟨given, hgiven, ?_, ?_⟩
  · intro k name text hname hlookup
    obtain ⟨value, hvalue⟩ := Option.ne_none_iff_exists'.1 (ho.readable k name text hname hlookup)
    have hgiven : k.given? given = some value := by
      rw [Setter.given?, hname, Option.bind_some, hlookup, Option.bind_some, hvalue]
    refine ⟨value, hvalue, fun environment => ?_⟩
    rw [Setter.effective, hgiven]
    rfl
  · intro files environment
    exact ⟨fun _ _ => ho.config_eq_invalidFlag_iff, ho.config_of_forall,
      fun _ => ho.reflects_of_config, fun _ hagree => ho.config_eq_iff hagree⟩

/-- A flag and a backend are given that the first environment tells, too. -/
theorem config_of_accepted_overridden :
    let args := ["--input", "in.json", "--enable_client=no", "--backend", "b"]
    let told (name : String) : Option String :=
      [("HE_ENABLE_CLIENT", "Yes"), ("HE_BACKEND", "a"), ("HE_BATCH_DATA", " on ")].lookup name
    let told' (name : String) : Option String := [("HE_BATCH_DATA", " on ")].lookup name
    let files : FileSystem := fun _ => .error .notFound
    ∃ o c, Options.ofArguments args = .ok o ∧ o.config files told = .ok c ∧
      o.config files told' = .ok c ∧ c.enableClient = false ∧ c.backend = "b" ∧
      c.packData = true ∧ c.source = .default := by
  intro args told told' files
  have hname : (Options.ofArguments args).map (·.tensorName) = .ok "import/input" := by
    decide +kernel
  cases ho : Options.ofArguments args with
  | error e =>
    rw [ho] at hname
    cases hname
  | ok o =>
    rw [ho] at hname
    obtain ⟨given, hgiven, -, houtcome⟩ := config_of_accepted ho
    have hargs : Given.ofArguments args =
        .ok [(.input, "in.json"), (.enableClient, "no"), (.backend, "b")] := by decide +kernel
    obtain rfl := Except.ok.inj (hgiven.symm.trans hargs)
    obtain ⟨-, hbuild, hreflects, hsame⟩ := houtcome files told
    have hnone : ∀ name text, ¬ FirstMisspelt told name text :=
      firstMisspelt?_eq_none.1 (by decide +kernel)
    have hnone' : ∀ name text, ¬ FirstMisspelt told' name text :=
      firstMisspelt?_eq_none.1 (by decide +kernel)
    have hagree : o.config files told' = o.config files told := by
      refine (hsame told' ?_).2 fun _ _ => iff_of_false (hnone' _ _) (hnone _ _)
      intro k name hvariable hgiven
      cases k <;> cases hvariable
      · exact absurd hgiven (by decide)
      · rfl
      · exact absurd hgiven (by decide +kernel)
      all_goals rfl
    have hconfig := hbuild hnone
    cases hc : o.config files told with
    | error e =>
      have hok : ((effective [(.input, "in.json"), (.enableClient, "no"), (.backend, "b")] told
          "import/input").build files).isOk = true := by decide +kernel
      rw [← Except.ok.inj hname, ← hconfig, hc] at hok
      cases hok
    | ok c =>
      obtain ⟨hbackend, -, hsource, -, hclient, -, hpack, -, -⟩ := hreflects c hc
      exact ⟨o, c, rfl, hc, hagree.trans hc, hclient.trans (by decide +kernel), hbackend,
        hpack.trans (by decide +kernel), hsource⟩

/-- A variable that is no truth value is reported although the command line gives the flag; and
parameters ask for pairs that the command line does without. -/
theorem config_of_misspelt :
    let files : FileSystem := fun _ => .error .notFound
    let environment (name : String) : Option String :=
      if name = "HE_ENABLE_CLIENT" then some "perhaps" else none
    let args := ["--input", "in.json", "--enable_client=no"]
    let paired := "\x7b\"scheme_name\":\"HE_SEAL\",\"poly_modulus_degree\":1024," ++
      "\"security_level\":0,\"coeff_modulus\":[30],\"complex_packing\":true\x7d"
    let args' := ["--input", "in.json", "--complex_packing=no", "--encryption_parameters", paired]
    (Options.ofArguments args).map (fun o => (o.enableClient, o.config files environment)) =
        .ok (some false, .error (.invalidFlag "HE_ENABLE_CLIENT" "perhaps")) ∧
      (Options.ofArguments args).map (fun o =>
        (o.config files fun _ => none).map (·.enableClient)) = .ok (.ok false) ∧
      (Options.ofArguments args').map (fun o =>
        (o.complexPacking, (o.config files fun _ => none).map (·.complexPacking))) =
          .ok (some false, .ok true) := by
  decide +kernel

end CommandLine

end EncryptedInference
