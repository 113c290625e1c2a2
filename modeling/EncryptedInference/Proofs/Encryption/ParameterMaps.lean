import EncryptedInference.Encryption.Config
import EncryptedInference.Proofs.Encryption.Parameters
import EncryptedInference.Proofs.Exchange.Messages
import EncryptedInference.Proofs.Outcomes

/-!
# Parameter maps stand for their configurations

What building checks holds of every configuration (`Config.isSettled_of_build`), and it is all that
is needed for the way back: the parameter map of a settled configuration stands for that
configuration again, whatever files there are (`Config.ofParameterMap_parameterMap`).  So it is with
every configuration that there is (`Config.ofParameterMap_of_obtained`).
-/

namespace EncryptedInference

/-! ## Rules -/

theorem Directive.ofText?_eq_some {text : String} {d : Directive} :
    ofText? text = some d ↔ text = d.toText := by
  constructor
  · intro h
    have htext : d.toText = text := by simpa using List.find?_some h
    exact htext.symm
  · rintro rfl
    exact ofText?_toText d

theorem Directive.toText_injective : Function.Injective toText := by
  intro a b h
  rw [← Option.some_inj, ← ofText?_toText, h, ofText?_toText]

namespace Settings

theorem plain_strongest (d : Directive) : Directive.plain.strongest d = d := by
  cases d <;> rfl

/-- Adding rules, seen from one name: the rules for other names do not matter. -/
theorem get?_foldl_addRule (rules : List (String × Directive)) (m : NameMap Directive)
    (name : String) :
    (rules.foldl addRule m).get? name = (rules.filter (fun e => e.1 = name)).foldl
      (fun d e => some ((d.getD .plain).strongest e.2)) (m.get? name) := by
  induction rules generalizing m with
  | nil => rfl
  | cons e rules ih =>
    rw [List.foldl_cons, ih, addRule, NameMap.get?_insert]
    by_cases h : e.1 = name
    · rw [if_pos h.symm, List.filter_cons_of_pos (by simpa using h), List.foldl_cons, h]
    · rw [if_neg (Ne.symm h), List.filter_cons_of_neg (by simpa using h)]

theorem isSome_get?_foldl_addRule (rules : List (String × Directive)) (m : NameMap Directive)
    (name : String) : ((rules.foldl addRule m).get? name).isSome ↔
      (m.get? name).isSome ∨ name ∈ rules.map Prod.fst := by
  induction rules generalizing m with
  | nil => simp
  | cons e rules ih =>
    rw [List.foldl_cons, ih, addRule, NameMap.get?_insert, List.map_cons, List.mem_cons]
    by_cases h : name = e.1 <;> simp [h]

/-- Rules for different tensors give the directives that they name. -/
theorem get?_foldl_addRule_empty {rules : List (String × Directive)}
    (h : (rules.map Prod.fst).Nodup) {name : String} {d : Directive} :
    (rules.foldl addRule .empty).get? name = some d ↔ (name, d) ∈ rules := by
  rw [get?_foldl_addRule, NameMap.get?_empty]
  constructor
  · intro hget
    by_cases hname : ∃ d', (name, d') ∈ rules
    · obtain ⟨d', hmem⟩ := hname
      rw [filter_name_eq h hmem] at hget
      have hd : d' = d := (plain_strongest d').symm.trans (Option.some.inj hget)
      exact hd ▸ hmem
    · rw [List.filter_eq_nil_iff.2] at hget
      · cases hget
      · rintro ⟨other, d'⟩ hmem hother
        obtain rfl : other = name := by simpa using hother
        exact hname ⟨d', hmem⟩
  · intro hmem
    rw [filter_name_eq h hmem]
    exact congrArg some (plain_strongest d)

/-- Exactly the tensors that are mentioned have a directive. -/
theorem mem_keys_directives {s : Settings} {name : String} :
    name ∈ s.directives.keys ↔ name ∈ s.names := by
  rw [NameMap.mem_keys, directives, isSome_get?_foldl_addRule, NameMap.get?_mapValues,
    Option.isSome_map, ← NameMap.mem_keys, names, List.mem_append]

/-- What building settings takes and gives. -/
theorem build_eq_ok {files : FileSystem} {s : Settings} {c : Config} : s.build files = .ok c ↔
    (s.enableClient && s.encryptServerData) = false ∧
      (∀ name ∈ s.names, nameError? name = none) ∧
      ∃ p, EncryptionParameters.load files s.source = .ok p ∧
        c = ⟨s.backend, s.deviceId, s.source, p, s.enableClient, s.encryptServerData, s.packData,
          s.complexPacking || p.complexPacking, s.resultLayout, s.directives⟩ := by
  unfold build
  split_ifs with hflags
  · simp [hflags]
  · rw [Bool.not_eq_true] at hflags
    cases hnames : s.names.findSome? nameError? with
    | some e =>
      obtain ⟨name, hname, herror⟩ := List.exists_of_findSome?_eq_some hnames
      simp only [reduceCtorEq, false_iff]
      rintro ⟨-, hall, -⟩
      rw [hall name hname] at herror
      cases herror
    | none =>
      rw [List.findSome?_eq_none_iff] at hnames
      cases hload : EncryptionParameters.load files s.source with
      | error e => simp
      | ok p =>
        simp only [Except.ok.injEq, exists_eq_left', hflags, true_and]
        constructor
        · rintro rfl
          exact ⟨hnames, rfl⟩
        · rintro ⟨-, rfl⟩
          rfl

end Settings

namespace Config

/-! ## Settled configurations -/

/-- What building finds out about a configuration. -/
structure IsSettled (c : Config) : Prop where
  exclusive : (c.enableClient && c.encryptServerData) = false
  names : ∀ name ∈ c.directives.keys, Settings.nameError? name = none
  parameters : c.parameters.IsValid
  packing : c.parameters.complexPacking = true → c.complexPacking = true

theorem isSettled_of_build {files : FileSystem} {s : Settings} {c : Config}
    (h : s.build files = .ok c) : c.IsSettled := by
  obtain ⟨hflags, hnames, p, hload, rfl⟩ := Settings.build_eq_ok.1 h
  obtain ⟨-, hvalid⟩ := EncryptionParameters.load_eq_ok.1 hload
  refine ⟨hflags, ?_, hvalid, ?_⟩
  · intro name hname
    exact hnames name (Settings.mem_keys_directives.1 hname)
  · intro hcomplex
    exact Bool.or_eq_true_iff.2 (Or.inr hcomplex)

/-- A settled configuration has no directive for a reserved key. -/
theorem IsSettled.not_reserved {c : Config} (hc : c.IsSettled) {name : String}
    (h : (c.directives.get? name).isSome) : name ∉ reservedKeys := by
  have hname := hc.names name (NameMap.mem_keys.2 h)
  unfold Settings.nameError? at hname
  split_ifs at hname with hempty hreserved
  simpa using hreserved

/-! ## Reading a parameter map -/

theorem parseFlag_flagText (name : String) (on : Bool) : parseFlag name (flagText on) = .ok on := by
  cases on <;> rfl

theorem get?_parameterMap (c : Config) (name : String) :
    c.parameterMap.get? name =
      (c.reservedEntries.lookup name).or ((c.directives.get? name).map Directive.toText) := by
  have hnodup : (c.reservedEntries.map Prod.fst).Nodup := by
    simp [reservedEntries]
  rw [parameterMap, NameMap.get?_foldl_insert hnodup, NameMap.get?_mapValues]

/-- The rules in a list of entries are those whose keys are not reserved, written out. -/
theorem mapRules_eq_ok {l : List (String × String)} {rules : List (String × Directive)} :
    mapRules l = .ok rules ↔ l.filter (fun e => !reservedKeys.contains e.1) =
      rules.map fun rule => (rule.1, rule.2.toText) := by
  induction l generalizing rules with
  | nil =>
    rw [mapRules, List.filter_nil, Except.ok.injEq, eq_comm, eq_comm (a := []), List.map_eq_nil_iff]
  | cons e l ih =>
    obtain ⟨name, value⟩ := e
    rw [mapRules]
    by_cases hreserved : reservedKeys.contains name = true
    · rw [if_pos hreserved, ih, List.filter_cons_of_neg (by simpa using hreserved)]
    · rw [if_neg hreserved, List.filter_cons_of_pos (by simpa using hreserved)]
      cases hvalue : Directive.ofText? value with
      | none =>
        simp only [reduceCtorEq, false_iff]
        intro heq
        obtain ⟨rule, rest, -, hrule, -⟩ := List.map_eq_cons_iff.1 heq.symm
        obtain ⟨rfl, rfl⟩ := Prod.mk.inj hrule
        rw [Directive.ofText?_toText] at hvalue
        cases hvalue
      | some d =>
        obtain rfl := Directive.ofText?_eq_some.1 hvalue
        simp only [bind_eq_ok_iff, ih]
        constructor
        · rintro ⟨rest, hrest, heq⟩
          obtain rfl := Except.ok.inj heq
          rw [hrest, List.map_cons]
        · intro heq
          obtain ⟨⟨other, d'⟩, rest, rfl, hrule, hrest⟩ := List.map_eq_cons_iff.1 heq.symm
          obtain ⟨rfl, htext⟩ := Prod.mk.inj hrule
          obtain rfl := Directive.toText_injective htext
          exact ⟨rest, hrest.symm, rfl⟩

/-- The rules in the parameter map of a configuration. -/
def mapRulesOf (c : Config) : List (String × Directive) :=
  (c.parameterMap.entries.filter (fun e => !reservedKeys.contains e.1)).map
    fun e => (e.1, c.directive e.1)

variable {c : Config}

theorem get?_parameterMap_of_not_reserved {name : String} (h : name ∉ reservedKeys) :
    c.parameterMap.get? name = (c.directives.get? name).map Directive.toText := by
  have hlookup : c.reservedEntries.lookup name = none := lookup_eq_none_of_not_mem h
  rw [get?_parameterMap, hlookup, Option.none_or]

theorem mapRules_parameterMap (c : Config) :
    mapRules c.parameterMap.entries = .ok c.mapRulesOf := by
  rw [mapRules_eq_ok, mapRulesOf, List.map_map]
  refine (List.map_id _).symm.trans (List.map_congr_left ?_)
  rintro ⟨name, value⟩ he
  obtain ⟨hmem, hreserved⟩ := List.mem_filter.1 he
  have hget := NameMap.mem_entries.1 hmem
  rw [get?_parameterMap_of_not_reserved (by simpa using hreserved)] at hget
  obtain ⟨d, hd, rfl⟩ := Option.map_eq_some_iff.1 hget
  simp only [id, Function.comp_apply, directive, hd, Option.getD_some]

/-- The settings in the parameter map of a configuration. -/
def mapSettings (c : Config) : Settings :=
  { Settings.initial with
    backend := c.backend, deviceId := c.deviceId, source := .ofText c.parameters.toText,
    enableClient := c.enableClient, encryptServerData := c.encryptServerData,
    complexPacking := c.complexPacking, packData := c.packData, rules := c.mapRulesOf }

theorem settingsOfMap_parameterMap (c : Config) :
    settingsOfMap c.parameterMap = .ok c.mapSettings := by
  have hentry : ∀ name value, c.reservedEntries.lookup name = some value →
      c.parameterMap.get? name = some value := by
    intro name value h
    rw [get?_parameterMap, h]
    rfl
  simp only [settingsOfMap, hentry "backend" _ rfl, hentry "device_id" _ rfl,
    hentry "encryption_parameters" _ rfl, hentry "enable_client" _ rfl,
    hentry "encrypt_server_data" _ rfl, hentry "complex_packing" _ rfl, hentry "pack_data" _ rfl,
    parseFlag_flagText, mapRules_parameterMap, bind, Except.bind, pure, Except.pure, mapSettings]

/-- The rules in its parameter map are the directives of a settled configuration. -/
theorem mem_mapRulesOf (hc : c.IsSettled) {name : String} {d : Directive} :
    (name, d) ∈ c.mapRulesOf ↔ c.directives.get? name = some d := by
  constructor
  · intro h
    obtain ⟨e, he, heq⟩ := List.mem_map.1 h
    obtain ⟨rfl, rfl⟩ := Prod.mk.inj heq
    obtain ⟨hmem, hreserved⟩ := List.mem_filter.1 he
    have hget := NameMap.mem_entries.1 hmem
    rw [get?_parameterMap_of_not_reserved (by simpa using hreserved)] at hget
    obtain ⟨d, hd, -⟩ := Option.map_eq_some_iff.1 hget
    rw [directive, hd]
    rfl
  · intro h
    have hreserved := hc.not_reserved (Option.isSome_of_eq_some h)
    have hget := get?_parameterMap_of_not_reserved (c := c) hreserved
    rw [h] at hget
    have hentry : (name, d.toText) ∈
        c.parameterMap.entries.filter fun e => !reservedKeys.contains e.1 := by
      rw [List.mem_filter]
      exact ⟨NameMap.mem_entries.2 hget, by simpa using hreserved⟩
    refine List.mem_map.2 ⟨(name, d.toText), hentry, ?_⟩
    rw [directive, h]
    rfl

theorem nodup_mapRulesOf (c : Config) : (c.mapRulesOf.map Prod.fst).Nodup := by
  rw [mapRulesOf, List.map_map]
  exact List.Nodup.sublist (List.filter_sublist.map _) c.parameterMap.keys_nodup

theorem directives_mapSettings (hc : c.IsSettled) : c.mapSettings.directives = c.directives := by
  show c.mapRulesOf.foldl Settings.addRule .empty = c.directives
  apply NameMap.ext_get?
  intro name
  apply Option.ext
  intro d
  rw [Settings.get?_foldl_addRule_empty c.nodup_mapRulesOf, mem_mapRulesOf hc]

/-- What a parameter map keeps of a configuration: everything but the source of the parameters,
which is their text now, and the layout of results. -/
def retold (c : Config) : Config :=
  { c with source := .ofText c.parameters.toText, resultLayout := .batchByClass }

@[simp] theorem directive_retold (c : Config) (name : String) :
    c.retold.directive name = c.directive name := by
  simp only [directive, retold]

/-- The parameter map of a settled configuration stands for it, whatever files there are. -/
theorem ofParameterMap_parameterMap (hc : c.IsSettled) (hscale : c.parameters.scale.IsReproduced)
    (files : FileSystem) : ofParameterMap files c.parameterMap = .ok c.retold := by
  have hload := EncryptionParameters.load_toText hc.parameters hscale files
  have hnames : ∀ name ∈ c.mapRulesOf.map Prod.fst, Settings.nameError? name = none := by
    intro name hname
    obtain ⟨⟨name, d⟩, he, rfl⟩ := List.mem_map.1 hname
    have hget : c.directives.get? name = some d := (mem_mapRulesOf hc).1 he
    exact hc.names name (NameMap.mem_keys.2 (Option.isSome_of_eq_some hget))
  have hpacking : (c.complexPacking || c.parameters.complexPacking) = c.complexPacking := by
    cases hcomplex : c.parameters.complexPacking with
    | false => rw [Bool.or_false]
    | true => rw [hc.packing hcomplex, Bool.or_true]
  simp only [ofParameterMap, settingsOfMap_parameterMap, bind, Except.bind]
  rw [Settings.build_eq_ok]
  refine ⟨hc.exclusive, hnames, ?_⟩
  rw [directives_mapSettings hc]
  simp only [mapSettings, retold]
  exact ⟨c.parameters, hload, by rw [hpacking, Settings.initial]⟩

/-! ## Configurations from anywhere -/

theorem isSettled_of_ofParameterMap {files : FileSystem} {m : NameMap String} {c : Config}
    (h : ofParameterMap files m = .ok c) : c.IsSettled := by
  simp only [ofParameterMap, bind, Except.bind] at h
  cases hsettings : settingsOfMap m with
  | error e =>
    rw [hsettings] at h
    cases h
  | ok s =>
    rw [hsettings] at h
    exact isSettled_of_build h

/-- Whatever settings or parameter map a configuration comes from, its parameter map stands for
it: it is read without any file, as a configuration that differs at most in the layout of results,
which is the default one, and in the source of the parameters, which is their text.  That
configuration has the same parameter map. -/
theorem ofParameterMap_of_obtained {files : FileSystem} {c : Config}
    (h : (∃ s : Settings, s.build files = .ok c) ∨ ∃ m, ofParameterMap files m = .ok c)
    (hscale : c.parameters.scale.IsReproduced) :
    (∀ anyFiles, ofParameterMap anyFiles c.parameterMap =
      .ok { c with source := .inline c.parameters.toText, resultLayout := .batchByClass }) ∧
    parameterMap { c with source := .inline c.parameters.toText, resultLayout := .batchByClass } =
      c.parameterMap := by
  have hsettled : c.IsSettled := by
    rcases h with ⟨s, hbuild⟩ | ⟨m, hmap⟩
    · exact isSettled_of_build hbuild
    · exact isSettled_of_ofParameterMap hmap
  refine ⟨?_, rfl⟩
  intro anyFiles
  rw [ofParameterMap_parameterMap hsettled hscale anyFiles, retold,
    EncryptionParameters.source_toText]

end Config

/-! ## A configuration -/

/-- Settings with an input under a flag, rules for it and for another tensor, and the other
packing and layout. -/
def Settings.mixed : Settings :=
  initial.changes [.enableClient true, .input "x", .rule "y" .packed, .rule "x" .encrypt,
    .rule "y" .encrypt, .complexPacking true, .resultLayout .classByBatch]

/-- The configuration of these settings. -/
def Config.mixed : Config where
  backend := schemeName
  deviceId := ""
  source := .default
  parameters := .standard
  enableClient := true
  encryptServerData := false
  packData := false
  complexPacking := true
  resultLayout := .classByBatch
  directives := Settings.mixed.directives

theorem Settings.build_mixed (files : FileSystem) : mixed.build files = .ok .mixed := by
  have hload : EncryptionParameters.load files .default = .ok .standard := rfl
  refine build_eq_ok.2 ⟨rfl, ?_, .standard, hload, rfl⟩
  decide +kernel

theorem Config.ofParameterMap_mixed :
    ofParameterMap (fun _ => .error .notFound) mixed.parameterMap =
      .ok { mixed with
        source := .inline EncryptionParameters.standard.toText,
        resultLayout := .batchByClass } := by
  have hscale : mixed.parameters.scale.IsReproduced := by
    unfold Double.IsReproduced
    rfl
  have hbuild := Settings.build_mixed fun _ => .error .notFound
  exact (ofParameterMap_of_obtained (Or.inl ⟨_, hbuild⟩) hscale).1 _

end EncryptedInference
