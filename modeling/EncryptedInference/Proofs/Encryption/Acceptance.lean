import EncryptedInference.Proofs.Encryption.Building
import EncryptedInference.Proofs.Outcomes
import EncryptedInference.Proofs.Text.Spelling
import Mathlib.Data.Set.List

/-!
# Which parameter maps are accepted

A parameter map comes from elsewhere and may hold anything.  It is read as settings that say what
its entries say (`Config.Tells`), the tensors by a rule each, and these settings are built.  So it
is accepted just when every entry is in order (`Config.IsReadable`), and then the tensors have the
directives that are written there: `Config.ofParameterMap_isOk_iff`.
-/

namespace EncryptedInference

/-! ## Flags -/

theorem mem_flagSpellings {text : String} {on : Bool} :
    (Text.fold text, on) ∈ flagSpellings ↔
      ∃ word, (word, on) ∈ flagSpellings ∧ Text.Spells text word := by
  have hwords : ∀ e ∈ flagSpellings, ∀ c ∈ e.1.toList, Text.isBlank c = false := by
    have hany : ∀ e ∈ flagSpellings, e.1.toList.any Text.isBlank = false := by decide
    intro e he c hc
    simpa using List.any_eq_false.1 (hany e he) c hc
  constructor
  · intro h
    exact ⟨_, h, (Text.fold_eq_iff (hwords _ h)).1 rfl⟩
  · rintro ⟨word, hword, hspells⟩
    rwa [(Text.fold_eq_iff (hwords _ hword)).2 hspells]

/-- A flag is given by a word for its value, in any case and with white space around it. -/
theorem parseFlag_eq_ok {name text : String} {on : Bool} : parseFlag name text = .ok on ↔
    ∃ word, (word, on) ∈ flagSpellings ∧ Text.Spells text word := by
  have hlookup : flagSpellings.lookup (Text.fold text) = some on ↔
      (Text.fold text, on) ∈ flagSpellings := by
    constructor
    · intro h
      obtain ⟨before, after, heq, -⟩ := List.lookup_eq_some_iff.1 h
      rw [heq]
      simp
    · exact lookup_eq_some_of_mem (by decide)
  rw [← mem_flagSpellings, ← hlookup]
  unfold parseFlag lookupSpelling
  cases flagSpellings.lookup (Text.fold text) <;> simp

namespace Config

variable {files : FileSystem} {m : NameMap String} {s : Settings} {c : Config}

/-- The entry of a key is a word for the truth value. -/
def HoldsFlag (m : NameMap String) (key : String) (on : Bool) : Prop :=
  ∃ text, m.get? key = some text ∧
    ∃ word, (word, on) ∈ flagSpellings ∧ Text.Spells text word

theorem HoldsFlag.unique {key : String} {on on' : Bool} (h : HoldsFlag m key on)
    (h' : HoldsFlag m key on') : on = on' := by
  obtain ⟨text, hget, hword⟩ := h
  obtain ⟨text', hget', hword'⟩ := h'
  obtain rfl := Option.some.inj (hget.symm.trans hget')
  have hparse : parseFlag key text = .ok on := parseFlag_eq_ok.2 hword
  have hparse' : parseFlag key text = .ok on' := parseFlag_eq_ok.2 hword'
  exact Except.ok.inj (hparse.symm.trans hparse')

/-! ## Settings in a map -/

/-- The settings say what the entries of the map say. -/
structure Tells (m : NameMap String) (s : Settings) : Prop where
  backend : m.get? "backend" = some s.backend
  deviceId : m.get? "device_id" = some s.deviceId
  source : ∃ text, m.get? "encryption_parameters" = some text ∧ s.source = .ofText text
  enableClient : HoldsFlag m "enable_client" s.enableClient
  encryptServerData : HoldsFlag m "encrypt_server_data" s.encryptServerData
  complexPacking : HoldsFlag m "complex_packing" s.complexPacking
  packData : HoldsFlag m "pack_data" s.packData
  resultLayout : s.resultLayout = .batchByClass
  inputs : s.inputs = .empty
  rules : mapRules m.entries = .ok s.rules

/-- An entry that has to be there. -/
theorem entry_eq_ok {entry : Option String} {key value : String} :
    (match entry with
      | some value => Except.ok value
      | none => .error (ConfigError.missingKey key)) = .ok value ↔ entry = some value := by
  cases entry <;> simp

theorem flag_eq_ok {key : String} {on : Bool} :
    Except.bind (match m.get? key with
      | some value => Except.ok value
      | none => .error (ConfigError.missingKey key)) (parseFlag key) = .ok on ↔
    HoldsFlag m key on := by
  unfold HoldsFlag
  cases m.get? key with
  | none => simp [Except.bind]
  | some text => simp [Except.bind, parseFlag_eq_ok]

theorem settingsOfMap_eq_ok : settingsOfMap m = .ok s ↔ Tells m s := by
  constructor
  · intro h
    unfold settingsOfMap at h
    dsimp only at h
    obtain ⟨backend, hbackend, h⟩ := exists_of_bind_eq_ok h
    obtain ⟨deviceId, hdevice, h⟩ := exists_of_bind_eq_ok h
    obtain ⟨text, htext, h⟩ := exists_of_bind_eq_ok h
    obtain ⟨client, hclient, h⟩ := exists_of_bind_eq_ok h
    obtain ⟨server, hserver, h⟩ := exists_of_bind_eq_ok h
    obtain ⟨complex, hcomplex, h⟩ := exists_of_bind_eq_ok h
    obtain ⟨pack, hpack, h⟩ := exists_of_bind_eq_ok h
    obtain ⟨rules, hrules, h⟩ := exists_of_bind_eq_ok h
    obtain rfl := Except.ok.inj h
    exact ⟨entry_eq_ok.1 hbackend, entry_eq_ok.1 hdevice,
      ⟨text, entry_eq_ok.1 htext, by dsimp only⟩, flag_eq_ok.1 hclient, flag_eq_ok.1 hserver,
      flag_eq_ok.1 hcomplex, flag_eq_ok.1 hpack, rfl, rfl, hrules⟩
  · rintro ⟨hbackend, hdevice, ⟨text, htext, hsource⟩, hclient, hserver, hcomplex, hpack,
      hlayout, hinputs, hrules⟩
    refine bind_eq_ok_iff.2 ⟨_, entry_eq_ok.2 hbackend, ?_⟩
    refine bind_eq_ok_iff.2 ⟨_, entry_eq_ok.2 hdevice, ?_⟩
    refine bind_eq_ok_iff.2 ⟨_, entry_eq_ok.2 htext, ?_⟩
    refine bind_eq_ok_iff.2 ⟨_, flag_eq_ok.2 hclient, ?_⟩
    refine bind_eq_ok_iff.2 ⟨_, flag_eq_ok.2 hserver, ?_⟩
    refine bind_eq_ok_iff.2 ⟨_, flag_eq_ok.2 hcomplex, ?_⟩
    refine bind_eq_ok_iff.2 ⟨_, flag_eq_ok.2 hpack, ?_⟩
    refine bind_eq_ok_iff.2 ⟨_, hrules, ?_⟩
    rw [← hsource]
    obtain ⟨_, _, _, _, _, _, _, _, _, _⟩ := s
    cases hlayout
    cases hinputs
    rfl

/-! ## Tensors in a map -/

/-- Entries whose keys are not reserved are rules if each names a directive. -/
theorem exists_mapRules {l : List (String × String)}
    (h : ∀ e ∈ l, e.1 ∉ reservedKeys → ∃ d : Directive, e.2 = d.toText) :
    ∃ rules, mapRules l = .ok rules := by
  have hrange : l.filter (fun e => !reservedKeys.contains e.1) ∈
      Set.range (List.map fun rule : String × Directive => (rule.1, rule.2.toText)) := by
    rw [Set.range_list_map]
    intro e he
    obtain ⟨hmem, hreserved⟩ := List.mem_filter.1 he
    obtain ⟨d, hd⟩ := h e hmem (by simpa using hreserved)
    exact ⟨(e.1, d), Prod.ext rfl hd.symm⟩
  obtain ⟨rules, hrules⟩ := hrange
  exact ⟨rules, mapRules_eq_ok.2 hrules.symm⟩

section

variable {rules : List (String × Directive)} (h : mapRules m.entries = .ok rules)

include h

theorem mem_mapRules {name : String} {d : Directive} :
    (name, d) ∈ rules ↔ name ∉ reservedKeys ∧ m.get? name = some d.toText := by
  have hinjective : Function.Injective fun rule : String × Directive =>
      (rule.1, rule.2.toText) := by
    rintro ⟨name, d⟩ ⟨name', d'⟩ heq
    obtain ⟨hname, htext⟩ := Prod.mk.inj heq
    exact Prod.ext hname (Directive.toText_injective htext)
  rw [← List.mem_map_of_injective hinjective, ← mapRules_eq_ok.1 h, List.mem_filter,
    NameMap.mem_entries, and_comm]
  simp

theorem nodup_mapRules : (rules.map Prod.fst).Nodup := by
  have hkeys : rules.map Prod.fst =
      (m.entries.filter fun e => !reservedKeys.contains e.1).map Prod.fst := by
    rw [mapRules_eq_ok.1 h, List.map_map]
    rfl
  rw [hkeys]
  exact List.Nodup.sublist (List.filter_sublist.map _) m.keys_nodup

/-- Every entry for a tensor names a directive. -/
theorem exists_directive_of_mapRules {name value : String} (hget : m.get? name = some value)
    (hname : name ∉ reservedKeys) : ∃ d : Directive, value = d.toText := by
  have hmem : (name, value) ∈ m.entries.filter fun e => !reservedKeys.contains e.1 := by
    rw [List.mem_filter, NameMap.mem_entries]
    exact ⟨hget, by simpa using hname⟩
  rw [mapRules_eq_ok.1 h] at hmem
  obtain ⟨⟨name', d⟩, -, heq⟩ := List.mem_map.1 hmem
  exact ⟨d, (Prod.mk.inj heq).2.symm⟩

end

/-- The tensors that settings in a map mention are those of its other entries. -/
theorem Tells.mem_names (hs : Tells m s) {name : String} :
    name ∈ s.names ↔ name ∉ reservedKeys ∧ ∃ d : Directive, m.get? name = some d.toText := by
  have hinputs : s.inputs.keys = [] := by
    rw [hs.inputs]
    rfl
  rw [Settings.names, hinputs, List.nil_append, List.mem_map]
  constructor
  · rintro ⟨⟨name, d⟩, hrule, rfl⟩
    obtain ⟨hname, hget⟩ := (mem_mapRules hs.rules).1 hrule
    exact ⟨hname, d, hget⟩
  · rintro ⟨hname, d, hget⟩
    exact ⟨(name, d), (mem_mapRules hs.rules).2 ⟨hname, hget⟩, rfl⟩

theorem Tells.get?_directives (hs : Tells m s) {name : String} {d : Directive} :
    s.directives.get? name = some d ↔ name ∉ reservedKeys ∧ m.get? name = some d.toText := by
  have hinputs : s.inputs.mapValues (fun _ _ => s.globalDirective) = .empty := by
    rw [hs.inputs]
    rfl
  rw [Settings.directives, hinputs,
    Settings.get?_foldl_addRule_empty (nodup_mapRules hs.rules), mem_mapRules hs.rules]

/-! ## Acceptance -/

/-- Every entry of the map is in order. -/
structure IsReadable (files : FileSystem) (m : NameMap String) : Prop where
  keys : ∀ key ∈ reservedKeys, m.contains key = true
  flags : ∀ key ∈ ["enable_client", "encrypt_server_data", "complex_packing", "pack_data"],
    ∃ on, HoldsFlag m key on
  exclusive : ¬ (HoldsFlag m "enable_client" true ∧ HoldsFlag m "encrypt_server_data" true)
  tensors : ∀ name value, m.get? name = some value → name ∉ reservedKeys →
    name ≠ "" ∧ value ∈ ["plain", "packed", "encrypt", "client_input"]
  source : ∃ text p, m.get? "encryption_parameters" = some text ∧
    EncryptionParameters.load files (.ofText text) = .ok p

theorem mem_directiveTexts {value : String} :
    value ∈ ["plain", "packed", "encrypt", "client_input"] ↔ ∃ d : Directive, value = d.toText := by
  constructor
  · intro h
    simp only [List.mem_cons, List.not_mem_nil, or_false] at h
    rcases h with rfl | rfl | rfl | rfl
    · exact ⟨.plain, rfl⟩
    · exact ⟨.packed, rfl⟩
    · exact ⟨.encrypt, rfl⟩
    · exact ⟨.clientInput, rfl⟩
  · rintro ⟨d, rfl⟩
    cases d <;> simp [Directive.toText]

/-- The settings in a map can be built just when the map is in order. -/
theorem Tells.isReadable (hs : Tells m s) (h : s.build files = .ok c) : IsReadable files m where
  keys := by
    obtain ⟨text, htext, -⟩ := hs.source
    obtain ⟨_, hclient, -⟩ := hs.enableClient
    obtain ⟨_, hserver, -⟩ := hs.encryptServerData
    obtain ⟨_, hcomplex, -⟩ := hs.complexPacking
    obtain ⟨_, hpack, -⟩ := hs.packData
    simp [reservedKeys, NameMap.contains, hs.backend, hs.deviceId, htext, hclient, hserver,
      hcomplex, hpack]
  flags := by
    simp only [List.forall_mem_cons]
    exact ⟨⟨_, hs.enableClient⟩, ⟨_, hs.encryptServerData⟩, ⟨_, hs.complexPacking⟩,
      ⟨_, hs.packData⟩, List.forall_mem_nil _⟩
  exclusive := by
    obtain ⟨hflags, -⟩ := Settings.build_eq_ok.1 h
    rintro ⟨hclient, hserver⟩
    rw [hs.enableClient.unique hclient, hs.encryptServerData.unique hserver] at hflags
    cases hflags
  tensors name value hget hname := by
    obtain ⟨-, hnames, -⟩ := Settings.build_eq_ok.1 h
    obtain ⟨d, rfl⟩ := exists_directive_of_mapRules hs.rules hget hname
    have hforbidden := nameError?_eq_none.1 (hnames name (hs.mem_names.2 ⟨hname, d, hget⟩))
    exact ⟨fun hempty => hforbidden (Or.inl hempty), mem_directiveTexts.2 ⟨d, rfl⟩⟩
  source := by
    obtain ⟨-, -, p, hload, -⟩ := Settings.build_eq_ok.1 h
    obtain ⟨text, htext, hsource⟩ := hs.source
    exact ⟨text, p, htext, hsource ▸ hload⟩

theorem IsReadable.exists_tells (h : IsReadable files m) : ∃ s, Tells m s := by
  have hkey : ∀ key ∈ reservedKeys, ∃ value, m.get? key = some value := fun key hkey =>
    Option.isSome_iff_exists.1 (h.keys key hkey)
  obtain ⟨backend, hbackend⟩ := hkey "backend" (by decide)
  obtain ⟨deviceId, hdevice⟩ := hkey "device_id" (by decide)
  obtain ⟨text, -, htext, -⟩ := h.source
  obtain ⟨client, hclient⟩ := h.flags "enable_client" (by simp)
  obtain ⟨server, hserver⟩ := h.flags "encrypt_server_data" (by simp)
  obtain ⟨complex, hcomplex⟩ := h.flags "complex_packing" (by simp)
  obtain ⟨pack, hpack⟩ := h.flags "pack_data" (by simp)
  obtain ⟨rules, hrules⟩ := exists_mapRules (l := m.entries) fun e he hname =>
    mem_directiveTexts.1 (h.tensors e.1 e.2 (NameMap.mem_entries.1 he) hname).2
  exact ⟨⟨backend, deviceId, .ofText text, client, server, pack, complex, .batchByClass, .empty,
    rules⟩, hbackend, hdevice, ⟨text, htext, by dsimp only⟩, hclient, hserver, hcomplex, hpack, rfl,
    rfl, hrules⟩

theorem IsReadable.exists_build (h : IsReadable files m) (hs : Tells m s) :
    ∃ c, s.build files = .ok c := by
  obtain ⟨text, p, htext, hload⟩ := h.source
  obtain ⟨text', htext', hsource⟩ := hs.source
  obtain rfl := Option.some.inj (htext.symm.trans htext')
  refine ⟨_, Settings.build_eq_ok.2 ⟨?_, ?_, p, hsource ▸ hload, rfl⟩⟩
  · rw [Bool.eq_false_iff, Ne, Bool.and_eq_true]
    rintro ⟨hclient, hserver⟩
    exact h.exclusive ⟨hclient ▸ hs.enableClient, hserver ▸ hs.encryptServerData⟩
  · intro name hmem
    obtain ⟨hname, d, hget⟩ := hs.mem_names.1 hmem
    rw [nameError?_eq_none]
    exact fun hforbidden =>
      hforbidden.elim (h.tensors name _ hget hname).1 hname

/-- Building settings complains of a reserved name only if a tensor has it. -/
theorem mem_names_of_reservedName {name : String}
    (h : s.build files = .error (.reservedName name)) : name ∈ s.names ∧ name ∈ reservedKeys := by
  unfold Settings.build at h
  split at h
  · cases h
  · split at h
    · rename_i e hfind
      obtain rfl := Except.error.inj h
      obtain ⟨other, hmem, hother⟩ := List.exists_of_findSome?_eq_some hfind
      obtain ⟨hforbidden, heq⟩ := isForbidden_of_nameError? hother
      unfold forbiddenError at heq
      split_ifs at heq with hempty
      obtain rfl := ConfigError.reservedName.inj heq
      exact ⟨hmem, hforbidden.resolve_left hempty⟩
    · split at h <;> cases h

theorem entry_ne_reservedName (entry : Option String) (key name : String) :
    (match entry with
      | some value => Except.ok value
      | none => .error (ConfigError.missingKey key)) ≠ .error (.reservedName name) := by
  cases entry <;> simp

theorem parseFlag_ne_reservedName (key text name : String) :
    parseFlag key text ≠ .error (.reservedName name) := by
  unfold parseFlag
  cases lookupSpelling flagSpellings text <;> simp

theorem mapRules_ne_reservedName (l : List (String × String)) (name : String) :
    mapRules l ≠ .error (.reservedName name) := by
  induction l with
  | nil => simp [mapRules]
  | cons e l ih =>
    rw [mapRules]
    split
    · exact ih
    · cases Directive.ofText? e.2 with
      | none => simp
      | some d => exact bind_ne_error ih fun rules => by simp [pure, Except.pure]

/-- Reading the settings never complains of a reserved name: reserved keys are read, and all others
are not reserved. -/
theorem settingsOfMap_ne_reservedName (m : NameMap String) (name : String) :
    settingsOfMap m ≠ .error (.reservedName name) := by
  have hflag (key : String) : Except.bind (match m.get? key with
      | some value => Except.ok value
      | none => .error (ConfigError.missingKey key)) (parseFlag key) ≠
        .error (.reservedName name) :=
    bind_ne_error (entry_ne_reservedName _ key name) fun text =>
      parseFlag_ne_reservedName key text name
  refine bind_ne_error (entry_ne_reservedName _ "backend" name) fun backend => ?_
  refine bind_ne_error (entry_ne_reservedName _ "device_id" name) fun deviceId => ?_
  refine bind_ne_error (entry_ne_reservedName _ "encryption_parameters" name) fun text => ?_
  refine bind_ne_error (hflag "enable_client") fun client => ?_
  refine bind_ne_error (hflag "encrypt_server_data") fun server => ?_
  refine bind_ne_error (hflag "complex_packing") fun complex => ?_
  refine bind_ne_error (hflag "pack_data") fun pack => ?_
  exact bind_ne_error (mapRules_ne_reservedName m.entries name) fun rules => nofun

/-- A parameter map is accepted just when each of its entries is in order.  Then the tensors that
are listed are those of its other entries, with the directives that are written there.  A reserved
key is never taken for the name of a tensor. -/
theorem ofParameterMap_isOk_iff (files : FileSystem) (m : NameMap String) :
    ((∃ c, ofParameterMap files m = .ok c) ↔ IsReadable files m) ∧
    (∀ c, ofParameterMap files m = .ok c → ∀ name d,
      c.directives.get? name = some d ↔ name ∉ reservedKeys ∧ m.get? name = some d.toText) ∧
    ∀ name, ofParameterMap files m ≠ .error (.reservedName name) := by
  refine ⟨⟨?_, ?_⟩, ?_, ?_⟩
  · rintro ⟨c, h⟩
    obtain ⟨s, hsettings, hbuild⟩ := exists_of_bind_eq_ok h
    exact (settingsOfMap_eq_ok.1 hsettings).isReadable hbuild
  · intro h
    obtain ⟨s, hs⟩ := h.exists_tells
    obtain ⟨c, hbuild⟩ := h.exists_build hs
    exact ⟨c, bind_eq_ok_iff.2 ⟨s, settingsOfMap_eq_ok.2 hs, hbuild⟩⟩
  · intro c h name d
    obtain ⟨s, hsettings, hbuild⟩ := exists_of_bind_eq_ok h
    rw [Settings.directives_of_build hbuild]
    exact (settingsOfMap_eq_ok.1 hsettings).get?_directives
  · intro name h
    rcases bind_eq_error_iff.1 h with hsettings | ⟨s, hsettings, hbuild⟩
    · exact settingsOfMap_ne_reservedName m name hsettings
    · obtain ⟨hmem, hreserved⟩ := mem_names_of_reservedName hbuild
      exact ((settingsOfMap_eq_ok.1 hsettings).mem_names.1 hmem).1 hreserved

/-- A parameter map with flags in unusual spellings, default parameters and one tensor. -/
def spelled : NameMap String :=
  .ofList [("backend", ""), ("complex_packing", "1"), ("device_id", "0"),
    ("enable_client", " YES\t"), ("encrypt_server_data", "oFF"), ("encryption_parameters", " "),
    ("pack_data", "n"), ("x", "encrypt")]

/-- The map is in order and gives its tensor the directive, which has to be spelled exactly. -/
theorem ofParameterMap_isOk_spelled :
    IsReadable (fun _ => .error .notFound) spelled ∧
      (∃ c, ofParameterMap (fun _ => .error .notFound) spelled = .ok c ∧
        c.directives.get? "x" = some .encrypt ∧ c.directives.get? "pack_data" = none) ∧
      ¬ ∃ c, ofParameterMap (fun _ => .error .notFound) (spelled.insert "y" "Encrypt") = .ok c := by
  obtain ⟨hreadable, hdirectives, -⟩ := ofParameterMap_isOk_iff (fun _ => .error .notFound) spelled
  have haccepted : ∃ c, ofParameterMap (fun _ => .error .notFound) spelled = .ok c := ⟨_, rfl⟩
  refine ⟨hreadable.1 haccepted, ?_, ?_⟩
  · obtain ⟨c, hc⟩ := haccepted
    refine ⟨c, hc, (hdirectives c hc "x" .encrypt).2 ⟨by decide, by decide⟩, ?_⟩
    rw [Option.eq_none_iff_forall_ne_some]
    intro d hd
    exact ((hdirectives c hc "pack_data" d).1 hd).1 (by decide)
  · rw [(ofParameterMap_isOk_iff _ _).1]
    intro h
    have hy := h.tensors "y" "Encrypt" ((NameMap.get?_insert ..).trans (if_pos rfl)) (by decide)
    exact absurd hy.2 (by decide)

end Config

end EncryptedInference
