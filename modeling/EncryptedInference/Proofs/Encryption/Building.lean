import EncryptedInference.Proofs.Encryption.Directives
import EncryptedInference.Proofs.Text.ByteOrder

/-!
# What building refuses

Building looks at the two flags that exclude each other, then at the names of the tensors, then at
the parameters, and stops at the first fault.  The first name that no tensor may have is described
by the calls alone (`FirstForbidden`): the least of the registered inputs, and if all of these are
fit to be names, that of the earliest rule.  `Settings.build_outcome` says which fault is reported,
and what holds of the configuration when there is none.
-/

namespace EncryptedInference

/-! ## Names -/

/-- No tensor may have the name. -/
def IsForbidden (name : String) : Prop := name = "" ∨ name ∈ reservedKeys

instance (name : String) : Decidable (IsForbidden name) :=
  inferInstanceAs (Decidable (name = "" ∨ name ∈ reservedKeys))

/-- What is reported of a name that no tensor may have. -/
def forbiddenError (name : String) : ConfigError :=
  if name = "" then .emptyTensorName else .reservedName name

theorem nameError?_of_isForbidden {name : String} (h : IsForbidden name) :
    Settings.nameError? name = some (forbiddenError name) := by
  unfold Settings.nameError? forbiddenError
  by_cases hempty : name = ""
  · simp [hempty]
  · have hreserved : name ∈ reservedKeys := h.resolve_left hempty
    simp [hempty, hreserved]

theorem nameError?_eq_none {name : String} :
    Settings.nameError? name = none ↔ ¬ IsForbidden name := by
  constructor
  · intro h hforbidden
    rw [nameError?_of_isForbidden hforbidden] at h
    cases h
  · intro h
    simp only [IsForbidden, not_or] at h
    simp [Settings.nameError?, h]

theorem isForbidden_of_nameError? {name : String} {e : ConfigError}
    (h : Settings.nameError? name = some e) : IsForbidden name ∧ e = forbiddenError name := by
  have hforbidden : IsForbidden name := by
    by_contra hname
    rw [nameError?_eq_none.2 hname] at h
    cases h
  rw [nameError?_of_isForbidden hforbidden] at h
  exact ⟨hforbidden, (Option.some.inj h).symm⟩

theorem SettingsChange.rule?_eq_some {c : SettingsChange} {name : String} {d : Directive} :
    c.rule? = some (name, d) ↔ c = .rule name d := by
  cases c <;> simp [rule?]

/-- The first name in the order of the check that no tensor may have.  The registered inputs are
looked at by the bytes of their names, and after them the rules as they were given. -/
inductive FirstForbidden (cs : List SettingsChange) (name : String) : Prop
  | input (hmem : .input name ∈ cs) (hforbidden : IsForbidden name)
      (hleast : ∀ other, .input other ∈ cs → IsForbidden other →
        ¬ bytesOfText other < bytesOfText name)
  | rule (before : List SettingsChange) (d : Directive) (after : List SettingsChange)
      (hcs : cs = before ++ .rule name d :: after) (hforbidden : IsForbidden name)
      (hinputs : ∀ other, .input other ∈ cs → ¬ IsForbidden other)
      (hbefore : ∀ other d, .rule other d ∈ before → ¬ IsForbidden other)

/-- The flags, as they were last set, exclude each other. -/
def FlagsClash (cs : List SettingsChange) : Prop :=
  lastValue? cs .enableClient = some true ∧ lastValue? cs .encryptServerData = some true

namespace Settings

variable {cs : List SettingsChange} {name : String}

/-! ## The first fault of a name -/

theorem mem_inputs_initial_changes :
    name ∈ (initial.changes cs).inputs.keys ↔ .input name ∈ cs := by
  have hinitial : name ∉ initial.inputs.keys := List.not_mem_nil
  rw [mem_inputs_changes, or_iff_right hinitial]

/-- Among the registered inputs the least one that is forbidden is found. -/
theorem findSome?_inputs {e : ConfigError} :
    (initial.changes cs).inputs.keys.findSome? nameError? = some e ↔
      ∃ name, .input name ∈ cs ∧ IsForbidden name ∧
        (∀ other, .input other ∈ cs → IsForbidden other →
          ¬ bytesOfText other < bytesOfText name) ∧ e = forbiddenError name := by
  have hsorted : (initial.changes cs).inputs.keys.Pairwise (· < ·) :=
    List.pairwise_map.2 (initial.changes cs).inputs.sorted
  have hmem (other : String) : other ∈ (initial.changes cs).inputs.keys ↔ .input other ∈ cs :=
    mem_inputs_initial_changes
  generalize (initial.changes cs).inputs.keys = keys at hsorted hmem ⊢
  simp only [← hmem, Text.bytesOfText_lt_iff]
  rw [List.findSome?_eq_some_iff]
  constructor
  · rintro ⟨before, name, after, rfl, hname, hbefore⟩
    obtain ⟨hforbidden, rfl⟩ := isForbidden_of_nameError? hname
    refine ⟨name, by simp, hforbidden, ?_, rfl⟩
    intro other hother hothers hlt
    rcases List.mem_append.1 hother with hother | hother
    · exact nameError?_eq_none.1 (hbefore other hother) hothers
    · have hrest := (List.pairwise_append.1 hsorted).2.1
      rcases List.mem_cons.1 hother with rfl | hother
      · exact String.lt_irrefl _ hlt
      · exact String.lt_irrefl _ (String.lt_trans hlt ((List.pairwise_cons.1 hrest).1 other hother))
  · rintro ⟨name, hname, hforbidden, hleast, rfl⟩
    obtain ⟨before, after, rfl⟩ := List.append_of_mem hname
    refine ⟨before, name, after, rfl, nameError?_of_isForbidden hforbidden, ?_⟩
    intro other hother
    have hlt : other < name :=
      (List.pairwise_append.1 hsorted).2.2 other hother name List.mem_cons_self
    exact nameError?_eq_none.2 fun hothers =>
      hleast other (List.mem_append_left _ hother) hothers hlt

/-- Among the rules the earliest one with a forbidden name is found. -/
theorem findSome?_rules {e : ConfigError} :
    ((initial.changes cs).rules.map Prod.fst).findSome? nameError? = some e ↔
      ∃ before name d after, cs = before ++ .rule name d :: after ∧ IsForbidden name ∧
        (∀ other d, .rule other d ∈ before → ¬ IsForbidden other) ∧ e = forbiddenError name := by
  have hrules : (initial.changes cs).rules = cs.filterMap SettingsChange.rule? :=
    rules_changes initial cs
  rw [hrules, ← List.head?_filterMap, List.filterMap_map, List.filterMap_filterMap,
    List.head?_filterMap, List.findSome?_eq_some_iff]
  constructor
  · rintro ⟨before, c, after, rfl, hc, hbefore⟩
    obtain ⟨⟨name, d⟩, hrule, hname⟩ := Option.bind_eq_some_iff.1 hc
    obtain rfl := SettingsChange.rule?_eq_some.1 hrule
    obtain ⟨hforbidden, rfl⟩ := isForbidden_of_nameError? hname
    refine ⟨before, name, d, after, rfl, hforbidden, ?_, rfl⟩
    intro other d' hother
    exact nameError?_eq_none.1 (hbefore _ hother)
  · rintro ⟨before, name, d, after, rfl, hforbidden, hbefore, rfl⟩
    refine ⟨before, .rule name d, after, rfl, nameError?_of_isForbidden hforbidden, ?_⟩
    intro c hc
    cases hrule : c.rule? with
    | none => rfl
    | some rule =>
      obtain rfl := SettingsChange.rule?_eq_some.1 hrule
      exact nameError?_eq_none.2 (hbefore _ _ hc)

/-- The check of the names finds the first that is forbidden. -/
theorem findSome?_names {e : ConfigError} :
    (initial.changes cs).names.findSome? nameError? = some e ↔
      ∃ name, FirstForbidden cs name ∧ e = forbiddenError name := by
  rw [names, List.findSome?_append, Option.or_eq_some_iff, findSome?_inputs, findSome?_rules]
  constructor
  · rintro (⟨name, hmem, hforbidden, hleast, rfl⟩ | ⟨hnone, before, name, d, after, rfl, h⟩)
    · exact ⟨name, .input hmem hforbidden hleast, rfl⟩
    · obtain ⟨hforbidden, hbefore, rfl⟩ := h
      refine ⟨name, .rule before d after rfl hforbidden ?_ hbefore, rfl⟩
      intro other hother
      exact nameError?_eq_none.1
        (List.findSome?_eq_none_iff.1 hnone other (mem_inputs_initial_changes.2 hother))
  · rintro ⟨name, hfirst, rfl⟩
    cases hfirst with
    | input hmem hforbidden hleast => exact Or.inl ⟨name, hmem, hforbidden, hleast, rfl⟩
    | rule before d after hcs hforbidden hinputs hbefore =>
      refine Or.inr ⟨?_, before, name, d, after, hcs, hforbidden, hbefore, rfl⟩
      rw [List.findSome?_eq_none_iff]
      intro other hother
      exact nameError?_eq_none.2 (hinputs other (mem_inputs_initial_changes.1 hother))

/-- A name is the first that is forbidden as soon as one that is mentioned is forbidden. -/
theorem exists_firstForbidden : (∃ name, FirstForbidden cs name) ↔
    ∃ name, IsForbidden name ∧ (.input name ∈ cs ∨ ∃ d, .rule name d ∈ cs) := by
  constructor
  · rintro ⟨name, hfirst⟩
    cases hfirst with
    | input hmem hforbidden _ => exact ⟨name, hforbidden, Or.inl hmem⟩
    | rule before d after hcs hforbidden _ _ =>
      exact ⟨name, hforbidden, Or.inr ⟨d, by simp [hcs]⟩⟩
  · rintro ⟨name, hforbidden, hmentioned⟩
    have hname : name ∈ (initial.changes cs).names := (mem_names_changes cs name).2 hmentioned
    cases hfind : (initial.changes cs).names.findSome? nameError? with
    | some e =>
      obtain ⟨first, hfirst, -⟩ := findSome?_names.1 hfind
      exact ⟨first, hfirst⟩
    | none =>
      have hnone := List.findSome?_eq_none_iff.1 hfind name hname
      exact absurd hforbidden (nameError?_eq_none.1 hnone)

/-! ## All faults -/

theorem flagsClash_iff (cs : List SettingsChange) :
    ((initial.changes cs).enableClient && (initial.changes cs).encryptServerData) = true ↔
      FlagsClash cs := by
  rw [Bool.and_eq_true]
  exact and_congr (isOn_iff (value_changes initial cs .enableClient))
    (isOn_iff (value_changes initial cs .encryptServerData))

theorem nameError?_of_no_firstForbidden (hnone : ∀ name, ¬ FirstForbidden cs name) :
    ∀ name ∈ (initial.changes cs).names, nameError? name = none := by
  intro name hname
  rw [nameError?_eq_none]
  intro hforbidden
  obtain ⟨first, hfirst⟩ :=
    exists_firstForbidden.2 ⟨name, hforbidden, (mem_names_changes cs name).1 hname⟩
  exact hnone first hfirst

section

variable {files : FileSystem}

theorem build_of_clash (h : FlagsClash cs) :
    (initial.changes cs).build files = .error .conflictingDirectives := by
  rw [build, if_pos ((flagsClash_iff cs).2 h)]

theorem build_of_firstForbidden (hclash : ¬ FlagsClash cs) (h : FirstForbidden cs name) :
    (initial.changes cs).build files = .error (forbiddenError name) := by
  rw [build, if_neg (mt (flagsClash_iff cs).1 hclash), findSome?_names.2 ⟨name, h, rfl⟩]

variable (hclash : ¬ FlagsClash cs) (hnone : ∀ name, ¬ FirstForbidden cs name)

include hclash hnone

theorem build_of_load_error {e : ParameterError}
    (h : EncryptionParameters.load files ((lastValue? cs .source).getD .default) = .error e) :
    (initial.changes cs).build files = .error (.parameters e) := by
  have hsource : (initial.changes cs).source = (lastValue? cs .source).getD .default :=
    value_changes initial cs .source
  have hnames := List.findSome?_eq_none_iff.2 (nameError?_of_no_firstForbidden hnone)
  rw [build, if_neg (mt (flagsClash_iff cs).1 hclash), hnames, hsource, h]

theorem exists_build_of_load_ok {p : EncryptionParameters}
    (h : EncryptionParameters.load files ((lastValue? cs .source).getD .default) = .ok p) :
    ∃ c, (initial.changes cs).build files = .ok c ∧ c.parameters = p ∧
      c.complexPacking = ((lastValue? cs .complexPacking).getD false || p.complexPacking) := by
  have hsource : (initial.changes cs).source = (lastValue? cs .source).getD .default :=
    value_changes initial cs .source
  have hpacking : (initial.changes cs).complexPacking =
      (lastValue? cs .complexPacking).getD false :=
    value_changes initial cs .complexPacking
  have hflags := Bool.eq_false_iff.2 (mt (flagsClash_iff cs).1 hclash)
  have hnames := nameError?_of_no_firstForbidden hnone
  refine ⟨_, build_eq_ok.2 ⟨hflags, hnames, p, hsource ▸ h, rfl⟩, rfl, ?_⟩
  rw [hpacking]

end

/-- Building reports the flags if they exclude each other, whatever names and files there are.
Otherwise it reports the first name that no tensor may have, and there is one as soon as such a name
is mentioned.  Otherwise it reports why the source that was set last gives no parameters, if it
gives none.  Otherwise it gives a configuration with these parameters, which are valid. -/
theorem build_outcome (cs : List SettingsChange) (files : FileSystem) :
    let built := (initial.changes cs).build files
    let loaded := EncryptionParameters.load files ((lastValue? cs .source).getD .default)
    (built = .error .conflictingDirectives ↔ FlagsClash cs) ∧
    ((∃ name, FirstForbidden cs name) ↔
      ∃ name, IsForbidden name ∧ (.input name ∈ cs ∨ ∃ d, .rule name d ∈ cs)) ∧
    (¬ FlagsClash cs →
      (∀ name, FirstForbidden cs name → built = .error (forbiddenError name)) ∧
      ((∀ name, ¬ FirstForbidden cs name) →
        (∀ e, built = .error (.parameters e) ↔ loaded = .error e) ∧
        ∀ p, loaded = .ok p → ∃ c, built = .ok c ∧ c.parameters = p ∧ p.validate = .ok () ∧
          (∀ name ∈ c.directives.keys, ¬ IsForbidden name) ∧
          c.complexPacking =
            ((lastValue? cs .complexPacking).getD false || p.complexPacking))) := by
  intro built loaded
  refine ⟨⟨?_, build_of_clash⟩, exists_firstForbidden, ?_⟩
  · intro h
    by_contra hclash
    by_cases hfirst : ∃ name, FirstForbidden cs name
    · obtain ⟨name, hfirst⟩ := hfirst
      have herror := h.symm.trans (build_of_firstForbidden hclash hfirst)
      unfold forbiddenError at herror
      split_ifs at herror <;> cases herror
    · rw [not_exists] at hfirst
      cases hload : loaded with
      | error e => cases h.symm.trans (build_of_load_error hclash hfirst hload)
      | ok p =>
        obtain ⟨c, hbuild, -⟩ := exists_build_of_load_ok hclash hfirst hload
        cases h.symm.trans hbuild
  · intro hclash
    refine ⟨fun name hfirst => build_of_firstForbidden hclash hfirst, ?_⟩
    intro hnone
    refine ⟨?_, ?_⟩
    · intro e
      refine ⟨?_, build_of_load_error hclash hnone⟩
      intro h
      cases hload : loaded with
      | error e' =>
        cases h.symm.trans (build_of_load_error hclash hnone hload)
        rfl
      | ok p =>
        obtain ⟨c, hbuild, -⟩ := exists_build_of_load_ok hclash hnone hload
        cases h.symm.trans hbuild
    · intro p hload
      obtain ⟨c, hbuild, rfl, hpacking⟩ := exists_build_of_load_ok hclash hnone hload
      have hsettled := Config.isSettled_of_build hbuild
      exact ⟨c, hbuild, rfl, EncryptionParameters.validate_eq_ok.2 hsettled.parameters,
        fun name hname => nameError?_eq_none.1 (hsettled.names name hname), hpacking⟩

/-- Calls with three names that no tensor may have, the first in a rule, and with a flag that is
taken back. -/
def crowded : List SettingsChange :=
  [.rule "pack_data" .packed, .input "x", .enableClient true, .input "device_id",
    .encryptServerData true, .input "backend", .encryptServerData false]

/-- Of the names that are in the way the least input is reported, and no name at all once the flag
is set again; a source without a file is reported when the names are fit. -/
theorem build_outcome_crowded :
    (initial.changes crowded).build (fun _ => .error .notFound) =
        .error (.reservedName "backend") ∧
      (initial.changes (crowded ++ [.encryptServerData true])).build (fun _ => .error .notFound) =
        .error .conflictingDirectives ∧
      (initial.changes [.input "x", .source (.file "p.json")]).build (fun _ => .error .notFound) =
        .error (.parameters (.missing "p.json")) := by
  refine ⟨?_, ?_, ?_⟩
  · obtain ⟨-, -, hnames⟩ := build_outcome crowded fun _ => .error .notFound
    have hclash : ¬ FlagsClash crowded := fun h => nomatch h.2
    have hfirst : FirstForbidden crowded "backend" := by
      refine .input (by simp [crowded]) (Or.inr (by decide)) ?_
      intro other hother hforbidden
      have hmem : other = "x" ∨ other = "device_id" ∨ other = "backend" := by
        simpa [crowded] using hother
      rw [Text.bytesOfText_lt_iff]
      rcases hmem with rfl | rfl | rfl <;> decide
    exact (hnames hclash).1 "backend" hfirst
  · obtain ⟨hconflict, -⟩ :=
      build_outcome (crowded ++ [.encryptServerData true]) fun _ => .error .notFound
    exact hconflict.2 ⟨rfl, rfl⟩
  · obtain ⟨-, hexists, hrest⟩ :=
      build_outcome [.input "x", .source (.file "p.json")] fun _ => .error .notFound
    have hnone : ∀ name, ¬ FirstForbidden [.input "x", .source (.file "p.json")] name := by
      rw [← not_exists, hexists]
      rintro ⟨name, hforbidden, hmentioned⟩
      obtain rfl : name = "x" := by simpa using hmentioned
      exact absurd hforbidden (by decide)
    exact (((hrest fun h => nomatch h.1).2 hnone).1 _).2 rfl

end Settings

end EncryptedInference
