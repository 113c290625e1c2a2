import EncryptedInference.Proofs.Encryption.ParameterMaps
import EncryptedInference.Proofs.Outcomes
import Mathlib.Data.List.Induction
import Mathlib.Order.Bounds.Basic

/-!
# Directives by precedence

Settings come about by changes, one after the other.  Of a setter only the last call counts
(`Settings.value_changes`), while inputs and rules gather (`Settings.mem_inputs_changes`,
`Settings.mem_rules_changes`).  The directive of a tensor is the greatest of those that it is given,
so that neither the order nor the number of the calls matters, but for the last of each setter:
`Settings.directive_of_build`.
-/

namespace EncryptedInference

namespace Directive

/-! ## Precedence -/

theorem rank_injective : Function.Injective rank := by
  intro a b h
  cases a <;> cases b <;> first | rfl | cases h

/-- A directive is less than the stronger ones. -/
instance : LinearOrder Directive := LinearOrder.lift' rank rank_injective

example : plain < packed ∧ packed < encrypt ∧ encrypt < clientInput := by decide

theorem strongest_eq_max (a b : Directive) : a.strongest b = max a b := by
  cases a <;> cases b <;> rfl

/-- The greatest of the directives that are given, if any is. -/
def IsStrongest (given : Set Directive) : Option Directive → Prop
  | none => given = ∅
  | some d => IsGreatest given d

theorem IsStrongest.unique {given : Set Directive} {d? d'? : Option Directive}
    (h : IsStrongest given d?) (h' : IsStrongest given d'?) : d? = d'? := by
  cases d? with
  | none =>
    obtain rfl : given = ∅ := h
    cases d'? with
    | none => rfl
    | some d' => cases h'.1
  | some d =>
    cases d'? with
    | none =>
      obtain rfl : given = ∅ := h'
      cases h.1
    | some d' => rw [IsGreatest.unique h h']

/-- One more directive. -/
theorem IsStrongest.insert {given : Set Directive} {d? : Option Directive}
    (h : IsStrongest given d?) (d : Directive) :
    IsStrongest (Insert.insert d given) (some ((d?.getD .plain).strongest d)) := by
  cases d? with
  | none =>
    obtain rfl : given = ∅ := h
    rw [Option.getD_none, Settings.plain_strongest, insert_empty_eq]
    exact isGreatest_singleton
  | some d' =>
    rw [Option.getD_some, strongest_eq_max, max_comm]
    exact IsGreatest.insert d h

end Directive

/-! ## Setters -/

/-- The settings that hold one value. -/
inductive Setter
  | backend
  | deviceId
  | source
  | enableClient
  | encryptServerData
  | packData
  | complexPacking
  | resultLayout

/-- What a setter takes. -/
abbrev Setter.Value : Setter → Type
  | backend | deviceId => String
  | source => ParameterSource
  | enableClient | encryptServerData | packData | complexPacking => Bool
  | resultLayout => ScoreLayout

/-- The value that a change gives to a setter, if it is a call of that setter. -/
def SettingsChange.value? : SettingsChange → (k : Setter) → Option k.Value
  | .backend value, .backend => some value
  | .deviceId value, .deviceId => some value
  | .source value, .source => some value
  | .enableClient value, .enableClient => some value
  | .encryptServerData value, .encryptServerData => some value
  | .packData value, .packData => some value
  | .complexPacking value, .complexPacking => some value
  | .resultLayout value, .resultLayout => some value
  | _, _ => none

/-- The value in the last call of a setter. -/
def lastValue? (cs : List SettingsChange) (k : Setter) : Option k.Value :=
  cs.reverse.findSome? fun c => c.value? k

theorem lastValue?_concat (cs : List SettingsChange) (c : SettingsChange) (k : Setter) :
    lastValue? (cs ++ [c]) k = (c.value? k).or (lastValue? cs k) := by
  rw [lastValue?, List.reverse_append, List.reverse_singleton, List.singleton_append,
    List.findSome?_cons]
  cases c.value? k <;> rfl

theorem lastValue?_append (cs cs' : List SettingsChange) (k : Setter) :
    lastValue? (cs ++ cs') k = (lastValue? cs' k).or (lastValue? cs k) := by
  rw [lastValue?, List.reverse_append, List.findSome?_append]
  rfl

theorem lastValue?_toList {α : Type} (x : Option α) (f : α → SettingsChange) (k : Setter) :
    lastValue? (x.toList.map f) k = x.bind fun v => (f v).value? k := by
  cases x with
  | none => rfl
  | some v => simp [lastValue?]

/-- The input that a change registers. -/
def SettingsChange.input? : SettingsChange → Option String
  | .input name => some name
  | _ => none

/-- The rule that a change gives. -/
def SettingsChange.rule? : SettingsChange → Option (String × Directive)
  | .rule name d => some (name, d)
  | _ => none

/-- The directive that the flags, as they were last set, give to the registered inputs. -/
def lastGlobal (cs : List SettingsChange) : Directive :=
  if lastValue? cs .enableClient = some true then .clientInput
  else if lastValue? cs .encryptServerData = some true then .encrypt
  else if lastValue? cs .packData = some true then .packed
  else .plain

/-- The directives that calls give to a tensor: by a rule, or by the flags if it is registered. -/
def givenBy (cs : List SettingsChange) (name : String) : Set Directive :=
  {d | .rule name d ∈ cs ∨ .input name ∈ cs ∧ d = lastGlobal cs}

/-- The same inputs are registered and the same rules are given, in whatever order and number. -/
structure SameMentions (cs cs' : List SettingsChange) : Prop where
  input : ∀ name, .input name ∈ cs ↔ .input name ∈ cs'
  rule : ∀ name d, .rule name d ∈ cs ↔ .rule name d ∈ cs'

namespace Settings

/-- What a setting holds. -/
def value (s : Settings) : (k : Setter) → k.Value
  | .backend => s.backend
  | .deviceId => s.deviceId
  | .source => s.source
  | .enableClient => s.enableClient
  | .encryptServerData => s.encryptServerData
  | .packData => s.packData
  | .complexPacking => s.complexPacking
  | .resultLayout => s.resultLayout

/-- Settings are the values that they hold, the inputs and the rules. -/
theorem eq_of_value {s s' : Settings} (hvalue : ∀ k, s.value k = s'.value k)
    (hinputs : s.inputs = s'.inputs) (hrules : s.rules = s'.rules) : s = s' := by
  have hbackend := hvalue .backend
  have hdevice := hvalue .deviceId
  have hsource := hvalue .source
  have hclient := hvalue .enableClient
  have hserver := hvalue .encryptServerData
  have hpack := hvalue .packData
  have hcomplex := hvalue .complexPacking
  have hlayout := hvalue .resultLayout
  cases s
  cases s'
  simp only [value] at *
  simp [*]

/-! ## One change -/

theorem value_change (s : Settings) (c : SettingsChange) (k : Setter) :
    (s.change c).value k = (c.value? k).getD (s.value k) := by
  cases k <;> cases c <;> rfl

theorem mem_inputs_change (s : Settings) (c : SettingsChange) (name : String) :
    name ∈ (s.change c).inputs.keys ↔ name ∈ s.inputs.keys ∨ c = .input name := by
  cases c with
  | input other =>
    rw [change, NameMap.mem_keys, NameMap.get?_insert, NameMap.mem_keys]
    by_cases hname : name = other
    · simp [hname]
    · simp [hname, Ne.symm hname]
  | _ => simp [change]

theorem mem_rules_change (s : Settings) (c : SettingsChange) (name : String) (d : Directive) :
    (name, d) ∈ (s.change c).rules ↔ (name, d) ∈ s.rules ∨ c = .rule name d := by
  cases c <;> simp [change, eq_comm]

/-! ## All changes -/

variable (s : Settings) (cs : List SettingsChange)

theorem changes_concat (c : SettingsChange) : s.changes (cs ++ [c]) = (s.changes cs).change c := by
  rw [changes, List.foldl_append]
  rfl

/-- A setting holds the value of its last call. -/
theorem value_changes (k : Setter) :
    (s.changes cs).value k = (lastValue? cs k).getD (s.value k) := by
  induction cs using List.reverseRecOn with
  | nil => rfl
  | append_singleton cs c ih =>
    rw [changes_concat, value_change, ih, lastValue?_concat]
    cases c.value? k <;> rfl

theorem inputs_changes : (s.changes cs).inputs =
    (cs.filterMap SettingsChange.input?).foldl (fun inputs name => inputs.insert name ())
      s.inputs := by
  induction cs using List.reverseRecOn with
  | nil => rfl
  | append_singleton cs c ih =>
    rw [changes_concat, List.filterMap_append, List.foldl_append, ← ih]
    cases c <;> rfl

theorem rules_changes : (s.changes cs).rules = s.rules ++ cs.filterMap SettingsChange.rule? := by
  induction cs using List.reverseRecOn with
  | nil => simp [changes]
  | append_singleton cs c ih =>
    rw [changes_concat, List.filterMap_append, ← List.append_assoc, ← ih]
    cases c <;> simp [change, SettingsChange.rule?]

theorem mem_inputs_changes (name : String) :
    name ∈ (s.changes cs).inputs.keys ↔ name ∈ s.inputs.keys ∨ .input name ∈ cs := by
  induction cs using List.reverseRecOn with
  | nil => simp [changes]
  | append_singleton cs c ih =>
    rw [changes_concat, mem_inputs_change, ih, List.mem_append, List.mem_singleton, or_assoc,
      eq_comm]

theorem mem_rules_changes (name : String) (d : Directive) :
    (name, d) ∈ (s.changes cs).rules ↔ (name, d) ∈ s.rules ∨ .rule name d ∈ cs := by
  induction cs using List.reverseRecOn with
  | nil => simp [changes]
  | append_singleton cs c ih =>
    rw [changes_concat, mem_rules_change, ih, List.mem_append, List.mem_singleton, or_assoc,
      eq_comm]

/-- A flag that is off at first is on if it was last set so. -/
theorem isOn_iff {on : Bool} {last : Option Bool} (h : on = last.getD false) :
    on = true ↔ last = some true := by
  rw [h]
  cases last <;> simp

theorem globalDirective_changes : (initial.changes cs).globalDirective = lastGlobal cs := by
  have hclient : (initial.changes cs).enableClient = true ↔ _ :=
    isOn_iff (value_changes initial cs .enableClient)
  have hserver : (initial.changes cs).encryptServerData = true ↔ _ :=
    isOn_iff (value_changes initial cs .encryptServerData)
  have hpack : (initial.changes cs).packData = true ↔ _ :=
    isOn_iff (value_changes initial cs .packData)
  simp only [globalDirective, lastGlobal, hclient, hserver, hpack]

/-! ## Directives -/

/-- Rules that are added for one tensor leave the strongest directive. -/
theorem isStrongest_foldl {given : Set Directive} {d? : Option Directive}
    (h : Directive.IsStrongest given d?) (rules : List (String × Directive)) :
    Directive.IsStrongest {d | d ∈ given ∨ d ∈ rules.map Prod.snd}
      (rules.foldl (fun d e => some ((d.getD .plain).strongest e.2)) d?) := by
  induction rules generalizing given d? with
  | nil => simpa using h
  | cons rule rules ih =>
    rw [List.foldl_cons]
    have hrest := ih (h.insert rule.2)
    have hgiven : {d | d ∈ Insert.insert rule.2 given ∨ d ∈ rules.map Prod.snd} =
        {d | d ∈ given ∨ d ∈ (rule :: rules).map Prod.snd} := by
      ext d
      simp only [Set.mem_ofPred_eq, Set.mem_insert_iff, List.map_cons, List.mem_cons]
      tauto
    rwa [hgiven] at hrest

/-- The directives that settings give to a tensor: by a rule, or by flags if it is registered. -/
def given (s : Settings) (name : String) : Set Directive :=
  {d | (name, d) ∈ s.rules ∨ name ∈ s.inputs.keys ∧ d = s.globalDirective}

/-- A tensor has the strongest directive that the settings give to it. -/
theorem isStrongest_directives (name : String) :
    Directive.IsStrongest (s.given name) (s.directives.get? name) := by
  rw [directives, get?_foldl_addRule, NameMap.get?_mapValues]
  have hinputs : Directive.IsStrongest {d | name ∈ s.inputs.keys ∧ d = s.globalDirective}
      ((s.inputs.get? name).map fun _ => s.globalDirective) := by
    rw [NameMap.mem_keys]
    cases s.inputs.get? name with
    | none => simp [Directive.IsStrongest]
    | some _ => simp [Directive.IsStrongest, isGreatest_singleton]
  have hgiven : s.given name = {d | d ∈ {d | name ∈ s.inputs.keys ∧ d = s.globalDirective} ∨
      d ∈ (s.rules.filter fun e => e.1 = name).map Prod.snd} := by
    ext d
    simp [given, or_comm]
  rw [hgiven]
  exact isStrongest_foldl hinputs _

theorem given_changes (name : String) : (initial.changes cs).given name = givenBy cs name := by
  ext d
  have hinputs : name ∉ initial.inputs.keys := List.not_mem_nil
  have hrules : (name, d) ∉ initial.rules := List.not_mem_nil
  simp only [given, givenBy, Set.mem_ofPred_eq, mem_rules_changes, mem_inputs_changes,
    globalDirective_changes, hinputs, hrules, false_or]

theorem mem_names_changes (name : String) :
    name ∈ (initial.changes cs).names ↔ .input name ∈ cs ∨ ∃ d, .rule name d ∈ cs := by
  have hinputs : name ∉ initial.inputs.keys := List.not_mem_nil
  have hrules : ∀ d, (name, d) ∉ initial.rules := fun _ => List.not_mem_nil
  simp only [names, List.mem_append, List.mem_map, Prod.exists, exists_eq_right,
    exists_and_right, mem_rules_changes, mem_inputs_changes, hinputs, hrules, false_or]

variable {cs} {cs' : List SettingsChange}

theorem lastGlobal_congr (hlast : ∀ k ∈ [Setter.enableClient, .encryptServerData, .packData],
    lastValue? cs k = lastValue? cs' k) : lastGlobal cs = lastGlobal cs' := by
  simp only [List.forall_mem_cons] at hlast
  obtain ⟨hclient, hserver, hpack, -⟩ := hlast
  simp only [lastGlobal, hclient, hserver, hpack]

/-- Neither order nor number of the mentions matters to the directives. -/
theorem directives_changes_congr (hmentions : SameMentions cs cs')
    (hlast : ∀ k ∈ [Setter.enableClient, .encryptServerData, .packData],
      lastValue? cs k = lastValue? cs' k) :
    (initial.changes cs).directives = (initial.changes cs').directives := by
  apply NameMap.ext_get?
  intro name
  have hgiven : givenBy cs name = givenBy cs' name := by
    ext d
    rw [givenBy, givenBy, Set.mem_ofPred_eq, Set.mem_ofPred_eq, hmentions.rule, hmentions.input,
      lastGlobal_congr hlast]
  have hcs := isStrongest_directives (initial.changes cs) name
  have hcs' := isStrongest_directives (initial.changes cs') name
  rw [given_changes] at hcs hcs'
  exact (hgiven ▸ hcs).unique hcs'

/-- With the same last calls of all setters nothing is left that could differ. -/
theorem build_changes_congr (hmentions : SameMentions cs cs')
    (hlast : ∀ k, lastValue? cs k = lastValue? cs' k) {files : FileSystem} {c : Config}
    (h : (initial.changes cs).build files = .ok c) :
    (initial.changes cs').build files = .ok c := by
  have hvalue (k : Setter) : (initial.changes cs').value k = (initial.changes cs).value k := by
    rw [value_changes, value_changes, hlast]
  have hbackend : (initial.changes cs').backend = _ := hvalue .backend
  have hdevice : (initial.changes cs').deviceId = _ := hvalue .deviceId
  have hsource : (initial.changes cs').source = _ := hvalue .source
  have hclient : (initial.changes cs').enableClient = _ := hvalue .enableClient
  have hserver : (initial.changes cs').encryptServerData = _ := hvalue .encryptServerData
  have hpack : (initial.changes cs').packData = _ := hvalue .packData
  have hcomplex : (initial.changes cs').complexPacking = _ := hvalue .complexPacking
  have hlayout : (initial.changes cs').resultLayout = _ := hvalue .resultLayout
  have hdirectives := directives_changes_congr hmentions fun k _ => hlast k
  obtain ⟨hflags, hnames, p, hload, rfl⟩ := build_eq_ok.1 h
  refine build_eq_ok.2 ⟨?_, ?_, p, ?_, ?_⟩
  · rw [hclient, hserver]
    exact hflags
  · intro name hname
    refine hnames name ?_
    simp only [mem_names_changes, hmentions.input, hmentions.rule] at hname ⊢
    exact hname
  · rw [hsource]
    exact hload
  · rw [hbackend, hdevice, hsource, hclient, hserver, hpack, hcomplex, hlayout, hdirectives]
    rfl

/-! ## Configurations -/

/-- Settings that come from an environment come about by changes, too. -/
theorem exists_changes_of_ofEnvironment {lookup : String → Option String} {s : Settings}
    (h : ofEnvironment lookup = .ok s) : ∃ cs, s = initial.changes cs := by
  obtain ⟨client, -, h⟩ := exists_of_bind_eq_ok h
  obtain ⟨server, -, h⟩ := exists_of_bind_eq_ok h
  obtain ⟨pack, -, h⟩ := exists_of_bind_eq_ok h
  obtain ⟨complex, -, h⟩ := exists_of_bind_eq_ok h
  obtain rfl := Except.ok.inj h
  exact ⟨[.enableClient client, .encryptServerData server, .packData pack, .complexPacking complex,
    .backend _, .source _], rfl⟩

variable {files : FileSystem} {c : Config}

/-- A configuration keeps the directives of the settings that it is built from. -/
theorem directives_of_build {s : Settings} (h : s.build files = .ok c) :
    c.directives = s.directives := by
  obtain ⟨-, -, p, -, rfl⟩ := build_eq_ok.1 h
  rfl

theorem isStrongest_of_build (h : (initial.changes cs).build files = .ok c) (name : String) :
    Directive.IsStrongest (givenBy cs name) (c.directives.get? name) := by
  rw [directives_of_build h, ← given_changes]
  exact isStrongest_directives _ name

/-- In a configuration that is built from changes a tensor has the greatest directive that they
give to it, and is plain if they give it none; those that are mentioned are listed.  Changes with
the same mentions and the same last calls of the flags give the same directives, and with the same
last calls of all setters the same configuration. -/
theorem directive_of_build (h : (initial.changes cs).build files = .ok c) :
    (∀ name,
      ((givenBy cs name).Nonempty → IsGreatest (givenBy cs name) (c.directive name)) ∧
      (givenBy cs name = ∅ → c.directive name = .plain) ∧
      (name ∈ c.directives.keys ↔ .input name ∈ cs ∨ ∃ d, .rule name d ∈ cs)) ∧
    ∀ cs', SameMentions cs cs' →
      ((∀ k ∈ [Setter.enableClient, .encryptServerData, .packData],
          lastValue? cs k = lastValue? cs' k) →
        ∀ files' c', (initial.changes cs').build files' = .ok c' → c'.directives = c.directives) ∧
      ((∀ k, lastValue? cs k = lastValue? cs' k) →
        (initial.changes cs').build files = .ok c) := by
  refine ⟨?_, ?_⟩
  · intro name
    have hstrongest := isStrongest_of_build h name
    refine ⟨?_, ?_, ?_⟩
    · intro hgiven
      cases hget : c.directives.get? name with
      | none =>
        rw [hget] at hstrongest
        exact absurd hstrongest hgiven.ne_empty
      | some d =>
        rw [hget] at hstrongest
        rw [Config.directive, hget]
        exact hstrongest
    · intro hgiven
      have hempty : Directive.IsStrongest (givenBy cs name) none := hgiven
      rw [Config.directive, hstrongest.unique hempty]
      rfl
    · rw [directives_of_build h]
      exact mem_keys_directives.trans (mem_names_changes cs name)
  · intro cs' hmentions
    refine ⟨?_, ?_⟩
    · intro hlast files' c' hbuild
      rw [directives_of_build h, directives_of_build hbuild]
      exact (directives_changes_congr hmentions hlast).symm
    · intro hlast
      exact build_changes_congr hmentions hlast h

/-- The changes of `mixed` in another order, two of them twice, with a flag that is taken back. -/
def mixedAgain : List SettingsChange :=
  [.rule "x" .encrypt, .resultLayout .classByBatch, .enableClient false, .rule "y" .encrypt,
    .input "x", .enableClient true, .input "x", .complexPacking true, .rule "y" .packed,
    .rule "y" .encrypt]

theorem directive_of_mixed :
    Config.mixed.directive "x" = .clientInput ∧ Config.mixed.directive "y" = .encrypt ∧
      Config.mixed.directive "z" = .plain ∧
      (initial.changes mixedAgain).build (fun _ => .error .notFound) = .ok .mixed := by
  obtain ⟨hnames, hchanges⟩ := directive_of_build (build_mixed fun _ => .error .notFound)
  refine ⟨?_, ?_, ?_, ?_⟩
  · refine ((hnames "x").1 ⟨.encrypt, Or.inl (by simp)⟩).unique ⟨Or.inr ⟨by simp, rfl⟩, ?_⟩
    rintro (_ | _ | _ | _) - <;> decide
  · refine ((hnames "y").1 ⟨.encrypt, Or.inl (by simp)⟩).unique ⟨Or.inl (by simp), ?_⟩
    rintro d (hrule | ⟨hinput, -⟩)
    · obtain rfl | rfl : d = .packed ∨ d = .encrypt := by simpa using hrule
      · decide
      · exact le_rfl
    · simp at hinput
  · exact (hnames "z").2.1 (by ext; simp [givenBy])
  · refine (hchanges mixedAgain ⟨?_, ?_⟩).2 ?_
    · intro name
      simp [mixedAgain]
    · intro name d
      simp only [mixedAgain, List.mem_cons, reduceCtorEq, SettingsChange.rule.injEq, false_or]
      tauto
    · rintro (_ | _ | _ | _ | _ | _ | _ | _) <;> rfl

end Settings

end EncryptedInference
