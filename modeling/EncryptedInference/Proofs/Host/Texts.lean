import EncryptedInference.Host.Server

/-!
# What a server says in words

The texts of a server are told apart by how they begin: those about its table, those about a request
that it refuses, and those about a job that failed.  How the refusals and the failures begin is
listed once (`SubmitError.opens`, `EngineOutcome.opens`), and a text of these kinds begins with no
words that are apart from all in the list (`not_begins_of_apart`).
-/

namespace EncryptedInference

/-! ## Openings -/

/-- The text begins with these words. -/
def Begins (words text : String) : Prop := ∃ rest, text = words ++ rest

theorem begins_self (text : String) : Begins text text := ⟨"", String.append_empty.symm⟩

theorem begins_append (words rest : String) : Begins words (words ++ rest) := ⟨rest, rfl⟩

theorem Begins.append {words text : String} (h : Begins words text) (more : String) :
    Begins words (text ++ more) := by
  obtain ⟨rest, rfl⟩ := h
  exact ⟨rest ++ more, String.append_assoc⟩

theorem Begins.isPrefix {words text : String} (h : Begins words text) :
    words.toList <+: text.toList := by
  obtain ⟨rest, rfl⟩ := h
  exact ⟨rest.toList, String.toList_append.symm⟩

/-- Neither of the two is how the other one begins. -/
def Apart (words words' : String) : Prop :=
  ¬ words.toList <+: words'.toList ∧ ¬ words'.toList <+: words.toList

instance (words words' : String) : Decidable (Apart words words') :=
  inferInstanceAs (Decidable (_ ∧ _))

/-- The text has one of these openings. -/
def Opens (openings : List String) (text : String) : Prop :=
  ∃ opening ∈ openings, Begins opening text

theorem not_begins_of_apart {openings : List String} {words text : String}
    (h : Opens openings text) (hapart : ∀ opening ∈ openings, Apart opening words) :
    ¬ Begins words text := by
  obtain ⟨opening, hopening, hbegins⟩ := h
  obtain ⟨hnot, hnot'⟩ := hapart opening hopening
  intro hwords
  rcases List.prefix_or_prefix_of_prefix hbegins.isPrefix hwords.isPrefix with hle | hle
  · exact hnot hle
  · exact hnot' hle

/-! ## Refusals -/

/-- How the refusals of a request begin. -/
def refusalOpenings : List String :=
  ["request has no tensors", "batch size must be non-zero", "tensor '",
   "enable_client and encrypt_server_data are mutually exclusive",
   "encryption parameter file not found: ", "failed to read ",
   "malformed encryption parameters from ", "invalid encryption parameters: ",
   "invalid boolean for ", "tensor name '", "tensor name must not be empty",
   "parameter map is missing '", "invalid value '"]

theorem RequestError.opens (e : RequestError) : Opens refusalOpenings e.message := by
  cases e with
  | emptyRequest => exact ⟨"request has no tensors", by decide, begins_self _⟩
  | emptyBatch => exact ⟨"batch size must be non-zero", by decide, begins_self _⟩
  | duplicateTensor name => exact ⟨"tensor '", by decide, (begins_append ..).append _⟩
  | _ =>
    refine ⟨"tensor '", by decide, ?_⟩
    simp only [message]
    exact ((((begins_append ..).append _).append _).append _).append _

theorem ParameterError.opens (e : ParameterError) : Opens refusalOpenings e.message := by
  cases e with
  | missing path =>
    exact ⟨"encryption parameter file not found: ", by decide, begins_append ..⟩
  | unreadable path => exact ⟨"failed to read ", by decide, begins_append ..⟩
  | malformed origin =>
    exact ⟨"malformed encryption parameters from ", by decide, begins_append ..⟩
  | invalid fault => exact ⟨"invalid encryption parameters: ", by decide, begins_append ..⟩

theorem ConfigError.opens (e : ConfigError) : Opens refusalOpenings e.message := by
  cases e with
  | conflictingDirectives =>
    exact ⟨"enable_client and encrypt_server_data are mutually exclusive", by decide,
      begins_self _⟩
  | parameters e => exact e.opens
  | invalidFlag name value =>
    refine ⟨"invalid boolean for ", by decide, ?_⟩
    exact (((begins_append ..).append _).append _).append _
  | reservedName name => exact ⟨"tensor name '", by decide, (begins_append ..).append _⟩
  | emptyTensorName => exact ⟨"tensor name must not be empty", by decide, begins_self _⟩
  | missingKey key => exact ⟨"parameter map is missing '", by decide, (begins_append ..).append _⟩
  | invalidEntry key value fault =>
    refine ⟨"invalid value '", by decide, ?_⟩
    exact ((((begins_append ..).append _).append _).append _).append _

theorem SubmitError.opens (e : SubmitError) : Opens refusalOpenings e.message := by
  cases e with
  | request e => exact e.opens
  | config e => exact e.opens

/-! ## Failures -/

/-- How the text about a panic begins, up to the number of the task. -/
def panicOpening : String := "engine task panicked: task "

theorem begins_panicText (task : Nat) (message : Option String) :
    Begins panicOpening (panicText task message) :=
  ((begins_append ..).append _).append _

/-- How the reasons for the failure of a job begin that has not panicked. -/
def failureOpenings : List String := ["evaluation failed: ", "unsupported request: "]

theorem EngineOutcome.opens_of_ne_panicked {task : Nat} {outcome : EngineOutcome} {reason : String}
    (h : outcome.result task = .error reason) (hne : ∀ message, outcome ≠ .panicked message) :
    Opens failureOpenings reason := by
  cases outcome with
  | outputs given =>
    cases hfinite : Job.nonFiniteOutput? given with
    | none => simp [result, hfinite] at h
    | some slot =>
      simp only [result, hfinite, Except.error.injEq] at h
      subst h
      have hopening : Begins "evaluation failed: " "evaluation failed: output '" :=
        ⟨"output '", by decide⟩
      exact ⟨_, by decide, ((hopening.append _).append _).append _⟩
  | unsupported text =>
    obtain rfl := Except.error.inj h
    exact ⟨"unsupported request: ", by decide, begins_append ..⟩
  | failed text =>
    obtain rfl := Except.error.inj h
    exact ⟨"evaluation failed: ", by decide, begins_append ..⟩
  | panicked message => exact absurd rfl (hne message)

theorem EngineOutcome.opens {task : Nat} {outcome : EngineOutcome} {reason : String}
    (h : outcome.result task = .error reason) : Opens (panicOpening :: failureOpenings) reason := by
  by_cases hpanic : ∃ message, outcome = .panicked message
  · obtain ⟨message, rfl⟩ := hpanic
    obtain rfl := Except.error.inj h
    exact ⟨panicOpening, List.mem_cons_self, begins_panicText task message⟩
  · obtain ⟨opening, hopening, hbegins⟩ := opens_of_ne_panicked h (not_exists.1 hpanic)
    exact ⟨opening, List.mem_cons_of_mem _ hopening, hbegins⟩

/-! ## Texts about the table -/

/-- A text about a request and the table, and not about what became of its job. -/
def TellsOfTable (text : String) : Prop := Begins "request '" text

theorem tellsOfTable_notFound (id : String) : TellsOfTable ("request '" ++ id ++ "' not found") :=
  (begins_append ..).append _

theorem tellsOfTable_early (id : String) (state : JobState) :
    TellsOfTable ("request '" ++ id ++ "' is still " ++ state.toText) :=
  ((begins_append ..).append _).append _

theorem early_ne_notFound (id : String) (state : JobState) :
    "request '" ++ id ++ "' is still " ++ state.toText ≠ "request '" ++ id ++ "' not found" := by
  intro h
  have hrest := congrArg (fun s => s.toList.drop (("request '" ++ id).length)) h
  simp [String.length] at hrest

/-- The refusal of a request is not told in the words that are kept for the table. -/
theorem SubmitError.not_tellsOfTable (e : SubmitError) : ¬ TellsOfTable e.message :=
  not_begins_of_apart e.opens (by decide)

/-- Neither is a failure. -/
theorem EngineOutcome.not_tellsOfTable {task : Nat} {outcome : EngineOutcome} {reason : String}
    (h : outcome.result task = .error reason) : ¬ TellsOfTable reason :=
  not_begins_of_apart (opens h) (by decide)

end EncryptedInference
