import EncryptedInference.Proofs.Encryption.Acceptance
import EncryptedInference.Proofs.Host.Admission
import EncryptedInference.Proofs.Outcomes

/-!
# Files and requests

The entry of a parameter map that carries the encryption parameters is read as any setting is: it
may name a file, and then the server reads that file of its own (`Request.file?`).  What a server
says about a request depends on its files in this one place only, and there it does: a request that
is accepted with some file is accepted or refused as the parameters in the file are
(`Server.handle_execute_withFiles`).
-/

namespace EncryptedInference

/-- The file that a source is read from. -/
def ParameterSource.file? : ParameterSource → Option String
  | file path => some path
  | default | inline _ => none

/-- The file that a server reads to check a request. -/
def Request.file? (r : Request) : Option String :=
  (r.parameters.get? "encryption_parameters").bind fun text => (ParameterSource.ofText text).file?

/-- The host with other files. -/
def Host.withFiles (host : Host) (files : FileSystem) : Host := { host with files := files }

@[simp] theorem Host.files_withFiles (host : Host) (files : FileSystem) :
    (host.withFiles files).files = files := rfl

/-! ## Sources -/

/-- A text that is not blank and does not begin with a brace names a file. -/
theorem ParameterSource.file?_ofText {text path : String} : (ofText text).file? = some path ↔
    path = Text.trim text ∧ path ≠ "" ∧ path.toList.head? ≠ some '\x7b' := by
  have hempty : ∀ s : String, s = "" ↔ s.toList = [] := fun s => String.toList_eq_nil_iff.symm
  unfold ofText
  dsimp only
  generalize Text.trim text = trimmed
  constructor
  · intro h
    split at h
    · cases h
    · cases h
    · obtain rfl := Option.some.inj h
      rename_i hblank hbrace
      refine ⟨rfl, ?_, ?_⟩
      · rw [Ne, hempty]
        exact hblank
      · cases hchars : trimmed.toList with
        | nil => nofun
        | cons c cs =>
          rintro heq
          obtain rfl := Option.some.inj heq
          exact hbrace cs hchars
  · rintro ⟨rfl, hblank, hbrace⟩
    split
    · rename_i hnil
      exact absurd ((hempty _).2 hnil) hblank
    · rename_i cs hcons
      rw [hcons] at hbrace
      exact absurd rfl hbrace
    · rfl

namespace EncryptionParameters

theorem load_congr {files files' : FileSystem} {source : ParameterSource}
    (h : ∀ path ∈ source.file?, files path = files' path) :
    load files source = load files' source := by
  have hread : read files source = read files' source := by
    cases source with
    | file path => simp only [read, h path rfl]
    | _ => rfl
  rw [load, load, hread]

end EncryptionParameters

/-! ## Parameter maps -/

namespace Config

theorem ofParameterMap_eq (files : FileSystem) {m : NameMap String} {s : Settings}
    (h : settingsOfMap m = .ok s) : ofParameterMap files m = s.build files := by
  simp only [ofParameterMap, h, bind, Except.bind]

end Config

/-! ## Requests -/

namespace Request

variable {r : Request}

/-- The file that is read for a request is that of the source in its parameter map. -/
theorem file?_eq_of_settings {s : Settings} (h : Config.settingsOfMap r.parameters = .ok s) :
    r.file? = s.source.file? := by
  obtain ⟨text, hentry, hsource⟩ := (Config.settingsOfMap_eq_ok.1 h).source
  rw [file?, hentry, hsource, Option.bind_some]

/-- The entry is not blank and does not begin with a brace: then it is a path. -/
theorem file?_eq_some {path : String} : r.file? = some path ↔
    ∃ text, r.parameters.get? "encryption_parameters" = some text ∧ path = Text.trim text ∧
      path ≠ "" ∧ path.toList.head? ≠ some '\x7b' := by
  rw [file?, Option.bind_eq_some_iff]
  simp only [ParameterSource.file?_ofText]

theorem checkRequest_congr {files files' : FileSystem}
    (h : ∀ path ∈ r.file?, files path = files' path) :
    checkRequest files r = checkRequest files' r := by
  have hmap : Config.ofParameterMap files r.parameters =
      Config.ofParameterMap files' r.parameters := by
    cases hsettings : Config.settingsOfMap r.parameters with
    | error e => simp only [Config.ofParameterMap, hsettings, bind, Except.bind]
    | ok s =>
      rw [file?_eq_of_settings hsettings] at h
      rw [Config.ofParameterMap_eq files hsettings, Config.ofParameterMap_eq files' hsettings,
        Settings.build, Settings.build, EncryptionParameters.load_congr h]
  rw [checkRequest, checkRequest, hmap]

/-- A request that passes with some files passes with others just when its parameters can be had
there. -/
theorem checkRequest_of_ok {files : FileSystem} (h : checkRequest files r = .ok ()) :
    ∃ source : ParameterSource, r.file? = source.file? ∧
      (∃ p, EncryptionParameters.load files source = .ok p) ∧
      ∀ files' : FileSystem, checkRequest files' r =
        match EncryptionParameters.load files' source with
        | .ok _ => .ok ()
        | .error e => .error (.config (.parameters e)) := by
  obtain ⟨hvalid, c, hmap, hlisted⟩ := checkRequest_eq_ok.1 h
  obtain ⟨s, hsettings, hbuild⟩ := exists_of_bind_eq_ok hmap
  obtain ⟨hflags, hnames, p, hload, rfl⟩ := Settings.build_eq_ok.1 hbuild
  refine ⟨s.source, file?_eq_of_settings hsettings, ⟨p, hload⟩, ?_⟩
  intro files'
  cases hload' : EncryptionParameters.load files' s.source with
  | ok p' =>
    have hbuild' := Settings.build_eq_ok.2 ⟨hflags, hnames, p', hload', rfl⟩
    exact checkRequest_eq_ok.2
      ⟨hvalid, _, (Config.ofParameterMap_eq files' hsettings).trans hbuild', hlisted⟩
  | error e =>
    have hnone : s.names.findSome? Settings.nameError? = none := List.findSome?_eq_none_iff.2 hnames
    have hbuild' : s.build files' = .error (.parameters e) := by
      simp only [Settings.build, hflags, hnone, hload', Bool.false_eq_true, if_false]
    simp only [checkRequest, hvalid, Config.ofParameterMap_eq files' hsettings, hbuild',
      Except.mapError, bind, Except.bind]

end Request

/-! ## Verdicts -/

/-- The verdict on a request depends on the files of the server only through the file that the entry
for the parameters names: a text that is not blank and does not begin with a brace is a path.  There
it does depend on them: a request that is accepted with some files is accepted with others just when
that file holds parameters there, and the refusal says what is wrong with it. -/
theorem Server.handle_execute_withFiles (host : Host) (s : Server) (r : Request) :
    (∀ path, r.file? = some path ↔
      ∃ text, r.parameters.get? "encryption_parameters" = some text ∧ path = Text.trim text ∧
        path ≠ "" ∧ path.toList.head? ≠ some '\x7b') ∧
    (∀ files files' : FileSystem, (∀ path ∈ r.file?, files path = files' path) →
      s.handle (host.withFiles files) (.execute r) =
        s.handle (host.withFiles files') (.execute r)) ∧
    ∀ (files : FileSystem) (id : String),
      (s.handle (host.withFiles files) (.execute r)).1 = some (.accepted id) →
      ∀ files' : FileSystem, (s.handle (host.withFiles files') (.execute r)).1 =
        some (match r.file? with
          | none => .accepted id
          | some path => match EncryptionParameters.load files' (.file path) with
            | .ok _ => .accepted id
            | .error e => .error e.message) := by
  refine ⟨fun _ => Request.file?_eq_some, ?_, ?_⟩
  · intro files files' hfiles
    have hcheck : checkRequest files r = checkRequest files' r :=
      Request.checkRequest_congr hfiles
    simp only [handle, submit, Host.files_withFiles, hcheck]
    rfl
  · intro files id haccepted files'
    have hok : checkRequest (host.withFiles files).files r = .ok () :=
      checkRequest_of_accepted haccepted
    rw [Host.files_withFiles] at hok
    obtain ⟨source, hfile, ⟨p, hload⟩, hcheck⟩ := Request.checkRequest_of_ok hok
    have hname : id = host.requestName s.accepted := by
      simp only [handle, submit, Host.files_withFiles, hok] at haccepted
      exact (ServerMessage.accepted.inj (Option.some.inj haccepted)).symm
    have hreply : (s.handle (host.withFiles files') (.execute r)).1 =
        some (match EncryptionParameters.load files' source with
          | .ok _ => .accepted id
          | .error e => .error e.message) := by
      simp only [handle, submit, Host.files_withFiles, hcheck files', hname]
      cases EncryptionParameters.load files' source <;> rfl
    have hsame : source.file? = none → EncryptionParameters.load files' source = .ok p := by
      intro hnone
      rw [← hload]
      apply EncryptionParameters.load_congr
      rw [hnone]
      intro path hpath
      cases hpath
    rw [hreply, hfile]
    cases source with
    | file path => rfl
    | default => simp only [hsame rfl, ParameterSource.file?]
    | inline text => simp only [hsame rfl, ParameterSource.file?]

/-! ## A path in a parameter map -/

/-- A request whose parameter map names a file. -/
def Request.filed : Request :=
  { Request.single with
    parameters := Request.single.parameters.insert "encryption_parameters" "p.json" }

/-- A file system with one file, which holds parameters. -/
def FileSystem.stocked : FileSystem := fun path =>
  if path = "p.json" then .ok EncryptionParameters.standard.toText else .error .notFound

theorem Server.accepts_filed :
    (initial.handle (Host.tally.withFiles .stocked) (.execute .filed)).1 =
      some (.accepted "I") := by
  decide +kernel

/-- The request is accepted where the file is, and where its text is not that of parameters the
refusal says so; other files do not matter. -/
theorem Server.handle_filed :
    Request.filed.file? = some "p.json" ∧
      initial.handle (Host.tally.withFiles .stocked) (.execute .filed) =
        initial.handle (Host.tally.withFiles fun _ => .ok EncryptionParameters.standard.toText)
          (.execute .filed) ∧
      (initial.handle (Host.tally.withFiles .stocked) (.execute .filed)).1 =
        some (.accepted "I") ∧
      (initial.handle (Host.tally.withFiles fun _ => .ok "[") (.execute .filed)).1 =
        some (.error "malformed encryption parameters from p.json") := by
  obtain ⟨hfile, hcongr, hverdict⟩ :=
    handle_execute_withFiles Host.tally initial Request.filed
  have hentry : Request.filed.parameters.get? "encryption_parameters" = some "p.json" :=
    (NameMap.get?_insert ..).trans (if_pos rfl)
  have hpath : Request.filed.file? = some "p.json" :=
    (hfile "p.json").2 ⟨"p.json", hentry, by decide +kernel, by decide, by decide +kernel⟩
  have hsame : ∀ path ∈ Request.filed.file?,
      FileSystem.stocked path = .ok EncryptionParameters.standard.toText := by
    intro path hpath'
    obtain rfl := Option.some.inj (hpath.symm.trans hpath')
    rfl
  refine ⟨hpath, hcongr .stocked (fun _ => _) hsame, accepts_filed, ?_⟩
  have hload : EncryptionParameters.load (fun _ => .ok "[") (.file "p.json") =
      .error (.malformed "p.json") := by decide +kernel
  rw [hverdict .stocked "I" accepts_filed, hpath]
  simp only [hload]
  rfl

/-- The same request is accepted by one server and refused by another that differs from it only in
its files, and what it carries is no text of parameters. -/
theorem Server.verdict_of_filed :
    (initial.handle (Host.tally.withFiles .stocked) (.execute .filed)).1 =
        some (.accepted "I") ∧
      (initial.handle (Host.tally.withFiles fun _ => .error .notFound) (.execute .filed)).1 =
        some (.error "encryption parameter file not found: p.json") ∧
      EncryptionParameters.ofText "p.json" "inline JSON" = .error (.malformed "inline JSON") := by
  refine ⟨accepts_filed, ?_, ?_⟩ <;> decide +kernel

end EncryptedInference
