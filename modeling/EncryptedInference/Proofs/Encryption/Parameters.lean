import EncryptedInference.Encryption.Parameters
import EncryptedInference.Proofs.Json.Values

/-!
# Parameters as text

Checked parameters are written as a text that is read as those parameters
(`EncryptionParameters.ofText_toText`).  The text stands between braces, so a setting with it is a
source of its own, which gives the parameters whatever files there are
(`EncryptionParameters.load_toText`).
-/

namespace EncryptedInference

/-! ## Texts in braces -/

theorem Text.trim_braced (cs : List Char) :
    trim (String.ofList ('\x7b' :: cs ++ ['\x7d'])) = String.ofList ('\x7b' :: cs ++ ['\x7d']) := by
  have hopen : isBlank '\x7b' = false := by decide
  have hclose : isBlank '\x7d' = false := by decide
  simp [trim, hopen, hclose]

theorem ParameterSource.ofText_braced (cs : List Char) :
    ofText (String.ofList ('\x7b' :: cs ++ ['\x7d'])) =
      .inline (String.ofList ('\x7b' :: cs ++ ['\x7d'])) := by
  rw [ofText, Text.trim_braced, String.toList_ofList]
  rfl

namespace EncryptionParameters

/-! ## Checked parameters -/

/-- What checking parameters finds out. -/
structure IsValid (p : EncryptionParameters) : Prop where
  scheme : p.scheme = schemeName
  degree : p.degree ∈ ringDegrees
  security : p.security ∈ securityLevels
  modulus : p.modulus ≠ []
  bits : ∀ b ∈ p.modulus, b ≠ 0 ∧ b ≤ maxModulusBits
  scale : p.scale.isFinite = true ∧ p.scale.isNegative = false

theorem fault?_eq_none {p : EncryptionParameters} : p.fault? = none ↔ p.IsValid := by
  constructor
  · intro h
    unfold fault? at h
    split_ifs at h with hscheme hdegree hsecurity hmodulus hscale
    · split at h <;> cases h
    · cases hbits : p.modulus.find? (fun b => b = 0 || maxModulusBits < b) with
      | some b => simp [hbits] at h
      | none =>
        have hall : ∀ b ∈ p.modulus, b ≠ 0 ∧ b ≤ maxModulusBits := by
          intro b hb
          simpa using List.find?_eq_none.1 hbits b hb
        exact ⟨by simpa using hscheme, by simpa using hdegree, by simpa using hsecurity,
          by simpa using hmodulus, hall, by simpa using hscale⟩
  · intro h
    have hbits : p.modulus.find? (fun b => b = 0 || maxModulusBits < b) = none := by
      rw [List.find?_eq_none]
      intro b hb
      simpa using h.bits b hb
    simp [fault?, h.scheme, h.degree, h.security, h.modulus, hbits, h.scale]

theorem validate_eq_ok {p : EncryptionParameters} : p.validate = .ok () ↔ p.IsValid := by
  rw [← fault?_eq_none, validate]
  cases p.fault? <;> simp

/-- Parameters are what their source gives, and checked. -/
theorem load_eq_ok {files : FileSystem} {source : ParameterSource} {p : EncryptionParameters} :
    load files source = .ok p ↔ read files source = .ok p ∧ p.IsValid := by
  unfold load
  cases read files source with
  | error e => simp [bind, Except.bind]
  | ok q =>
    cases hvalid : q.validate with
    | error e =>
      simp only [bind, Except.bind, hvalid, reduceCtorEq, Except.ok.injEq, false_iff, not_and]
      rintro rfl h
      rw [validate_eq_ok.2 h] at hvalid
      cases hvalid
    | ok _ =>
      have hq : q.IsValid := validate_eq_ok.1 hvalid
      simp only [bind, Except.bind, hvalid, pure, Except.pure, Except.ok.injEq]
      constructor
      · rintro rfl
        exact ⟨rfl, hq⟩
      · exact And.left

/-! ## The text of parameters -/

theorem word?_nat {n : Nat} (h : n < 0x100000000) : word? (.nat n) = some n :=
  Json.nat?_nat h (by decide)

theorem isWritten_toJson (p : EncryptionParameters) : p.toJson.IsWritten := by
  have hmodulus : (Json.array (p.modulus.map .nat)).IsWritten := by
    apply Json.isWritten_array
    intro j hj
    obtain ⟨n, -, rfl⟩ := List.mem_map.1 hj
    exact Json.isWritten_nat n
  apply Json.isWritten_ofFields
  simpa using ⟨rfl, Json.isWritten_nat _, Json.isWritten_nat _, hmodulus,
    Json.isWritten_double _, trivial⟩

variable {p : EncryptionParameters}

theorem ofJson?_toJson (h : p.IsValid) (hscale : p.scale.IsReproduced) :
    ofJson? p.toJson = some p := by
  have hdegree : (Json.nat p.degree).size? = some p.degree := by
    have hall : ∀ n ∈ ringDegrees, n < Written.wordLimit := by decide
    exact Json.size?_nat (hall _ h.degree)
  have hsecurity : word? (.nat p.security) = some p.security := by
    have hall : ∀ n ∈ securityLevels, n < 0x100000000 := by decide
    exact word?_nat (hall _ h.security)
  have hmodulus : (Json.array (p.modulus.map .nat)).list? word? = some p.modulus := by
    apply Json.list?_array
    intro b hb
    obtain ⟨-, hle⟩ := h.bits b hb
    exact word?_nat (Nat.lt_of_le_of_lt hle (by decide))
  have hscheme : (Json.text p.scheme).text? = some p.scheme := rfl
  have hdouble : (Json.double p.scale).double? = some p.scale := hscale
  have hpacking : (Json.bool p.complexPacking).bool? = some p.complexPacking := rfl
  have hrecord : p.toJson.record? ["scheme_name", "poly_modulus_degree", "security_level",
      "coeff_modulus", "scale", "complex_packing"] =
        some [some (.text p.scheme), some (.nat p.degree), some (.nat p.security),
          some (.array (p.modulus.map .nat)), some (.double p.scale),
          some (.bool p.complexPacking)] :=
    Json.record?_ofFields (by simp) _
  simp only [ofJson?, hrecord, hscheme, hdegree, hsecurity, hmodulus, hdouble, hpacking, bind,
    Option.bind, pure]

theorem ofText_toText (h : p.IsValid) (hscale : p.scale.IsReproduced) (origin : String) :
    ofText p.toText origin = .ok p := by
  rw [ofText, toText, Json.parse?_compress p.isWritten_toJson]
  simp only [Option.bind, ofJson?_toJson h hscale]

theorem read_inline (files : FileSystem) (text : String) :
    read files (.inline text) = ofText text "inline JSON" := rfl

theorem source_toText (p : EncryptionParameters) :
    ParameterSource.ofText p.toText = .inline p.toText := by
  obtain ⟨cs, hcs⟩ := Json.exists_toList_compress_object
    ([("scheme_name", .text p.scheme), ("poly_modulus_degree", .nat p.degree),
      ("security_level", .nat p.security), ("coeff_modulus", .array (p.modulus.map .nat)),
      ("scale", .double p.scale), ("complex_packing", .bool p.complexPacking)].map
        fun f => (some f.1, f.2))
  have htext : p.toText = String.ofList ('\x7b' :: cs ++ ['\x7d']) := by
    rw [← String.toList_inj, String.toList_ofList]
    exact hcs
  rw [htext, ParameterSource.ofText_braced]

/-- The text of parameters gives them back, whatever files there are. -/
theorem load_toText (h : p.IsValid) (hscale : p.scale.IsReproduced) (files : FileSystem) :
    load files (.ofText p.toText) = .ok p := by
  rw [source_toText, load_eq_ok, read_inline]
  exact ⟨ofText_toText h hscale _, h⟩

end EncryptionParameters

end EncryptedInference
