import EncryptedInference.Exchange.Message
import EncryptedInference.Proofs.Double.Nearest
import EncryptedInference.Proofs.Json.RoundTrip
import EncryptedInference.Proofs.NameMaps

/-!
# Values in documents

A value is put in a document and read off it again: `record?_ofFields`, `map?_toJson` and
`tagged?_taggedRecord` read the compound parts.  What is printed of a value is always written
properly (`isWritten_double` and the others); it passes the check of a whole tagged record
(`isSound_double` and the others) when its whole numbers are words and its doubles are such as their
digits reproduce (`Double.IsReproduced`).
-/

namespace EncryptedInference

/-- The digits that are printed for a double stand for it. -/
def Double.IsReproduced (x : Double) : Prop := (Json.double x).double? = some x

namespace Json

/-! ## Plain values -/

theorem nat?_nat {n limit : Nat} (h : n < limit) (hlimit : limit ≤ Written.wordLimit) :
    (nat n).nat? limit = some n := by
  simp only [nat, nat?, Written.word?_ofNat (Nat.lt_of_lt_of_le h hlimit), Option.filter_some,
    decide_eq_true h, if_true]

theorem size?_nat {n : Nat} (h : n < Written.wordLimit) : (nat n).size? = some n :=
  nat?_nat h (Nat.le_refl _)

theorem mapM_map {α β : Type} {item : β → Option α} {print : α → β} {xs : List α}
    (h : ∀ x ∈ xs, item (print x) = some x) : (xs.map print).mapM item = some xs := by
  induction xs with
  | nil => rfl
  | cons x xs ih =>
    have htail := ih fun y hy => h y (List.mem_cons_of_mem x hy)
    rw [List.map_cons, List.mapM_cons, h x List.mem_cons_self, htail]
    rfl

theorem list?_array {α : Type} {item : Json → Option α} {print : α → Json} {xs : List α}
    (h : ∀ x ∈ xs, item (print x) = some x) : (array (xs.map print)).list? item = some xs :=
  mapM_map h

/-! ## Records -/

theorem fields?_ofFields (fs : List (String × Json)) : (ofFields fs).fields? = some fs :=
  mapM_map fun _ _ => rfl

theorem uniqueField?_eq {fs : List (String × Json)} (h : (fs.map Prod.fst).Nodup) (name : String) :
    uniqueField? fs name = some (fs.lookup name) := by
  unfold uniqueField?
  cases hlookup : fs.lookup name with
  | none =>
    rw [List.filter_eq_nil_iff.2]
    intro f hf
    have hne : name ≠ f.1 := by simpa using List.lookup_eq_none_iff.1 hlookup f hf
    simpa using Ne.symm hne
  | some j =>
    obtain ⟨before, after, rfl, -⟩ := List.lookup_eq_some_iff.1 hlookup
    have hmem : (name, j) ∈ before ++ (name, j) :: after := by simp
    rw [filter_name_eq h hmem]

/-- A record gives what its fields are looked up as. -/
theorem record?_ofFields {fs : List (String × Json)} (h : (fs.map Prod.fst).Nodup)
    (names : List String) : record? names (ofFields fs) = some (names.map (fs.lookup ·)) := by
  have hfields : record? names (ofFields fs) = names.mapM (uniqueField? fs) := by
    show (fields? (ofFields fs)).bind _ = _
    rw [fields?_ofFields]
    rfl
  rw [hfields, funext (uniqueField?_eq h)]
  exact List.mapM_pure

/-! ## Written documents -/

theorem isWritten_nat (n : Nat) : IsWritten (nat n) := Written.isProper_ofNat n

theorem isWritten_double (x : Double) : IsWritten (double x) := by
  unfold double
  split_ifs
  · have hproper := DecimalStyle.document.isProper_layOut
      (Double.exponent_shortest DecimalStyle.document.tie x)
    exact hproper
  · trivial

theorem isWritten_array {js : List Json} (h : ∀ j ∈ js, IsWritten j) : IsWritten (.array js) := by
  show AreWritten js
  induction js with
  | nil => trivial
  | cons j js ih =>
    have htail := ih fun k hk => h k (List.mem_cons_of_mem j hk)
    exact ⟨h j List.mem_cons_self, htail⟩

theorem isWritten_ofFields {fs : List (String × Json)} (h : ∀ f ∈ fs, IsWritten f.2) :
    IsWritten (ofFields fs) := by
  show FieldsAreWritten (fs.map fun f => (some f.1, f.2))
  induction fs with
  | nil => trivial
  | cons f fs ih =>
    have htail := ih fun g hg => h g (List.mem_cons_of_mem f hg)
    exact ⟨rfl, h f List.mem_cons_self, htail⟩

/-! ## Sound documents -/

theorem isSound_text (depth : Nat) (s : String) : isSound depth (text s) = true := rfl

theorem isSound_nat (depth : Nat) {n : Nat} (h : n < Written.wordLimit) :
    isSound depth (nat n) = true :=
  Written.isSome_toDouble?_ofNat h

theorem isSound_double (depth : Nat) {x : Double} (h : x.IsReproduced) :
    isSound depth (double x) = true := by
  unfold Double.IsReproduced at h
  unfold double at h ⊢
  split_ifs at h ⊢
  · rw [isSound, h]
    rfl
  · rfl

theorem isSound_array {depth : Nat} {js : List Json} (h : ∀ j ∈ js, isSound depth j = true) :
    isSound (depth + 1) (.array js) = true := by
  show areSound depth js = true
  induction js with
  | nil => rfl
  | cons j js ih =>
    have htail := ih fun k hk => h k (List.mem_cons_of_mem j hk)
    rw [areSound, h j List.mem_cons_self, htail]
    rfl

theorem isSound_ofFields {depth : Nat} {fs : List (String × Json)}
    (h : ∀ f ∈ fs, isSound depth f.2 = true) : isSound (depth + 1) (ofFields fs) = true := by
  show fieldsAreSound depth (fs.map fun f => (some f.1, f.2)) = true
  induction fs with
  | nil => rfl
  | cons f fs ih =>
    have htail := ih fun g hg => h g (List.mem_cons_of_mem f hg)
    rw [List.map_cons, fieldsAreSound, h f List.mem_cons_self, htail]
    rfl

/-- A record with its kind in front is parted into the two again, if it is sound. -/
theorem tagged?_taggedRecord {kind : String} {fs : List (String × Json)}
    (htag : "type" ∉ fs.map Prod.fst) : tagged? "type" (taggedRecord kind fs) =
      if isSound maxDepth (taggedRecord kind fs) then some (kind, ofFields fs) else none := by
  have hne : ∀ f ∈ fs.map fun f => (some f.1, f.2), f.1 ≠ some "type" := by
    intro g hg heq
    obtain ⟨f, hf, rfl⟩ := List.mem_map.1 hg
    have hmem : f.1 ∈ fs.map Prod.fst := List.mem_map_of_mem hf
    rw [Option.some.inj heq] at hmem
    exact htag hmem
  have htagged : (fs.map fun f => (some f.1, f.2)).filter (fun f => f.1 = some "type") = [] := by
    rw [List.filter_eq_nil_iff]
    intro f hf
    simpa using hne f hf
  have hothers : (fs.map fun f => (some f.1, f.2)).filter (fun f => f.1 ≠ some "type") =
      fs.map fun f => (some f.1, f.2) := by
    rw [List.filter_eq_self]
    intro f hf
    simpa using hne f hf
  unfold tagged?
  congr 1
  simp only [taggedRecord, ofFields, List.map_cons]
  rw [List.filter_cons_of_pos (by simp), List.filter_cons_of_neg (by simp), htagged, hothers]
  rfl

end Json

namespace NameMap

variable {α : Type}

theorem map?_toJson {value : α → Json} {read : Json → Option α} {m : NameMap α}
    (h : ∀ e ∈ m.entries, read (value e.2) = some e.2) :
    (m.toJson value).map? read = some m := by
  have hread : (m.entries.map fun e => (e.1, value e.2)).mapM
      (fun f => (read f.2).map fun v => (f.1, v)) = some m.entries := by
    apply Json.mapM_map
    intro e he
    rw [h e he]
    rfl
  simp only [Json.map?, toJson, Json.fields?_ofFields, bind, Option.bind, hread, pure,
    ofList_entries]

theorem isWritten_toJson {value : α → Json} {m : NameMap α}
    (h : ∀ e ∈ m.entries, (value e.2).IsWritten) : (m.toJson value).IsWritten := by
  apply Json.isWritten_ofFields
  intro f hf
  obtain ⟨e, he, rfl⟩ := List.mem_map.1 hf
  exact h e he

theorem isSound_toJson {depth : Nat} {value : α → Json} {m : NameMap α}
    (h : ∀ e ∈ m.entries, Json.isSound depth (value e.2) = true) :
    Json.isSound (depth + 1) (m.toJson value) = true := by
  apply Json.isSound_ofFields
  intro f hf
  obtain ⟨e, he, rfl⟩ := List.mem_map.1 hf
  exact h e he

end NameMap

end EncryptedInference
