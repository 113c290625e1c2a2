import EncryptedInference.Proofs.Batch.Packed
import EncryptedInference.Proofs.Exchange.Streams
import EncryptedInference.Proofs.Json.Reading

/-!
# Finite messages travel

A document has no infinity and no NaN, so a message can only travel when all its slots are finite.
Where the digits of finite doubles reproduce them (`SlotVector.IsExact`), that and whole numbers
that fit their words are all it takes (`ClientMessage.travels_of_isFinite`,
`ServerMessage.travels_of_isFinite`).  Both hold of every message that was read, whatever the text
(`ClientMessage.isSendable_of_ofJson?`, `ServerMessage.isSendable_of_ofJson?`), and of every packed
batch (`Packer.isFinite_of_pack`).
-/

namespace EncryptedInference

/-! ## Slots -/

/-- The digits of the double, if it is finite, stand for it. -/
def Double.IsExact (x : Double) : Prop := x.isFinite = true → x.IsReproduced

namespace SlotVector

/-- All the values that slots carry. -/
def doubles : SlotVector → List Double
  | real values => values
  | complex values => values.flatMap fun z => [z.re, z.im]

/-- The digits of all finite values stand for them. -/
def IsExact (s : SlotVector) : Prop := ∀ x ∈ s.doubles, x.IsExact

theorem isFinite_iff {s : SlotVector} :
    s.isFinite = true ↔ ∀ x ∈ s.doubles, x.isFinite = true := by
  cases s with
  | real values => simp [isFinite, firstNonFinite?, doubles]
  | complex values =>
    simp only [isFinite, firstNonFinite?, doubles, Option.isNone_iff_eq_none,
      List.findIdx?_eq_none_iff, Bool.not_eq_false', Complex.isFinite, Bool.and_eq_true,
      List.mem_flatMap, List.mem_cons, List.not_mem_nil, or_false]
    constructor
    · rintro h x ⟨z, hz, rfl | rfl⟩
      · exact (h z hz).1
      · exact (h z hz).2
    · intro h z hz
      exact ⟨h z.re ⟨z, hz, Or.inl rfl⟩, h z.im ⟨z, hz, Or.inr rfl⟩⟩

theorem isReproduced_of_isFinite {s : SlotVector} (hfinite : s.isFinite = true)
    (hexact : s.IsExact) : s.IsReproduced := by
  have hall : ∀ x ∈ s.doubles, x.IsReproduced := fun x hx =>
    hexact x hx (isFinite_iff.1 hfinite x hx)
  cases s with
  | real values => exact hall
  | complex values =>
    intro z hz
    exact ⟨hall z.re (List.mem_flatMap.2 ⟨z, hz, by simp⟩),
      hall z.im (List.mem_flatMap.2 ⟨z, hz, by simp⟩)⟩

end SlotVector

/-- What packing gives is finite. -/
theorem Packer.isFinite_of_pack {p : Packer} {v : View} {packed : PackedBatch}
    (h : p.pack v = .ok packed) : packed.slots.isFinite = true := by
  obtain ⟨n, features, s, -, -, -, -, hfinite, rfl⟩ := pack_eq_ok h
  exact Option.isNone_iff_eq_none.2 hfinite

/-! ## Messages -/

/-- The whole numbers of a request are words. -/
structure Request.FitsWords (r : Request) : Prop where
  batchSize : r.batchSize < Written.wordLimit
  packing : ∀ e ∈ r.packing.entries, e.2.FitsWords

namespace ClientMessage

/-- The slots that a message carries. -/
def slots : ClientMessage → List SlotVector
  | execute r => r.tensors.entries.map (·.2)
  | _ => []

/-- The whole numbers of a message fit the words that are meant for them. -/
def FitsWords : ClientMessage → Prop
  | hello version => version < 0x100000000
  | execute r => r.FitsWords
  | _ => True

/-- The numbers of a message are such as a document can hold. -/
structure IsSendable (m : ClientMessage) : Prop where
  words : m.FitsWords
  finite : ∀ s ∈ m.slots, s.isFinite = true

theorem travels_of_isFinite {m : ClientMessage} (hm : m.IsSendable)
    (hexact : ∀ s ∈ m.slots, s.IsExact) : m.Travels := by
  cases m with
  | execute r =>
    obtain ⟨⟨hbatch, hpacking⟩, hfinite⟩ := hm
    refine ⟨hbatch, ?_, hpacking⟩
    intro e he
    have hslots : e.2 ∈ (execute r).slots := List.mem_map_of_mem he
    exact SlotVector.isReproduced_of_isFinite (hfinite _ hslots) (hexact _ hslots)
  | hello version => exact hm.words
  | status id => trivial
  | fetchResult id => trivial
  | goodbye => trivial

end ClientMessage

namespace ServerMessage

/-- The slots that a message carries. -/
def slots : ServerMessage → List SlotVector
  | result r => r.outputs.entries.map (·.2)
  | _ => []

/-- The whole numbers of a message fit the words that are meant for them. -/
def FitsWords : ServerMessage → Prop
  | hello version _ => version < 0x100000000
  | _ => True

/-- The numbers of a message are such as a document can hold. -/
structure IsSendable (m : ServerMessage) : Prop where
  words : m.FitsWords
  finite : ∀ s ∈ m.slots, s.isFinite = true

theorem travels_of_isFinite {m : ServerMessage} (hm : m.IsSendable)
    (hexact : ∀ s ∈ m.slots, s.IsExact) : m.Travels := by
  cases m with
  | result r =>
    intro e he
    have hslots : e.2 ∈ (result r).slots := List.mem_map_of_mem he
    exact SlotVector.isReproduced_of_isFinite (hm.finite _ hslots) (hexact _ hslots)
  | hello version backend => exact hm.words
  | accepted id => trivial
  | status id state reason => trivial
  | error message => trivial

end ServerMessage

/-! ## What was read -/

theorem SlotVector.isFinite_of_ofJson? {setting : Json.Setting} {j : Json} {s : SlotVector}
    (h : ofJson? setting j = some s) : s.isFinite = true := by
  rw [isFinite_iff]
  obtain ⟨fields, -, h⟩ := Option.bind_eq_some_iff.1 h
  split at h
  · obtain ⟨kind, -, h⟩ := Option.bind_eq_some_iff.1 h
    cases kind with
    | real =>
      obtain ⟨values, hvalues, h⟩ := Option.bind_eq_some_iff.1 h
      cases h
      exact Json.forall_of_list? (fun _ _ => Json.isFinite_of_double?) hvalues
    | complex =>
      obtain ⟨values, hvalues, h⟩ := Option.bind_eq_some_iff.1 h
      cases h
      have hall : ∀ z ∈ values, z.re.isFinite = true ∧ z.im.isFinite = true := by
        refine Json.forall_of_list? ?_ hvalues
        intro j z hz
        unfold complexOfJson? at hz
        split at hz
        · obtain ⟨re, hre, hz⟩ := Option.bind_eq_some_iff.1 hz
          obtain ⟨im, him, hz⟩ := Option.bind_eq_some_iff.1 hz
          cases hz
          exact ⟨Json.isFinite_of_double? hre, Json.isFinite_of_double? him⟩
        · cases hz
      intro x hx
      obtain ⟨z, hz, hx⟩ := List.mem_flatMap.1 hx
      rcases List.mem_cons.1 hx with rfl | hx
      · exact (hall z hz).1
      · rw [List.mem_singleton.1 hx]
        exact (hall z hz).2
  · cases h

theorem PackingMeta.fitsWords_of_ofJson? {setting : Json.Setting} {j : Json} {m : PackingMeta}
    (h : ofJson? setting j = some m) : m.FitsWords := by
  obtain ⟨fields, -, h⟩ := Option.bind_eq_some_iff.1 h
  split at h
  · obtain ⟨batchSize, hbatch, h⟩ := Option.bind_eq_some_iff.1 h
    obtain ⟨features, hfeatures, h⟩ := Option.bind_eq_some_iff.1 h
    obtain ⟨order, -, h⟩ := Option.bind_eq_some_iff.1 h
    obtain ⟨factor, -, h⟩ := Option.bind_eq_some_iff.1 h
    cases h
    exact List.forall_mem_cons.2 ⟨Json.lt_of_nat? hbatch,
      Json.forall_of_list? (fun _ _ => Json.lt_of_nat?) hfeatures⟩
  · cases h

/-- A request that was read does not know its configuration, and could be sent on. -/
theorem Request.isSendable_of_ofJson? {setting : Json.Setting} {j : Json} {r : Request}
    (h : ofJson? setting j = some r) : r.config = none ∧ (ClientMessage.execute r).IsSendable := by
  obtain ⟨fields, -, h⟩ := Option.bind_eq_some_iff.1 h
  split at h
  · obtain ⟨batchSize, hbatch, h⟩ := Option.bind_eq_some_iff.1 h
    obtain ⟨tensors, htensors, h⟩ := Option.bind_eq_some_iff.1 h
    obtain ⟨packing, hpacking, h⟩ := Option.bind_eq_some_iff.1 h
    obtain ⟨directives, -, h⟩ := Option.bind_eq_some_iff.1 h
    obtain ⟨parameters, -, h⟩ := Option.bind_eq_some_iff.1 h
    cases h
    have hfinite := Json.forall_of_map? (p := fun s => s.isFinite = true)
      (fun _ _ => SlotVector.isFinite_of_ofJson?) htensors
    refine ⟨rfl, ⟨Json.lt_of_nat? hbatch, ?_⟩, ?_⟩
    · exact Json.forall_of_map? (fun _ _ => PackingMeta.fitsWords_of_ofJson?) hpacking
    · intro s hs
      obtain ⟨e, he, rfl⟩ := List.mem_map.1 hs
      exact hfinite e he
  · cases h

theorem InferenceResult.isFinite_of_ofJson? {setting : Json.Setting} {j : Json}
    {r : InferenceResult} (h : ofJson? setting j = some r) :
    ∀ e ∈ r.outputs.entries, e.2.isFinite = true := by
  obtain ⟨fields, -, h⟩ := Option.bind_eq_some_iff.1 h
  split at h
  · obtain ⟨id, -, h⟩ := Option.bind_eq_some_iff.1 h
    obtain ⟨outputs, houtputs, h⟩ := Option.bind_eq_some_iff.1 h
    cases h
    exact Json.forall_of_map? (fun _ _ => SlotVector.isFinite_of_ofJson?) houtputs
  · cases h

theorem ClientMessage.isSendable_of_ofJson? {j : Json} {m : ClientMessage}
    (h : ofJson? j = some m) : m.received = m ∧ m.IsSendable := by
  obtain ⟨⟨kind, fields⟩, -, h⟩ := Option.bind_eq_some_iff.1 h
  dsimp only at h
  unfold ofFields? at h
  split at h
  · obtain ⟨j, -, h⟩ := Option.bind_eq_some_iff.1 h
    obtain ⟨version, hversion, h⟩ := Option.bind_eq_some_iff.1 h
    cases h
    exact ⟨rfl, Json.lt_of_nat? hversion, List.forall_mem_nil _⟩
  · obtain ⟨j, -, h⟩ := Option.bind_eq_some_iff.1 h
    obtain ⟨r, hr, h⟩ := Option.bind_eq_some_iff.1 h
    cases h
    obtain ⟨hconfig, hsendable⟩ := Request.isSendable_of_ofJson? hr
    exact ⟨by rw [received, ← hconfig], hsendable⟩
  · obtain ⟨j, -, h⟩ := Option.bind_eq_some_iff.1 h
    obtain ⟨id, -, h⟩ := Option.bind_eq_some_iff.1 h
    cases h
    exact ⟨rfl, trivial, List.forall_mem_nil _⟩
  · obtain ⟨j, -, h⟩ := Option.bind_eq_some_iff.1 h
    obtain ⟨id, -, h⟩ := Option.bind_eq_some_iff.1 h
    cases h
    exact ⟨rfl, trivial, List.forall_mem_nil _⟩
  · split at h
    · cases h
    · cases h
      exact ⟨rfl, trivial, List.forall_mem_nil _⟩
  · cases h

theorem ServerMessage.isSendable_of_ofJson? {j : Json} {m : ServerMessage}
    (h : ofJson? j = some m) : m.IsSendable := by
  obtain ⟨⟨kind, fields⟩, -, h⟩ := Option.bind_eq_some_iff.1 h
  dsimp only at h
  unfold ofFields? at h
  split at h
  · obtain ⟨values, -, h⟩ := Option.bind_eq_some_iff.1 h
    split at h
    · obtain ⟨version, hversion, h⟩ := Option.bind_eq_some_iff.1 h
      obtain ⟨backend, -, h⟩ := Option.bind_eq_some_iff.1 h
      cases h
      exact ⟨Json.lt_of_nat? hversion, List.forall_mem_nil _⟩
    · cases h
  · obtain ⟨j, -, h⟩ := Option.bind_eq_some_iff.1 h
    obtain ⟨id, -, h⟩ := Option.bind_eq_some_iff.1 h
    cases h
    exact ⟨trivial, List.forall_mem_nil _⟩
  · obtain ⟨values, -, h⟩ := Option.bind_eq_some_iff.1 h
    split at h
    · obtain ⟨id, -, h⟩ := Option.bind_eq_some_iff.1 h
      obtain ⟨state, -, h⟩ := Option.bind_eq_some_iff.1 h
      obtain ⟨reason, -, h⟩ := Option.bind_eq_some_iff.1 h
      cases h
      exact ⟨trivial, List.forall_mem_nil _⟩
    · cases h
  · obtain ⟨r, hr, h⟩ := Option.bind_eq_some_iff.1 h
    cases h
    refine ⟨trivial, ?_⟩
    intro s hs
    obtain ⟨e, he, rfl⟩ := List.mem_map.1 hs
    exact InferenceResult.isFinite_of_ofJson? hr e he
  · obtain ⟨j, -, h⟩ := Option.bind_eq_some_iff.1 h
    obtain ⟨message, -, h⟩ := Option.bind_eq_some_iff.1 h
    cases h
    exact ⟨trivial, List.forall_mem_nil _⟩
  · cases h

theorem Frame.ofJson?_of_decodeBody {α : Type} {ofJson? : Json → Option α} {body : List UInt8}
    {m : α} (h : decodeBody ofJson? body = .ok m) : ∃ j, ofJson? j = some m := by
  unfold decodeBody at h
  split at h
  · rename_i m' hm
    obtain ⟨j, -, hj⟩ := Option.bind_eq_some_iff.1 hm
    cases h
    exact ⟨j, hj⟩
  · cases h

end EncryptedInference
