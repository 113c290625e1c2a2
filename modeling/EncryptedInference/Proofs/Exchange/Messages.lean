import EncryptedInference.Exchange.Message
import EncryptedInference.Proofs.Json.Values

/-!
# Messages are read back

The document of a message is read as that message, except that a request leaves its configuration
behind: `ClientMessage.ofJson?_toJson`, `ServerMessage.ofJson?_toJson`.  It has to be fit to travel:
its whole numbers are words, and its doubles are reproduced by their digits.
-/

namespace EncryptedInference

/-! ## Names -/

theorem LaneKind.ofJson?_text (setting : Json.Setting) (inList : Bool) (k : LaneKind) :
    ofJson? setting inList (.text k.toText) = some k := by
  cases inList <;> cases k <;> rfl

theorem ElementOrder.ofJson?_toJson (setting : Json.Setting) (o : ElementOrder) :
    ofJson? setting o.toJson = some o := by
  cases o <;> rfl

theorem Directive.ofText?_toText (d : Directive) : ofText? d.toText = some d := by
  cases d <;> rfl

theorem Directive.ofJson?_toJson (setting : Json.Setting) (d : Directive) :
    ofJson? setting d.toJson = some d :=
  ofText?_toText d

theorem PackingFactor.value_lt (f : PackingFactor) : f.value < Written.wordLimit := by
  cases f <;> decide

theorem PackingFactor.ofJson?_toJson (f : PackingFactor) : ofJson? f.toJson = some f := by
  rw [ofJson?, toJson, Json.size?_nat f.value_lt]
  cases f <;> rfl

/-! ## Slots -/

namespace SlotVector

/-- Every double in the slots is reproduced by its digits. -/
def IsReproduced : SlotVector → Prop
  | real values => ∀ x ∈ values, x.IsReproduced
  | complex values => ∀ z ∈ values, z.re.IsReproduced ∧ z.im.IsReproduced

theorem ofJson?_lanes (setting : Json.Setting) (k : LaneKind) (values : List Json) :
    ofJson? setting (.ofFields [("lanes", .text k.toText), ("values", .array values)]) =
      match k with
      | .real => ((Json.array values).list? Json.double?).map real
      | .complex => ((Json.array values).list? complexOfJson?).map complex := by
  unfold ofJson?
  rw [Json.record?_ofFields (by simp)]
  show ((LaneKind.ofJson? setting false (.text k.toText)).bind fun _ => _) = _
  rw [LaneKind.ofJson?_text]
  cases k <;> exact bind_pure_comp _ _

theorem ofJson?_toJson (setting : Json.Setting) {s : SlotVector} (h : s.IsReproduced) :
    ofJson? setting s.toJson = some s := by
  cases s with
  | real values =>
    have hlist : (Json.array (values.map Json.double)).list? Json.double? = some values :=
      Json.list?_array h
    rw [toJson, kind, ofJson?_lanes, hlist]
    rfl
  | complex values =>
    have hlist : (Json.array (values.map fun z => .array [.double z.re, .double z.im])).list?
        complexOfJson? = some values := by
      apply Json.list?_array
      intro z hz
      obtain ⟨hre, him⟩ := h z hz
      unfold Double.IsReproduced at hre him
      simp [complexOfJson?, hre, him]
    rw [toJson, kind, ofJson?_lanes, hlist]
    rfl

theorem isWritten_toJson (s : SlotVector) : s.toJson.IsWritten := by
  have hvalues : ∀ values : List Json, (∀ j ∈ values, j.IsWritten) →
      (Json.ofFields [("lanes", .text s.kind.toText), ("values", .array values)]).IsWritten := by
    intro values hj
    apply Json.isWritten_ofFields
    simpa using ⟨rfl, Json.isWritten_array hj⟩
  cases s with
  | real values =>
    apply hvalues
    intro j hj
    obtain ⟨x, -, rfl⟩ := List.mem_map.1 hj
    exact Json.isWritten_double x
  | complex values =>
    apply hvalues
    intro j hj
    obtain ⟨z, -, rfl⟩ := List.mem_map.1 hj
    apply Json.isWritten_array
    simp [Json.isWritten_double]

theorem isSound_toJson {depth : Nat} {s : SlotVector} (h : s.IsReproduced) :
    Json.isSound (depth + 3) s.toJson = true := by
  have hvalues : ∀ values : List Json, (∀ j ∈ values, Json.isSound (depth + 1) j = true) →
      Json.isSound (depth + 3)
        (.ofFields [("lanes", .text s.kind.toText), ("values", .array values)]) = true := by
    intro values hj
    apply Json.isSound_ofFields
    simpa using ⟨Json.isSound_text _ _, Json.isSound_array hj⟩
  cases s with
  | real values =>
    apply hvalues
    intro j hj
    obtain ⟨x, hx, rfl⟩ := List.mem_map.1 hj
    exact Json.isSound_double _ (h x hx)
  | complex values =>
    apply hvalues
    intro j hj
    obtain ⟨z, hz, rfl⟩ := List.mem_map.1 hj
    obtain ⟨hre, him⟩ := h z hz
    apply Json.isSound_array
    simpa using ⟨Json.isSound_double _ hre, Json.isSound_double _ him⟩

end SlotVector

/-! ## Requests and results -/

namespace PackingMeta

/-- The batch size and the axes are words. -/
def FitsWords (m : PackingMeta) : Prop := ∀ n ∈ m.batchShape, n < Written.wordLimit

theorem ofJson?_toJson (setting : Json.Setting) {m : PackingMeta} (h : m.FitsWords) :
    ofJson? setting m.toJson = some m := by
  obtain ⟨hbatch, hfeatures⟩ := List.forall_mem_cons.1 h
  have hlist : (Json.array (m.featureShape.map .nat)).list? Json.size? = some m.featureShape :=
    Json.list?_array fun n hn => Json.size?_nat (hfeatures n hn)
  unfold ofJson? toJson
  rw [Json.record?_ofFields (by simp)]
  show ((Json.nat m.batchSize).size?.bind fun _ => _) = _
  simp only [Json.size?_nat hbatch, hlist, ElementOrder.ofJson?_toJson,
    PackingFactor.ofJson?_toJson, bind, Option.bind, pure]

theorem isWritten_toJson (m : PackingMeta) : m.toJson.IsWritten := by
  have hshape : (Json.array (m.featureShape.map .nat)).IsWritten := by
    apply Json.isWritten_array
    intro j hj
    obtain ⟨n, -, rfl⟩ := List.mem_map.1 hj
    exact Json.isWritten_nat n
  apply Json.isWritten_ofFields
  simpa using ⟨Json.isWritten_nat _, hshape, rfl, Json.isWritten_nat _⟩

theorem isSound_toJson {depth : Nat} {m : PackingMeta} (h : m.FitsWords) :
    Json.isSound (depth + 2) m.toJson = true := by
  obtain ⟨hbatch, hfeatures⟩ := List.forall_mem_cons.1 h
  have hshape : Json.isSound (depth + 1) (.array (m.featureShape.map .nat)) = true := by
    apply Json.isSound_array
    intro j hj
    obtain ⟨n, hn, rfl⟩ := List.mem_map.1 hj
    exact Json.isSound_nat _ (hfeatures n hn)
  apply Json.isSound_ofFields
  simpa using ⟨Json.isSound_nat _ hbatch, hshape, rfl, Json.isSound_nat _ m.factor.value_lt⟩

end PackingMeta

namespace Request

/-- The numbers of a request are such as arrive as they are. -/
structure Travels (r : Request) : Prop where
  batchSize : r.batchSize < Written.wordLimit
  tensors : ∀ e ∈ r.tensors.entries, e.2.IsReproduced
  packing : ∀ e ∈ r.packing.entries, e.2.FitsWords

theorem ofJson?_toJson (setting : Json.Setting) {r : Request} (h : r.Travels) :
    ofJson? setting r.toJson = some { r with config := none } := by
  have htensors : (r.tensors.toJson SlotVector.toJson).map? (SlotVector.ofJson? setting) =
      some r.tensors := by
    apply NameMap.map?_toJson
    intro e he
    exact SlotVector.ofJson?_toJson setting (h.tensors e he)
  have hpacking : (r.packing.toJson PackingMeta.toJson).map? (PackingMeta.ofJson? setting) =
      some r.packing := by
    apply NameMap.map?_toJson
    intro e he
    exact PackingMeta.ofJson?_toJson setting (h.packing e he)
  have hdirectives : (r.directives.toJson Directive.toJson).map? (Directive.ofJson? setting) =
      some r.directives := by
    apply NameMap.map?_toJson
    intro e _
    exact Directive.ofJson?_toJson setting e.2
  have hparameters : (r.parameters.toJson Json.text).map? Json.text? = some r.parameters :=
    NameMap.map?_toJson fun _ _ => rfl
  unfold ofJson? toJson
  rw [Json.record?_ofFields (by simp)]
  show ((Json.nat r.batchSize).size?.bind fun _ => _) = _
  simp only [Json.size?_nat h.batchSize, htensors, hpacking, hdirectives, hparameters, bind,
    Option.bind, pure]

theorem isWritten_toJson (r : Request) : r.toJson.IsWritten := by
  have htensors : (r.tensors.toJson SlotVector.toJson).IsWritten :=
    NameMap.isWritten_toJson fun e _ => e.2.isWritten_toJson
  have hpacking : (r.packing.toJson PackingMeta.toJson).IsWritten :=
    NameMap.isWritten_toJson fun e _ => e.2.isWritten_toJson
  have hdirectives : (r.directives.toJson Directive.toJson).IsWritten :=
    NameMap.isWritten_toJson fun _ _ => rfl
  have hparameters : (r.parameters.toJson Json.text).IsWritten :=
    NameMap.isWritten_toJson fun _ _ => rfl
  apply Json.isWritten_ofFields
  simpa using ⟨Json.isWritten_nat _, htensors, hpacking, hdirectives, hparameters⟩

theorem isSound_toJson {depth : Nat} {r : Request} (h : r.Travels) :
    Json.isSound (depth + 5) r.toJson = true := by
  have htensors : Json.isSound (depth + 4) (r.tensors.toJson SlotVector.toJson) = true :=
    NameMap.isSound_toJson fun e he => SlotVector.isSound_toJson (h.tensors e he)
  have hpacking : Json.isSound (depth + 4) (r.packing.toJson PackingMeta.toJson) = true :=
    NameMap.isSound_toJson fun e he => PackingMeta.isSound_toJson (h.packing e he)
  have hdirectives : Json.isSound (depth + 4) (r.directives.toJson Directive.toJson) = true :=
    NameMap.isSound_toJson fun _ _ => rfl
  have hparameters : Json.isSound (depth + 4) (r.parameters.toJson Json.text) = true :=
    NameMap.isSound_toJson fun _ _ => rfl
  apply Json.isSound_ofFields
  simpa using ⟨Json.isSound_nat _ h.batchSize, htensors, hpacking, hdirectives, hparameters⟩

end Request

namespace InferenceResult

theorem ofJson?_toJson (setting : Json.Setting) {r : InferenceResult}
    (h : ∀ e ∈ r.outputs.entries, e.2.IsReproduced) : ofJson? setting r.toJson = some r := by
  have houtputs : (r.outputs.toJson SlotVector.toJson).map? (SlotVector.ofJson? setting) =
      some r.outputs := NameMap.map?_toJson fun e he => SlotVector.ofJson?_toJson setting (h e he)
  unfold ofJson? toJson fields
  rw [Json.record?_ofFields (by simp)]
  show (((r.outputs.toJson SlotVector.toJson).map? _).bind fun _ => _) = _
  rw [houtputs]
  rfl

end InferenceResult

/-! ## Messages -/

theorem soleField?_singleton (name : String) (j : Json) :
    soleField? name (.ofFields [(name, j)]) = some j := by
  unfold soleField?
  rw [Json.record?_ofFields (by simp)]
  simp

namespace ClientMessage

/-- The numbers of a message are such as arrive as they are. -/
def Travels : ClientMessage → Prop
  | hello version => version < 0x100000000
  | execute request => request.Travels
  | _ => True

/-- The message without what does not travel. -/
def received : ClientMessage → ClientMessage
  | execute request => execute { request with config := none }
  | m => m

theorem isWritten_toJson (m : ClientMessage) : m.toJson.IsWritten := by
  refine Json.isWritten_ofFields (List.forall_mem_cons.2 ⟨rfl, ?_⟩)
  cases m with
  | hello version => exact List.forall_mem_singleton.2 (Json.isWritten_nat version)
  | execute request => exact List.forall_mem_singleton.2 request.isWritten_toJson
  | status id => exact List.forall_mem_singleton.2 rfl
  | fetchResult id => exact List.forall_mem_singleton.2 rfl
  | goodbye => exact List.forall_mem_nil _

theorem isSound_toJson {m : ClientMessage} (h : m.Travels) :
    Json.isSound Json.maxDepth m.toJson = true := by
  refine @Json.isSound_ofFields 126 _ (List.forall_mem_cons.2 ⟨rfl, ?_⟩)
  cases m with
  | hello version =>
    exact List.forall_mem_singleton.2 (Json.isSound_nat _ (Nat.lt_trans h (by decide)))
  | execute request => exact List.forall_mem_singleton.2 (Request.isSound_toJson h)
  | status id => exact List.forall_mem_singleton.2 rfl
  | fetchResult id => exact List.forall_mem_singleton.2 rfl
  | goodbye => exact List.forall_mem_nil _

theorem tagged?_toJson (m : ClientMessage) : m.toJson.tagged? "type" =
    if Json.isSound Json.maxDepth m.toJson then some (m.kind, .ofFields m.fields) else none :=
  Json.tagged?_taggedRecord (by cases m <;> simp [fields])

/-- A message that travels is read back. -/
theorem ofJson?_toJson {m : ClientMessage} (h : m.Travels) :
    ofJson? m.toJson = some m.received := by
  rw [ofJson?, tagged?_toJson, if_pos (isSound_toJson h)]
  show ofFields? m.kind (.ofFields m.fields) = _
  cases m with
  | hello version =>
    have hversion : EncryptionParameters.word? (.nat version) = some version :=
      Json.nat?_nat h (by decide)
    simp only [ofFields?, kind, fields, soleField?_singleton, hversion, bind, Option.bind, pure,
      received]
  | execute request =>
    simp only [ofFields?, kind, fields, soleField?_singleton, Request.ofJson?_toJson _ h, bind,
      Option.bind, pure, received]
  | status id =>
    simp [ofFields?, kind, fields, soleField?_singleton, Json.text, Json.text?, received]
  | fetchResult id =>
    simp [ofFields?, kind, fields, soleField?_singleton, Json.text, Json.text?, received]
  | goodbye => rfl

theorem kind_of_ofFields? {kind : String} {j : Json} {m : ClientMessage}
    (h : ofFields? kind j = some m) : m.kind = kind := by
  unfold ofFields? at h
  split at h
  · obtain ⟨_, -, h⟩ := Option.bind_eq_some_iff.1 h
    obtain ⟨_, -, h⟩ := Option.bind_eq_some_iff.1 h
    cases h
    rfl
  · obtain ⟨_, -, h⟩ := Option.bind_eq_some_iff.1 h
    obtain ⟨_, -, h⟩ := Option.bind_eq_some_iff.1 h
    cases h
    rfl
  · obtain ⟨_, -, h⟩ := Option.bind_eq_some_iff.1 h
    obtain ⟨_, -, h⟩ := Option.bind_eq_some_iff.1 h
    cases h
    rfl
  · obtain ⟨_, -, h⟩ := Option.bind_eq_some_iff.1 h
    obtain ⟨_, -, h⟩ := Option.bind_eq_some_iff.1 h
    cases h
    rfl
  · split at h
    · cases h
    · cases h
      rfl
  · cases h

/-- Whatever a message is read back as, it is of the same kind. -/
theorem kind_of_ofJson?_toJson {m m' : ClientMessage} (h : ofJson? m.toJson = some m') :
    m'.kind = m.kind := by
  rw [ofJson?, tagged?_toJson] at h
  split_ifs at h
  · exact kind_of_ofFields? h
  · cases h

end ClientMessage

namespace ServerMessage

/-- The numbers of a message are such as arrive as they are. -/
def Travels : ServerMessage → Prop
  | hello version _ => version < 0x100000000
  | result r => ∀ e ∈ r.outputs.entries, e.2.IsReproduced
  | _ => True

theorem isWritten_toJson (m : ServerMessage) : m.toJson.IsWritten := by
  refine Json.isWritten_ofFields (List.forall_mem_cons.2 ⟨rfl, ?_⟩)
  cases m with
  | hello version backend =>
    exact List.forall_mem_cons.2 ⟨Json.isWritten_nat version, List.forall_mem_singleton.2 rfl⟩
  | accepted id => exact List.forall_mem_singleton.2 rfl
  | status id state reason =>
    cases reason <;> simp [fields, JobState.toJson, Json.text, Json.IsWritten]
  | result r =>
    have houtputs : (r.outputs.toJson SlotVector.toJson).IsWritten :=
      NameMap.isWritten_toJson fun e _ => e.2.isWritten_toJson
    exact List.forall_mem_cons.2 ⟨rfl, List.forall_mem_singleton.2 houtputs⟩
  | error message => exact List.forall_mem_singleton.2 rfl

theorem isSound_toJson {m : ServerMessage} (h : m.Travels) :
    Json.isSound Json.maxDepth m.toJson = true := by
  refine @Json.isSound_ofFields 126 _ (List.forall_mem_cons.2 ⟨rfl, ?_⟩)
  cases m with
  | hello version backend =>
    exact List.forall_mem_cons.2 ⟨Json.isSound_nat _ (Nat.lt_trans h (by decide)),
      List.forall_mem_singleton.2 rfl⟩
  | accepted id => exact List.forall_mem_singleton.2 rfl
  | status id state reason => cases reason <;> simp [fields, JobState.toJson, Json.isSound_text]
  | result r =>
    have houtputs : Json.isSound 126 (r.outputs.toJson SlotVector.toJson) = true :=
      NameMap.isSound_toJson fun e he => SlotVector.isSound_toJson (h e he)
    exact List.forall_mem_cons.2 ⟨rfl, List.forall_mem_singleton.2 houtputs⟩
  | error message => exact List.forall_mem_singleton.2 rfl

theorem tagged?_toJson (m : ServerMessage) : m.toJson.tagged? "type" =
    if Json.isSound Json.maxDepth m.toJson then some (m.kind, .ofFields m.fields) else none :=
  Json.tagged?_taggedRecord (by
    cases m with
    | status id state reason => cases reason <;> simp [fields]
    | _ => simp [fields, InferenceResult.fields])

/-- A message that travels is read back. -/
theorem ofJson?_toJson {m : ServerMessage} (h : m.Travels) : ofJson? m.toJson = some m := by
  rw [ofJson?, tagged?_toJson, if_pos (isSound_toJson h)]
  show ofFields? m.kind (.ofFields m.fields) = _
  cases m with
  | hello version backend =>
    have hversion : EncryptionParameters.word? (.nat version) = some version :=
      Json.nat?_nat h (by decide)
    simp only [ofFields?, kind]
    rw [Json.record?_ofFields (by simp [fields])]
    simp [fields, NameMap.lookup_entry_cons, hversion, Json.text, Json.text?]
  | accepted id => simp [ofFields?, kind, fields, soleField?_singleton, Json.text, Json.text?]
  | status id state reason =>
    show ((Json.record? ["request_id", "state", "error"] (.ofFields _)).bind fun _ => _) = _
    rw [Json.record?_ofFields (by cases reason <;> simp [fields])]
    cases reason <;> cases state <;> rfl
  | result r =>
    show ((InferenceResult.ofJson? .withinTagged r.toJson).bind fun _ => _) = _
    rw [InferenceResult.ofJson?_toJson _ h]
    rfl
  | error message => simp [ofFields?, kind, fields, soleField?_singleton, Json.text, Json.text?]

theorem kind_of_ofFields? {kind : String} {j : Json} {m : ServerMessage}
    (h : ofFields? kind j = some m) : m.kind = kind := by
  unfold ofFields? at h
  split at h
  · obtain ⟨_, -, h⟩ := Option.bind_eq_some_iff.1 h
    split at h
    · obtain ⟨_, -, h⟩ := Option.bind_eq_some_iff.1 h
      obtain ⟨_, -, h⟩ := Option.bind_eq_some_iff.1 h
      cases h
      rfl
    · cases h
  · obtain ⟨_, -, h⟩ := Option.bind_eq_some_iff.1 h
    obtain ⟨_, -, h⟩ := Option.bind_eq_some_iff.1 h
    cases h
    rfl
  · obtain ⟨_, -, h⟩ := Option.bind_eq_some_iff.1 h
    split at h
    · obtain ⟨_, -, h⟩ := Option.bind_eq_some_iff.1 h
      obtain ⟨_, -, h⟩ := Option.bind_eq_some_iff.1 h
      obtain ⟨_, -, h⟩ := Option.bind_eq_some_iff.1 h
      cases h
      rfl
    · cases h
  · obtain ⟨_, -, h⟩ := Option.bind_eq_some_iff.1 h
    cases h
    rfl
  · obtain ⟨_, -, h⟩ := Option.bind_eq_some_iff.1 h
    obtain ⟨_, -, h⟩ := Option.bind_eq_some_iff.1 h
    cases h
    rfl
  · cases h

/-- Whatever a message is read back as, it is of the same kind. -/
theorem kind_of_ofJson?_toJson {m m' : ServerMessage} (h : ofJson? m.toJson = some m') :
    m'.kind = m.kind := by
  rw [ofJson?, tagged?_toJson] at h
  split_ifs at h
  · exact kind_of_ofFields? h
  · cases h

end ServerMessage

end EncryptedInference
