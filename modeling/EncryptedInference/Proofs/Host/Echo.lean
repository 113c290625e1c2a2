import EncryptedInference.Proofs.Batch.Rows
import EncryptedInference.Proofs.Exchange.Frames
import EncryptedInference.Proofs.Host.Replies
import EncryptedInference.Proofs.Host.Requests

/-!
# What is sent comes back

A request with packed tensors goes to a server whose engine gives everything back.  It is accepted
(`Server.handle_execute`), its job ends with the tensors as outputs (`Server.handle_fetchResult`),
and the result that comes over the wire is laid out as the batch was.
-/

namespace EncryptedInference

/-! ## On the server -/

theorem Job.ofOutcome_outputs {outputs : NameMap SlotVector}
    (h : ∀ e ∈ outputs.entries, e.2.firstNonFinite? = none) (task : Nat) :
    ofOutcome task (.outputs outputs) = completed outputs := by
  have hfinite : nonFiniteOutput? outputs = none := by
    apply List.findSome?_eq_none_iff.2
    intro e he
    show (e.2.firstNonFinite?.map fun i => (e.1, i)) = none
    rw [h e he, Option.map_none]
  simp only [ofOutcome, EngineOutcome.result, hfinite]

namespace Server

variable {host : Host} {s : Server} {r : Request} {id : String}

/-- A request that passes the check becomes a queued job. -/
theorem handle_execute (h : checkRequest host.files r = .ok ()) : s.handle host (.execute r) =
    (some (.accepted (host.requestName s.accepted)), s.accept host r) := by
  simp only [handle, submit, h, accept]

/-- The task of a job runs from beginning to end; the computation has the given number. -/
def runTask (host : Host) (s : Server) (id : String) (task : Nat) : Server :=
  (s.start id).finish host id task

theorem get?_runTask (h : s.jobs.get? id = some (.queued r)) (task : Nat) :
    (s.runTask host id task).jobs.get? id = some (.ofOutcome task (host.engine.evaluate r)) := by
  rw [runTask, finish, get?_updateJob, if_pos rfl, start, get?_updateJob, if_pos rfl, h]
  rfl

theorem handle_fetchResult {outputs : NameMap SlotVector}
    (h : s.jobs.get? id = some (.completed outputs)) :
    s.handle host (.fetchResult id) = (some (.result ⟨id, outputs⟩), s.drop id) := by
  simp only [handle, fetch, h, drop]

end Server

/-! ## Over the wire -/

/-- The outputs of an accepted request come back as the engine gave them. -/
theorem Link.call_execute_fetchResult {host : Host} {l : Link} {v : Visit} {r : Request}
    {outputs : NameMap SlotVector} (hvisit : l.visit = some v) (hr : r.Travels)
    (hcheck : checkRequest host.files { r with config := none } = .ok ())
    (hevaluate : host.engine.evaluate { r with config := none } = .outputs outputs)
    (hfinite : ∀ e ∈ outputs.entries, e.2.firstNonFinite? = none)
    (houtputs : ∀ e ∈ outputs.entries, e.2.IsReproduced) {id : String}
    (hid : id = host.requestName l.server.accepted)
    (hexecute : (ClientMessage.execute r).body.length ≤ Frame.maxBody)
    (haccepted : (ServerMessage.accepted id).body.length ≤ Frame.maxBody)
    (hfetch : (ClientMessage.fetchResult id).body.length ≤ Frame.maxBody)
    (hresult : (ServerMessage.result ⟨id, outputs⟩).body.length ≤ Frame.maxBody) (task : Nat) :
    ∃ l₁ l₂, call host (fun s => s) l (.execute r) = (.ok (.accepted id), l₁) ∧
      call host (fun s => s.runTask host id task) l₁ (.fetchResult id) =
        (.ok (.result ⟨id, outputs⟩), l₂) := by
  subst hid
  have hsubmitted : call host (fun s => s) l (.execute r) =
      (.ok (.accepted (host.requestName l.server.accepted)),
        ⟨l.server.accept host { r with config := none },
          some (v.noted (.accepted (host.requestName l.server.accepted)))⟩) :=
    call_of_travels hvisit hr hexecute (Server.handle_execute hcheck) trivial haccepted
  have hqueued := Server.get?_accept host l.server { r with config := none }
    (host.requestName l.server.accepted)
  rw [if_pos rfl] at hqueued
  have hjob : ((l.server.accept host { r with config := none }).runTask host
      (host.requestName l.server.accepted) task).jobs.get? (host.requestName l.server.accepted) =
        some (.completed outputs) := by
    rw [Server.get?_runTask hqueued, hevaluate, Job.ofOutcome_outputs hfinite]
  exact ⟨_, _, hsubmitted,
    call_of_travels rfl trivial hfetch (Server.handle_fetchResult hjob) houtputs hresult⟩

/-- The rows of the result are the examples, their features listed in the order that was resolved on
the batch; a batch with one feature axis comes back as it is.  Step by step the same rows are laid
out.  The batch is packed as the configuration asks, the numbers of the request are such as travel,
and no frame is too long. -/
theorem Link.unpackOutput_echo {files : FileSystem} {settings : Settings} {config : Config}
    (hbuild : settings.build files = .ok config) (hscale : config.parameters.scale.IsReproduced)
    {order : ElementOrder} {v : View} {packed : PackedBatch}
    (hpack : (⟨order, config.packingFactor⟩ : Packer).pack v = .ok packed)
    (hfeatures : packed.info.elements ≠ 0) {n : Nat} {name : String} {request : Request}
    (hrequest : (Request.create n config).withTensor name packed = .ok request)
    (htravels : request.Travels) {host : Host} (hengine : host.engine = .echo) {l : Link}
    {visit : Visit} (hvisit : l.visit = some visit) {id : String}
    (hid : id = host.requestName l.server.accepted)
    (hexecute : (ClientMessage.execute request).body.length ≤ Frame.maxBody)
    (haccepted : (ServerMessage.accepted id).body.length ≤ Frame.maxBody)
    (hfetch : (ClientMessage.fetchResult id).body.length ≤ Frame.maxBody)
    (hresult : (ServerMessage.result ⟨id, request.tensors⟩).body.length ≤ Frame.maxBody)
    (task : Nat) :
    ∃ l₁ l₂ result u m,
      Link.call host (fun s => s) l (.execute request) = (.ok (.accepted id), l₁) ∧
      Link.call host (fun s => s.runTask host id task) l₁ (.fetchResult id) =
        (.ok (.result result), l₂) ∧
      Unpacker.ofMeta packed.info packed.info.elements = .ok u ∧
      u.unpackOutput result.outputs name = .ok m ∧
      (elementCount v.shape ≤ maxElements → u.assembleOutput result.outputs name = .ok m) ∧
      m.rows = n ∧ m.cols = packed.info.elements ∧
      m.toRows = (List.range n).map
        (fun (b : Nat) => (v.select 0 b).flatten (v.resolveOrder order)) ∧
      ∀ k, v.shape = [n, k] → ∀ i < n, ∀ j < k, m.get i j = v.get [i, j] := by
  obtain ⟨n', features, slots, hshape, hn, hdiv, hslots, hfinite, rfl⟩ := Packer.pack_eq_ok hpack
  obtain rfl : n' = n := Request.batchSize_of_withTensor hrequest
  have htensors : request.tensors = NameMap.empty.insert name slots := by
    rw [(Request.withTensor_eq_ok.1 hrequest).2]
    rfl
  have hget : request.tensors.get? name = some slots := by
    rw [htensors, NameMap.get?_insert, if_pos rfl]
  have hallfinite : ∀ e ∈ request.tensors.entries, e.2.firstNonFinite? = none := by
    rw [htensors]
    exact NameMap.forall_insert (p := fun s : SlotVector => s.firstNonFinite? = none)
      (by simp [NameMap.empty]) name hfinite
  have hcheck := checkRequest_of_isFor (Config.isSettled_of_build hbuild) hscale
    ((Request.isFor_create _ _).withTensor hrequest) (Request.validate_of_withTensor hrequest hn)
    host.files
  have hevaluate : host.engine.evaluate { request with config := none } =
      .outputs request.tensors := by
    rw [hengine]
    rfl
  obtain ⟨l₁, l₂, hsubmitted, hcollected⟩ := Link.call_execute_fetchResult hvisit htravels hcheck
    hevaluate hallfinite htravels.tensors hid hexecute haccepted hfetch hresult task
  have horder := View.resolveOrder_ne_native v order
  let u : Unpacker := ⟨n', elementCount features, v.resolveOrder order, config.packingFactor⟩
  have hu : Unpacker.ofMeta ⟨n', features, v.resolveOrder order, config.packingFactor⟩
      (elementCount features) = .ok u := Unpacker.ofMeta_eq hn hdiv horder hfeatures
  have hunpack : u.unpackOutput request.tensors name =
      .ok (Matrix.ofExamples n' features (v.resolveOrder order) v) := by
    simp only [Unpacker.unpackOutput, hget]
    exact Unpacker.unpack_slots hshape hdiv horder hslots
  refine ⟨l₁, l₂, ⟨id, request.tensors⟩, u, Matrix.ofExamples n' features (v.resolveOrder order) v,
    hsubmitted, hcollected, hu, hunpack, ?_, rfl, rfl, Matrix.toRows_ofExamples hshape _, ?_⟩
  · intro hmax
    have hvalues : ∀ s, request.tensors.get? name = some s → s.valueCount ≤ maxElements := by
      intro s hs
      obtain rfl := Option.some.inj (hget.symm.trans hs)
      exact Nat.le_trans (Nat.le_of_eq (Unpacker.valueCount_of_pack hpack)) hmax
    rw [Unpacker.assembleOutput_eq hu hvalues, hunpack]
    rfl
  · intro k hk i hi j hj
    rw [hshape] at hk
    obtain ⟨-, rfl⟩ := List.cons.inj hk
    exact Matrix.get_ofExamples hshape _ hi hj

/-! ## A run -/

/-- The configuration without any settings. -/
def Config.standard : Config where
  backend := schemeName
  deviceId := ""
  source := .default
  parameters := .standard
  enableClient := false
  encryptServerData := false
  packData := false
  complexPacking := false
  resultLayout := .batchByClass
  directives := .empty

/-- Two examples with two features each, packed feature by feature. -/
def PackedBatch.square : PackedBatch :=
  ⟨.real [.ofNat 1, .ofNat 3, .ofNat 2, .ofNat 4], ⟨2, [2], .columnMajor, .one⟩⟩

/-- The request with this batch. -/
def Request.square : Request :=
  { create 2 .standard with
    tensors := NameMap.empty.insert "x" PackedBatch.square.slots
    packing := NameMap.empty.insert "x" PackedBatch.square.info
    directives := NameMap.empty.insert "x" .plain }

theorem Request.travels_square : Request.square.Travels where
  batchSize := by decide
  tensors := by
    have hvalues : ∀ x ∈ [Double.ofNat 1, .ofNat 3, .ofNat 2, .ofNat 4], x.IsReproduced := by
      unfold Double.IsReproduced
      decide +kernel
    exact List.forall_mem_singleton.2 hvalues
  packing := by
    have hwords : ∀ n ∈ [2, 2], n < Written.wordLimit := by decide
    exact List.forall_mem_singleton.2 hwords

/-- The square comes back row by row. -/
theorem Link.unpackOutput_square :
    ∃ (l₁ l₂ : Link) (result : InferenceResult) (u : Unpacker) (m : Matrix),
      Link.call .tally (fun s => s) .initial (.execute .square) = (.ok (.accepted "I"), l₁) ∧
      Link.call .tally (fun s => s.runTask .tally "I" 7) l₁ (.fetchResult "I") =
        (.ok (.result result), l₂) ∧
      u.unpackOutput result.outputs "x" = .ok m ∧ u.assembleOutput result.outputs "x" = .ok m ∧
      m.toRows = [[.ofNat 1, .ofNat 2], [.ofNat 3, .ofNat 4]] := by
  have hbuild : Settings.initial.build (fun _ => .error .notFound) = .ok .standard := rfl
  have hpack : (⟨.columnMajor, Config.standard.packingFactor⟩ : Packer).pack
      (View.ofRowMajor [2, 2] [.ofNat 1, .ofNat 2, .ofNat 3, .ofNat 4]) = .ok .square := rfl
  have hrequest : (Request.create 2 .standard).withTensor "x" .square = .ok .square := rfl
  have hengine : Host.tally.engine = .echo := rfl
  have hvisit : Link.initial.visit = some .initial := rfl
  have hid : "I" = Host.tally.requestName Link.initial.server.accepted := rfl
  obtain ⟨l₁, l₂, result, u, m, hsubmitted, hcollected, -, hunpack, hstepwise, -, -, hrows, -⟩ :=
    Link.unpackOutput_echo hbuild rfl hpack (by decide) hrequest Request.travels_square hengine
      hvisit hid (by decide +kernel) (by decide +kernel) (by decide +kernel) (by decide +kernel) 7
  exact ⟨l₁, l₂, result, u, m, hsubmitted, hcollected, hunpack, hstepwise (by decide), hrows⟩

end EncryptedInference
