import EncryptedInference.Proofs.Exchange.Traffic
import EncryptedInference.Proofs.Host.Delivery
import EncryptedInference.Proofs.Host.Echo

/-!
# Admission

Which requests a server accepts.  A request that a client builds from a configuration, whatever
tensors it adds and under whatever names (`Request.withTensors`), travels and passes the check, so
it is accepted when it has come over the wire.  Of any request that is accepted, the directives that
it lists are those of its parameter map.  The server does not ask the other way round: the two may
differ on tensors that the request does not list, though not if the request was built
(`Request.directive_of_withTensors`).
-/

namespace EncryptedInference

/-! ## Packed batches -/

/-- The numbers of a packed batch are such as arrive as they are. -/
structure PackedBatch.Travels (packed : PackedBatch) : Prop where
  slots : packed.slots.IsReproduced
  info : packed.info.FitsWords

namespace Packer

variable {p : Packer} {v : View} {packed : PackedBatch}

theorem batchSize_ne_zero_of_pack (h : p.pack v = .ok packed) : packed.info.batchSize ≠ 0 := by
  obtain ⟨n, features, s, -, hn, -, -, -, rfl⟩ := pack_eq_ok h
  exact hn

theorem travels_of_pack (h : p.pack v = .ok packed) (hshape : ∀ k ∈ v.shape, k < Written.wordLimit)
    (hexact : packed.slots.IsExact) : packed.Travels := by
  refine ⟨SlotVector.isReproduced_of_isFinite (isFinite_of_pack h) hexact, ?_⟩
  obtain ⟨n, features, s, hv, -, -, -, -, rfl⟩ := pack_eq_ok h
  intro k hk
  exact hshape k (hv ▸ hk)

end Packer

/-! ## Requests with many tensors -/

namespace Request

/-- The request with more tensors, added one after the other. -/
def withTensors (r : Request) (tensors : List (String × PackedBatch)) :
    Except RequestError Request :=
  tensors.foldlM (fun r t => r.withTensor t.1 t.2) r

variable {c : Config} {r r' : Request} {name : String} {packed : PackedBatch}
  {t : String × PackedBatch} {tensors : List (String × PackedBatch)}

theorem withTensors_cons (h : r.withTensors (t :: tensors) = .ok r') :
    ∃ r₁, r.withTensor t.1 t.2 = .ok r₁ ∧ r₁.withTensors tensors = .ok r' := by
  unfold withTensors at h
  rw [List.foldlM_cons] at h
  cases hfirst : r.withTensor t.1 t.2 with
  | error e =>
    rw [hfirst] at h
    cases h
  | ok r₁ =>
    rw [hfirst] at h
    exact ⟨r₁, rfl, h⟩

/-- What each tensor that is added keeps is kept. -/
theorem withTensors_induction {motive : Request → Prop}
    (hstep : ∀ t ∈ tensors, ∀ r r', motive r → r.withTensor t.1 t.2 = .ok r' → motive r')
    (h : r.withTensors tensors = .ok r') (hr : motive r) : motive r' := by
  induction tensors generalizing r with
  | nil =>
    cases h
    exact hr
  | cons t tensors ih =>
    obtain ⟨hhead, htail⟩ := List.forall_mem_cons.1 hstep
    obtain ⟨r₁, hfirst, hrest⟩ := withTensors_cons h
    exact ih htail hrest (hhead r r₁ hr hfirst)

theorem IsFor.withTensors (hr : r.IsFor c) (h : r.withTensors tensors = .ok r') : r'.IsFor c :=
  withTensors_induction (fun _ _ _ _ hr hstep => hr.withTensor hstep) h hr

/-- A request with tensors is valid as soon as its tensors have examples. -/
theorem validate_of_withTensors (hne : tensors ≠ []) (h : r.withTensors tensors = .ok r')
    (hbatch : ∀ t ∈ tensors, t.2.info.batchSize ≠ 0) : r'.validate = .ok () := by
  cases tensors with
  | nil => exact absurd rfl hne
  | cons t tensors =>
    obtain ⟨hhead, htail⟩ := List.forall_mem_cons.1 hbatch
    obtain ⟨r₁, hfirst, hrest⟩ := withTensors_cons h
    have hvalid : r₁.validate = .ok () := validate_of_withTensor hfirst hhead
    refine withTensors_induction (motive := fun r => r.validate = .ok ()) ?_ hrest hvalid
    intro t ht r r' _ hstep
    exact validate_of_withTensor hstep (htail t ht)

theorem travels_create {n : Nat} (hn : n < Written.wordLimit) (c : Config) :
    (create n c).Travels where
  batchSize := hn
  tensors := List.forall_mem_nil _
  packing := List.forall_mem_nil _

theorem Travels.withTensor (hr : r.Travels) (h : r.withTensor name packed = .ok r')
    (hpacked : packed.Travels) : r'.Travels := by
  obtain ⟨-, rfl⟩ := withTensor_eq_ok.1 h
  exact ⟨hr.batchSize,
    NameMap.forall_insert (p := SlotVector.IsReproduced) hr.tensors name hpacked.slots,
    NameMap.forall_insert (p := PackingMeta.FitsWords) hr.packing name hpacked.info⟩

/-- A built request travels when its tensors do. -/
theorem travels_of_withTensors {n : Nat} (hne : tensors ≠ [])
    (h : (create n c).withTensors tensors = .ok r) (htensors : ∀ t ∈ tensors, t.2.Travels) :
    r.Travels := by
  have hn : n < Written.wordLimit := by
    cases tensors with
    | nil => exact absurd rfl hne
    | cons t tensors =>
      obtain ⟨r₁, hfirst, -⟩ := withTensors_cons h
      have hbatch : t.2.info.batchSize = n := batchSize_of_withTensor hfirst
      have hwords := (htensors t List.mem_cons_self).info
      exact hbatch ▸ hwords _ List.mem_cons_self
  refine withTensors_induction ?_ h (travels_create hn c)
  intro t ht r r' hr hstep
  exact hr.withTensor hstep (htensors t ht)

end Request

/-! ## Built requests -/

/-- A request that is built from a configuration, with at least one packed tensor, is accepted by
every server, with whatever files and jobs, once it has been decoded from its body. -/
theorem Server.handle_execute_of_build {files : FileSystem} {settings : Settings} {c : Config}
    (hbuild : settings.build files = .ok c) (hscale : c.parameters.scale.IsExact) {n : Nat}
    {tensors : List (String × PackedBatch)} (hne : tensors ≠ [])
    (hpacked : ∀ t ∈ tensors, ∃ (p : Packer) (v : View), p.pack v = .ok t.2 ∧
      ∀ k ∈ v.shape, k < Written.wordLimit)
    (hexact : ∀ t ∈ tensors, t.2.slots.IsExact) {r : Request}
    (hr : (Request.create n c).withTensors tensors = .ok r) (host : Host) (s : Server) :
    Frame.decodeBody ClientMessage.ofJson? (ClientMessage.execute r).body =
        .ok (.execute { r with config := none }) ∧
      s.handle host (.execute { r with config := none }) =
        (some (.accepted (host.requestName s.accepted)),
          s.accept host { r with config := none }) := by
  have hsettled := Config.isSettled_of_build hbuild
  have hbatch : ∀ t ∈ tensors, t.2.info.batchSize ≠ 0 := by
    intro t ht
    obtain ⟨p, v, hpack, -⟩ := hpacked t ht
    exact Packer.batchSize_ne_zero_of_pack hpack
  have htensors : ∀ t ∈ tensors, t.2.Travels := by
    intro t ht
    obtain ⟨p, v, hpack, hshape⟩ := hpacked t ht
    exact Packer.travels_of_pack hpack hshape (hexact t ht)
  have htravels : (ClientMessage.execute r).Travels :=
    Request.travels_of_withTensors hne hr htensors
  have hcheck := checkRequest_of_isFor hsettled (hscale hsettled.parameters.scale.1)
    ((Request.isFor_create n c).withTensors hr) (Request.validate_of_withTensors hne hr hbatch)
    host.files
  exact ⟨ClientMessage.decodeBody_body htravels, handle_execute hcheck⟩

theorem PackedBatch.pack_square : (⟨.columnMajor, .one⟩ : Packer).pack
    (View.ofRowMajor [2, 2] [.ofNat 1, .ofNat 2, .ofNat 3, .ofNat 4]) = .ok .square := rfl

theorem PackedBatch.isExact_square : PackedBatch.square.slots.IsExact := fun x hx _ =>
  List.forall_mem_singleton.1 Request.travels_square.tensors x hx

/-- The square is accepted under two names, one of them a reserved key. -/
theorem Server.handle_execute_squares : ∃ r r' : Request,
    (Request.create 2 .standard).withTensors [("backend", .square), ("x", .square)] = .ok r ∧
    Frame.decodeBody ClientMessage.ofJson? (ClientMessage.execute r).body = .ok (.execute r') ∧
    (Server.initial.handle .tally (.execute r')).1 = some (.accepted "I") := by
  have hbuild : Settings.initial.build (fun _ => .error .notFound) = .ok .standard := rfl
  have hshape : ∀ k ∈ (View.ofRowMajor [2, 2]
      [.ofNat 1, .ofNat 2, .ofNat 3, .ofNat 4]).shape, k < Written.wordLimit := by decide
  have hr : ∃ r, (Request.create 2 .standard).withTensors [("backend", .square), ("x", .square)] =
      .ok r := ⟨_, rfl⟩
  obtain ⟨r, hr⟩ := hr
  obtain ⟨hdecode, hhandle⟩ := handle_execute_of_build hbuild (fun _ => rfl) (List.cons_ne_nil _ _)
    (by simpa using ⟨_, _, PackedBatch.pack_square, hshape⟩)
    (by simpa using PackedBatch.isExact_square) hr .tally .initial
  exact ⟨r, _, hr, hdecode, congrArg Prod.fst hhandle⟩

/-! ## Accepted requests -/

/-- The directive that a request itself gives to a tensor; one that it does not list is plain. -/
def Request.directive (r : Request) (name : String) : Directive :=
  (r.directives.get? name).getD .plain

/-- A built request gives every tensor the directive of its configuration, listed or not. -/
theorem Request.directive_of_withTensors {n : Nat} {c : Config}
    {tensors : List (String × PackedBatch)} {r : Request}
    (h : (create n c).withTensors tensors = .ok r) (name : String) :
    r.directive name = c.directive name := by
  have hall : r.IsFor c ∧ ∀ name, r.directive name = c.directive name := by
    refine withTensors_induction (motive := fun r => r.IsFor c ∧
      ∀ name, r.directive name = c.directive name) ?_ h ⟨isFor_create n c, fun _ => rfl⟩
    rintro t - r r' ⟨hfor, hr⟩ hstep
    refine ⟨hfor.withTensor hstep, ?_⟩
    obtain ⟨-, rfl⟩ := withTensor_eq_ok.1 hstep
    intro other
    show ((r.directivesWith t.1).get? other).getD .plain = c.directive other
    rw [hfor.get?_directivesWith]
    by_cases hother : other = t.1
    · rw [if_pos hother, hother]
      rfl
    · rw [if_neg hother]
      exact hr other
  exact hall.2 name

theorem Server.checkRequest_of_accepted {host : Host} {s : Server} {r : Request} {id : String}
    (h : (s.handle host (.execute r)).1 = some (.accepted id)) :
    checkRequest host.files r = .ok () := by
  simp only [handle, submit] at h
  cases hcheck : checkRequest host.files r with
  | ok _ => rfl
  | error e => simp [hcheck] at h

/-- Of a request that is accepted, every directive that it lists is that of its parameter map.  The
two differ on just those tensors that it does not list and that its parameter map does not leave
plain. -/
theorem Server.directives_of_accepted {host : Host} {s : Server} {r : Request} {id : String}
    (h : (s.handle host (.execute r)).1 = some (.accepted id)) :
    ∃ c, Config.ofParameterMap host.files r.parameters = .ok c ∧
      (∀ name d, r.directives.get? name = some d → c.directive name = d) ∧
      ∀ name, r.directive name ≠ c.directive name ↔
        r.directives.get? name = none ∧ c.directive name ≠ .plain := by
  obtain ⟨-, c, hmap, hlisted⟩ := checkRequest_eq_ok.1 (checkRequest_of_accepted h)
  refine ⟨c, hmap, hlisted, ?_⟩
  intro name
  unfold Request.directive
  cases hget : r.directives.get? name with
  | none => simp [eq_comm]
  | some d => simp [hlisted name d hget]

/-- The request with the square, which lists no directives, and whose parameter map wants its tensor
encrypted. -/
def Request.unlisted : Request :=
  { Request.square with
    directives := .empty
    parameters := Request.single.parameters.insert "x" "encrypt"
    config := none }

/-- Where the tensor is listed, it is listed as the parameter map has it. -/
theorem Server.directive_of_listed : ∃ c,
    Config.ofParameterMap Host.tally.files Request.unlisted.parameters = .ok c ∧
      c.directive "x" = .encrypt := by
  have h : (initial.handle .tally (.execute { Request.unlisted with
      directives := NameMap.empty.insert "x" .encrypt })).1 = some (.accepted "I") := rfl
  obtain ⟨c, hmap, hlisted, -⟩ := directives_of_accepted h
  exact ⟨c, hmap, hlisted "x" .encrypt rfl⟩

/-- A request becomes a job although its parameter map wants a tensor encrypted that it says nothing
about. -/
theorem Server.accepts_unlisted :
    initial.handle .tally (.execute .unlisted) =
        (some (.accepted "I"), initial.accept .tally .unlisted) ∧
      Request.unlisted.directive "x" = .plain ∧
      ∃ c, Config.ofParameterMap Host.tally.files Request.unlisted.parameters = .ok c ∧
        c.directive "x" = .encrypt :=
  ⟨rfl, rfl, _, rfl, rfl⟩

end EncryptedInference
