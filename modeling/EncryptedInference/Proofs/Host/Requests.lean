import EncryptedInference.Host.Server
import EncryptedInference.Proofs.Encryption.ParameterMaps

/-!
# Built requests are accepted

A request that is built from a configuration keeps its parameter map and gives each tensor the
directive of the configuration (`Request.IsFor`), whatever tensors are added.  The server finds the
same directives in the parameter map, so it has nothing against such a request:
`checkRequest_of_isFor`.
-/

namespace EncryptedInference

namespace Request

/-- A request that describes its tensors as the configuration does. -/
structure IsFor (c : Config) (r : Request) : Prop where
  config : r.config = some c
  parameters : r.parameters = c.parameterMap
  directives : ∀ name d, r.directives.get? name = some d → c.directive name = d

variable {c : Config} {r r' : Request} {name : String} {packed : PackedBatch}

theorem withTensor_eq_ok : r.withTensor name packed = .ok r' ↔
    r.tensorError? name packed.info = none ∧
      r' = { r with
        tensors := r.tensors.insert name packed.slots
        packing := r.packing.insert name packed.info
        directives := r.directivesWith name } := by
  unfold withTensor
  cases r.tensorError? name packed.info with
  | some e => simp
  | none => simp [eq_comm]

theorem batchSize_of_withTensor (h : r.withTensor name packed = .ok r') :
    packed.info.batchSize = r.batchSize := by
  obtain ⟨herror, -⟩ := withTensor_eq_ok.1 h
  unfold tensorError? at herror
  split_ifs at herror with hcontains hbatch
  exact Classical.not_not.1 hbatch

theorem isFor_create (n : Nat) (c : Config) : (create n c).IsFor c where
  config := rfl
  parameters := rfl
  directives name d h := by
    show (c.directives.get? name).getD .plain = d
    rw [show c.directives.get? name = some d from h]
    rfl

/-- A new tensor has the directive of the configuration, also if it is listed before. -/
theorem IsFor.get?_directivesWith (hr : r.IsFor c) (name other : String) :
    (r.directivesWith name).get? other =
      if other = name then some (c.directive name) else r.directives.get? other := by
  unfold directivesWith
  rw [hr.config]
  dsimp only
  split_ifs with hlisted hother hother
  · obtain ⟨d, hd⟩ := Option.isSome_iff_exists.1 hlisted
    rw [hother, hd, hr.directives name d hd]
  · rfl
  · rw [NameMap.get?_insert, if_pos hother]
  · rw [NameMap.get?_insert, if_neg hother]

theorem IsFor.withTensor (hr : r.IsFor c) (h : r.withTensor name packed = .ok r') : r'.IsFor c := by
  obtain ⟨-, rfl⟩ := withTensor_eq_ok.1 h
  refine ⟨hr.config, hr.parameters, ?_⟩
  intro other d hd
  rw [hr.get?_directivesWith] at hd
  split_ifs at hd with hother
  · rw [hother]
    exact Option.some.inj hd
  · exact hr.directives other d hd

theorem validate_of_withTensor (h : r.withTensor name packed = .ok r')
    (hbatch : packed.info.batchSize ≠ 0) : r'.validate = .ok () := by
  have hsize := batchSize_of_withTensor h
  obtain ⟨-, rfl⟩ := withTensor_eq_ok.1 h
  unfold validate
  dsimp only
  rw [if_neg (hsize ▸ hbatch), NameMap.isEmpty_insert]
  rfl

end Request

theorem directiveError?_eq_none {c : Config} {r : Request} : directiveError? c r = none ↔
    ∀ name d, r.directives.get? name = some d → c.directive name = d := by
  unfold directiveError?
  rw [List.findSome?_eq_none_iff]
  constructor
  · intro h name d hget
    have hnone := h (name, d) (NameMap.mem_entries.2 hget)
    dsimp only at hnone
    split_ifs at hnone with heq
    exact heq
  · intro h e he
    have hget : r.directives.get? e.1 = some e.2 := NameMap.mem_entries.1 he
    exact if_pos (h e.1 e.2 hget)

/-- The check looks at the batch, at the parameter map, and at the directives that are listed. -/
theorem checkRequest_eq_ok {files : FileSystem} {r : Request} : checkRequest files r = .ok () ↔
    r.validate = .ok () ∧ ∃ c, Config.ofParameterMap files r.parameters = .ok c ∧
      ∀ name d, r.directives.get? name = some d → c.directive name = d := by
  unfold checkRequest
  cases hvalid : r.validate with
  | error e => simp [Except.mapError, bind, Except.bind]
  | ok _ =>
    cases hmap : Config.ofParameterMap files r.parameters with
    | error e => simp [Except.mapError, bind, Except.bind]
    | ok c =>
      cases herror : directiveError? c r with
      | none =>
        have hlisted := directiveError?_eq_none.1 herror
        simpa [Except.mapError, bind, Except.bind, herror] using hlisted
      | some e =>
        have hlisted : ¬ ∀ name d, r.directives.get? name = some d → c.directive name = d := by
          rw [← directiveError?_eq_none, herror]
          nofun
        simpa [Except.mapError, bind, Except.bind, herror] using hlisted

/-- The server has nothing against a request that is built from a configuration. -/
theorem checkRequest_of_isFor {c : Config} {r : Request} (hc : c.IsSettled)
    (hscale : c.parameters.scale.IsReproduced) (hr : r.IsFor c) (hvalid : r.validate = .ok ())
    (files : FileSystem) : checkRequest files { r with config := none } = .ok () := by
  have hmap : Config.ofParameterMap files r.parameters = .ok c.retold := by
    rw [hr.parameters, Config.ofParameterMap_parameterMap hc hscale files]
  refine checkRequest_eq_ok.2 ⟨hvalid, c.retold, hmap, ?_⟩
  intro name d h
  rw [Config.directive_retold]
  exact hr.directives name d h

end EncryptedInference
