import EncryptedInference.Proofs.Encryption.Directives
import EncryptedInference.Proofs.Host.Attempts

/-!
# Global flags and unregistered tensors

The global flags concern the registered inputs.  For any other tensor the directive depends on the
rules only (`Settings.get?_directives_of_not_mem`), whatever the flags are.  The flag for packed
data reaches such a tensor all the same when it is added to a request, for then the tensor has to
fit into the slots of a ciphertext also if it is not packed: `Settings.withTensor_packData` says
exactly where this makes a difference.
-/

namespace EncryptedInference

open Request

namespace Settings

/-! ## Directives -/

theorem given_of_not_mem {s : Settings} {name : String} (h : name ∉ s.inputs.keys) :
    s.given name = {d | (name, d) ∈ s.rules} := by
  ext d
  simp only [given, Set.mem_ofPred_eq, h, false_and, or_false]

/-- The directive of a tensor that is not registered depends on the rules only. -/
theorem get?_directives_of_not_mem (s s' : Settings) (hrules : s.rules = s'.rules) {name : String}
    (h : name ∉ s.inputs.keys) (h' : name ∉ s'.inputs.keys) :
    s.directives.get? name = s'.directives.get? name := by
  have hs := s.isStrongest_directives name
  have hs' := s'.isStrongest_directives name
  rw [given_of_not_mem h, hrules] at hs
  rw [given_of_not_mem h'] at hs'
  exact hs.unique hs'

end Settings

/-! ## Requests -/

/-- Two configurations that treat a tensor alike but for the flag for packed data. -/
structure Config.DifferInPackData (on off : Config) (name : String) : Prop where
  flagOn : on.packData = true
  flagOff : off.packData = false
  packingFactor : on.packingFactor = off.packingFactor
  slotCapacity : on.slotCapacity = off.slotCapacity
  directive : on.directive name = off.directive name

theorem Settings.differInPackData_of_build {s : Settings} {files : FileSystem} {on off : Config}
    (hon : (s.change (.packData true)).build files = .ok on)
    (hoff : (s.change (.packData false)).build files = .ok off) {name : String}
    (h : name ∉ s.inputs.keys) : on.DifferInPackData off name := by
  have hget : on.directives.get? name = off.directives.get? name := by
    rw [directives_of_build hon, directives_of_build hoff]
    exact get?_directives_of_not_mem (s.change (.packData true)) (s.change (.packData false))
      rfl h h
  obtain ⟨-, -, p, hload, rfl⟩ := build_eq_ok.1 hon
  obtain ⟨-, -, p', hload', rfl⟩ := build_eq_ok.1 hoff
  obtain rfl : p = p' := Except.ok.inj (hload.symm.trans hload')
  exact ⟨rfl, rfl, rfl, rfl, congrArg (·.getD .plain) hget⟩

/-- What fits with the flag fits without. -/
theorem Config.DifferInPackData.fits {on off : Config} {n : Nat} {name : String}
    {info : PackingMeta} (h : on.DifferInPackData off name) (hfits : Fits on n name info) :
    Fits off n name info where
  batchSize := hfits.batchSize
  factor := hfits.factor.trans h.packingFactor
  capacity _ := by
    rw [← h.packingFactor, ← h.slotCapacity]
    exact hfits.capacity (.inl h.flagOn)

namespace Request

variable {on off : Config} {n : Nat} {name : String} {info : PackingMeta} {e : RequestError}

/-- With the flag a tensor is refused for the same reasons, and for lack of slots although it would
fit without. -/
theorem refusal_iff_of_packData (h : on.DifferInPackData off name) {present : Prop} :
    Refusal on n present name info e ↔ Refusal off n present name info e ∨
      ((¬ present ∧ Fits off n name info) ∧ off.slotCapacity < n / off.packingFactor.value ∧
        e = .slotCapacityExceeded name (n / off.packingFactor.value) off.slotCapacity) := by
  constructor
  · rintro (hp | ⟨hp, hbatch⟩ | ⟨hp, hbatch, hfactor⟩ | ⟨hp, hbatch, hfactor, -, hslots⟩)
    · exact .inl (.duplicate hp)
    · exact .inl (.batchSize hp hbatch)
    · rw [h.packingFactor] at hfactor ⊢
      exact .inl (.factor hp hbatch hfactor)
    · rw [h.packingFactor] at hfactor
      rw [h.packingFactor, h.slotCapacity] at hslots ⊢
      by_cases hpacked : off.packData = true ∨ off.directive name = .packed
      · exact .inl (.capacity hp hbatch hfactor hpacked hslots)
      · exact .inr ⟨⟨hp, hbatch, hfactor, fun hp => absurd hp hpacked⟩, hslots, rfl⟩
  · rintro ((hp | ⟨hp, hbatch⟩ | ⟨hp, hbatch, hfactor⟩ | ⟨hp, hbatch, hfactor, -, hslots⟩) |
      ⟨⟨hp, hfits⟩, hslots, rfl⟩)
    · exact .duplicate hp
    · exact .batchSize hp hbatch
    · rw [← h.packingFactor] at hfactor ⊢
      exact .factor hp hbatch hfactor
    · rw [← h.packingFactor] at hfactor
      rw [← h.packingFactor, ← h.slotCapacity] at hslots ⊢
      exact .capacity hp hbatch hfactor (.inl h.flagOn) hslots
    · have hfactor := hfits.factor
      rw [← h.packingFactor] at hfactor
      rw [← h.packingFactor, ← h.slotCapacity] at hslots ⊢
      exact .capacity hp hfits.batchSize hfactor (.inl h.flagOn) hslots

end Request

namespace Settings

/-- Whether the flag for packed data is on makes no difference to the directive of a tensor that is
not registered.  A request refuses the tensor with the flag if it refuses it without, for the same
reason; beyond that with the flag only, for lack of slots, if each ciphertext is to hold more
examples than it has slots.  A request that has accepted it holds the same with the flag as without.
Without the flag a tensor that is not packed is never refused for lack of slots. -/
theorem withTensor_packData {s : Settings} {files : FileSystem} {on off : Config}
    (hon : (s.change (.packData true)).build files = .ok on)
    (hoff : (s.change (.packData false)).build files = .ok off) {name : String}
    (hname : name ∉ s.inputs.keys) :
    on.directive name = off.directive name ∧
    ∀ n packed,
      (∀ e, (create n on).withTensor name packed = .error e ↔
        (create n off).withTensor name packed = .error e ∨
          (∃ r, (create n off).withTensor name packed = .ok r) ∧
            off.slotCapacity < n / off.packingFactor.value ∧
            e = .slotCapacityExceeded name (n / off.packingFactor.value) off.slotCapacity) ∧
      (∀ r, (create n on).withTensor name packed = .ok r →
        ∃ r', (create n off).withTensor name packed = .ok r' ∧ r.tensors = r'.tensors ∧
          r.packing = r'.packing ∧ r.directives.get? name = r'.directives.get? name) ∧
      (off.directive name ≠ .packed → ∀ required capacity, (create n off).withTensor name packed ≠
        .error (.slotCapacityExceeded name required capacity)) := by
  have hdiffer := differInPackData_of_build hon hoff hname
  refine ⟨hdiffer.directive, ?_⟩
  intro n packed
  have hwith := isBuilt_create on n
  have hwithout := isBuilt_create off n
  refine ⟨?_, ?_, ?_⟩
  · intro e
    rw [hwith.withTensor_eq_error, hwithout.withTensor_eq_error, hwithout.withTensor_isOk]
    exact refusal_iff_of_packData hdiffer
  · intro r hr
    obtain ⟨hnew, hfits⟩ := hwith.withTensor_isOk.1 ⟨r, hr⟩
    obtain ⟨r', hr'⟩ := hwithout.withTensor_isOk.2 ⟨hnew, hdiffer.fits hfits⟩
    refine ⟨r', hr', ?_⟩
    obtain ⟨-, rfl⟩ := withTensor_eq_ok.1 hr
    obtain ⟨-, rfl⟩ := withTensor_eq_ok.1 hr'
    refine ⟨rfl, rfl, ?_⟩
    show (directivesWith _ name).get? name = (directivesWith _ name).get? name
    rw [(isFor_create n on).get?_directivesWith, (isFor_create n off).get?_directivesWith,
      if_pos rfl, if_pos rfl, hdiffer.directive]
  · intro hpacked required capacity h
    rcases hwithout.withTensor_eq_error.1 h with _ | _ | _ | ⟨-, -, -, hlimited, -⟩
    rcases hlimited with hflag | hdirective
    · rw [hdiffer.flagOff] at hflag
      cases hflag
    · exact hpacked hdirective

/-- A single rule, by which a tensor that is not registered is plain. -/
def plainRule : Settings := initial.change (.rule "y" .plain)

/-- The configuration that is built from this rule and the flag for packed data. -/
def plainConfig (packData : Bool) : Config :=
  { Config.standard with packData, directives := NameMap.empty.insert "y" .plain }

theorem build_plainRule (files : FileSystem) (packData : Bool) :
    (plainRule.change (.packData packData)).build files = .ok (plainConfig packData) := by
  cases packData <;> rfl

/-- One zero for each of `n` examples. -/
def column (n : Nat) : PackedBatch :=
  ⟨.real (List.replicate n (.ofNat 0)), ⟨n, [1], .rowMajor, .one⟩⟩

theorem isMade_column {n : Nat} (hn : n ≠ 0) : (column n).IsMade := by
  let zeros : List Double := List.replicate n (.ofNat 0)
  have hlength : zeros.length = elementCount [n, 1] := by
    rw [List.length_replicate, elementCount_cons, elementCount_singleton, Nat.mul_one]
  have hfills := Packer.fills_one (View.shape_ofRowMajor [n, 1] zeros) hn .rowMajor
  rw [show View.resolveOrder _ .rowMajor = .rowMajor from rfl, View.flatten_rowMajor,
    View.elements_ofRowMajor hlength] at hfills
  refine Or.inl ⟨⟨.rowMajor, .one⟩, _, hfills.pack_eq_ok_iff.2 ⟨?_, rfl⟩⟩
  intro i hspoilt
  obtain ⟨x, hx, hinfinite⟩ := SlotVector.isSpoilt_real_iff.1 hspoilt
  obtain rfl := List.eq_of_mem_replicate (List.mem_of_getElem? hx)
  cases hinfinite

/-- Each ciphertext has 512 slots, and 513 examples are refused for lack of slots. -/
theorem withTensor_packData_column :
    (create 513 (plainConfig true)).withTensor "y" (column 513) =
      .error (.slotCapacityExceeded "y" 513 512) := by
  obtain ⟨-, h⟩ := withTensor_packData (build_plainRule (fun _ => .error .notFound) true)
    (build_plainRule _ false) (show "y" ∉ plainRule.inputs.keys by decide)
  obtain ⟨hrefused, -, -⟩ := h 513 (column 513)
  exact (hrefused _).2 (.inr ⟨⟨_, rfl⟩, by decide, rfl⟩)

/-- A tensor that is neither registered nor packed is refused for lack of slots with the flag, and
accepted without. -/
theorem plain_column_refused : ∃ on off : Config,
    (plainRule.change (.packData true)).build (fun _ => .error .notFound) = .ok on ∧
    (plainRule.change (.packData false)).build (fun _ => .error .notFound) = .ok off ∧
    "y" ∉ plainRule.inputs.keys ∧ plainRule.rules = [("y", .plain)] ∧
    (column 513).IsMade ∧
    (create 513 on).withTensor "y" (column 513) = .error (.slotCapacityExceeded "y" 513 512) ∧
    ∃ r, (create 513 off).withTensor "y" (column 513) = .ok r :=
  ⟨_, _, rfl, rfl, by decide, rfl, isMade_column (by decide), rfl, _, rfl⟩

end Settings

end EncryptedInference
