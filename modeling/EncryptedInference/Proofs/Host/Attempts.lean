import EncryptedInference.Proofs.Batch.Flat
import EncryptedInference.Proofs.Host.Admission
import EncryptedInference.Proofs.NameMaps
import Mathlib.Data.List.Induction

/-!
# Attempts to add tensors

A tensor that is refused leaves the request as it is, so that a request may go through any number of
attempts.  An attempt succeeds if the tensor fits the configuration and its name is new
(`Request.tensorError?_eq_none`), and is refused for the first reason against it
(`Request.tensorError?_eq_some`).  Of each name the request therefore holds the first tensor that
fits: this is what every attempt keeps (`Request.IsBuilt.attempt`), and all that is known of a
request follows from it.
-/

namespace EncryptedInference

/-! ## Packed batches -/

/-- A batch that a packer made, from an array or from a list. -/
def PackedBatch.IsMade (packed : PackedBatch) : Prop :=
  (∃ (p : Packer) (v : View), p.pack v = .ok packed) ∨
    ∃ (p : Packer) (data : List Double) (n : Nat) (features : List Nat),
      p.packFlat data n features = .ok packed

theorem Packer.slotCount_of_pack {p : Packer} {v : View} {packed : PackedBatch}
    (h : p.pack v = .ok packed) : packed.info.slotCount = packed.slots.length := by
  obtain ⟨n, features, s, hshape, -, hdiv, hs, -, rfl⟩ := pack_eq_ok h
  exact (Unpacker.length_slots hshape hdiv hs).symm

theorem PackedBatch.IsMade.slotCount {packed : PackedBatch} (h : packed.IsMade) :
    packed.info.slotCount = packed.slots.length := by
  rcases h with ⟨p, v, h⟩ | ⟨p, data, n, features, h⟩
  · exact Packer.slotCount_of_pack h
  · by_cases hmisfits : Packer.Misfits data n features
    · cases (Packer.packFlat_of_misfits hmisfits).symm.trans h
    · rw [Packer.packFlat_of_not_misfits hmisfits] at h
      exact Packer.slotCount_of_pack h

namespace Request

/-! ## One attempt -/

/-- The tensor `name` can be part of a request of `n` examples. -/
structure Fits (c : Config) (n : Nat) (name : String) (info : PackingMeta) : Prop where
  batchSize : info.batchSize = n
  factor : info.factor = c.packingFactor
  capacity : c.packData = true ∨ c.directive name = .packed →
    n / c.packingFactor.value ≤ c.slotCapacity

instance (c : Config) (n : Nat) (name : String) (info : PackingMeta) :
    Decidable (Fits c n name info) :=
  decidable_of_iff (info.batchSize = n ∧ info.factor = c.packingFactor ∧
      (c.packData = true ∨ c.directive name = .packed →
        n / c.packingFactor.value ≤ c.slotCapacity))
    ⟨fun ⟨h₁, h₂, h₃⟩ => ⟨h₁, h₂, h₃⟩, fun ⟨h₁, h₂, h₃⟩ => ⟨h₁, h₂, h₃⟩⟩

/-- The reason for which a tensor is refused: the first one that holds, in the order in which they
are listed here. -/
inductive Refusal (c : Config) (n : Nat) (present : Prop) (name : String) (info : PackingMeta) :
    RequestError → Prop
  | duplicate : present → Refusal c n present name info (.duplicateTensor name)
  | batchSize : ¬ present → info.batchSize ≠ n →
      Refusal c n present name info (.batchSizeMismatch name n info.batchSize)
  | factor : ¬ present → info.batchSize = n → info.factor ≠ c.packingFactor →
      Refusal c n present name info
        (.packingFactorMismatch name c.packingFactor.value info.factor.value)
  | capacity : ¬ present → info.batchSize = n → info.factor = c.packingFactor →
      c.packData = true ∨ c.directive name = .packed →
      c.slotCapacity < n / c.packingFactor.value →
      Refusal c n present name info
        (.slotCapacityExceeded name (n / c.packingFactor.value) c.slotCapacity)

variable {c : Config} {n : Nat} {r r' : Request} {name : String} {info : PackingMeta}
  {packed : PackedBatch} {e : RequestError}

theorem tensorError?_eq_some (hconfig : r.config = some c) : r.tensorError? name info = some e ↔
    Refusal c r.batchSize (name ∈ r.tensors.keys) name info e := by
  have hpresent : r.tensors.contains name = true ↔ name ∈ r.tensors.keys := NameMap.mem_keys.symm
  simp only [tensorError?, hconfig, Option.bind_some, configError?, hpresent]
  constructor
  · intro h
    split_ifs at h with hname hbatch hfactor hcapacity
    all_goals cases h
    · exact .duplicate hname
    · exact .batchSize hname hbatch
    · exact .factor hname (not_not.1 hbatch) hfactor
    · simp only [Bool.and_eq_true, Bool.or_eq_true, decide_eq_true_eq] at hcapacity
      obtain ⟨hpacked, hslots⟩ := hcapacity
      rw [slotsRequired, not_not.1 hbatch, not_not.1 hfactor] at hslots ⊢
      exact .capacity hname (not_not.1 hbatch) (not_not.1 hfactor) hpacked hslots
  · rintro (hname | ⟨hname, hbatch⟩ | ⟨hname, hbatch, hfactor⟩ |
      ⟨hname, hbatch, hfactor, hpacked, hslots⟩)
    · rw [if_pos hname]
    · rw [if_neg hname, if_pos hbatch]
    · rw [if_neg hname, if_neg (not_not.2 hbatch), if_pos hfactor]
    · rw [if_neg hname, if_neg (not_not.2 hbatch), if_neg (not_not.2 hfactor), slotsRequired,
        hbatch, hfactor, if_pos (by simpa using ⟨hpacked, hslots⟩)]

theorem tensorError?_eq_none (hconfig : r.config = some c) : r.tensorError? name info = none ↔
    name ∉ r.tensors.keys ∧ Fits c r.batchSize name info := by
  rw [Option.eq_none_iff_forall_ne_some]
  simp only [ne_eq, tensorError?_eq_some hconfig]
  constructor
  · intro h
    have hname : name ∉ r.tensors.keys := fun hname => h _ (.duplicate hname)
    have hbatch : info.batchSize = r.batchSize :=
      not_not.1 fun hbatch => h _ (.batchSize hname hbatch)
    have hfactor : info.factor = c.packingFactor :=
      not_not.1 fun hfactor => h _ (.factor hname hbatch hfactor)
    refine ⟨hname, hbatch, hfactor, fun hpacked => Nat.not_lt.1 fun hslots => ?_⟩
    exact h _ (.capacity hname hbatch hfactor hpacked hslots)
  · rintro ⟨hname, hbatch, hfactor, hcapacity⟩ e
      (hpresent | ⟨-, hother⟩ | ⟨-, -, hother⟩ | ⟨-, -, -, hpacked, hslots⟩)
    · exact hname hpresent
    · exact hother hbatch
    · exact hother hfactor
    · exact absurd (hcapacity hpacked) (Nat.not_le.2 hslots)

theorem withTensor_eq_error :
    r.withTensor name packed = .error e ↔ r.tensorError? name packed.info = some e := by
  unfold withTensor
  cases r.tensorError? name packed.info <;> simp

/-! ## Many attempts -/

/-- The request after an attempt to add a tensor. -/
def attempt (r : Request) (t : String × PackedBatch) : Request :=
  match r.withTensor t.1 t.2 with
  | .ok r' => r'
  | .error _ => r

/-- The request after attempts to add tensors, one after the other. -/
def attempts (r : Request) (ts : List (String × PackedBatch)) : Request := ts.foldl attempt r

theorem attempts_concat (r : Request) (ts : List (String × PackedBatch))
    (t : String × PackedBatch) : r.attempts (ts ++ [t]) = (r.attempts ts).attempt t := by
  rw [attempts, List.foldl_append]
  rfl

/-- The first tensor of a name that fits. -/
def firstFitting (c : Config) (n : Nat) (ts : List (String × PackedBatch)) (name : String) :
    Option PackedBatch :=
  (ts.find? fun t => t.1 = name ∧ Fits c n name t.2.info).map Prod.snd

theorem firstFitting_concat (ts : List (String × PackedBatch)) (t : String × PackedBatch)
    (name : String) : firstFitting c n (ts ++ [t]) name = (firstFitting c n ts name).or
      (if t.1 = name ∧ Fits c n name t.2.info then some t.2 else none) := by
  rw [firstFitting, firstFitting, List.find?_append, Option.map_or, List.find?_singleton]
  by_cases h : t.1 = name ∧ Fits c n name t.2.info
  · rw [if_pos h, if_pos (decide_eq_true h), Option.map_some]
  · rw [if_neg h, if_neg (by simpa using h), Option.map_none]

theorem mem_of_firstFitting {ts : List (String × PackedBatch)}
    (h : firstFitting c n ts name = some packed) :
    (name, packed) ∈ ts ∧ Fits c n name packed.info := by
  obtain ⟨t, hfind, rfl⟩ := Option.map_eq_some_iff.1 h
  have htest := List.find?_some hfind
  obtain ⟨hname, hfits⟩ := of_decide_eq_true htest
  have hmem := List.mem_of_find?_eq_some hfind
  subst hname
  exact ⟨hmem, hfits⟩

theorem isSome_firstFitting {ts : List (String × PackedBatch)} :
    (firstFitting c n ts name).isSome ↔
      ∃ packed, (name, packed) ∈ ts ∧ Fits c n name packed.info := by
  rw [firstFitting, Option.isSome_map, List.find?_isSome]
  constructor
  · rintro ⟨t, hmem, htest⟩
    obtain ⟨rfl, hfits⟩ := of_decide_eq_true htest
    exact ⟨t.2, hmem, hfits⟩
  · rintro ⟨packed, hmem, hfits⟩
    exact ⟨(name, packed), hmem, decide_eq_true ⟨rfl, hfits⟩⟩

/-- With different names a tensor is the first of its name. -/
theorem firstFitting_eq_some {ts : List (String × PackedBatch)} (h : (ts.map Prod.fst).Nodup) :
    firstFitting c n ts name = some packed ↔ (name, packed) ∈ ts ∧ Fits c n name packed.info := by
  refine ⟨mem_of_firstFitting, ?_⟩
  rintro ⟨hmem, hfits⟩
  obtain ⟨first, hfirst⟩ := Option.isSome_iff_exists.1 (isSome_firstFitting.2 ⟨packed, hmem, hfits⟩)
  have hlookup : ts.lookup name = some first :=
    lookup_eq_some_of_mem h (mem_of_firstFitting hfirst).1
  rw [hfirst, ← hlookup]
  exact lookup_eq_some_of_mem h hmem

/-- With different names the order does not matter. -/
theorem firstFitting_perm {ts ts' : List (String × PackedBatch)} (hperm : ts.Perm ts')
    (h : (ts.map Prod.fst).Nodup) : firstFitting c n ts = firstFitting c n ts' := by
  have h' : (ts'.map Prod.fst).Nodup := (hperm.map Prod.fst).nodup_iff.1 h
  funext name
  apply Option.ext
  intro packed
  rw [firstFitting_eq_some h, firstFitting_eq_some h', hperm.mem_iff]

/-- A request of `n` examples in which every name has the tensor that `first` gives to it. -/
structure IsBuilt (c : Config) (n : Nat) (first : String → Option PackedBatch) (r : Request) :
    Prop where
  isFor : r.IsFor c
  batchSize : r.batchSize = n
  tensors : ∀ name, r.tensors.get? name = (first name).map (·.slots)
  packing : ∀ name, r.packing.get? name = (first name).map (·.info)
  directives : ∀ name, r.directives.get? name =
    if (first name).isSome then some (c.directive name) else c.directives.get? name

theorem isBuilt_create (c : Config) (n : Nat) : (create n c).IsBuilt c n (fun _ => none) where
  isFor := isFor_create n c
  batchSize := rfl
  tensors _ := rfl
  packing _ := rfl
  directives _ := rfl

namespace IsBuilt

variable {first : String → Option PackedBatch} (hr : r.IsBuilt c n first)

include hr

theorem mem_keys : name ∈ r.tensors.keys ↔ (first name).isSome := by
  rw [NameMap.mem_keys, hr.tensors, Option.isSome_map]

theorem keys_eq : r.tensors.keys = r.packing.keys := by
  apply NameMap.keys_congr
  intro name
  rw [hr.tensors, hr.packing, Option.isSome_map, Option.isSome_map]

theorem unique (hr' : r'.IsBuilt c n first) : r = r' := by
  have htensors : r.tensors = r'.tensors :=
    NameMap.ext_get? fun name => (hr.tensors name).trans (hr'.tensors name).symm
  have hpacking : r.packing = r'.packing :=
    NameMap.ext_get? fun name => (hr.packing name).trans (hr'.packing name).symm
  have hdirectives : r.directives = r'.directives :=
    NameMap.ext_get? fun name => (hr.directives name).trans (hr'.directives name).symm
  have hbatch : r.batchSize = r'.batchSize := hr.batchSize.trans hr'.batchSize.symm
  have hparameters : r.parameters = r'.parameters :=
    hr.isFor.parameters.trans hr'.isFor.parameters.symm
  have hconfig : r.config = r'.config := hr.isFor.config.trans hr'.isFor.config.symm
  cases r
  cases r'
  congr

theorem withTensor (h : r.withTensor name packed = .ok r') :
    r'.IsBuilt c n (fun other => if other = name then some packed else first other) := by
  have hisFor := hr.isFor.withTensor h
  obtain ⟨-, rfl⟩ := withTensor_eq_ok.1 h
  refine ⟨hisFor, hr.batchSize, ?_, ?_, ?_⟩
  · intro other
    rw [NameMap.get?_insert, hr.tensors, apply_ite (Option.map _)]
    rfl
  · intro other
    rw [NameMap.get?_insert, hr.packing, apply_ite (Option.map _)]
    rfl
  · intro other
    rw [hr.isFor.get?_directivesWith, hr.directives]
    by_cases hother : other = name
    · rw [if_pos hother, if_pos hother, hother, Option.isSome_some, if_pos rfl]
    · rw [if_neg hother, if_neg hother]

theorem withTensor_eq_error : r.withTensor name packed = .error e ↔
    Refusal c n (name ∈ r.tensors.keys) name packed.info e := by
  rw [Request.withTensor_eq_error, tensorError?_eq_some hr.isFor.config, hr.batchSize]

theorem withTensor_isOk : (∃ r', r.withTensor name packed = .ok r') ↔
    name ∉ r.tensors.keys ∧ Fits c n name packed.info := by
  rw [← hr.batchSize, ← tensorError?_eq_none hr.isFor.config]
  constructor
  · rintro ⟨r', h⟩
    exact (withTensor_eq_ok.1 h).1
  · intro h
    exact ⟨_, withTensor_eq_ok.2 ⟨h, rfl⟩⟩

end IsBuilt

/-- An attempt adds the tensor exactly if it is the first of its name that fits. -/
theorem IsBuilt.attempt {ts : List (String × PackedBatch)}
    (hr : r.IsBuilt c n (firstFitting c n ts)) (t : String × PackedBatch) :
    (r.attempt t).IsBuilt c n (firstFitting c n (ts ++ [t])) := by
  have haccepted : (∃ r', r.withTensor t.1 t.2 = .ok r') ↔
      firstFitting c n ts t.1 = none ∧ Fits c n t.1 t.2.info := by
    rw [hr.withTensor_isOk, hr.mem_keys, Option.not_isSome_iff_eq_none]
  unfold Request.attempt
  cases h : r.withTensor t.1 t.2 with
  | ok r' =>
    obtain ⟨hnew, hfits⟩ := haccepted.1 ⟨r', h⟩
    have hfirst : firstFitting c n (ts ++ [t]) =
        fun other => if other = t.1 then some t.2 else firstFitting c n ts other := by
      funext other
      rw [firstFitting_concat]
      by_cases hother : other = t.1
      · rw [hother, hnew, if_pos ⟨rfl, hfits⟩, if_pos rfl]
        rfl
      · rw [if_neg fun h => hother h.1.symm, if_neg hother, Option.or_none]
    rw [hfirst]
    exact hr.withTensor h
  | error e =>
    -- A tensor that fits is refused only if its name is taken, and then it is not the first.
    have hfirst : firstFitting c n (ts ++ [t]) = firstFitting c n ts := by
      funext other
      rw [firstFitting_concat]
      split_ifs with hfits
      · obtain ⟨rfl, hfits⟩ := hfits
        cases hnew : firstFitting c n ts t.1 with
        | some first => rfl
        | none =>
          obtain ⟨r', hok⟩ := haccepted.2 ⟨hnew, hfits⟩
          cases h.symm.trans hok
      · exact Option.or_none
    rw [hfirst]
    exact hr

theorem isBuilt_attempts (c : Config) (n : Nat) (ts : List (String × PackedBatch)) :
    ((create n c).attempts ts).IsBuilt c n (firstFitting c n ts) := by
  induction ts using List.reverseRecOn with
  | nil => exact isBuilt_create c n
  | append_singleton ts t ih =>
    rw [attempts_concat]
    exact ih.attempt t

/-- A request holds of each name the first tensor that fits, with its packing, and its packing
describes its tensors.  Its directives are those of the configuration with the ones of its tensors
added, and its parameters are the parameter map.  A further tensor is refused for the first reason
against it, and for nothing else; and tensors with different names give the same request in any
order. -/
theorem attempts_create (c : Config) (n : Nat) (ts : List (String × PackedBatch))
    (hmade : ∀ t ∈ ts, t.2.IsMade) :
    let r := (create n c).attempts ts
    r.tensors.keys = r.packing.keys ∧
    (∀ name, r.tensors.get? name = (firstFitting c n ts name).map (·.slots) ∧
      r.packing.get? name = (firstFitting c n ts name).map (·.info)) ∧
    (∀ name info, r.packing.get? name = some info → info.batchSize = n ∧
      info.factor = c.packingFactor ∧
      ∃ slots, r.tensors.get? name = some slots ∧ info.slotCount = slots.length) ∧
    (∀ name, r.directives.get? name =
      if name ∈ r.tensors.keys then some (c.directive name) else c.directives.get? name) ∧
    r.parameters = c.parameterMap ∧
    (∀ name packed e, r.withTensor name packed = .error e ↔
      Refusal c n (name ∈ r.tensors.keys) name packed.info e) ∧
    ∀ ts', ts.Perm ts' → (ts.map Prod.fst).Nodup → (create n c).attempts ts' = r := by
  intro r
  have hr : r.IsBuilt c n (firstFitting c n ts) := isBuilt_attempts c n ts
  refine ⟨hr.keys_eq, fun name => ⟨hr.tensors name, hr.packing name⟩, ?_, ?_, hr.isFor.parameters,
    fun _ _ _ => hr.withTensor_eq_error, ?_⟩
  · intro name info hinfo
    rw [hr.packing] at hinfo
    obtain ⟨packed, hfirst, rfl⟩ := Option.map_eq_some_iff.1 hinfo
    obtain ⟨hmem, hfits⟩ := mem_of_firstFitting hfirst
    refine ⟨hfits.batchSize, hfits.factor, packed.slots, ?_, (hmade _ hmem).slotCount⟩
    rw [hr.tensors, hfirst]
    rfl
  · intro name
    rw [hr.directives]
    exact if_congr hr.mem_keys.symm rfl rfl
  · intro ts' hperm hnodup
    have hr' := isBuilt_attempts c n ts'
    rw [← firstFitting_perm hperm hnodup] at hr'
    exact hr'.unique hr

/-- The examples of the square, two in each slot. -/
def joinedSquare : PackedBatch :=
  ⟨.complex [⟨.ofNat 1, .ofNat 3⟩, ⟨.ofNat 2, .ofNat 4⟩], ⟨2, [2], .rowMajor, .two⟩⟩

theorem attempts_create_squares :
    let r := (create 2 .standard).attempts [("y", .square), ("z", joinedSquare), ("x", .square)]
    r.tensors.keys = r.packing.keys ∧ "z" ∉ r.tensors.keys ∧
      r.tensors.get? "x" = some PackedBatch.square.slots ∧ r.directives.get? "x" = some .plain ∧
      r.withTensor "z" joinedSquare = .error (.packingFactorMismatch "z" 1 2) ∧
      (create 2 .standard).attempts [("z", joinedSquare), ("x", .square), ("y", .square)] = r := by
  have hsquare : PackedBatch.square.IsMade := Or.inl ⟨_, _, PackedBatch.pack_square⟩
  have hjoined : joinedSquare.IsMade :=
    Or.inr ⟨⟨.rowMajor, .two⟩, [.ofNat 1, .ofNat 2, .ofNat 3, .ofNat 4], 2, [2], rfl⟩
  obtain ⟨hkeys, hheld, -, hdirectives, -, hrefused, hperm⟩ := attempts_create .standard 2
    [("y", .square), ("z", joinedSquare), ("x", .square)] (by simp [hsquare, hjoined])
  obtain ⟨hx, -⟩ := hheld "x"
  obtain ⟨hrefusedBefore, -⟩ := hheld "z"
  have hz : "z" ∉ _ := fun hmem => by
    rw [NameMap.mem_keys, hrefusedBefore] at hmem
    cases hmem
  refine ⟨hkeys, hz, hx, ?_, (hrefused _ _ _).2 (.factor hz rfl (by decide)), hperm _ ?_ ?_⟩
  · rw [hdirectives, if_pos (NameMap.mem_keys.2 (by rw [hx]; rfl))]
    rfl
  · decide
  · decide

end Request

end EncryptedInference
