import EncryptedInference.Json.Decode
import EncryptedInference.Proofs.Double.Nearest
import EncryptedInference.Proofs.NameMaps

/-!
# What is read off documents

Whatever the document is, a whole number that is read off it is below its limit (`lt_of_nat?`) and a
double is finite (`isFinite_of_double?`).  What holds of every value that is read holds of the lists
and maps of such values (`forall_of_list?`, `forall_of_map?`).
-/

namespace EncryptedInference

namespace Json

theorem lt_of_nat? {limit n : Nat} {j : Json} (h : j.nat? limit = some n) : n < limit := by
  unfold nat? at h
  split at h
  · exact of_decide_eq_true (Option.filter_eq_some_iff.1 h).2
  · cases h

theorem isFinite_of_double? {j : Json} {x : Double} (h : j.double? = some x) :
    x.isFinite = true := by
  unfold double? at h
  split at h
  · exact Written.isFinite_of_toDouble? h
  · cases h

variable {α β : Type} {p : β → Prop}

theorem forall_of_mapM {f : α → Option β} (hf : ∀ x y, f x = some y → p y) {xs : List α}
    {ys : List β} (h : xs.mapM f = some ys) : ∀ y ∈ ys, p y := by
  induction xs generalizing ys with
  | nil =>
    cases h
    exact List.forall_mem_nil _
  | cons x xs ih =>
    rw [List.mapM_cons] at h
    obtain ⟨y, hy, h⟩ := Option.bind_eq_some_iff.1 h
    obtain ⟨rest, hrest, h⟩ := Option.bind_eq_some_iff.1 h
    cases h
    exact List.forall_mem_cons.2 ⟨hf x y hy, ih hrest⟩

theorem forall_of_list? {item : Json → Option β} (hitem : ∀ j y, item j = some y → p y) {j : Json}
    {ys : List β} (h : j.list? item = some ys) : ∀ y ∈ ys, p y := by
  unfold list? at h
  split at h
  · exact forall_of_mapM hitem h
  · cases h

theorem forall_of_map? {value : Json → Option β} (hvalue : ∀ j y, value j = some y → p y)
    {j : Json} {m : NameMap β} (h : j.map? value = some m) : ∀ e ∈ m.entries, p e.2 := by
  obtain ⟨fs, -, h⟩ := Option.bind_eq_some_iff.1 h
  obtain ⟨entries, hentries, h⟩ := Option.bind_eq_some_iff.1 h
  cases h
  apply NameMap.forall_ofList
  refine forall_of_mapM (p := fun e => p e.2) ?_ hentries
  intro f e he
  obtain ⟨y, hy, rfl⟩ := Option.map_eq_some_iff.1 he
  exact hvalue f.2 y hy

end Json

end EncryptedInference
