import EncryptedInference.NameMap

/-!
# Entries of maps

What a map holds, seen from the list of its entries: `NameMap.mem_entries` for a single one,
`NameMap.get?_foldl_insert` for a list of entries that are put into a map, and
`NameMap.forall_ofList` for what holds of all of them.  Replacing the values goes along with putting
in and taking out (`NameMap.mapValues_insert`, `NameMap.mapValues_erase`).
-/

namespace EncryptedInference

variable {α : Type}

/-- In a list of entries with different names, a name picks out its entry. -/
theorem filter_name_eq {l : List (String × α)} (h : (l.map Prod.fst).Nodup) {e : String × α}
    (he : e ∈ l) : l.filter (fun f => f.1 = e.1) = [e] := by
  induction l with
  | nil => cases he
  | cons f l ih =>
    rw [List.map_cons, List.nodup_cons] at h
    have hne : ∀ g ∈ l, g.1 ≠ f.1 := by
      intro g hg heq
      have hmem : g.1 ∈ l.map Prod.fst := List.mem_map_of_mem hg
      rw [heq] at hmem
      exact h.1 hmem
    rcases List.mem_cons.1 he with rfl | he
    · rw [List.filter_cons_of_pos (by simp), List.filter_eq_nil_iff.2]
      intro g hg
      simpa using hne g hg
    · have hfe : f.1 ≠ e.1 := Ne.symm (hne e he)
      rw [List.filter_cons_of_neg (by simpa using hfe), ih h.2 he]

theorem lookup_eq_some_of_mem {l : List (String × α)} (h : (l.map Prod.fst).Nodup)
    {e : String × α} (he : e ∈ l) : l.lookup e.1 = some e.2 := by
  induction l with
  | nil => cases he
  | cons f l ih =>
    rw [List.map_cons, List.nodup_cons] at h
    rw [NameMap.lookup_entry_cons]
    rcases List.mem_cons.1 he with rfl | he
    · rw [if_pos rfl]
    · have hne : e.1 ≠ f.1 := by
        intro heq
        have hmem : e.1 ∈ l.map Prod.fst := List.mem_map_of_mem he
        rw [heq] at hmem
        exact h.1 hmem
      rw [if_neg hne, ih h.2 he]

theorem lookup_eq_none_of_not_mem {l : List (String × α)} {name : String}
    (h : name ∉ l.map Prod.fst) : l.lookup name = none := by
  rw [List.lookup_eq_none_iff]
  intro e he
  have hne : name ≠ e.1 := by
    rintro rfl
    exact h (List.mem_map_of_mem he)
  simpa using hne

namespace NameMap

theorem keys_nodup (m : NameMap α) : m.keys.Nodup := by
  apply List.pairwise_map.2
  apply m.sorted.imp
  intro e f hlt heq
  rw [heq] at hlt
  exact String.lt_irrefl _ hlt

theorem mem_entries {m : NameMap α} {name : String} {value : α} :
    (name, value) ∈ m.entries ↔ m.get? name = some value := by
  constructor
  · intro h
    exact lookup_eq_some_of_mem m.keys_nodup h
  · intro h
    obtain ⟨before, after, heq, -⟩ := List.lookup_eq_some_iff.1 h
    rw [heq]
    simp

theorem isEmpty_insert (m : NameMap α) (name : String) (value : α) :
    (m.insert name value).isEmpty = false := by
  have hmem : (name, value) ∈ (m.insert name value).entries :=
    mem_entries.2 (by rw [get?_insert, if_pos rfl])
  rw [isEmpty, List.isEmpty_eq_false_iff]
  exact List.ne_nil_of_mem hmem

/-- Entries with different names that are put into a map go before what is there. -/
theorem get?_foldl_insert {l : List (String × α)} (h : (l.map Prod.fst).Nodup) (m : NameMap α)
    (name : String) :
    (l.foldl (fun m e => m.insert e.1 e.2) m).get? name = (l.lookup name).or (m.get? name) := by
  induction l generalizing m with
  | nil => rfl
  | cons e l ih =>
    rw [List.map_cons, List.nodup_cons] at h
    rw [List.foldl_cons, ih h.2, get?_insert, lookup_entry_cons]
    by_cases hname : name = e.1
    · rw [if_pos hname, if_pos hname, hname, lookup_eq_none_of_not_mem h.1]
      rfl
    · rw [if_neg hname, if_neg hname]

/-- The entries of a map make up the map. -/
theorem ofList_entries (m : NameMap α) : ofList m.entries = m := by
  apply ext_get?
  intro name
  rw [ofList, get?_foldl_insert m.keys_nodup, get?_empty, Option.or_none]
  rfl

/-! ## Replaced values -/

section

variable {β : Type} (f : String → α → β) (m : NameMap α)

theorem keys_mapValues : (m.mapValues f).keys = m.keys := List.map_map

theorem mapValues_insert (name : String) (value : α) :
    (m.insert name value).mapValues f = (m.mapValues f).insert name (f name value) := by
  apply ext_get?
  intro other
  rw [get?_mapValues, get?_insert, get?_insert, get?_mapValues]
  by_cases hname : other = name
  · rw [if_pos hname, if_pos hname, hname]
    rfl
  · rw [if_neg hname, if_neg hname]

theorem mapValues_erase (name : String) :
    (m.erase name).mapValues f = (m.mapValues f).erase name := by
  apply ext_get?
  intro other
  rw [get?_mapValues, get?_erase, get?_erase, get?_mapValues]
  by_cases hname : other = name
  · rw [if_pos hname, if_pos hname]
    rfl
  · rw [if_neg hname, if_neg hname]

theorem mapValues_foldl_erase (names : List String) :
    (names.foldl erase m).mapValues f = names.foldl erase (m.mapValues f) := by
  induction names generalizing m with
  | nil => rfl
  | cons name names ih => rw [List.foldl_cons, List.foldl_cons, ih, mapValues_erase]

end

/-- Maps with the same names list them alike. -/
theorem keys_congr {β : Type} {m : NameMap α} {m' : NameMap β}
    (h : ∀ name, (m.get? name).isSome = (m'.get? name).isSome) : m.keys = m'.keys := by
  have hunit : m.mapValues (fun _ _ => ()) = m'.mapValues (fun _ _ => ()) := by
    apply ext_get?
    intro name
    have hname := h name
    rw [get?_mapValues, get?_mapValues]
    revert hname
    cases m.get? name <;> cases m'.get? name <;> simp
  rw [← keys_mapValues (fun _ _ => ()), hunit, keys_mapValues]

/-! ## All values -/

variable {p : α → Prop}

theorem forall_insert {m : NameMap α} (hm : ∀ e ∈ m.entries, p e.2) (name : String) {value : α}
    (hvalue : p value) : ∀ e ∈ (m.insert name value).entries, p e.2 := by
  rintro ⟨other, v⟩ he
  have hget := mem_entries.1 he
  rw [get?_insert] at hget
  by_cases hname : other = name
  · rw [if_pos hname] at hget
    rwa [← Option.some.inj hget]
  · rw [if_neg hname] at hget
    exact hm (other, v) (mem_entries.2 hget)

/-- What holds of all entries of a list holds of the map that is made of them. -/
theorem forall_ofList {l : List (String × α)} (h : ∀ e ∈ l, p e.2) :
    ∀ e ∈ (ofList l).entries, p e.2 := by
  have hfold : ∀ m : NameMap α, (∀ e ∈ m.entries, p e.2) →
      ∀ e ∈ (l.foldl (fun m e => m.insert e.1 e.2) m).entries, p e.2 := by
    induction l with
    | nil => exact fun m hm => hm
    | cons e l ih =>
      obtain ⟨hhead, htail⟩ := List.forall_mem_cons.1 h
      intro m hm
      exact ih htail _ (forall_insert hm e.1 hhead)
  exact hfold empty (by simp [empty])

end NameMap

end EncryptedInference
