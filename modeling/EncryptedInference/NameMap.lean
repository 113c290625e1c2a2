/-!
# Maps from names

A finite map from texts, kept as its entries in the byte order of the names, so that two maps with
the same contents are equal and are listed alike. The view is `get?`: it tells maps apart
(`ext_get?`), and each operation says what it does to it (`get?_insert`, `get?_erase`,
`get?_mapValues`, `mem_keys`).
-/

namespace EncryptedInference

/-- A finite map from texts, listed in the order of the names. -/
structure NameMap (α : Type) where
  entries : List (String × α)
  sorted : entries.Pairwise (fun a b => a.1 < b.1)

namespace NameMap

variable {α β : Type}

instance [DecidableEq α] : DecidableEq (NameMap α) := fun a b =>
  if h : a.entries = b.entries then
    isTrue (by cases a; cases b; cases h; rfl)
  else
    isFalse (fun e => h (by rw [e]))

/-! ## Sorted lists of entries -/

/-- Puts an entry in its place; an entry of that name is replaced. -/
def insertEntry (name : String) (value : α) : List (String × α) → List (String × α)
  | [] => [(name, value)]
  | (n, v) :: rest =>
    if name < n then (name, value) :: (n, v) :: rest
    else if n < name then (n, v) :: insertEntry name value rest
    else (name, value) :: rest

theorem name_lt_of_insertEntry {name : String} {value : α} {l : List (String × α)} {n : String}
    (hn : n < name) (hl : ∀ e ∈ l, n < e.1) : ∀ e ∈ insertEntry name value l, n < e.1 := by
  induction l with
  | nil => simpa [insertEntry] using hn
  | cons e rest ih =>
    obtain ⟨m, v⟩ := e
    have hm : n < m := hl (m, v) (by simp)
    have hrest : ∀ e ∈ rest, n < e.1 := fun e he => hl e (by simp [he])
    intro e he
    unfold insertEntry at he
    split at he
    · rcases List.mem_cons.1 he with rfl | he
      · exact hn
      · exact hl e he
    · split at he
      · rcases List.mem_cons.1 he with rfl | he
        · exact hm
        · exact ih hrest e he
      · rcases List.mem_cons.1 he with rfl | he
        · exact hn
        · exact hrest e he

theorem pairwise_insertEntry {name : String} {value : α} {l : List (String × α)}
    (h : l.Pairwise (fun a b => a.1 < b.1)) :
    (insertEntry name value l).Pairwise (fun a b => a.1 < b.1) := by
  induction l with
  | nil => simp [insertEntry]
  | cons e rest ih =>
    obtain ⟨m, v⟩ := e
    obtain ⟨hhead, htail⟩ := List.pairwise_cons.1 h
    unfold insertEntry
    split
    · rename_i hlt
      refine List.pairwise_cons.2 ⟨fun e he => ?_, h⟩
      rcases List.mem_cons.1 he with rfl | he
      · exact hlt
      · exact String.lt_trans hlt (hhead e he)
    · split
      · rename_i hgt
        exact List.pairwise_cons.2 ⟨name_lt_of_insertEntry hgt hhead, ih htail⟩
      · rename_i hge hle
        have heq : name = m := by
          by_cases hne : name = m
          · exact hne
          · exact absurd (String.le_antisymm (String.not_lt.1 hle) (String.not_lt.1 hge)) hne
        subst heq
        exact List.pairwise_cons.2 ⟨hhead, htail⟩

theorem lookup_entry_cons (n other : String) (v : α) (l : List (String × α)) :
    ((n, v) :: l).lookup other = if other = n then some v else l.lookup other := by
  by_cases h : other = n
  · simp [h]
  · rw [List.lookup_cons, show (other == n) = false by simpa using h, if_neg h]

theorem lookup_insertEntry (name other : String) (value : α) (l : List (String × α)) :
    (insertEntry name value l).lookup other =
      if other = name then some value else l.lookup other := by
  induction l with
  | nil => exact lookup_entry_cons name other value []
  | cons e rest ih =>
    obtain ⟨m, v⟩ := e
    unfold insertEntry
    split
    · exact lookup_entry_cons name other value _
    · rename_i hge
      split
      · rename_i hlt
        have hne : m ≠ name := fun e => String.lt_irrefl _ (e ▸ hlt)
        grind [lookup_entry_cons]
      · rename_i hle
        have heq : name = m := String.le_antisymm (String.not_lt.1 hle) (String.not_lt.1 hge)
        grind [lookup_entry_cons]

theorem lookup_eq_none_of_lt {name : String} {l : List (String × α)}
    (h : ∀ e ∈ l, name < e.1) : l.lookup name = none := by
  induction l with
  | nil => rfl
  | cons e rest ih =>
    obtain ⟨n, v⟩ := e
    have hlt : name < n := h (n, v) (by simp)
    have hne : name ≠ n := fun e => String.lt_irrefl _ (e ▸ hlt)
    rw [lookup_entry_cons, if_neg hne]
    exact ih fun e he => h e (by simp [he])

/-- Sorted lists of entries in which every name has the same value are equal. -/
theorem entries_eq_of_lookup {l₁ l₂ : List (String × α)}
    (h₁ : l₁.Pairwise (fun a b => a.1 < b.1)) (h₂ : l₂.Pairwise (fun a b => a.1 < b.1))
    (h : ∀ name, l₁.lookup name = l₂.lookup name) : l₁ = l₂ := by
  induction l₁ generalizing l₂ with
  | nil => cases l₂ with
    | nil => rfl
    | cons b r₂ =>
      have := h b.1
      rw [lookup_entry_cons, if_pos rfl] at this
      cases this
  | cons a r₁ ih => cases l₂ with
    | nil =>
      have := h a.1
      rw [lookup_entry_cons, if_pos rfl] at this
      cases this
    | cons b r₂ =>
      obtain ⟨n, v⟩ := a
      obtain ⟨m, w⟩ := b
      obtain ⟨ha, hr₁⟩ := List.pairwise_cons.1 h₁
      obtain ⟨hb, hr₂⟩ := List.pairwise_cons.1 h₂
      have hnm : ¬ n < m := fun hlt => by
        have := h n
        rw [lookup_eq_none_of_lt (l := (m, w) :: r₂), lookup_entry_cons, if_pos rfl] at this
        · cases this
        · intro e he
          rcases List.mem_cons.1 he with rfl | he
          · exact hlt
          · exact String.lt_trans hlt (hb e he)
      have hmn : ¬ m < n := fun hlt => by
        have := h m
        rw [lookup_eq_none_of_lt (l := (n, v) :: r₁), lookup_entry_cons, if_pos rfl] at this
        · cases this
        · intro e he
          rcases List.mem_cons.1 he with rfl | he
          · exact hlt
          · exact String.lt_trans hlt (ha e he)
      have heq : n = m := String.le_antisymm (String.not_lt.1 hmn) (String.not_lt.1 hnm)
      subst heq
      have hv := h n
      simp only [lookup_entry_cons, if_true, Option.some.injEq] at hv
      subst hv
      congr 1
      refine ih hr₁ hr₂ fun name => ?_
      by_cases hn : name = n
      · subst hn
        rw [lookup_eq_none_of_lt ha, lookup_eq_none_of_lt hb]
      · simpa [lookup_entry_cons, hn] using h name

/-! ## Operations -/

/-- The map without entries. -/
def empty : NameMap α := ⟨[], List.Pairwise.nil⟩

instance : Inhabited (NameMap α) := ⟨empty⟩

/-- The value of a name. -/
def get? (m : NameMap α) (name : String) : Option α := m.entries.lookup name

def contains (m : NameMap α) (name : String) : Bool := (m.get? name).isSome

/-- The map with `name` set to `value`. -/
def insert (m : NameMap α) (name : String) (value : α) : NameMap α :=
  ⟨insertEntry name value m.entries, pairwise_insertEntry m.sorted⟩

/-- The map without `name`. -/
def erase (m : NameMap α) (name : String) : NameMap α :=
  ⟨m.entries.filter (fun e => e.1 ≠ name), m.sorted.sublist List.filter_sublist⟩

/-- The map with each value replaced. -/
def mapValues (f : String → α → β) (m : NameMap α) : NameMap β :=
  ⟨m.entries.map (fun e => (e.1, f e.1 e.2)), by
    rw [List.pairwise_map]; exact m.sorted⟩

/-- The entries of a list, a later entry of a name replacing an earlier one. -/
def ofList (entries : List (String × α)) : NameMap α :=
  entries.foldl (fun m e => m.insert e.1 e.2) empty

/-- The names, in order. -/
def keys (m : NameMap α) : List String := m.entries.map (·.1)

def isEmpty (m : NameMap α) : Bool := m.entries.isEmpty

/-! ## The view -/

/-- Maps in which every name has the same value are equal. -/
theorem ext_get? {m₁ m₂ : NameMap α} (h : ∀ name, m₁.get? name = m₂.get? name) : m₁ = m₂ := by
  obtain ⟨l₁, h₁⟩ := m₁
  obtain ⟨l₂, h₂⟩ := m₂
  have : l₁ = l₂ := entries_eq_of_lookup h₁ h₂ h
  subst this
  rfl

theorem get?_empty (name : String) : (empty : NameMap α).get? name = none := rfl

/-- Reading after setting. -/
theorem get?_insert (m : NameMap α) (name other : String) (value : α) :
    (m.insert name value).get? other = if other = name then some value else m.get? other :=
  lookup_insertEntry name other value m.entries

/-- Reading after dropping. -/
theorem get?_erase (m : NameMap α) (name other : String) :
    (m.erase name).get? other = if other = name then none else m.get? other := by
  obtain ⟨l, h⟩ := m
  simp only [get?, erase]
  clear h
  induction l with
  | nil => simp
  | cons e rest ih =>
    obtain ⟨n, v⟩ := e
    by_cases hn : n = name
    · rw [List.filter_cons_of_neg (by simpa using hn)]
      grind [lookup_entry_cons]
    · rw [List.filter_cons_of_pos (by simpa using hn)]
      grind [lookup_entry_cons]

/-- Reading after replacing the values. -/
theorem get?_mapValues (f : String → α → β) (m : NameMap α) (name : String) :
    (m.mapValues f).get? name = (m.get? name).map (f name) := by
  obtain ⟨l, h⟩ := m
  simp only [get?, mapValues]
  clear h
  induction l with
  | nil => rfl
  | cons e rest ih =>
    obtain ⟨n, v⟩ := e
    rw [List.map_cons, lookup_entry_cons, lookup_entry_cons]
    by_cases hn : name = n
    · simp [hn]
    · rw [if_neg hn, if_neg hn, ih]

theorem mem_keys {m : NameMap α} {name : String} : name ∈ m.keys ↔ (m.get? name).isSome := by
  obtain ⟨l, h⟩ := m
  simp only [get?, keys]
  clear h
  induction l with
  | nil => simp
  | cons e rest ih =>
    obtain ⟨n, v⟩ := e
    rw [List.map_cons, List.mem_cons, ih, lookup_entry_cons]
    by_cases hn : name = n <;> simp [hn]

end NameMap

end EncryptedInference
