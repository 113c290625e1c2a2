import EncryptedInference.Proofs.Json.Numbers

/-!
# Printed documents are read back

A document whose strings denote texts and whose numbers are properly written (`Json.IsWritten`) is
what the text that `Json.compress` makes of it reads as: `parse?_compress`.  The proof follows the
reader: one statement for a document, one for the items and one for the fields that are left, each
with as much fuel as there are characters.
-/

namespace EncryptedInference.Json

namespace Reader

/-! ## Strings -/

theorem hexValue_hexDigit {n : Nat} (h : n < 16) : hexValue (hexDigit n) = some n := by
  revert n
  decide

theorem stringUnits_letter {d c : Char} (hd : d ≠ 'u') (h : letterEscape d = some c)
    (rest : List Char) :
    stringUnits ('\\' :: d :: rest) = (stringUnits rest).map fun p => (.char c :: p.1, p.2) := by
  rw [stringUnits]
  · simp only [h, bind, Option.bind, pure]
    cases stringUnits rest <;> rfl
  · rintro a b c d rest rfl
    exact absurd rfl hd

/-- The escape of a control character. -/
theorem stringUnits_control {c : Char} (h : c.toNat < 32) (rest : List Char) :
    stringUnits ('\\' :: 'u' :: '0' :: '0' :: hexDigit (c.toNat / 16) :: hexDigit (c.toNat % 16) ::
      rest) = (stringUnits rest).map fun p => (.char c :: p.1, p.2) := by
  have hhigh := hexValue_hexDigit (n := c.toNat / 16) (by omega)
  have hlow := hexValue_hexDigit (n := c.toNat % 16) (by omega)
  have hunit : hexUnit '0' '0' (hexDigit (c.toNat / 16)) (hexDigit (c.toNat % 16)) =
      some c.toNat := by
    have hzero : hexValue '0' = some 0 := rfl
    simp only [hexUnit, hhigh, hlow, hzero, bind, Option.bind, pure, Option.some.injEq]
    omega
  have hchar : Unit16.ofNat c.toNat = .char c := by
    have hsurrogate : (isHighSurrogate c.toNat || isLowSurrogate c.toNat) = false := by
      simp [isHighSurrogate, isLowSurrogate]
      omega
    rw [Unit16.ofNat, hsurrogate]
    simp [Char.ofNat_toNat]
  rw [stringUnits]
  simp only [hunit, hchar, bind, Option.bind, pure]
  cases stringUnits rest <;> rfl

theorem stringUnits_plain {c : Char} (hquote : c ≠ '"') (hslash : c ≠ '\\')
    (hcontrol : ¬ c.toNat < 32) (rest : List Char) :
    stringUnits (c :: rest) = (stringUnits rest).map fun p => (.char c :: p.1, p.2) := by
  rw [stringUnits]
  · simp only [hcontrol, hslash, decide_false, Bool.or_self, Bool.false_eq_true, if_false, bind,
      Option.bind, pure]
    cases stringUnits rest <;> rfl
  · exact fun h => hquote h
  · rintro a b c d rest rfl -
    exact hslash rfl
  · rintro c rest rfl -
    exact hslash rfl

theorem stringUnits_escape (c : Char) (rest : List Char) :
    stringUnits (escape c ++ rest) = (stringUnits rest).map fun p => (.char c :: p.1, p.2) := by
  unfold escape
  split_ifs with hquote hslash hback htab hline hfeed hreturn hcontrol
  · rw [hquote]
    exact stringUnits_letter (by decide) rfl rest
  · rw [hslash]
    exact stringUnits_letter (by decide) rfl rest
  · exact hback ▸ stringUnits_letter (by decide) rfl rest
  · exact htab ▸ stringUnits_letter (by decide) rfl rest
  · exact hline ▸ stringUnits_letter (by decide) rfl rest
  · exact hfeed ▸ stringUnits_letter (by decide) rfl rest
  · exact hreturn ▸ stringUnits_letter (by decide) rfl rest
  · exact stringUnits_control hcontrol rest
  · exact stringUnits_plain hquote hslash hcontrol rest

theorem stringUnits_quoted (cs rest : List Char) :
    stringUnits (cs.flatMap escape ++ '"' :: rest) = some (cs.map .char, rest) := by
  induction cs with
  | nil => rfl
  | cons c cs ih =>
    rw [List.flatMap_cons, List.append_assoc, stringUnits_escape, ih]
    rfl

theorem spelled_chars (cs : List Char) : spelled (cs.map .char) = some cs := by
  induction cs with
  | nil => rfl
  | cons c cs ih => simp [spelled, ih]

theorem toList_quote (s : String) (rest : List Char) :
    (quote s).toList ++ rest = '"' :: (s.toList.flatMap escape ++ '"' :: rest) := by
  simp [quote]

theorem stringLiteral_quoted (s : String) (rest : List Char) :
    stringLiteral (s.toList.flatMap escape ++ '"' :: rest) = some (some s, rest) := by
  simp [stringLiteral, stringUnits_quoted, spelled_chars]

end Reader

/-! ## Documents as characters -/

mutual

/-- Every string and every key denotes a text, and every number is properly written. -/
def IsWritten : Json → Prop
  | .null | .bool _ => True
  | .number l => l.written.IsProper
  | .string s => s.isSome
  | .array js => AreWritten js
  | .object fs => FieldsAreWritten fs

def AreWritten : List Json → Prop
  | [] => True
  | j :: js => IsWritten j ∧ AreWritten js

def FieldsAreWritten : List (Option String × Json) → Prop
  | [] => True
  | (key, j) :: fs => key.isSome ∧ IsWritten j ∧ FieldsAreWritten fs

end

/-- The items of a list after the first, up to the closing bracket. -/
def moreItems (js : List Json) : List Char := (compressItems "" "," js).toList ++ [']']

/-- The fields of an object after the first, up to the closing brace. -/
def moreFields (fs : List (Option String × Json)) : List Char :=
  (compressFields "" "," fs).toList ++ ['\x7d']

theorem moreItems_cons (j : Json) (js : List Json) :
    moreItems (j :: js) = ',' :: ((compress j).toList ++ moreItems js) := by
  have h := compressItems_append ("," ++ compress j) "" "," js
  rw [String.append_empty] at h
  simp [moreItems, compressItems, h]

theorem moreFields_cons (key : Option String) (j : Json) (fs : List (Option String × Json)) :
    moreFields ((key, j) :: fs) =
      ',' :: ((quote (key.getD "")).toList ++ ':' :: ((compress j).toList ++ moreFields fs)) := by
  have h := compressFields_append ("," ++ quote (key.getD "") ++ ":" ++ compress j) "" "," fs
  rw [String.append_empty] at h
  simp [moreFields, compressFields, h]

theorem toList_compress_array (j : Json) (js : List Json) :
    (compress (.array (j :: js))).toList = '[' :: ((compress j).toList ++ moreItems js) := by
  have h := compressItems_append ("[" ++ compress j) "" "," js
  rw [String.append_empty] at h
  simp [compress, moreItems, compressItems, h]

theorem toList_compress_object (key : Option String) (j : Json)
    (fs : List (Option String × Json)) :
    (compress (.object ((key, j) :: fs))).toList =
      '\x7b' :: ((quote (key.getD "")).toList ++
        ':' :: ((compress j).toList ++ moreFields fs)) := by
  have h := compressFields_append ("\x7b" ++ quote (key.getD "") ++ ":" ++ compress j) "" "," fs
  rw [String.append_empty] at h
  simp [compress, moreFields, compressFields, h]

/-- What is printed of an object stands between braces. -/
theorem exists_toList_compress_object (fs : List (Option String × Json)) :
    ∃ cs, (compress (.object fs)).toList = '\x7b' :: cs ++ ['\x7d'] := by
  cases fs with
  | nil => exact ⟨[], rfl⟩
  | cons f fs =>
    obtain ⟨key, j⟩ := f
    rw [toList_compress_object, moreFields]
    exact ⟨(quote (key.getD "")).toList ++ ':' :: ((compress j).toList ++
      (compressFields "" "," fs).toList), by simp⟩

theorem Reader.not_isSpace_of_number {c : Char} (h : c = '-' ∨ c.isDigit = true) :
    Reader.isSpace c = false ∧ c ∉ [']', '"', '[', '\x7b', 'n', 't', 'f'] := by
  rcases h with rfl | h
  · decide
  · constructor
    · simp only [isSpace, Bool.or_eq_false_iff, decide_eq_false_iff_not]
      refine ⟨⟨⟨?_, ?_⟩, ?_⟩, ?_⟩ <;> rintro rfl <;> cases h
    · simp only [List.mem_cons, List.not_mem_nil, or_false, not_or]
      refine ⟨?_, ?_, ?_, ?_, ?_, ?_, ?_⟩ <;> rintro rfl <;> cases h

/-- A document begins neither with a blank nor with a closing bracket. -/
theorem head_compress {j : Json} (h : IsWritten j) :
    ∃ c cs, (compress j).toList = c :: cs ∧ Reader.isSpace c = false ∧ c ≠ ']' := by
  cases j with
  | null => exact ⟨'n', ['u', 'l', 'l'], by simp [compress], rfl, by decide⟩
  | bool b => cases b <;> exact ⟨_, _, by simp [compress]; exact ⟨rfl, rfl⟩, rfl, by decide⟩
  | number l =>
    obtain ⟨c, cs, htext, hc⟩ := Reader.head_numberText h
    obtain ⟨hspace, hother⟩ := Reader.not_isSpace_of_number hc
    exact ⟨c, cs, by rw [compress, htext], hspace, fun e => hother (by simp [e])⟩
  | string s => exact ⟨'"', _, by simp [compress, quote]; rfl, rfl, by decide⟩
  | array js =>
    cases js with
    | nil => exact ⟨'[', [']'], by simp [compress, compressItems], rfl, by decide⟩
    | cons j js => exact ⟨'[', _, toList_compress_array j js, rfl, by decide⟩
  | object fs =>
    cases fs with
    | nil => exact ⟨'\x7b', ['\x7d'], by simp [compress, compressFields], rfl, by decide⟩
    | cons f fs => exact ⟨'\x7b', _, toList_compress_object f.1 f.2 fs, rfl, by decide⟩

namespace Reader

/-! ## Reading what was printed -/

theorem skipSpace_cons {c : Char} (h : isSpace c = false) (cs : List Char) :
    skipSpace (c :: cs) = c :: cs := by
  simp [skipSpace, h]

theorem stops_cons {c : Char} (h : c = ',' ∨ c = ']' ∨ c = '\x7d') (cs : List Char) :
    Stops (c :: cs) := by
  intro d hd
  obtain rfl := Option.some.inj hd
  rcases h with rfl | rfl | rfl <;> decide

theorem stops_moreItems (js : List Json) (rest : List Char) : Stops (moreItems js ++ rest) := by
  cases js with
  | nil => exact stops_cons (Or.inr (Or.inl rfl)) rest
  | cons j js =>
    rw [moreItems_cons]
    exact stops_cons (Or.inl rfl) _

theorem stops_moreFields (fs : List (Option String × Json)) (rest : List Char) :
    Stops (moreFields fs ++ rest) := by
  cases fs with
  | nil => exact stops_cons (Or.inr (Or.inr rfl)) rest
  | cons f fs =>
    rw [moreFields_cons]
    exact stops_cons (Or.inl rfl) _

theorem value_number {l : Literal} (h : l.written.IsProper) (fuel : Nat) {rest : List Char}
    (hrest : Stops rest) :
    value (fuel + 1) ((numberText l).toList ++ rest) = some (.number l, rest) := by
  have hread := number_append h hrest
  obtain ⟨c, cs, htext, hc⟩ := head_numberText h
  obtain ⟨hspace, hother⟩ := not_isSpace_of_number hc
  simp only [List.mem_cons, List.not_mem_nil, or_false, not_or] at hother
  obtain ⟨-, hquote, hlist, hobject, hnull, htrue, hfalse⟩ := hother
  rw [htext, List.cons_append] at hread ⊢
  rw [value, skipSpace_cons hspace]
  simp only [hquote, hlist, hobject, hnull, htrue, hfalse, if_false, hread, Option.map_some]

theorem value_string (s : String) (fuel : Nat) (rest : List Char) :
    value (fuel + 1) ((quote s).toList ++ rest) = some (.string (some s), rest) := by
  rw [toList_quote, value, skipSpace_cons rfl]
  simp [stringLiteral_quoted]

/-- A list that is not empty is read by its items. -/
theorem value_array {j : Json} (h : IsWritten j) (js : List Json) (fuel : Nat) (rest : List Char) :
    value (fuel + 1) ((compress (.array (j :: js))).toList ++ rest) =
      (items fuel ((compress j).toList ++ (moreItems js ++ rest))).map fun (js, rest) =>
        (.array js, rest) := by
  obtain ⟨c, cs, htext, hspace, hclose⟩ := head_compress h
  rw [toList_compress_array, htext]
  simp only [List.cons_append, List.append_assoc]
  rw [value, skipSpace_cons rfl]
  simp only [skipSpace_cons hspace, Char.reduceEq, if_false, if_true]
  split
  · rename_i heq
    exact absurd (List.cons.inj heq).1 hclose
  · rfl

/-- An object that is not empty is read by its fields. -/
theorem value_object (key : Option String) (j : Json) (fs : List (Option String × Json))
    (fuel : Nat) (rest : List Char) :
    value (fuel + 1) ((compress (.object ((key, j) :: fs))).toList ++ rest) =
      (fields fuel ((quote (key.getD "")).toList ++
        ':' :: ((compress j).toList ++ (moreFields fs ++ rest)))).map fun (fs, rest) =>
          (.object fs, rest) := by
  rw [toList_compress_object]
  simp only [List.cons_append, List.append_assoc, toList_quote]
  rw [value, skipSpace_cons rfl]
  simp only [skipSpace_cons (c := '"') rfl, Char.reduceEq, if_false, if_true]
  rfl

/-- The items that are left are read by the first of them and those after it. -/
theorem items_succ {j : Json} {js : List Json} {fuel : Nat} {rest : List Char}
    (h : value fuel ((compress j).toList ++ (moreItems js ++ rest)) =
      some (j, moreItems js ++ rest))
    (hs : ∀ k ks, js = k :: ks →
      items fuel ((compress k).toList ++ (moreItems ks ++ rest)) = some (js, rest)) :
    items (fuel + 1) ((compress j).toList ++ (moreItems js ++ rest)) = some (j :: js, rest) := by
  rw [items, h]
  cases js with
  | nil => rfl
  | cons k ks =>
    rw [moreItems_cons, List.cons_append, List.append_assoc]
    simp only [bind, Option.bind, skipSpace_cons (c := ',') rfl, hs k ks rfl, pure]

/-- The fields that are left are read by the first of them and those after it. -/
theorem fields_succ {key : String} {j : Json} {fs : List (Option String × Json)} {fuel : Nat}
    {rest : List Char}
    (h : value fuel ((compress j).toList ++ (moreFields fs ++ rest)) =
      some (j, moreFields fs ++ rest))
    (hs : ∀ k v gs, fs = (k, v) :: gs →
      fields fuel ((quote (k.getD "")).toList ++
        ':' :: ((compress v).toList ++ (moreFields gs ++ rest))) = some (fs, rest)) :
    fields (fuel + 1) ((quote key).toList ++
      ':' :: ((compress j).toList ++ (moreFields fs ++ rest))) =
        some ((some key, j) :: fs, rest) := by
  rw [toList_quote, fields, skipSpace_cons rfl]
  simp only [stringLiteral_quoted, bind, Option.bind, skipSpace_cons (c := ':') rfl, h]
  cases fs with
  | nil => rfl
  | cons f gs =>
    rw [moreFields_cons, List.cons_append, List.append_assoc, List.cons_append, List.append_assoc]
    simp only [skipSpace_cons (c := ',') rfl, hs f.1 f.2 gs rfl, pure]

/-- With so much fuel, printed documents of no more characters are read back. -/
structure ReadsBack (fuel : Nat) : Prop where
  value : ∀ {j : Json}, IsWritten j → (compress j).toList.length ≤ fuel →
    ∀ {rest : List Char}, Stops rest → value fuel ((compress j).toList ++ rest) = some (j, rest)
  items : ∀ {j : Json}, IsWritten j → ∀ {js : List Json}, AreWritten js →
    ((compress j).toList ++ moreItems js).length ≤ fuel → ∀ rest : List Char,
    items fuel ((compress j).toList ++ (moreItems js ++ rest)) = some (j :: js, rest)
  fields : ∀ {key : Option String}, key.isSome → ∀ {j : Json}, IsWritten j →
    ∀ {fs : List (Option String × Json)}, FieldsAreWritten fs →
    ((quote (key.getD "")).toList ++ ':' :: ((compress j).toList ++ moreFields fs)).length ≤ fuel →
    ∀ rest : List Char, fields fuel ((quote (key.getD "")).toList ++
      ':' :: ((compress j).toList ++ (moreFields fs ++ rest))) = some ((key, j) :: fs, rest)

theorem readsBack_zero : ReadsBack 0 where
  value {j} h hfuel := by
    obtain ⟨c, cs, htext, -, -⟩ := head_compress h
    simp [htext] at hfuel
  items := by
    intro j _ js _ hfuel
    simp [moreItems] at hfuel
  fields := by
    intro key _ j _ fs _ hfuel
    simp at hfuel

theorem ReadsBack.value_succ {fuel : Nat} (ih : ReadsBack fuel) {j : Json} (h : IsWritten j)
    (hfuel : (compress j).toList.length ≤ fuel + 1) {rest : List Char} (hrest : Stops rest) :
    Reader.value (fuel + 1) ((compress j).toList ++ rest) = some (j, rest) := by
  cases j with
  | null => simp [compress, Reader.value, skipSpace_cons, isSpace, keyword?]
  | bool b => cases b <;> simp [compress, Reader.value, skipSpace_cons, isSpace, keyword?]
  | number l => exact value_number h fuel hrest
  | string s =>
    obtain ⟨s, rfl⟩ := Option.isSome_iff_exists.1 h
    exact value_string s fuel rest
  | array js =>
    cases js with
    | nil => simp [compress, compressItems, Reader.value, skipSpace_cons, isSpace]
    | cons j js =>
      rw [toList_compress_array, List.length_cons] at hfuel
      rw [value_array h.1, ih.items h.1 h.2 (Nat.le_of_succ_le_succ hfuel)]
      rfl
  | object fs =>
    cases fs with
    | nil => simp [compress, compressFields, Reader.value, skipSpace_cons, isSpace]
    | cons f fs =>
      obtain ⟨key, j⟩ := f
      rw [toList_compress_object, List.length_cons] at hfuel
      rw [value_object, ih.fields h.1 h.2.1 h.2.2 (Nat.le_of_succ_le_succ hfuel)]
      rfl

/-- Induction on the fuel, as the reader spends it. -/
theorem readsBack (fuel : Nat) : ReadsBack fuel := by
  induction fuel with
  | zero => exact readsBack_zero
  | succ fuel ih =>
    refine ⟨ih.value_succ, ?_, ?_⟩
    · intro j h js hs hfuel rest
      refine items_succ (ih.value h ?_ (stops_moreItems js rest)) ?_
      · simp only [List.length_append, moreItems, List.length_singleton] at hfuel
        omega
      · rintro k ks rfl
        rw [moreItems_cons] at hfuel
        refine ih.items hs.1 hs.2 ?_ rest
        simp only [List.length_append, List.length_cons] at hfuel ⊢
        omega
    · intro key hkey j h fs hs hfuel rest
      obtain ⟨key, rfl⟩ := Option.isSome_iff_exists.1 hkey
      refine fields_succ (ih.value h ?_ (stops_moreFields fs rest)) ?_
      · simp only [List.length_append, List.length_cons] at hfuel
        omega
      · rintro k v gs rfl
        rw [moreFields_cons] at hfuel
        refine ih.fields hs.1 hs.2.1 hs.2.2 ?_ rest
        simp only [List.length_append, List.length_cons] at hfuel ⊢
        omega

end Reader

/-- What is printed is read back. -/
theorem parse?_compress {j : Json} (h : IsWritten j) : parse? (compress j) = some j := by
  have hstops : Reader.Stops [] := by rintro c ⟨⟩
  have hread := (Reader.readsBack ((compress j).toList.length + 1)).value h (Nat.le_succ _) hstops
  rw [List.append_nil] at hread
  rw [parse?, hread]
  rfl

end EncryptedInference.Json
