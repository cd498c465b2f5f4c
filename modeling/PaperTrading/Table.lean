/-!
# Tables

A table maps texts to values and keeps its keys in the order of their first insertion.

* `Table.insert`: a known key keeps its place and takes the new value, a new key goes to the end.
* `Table.find?_insert`: what is found after an insertion.
* `Table.keys_insert`, `Table.nodup_insert`: an insertion adds at most its own key, and keys stay
  distinct.
* `Table.mem_entries_iff`: the entries of a table with distinct keys are what is found in it.
* `Table.nodup_ofList`, `Table.entries_ofList`: insertions make a table with distinct keys, and
  entries whose keys are distinct make a table of just these entries.
* `Table.find?_erase_self`: an erased key is gone.
* `Table.find?_map`: what is found when every value has been changed.
-/

namespace PaperTrading

/-- **A table with texts as keys,** in the order of first insertion. -/
structure Table (β : Type) where
  entries : List (String × β)
  deriving DecidableEq, Repr

namespace Table

variable {β γ : Type}

/-- The table without entries. -/
def empty : Table β := ⟨[]⟩

instance : Inhabited (Table β) := ⟨empty⟩

def keys (t : Table β) : List String := t.entries.map (·.1)

def values (t : Table β) : List β := t.entries.map (·.2)

def isEmpty (t : Table β) : Bool := t.entries.isEmpty

/-- The value of a key. -/
def find? (t : Table β) (k : String) : Option β :=
  (t.entries.find? (·.1 == k)).map (·.2)

def contains (t : Table β) (k : String) : Bool := (t.find? k).isSome

/-- Puts a value at a key among some entries. -/
def put (k : String) (v : β) : List (String × β) → List (String × β)
  | [] => [(k, v)]
  | e :: es => if e.1 = k then (k, v) :: es else e :: put k v es

/-- **The table with a value at a key.** -/
def insert (t : Table β) (k : String) (v : β) : Table β := ⟨put k v t.entries⟩

/-- The table without a key. -/
def erase (t : Table β) (k : String) : Table β := ⟨t.entries.filter (·.1 ≠ k)⟩

/-- The table that arises by inserting entries from left to right. -/
def ofList (es : List (String × β)) : Table β := es.foldl (fun t e => t.insert e.1 e.2) empty

/-- The table with every value changed. -/
def map (f : β → γ) (t : Table β) : Table γ := ⟨t.entries.map fun e => (e.1, f e.2)⟩

/-- The table with every value changed, or the first failure to change one. -/
def mapM {ε : Type} (f : β → Except ε γ) (t : Table β) : Except ε (Table γ) := do
  return ⟨← t.entries.mapM fun e => do return (e.1, ← f e.2)⟩

/-! ### Insertion -/

theorem find?_put (k k' : String) (v : β) (es : List (String × β)) :
    (put k v es).find? (·.1 == k') =
      if k = k' then some (k, v) else es.find? (·.1 == k') := by
  induction es with
  | nil => by_cases h : k = k' <;> simp [put, h]
  | cons e es ih =>
    by_cases he : e.1 = k
    · by_cases h : k = k' <;> simp [put, he, h]
    · by_cases h : k = k'
      · subst h; simp [put, he, ih]
      · by_cases he' : e.1 = k'
        · simp [put, he', h, Ne.symm h]
        · simp [put, he, he', h, ih]

/-- **What is found after an insertion.** -/
theorem find?_insert (t : Table β) (k k' : String) (v : β) :
    (t.insert k v).find? k' = if k = k' then some v else t.find? k' := by
  simp only [find?, insert, find?_put]; split <;> rfl

theorem find?_insert_self (t : Table β) (k : String) (v : β) :
    (t.insert k v).find? k = some v := by simp [find?_insert]

theorem find?_insert_of_ne (t : Table β) {k k' : String} (v : β) (h : k ≠ k') :
    (t.insert k v).find? k' = t.find? k' := by simp [find?_insert, h]

/-- A value that a table holds already changes nothing when it is inserted. -/
theorem insert_of_find? {t : Table β} {k : String} {v : β} (h : t.find? k = some v) :
    t.insert k v = t := by
  obtain ⟨es⟩ := t
  unfold find? at h
  unfold insert
  congr 1
  induction es with
  | nil => simp at h
  | cons e es ih =>
    by_cases he : e.1 = k
    · have hv : e.2 = v := by simpa [he] using h
      rw [put, if_pos he, ← hv, ← he]
    · have htail : (es.find? (·.1 == k)).map (·.2) = some v := by simpa [he] using h
      rw [put, if_neg he, ih htail]

theorem mem_keys {t : Table β} {k : String} : k ∈ t.keys ↔ t.contains k = true := by
  simp [keys, contains, find?]

theorem keys_put (k : String) (v : β) (es : List (String × β)) :
    (put k v es).map (·.1) =
      if k ∈ es.map (·.1) then es.map (·.1) else es.map (·.1) ++ [k] := by
  induction es with
  | nil => simp [put]
  | cons e es ih =>
    by_cases he : e.1 = k
    · subst he; simp [put]
    · have hk : k ≠ e.1 := fun h => he h.symm
      simp only [put, if_neg he, List.map_cons, ih, List.mem_cons, hk, false_or]
      split <;> simp

/-- An entry after an insertion is the new one or one from before. -/
theorem mem_put {k : String} {v : β} {es : List (String × β)} {e : String × β}
    (he : e ∈ put k v es) : e = (k, v) ∨ e ∈ es := by
  induction es with
  | nil => exact .inl (List.mem_singleton.mp he)
  | cons e' es ih =>
    rw [put] at he
    split at he <;> rcases List.mem_cons.mp he with rfl | he
    · exact .inl rfl
    · exact .inr (List.mem_cons_of_mem _ he)
    · exact .inr List.mem_cons_self
    · exact (ih he).imp_right (List.mem_cons_of_mem _)

/-- An insertion adds at most its own key, at the end. -/
theorem keys_insert (t : Table β) (k : String) (v : β) :
    (t.insert k v).keys = if k ∈ t.keys then t.keys else t.keys ++ [k] :=
  keys_put k v t.entries

/-- Keys stay distinct. -/
theorem nodup_insert {t : Table β} (h : t.keys.Nodup) (k : String) (v : β) :
    (t.insert k v).keys.Nodup := by
  rw [keys_insert]; split
  · exact h
  · exact List.nodup_append.2 ⟨h, by simp, by grind⟩

theorem mem_entries_of_find? {t : Table β} {k : String} {v : β} (h : t.find? k = some v) :
    (k, v) ∈ t.entries := by
  obtain ⟨e, he, rfl⟩ := Option.map_eq_some_iff.mp h
  have hk : e.1 = k := by simpa using List.find?_some he
  exact hk ▸ List.mem_of_find?_eq_some he

/-- An entry of a table with distinct keys is what is found under its key. -/
theorem mem_entries_iff {t : Table β} (h : t.keys.Nodup) {k : String} {v : β} :
    (k, v) ∈ t.entries ↔ t.find? k = some v := by
  obtain ⟨es⟩ := t
  unfold keys at h
  unfold find?
  induction es with
  | nil => simp
  | cons e es ih =>
    obtain ⟨hnew, hes⟩ := List.nodup_cons.mp h
    by_cases he : e.1 = k
    · have hnone : (k, v) ∉ es := fun hv => hnew (List.mem_map.mpr ⟨(k, v), hv, he.symm⟩)
      have hv : (k, v) = e ↔ e.2 = v := by
        subst he
        exact ⟨fun h => by rw [← h], fun h => by rw [← h]⟩
      simp [he, hnone, hv]
    · have hne : (k, v) ≠ e := fun h => he (by rw [← h])
      rw [List.mem_cons, or_iff_right hne, ih hes]
      simp [he]

/-- What an insertion at a known key leaves alone about the value, it leaves alone altogether. -/
theorem map_values_insert {t : Table β} {k : String} {v w : β} (f : β → γ)
    (h : t.find? k = some v) (hf : f w = f v) : (t.insert k w).values.map f = t.values.map f := by
  obtain ⟨es⟩ := t
  unfold find? at h
  unfold insert values
  induction es with
  | nil => simp at h
  | cons e es ih =>
    by_cases he : e.1 = k
    · have hv : e.2 = v := by simpa [he] using h
      simp [put, he, hf, hv]
    · have htail : (es.find? (·.1 == k)).map (·.2) = some v := by simpa [he] using h
      simpa [put, he] using ih htail

/-- A new key goes to the end. -/
theorem entries_insert_of_none {t : Table β} {k : String} (h : t.find? k = none) (v : β) :
    (t.insert k v).entries = t.entries ++ [(k, v)] := by
  obtain ⟨es⟩ := t
  unfold find? at h
  unfold insert
  induction es with
  | nil => rfl
  | cons e es ih =>
    have he : e.1 ≠ k := by
      intro he
      simp [he] at h
    have htail : (es.find? (·.1 == k)).map (·.2) = none := by simpa [he] using h
    simpa [put, he] using ih htail

theorem values_insert_of_none {t : Table β} {k : String} (h : t.find? k = none) (v : β) :
    (t.insert k v).values = t.values ++ [v] := by
  simp [values, entries_insert_of_none h]

/-- The keys of a table that arises by insertions are distinct. -/
theorem nodup_ofList (es : List (String × β)) : (ofList es).keys.Nodup := by
  suffices hfold : ∀ (es : List (String × β)) (t : Table β), t.keys.Nodup →
      (es.foldl (fun t e => t.insert e.1 e.2) t).keys.Nodup from hfold es empty List.nodup_nil
  intro es
  induction es with
  | nil => exact fun _ h => h
  | cons e es ih => exact fun t h => ih _ (nodup_insert h e.1 e.2)

/-- Entries with distinct keys make a table of just these entries. -/
theorem entries_ofList {es : List (String × β)} (h : (es.map (·.1)).Nodup) :
    (ofList es).entries = es := by
  suffices hfold : ∀ (es : List (String × β)) (t : Table β), (t.keys ++ es.map (·.1)).Nodup →
      (es.foldl (fun t e => t.insert e.1 e.2) t).entries = t.entries ++ es from
    hfold es empty h
  intro es
  induction es with
  | nil => simp
  | cons e es ih =>
    intro t ht
    have hnew : t.find? e.1 = none := by
      have hk : e.1 ∉ t.keys := fun hk =>
        (List.nodup_append.mp ht).2.2 _ hk _ List.mem_cons_self rfl
      simpa [mem_keys, contains] using hk
    have hkeys : (t.insert e.1 e.2).keys = t.keys ++ [e.1] := by
      simp [keys, entries_insert_of_none hnew]
    rw [List.foldl_cons, ih, entries_insert_of_none hnew, List.append_assoc, List.singleton_append]
    rwa [hkeys, List.append_assoc]

/-! ### Erasure -/

theorem find?_erase_self (t : Table β) (k : String) : (t.erase k).find? k = none := by
  simp [find?, erase, List.find?_filter]

theorem find?_erase_of_ne (t : Table β) {k k' : String} (h : k ≠ k') :
    (t.erase k).find? k' = t.find? k' := by
  simp only [find?, erase, List.find?_filter]
  congr 2; funext e; by_cases he : e.1 = k' <;> simp [he, h.symm]

theorem nodup_erase {t : Table β} (h : t.keys.Nodup) (k : String) : (t.erase k).keys.Nodup :=
  h.sublist (List.filter_sublist.map _)

theorem values_erase (t : Table β) (k : String) : (t.erase k).values.Sublist t.values :=
  List.filter_sublist.map _

/-! ### Mapping -/

theorem map_map {δ : Type} (f : β → γ) (g : γ → δ) (t : Table β) :
    (t.map f).map g = t.map (g ∘ f) := by
  simp only [map, List.map_map]
  rfl

theorem keys_map (f : β → γ) (t : Table β) : (t.map f).keys = t.keys := by
  simp only [keys, map, List.map_map]
  rfl

theorem find?_map (f : β → γ) (t : Table β) (k : String) :
    (t.map f).find? k = (t.find? k).map f := by
  simp only [find?, map, List.find?_map, Option.map_map]
  rfl

end Table

end PaperTrading
