/-!
# Dictionaries

A dictionary holds one value for each of its keys and lists them in ascending order of the keys, code point by code point.
Grants by environment, reported statuses and pending queries are dictionaries, so the order in which they were given cannot
be seen. The order is part of the type: every dictionary carries the proof that its keys ascend, and so no key is held twice.
-/

namespace FleetControl

/-- The keys of a list of entries strictly ascend. -/
def Ascending {α : Type} (entries : List (String × α)) : Prop := entries.Pairwise fun a b => a.1 < b.1

instance {α : Type} (entries : List (String × α)) : Decidable (Ascending entries) :=
  inferInstanceAs (Decidable (entries.Pairwise fun a b => a.1 < b.1))

/-- Puts an entry in its place among entries in ascending order, over the one with the same key if there is one. -/
def putEntry {α : Type} (key : String) (value : α) : List (String × α) → List (String × α)
  | [] => [(key, value)]
  | entry :: rest =>
    if key < entry.1 then (key, value) :: entry :: rest
    else if key = entry.1 then (key, value) :: rest
    else entry :: putEntry key value rest

/-- A key of the entries after an entry is put is the key put or was a key before. -/
theorem mem_putEntry {α : Type} {key : String} {value : α} {entries : List (String × α)} {e : String × α}
    (h : e ∈ putEntry key value entries) : e = (key, value) ∨ e ∈ entries := by
  induction entries with
  | nil => simpa [putEntry] using h
  | cons entry rest ih =>
    simp only [putEntry] at h
    split at h
    · simpa using h
    · split at h
      · rcases List.mem_cons.mp h with h | h
        · exact .inl h
        · exact .inr (List.mem_cons_of_mem _ h)
      · rcases List.mem_cons.mp h with h | h
        · exact .inr (h ▸ List.mem_cons_self)
        · exact (ih h).imp id (List.mem_cons_of_mem _)

/-- Putting an entry under a new key adds it and keeps the others. -/
theorem perm_putEntry {α : Type} {key : String} (value : α) {entries : List (String × α)} (h : ∀ e ∈ entries, key ≠ e.1) :
    (putEntry key value entries).Perm ((key, value) :: entries) := by
  induction entries with
  | nil => exact .refl _
  | cons entry rest ih =>
    simp only [putEntry]
    split
    · exact .refl _
    · rw [if_neg (h entry List.mem_cons_self)]
      exact ((ih fun e he => h e (List.mem_cons_of_mem _ he)).cons entry).trans (.swap _ _ _)

/-- The first entry of a list is asked first. -/
theorem lookup_entry {α : Type} (entry : String × α) (rest : List (String × α)) (k : String) :
    (entry :: rest).lookup k = if k = entry.1 then some entry.2 else rest.lookup k := by
  have hmatch : (entry :: rest).lookup k = match k == entry.1 with
      | true => some entry.2
      | false => rest.lookup k := rfl
  by_cases h : k = entry.1
  · rw [hmatch, if_pos h, beq_iff_eq.mpr h]
  · rw [hmatch, if_neg h, beq_eq_false_iff_ne.mpr h]

/-- After an entry is put, its key leads to it and every other key leads where it led. -/
theorem lookup_putEntry {α : Type} (key : String) (value : α) (entries : List (String × α)) (k : String) :
    (putEntry key value entries).lookup k = if k = key then some value else entries.lookup k := by
  induction entries with
  | nil => rw [putEntry, lookup_entry]
  | cons entry rest ih =>
    simp only [putEntry]
    split
    · rw [lookup_entry]
    · split
      · rename_i heq
        rw [lookup_entry, lookup_entry, heq]
        split <;> rfl
      · rename_i hne
        rw [lookup_entry, lookup_entry, ih]
        by_cases hk : k = key
        · simp [hk, hne]
        · simp [hk]

/-- The keys after an entry is put are the key put and the keys before. -/
theorem mem_keys_putEntry {α : Type} {key : String} {value : α} {entries : List (String × α)} {k : String} :
    k ∈ (putEntry key value entries).map (·.1) ↔ k = key ∨ k ∈ entries.map (·.1) := by
  induction entries with
  | nil => simp [putEntry]
  | cons entry rest ih =>
    simp only [putEntry]
    split
    · simp
    · split
      · rename_i heq
        simp [heq]
      · rw [List.map_cons, List.mem_cons, ih, List.map_cons, List.mem_cons, or_left_comm]

/-- Putting an entry keeps the keys in ascending order. -/
theorem Ascending.putEntry {α : Type} {entries : List (String × α)} (h : Ascending entries) (key : String) (value : α) :
    Ascending (FleetControl.putEntry key value entries) := by
  induction entries with
  | nil => exact List.pairwise_singleton _ _
  | cons entry rest ih =>
    obtain ⟨hentry, hrest⟩ := List.pairwise_cons.mp h
    simp only [FleetControl.putEntry]
    split
    · rename_i hlt
      refine List.pairwise_cons.mpr ⟨fun e he => ?_, h⟩
      rcases List.mem_cons.mp he with rfl | he
      · exact hlt
      · exact String.lt_trans hlt (hentry e he)
    · split
      · rename_i heq
        exact List.pairwise_cons.mpr ⟨fun e he => heq ▸ hentry e he, hrest⟩
      · rename_i hge hne
        refine List.pairwise_cons.mpr ⟨fun e he => ?_, ih hrest⟩
        rcases mem_putEntry he with rfl | he
        · exact Std.lt_of_le_of_ne (String.not_lt.mp hge) fun hk => hne hk.symm
        · exact hentry e he

/-- One value for each key, in ascending order of the keys. -/
structure Dictionary (α : Type) where
  entries : List (String × α)
  ascending : Ascending entries
  deriving DecidableEq, Repr

namespace Dictionary

variable {α : Type}

/-- The dictionary without entries. -/
def empty : Dictionary α := ⟨[], List.Pairwise.nil⟩

instance : Inhabited (Dictionary α) := ⟨empty⟩

/-- The dictionary with a value put under a key, in place of the one held there. -/
def insert (d : Dictionary α) (key : String) (value : α) : Dictionary α :=
  ⟨putEntry key value d.entries, d.ascending.putEntry key value⟩

/-- The dictionary of a list of entries, of which a later one prevails over an earlier one with the same key. -/
def ofList (entries : List (String × α)) : Dictionary α :=
  entries.foldl (fun d e => d.insert e.1 e.2) empty

/-- An entry of the dictionary of a list is one of the list. -/
theorem mem_of_mem_ofList {entries : List (String × α)} {e : String × α} (h : e ∈ (ofList entries).entries) :
    e ∈ entries := by
  suffices hfold : ∀ d : Dictionary α,
      e ∈ (entries.foldl (fun d e => d.insert e.1 e.2) d).entries → e ∈ d.entries ∨ e ∈ entries by
    exact (hfold empty h).resolve_left List.not_mem_nil
  clear h
  induction entries with
  | nil => exact fun d h => .inl h
  | cons entry rest ih =>
    intro d h
    rcases ih (d.insert entry.1 entry.2) h with h | h
    · rcases mem_putEntry h with rfl | h
      · exact .inr List.mem_cons_self
      · exact .inl h
    · exact .inr (List.mem_cons_of_mem _ h)

/-- The dictionary of a list in which no key comes twice has the entries of the list. -/
theorem perm_ofList {entries : List (String × α)} (hkeys : (entries.map (·.1)).Nodup) :
    (ofList entries).entries.Perm entries := by
  suffices hfold : ∀ d : Dictionary α, (∀ a ∈ entries, ∀ b ∈ d.entries, a.1 ≠ b.1) →
      (entries.foldl (fun d e => d.insert e.1 e.2) d).entries.Perm (entries ++ d.entries) by
    have h := hfold empty fun _ _ _ hb => absurd hb List.not_mem_nil
    rwa [empty, List.append_nil] at h
  induction entries with
  | nil => exact fun d _ => .refl _
  | cons entry rest ih =>
    intro d hdisjoint
    obtain ⟨hentry, hrest⟩ := List.nodup_cons.mp hkeys
    have hput := perm_putEntry entry.2 (hdisjoint entry List.mem_cons_self)
    refine (ih hrest (d.insert entry.1 entry.2) fun a ha b hb => ?_).trans ?_
    · rcases mem_putEntry hb with rfl | hb
      · exact fun heq => hentry (List.mem_map.mpr ⟨a, ha, heq⟩)
      · exact hdisjoint a (List.mem_cons_of_mem _ ha) b hb
    · exact (hput.append_left rest).trans List.perm_middle

/-- The dictionary of a list with one entry more is that of the list with the entry put in. -/
theorem ofList_concat (entries : List (String × α)) (key : String) (value : α) :
    ofList (entries ++ [(key, value)]) = (ofList entries).insert key value := by
  rw [ofList, ofList, List.foldl_append]
  rfl

/-- Dictionaries with the same entries are the same. -/
theorem eq_of_perm {d d' : Dictionary α} (h : d.entries.Perm d'.entries) : d = d' := by
  have heq : d.entries = d'.entries :=
    h.eq_of_pairwise (fun _ _ _ _ hlt hgt => absurd hgt (String.lt_asymm hlt)) d.ascending d'.ascending
  rwa [Dictionary.mk.injEq]

/-- The value held under a key. -/
def get? (d : Dictionary α) (key : String) : Option α := d.entries.lookup key

/-- After a value is put under a key, that key holds it and every other key holds what it held. -/
theorem get?_insert (d : Dictionary α) (key : String) (value : α) (k : String) :
    (d.insert key value).get? k = if k = key then some value else d.get? k :=
  lookup_putEntry key value d.entries k

/-- The keys, in ascending order. -/
def keys (d : Dictionary α) : List String := d.entries.map (·.1)

theorem pairwise_keys (d : Dictionary α) : d.keys.Pairwise (· < ·) := List.pairwise_map.mpr d.ascending

theorem nodup_keys (d : Dictionary α) : d.keys.Nodup := by
  refine d.pairwise_keys.imp ?_
  rintro key _ hlt rfl
  exact String.lt_irrefl key hlt

/-- A dictionary is that of its entries. -/
theorem ofList_entries (d : Dictionary α) : ofList d.entries = d := eq_of_perm (perm_ofList d.nodup_keys)

/-- The keys of the dictionary of a list are those of the list. -/
theorem mem_keys_ofList {entries : List (String × α)} {k : String} :
    k ∈ (ofList entries).keys ↔ k ∈ entries.map (·.1) := by
  suffices hfold : ∀ d : Dictionary α,
      k ∈ (entries.foldl (fun d e => d.insert e.1 e.2) d).keys ↔ k ∈ d.keys ∨ k ∈ entries.map (·.1) by
    rw [ofList, hfold]
    simp [keys, empty]
  induction entries with
  | nil => exact fun d => by simp
  | cons entry rest ih =>
    intro d
    have hput : k ∈ (d.insert entry.1 entry.2).keys ↔ k = entry.1 ∨ k ∈ d.keys := mem_keys_putEntry
    rw [List.foldl_cons, ih, hput, List.map_cons, List.mem_cons, or_comm (a := k = entry.1), or_assoc]

end Dictionary

end FleetControl
