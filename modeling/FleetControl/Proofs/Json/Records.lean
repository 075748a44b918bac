import FleetControl.Json.Format
import Mathlib.Data.List.Forall2
import Mathlib.Data.List.Nodup

/-!
# Records as JSON values

A record is given by a list of its fields in order or by an object that names them. An object is asked for the names of the record
alone, so neither the order of its fields nor fields of other names matter (`Format.accept_object_congr`), and the fields of a list are
those of the object that gives them the first names (`Format.accept_list`). Where no field must be given, and fields are set each by
itself, one more field in an object sets its field of the record and nothing else (`Format.accept_object_concat`).
-/

namespace FleetControl.Json

/-! ## Fields by name -/

section Fields

variable {α : Type} {fs gs : List (String × α)} {name : String} {a : α}

/-- Where no name comes twice, a name leads to the value it stands with. -/
theorem lookup_eq_some_iff_mem (hkeys : (fs.map (·.1)).Nodup) : fs.lookup name = some a ↔ (name, a) ∈ fs := by
  induction fs with
  | nil => exact iff_of_false nofun List.not_mem_nil
  | cons f fs ih =>
    obtain ⟨hfirst, hrest⟩ := List.nodup_cons.mp hkeys
    rw [lookup_entry, List.mem_cons]
    split
    · rename_i heq
      have hout : (name, a) ∉ fs := fun h => hfirst (List.mem_map.mpr ⟨(name, a), h, heq⟩)
      rw [or_iff_left hout, Option.some.injEq, Prod.ext_iff, and_iff_right heq, eq_comm]
    · rename_i hne
      rw [ih hrest, or_iff_right fun h => hne (congrArg Prod.fst h)]

/-- Where no name comes twice, the order of the fields does not matter to a look-up. -/
theorem lookup_perm (hkeys : (fs.map (·.1)).Nodup) (h : fs.Perm gs) : fs.lookup name = gs.lookup name := by
  refine Option.ext fun a => ?_
  rw [lookup_eq_some_iff_mem hkeys, lookup_eq_some_iff_mem ((h.map _).nodup_iff.mp hkeys), h.mem_iff]

/-- A name is looked up among the fields of some names as among all fields, if it is one of the names. -/
theorem lookup_filter {names : List String} (hname : name ∈ names) :
    (fs.filter fun f => names.contains f.1).lookup name = fs.lookup name := by
  induction fs with
  | nil => rfl
  | cons f fs ih =>
    rw [List.filter_cons, lookup_entry]
    by_cases heq : name = f.1
    · rw [if_pos (by simpa [← heq] using hname), lookup_entry, if_pos heq, if_pos heq]
    · rw [if_neg heq, ← ih]
      split
      · rw [lookup_entry, if_neg heq]
      · rfl

/-- A name that does not come among fields leads nowhere. -/
theorem lookup_eq_none (h : name ∉ fs.map (·.1)) : fs.lookup name = none := by
  refine List.lookup_eq_none_iff.mpr fun f hf => ?_
  simpa using fun heq : name = f.1 => h (heq ▸ List.mem_map.mpr ⟨f, hf, rfl⟩)

/-- A field after others is found by its name, if it does not come among them. -/
theorem lookup_concat (h : name ∉ fs.map (·.1)) (a : α) (k : String) :
    (fs ++ [(name, a)]).lookup k = if k = name then some a else fs.lookup k := by
  rw [List.lookup_append, lookup_entry]
  split
  · rename_i heq
    rw [heq, lookup_eq_none h]
    rfl
  · exact Option.or_none

end Fields

namespace Slot

variable {σ : Type} {slots : List (Slot σ)}

/-! ## The values given for the fields -/

/-- The values that an object gives for names depend on the fields of these names alone. -/
theorem given?_object_congr {names : List String} {fs gs : List (String × Json)}
    (h : ∀ name ∈ names, fs.lookup name = gs.lookup name) : given? names (.object fs) = given? names (.object gs) :=
  congrArg some (List.map_congr_left h)

/-- The values in a list are given for the first names in their order. -/
theorem lookup_zip {names : List String} (hnames : names.Nodup) {js : List Json} (hlength : js.length ≤ names.length) :
    names.map (fun name => (names.zip js).lookup name) = js.map some ++ List.replicate (names.length - js.length) none := by
  induction names generalizing js with
  | nil =>
    obtain rfl := List.eq_nil_of_length_eq_zero (Nat.le_zero.mp hlength)
    rfl
  | cons name names ih =>
    obtain ⟨hfirst, hrest⟩ := List.nodup_cons.mp hnames
    cases js with
    | nil =>
      exact List.map_const'
    | cons j js =>
      have hothers : names.map (fun k => ((name, j) :: names.zip js).lookup k) = names.map fun k => (names.zip js).lookup k := by
        refine List.map_congr_left fun k hk => ?_
        rw [lookup_entry, if_neg]
        rintro rfl
        exact hfirst hk
      rw [List.zip_cons_cons, List.map_cons, hothers, ih hrest (Nat.le_of_succ_le_succ hlength), lookup_entry, if_pos rfl,
        List.length_cons, List.length_cons, Nat.add_sub_add_right]
      rfl

/-- A list gives for the fields what the object does that gives its values to the first names. -/
theorem given?_list {names : List String} (hnames : names.Nodup) {js : List Json} (hlength : js.length ≤ names.length) :
    given? names (.list js) = given? names (.object (names.zip js)) := by
  rw [given?, given?, if_pos hlength, lookup_zip hnames hlength]

/-! ## The record they make -/

/-- What holds of a record at first, and is kept when a field is set, holds of the record that is made. -/
theorem assemble_induction {P : σ → Prop} {r a : σ} {given : List (Option Json)}
    (hset : ∀ slot ∈ slots, ∀ j f, slot.format.accept j = some f → ∀ r, P r → P (f r)) (hr : P r)
    (h : assemble r slots given = some a) : P a := by
  induction slots generalizing r given with
  | nil =>
    obtain rfl : r = a := by simpa [assemble] using h
    exact hr
  | cons slot slots ih =>
    obtain ⟨hfirst, hrest⟩ := List.forall_mem_cons.mp hset
    cases given with
    | nil =>
      obtain rfl : r = a := by simpa [assemble] using h
      exact hr
    | cons j? given =>
      cases j? with
      | none =>
        rw [assemble] at h
        split at h
        · cases h
        · exact ih hrest hr h
      | some j =>
        obtain ⟨f, hf, hmade⟩ := Option.bind_eq_some_iff.mp h
        exact ih hrest (hfirst j f hf r hr) hmade

/-- A change of the record that commutes with setting any of the fields may come before or after. -/
theorem assemble_map {f : σ → σ} (hf : ∀ slot ∈ slots, ∀ j g, slot.format.accept j = some g → ∀ r, g (f r) = f (g r)) (r : σ)
    (given : List (Option Json)) : assemble (f r) slots given = (assemble r slots given).map f := by
  induction slots generalizing r given with
  | nil => rfl
  | cons slot slots ih =>
    obtain ⟨hfirst, hrest⟩ := List.forall_mem_cons.mp hf
    match given with
    | [] => rfl
    | none :: given =>
      rw [assemble, assemble]
      split
      · rfl
      · exact ih hrest r given
    | some j :: given =>
      change ((slot.format.accept j).bind fun g => assemble (g (f r)) slots given) =
        ((slot.format.accept j).bind fun g => assemble (g r) slots given).map f
      rw [Option.map_bind]
      refine Option.bind_congr fun g hg => ?_
      rw [hfirst j g hg]
      exact ih hrest (g r) given

/-- Fields none of which must be given, which have different names and are set each by itself. -/
structure Independent (slots : List (Slot σ)) : Prop where
  defaulted : ∀ slot ∈ slots, slot.needed = false
  names : (slots.map (·.name)).Nodup
  commute : slots.Pairwise fun s t => ∀ j k f g, s.format.accept j = some f → t.format.accept k = some g → ∀ r, g (f r) = f (g r)

/-- Fields with defaults may be set in either order if they are set each by itself. -/
theorem commute_defaulted {α β : Type} {name name' : String} {format : Format α} {format' : Format β} {set : α → σ → σ}
    {set' : β → σ → σ} (h : ∀ a b r, set' b (set a r) = set a (set' b r)) (j k : Json) (f g : σ → σ)
    (hf : (defaulted name format set).format.accept j = some f) (hg : (defaulted name' format' set').format.accept k = some g)
    (r : σ) : g (f r) = f (g r) := by
  obtain ⟨a, -, rfl⟩ := Option.map_eq_some_iff.mp hf
  obtain ⟨b, -, rfl⟩ := Option.map_eq_some_iff.mp hg
  exact h a b r

/-- The value that is given for one more field sets this field, whatever is given for the others. -/
theorem Independent.assemble_update (h : Independent slots) {slot : Slot σ} (hslot : slot ∈ slots) (j : Json)
    {before after : String → Option Json} (hbefore : before slot.name = none) (hafter : after slot.name = some j)
    (hothers : ∀ name, name ≠ slot.name → after name = before name) (r : σ) :
    assemble r slots ((slots.map (·.name)).map after) =
      (slot.format.accept j).bind fun f => (assemble r slots ((slots.map (·.name)).map before)).map f := by
  induction slots generalizing r with
  | nil => cases hslot
  | cons s slots ih =>
    obtain ⟨hdefaulted, hdefaults⟩ := List.forall_mem_cons.mp h.defaulted
    obtain ⟨hfirst, hnames⟩ := List.nodup_cons.mp h.names
    obtain ⟨hcommutes, hcommute⟩ := List.pairwise_cons.mp h.commute
    rw [List.map_cons, List.map_cons, List.map_cons]
    by_cases hname : s.name = slot.name
    · have hs : s = slot := by
        rcases List.mem_cons.mp hslot with heq | hin
        · exact heq.symm
        · exact absurd (List.mem_map.mpr ⟨slot, hin, hname.symm⟩) hfirst
      subst hs
      have hsame : (slots.map (·.name)).map after = (slots.map (·.name)).map before :=
        List.map_congr_left fun name hin => hothers name fun heq => hfirst (show s.name ∈ _ from heq ▸ hin)
      rw [hafter, hbefore, hsame]
      change ((s.format.accept j).bind fun f => assemble (f r) slots _) = _
      refine Option.bind_congr fun f hf => ?_
      rw [assemble, if_neg (by rw [hdefaulted]; decide)]
      exact assemble_map (fun t ht k g hg r => hcommutes t ht j k f g hf hg r) r _
    · have hin : slot ∈ slots := (List.mem_cons.mp hslot).resolve_left fun heq => hname (congrArg Slot.name heq.symm)
      have hrest := ih ⟨hdefaults, hnames, hcommute⟩ hin
      rw [hothers s.name hname]
      cases before s.name with
      | none =>
        rw [assemble, assemble, if_neg (by rw [hdefaulted]; decide), if_neg (by rw [hdefaulted]; decide)]
        exact hrest r
      | some k =>
        change ((s.format.accept k).bind fun g => assemble (g r) slots _) =
          (slot.format.accept j).bind fun f => ((s.format.accept k).bind fun g => assemble (g r) slots _).map f
        cases s.format.accept k with
        | none =>
          cases slot.format.accept j <;> rfl
        | some g => exact hrest (g r)

end Slot

/-! ## Records -/

namespace Format

variable {σ : Type} {slots : List (Slot σ)} {start : σ}

/-- What holds of a record at first, and is kept when a field is set, holds of the record that a value stands for. -/
theorem accept_induction {P : σ → Prop} (hset : ∀ slot ∈ slots, ∀ j f, slot.format.accept j = some f → ∀ r, P r → P (f r))
    (hstart : P start) {j : Json} {a : σ} (h : (record slots start).accept j = some a) : P a := by
  obtain ⟨given, -, hmade⟩ := Option.bind_eq_some_iff.mp h
  exact Slot.assemble_induction hset hstart hmade

/-- An object stands for a record by the fields it gives for the names of the record. -/
theorem accept_object_congr {fs gs : List (String × Json)}
    (h : ∀ name ∈ slots.map (·.name), fs.lookup name = gs.lookup name) :
    (record slots start).accept (.object fs) = (record slots start).accept (.object gs) :=
  congrArg (·.bind (Slot.assemble start slots)) (Slot.given?_object_congr h)

/-- Objects that give the same for the names of the record, in whatever order and beside whatever else, stand for the same. -/
theorem accept_object_of_perm {fs gs : List (String × Json)} (hfs : (fs.map (·.1)).Nodup)
    (h : (fs.filter fun f => (slots.map (·.name)).contains f.1).Perm (gs.filter fun g => (slots.map (·.name)).contains g.1)) :
    (record slots start).accept (.object fs) = (record slots start).accept (.object gs) := by
  refine accept_object_congr fun name hname => ?_
  calc fs.lookup name = _ := (lookup_filter hname).symm
    _ = _ := lookup_perm (hfs.sublist (List.filter_sublist.map _)) h
    _ = gs.lookup name := lookup_filter hname

/-- A list of values stands for what the object stands for that gives them to the first names. -/
theorem accept_list (hnames : (slots.map (·.name)).Nodup) {js : List Json} (hlength : js.length ≤ slots.length) :
    (record slots start).accept (.list js) = (record slots start).accept (.object ((slots.map (·.name)).zip js)) :=
  congrArg (·.bind (Slot.assemble start slots)) (Slot.given?_list hnames (by rwa [List.length_map]))

/-- Where no field must be given, the empty list stands for the record with every default. -/
theorem accept_list_nil (hdefaulted : ∀ slot ∈ slots, slot.needed = false) :
    (record slots start).accept (.list []) = some start := by
  change Slot.assemble start slots (List.replicate ((slots.map (·.name)).length - 0) none) = some start
  induction slots with
  | nil => rfl
  | cons slot slots ih =>
    obtain ⟨hfirst, hrest⟩ := List.forall_mem_cons.mp hdefaulted
    exact (if_neg (by rw [hfirst]; exact Bool.false_ne_true)).trans (ih hrest)

/-- The first value of a list is for the first field. -/
theorem accept_list_cons (slot : Slot σ) (slots : List (Slot σ)) (start : σ) (j : Json) (js : List Json) :
    (record (slot :: slots) start).accept (.list (j :: js)) =
      (slot.format.accept j).bind fun f => (record slots (f start)).accept (.list js) := by
  simp only [record, Slot.given?, List.map_cons, List.length_cons, Nat.add_le_add_iff_right, Nat.add_sub_add_right]
  split
  · rfl
  · cases slot.format.accept j <;> rfl

/-- One more field of an object, of a name that is new to it, sets the field of its name, if there is one. -/
theorem accept_object_concat (h : Slot.Independent slots) {fs : List (String × Json)} {name : String}
    (hname : name ∉ fs.map (·.1)) (j : Json) :
    (record slots start).accept (.object (fs ++ [(name, j)])) =
      match slots.find? (·.name == name) with
      | some slot => (slot.format.accept j).bind fun f => ((record slots start).accept (.object fs)).map f
      | none => (record slots start).accept (.object fs) := by
  split
  · rename_i slot hfind
    obtain rfl : slot.name = name := by simpa using List.find?_some hfind
    refine h.assemble_update (List.mem_of_find?_eq_some hfind) j ?_ ?_ ?_ start
    · exact lookup_eq_none hname
    · rw [lookup_concat hname, if_pos rfl]
    · intro k hk
      rw [lookup_concat hname, if_neg hk]
  · rename_i hfind
    refine accept_object_congr fun k hk => ?_
    rw [lookup_concat hname, if_neg]
    rintro rfl
    obtain ⟨slot, hslot, heq⟩ := List.mem_map.mp hk
    simpa [heq] using List.find?_eq_none.mp hfind slot hslot

end Format

end FleetControl.Json
