import FleetControl.Proofs.Json.Records
import FleetControl.Proofs.Json.Texts

/-!
# Formats that read what they accept

A format reads a text in one pass and accepts a value at hand, and the two were written apart. They agree on every text in which no
object has two fields of one name: what is read is what the value that the text states is accepted as, and a text is refused just
where its value is (`Format.Agrees`). For a record this takes its fields in whatever order they are written, beside fields of other
names that are passed over, or its values in a list (`Format.read_record`). A name that comes twice is left out of this: of two
fields of one name a value keeps the later one, while a record is refused at the second.
-/

namespace FleetControl.Json

variable {α β σ : Type}

/-! ## Values as texts state them -/

/-- The value, with its fields in ascending order of their names if it is an object. -/
def ordered : Json → Json
  | .object fs => .object (Dictionary.ofList fs).entries
  | j => j

theorem ordered_of_flat {j : Json} (h : j.isNested = false) : j.ordered = j := by
  cases j with
  | object fs => cases h
  | _ => rfl

/-- Reads a value and puts its fields in order. -/
def ordering (read : Bytes → Except Fault (Json × Bytes)) (bs : Bytes) : Except Fault (Json × Bytes) :=
  (read bs).map fun r => (r.1.ordered, r.2)

/-- Reads the fields of an object in the order in which they are written. No name may come twice. -/
def fieldOnce (read : Bytes → Except Fault (Json × Bytes)) : FieldReader (List (String × Json)) := fun name done =>
  if name ∈ done.map (·.1) then .error .mismatch
  else .ok fun bs => (read bs).map fun r => (done ++ [(name, r.1)], r.2)

/-- Reads a value in which no object has two fields of one name. The fields of the outermost object are left in the order in which
they are written, those of the others are put in order. -/
def stated : (depth : Nat) → Bytes → Except Fault (Json × Bytes)
  | 0, bs => value .full 0 bs
  | depth + 1, bs =>
    match skipSpace bs with
    | 0x5B :: rest => (items (ordering (stated depth)) rest).map fun r => (.list r.1, r.2)
    | 0x7B :: rest => (fields .full (fieldOnce (ordering (stated depth))) [] rest).map fun r => (.object r.1, r.2)
    | _ => value .full 0 bs

/-- The ways in which a value is stated. -/
inductive StatedAs (bs : Bytes) : (depth : Nat) → Json → Bytes → Prop where
  | list {depth : Nat} {tail rest : Bytes} {js : List Json} (h : skipSpace bs = 0x5B :: tail)
      (hitems : items (ordering (stated depth)) tail = .ok (js, rest)) : StatedAs bs (depth + 1) (.list js) rest
  | object {depth : Nat} {tail rest : Bytes} {fs : List (String × Json)} (h : skipSpace bs = 0x7B :: tail)
      (hfields : fields .full (fieldOnce (ordering (stated depth))) [] tail = .ok (fs, rest)) :
      StatedAs bs (depth + 1) (.object fs) rest
  | flat {depth : Nat} {b : UInt8} {tail rest : Bytes} {j : Json} (h : skipSpace bs = b :: tail)
      (hflat : flatFrom .full b tail = .ok (j, rest)) : StatedAs bs depth j rest

section Stated

variable {depth : Nat} {bs rest : Bytes} {j : Json}

theorem statedAs_of_stated (h : stated depth bs = .ok (j, rest)) : StatedAs bs depth j rest := by
  have hflat (h : value .full 0 bs = .ok (j, rest)) : StatedAs bs depth j rest := by
    cases readAs_of_value h with
    | flat hskip hflat => exact .flat hskip hflat
  cases depth with
  | zero => exact hflat h
  | succ depth =>
    rw [stated] at h
    split at h
    · rename_i tail hskip
      obtain ⟨⟨js, after⟩, hitems, heq⟩ := of_map_eq_ok h
      cases heq
      exact .list hskip hitems
    · rename_i tail hskip
      obtain ⟨⟨fs, after⟩, hfields, heq⟩ := of_map_eq_ok h
      cases heq
      exact .object hskip hfields
    · exact hflat h

theorem value_skipSpace (care : Care) (depth : Nat) (bs : Bytes) : value care depth (skipSpace bs) = value care depth bs := by
  cases depth with
  | zero => rw [value, value, skipSpace_skipSpace]
  | succ depth => rw [value, value, skipSpace_skipSpace]

theorem stated_skipSpace (depth : Nat) (bs : Bytes) : stated depth (skipSpace bs) = stated depth bs := by
  cases depth with
  | zero => exact value_skipSpace .full 0 bs
  | succ depth => rw [stated, stated, skipSpace_skipSpace, value_skipSpace]

/-- What comes of a field whose name is new. -/
theorem of_fieldOnce {done fs : List (String × Json)}
    (h : field .full (fieldOnce (ordering (stated depth))) done bs = .ok (fs, rest)) :
    ∃ tail name named valued j, skipSpace bs = 0x22 :: tail ∧ string .full tail = .ok (name, named) ∧ colon named = .ok valued ∧
      stated depth valued = .ok (j, rest) ∧ name ∉ done.map (·.1) ∧ fs = done ++ [(name, j.ordered)] := by
  obtain ⟨tail, name, named, readValue, valued, hskip, hname, hread, hcolon, -, hvalue⟩ := of_field h
  rw [fieldOnce] at hread
  split at hread
  · cases hread
  · rename_i hnew
    cases hread
    obtain ⟨⟨_, _⟩, hordered, heq⟩ := of_map_eq_ok hvalue
    cases heq
    obtain ⟨⟨j, _⟩, hj, heq⟩ := of_map_eq_ok hordered
    cases heq
    exact ⟨tail, name, named, valued, j, hskip, hname, hcolon, hj, hnew, rfl⟩

theorem shrinks_ordering {read : Bytes → Except Fault (Json × Bytes)} (hread : Shrinks read) : Shrinks (ordering read) := by
  intro bs j rest h
  obtain ⟨⟨a, after⟩, ha, heq⟩ := of_map_eq_ok h
  cases heq
  exact hread ha

theorem shrinks_fieldOnce {read : Bytes → Except Fault (Json × Bytes)} (hread : Shrinks read) (name : String)
    (done : List (String × Json)) (f : Bytes → Except Fault (List (String × Json) × Bytes))
    (hf : fieldOnce read name done = .ok f) : Shrinks f := by
  rw [fieldOnce] at hf
  split at hf
  · cases hf
  · cases hf
    intro bs fs rest h
    obtain ⟨⟨j, after⟩, hvalue, heq⟩ := of_map_eq_ok h
    cases heq
    exact hread hvalue

/-- No two fields of an object have the same name. -/
theorem nodup_names {fs : List (String × Json)} (h : fields .full (fieldOnce (ordering (stated depth))) [] bs = .ok (fs, rest)) :
    (fs.map (·.1)).Nodup := by
  unfold fields at h
  split at h
  · cases h
    exact .nil
  · rw [fieldsOnto_eq] at h
    refine parts_preserves (P := fun done => (done.map (·.1)).Nodup) ?_ .nil h
    intro done bs fs rest hdone hfield
    obtain ⟨_, _, _, _, _, -, -, -, -, hnew, rfl⟩ := of_fieldOnce hfield
    rw [List.map_append, List.map_singleton, ← List.concat_eq_append]
    exact hdone.concat hnew

section Nested

variable (hvalue : ∀ ⦃bs j rest⦄, stated depth bs = .ok (j, rest) → value .full depth bs = .ok (j.ordered, rest))

include hvalue

/-- The items of a list are read as they are stated, if values nested less deep are. -/
theorem items_of_stated {js : List Json} (h : items (ordering (stated depth)) bs = .ok (js, rest)) :
    items (value .full depth) bs = .ok (js, rest) := by
  have hshrinks : Shrinks (stated depth) := fun _ _ _ h => shrinks_value .full depth (hvalue h)
  have hitem (tail : Bytes) (j : Json) (rest : Bytes) (_ : tail.length ≤ bs.length)
      (h : ordering (stated depth) tail = .ok (j, rest)) : ∃ j', value .full depth tail = .ok (j', rest) ∧ j = j' := by
    obtain ⟨⟨j, after⟩, hj, heq⟩ := of_map_eq_ok h
    cases heq
    exact ⟨j.ordered, hvalue hj, rfl⟩
  obtain ⟨js', hjs', hsame⟩ := items_keeps_up (shrinks_ordering hshrinks) hitem (Nat.le_refl _) h
  obtain rfl : js = js' := List.forall₂_eq_eq_eq ▸ hsame
  exact hjs'

/-- The fields of an object are kept in order as they are stated, if values nested less deep are read as they are stated. -/
theorem fields_of_stated {fs : List (String × Json)}
    (h : fields .full (fieldOnce (ordering (stated depth))) [] bs = .ok (fs, rest)) :
    fields .full (keepField (value .full depth)) [] bs = .ok ((Dictionary.ofList fs).entries, rest) := by
  have hshrinks : Shrinks (stated depth) := fun _ _ _ h => shrinks_value .full depth (hvalue h)
  have hfield (done entries : List (String × Json)) (bs' : Bytes) (fs : List (String × Json)) (rest : Bytes)
      (hdone : entries = (Dictionary.ofList done).entries) (_ : bs'.length ≤ bs.length)
      (h : field .full (fieldOnce (ordering (stated depth))) done bs' = .ok (fs, rest)) :
      ∃ entries', field .full (keepField (value .full depth)) entries bs' = .ok (entries', rest) ∧
        entries' = (Dictionary.ofList fs).entries := by
    obtain ⟨tail, name, named, valued, j, hskip, hname, hcolon, hj, -, rfl⟩ := of_fieldOnce h
    refine ⟨putEntry name j.ordered entries, ?_, ?_⟩
    · rw [field_eq entries hskip hname hcolon]
      change (value .full depth valued).map _ = _
      rw [hvalue hj]
      rfl
    · rw [Dictionary.ofList_concat, hdone]
      rfl
  obtain ⟨_, hentries, rfl⟩ : ∃ entries, fields .full (keepField (value .full depth)) [] bs = .ok (entries, rest) ∧
      entries = (Dictionary.ofList fs).entries :=
    fields_keeps_up (shrinks_fieldOnce (shrinks_ordering hshrinks)) hfield rfl (Nat.le_refl _) h
  exact hentries

end Nested

/-- A value is read as it is stated, with its fields in order. -/
theorem value_of_stated (h : stated depth bs = .ok (j, rest)) : value .full depth bs = .ok (j.ordered, rest) := by
  induction depth generalizing bs rest j with
  | zero =>
    cases statedAs_of_stated h with
    | flat hskip hflat =>
      rw [ordered_of_flat (of_flatFrom hflat).flat]
      exact value_of_flatFrom hskip hflat
  | succ depth ih =>
    cases statedAs_of_stated h with
    | flat hskip hflat =>
      rw [ordered_of_flat (of_flatFrom hflat).flat]
      exact value_of_flatFrom hskip hflat
    | list hskip hitems =>
      rw [value_of_list hskip, items_of_stated (fun _ _ _ => ih) hitems]
      rfl
    | object hskip hfields =>
      rw [value_of_object hskip, fields_of_stated (fun _ _ _ => ih) hfields]
      rfl

/-- The fields of the outermost object stay where they were written, those of the others do not. -/
example : stated 2 (Utf8.encode "\x7b\"query\":true,\"environments\":\x7b\"b\":true,\"a\":false\x7d\x7d") =
    .ok (.object [("query", .bool true), ("environments", .object [("a", .bool false), ("b", .bool true)])], []) := by
  decide +kernel

theorem shrinks_stated (depth : Nat) : Shrinks (stated depth) := fun _ _ _ h => shrinks_value .full depth (value_of_stated h)

end Stated

/-! ## Formats that agree with themselves -/

namespace Format

/-- A text is read as the value that it states is accepted. -/
def Agrees (format : Format α) : Prop := ∀ ⦃depth bs j rest⦄, stated depth bs = .ok (j, rest) →
  (format.read depth bs).toOption = (format.accept j.ordered).map fun a => (a, rest)

/-- Either both are there, or neither. -/
theorem toOption_eq_map_iff {e : Except Fault (α × Bytes)} {a? : Option α} {rest : Bytes} :
    e.toOption = a?.map (fun a => (a, rest)) ↔
      (∃ a, a? = some a ∧ e = .ok (a, rest)) ∨ (a? = none ∧ ∃ why, e = .error why) := by
  cases e <;> cases a? <;> simp [Except.toOption, Prod.ext_iff, eq_comm]

theorem agrees_map {format : Format α} (h : format.Agrees) (f : α → β) : (format.map f).Agrees := by
  intro depth bs j rest hj
  refine toOption_eq_map_iff.mpr ?_
  rcases toOption_eq_map_iff.mp (h hj) with ⟨a, ha, hread⟩ | ⟨ha, why, hread⟩
  · exact .inl ⟨f a, congrArg (Option.map f) ha, congrArg (Except.map fun r : α × Bytes => (f r.1, r.2)) hread⟩
  · exact .inr ⟨congrArg (Option.map f) ha, why, congrArg (Except.map fun r : α × Bytes => (f r.1, r.2)) hread⟩

theorem agrees_defaulted {format : Format α} (h : format.Agrees) (name : String) (set : α → σ → σ) :
    (Slot.defaulted name format set).format.Agrees :=
  agrees_map h set

theorem agrees_any : any.Agrees := fun _ _ _ _ hj => congrArg Except.toOption (value_of_stated hj)

theorem agrees_scalar {accept : Json → Option α} (haccept : ∀ j : Json, j.isNested = true → accept j = none) :
    (scalar accept).Agrees := by
  intro depth bs j rest hj
  cases statedAs_of_stated hj with
  | list hskip hitems =>
    refine toOption_eq_map_iff.mpr (.inr ⟨haccept _ rfl, strayFault bs, ?_⟩)
    simp only [scalar, value_zero hskip]
    rfl
  | object hskip hfields =>
    refine toOption_eq_map_iff.mpr (.inr ⟨haccept _ rfl, strayFault bs, ?_⟩)
    simp only [scalar, value_zero hskip]
    rfl
  | flat hskip hflat =>
    simp only [scalar, value_of_flatFrom hskip hflat, ordered_of_flat (of_flatFrom hflat).flat]
    cases accept j <;> rfl

/-- A word is read in the same way whatever it stands for. -/
theorem word_of_word {letters : String} {a a' : α} {bs rest : Bytes} (b : β) (h : word letters a bs = .ok (a', rest)) :
    word letters b bs = .ok (b, rest) := by
  simp only [word] at h ⊢
  split at h
  · rename_i hletters
    cases h
    exact if_pos hletters
  · cases h

theorem agrees_text : text.Agrees := agrees_scalar fun j hj => by
  cases j with
  | list | object => rfl
  | _ => cases hj

theorem agrees_flag : flag.Agrees := agrees_scalar fun j hj => by
  cases j with
  | list | object => rfl
  | _ => cases hj

theorem isNull_ordered (j : Json) : j.ordered.isNull = j.isNull := by cases j <;> rfl

/-- The null value and no other starts with its first letter. -/
theorem isNull_of_stated {depth : Nat} {bs rest : Bytes} {j : Json} (h : stated depth bs = .ok (j, rest)) :
    (∃ tail, skipSpace bs = 0x6E :: tail ∧ word "ull" Json.null tail = .ok (j, rest) ∧ j.isNull = true) ∨
      ((∀ tail, skipSpace bs ≠ 0x6E :: tail) ∧ j.isNull = false) := by
  cases statedAs_of_stated h with
  | list hskip | object hskip =>
    refine .inr ⟨fun tail h => ?_, rfl⟩
    cases hskip.symm.trans h
  | @flat _ b tail _ _ hskip hflat =>
    by_cases hb : b = 0x6E
    · subst hb
      have hword : word "ull" Json.null tail = .ok (j, rest) := hflat
      obtain ⟨rfl, -⟩ := of_word hword
      exact .inl ⟨tail, hskip, hword, rfl⟩
    · refine .inr ⟨fun tail h => ?_, Bool.eq_false_iff.mpr fun hnull => hb ((of_flatFrom hflat).null hnull)⟩
      cases hskip.symm.trans h
      exact hb rfl

theorem agrees_optional {format : Format α} (h : format.Agrees) : format.optional.Agrees := by
  intro depth bs j rest hj
  rcases isNull_of_stated hj with ⟨tail, hskip, hword, hnull⟩ | ⟨hskip, hnull⟩
  · refine toOption_eq_map_iff.mpr (.inl ⟨none, if_pos ((isNull_ordered j).trans hnull), ?_⟩)
    simp only [optional, hskip]
    exact word_of_word none hword
  · have hread : format.optional.read depth bs = (format.map some).read depth (skipSpace bs) := by
      simp only [optional]
      rfl
    have haccept : format.optional.accept j.ordered = (format.map some).accept j.ordered :=
      if_neg (by rw [isNull_ordered, hnull]; exact Bool.false_ne_true)
    rw [hread, haccept]
    exact agrees_map h some ((stated_skipSpace depth bs).trans hj)

/-! ### Dictionaries -/

/-- Entries with the same keys stay alike when one is put into each. -/
theorem forall₂_putEntry {P : String × α → String × β → Prop} (hkeys : ∀ x y, P x y → x.1 = y.1) {key : String} {a : α} {b : β}
    (hput : P (key, a) (key, b)) {xs : List (String × α)} {ys : List (String × β)} (h : List.Forall₂ P xs ys) :
    List.Forall₂ P (putEntry key a xs) (putEntry key b ys) := by
  induction h with
  | nil => exact .cons hput .nil
  | @cons x y xs ys hfirst hrest ih =>
    simp only [putEntry, ← hkeys x y hfirst]
    split
    · exact .cons hput (.cons hfirst hrest)
    · split
      · exact .cons hput hrest
      · exact .cons hfirst ih

/-- A field stands for an entry of a dictionary: it has its key and is accepted as its value. -/
def StandsFor (format : Format α) (f : String × Json) (e : String × α) : Prop := f.1 = e.1 ∧ format.accept f.2 = some e.2

/-- Fields that stand for the entries of a dictionary are accepted as the dictionary. -/
theorem accept_dictionary {format : Format α} {fs : List (String × Json)} {d : Dictionary α}
    (h : List.Forall₂ (StandsFor format) fs d.entries) : (dictionary format).accept (.object fs) = some d := by
  have hentries : (fs.mapM fun f => (format.accept f.2).map fun a => (f.1, a)) = some d.entries := by
    generalize d.entries = es at h
    induction h with
    | nil => rfl
    | @cons f e fs es hfirst _ ih =>
      rw [List.mapM_cons, ih, hfirst.2, hfirst.1]
      rfl
  exact (congrArg (Option.map Dictionary.ofList) hentries).trans (congrArg some d.ofList_entries)

/-- A dictionary is refused if the value of one of its fields is. -/
theorem accept_dictionary_eq_none {format : Format α} {fs : List (String × Json)} {f : String × Json} (hf : f ∈ fs)
    (h : format.accept f.2 = none) : (dictionary format).accept (.object fs) = none := by
  have hentries : (fs.mapM fun f => (format.accept f.2).map fun a => (f.1, a)) = none := by
    induction fs with
    | nil => cases hf
    | cons g fs ih =>
      rw [List.mapM_cons]
      rcases List.mem_cons.mp hf with rfl | hf
      · rw [h]
        rfl
      · rw [ih hf]
        cases format.accept g.2 <;> rfl
  exact congrArg (Option.map Dictionary.ofList) hentries

/-- Reads a field and puts it into a dictionary. -/
def putField (format : Format α) (depth : Nat) : FieldReader (Dictionary α) := fun name done =>
  .ok fun bs => (format.read depth bs).map fun r => (done.insert name r.1, r.2)

/-- The fields of an object are put into a dictionary one after another, which breaks off at the first that is refused. -/
theorem fields_putField {format : Format α} (h : format.Agrees) {depth : Nat} {bs rest : Bytes} {fs : List (String × Json)}
    (hfields : fields .full (fieldOnce (ordering (stated depth))) [] bs = .ok (fs, rest)) :
    (∃ d, fields .full (putField format depth) .empty bs = .ok (d, rest) ∧
        List.Forall₂ (StandsFor format) (Dictionary.ofList fs).entries d.entries) ∨
      ((∃ why, fields .full (putField format depth) .empty bs = .error why) ∧ ∃ f ∈ fs, format.accept f.2 = none) := by
  refine fields_follows (fun fs (d : Dictionary α) => List.Forall₂ (StandsFor format) (Dictionary.ofList fs).entries d.entries)
    (fun fs => ∃ f ∈ fs, format.accept f.2 = none) (shrinks_fieldOnce (shrinks_ordering (shrinks_stated depth)))
    ?_ ?_ .nil (Nat.le_refl _) hfields
  · intro done d bs fs rest hdone _ hfield
    obtain ⟨tail, name, named, valued, j, hskip, hname, hcolon, hj, -, rfl⟩ := of_fieldOnce hfield
    rw [field_eq d hskip hname hcolon]
    rcases toOption_eq_map_iff.mp (h hj) with ⟨a, ha, hread⟩ | ⟨ha, why, hread⟩
    · refine .inl ⟨d.insert name a, congrArg (Except.map _) hread, ?_⟩
      rw [Dictionary.ofList_concat]
      exact forall₂_putEntry (fun _ _ h => h.1) ⟨rfl, ha⟩ hdone
    · exact .inr ⟨⟨why, congrArg (Except.map _) hread⟩, _, List.mem_append_right _ List.mem_cons_self, ha⟩
  · rintro done bs fs rest ⟨f, hf, hnone⟩ hfield
    obtain ⟨_, _, _, _, _, -, -, -, -, -, rfl⟩ := of_fieldOnce hfield
    exact ⟨f, List.mem_append_left _ hf, hnone⟩

theorem agrees_dictionary {format : Format α} (h : format.Agrees) : format.dictionary.Agrees := by
  intro depth bs j rest hj
  refine toOption_eq_map_iff.mpr ?_
  cases statedAs_of_stated hj with
  | list hskip =>
    refine .inr ⟨rfl, strayFault (skipSpace bs), ?_⟩
    simp only [dictionary, hskip]
    rfl
  | @flat _ b tail _ _ hskip hflat =>
    have hread := of_flatFrom hflat
    rw [ordered_of_flat hread.flat]
    refine .inr ⟨?_, strayFault (skipSpace bs), ?_⟩
    · cases j with
      | object => cases hread.flat
      | _ => rfl
    · simp only [dictionary, hskip]
      split
      · rename_i heq
        exact absurd (List.cons.inj heq).1 hread.ne_object
      · rfl
  | @object depth tail _ fs hskip hfields =>
    simp only [dictionary, hskip]
    rcases fields_putField h hfields with ⟨d, hread, hstands⟩ | ⟨hread, f, hf, hnone⟩
    · exact .inl ⟨d, accept_dictionary hstands, hread⟩
    · exact .inr ⟨accept_dictionary_eq_none ((Dictionary.perm_ofList (nodup_names hfields)).mem_iff.mpr hf) hnone, hread⟩

/-! ### Records -/

section Record

variable {slots : List (Slot σ)} {start : σ} {depth : Nat} {bs rest : Bytes}

theorem noneRequired_of_defaulted (hdefaulted : ∀ slot ∈ slots, slot.needed = false) : Slot.noneRequired slots = true := by
  simpa [Slot.noneRequired] using hdefaulted

theorem finish_of_defaulted (hdefaulted : ∀ slot ∈ slots, slot.needed = false) (p : Slot.Progress σ) :
    p.finish slots = .ok p.record :=
  if_pos (noneRequired_of_defaulted fun slot hslot => hdefaulted slot (List.mem_of_mem_filter hslot))

theorem readEnd_of_close (hdefaulted : ∀ slot ∈ slots, slot.needed = false) (h : skipSpace bs = 0x5D :: rest) :
    Slot.readEnd slots start bs = .ok (start, rest) := by
  rw [Slot.readEnd, if_pos (noneRequired_of_defaulted hdefaulted), h]
  rfl

theorem readEnd_of_ne_close (h : ∀ tail, skipSpace bs ≠ 0x5D :: tail) :
    Slot.readEnd ([] : List (Slot σ)) start bs = .error .malformed := by
  rw [Slot.readEnd, if_pos (noneRequired_of_defaulted fun _ h => absurd h List.not_mem_nil)]
  split
  · rename_i heq
    exact absurd heq (h _)
  · rfl

theorem readRest_of_close (hdefaulted : ∀ slot ∈ slots, slot.needed = false) (h : skipSpace bs = 0x5D :: rest) :
    Slot.readRest depth start slots bs = .ok (start, rest) := by
  cases slots with
  | nil => exact readEnd_of_close hdefaulted h
  | cons slot slots =>
    rw [Slot.readRest, h]
    exact readEnd_of_close hdefaulted rfl

/-- The first value of a list is read for the first field. -/
theorem readRest_of_first {slot : Slot σ} {j : Json} {js : List Json} {after : Bytes} (hagrees : slot.format.Agrees)
    (hj : ordering (stated depth) bs = .ok (j, after))
    (hmore : ∀ r, (Slot.readRest depth r slots after).toOption = ((record slots r).accept (.list js)).map fun r => (r, rest)) :
    (slot.format.read depth bs >>= fun r => Slot.readRest depth (r.1 start) slots r.2).toOption =
      ((record (slot :: slots) start).accept (.list (j :: js))).map fun r => (r, rest) := by
  obtain ⟨⟨j, _⟩, hstated, heq⟩ := of_map_eq_ok hj
  cases heq
  rw [accept_list_cons]
  rcases toOption_eq_map_iff.mp (hagrees hstated) with ⟨f, hf, hread⟩ | ⟨hf, why, hread⟩
  · rw [hread, hf]
    exact hmore (f start)
  · rw [hread, hf]
    rfl

/-- The values of a list are read for the fields in their order. -/
theorem readRest_of_listed {js : List Json} {slot : Slot σ} (hagrees : ∀ s ∈ slot :: slots, s.format.Agrees)
    (hdefaulted : ∀ s ∈ slot :: slots, s.needed = false) (h : Listed (ordering (stated depth)) js bs rest) :
    (slot.format.read depth bs >>= fun r => Slot.readRest depth (r.1 start) slots r.2).toOption =
      ((record (slot :: slots) start).accept (.list js)).map fun r => (r, rest) := by
  induction h generalizing slot slots start with
  | last hj hclose =>
    have hrest := (List.forall_mem_cons.mp hdefaulted).2
    refine readRest_of_first (hagrees slot List.mem_cons_self) hj fun r => ?_
    rw [readRest_of_close hrest hclose, accept_list_nil hrest]
    rfl
  | @more _ js _ after tail rest hj hcomma hmore ih =>
    refine readRest_of_first (hagrees slot List.mem_cons_self) hj fun r => ?_
    cases slots with
    | nil =>
      have hlong : (record ([] : List (Slot σ)) r).accept (.list js) = none := by cases hmore <;> rfl
      rw [hlong, Slot.readRest, readEnd_of_ne_close fun _ h => by cases hcomma.symm.trans h]
      rfl
    | cons slot slots =>
      rw [Slot.readRest, hcomma]
      exact ih (List.forall_mem_cons.mp hagrees).2 (List.forall_mem_cons.mp hdefaulted).2

/-- A list is read as a record as it is accepted. -/
theorem readList_of_items {js : List Json} (hagrees : ∀ s ∈ slots, s.format.Agrees)
    (hdefaulted : ∀ s ∈ slots, s.needed = false) (h : items (ordering (stated depth)) bs = .ok (js, rest)) :
    (Slot.readList depth start slots bs).toOption = ((record slots start).accept (.list js)).map fun r => (r, rest) := by
  rcases of_items h with ⟨hclose, rfl⟩ | ⟨hopen, hlisted⟩
  · rw [accept_list_nil hdefaulted]
    cases slots with
    | nil => exact congrArg Except.toOption (readEnd_of_close hdefaulted hclose)
    | cons slot slots =>
      rw [Slot.readList, hclose]
      exact congrArg Except.toOption (readEnd_of_close hdefaulted rfl)
  · cases slots with
    | nil =>
      have hlong : (record ([] : List (Slot σ)) start).accept (.list js) = none := by cases hlisted <;> rfl
      rw [hlong, Slot.readList, readEnd_of_ne_close hopen]
      rfl
    | cons slot slots =>
      rw [← readRest_of_listed hagrees hdefaulted hlisted, Slot.readList]
      split
      · rename_i heq
        exact absurd heq (hopen _)
      · rfl

/-- What is known of a record after some fields of an object were read: what they stand for, and which names were given. -/
structure Follows (slots : List (Slot σ)) (start : σ) (done : List (String × Json)) (p : Slot.Progress σ) : Prop where
  record : (record slots start).accept (.object done) = some p.record
  given : ∀ slot ∈ slots, slot.name ∈ p.given ↔ slot.name ∈ done.map (·.1)

theorem Follows.begins (h : Slot.Independent slots) : Follows slots start [] ⟨[], start⟩ where
  record := by
    have hobject : (Format.record slots start).accept (.list []) = _ := accept_list h.names (Nat.zero_le _)
    rwa [List.zip_nil_right, accept_list_nil h.defaulted, eq_comm] at hobject
  given _ _ := Iff.rfl

/-- A field of a name that the record has not is passed over. -/
theorem Follows.other {done : List (String × Json)} {p : Slot.Progress σ} {name : String} (h : Slot.Independent slots)
    (hdone : Follows slots start done p) (hname : name ∉ done.map (·.1)) (hfind : slots.find? (·.name == name) = none) (j : Json) :
    Follows slots start (done ++ [(name, j)]) p where
  record := by
    rw [accept_object_concat h hname, hfind]
    exact hdone.record
  given slot hslot := by
    have hother : slot.name ≠ name := by simpa using List.find?_eq_none.mp hfind slot hslot
    simp [hdone.given slot hslot, hother]

/-- A field of a name that the record has sets the field of this name. -/
theorem Follows.set {done : List (String × Json)} {p : Slot.Progress σ} {slot : Slot σ} {j : Json} {f : σ → σ}
    (h : Slot.Independent slots) (hdone : Follows slots start done p) (hname : slot.name ∉ done.map (·.1))
    (hfind : slots.find? (·.name == slot.name) = some slot) (hf : slot.format.accept j = some f) :
    Follows slots start (done ++ [(slot.name, j)]) ⟨slot.name :: p.given, f p.record⟩ where
  record := by
    rw [accept_object_concat h hname, hfind]
    change (slot.format.accept j).bind _ = _
    rw [hf, hdone.record]
    rfl
  given s hs := by simp [hdone.given s hs, or_comm]

/-- A field that is refused cannot be made up for. -/
theorem accept_concat_of_none {done : List (String × Json)} {name : String} (h : Slot.Independent slots)
    (hname : name ∉ done.map (·.1)) (hnone : (record slots start).accept (.object done) = none) (j : Json) :
    (record slots start).accept (.object (done ++ [(name, j)])) = none := by
  rw [accept_object_concat h hname, hnone]
  split
  · rename_i slot _
    cases slot.format.accept j <;> rfl
  · rfl

/-- One field of an object is read into a record, or refused. -/
theorem Follows.field (h : Slot.Independent slots) (hagrees : ∀ s ∈ slots, s.format.Agrees) {done fs : List (String × Json)}
    {p : Slot.Progress σ} (hdone : Follows slots start done p)
    (hfield : Json.field .full (fieldOnce (ordering (stated depth))) done bs = .ok (fs, rest)) :
    (∃ p', Json.field .full (Slot.readField slots depth) p bs = .ok (p', rest) ∧ Follows slots start fs p') ∨
      ((∃ why, Json.field .full (Slot.readField slots depth) p bs = .error why) ∧
        (Format.record slots start).accept (.object fs) = none) := by
  obtain ⟨tail, name, named, valued, j, hskip, hname, hcolon, hj, hnew, rfl⟩ := of_fieldOnce hfield
  rw [field_eq p hskip hname hcolon, Slot.readField]
  cases hfind : slots.find? (·.name == name) with
  | none =>
    refine .inl ⟨p, ?_, hdone.other h hnew hfind j.ordered⟩
    change (skip valued).map _ = _
    rw [skip_of_value (value_of_stated hj)]
    rfl
  | some slot =>
    obtain rfl : slot.name = name := by simpa using List.find?_some hfind
    have hslot : slot ∈ slots := List.mem_of_find?_eq_some hfind
    have hfree : ¬p.given.contains slot.name := by
      rw [List.contains_iff_mem, hdone.given slot hslot]
      exact hnew
    have hread : (Slot.readKnown depth slot p).bind (fun readValue => readValue valued) =
        (slot.format.read depth valued).map fun r => (⟨slot.name :: p.given, r.1 p.record⟩, r.2) := by
      rw [Slot.readKnown, if_neg hfree]
      rfl
    rcases toOption_eq_map_iff.mp (hagrees slot hslot hj) with ⟨f, hf, hvalue⟩ | ⟨hf, why, hvalue⟩
    · exact .inl ⟨_, hread.trans (congrArg (Except.map _) hvalue), hdone.set h hnew hfind hf⟩
    · refine .inr ⟨⟨why, hread.trans (congrArg (Except.map _) hvalue)⟩, ?_⟩
      rw [accept_object_concat h hnew, hfind]
      change (slot.format.accept j.ordered).bind _ = _
      rw [hf]
      rfl

/-- The fields of an object are read into a record one after another, which breaks off at the first that is refused. -/
theorem fields_readField (h : Slot.Independent slots) (hagrees : ∀ s ∈ slots, s.format.Agrees) {fs : List (String × Json)}
    (hfields : fields .full (fieldOnce (ordering (stated depth))) [] bs = .ok (fs, rest)) :
    (∃ p, fields .full (Slot.readField slots depth) ⟨[], start⟩ bs = .ok (p, rest) ∧ Follows slots start fs p) ∨
      ((∃ why, fields .full (Slot.readField slots depth) ⟨[], start⟩ bs = .error why) ∧
        (record slots start).accept (.object fs) = none) := by
  refine fields_follows (Follows slots start) (fun fs => (record slots start).accept (.object fs) = none)
    (shrinks_fieldOnce (shrinks_ordering (shrinks_stated depth))) ?_ ?_ (Follows.begins h) (Nat.le_refl _) hfields
  · exact fun _ _ _ _ _ hdone _ hfield => hdone.field h hagrees hfield
  · intro done bs fs rest hnone hfield
    obtain ⟨_, _, _, _, j, -, -, -, -, hnew, rfl⟩ := of_fieldOnce hfield
    exact accept_concat_of_none h hnew hnone j.ordered

/-- A record that may be given in part is read from a text as it is accepted as the value that the text states. -/
theorem read_record (h : Slot.Independent slots) (hagrees : ∀ s ∈ slots, s.format.Agrees) {j : Json}
    (hj : stated depth bs = .ok (j, rest)) :
    ((record slots start).read depth bs).toOption = ((record slots start).accept j).map fun r => (r, rest) := by
  cases statedAs_of_stated hj with
  | list hskip hitems =>
    simp only [record, hskip]
    exact readList_of_items hagrees h.defaulted hitems
  | object hskip hfields =>
    refine toOption_eq_map_iff.mpr ?_
    rcases fields_readField h hagrees hfields with ⟨p, hread, hfollows⟩ | ⟨⟨why, hread⟩, hnone⟩
    · refine .inl ⟨p.record, hfollows.record, ?_⟩
      simp only [record, hskip]
      rw [hread]
      change (p.finish slots >>= fun r => Except.ok (r, rest)) = _
      rw [finish_of_defaulted h.defaulted]
      rfl
    · refine .inr ⟨hnone, why, ?_⟩
      simp only [record, hskip]
      rw [hread]
      rfl
  | @flat _ b tail _ _ hskip hflat =>
    have hread := of_flatFrom hflat
    refine toOption_eq_map_iff.mpr (.inr ⟨?_, strayFault (skipSpace bs), ?_⟩)
    · cases j with
      | list | object => cases hread.flat
      | _ => rfl
    · simp only [record, hskip]
      split
      · rename_i heq
        exact absurd (List.cons.inj heq).1 hread.ne_list
      · rename_i heq
        exact absurd (List.cons.inj heq).1 hread.ne_object
      · rfl

end Record

end Format

end FleetControl.Json
