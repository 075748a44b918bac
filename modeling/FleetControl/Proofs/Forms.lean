import FleetControl.Proofs.Json.Formats
import FleetControl.Wire.Formats
import FleetControl.Wire.Rows

/-!
# The forms of attributes, observations and grants

Attributes, observations and grants come as objects or as lists, in texts or as values at hand, and go out as objects. All these forms
agree (`Wire.forms_agree`): what is accepted goes out as what is accepted as the same again, a list gives its values to the fields
in their order, and neither the order of the fields of an object nor other fields matter. The fields are listed once, in their
order, and what is proved of any list of fields that are set each by itself is applied to them (`Format.formsAgree_record`). What a
node told of its enrolment may be any value but null, which stands for nothing told.
-/

namespace FleetControl

open Json (Format Slot)

/-- The forms in which a value is sent agree. The names are those of its fields in their order, and `write` tells how it is sent. -/
structure Json.Format.FormsAgree {α : Type} (format : Format α) (names : List String) (write : α → Json) : Prop where
  /-- A value that was accepted is sent as what is accepted as the same value. -/
  again : ∀ j a, format.accept j = some a → format.accept (write a) = some a
  /-- A list, if it is not too long, is accepted as the object is that gives its items to the first fields. -/
  placed : ∀ js : List Json, js.length ≤ names.length → format.accept (.list js) = format.accept (.object (names.zip js))
  /-- Objects that have the same fields of these names, in whatever order and beside whatever others, are accepted as the same. -/
  sifted : ∀ fs gs : List (String × Json), (fs.map (·.1)).Nodup → (gs.map (·.1)).Nodup →
    (fs.filter fun f => names.contains f.1).Perm (gs.filter fun g => names.contains g.1) →
    format.accept (.object fs) = format.accept (.object gs)
  /-- A text in which no object has two fields of one name is read as the value it states is accepted. -/
  read : ∀ depth bs j rest, Json.stated depth bs = .ok (j, rest) →
    (format.read depth bs).toOption = (format.accept j).map fun a => (a, rest)

/-- The forms of a record agree if no field must be given and each is set by itself. -/
theorem Json.Format.formsAgree_record {σ : Type} {slots : List (Slot σ)} {start : σ} {write : σ → Json}
    (h : Slot.Independent slots) (hagrees : ∀ slot ∈ slots, slot.format.Agrees)
    (hagain : ∀ j a, (record slots start).accept j = some a → (record slots start).accept (write a) = some a) :
    (record slots start).FormsAgree (slots.map (·.name)) write where
  again := hagain
  placed _ hlength := accept_list h.names (by rwa [List.length_map] at hlength)
  sifted _ _ hfs _ hsame := accept_object_of_perm hfs hsame
  read _ _ _ _ hj := read_record h hagrees hj

namespace Wire

/-! ## Attributes -/

theorem independent_attributeSlots : Slot.Independent attributeSlots where
  defaulted := by simp [attributeSlots, Slot.defaulted]
  names := by decide
  commute := by
    simp only [attributeSlots, List.pairwise_cons, List.forall_mem_cons, List.not_mem_nil, List.Pairwise.nil, false_implies,
      implies_true, and_true]
    and_intros
    -- one goal for each two fields
    all_goals exact Slot.commute_defaulted fun _ _ _ => rfl

theorem agrees_attributeSlots : ∀ slot ∈ attributeSlots, slot.format.Agrees := by
  simp only [attributeSlots, List.forall_mem_cons, List.not_mem_nil, false_implies, implies_true, and_true]
  and_intros
  all_goals first
    | exact Format.agrees_defaulted Format.agrees_text _ _
    | exact Format.agrees_defaulted (Format.agrees_optional Format.agrees_any) _ _

/-- Null stands for no value, and so is not a value that may be left out. -/
theorem ne_null_of_accept_optional {j : Json} {v : Option Json} (h : (Format.optional .any).accept j = some v) :
    v ≠ some .null := by
  rintro rfl
  change (if j.isNull then some none else some (some j)) = some (some .null) at h
  split at h
  · cases h
  · rename_i hsome
    cases h
    exact hsome rfl

theorem raw_ne_null {j : Json} {a : Attributes} (h : attributesFormat.accept j = some a) : a.raw ≠ some .null := by
  refine Format.accept_induction (P := fun a => a.raw ≠ some .null) ?_ (show Attributes.blank.raw ≠ some .null from nofun) h
  simp only [attributeSlots, List.forall_mem_cons, List.not_mem_nil, false_implies, implies_true, and_true]
  and_intros
  all_goals
    intro j f hf r hr
    obtain ⟨v, hv, rfl⟩ := Option.map_eq_some_iff.mp hf
    first | exact hr | exact ne_null_of_accept_optional hv

theorem accept_attributes {a : Attributes} (h : a.raw ≠ some .null) : attributesFormat.accept (attributes a) = some a := by
  obtain ⟨_, _, _, _, _, _, _, raw⟩ := a
  cases raw with
  | none => rfl
  | some j =>
    cases j with
    | null => exact absurd rfl h
    | _ => rfl

/-! ## Observations -/

theorem independent_observationSlots : Slot.Independent observationSlots where
  defaulted := by simp [observationSlots, Slot.defaulted]
  names := by decide
  commute := by
    simp only [observationSlots, List.pairwise_cons, List.forall_mem_cons, List.not_mem_nil, List.Pairwise.nil, false_implies,
      implies_true, and_true]
    and_intros
    all_goals exact Slot.commute_defaulted fun _ _ _ => rfl

theorem agrees_observationSlots : ∀ slot ∈ observationSlots, slot.format.Agrees := by
  simp only [observationSlots, List.forall_mem_cons, List.not_mem_nil, false_implies, implies_true, and_true]
  and_intros
  all_goals exact Format.agrees_defaulted Format.agrees_text _ _

theorem accept_observation (o : Observation) : observationFormat.accept (observation o) = some o := rfl

/-! ## Grants -/

theorem independent_permissionSlots : Slot.Independent permissionSlots where
  defaulted := by simp [permissionSlots, Slot.defaulted]
  names := by decide
  commute := by
    simp only [permissionSlots, List.pairwise_cons, List.forall_mem_cons, List.not_mem_nil, List.Pairwise.nil, false_implies,
      implies_true, and_true]
    and_intros
    all_goals exact Slot.commute_defaulted fun _ _ _ => rfl

theorem agrees_permissionSlots : ∀ slot ∈ permissionSlots, slot.format.Agrees := by
  simp only [permissionSlots, List.forall_mem_cons, List.not_mem_nil, false_implies, implies_true, and_true]
  and_intros
  · exact Format.agrees_defaulted (Format.agrees_dictionary Format.agrees_flag) _ _
  · exact Format.agrees_defaulted Format.agrees_flag _ _
  · exact Format.agrees_defaulted Format.agrees_flag _ _

theorem accept_permissions (p : Access.Permissions) : permissionsFormat.accept (permissions p) = some p := by
  have hgrants : (Format.dictionary .flag).accept (dictionary .bool p.environments) = some p.environments :=
    Format.accept_dictionary (List.forall₂_map_left_iff.mpr (List.forall₂_same.mpr fun _ _ => ⟨rfl, rfl⟩))
  change (((Format.dictionary .flag).accept (dictionary .bool p.environments)).map _ >>= _) = _
  rw [hgrants]
  rfl

/-- The forms of attributes, observations and grants agree, the fields being these in this order. Every observation and all grants are
sent as what is accepted as them, and so are attributes, if what the node told of its enrolment is not null: attributes that were
accepted never hold this. -/
theorem forms_agree :
    (attributesFormat.FormsAgree
        ["platform", "platform_version", "agent_version", "hostname", "localname", "ip_address", "username", "agent_user",
          "environment", "cpu", "memory", "hardware_serial", "daemon_hash", "config_hash", "raw_enrollment"] attributes ∧
      ∀ a, attributesFormat.accept (attributes a) = some a ↔ a.raw ≠ some .null) ∧
    (observationFormat.FormsAgree
        ["hostname", "localname", "ip_address", "username", "agent_user", "agent_version", "config_hash", "daemon_hash"]
        observation ∧
      ∀ o, observationFormat.accept (observation o) = some o) ∧
    (permissionsFormat.FormsAgree ["environments", "query", "carve"] permissions ∧
      ∀ p, permissionsFormat.accept (permissions p) = some p) := by
  refine ⟨⟨?_, fun a => ⟨raw_ne_null, accept_attributes⟩⟩, ⟨?_, accept_observation⟩, ?_, accept_permissions⟩
  · exact Format.formsAgree_record independent_attributeSlots agrees_attributeSlots fun _ _ h => accept_attributes (raw_ne_null h)
  · exact Format.formsAgree_record independent_observationSlots agrees_observationSlots fun _ o _ => accept_observation o
  · exact Format.formsAgree_record independent_permissionSlots agrees_permissionSlots fun _ p _ => accept_permissions p

end Wire

end FleetControl
