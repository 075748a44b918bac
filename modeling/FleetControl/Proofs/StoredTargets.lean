import FleetControl.Proofs.Identity
import FleetControl.Query.Target
import FleetControl.Store.Nodes

/-!
# Targets as they are stored

A target is held in a table as the name of its kind and its value, and is read back by the rules by which it was first parsed. These
trim the value, and make that of a UUID canonical, a second time, so a target comes back as it was because its value does not change
by that (`TargetKind.valueOf_valueOf`): it is trimmed, not empty, and for a UUID its own canonical form. The names of the kinds are the
first of those by which they are asked for, so the kind comes back too (`Target.ofRow_toRow_of_parsed`).
-/

namespace FleetControl

namespace TargetKind

/-- A kind is asked for by its name. -/
theorem parse_name (kind : TargetKind) : parse kind.name = .ok kind := by
  cases kind <;> rfl

/-- The value that a text gives a target of the kind. -/
def valueOf (kind : TargetKind) (text : String) : String :=
  match kind with
  | .uuid => canonicalUuid text
  | _ => Text.trim text

variable (kind : TargetKind) (text : String)

/-- The value of a target is trimmed. -/
theorem trim_valueOf : Text.trim (kind.valueOf text) = kind.valueOf text := by
  cases kind with
  | uuid => exact trim_upper_trim text
  | environment | platform | localname => exact Text.trim_trim text

/-- The value of a target gives itself. -/
theorem valueOf_valueOf : kind.valueOf (kind.valueOf text) = kind.valueOf text := by
  cases kind with
  | uuid => exact canonicalUuid_canonicalUuid text
  | environment | platform | localname => exact Text.trim_trim text

/-- The value is empty just where the text is blank. -/
theorem valueOf_eq_empty_iff : kind.valueOf text = "" ↔ Text.trim text = "" := by
  cases kind with
  | uuid => exact (canonicalUuid_eq_empty_iff text).trans (Text.isBlankText_iff text)
  | environment | platform | localname => exact Iff.rfl

end TargetKind

namespace Target

variable {kind : TargetKind} {word text : String} {t : Target}

/-- A text that is not blank makes the target with the value that it gives. -/
theorem make_eq_ok_iff : make kind text = .ok t ↔ Text.trim text ≠ "" ∧ t = ⟨kind, kind.valueOf text⟩ := by
  unfold make
  dsimp only
  split
  · rename_i hblank
    exact iff_of_false nofun fun h => h.1 hblank
  · rename_i hgiven
    rw [and_iff_right hgiven]
    cases kind with
    | uuid =>
      dsimp only
      rw [canonicalUuid_trim, Except.ok.injEq, eq_comm]
      rfl
    | environment | platform | localname =>
      dsimp only
      rw [Except.ok.injEq, eq_comm]
      rfl

theorem parse_eq_ok_iff :
    parse word text = .ok t ↔ TargetKind.parse word = .ok t.kind ∧ Text.trim text ≠ "" ∧ t.value = t.kind.valueOf text := by
  unfold parse
  cases TargetKind.parse word with
  | error why => exact iff_of_false nofun fun h => nomatch h.1
  | ok kind =>
    change make kind text = .ok t ↔ _
    rw [make_eq_ok_iff]
    constructor
    · rintro ⟨hgiven, rfl⟩
      exact ⟨rfl, hgiven, rfl⟩
    · rintro ⟨hkind, hgiven, hvalue⟩
      cases hkind
      exact ⟨hgiven, congrArg (Target.mk t.kind) hvalue⟩

/-- A target that was parsed comes back as it is when it is parsed from the name of its kind and its value. -/
theorem parse_name_value (h : parse word text = .ok t) : parse t.kind.name t.value = .ok t := by
  obtain ⟨-, hgiven, hvalue⟩ := parse_eq_ok_iff.mp h
  refine parse_eq_ok_iff.mpr ⟨t.kind.parse_name, ?_, ?_⟩
  · rw [hvalue, TargetKind.trim_valueOf]
    rwa [Ne, TargetKind.valueOf_eq_empty_iff]
  · rw [hvalue, TargetKind.valueOf_valueOf]

/-- A target that was parsed is held in a row from which it is read back as it was, and it is parsed from the name of its kind and its
value. Its value is not empty and trimmed. A target for a UUID selects a node if and only if the canonical form of the text that the
target was parsed from is the UUID of the node. -/
theorem ofRow_toRow_of_parsed (h : parse word text = .ok t) :
    ofRow t.toRow = .ok t ∧ parse t.kind.name t.value = .ok t ∧ (t.value ≠ "" ∧ Text.trim t.value = t.value) ∧
      (t.kind = .uuid → ∀ node : Node, t.selects node = true ↔ canonicalUuid text = node.uuid) := by
  obtain ⟨-, hgiven, hvalue⟩ := parse_eq_ok_iff.mp h
  refine ⟨parse_name_value h, parse_name_value h, ⟨?_, ?_⟩, ?_⟩
  · rwa [hvalue, Ne, TargetKind.valueOf_eq_empty_iff]
  · rw [hvalue, TargetKind.trim_valueOf]
  · intro hkind node
    rw [hkind] at hvalue
    simp only [selects, hkind, beq_iff_eq, hvalue, TargetKind.valueOf]
    exact eq_comm

/-- A UUID whose characters become several in upper case, and that is padded with blank characters, comes back as it was stored, and
selects the node that was enrolled with it. -/
theorem ofRow_toRow_of_expanding_uuid :
    let t : Target := ⟨.uuid, "SSʼN-FFI"⟩
    let node := Store.empty.newNode 0 (.of "ßŉ-\uFB03" "key" .blank)
    parse "uuid" "\u2003ßŉ-\uFB03 " = .ok t ∧ ofRow t.toRow = .ok t ∧ t.selects node = true := by
  intro t node
  have hparse : parse "uuid" "\u2003ßŉ-\uFB03 " = .ok t := by decide +kernel
  obtain ⟨hrow, -, -, hselects⟩ := ofRow_toRow_of_parsed hparse
  exact ⟨hparse, hrow, (hselects rfl node).mpr (by decide +kernel)⟩

end Target

end FleetControl
