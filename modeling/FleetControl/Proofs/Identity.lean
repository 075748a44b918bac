import FleetControl.Node.Basic
import FleetControl.Proofs.Text.CaseMapping
import FleetControl.Proofs.Text.Trimming

/-!
# Canonical identities

A canonical UUID is its own canonical form, and so is a canonical key. Whoever passes on the UUID or the key of a stored node, and
has it made canonical again, asks for that same node.
-/

namespace FleetControl

open Text

/-- Upper-casing a trimmed text leaves a trimmed text. -/
theorem trim_upper_trim (s : String) : trim (upper (trim s)) = upper (trim s) := by
  have h : Trimmed ((trimChars s.toList).flatMap upperForm) :=
    (trimmed_trimChars s.toList).flatMap settles_upper.caseForm_ne_nil fun _ _ hc hd => (settles_upper.of_mem_caseForm hd).2 hc
  rw [trim, upper, trim, String.toList_ofList, String.toList_ofList, h.trimChars_eq]

/-- A canonical UUID is its own canonical form. -/
theorem canonicalUuid_canonicalUuid (uuid : String) : canonicalUuid (canonicalUuid uuid) = canonicalUuid uuid := by
  rw [canonicalUuid, canonicalUuid, trim_upper_trim, upper_upper]

/-- Blank characters around a UUID do not matter. -/
theorem canonicalUuid_trim (uuid : String) : canonicalUuid (trim uuid) = canonicalUuid uuid := by
  rw [canonicalUuid, trim_trim, canonicalUuid]

/-- Of a UUID nothing is left just where it is blank. -/
theorem canonicalUuid_eq_empty_iff (uuid : String) : canonicalUuid uuid = "" ↔ isBlankText uuid = true := by
  rw [canonicalUuid, upper_eq_empty_iff, isBlankText_iff]

/-- A trimmed text is trimmed in lower case. -/
theorem Text.Trimmed.lowerFrom {before cs : List Char} (h : Trimmed cs) : Trimmed (lowerFrom before cs) := by
  constructor
  · intro d hd
    cases cs with
    | nil => cases hd
    | cons c cs =>
      obtain ⟨form, heq, hne, hform⟩ := lowerFrom_cons before c cs
      rw [heq, List.head?_append_of_ne_nil _ hne] at hd
      exact (hform d (List.mem_of_mem_head? hd)).2 (h.first c rfl)
  · intro d hd
    have hlast := h.last
    clear h
    induction cs generalizing before with
    | nil => cases hd
    | cons c cs ih =>
      obtain ⟨form, heq, hne, hform⟩ := lowerFrom_cons before c cs
      rw [heq] at hd
      cases cs with
      | nil =>
        rw [Text.lowerFrom, List.append_nil] at hd
        exact (hform d (List.mem_of_mem_getLast? hd)).2 (hlast c rfl)
      | cons c' cs =>
        obtain ⟨form', heq', hne', -⟩ := lowerFrom_cons (c :: before) c' cs
        have hrest : Text.lowerFrom (c :: before) (c' :: cs) ≠ [] := by
          rw [heq']
          exact List.append_ne_nil_of_left_ne_nil hne' _
        rw [List.getLast?_append_of_ne_nil _ hrest] at hd
        refine ih hd ?_
        rwa [List.getLast?_cons_cons] at hlast

/-- Lower-casing a trimmed text leaves a trimmed text. -/
theorem trim_lower_trim (s : String) : trim (lower (trim s)) = lower (trim s) := by
  have h : Trimmed (lowerFrom [] (trimChars s.toList)) := (trimmed_trimChars s.toList).lowerFrom
  rw [trim, lower, trim, String.toList_ofList, String.toList_ofList, h.trimChars_eq]

/-- A canonical key is its own canonical form. -/
theorem canonicalKey_canonicalKey (key : String) : canonicalKey (canonicalKey key) = canonicalKey key := by
  rw [canonicalKey, canonicalKey, trim_lower_trim, lower_lower]

/-- Of a key nothing is left just where it is blank. -/
theorem canonicalKey_eq_empty_iff (key : String) : canonicalKey key = "" ↔ isBlankText key = true := by
  rw [canonicalKey, lower_eq_empty_iff, isBlankText_iff]

/-- Made canonical once, a UUID and a key stay as they are, although a character may become several and that of a sigma depends on the
text around it. No blank character stands at either end of them, and nothing is left just of what holds blank characters only. -/
theorem canonical_forms_settled (s : String) :
    (canonicalUuid (canonicalUuid s) = canonicalUuid s ∧ canonicalKey (canonicalKey s) = canonicalKey s) ∧
      (Trimmed (canonicalUuid s).toList ∧ Trimmed (canonicalKey s).toList) ∧
      (canonicalUuid s = "" ↔ ∀ c ∈ s.toList, isBlank c = true) ∧
      (canonicalKey s = "" ↔ ∀ c ∈ s.toList, isBlank c = true) := by
  have hblank : isBlankText s = true ↔ ∀ c ∈ s.toList, isBlank c = true := (isBlankText_iff s).trans (trim_eq_empty_iff s)
  refine ⟨⟨canonicalUuid_canonicalUuid s, canonicalKey_canonicalKey s⟩, ⟨?_, ?_⟩, ?_, ?_⟩
  · exact trimmed_of_trim_eq (trim_upper_trim s)
  · exact trimmed_of_trim_eq (trim_lower_trim s)
  · exact (canonicalUuid_eq_empty_iff s).trans hblank
  · exact (canonicalKey_eq_empty_iff s).trans hblank

/-- A character that becomes two in upper case, and a capital sigma in the middle and at the end of a word. -/
example : canonicalUuid " ßa " = "SSA" ∧ canonicalKey " ΣΑΣ-ΣΑΣ\u2003" = "σας-σας" := by decide +kernel

end FleetControl
