import FleetControl.Text.CharClass
import Mathlib.Data.List.Basic
import Mathlib.Data.List.TakeWhile

/-!
# Trimmed texts

A text is trimmed when it has no blank character at either end. Trimming leaves a trimmed text, and takes from any text that is
padded with blank characters just these (`Text.trim_eq_iff`).
-/

namespace FleetControl.Text

/-- No blank character stands at either end. -/
structure Trimmed (cs : List Char) : Prop where
  first : ∀ c ∈ cs.head?, isBlank c = false
  last : ∀ c ∈ cs.getLast?, isBlank c = false

/-- What is left without the blank characters in front starts with none. -/
theorem head?_dropWhile_isBlank (cs : List Char) : ∀ c ∈ (cs.dropWhile isBlank).head?, isBlank c = false := by
  intro c hc
  have hnot := List.head?_dropWhile_not isBlank cs
  rw [Option.mem_def.mp hc] at hnot
  simpa using hnot

/-- What trimming leaves stands at the front of what is left without the blank characters in front. -/
theorem trimChars_prefix (cs : List Char) : trimChars cs <+: cs.dropWhile isBlank := by
  rw [trimChars, ← List.reverse_suffix, List.reverse_reverse]
  exact List.dropWhile_suffix isBlank

/-- What trimming leaves is trimmed. -/
theorem trimmed_trimChars (cs : List Char) : Trimmed (trimChars cs) := by
  constructor
  · intro c hc
    obtain ⟨rest, hrest⟩ := List.head?_eq_some_iff.mp hc
    obtain ⟨tail, htail⟩ := trimChars_prefix cs
    exact head?_dropWhile_isBlank cs c (by rw [← htail, hrest]; rfl)
  · intro c hc
    rw [trimChars, List.getLast?_reverse] at hc
    exact head?_dropWhile_isBlank _ c hc

/-- Nothing is dropped in front of a list that starts with no blank character. -/
theorem dropWhile_isBlank_eq_self {cs : List Char} (h : ∀ c ∈ cs.head?, isBlank c = false) : cs.dropWhile isBlank = cs := by
  cases cs with
  | nil => rfl
  | cons c cs => rw [List.dropWhile_cons, if_neg (by simp [h c rfl])]

/-- Trimming leaves a trimmed list as it is. -/
theorem Trimmed.trimChars_eq {cs : List Char} (h : Trimmed cs) : trimChars cs = cs := by
  have hlast : ∀ c ∈ cs.reverse.head?, isBlank c = false := by
    rw [List.head?_reverse]
    exact h.last
  rw [trimChars, dropWhile_isBlank_eq_self h.first, dropWhile_isBlank_eq_self hlast, List.reverse_reverse]

/-- Trimming twice is trimming once. -/
theorem trim_trim (s : String) : trim (trim s) = trim s := by
  rw [trim, trim, String.toList_ofList, (trimmed_trimChars s.toList).trimChars_eq]

theorem isBlankText_iff (s : String) : isBlankText s = true ↔ trim s = "" := String.isEmpty_iff

/-- A trimmed list stays trimmed when its characters are replaced by forms that are not empty and, for characters that are not
blank, have none. -/
theorem Trimmed.flatMap {cs : List Char} (h : Trimmed cs) {form : Char → List Char} (hne : ∀ c, form c ≠ [])
    (hform : ∀ c d, isBlank c = false → d ∈ form c → isBlank d = false) : Trimmed (cs.flatMap form) := by
  constructor
  · intro d hd
    cases cs with
    | nil => cases hd
    | cons c cs =>
      rw [List.flatMap_cons, List.head?_append_of_ne_nil _ (hne c)] at hd
      exact hform c d (h.first c rfl) (List.mem_of_mem_head? hd)
  · intro d hd
    rcases List.eq_nil_or_concat cs with rfl | ⟨before, c, rfl⟩
    · cases hd
    · simp only [List.concat_eq_append, List.flatMap_append, List.flatMap_singleton] at hd
      rw [List.getLast?_append_of_ne_nil _ (hne c)] at hd
      exact hform c d (h.last c (by simp)) (List.mem_of_mem_getLast? hd)

/-- The list is the other one with blank characters around it. -/
def Pads (padded cs : List Char) : Prop :=
  ∃ before after, (∀ c ∈ before, isBlank c = true) ∧ (∀ c ∈ after, isBlank c = true) ∧ padded = before ++ cs ++ after

/-- Every list is what trimming leaves of it with blank characters around. -/
theorem pads_trimChars (cs : List Char) : Pads cs (trimChars cs) := by
  have hblank : ∀ ds : List Char, ∀ c ∈ ds.takeWhile isBlank, isBlank c = true :=
    fun ds => List.all_eq_true.mp List.all_takeWhile
  have hsplit : trimChars cs ++ ((cs.dropWhile isBlank).reverse.takeWhile isBlank).reverse = cs.dropWhile isBlank := by
    rw [trimChars, ← List.reverse_append, List.takeWhile_append_dropWhile, List.reverse_reverse]
  refine ⟨cs.takeWhile isBlank, ((cs.dropWhile isBlank).reverse.takeWhile isBlank).reverse, hblank cs, ?_, ?_⟩
  · intro c hc
    exact hblank _ c (List.mem_reverse.mp hc)
  · rw [List.append_assoc, hsplit, List.takeWhile_append_dropWhile]

/-- Trimming takes away what a trimmed list is padded with. -/
theorem Trimmed.trimChars_of_pads {padded cs : List Char} (h : Trimmed cs) (hpads : Pads padded cs) : trimChars padded = cs := by
  obtain ⟨before, after, hbefore, hafter, rfl⟩ := hpads
  rw [trimChars, List.append_assoc, List.dropWhile_append_of_pos hbefore]
  cases cs with
  | nil =>
    have hnone : after.dropWhile isBlank = [] := List.dropWhile_eq_nil_iff.mpr hafter
    rw [List.nil_append, hnone]
    rfl
  | cons c cs =>
    have hfirst : ∀ d ∈ (c :: cs ++ after).head?, isBlank d = false := fun d hd => h.first d hd
    have hlast : ∀ d ∈ (c :: cs).reverse.head?, isBlank d = false := by
      rw [List.head?_reverse]
      exact h.last
    rw [dropWhile_isBlank_eq_self hfirst, List.reverse_append,
      List.dropWhile_append_of_pos fun d hd => hafter d (List.mem_reverse.mp hd), dropWhile_isBlank_eq_self hlast,
      List.reverse_reverse]

/-- A text that trimming leaves as it is has no blank character at either end. -/
theorem trimmed_of_trim_eq {s : String} (h : trim s = s) : Trimmed s.toList := by
  rw [← h, trim, String.toList_ofList]
  exact trimmed_trimChars s.toList

/-- A text is trimmed to another just where it is the other, which is trimmed, with blank characters around it. -/
theorem trim_eq_iff {s t : String} : trim s = t ↔ trim t = t ∧ Pads s.toList t.toList := by
  constructor
  · rintro rfl
    refine ⟨trim_trim s, ?_⟩
    rw [trim, String.toList_ofList]
    exact pads_trimChars s.toList
  · rintro ⟨htrim, hpads⟩
    rw [trim, (trimmed_of_trim_eq htrim).trimChars_of_pads hpads, String.ofList_toList]

/-- Trimming leaves nothing of a text just where every character of it is blank. -/
theorem trim_eq_empty_iff (s : String) : trim s = "" ↔ ∀ c ∈ s.toList, isBlank c = true := by
  rw [trim_eq_iff, and_iff_right (by rfl : trim "" = "")]
  constructor
  · rintro ⟨before, after, hbefore, hafter, heq⟩ c hc
    rw [heq, String.toList_empty, List.append_nil] at hc
    exact (List.mem_append.mp hc).elim (hbefore c) (hafter c)
  · intro h
    refine ⟨s.toList, [], h, fun _ hc => absurd hc List.not_mem_nil, ?_⟩
    rw [String.toList_empty, List.append_nil, List.append_nil]

end FleetControl.Text
