import FleetControl.Text.Case
import Mathlib.Data.Nat.Bitwise

/-!
# What case mapping settles

A character in upper or lower case stays what it is when it is put into that case again, and no mapping makes a blank character.
Both are facts about the tables of runs and expansions: no code point that a table moves others to is moved by it, and none is
blank (`Settles`). The two small sigmas, which lower-casing chooses by the text around, are not moved either. The tables are long,
so the sets of code points are compared as numbers, a bit for each code point, and not run by run.
-/

namespace FleetControl.Text

/-! ## Sets of code points as numbers -/

/-- The number whose bits are set at the places of a list. -/
def bits (places : List Nat) : Nat := places.foldl (fun m n => m ||| 1 <<< n) 0

/-- After a list is marked on a number, its places are set and all others are as they were. -/
theorem testBit_foldl_mark (places : List Nat) (m n : Nat) :
    (places.foldl (fun m n => m ||| 1 <<< n) m).testBit n = (m.testBit n || decide (n ∈ places)) := by
  induction places generalizing m with
  | nil => simp
  | cons p places ih =>
    rw [List.foldl_cons, ih, Nat.testBit_or, Nat.one_shiftLeft, Nat.testBit_two_pow, Bool.or_assoc]
    congr 1
    by_cases h : p = n
    · simp [h]
    · simp [h, Ne.symm h]

/-- The bits of a list are set at its places. -/
theorem testBit_bits (places : List Nat) (n : Nat) : (bits places).testBit n = decide (n ∈ places) := by
  rw [bits, testBit_foldl_mark, Nat.zero_testBit, Bool.false_or]

/-- The code points of a class of characters. -/
def CharClass.points (k : CharClass) : List Nat := k.flatMap fun r => (List.range (r.2 + 1 - r.1)).map (r.1 + ·)

/-- A character of a class is at one of its code points. -/
theorem CharClass.mem_points {k : CharClass} {c : Char} (h : k.holds c = true) : c.toNat ∈ k.points := by
  obtain ⟨r, hr, hc⟩ := List.any_eq_true.mp h
  simp only [Bool.and_eq_true, decide_eq_true_eq] at hc
  have hplace : c.toNat - r.1 ∈ List.range (r.2 + 1 - r.1) := by
    rw [List.mem_range]
    omega
  have heq : r.1 + (c.toNat - r.1) = c.toNat := by omega
  exact List.mem_flatMap.mpr ⟨r, hr, List.mem_map.mpr ⟨c.toNat - r.1, hplace, heq⟩⟩

/-- Lists whose bits have nothing in common have no member in common. -/
theorem not_mem_of_bits {as bs : List Nat} (h : bits as &&& bits bs = 0) {n : Nat} (hn : n ∈ as) : n ∉ bs := by
  intro hb
  have hbit : (bits as &&& bits bs).testBit n = true := by
    rw [Nat.testBit_and, testBit_bits, testBit_bits]
    simp [hn, hb]
  rw [h, Nat.zero_testBit] at hbit
  cases hbit

/-! ## What a table moves, and where to -/

/-- The code points that a run holds. -/
def CaseRun.members (r : CaseRun) : List Nat :=
  (List.range ((r.last - r.first) / r.stride + 1)).map fun k => r.first + k * r.stride

/-- A code point that a run covers is a member of it. -/
theorem CaseRun.mem_members {r : CaseRun} {n : Nat} (h : r.covers n = true) : n ∈ r.members := by
  simp only [CaseRun.covers, Bool.and_eq_true, decide_eq_true_eq, beq_iff_eq] at h
  obtain ⟨⟨hfirst, hlast⟩, hstride⟩ := h
  refine List.mem_map.mpr ⟨(n - r.first) / r.stride, List.mem_range.mpr ?_, ?_⟩
  · exact Nat.lt_succ_of_le (Nat.div_le_div_right (Nat.sub_le_sub_right hlast _))
  · rw [Nat.div_mul_cancel (Nat.dvd_of_mod_eq_zero hstride)]
    omega

/-- The code points that a table moves. -/
def moved (expansions : List (Nat × List Nat)) (runs : List CaseRun) : List Nat :=
  expansions.map (·.1) ++ runs.flatMap (·.members)

/-- The code points that a table moves others to. -/
def reached (expansions : List (Nat × List Nat)) (runs : List CaseRun) : List Nat :=
  expansions.flatMap (·.2) ++ runs.flatMap fun r => r.members.map r.image

section Table

variable (expansions : List (Nat × List Nat)) (runs : List CaseRun)

/-- A character that the table does not move is its own form. -/
theorem caseForm_of_not_moved {c : Char} (h : c.toNat ∉ moved expansions runs) : caseForm expansions runs c = [c] := by
  simp only [moved, List.mem_append, List.mem_map, List.mem_flatMap, not_or, not_exists, not_and] at h
  obtain ⟨hkey, hrun⟩ := h
  unfold caseForm
  split
  · rename_i forms hl
    obtain ⟨before, after, heq, -⟩ := List.lookup_eq_some_iff.mp hl
    exact absurd rfl (hkey (c.toNat, forms) (by simp [heq]))
  · unfold shifted
    split
    · rename_i r hr
      have hcovers : r.covers c.toNat = true := by simpa using List.find?_some hr
      exact absurd (CaseRun.mem_members hcovers) (hrun r (List.mem_of_find?_eq_some hr))
    · rfl

/-- A form is the character itself, or made of characters that the table moves others to. -/
theorem caseForm_cases (c : Char) :
    caseForm expansions runs c = [c] ∨
      ∀ d ∈ caseForm expansions runs c, ∃ n ∈ reached expansions runs, d = Char.ofNat n := by
  unfold caseForm
  split
  · rename_i forms hl
    refine Or.inr ?_
    intro d hd
    obtain ⟨before, after, heq, -⟩ := List.lookup_eq_some_iff.mp hl
    obtain ⟨n, hn, rfl⟩ := List.mem_map.mp hd
    exact ⟨n, List.mem_append_left _ (List.mem_flatMap.mpr ⟨(c.toNat, forms), by simp [heq], hn⟩), rfl⟩
  · unfold shifted
    split
    · rename_i r hr
      refine Or.inr ?_
      intro d hd
      have hcovers : r.covers c.toNat = true := by simpa using List.find?_some hr
      have himage : r.image c.toNat ∈ r.members.map r.image := List.mem_map_of_mem (CaseRun.mem_members hcovers)
      exact ⟨r.image c.toNat, List.mem_append_right _ (List.mem_flatMap.mpr
        ⟨r, List.mem_of_find?_eq_some hr, himage⟩), List.mem_singleton.mp hd⟩
    · exact Or.inl rfl

end Table

/-- A code point that a character is made of, where it is one. -/
theorem toNat_ofNat_of_valid {n : Nat} (h : n.isValidChar) : (Char.ofNat n).toNat = n := by
  rw [Char.ofNat, dif_pos h]
  rfl

/-- A table settles characters: it moves them to code points of characters that it does not move and that are not blank, and has no
empty expansion. -/
structure Settles (expansions : List (Nat × List Nat)) (runs : List CaseRun) : Prop where
  valid : ∀ n ∈ reached expansions runs, n.isValidChar
  still : bits (reached expansions runs) &&& bits (moved expansions runs) = 0
  solid : bits (reached expansions runs) &&& bits blank.points = 0
  full : ∀ e ∈ expansions, e.2 ≠ []

namespace Settles

variable {expansions : List (Nat × List Nat)} {runs : List CaseRun} (h : Settles expansions runs) {c d : Char}

include h

/-- A character in the form of another is its own form, and is not blank where the other is not. -/
theorem of_mem_caseForm (hd : d ∈ caseForm expansions runs c) :
    caseForm expansions runs d = [d] ∧ (isBlank c = false → isBlank d = false) := by
  rcases caseForm_cases expansions runs c with hc | hc
  · obtain rfl : d = c := List.mem_singleton.mp (hc ▸ hd)
    exact ⟨hc, id⟩
  · obtain ⟨n, hn, rfl⟩ := hc d hd
    have hplace := toNat_ofNat_of_valid (h.valid n hn)
    constructor
    · apply caseForm_of_not_moved
      rw [hplace]
      exact not_mem_of_bits h.still hn
    · intro _
      apply Bool.eq_false_iff.mpr
      intro hblank
      have hpoint := CharClass.mem_points hblank
      rw [hplace] at hpoint
      exact not_mem_of_bits h.solid hn hpoint

/-- No form is empty. -/
theorem caseForm_ne_nil (c : Char) : caseForm expansions runs c ≠ [] := by
  unfold caseForm
  split
  · rename_i forms hl
    obtain ⟨before, after, heq, -⟩ := List.lookup_eq_some_iff.mp hl
    have hne : forms ≠ [] := h.full (c.toNat, forms) (by simp [heq])
    simpa using hne
  · simp

end Settles

/-! ## Upper case -/

/-- Mapping every member to itself alone changes nothing. -/
theorem flatMap_eq_self {α : Type} {f : α → List α} {as : List α} (h : ∀ a ∈ as, f a = [a]) : as.flatMap f = as := by
  induction as with
  | nil => rfl
  | cons a as ih =>
    obtain ⟨hfirst, hrest⟩ := List.forall_mem_cons.mp h
    rw [List.flatMap_cons, hfirst, ih hrest, List.singleton_append]

/-- Upper-casing settles characters. -/
theorem settles_upper : Settles upperExpansions upperRuns := by
  constructor <;> decide +kernel

/-- Upper-casing twice is upper-casing once. -/
theorem upper_upper (s : String) : upper (upper s) = upper s := by
  have hform : (fun c => (upperForm c).flatMap upperForm) = upperForm := by
    funext c
    apply flatMap_eq_self
    intro d hd
    exact (settles_upper.of_mem_caseForm hd).1
  simp only [upper, String.toList_ofList, List.flatMap_assoc, hform]

/-- No text but the empty one is empty in upper case. -/
theorem upper_eq_empty_iff (s : String) : upper s = "" ↔ s = "" := by
  rw [upper, String.ofList_eq_empty_iff, List.flatMap_eq_nil_iff, ← String.toList_eq_nil_iff]
  constructor
  · intro h
    refine List.eq_nil_iff_forall_not_mem.mpr ?_
    intro c hc
    exact settles_upper.caseForm_ne_nil c (h c hc)
  · intro h c hc
    rw [h] at hc
    cases hc

/-! ## Lower case -/

/-- Lower-casing settles characters. -/
theorem settles_lower : Settles lowerExpansions lowerRuns := by
  constructor <;> decide +kernel

/-- The capital sigma is moved, and neither it nor the final one, which is not, is blank. -/
theorem lowerForm_sigmas :
    lowerForm 'Σ' = ['σ'] ∧ lowerForm 'ς' = ['ς'] ∧ isBlank 'Σ' = false ∧ isBlank 'ς' = false := by
  decide +kernel

/-- The character stays what it is when it is lower-cased, wherever it stands. -/
def IsLower (c : Char) : Prop := c ≠ 'Σ' ∧ lowerForm c = [c]

/-- A character that is its own lower-case form is not the capital sigma, and so stays what it is. -/
theorem isLower_of_lowerForm_eq {c : Char} (h : lowerForm c = [c]) : IsLower c := by
  refine ⟨?_, h⟩
  rintro rfl
  rw [lowerForm_sigmas.1] at h
  cases h

/-- The lower-case form of a character is in lower case, and of one that is not blank it has no blank character. -/
theorem isLower_of_mem_lowerForm {c d : Char} (h : d ∈ lowerForm c) : IsLower d ∧ (isBlank c = false → isBlank d = false) := by
  obtain ⟨hform, hblank⟩ := settles_lower.of_mem_caseForm h
  exact ⟨isLower_of_lowerForm_eq hform, hblank⟩

/-- Both small sigmas are in lower case, and not blank. -/
theorem isLower_sigma {d : Char} (hd : d = 'ς' ∨ d = 'σ') : IsLower d ∧ isBlank d = false := by
  obtain ⟨hcapital, hfinal, hsolid, hfinalSolid⟩ := lowerForm_sigmas
  rcases hd with rfl | rfl
  · exact ⟨isLower_of_lowerForm_eq hfinal, hfinalSolid⟩
  · have hsmall : 'σ' ∈ lowerForm 'Σ' := by
      rw [hcapital]
      exact List.mem_singleton_self _
    obtain ⟨hlower, hkeeps⟩ := isLower_of_mem_lowerForm hsmall
    exact ⟨hlower, hkeeps hsolid⟩

/-- What a character becomes when it is lower-cased where it stands: some characters in lower case, none of them blank where it is
not. -/
theorem lowerFrom_cons (before : List Char) (c : Char) (cs : List Char) :
    ∃ form, lowerFrom before (c :: cs) = form ++ lowerFrom (c :: before) cs ∧ form ≠ [] ∧
      ∀ d ∈ form, IsLower d ∧ (isBlank c = false → isBlank d = false) := by
  by_cases hc : c = 'Σ'
  · refine ⟨if meetsCased before && !meetsCased cs then ['ς'] else ['σ'], by rw [lowerFrom, if_pos hc], ?_, ?_⟩
    · split <;> exact List.cons_ne_nil _ _
    · intro d hd
      have hsigma : d = 'ς' ∨ d = 'σ' := by
        split at hd
        · exact Or.inl (List.mem_singleton.mp hd)
        · exact Or.inr (List.mem_singleton.mp hd)
      obtain ⟨hlower, hsolid⟩ := isLower_sigma hsigma
      exact ⟨hlower, fun _ => hsolid⟩
  · refine ⟨lowerForm c, by rw [lowerFrom, if_neg hc], settles_lower.caseForm_ne_nil c, ?_⟩
    intro d hd
    exact isLower_of_mem_lowerForm hd

/-- Every character of a lower-cased text is in lower case. -/
theorem isLower_of_mem_lowerFrom {before cs : List Char} {d : Char} (h : d ∈ lowerFrom before cs) : IsLower d := by
  induction cs generalizing before with
  | nil => cases h
  | cons c cs ih =>
    obtain ⟨form, heq, -, hform⟩ := lowerFrom_cons before c cs
    rw [heq] at h
    rcases List.mem_append.mp h with h | h
    · exact (hform d h).1
    · exact ih h

/-- A text of which every character is in lower case stays as it is. -/
theorem lowerFrom_eq_self {before cs : List Char} (h : ∀ c ∈ cs, IsLower c) : lowerFrom before cs = cs := by
  induction cs generalizing before with
  | nil => rfl
  | cons c cs ih =>
    obtain ⟨⟨hsigma, hform⟩, hrest⟩ := List.forall_mem_cons.mp h
    rw [lowerFrom, if_neg hsigma, hform, ih hrest]
    rfl

/-- Lower-casing twice is lower-casing once. -/
theorem lower_lower (s : String) : lower (lower s) = lower s := by
  rw [lower, lower, String.toList_ofList, lowerFrom_eq_self fun _ => isLower_of_mem_lowerFrom]

/-- No text but the empty one is empty in lower case. -/
theorem lower_eq_empty_iff (s : String) : lower s = "" ↔ s = "" := by
  rw [lower, String.ofList_eq_empty_iff, ← String.toList_eq_nil_iff]
  cases s.toList with
  | nil => exact ⟨fun _ => rfl, fun _ => rfl⟩
  | cons c cs =>
    obtain ⟨form, heq, hne, -⟩ := lowerFrom_cons [] c cs
    constructor
    · intro h
      rw [heq] at h
      exact absurd (List.append_eq_nil_iff.mp h).1 hne
    · intro h
      cases h

end FleetControl.Text
