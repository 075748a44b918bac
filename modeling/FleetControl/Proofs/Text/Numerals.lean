import FleetControl.Text.Numeral

/-!
# Numbers that are read

A number that is read lies within its bounds, and a number within them that is written in decimal digits is read as itself.
-/

namespace FleetControl.Numeral

/-- A number that is read upwards is not above its bound. -/
theorem le_of_readUp_eq_ok {high n m : Int} {cs : List Char} (hn : n ≤ high) (h : readUp high n cs = .ok m) : m ≤ high := by
  induction cs generalizing n with
  | nil =>
    cases h
    exact hn
  | cons c cs ih =>
    unfold readUp at h
    split at h
    · cases h
    · split at h
      · rename_i hle
        exact ih hle h
      · cases h

/-- A number that is read downwards is not above what was read before. -/
theorem le_of_readDown_eq_ok {low n m : Int} (hn : n ≤ 0) {cs : List Char} (h : readDown low n cs = .ok m) : m ≤ 0 := by
  induction cs generalizing n with
  | nil =>
    cases h
    exact hn
  | cons c cs ih =>
    unfold readDown at h
    split at h
    · cases h
    · split at h
      · exact ih (by omega) h
      · cases h

/-- A number that is read is not above its bound. -/
theorem le_of_read_eq_ok {low high n : Int} (hhigh : 0 ≤ high) {s : String} (h : read low high s = .ok n) : n ≤ high := by
  unfold read at h
  split at h
  · cases h
  · cases h
  · cases h
  · exact le_of_readUp_eq_ok hhigh h
  · split at h
    · exact Int.le_trans (le_of_readDown_eq_ok (Int.le_refl 0) h) hhigh
    · exact le_of_readUp_eq_ok hhigh h

/-- What is read on top of a number is at least that number. -/
theorem le_ofDigitChars (n : Nat) (cs : List Char) : n ≤ Nat.ofDigitChars 10 cs n := by
  rw [Nat.ofDigitChars_eq_ofDigitChars_zero]
  exact Nat.le_trans (Nat.le_mul_of_pos_left n (Nat.pos_of_ne_zero (by simp))) (Nat.le_add_right _ _)

/-- Digits of a number within the bound are read as that number. -/
theorem readUp_of_isDigit {high : Int} {n : Nat} {cs : List Char} (hdigits : ∀ c ∈ cs, c.isDigit = true)
    (hhigh : (Nat.ofDigitChars 10 cs n : Int) ≤ high) : readUp high n cs = .ok (Nat.ofDigitChars 10 cs n : Int) := by
  induction cs generalizing n with
  | nil => rfl
  | cons c cs ih =>
    obtain ⟨hc, hcs⟩ := List.forall_mem_cons.mp hdigits
    rw [Nat.ofDigitChars_cons] at hhigh ⊢
    have hnext : (n : Int) * 10 + ((c.toNat - '0'.toNat : Nat) : Int) = ((10 * n + (c.toNat - '0'.toNat) : Nat) : Int) := by
      push_cast
      omega
    have hle : ((10 * n + (c.toNat - '0'.toNat) : Nat) : Int) ≤ high :=
      Int.le_trans (Int.ofNat_le.mpr (le_ofDigitChars _ cs)) hhigh
    simp only [readUp, digit?, hc, if_true]
    rw [hnext, if_pos hle]
    exact ih hcs hhigh

/-- A natural number within the bound is read as it is written. -/
theorem read_toString {low high : Int} {n : Nat} (hhigh : n ≤ high) : read low high (toString n) = .ok (n : Int) := by
  have hdigits : ∀ c ∈ Nat.toDigits 10 n, c.isDigit = true := fun c hc => Nat.isDigit_of_mem_toDigits (by decide) (by decide) hc
  have hnumber : Nat.ofDigitChars 10 (Nat.toDigits 10 n) 0 = n := Nat.ofDigitChars_toDigits (by decide) (by decide)
  have hread : readUp high 0 (Nat.toDigits 10 n) = .ok (n : Int) := by
    have hup : readUp high (0 : Nat) (Nat.toDigits 10 n) = _ := readUp_of_isDigit hdigits (by rwa [hnumber])
    rwa [hnumber] at hup
  unfold read
  rw [Nat.toString_eq_repr, Nat.toList_repr]
  -- the text starts with a digit, which is no sign
  cases hcs : Nat.toDigits 10 n with
  | nil => exact absurd hcs Nat.toDigits_ne_nil
  | cons c cs =>
    rw [hcs] at hread hdigits
    have hc : c.isDigit = true := hdigits c List.mem_cons_self
    have hplus : c ≠ '+' := by
      rintro rfl
      cases hc
    have hminus : c ≠ '-' := by
      rintro rfl
      cases hc
    split
    · rename_i heq
      cases heq
    · rename_i heq
      exact absurd (List.cons.inj heq).1 hplus
    · rename_i heq
      exact absurd (List.cons.inj heq).1 hminus
    · rename_i heq
      exact absurd (List.cons.inj heq).1 hplus
    · rename_i heq
      obtain ⟨rfl, rfl⟩ := List.cons.inj heq
      rw [if_neg fun h => hminus h.1, hread]

end FleetControl.Numeral
