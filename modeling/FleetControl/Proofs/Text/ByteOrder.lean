import FleetControl.Text.Utf8
import Mathlib.Data.List.Basic

/-!
# The order of texts and of their bytes

Texts are compared code point by code point. Their bytes are in the same order, compared one by one: of two characters the one with
the smaller code point has the smaller bytes, whatever comes after either.
-/

namespace FleetControl.Utf8

/-- The bytes of a character come before those of every character with a greater code point, whatever comes after either. -/
theorem utf8EncodeChar_append_lt {c d : Char} (h : c < d) (xs ys : Bytes) :
    String.utf8EncodeChar c ++ xs < String.utf8EncodeChar d ++ ys := by
  have hlt : c.val.toNat < d.val.toNat := h
  have hlast : d.val.toNat < 0x110000 := by
    rcases d.valid with h | h <;> omega
  unfold String.utf8EncodeChar
  generalize c.val.toNat = m at *
  generalize d.val.toNat = n at *
  dsimp only
  -- one case for each pair of lengths: the first byte decides unless the lengths are equal
  split_ifs <;>
    simp only [List.cons_append, List.nil_append, List.cons_lt_cons_iff, UInt8.lt_iff_toNat_lt, ← UInt8.toNat_inj,
      UInt8.toNat_ofNat']
  all_goals try omega
  -- of two characters of four bytes the first digit to the base 64 that differs decides
  rcases Nat.lt_or_eq_of_le (Nat.div_le_div_right (c := 262144) (Nat.le_of_lt hlt)) with hfirst | hfirst
  · omega
  rcases Nat.lt_or_eq_of_le (Nat.div_le_div_right (c := 4096) (Nat.le_of_lt hlt)) with hsecond | hsecond
  · omega
  rcases Nat.lt_or_eq_of_le (Nat.div_le_div_right (c := 64) (Nat.le_of_lt hlt)) with hthird | hthird
  · omega
  · omega

/-- Texts in ascending order have bytes in ascending order. -/
theorem encode_lt {s t : String} (h : s < t) : encode s < encode t := by
  unfold encode
  rw [String.lt_iff] at h
  generalize s.toList = cs at *
  generalize t.toList = ds at *
  induction h with
  | @nil d ds =>
    obtain ⟨b, bs, hbytes⟩ := List.exists_cons_of_ne_nil (String.utf8EncodeChar_ne_nil (c := d))
    rw [List.flatMap_nil, List.flatMap_cons, hbytes]
    exact List.nil_lt_cons _ _
  | rel hlt => exact utf8EncodeChar_append_lt hlt _ _
  | cons _ ih =>
    rw [List.flatMap_cons, List.flatMap_cons]
    exact List.append_left_lt ih

end FleetControl.Utf8
