import FleetControl.Json.Format
import FleetControl.Proofs.Programs
import Mathlib.Data.List.Forall2

/-!
# Reading a text in two ways

A value of a text is read closely where it is kept, and by the grammar alone where nobody looks at it. Both ways come to the same end:
what can be read closely, however deep it may be nested, can be passed over, and the same bytes are left (`skip_of_value`). For this
the loops over the items of a list and the fields of an object are followed step by step: a reader that keeps up with another one on
each item or field keeps up with it on all of them (`items_keeps_up`, `fields_follows`).
-/

namespace FleetControl.Json

variable {α β σ τ : Type}

/-! ## What is left -/

/-- Reading leaves no more bytes than there were. -/
def Shrinks (read : Bytes → Except Fault (α × Bytes)) : Prop := ∀ ⦃bs a rest⦄, read bs = .ok (a, rest) → rest.length ≤ bs.length

theorem length_skipSpace_le (bs : Bytes) : (skipSpace bs).length ≤ bs.length := (List.dropWhile_sublist _).length_le

theorem length_of_skipSpace {bs rest : Bytes} {b : UInt8} (h : skipSpace bs = b :: rest) : rest.length < bs.length := by
  have hle := length_skipSpace_le bs
  rw [h, List.length_cons] at hle
  exact hle

/-- Where space has been passed over, there is none. -/
theorem skipSpace_skipSpace (bs : Bytes) : skipSpace (skipSpace bs) = skipSpace bs := by
  unfold skipSpace
  induction bs with
  | nil => rfl
  | cons b bs ih =>
    rw [List.dropWhile_cons]
    split
    · exact ih
    · rename_i hsolid
      rw [List.dropWhile_cons, if_neg hsolid]

/-! ### Words, texts and numbers -/

/-- A word stands for one value. -/
theorem of_word {letters : String} {a a' : α} {bs rest : Bytes} (h : word letters a bs = .ok (a', rest)) :
    a' = a ∧ rest.length ≤ bs.length := by
  simp only [word] at h
  split at h
  · cases h
    exact ⟨rfl, by rw [List.length_drop]; exact Nat.sub_le _ _⟩
  · cases h

theorem stringOnto_quote (care : Care) (done bs : Bytes) : stringOnto care done (0x22 :: bs) = .ok (done.reverse, bs) := by
  rw [stringOnto.eq_def]
  rfl

/-- By the grammar alone, a code unit is passed over whatever follows it. -/
theorem stringOnto_grammar_code (done : Bytes) {a b c d : UInt8} {n : Nat} (h : Hexadecimal.four? a b c d = some n)
    (rest : Bytes) : stringOnto .grammar done (0x5C :: 0x75 :: a :: b :: c :: d :: rest) = stringOnto .grammar done rest := by
  rw [stringOnto, if_neg (by decide), if_pos rfl, h]
  exact if_pos rfl

theorem stringOnto_escape (care : Care) (done : Bytes) {e x : UInt8} (h : escaped? e = some x) (rest : Bytes) :
    stringOnto care done (0x5C :: e :: rest) = stringOnto care (x :: done) rest := by
  rw [stringOnto, if_neg (by decide), if_pos rfl, h]
  rintro _ _ _ _ _ rfl
  cases h

theorem stringOnto_plain (care : Care) (done : Bytes) {b : UInt8} (hquote : b ≠ 0x22) (hescape : b ≠ 0x5C) (hcontrol : ¬b < 0x20)
    (bs : Bytes) : stringOnto care done (b :: bs) = stringOnto care (b :: done) bs := by
  rw [stringOnto.eq_def]
  exact (if_neg hquote).trans ((if_neg hescape).trans (if_neg hcontrol))

/-- A text that can be read can be passed over, on top of whatever was read before. -/
theorem of_stringOnto {care : Care} {done bs raw rest : Bytes} (h : stringOnto care done bs = .ok (raw, rest)) :
    rest.length ≤ bs.length ∧ ∀ done', ∃ raw', stringOnto .grammar done' bs = .ok (raw', rest) := by
  fun_induction stringOnto care done bs with
  | case1 | case3 | case5 | case7 | case8 | case9 | case11 | case13 | case14 => cases h
  | case2 done bs =>
    cases h
    exact ⟨Nat.le_succ _, fun done' => ⟨done'.reverse, stringOnto_quote .grammar done' rest⟩⟩
  | case4 done a b c d tail n hcode _ _ ih | case10 done a b c d tail n hcode _ _ _ _ ih =>
    obtain ⟨hlength, hpasses⟩ := ih h
    refine ⟨Nat.le_trans hlength (Nat.le_add_right _ 6), fun done' => ?_⟩
    rw [stringOnto_grammar_code done' hcode]
    exact hpasses done'
  | case6 done a b c d n hlead _ _ a' b' c' d' tail m htrail _ _ ih =>
    -- a pair of surrogates is one character to the close reading and two code units to the grammar
    obtain ⟨hlength, hpasses⟩ := ih h
    refine ⟨Nat.le_trans hlength (Nat.le_add_right _ 12), fun done' => ?_⟩
    rw [stringOnto_grammar_code done' hlead, stringOnto_grammar_code done' htrail]
    exact hpasses done'
  | case12 done e tail _ x hescape _ ih =>
    obtain ⟨hlength, hpasses⟩ := ih h
    refine ⟨Nat.le_trans hlength (Nat.le_add_right _ 2), fun done' => ?_⟩
    rw [stringOnto_escape .grammar done' hescape]
    exact hpasses (x :: done')
  | case15 done b tail hquote hescape hcontrol ih =>
    obtain ⟨hlength, hpasses⟩ := ih h
    refine ⟨Nat.le_trans hlength (Nat.le_succ _), fun done' => ?_⟩
    rw [stringOnto_plain .grammar done' hquote hescape hcontrol]
    exact hpasses (b :: done')

theorem of_string {care : Care} {bs rest : Bytes} {s : String} (h : string care bs = .ok (s, rest)) :
    rest.length ≤ bs.length ∧ string .grammar bs = .ok ("", rest) := by
  obtain ⟨⟨raw, after⟩, hraw, h⟩ := of_bind_eq_ok h
  have hafter : after = rest := by
    dsimp only at h
    split at h
    · cases h
      rfl
    · split at h
      · cases h
        rfl
      · cases h
  subst hafter
  obtain ⟨hlength, hpasses⟩ := of_stringOnto hraw
  obtain ⟨raw', hraw'⟩ := hpasses []
  refine ⟨hlength, ?_⟩
  rw [string, hraw']
  rfl

theorem shrinks_someDigits : Shrinks someDigits := by
  intro bs digits rest h
  unfold someDigits at h
  split at h
  · cases h
    exact (List.dropWhile_sublist _).length_le
  · cases h

theorem shrinks_wholePart : Shrinks wholePart := by
  intro bs digits rest h
  cases bs with
  | nil => cases h
  | cons b bs =>
    simp only [wholePart] at h
    split at h
    · split at h
      · cases h
      · cases h
        exact Nat.le_succ _
    · split at h
      · cases h
        exact Nat.le_succ_of_le (List.dropWhile_sublist _).length_le
      · cases h

theorem shrinks_fractionPart : Shrinks fractionPart := by
  intro bs digits rest h
  unfold fractionPart at h
  split at h
  · obtain ⟨⟨digits, rest⟩, hdigits, h⟩ := of_bind_eq_ok h
    cases h
    exact Nat.le_succ_of_le (shrinks_someDigits hdigits)
  · cases h
    exact Nat.le_refl _

theorem shrinks_exponentPart : Shrinks exponentPart := by
  intro bs digits rest h
  unfold exponentPart at h
  split at h
  · split at h
    · split at h
      all_goals
        obtain ⟨⟨digits, rest⟩, hdigits, h⟩ := of_bind_eq_ok h
        cases h
        have hlength := shrinks_someDigits hdigits
        simp only [List.length_cons]
        omega
    · cases h
      exact Nat.le_refl _
  · cases h
    exact Nat.le_refl _

/-- The value is a list or an object. -/
def isNested : Json → Bool
  | .list _ => true
  | .object _ => true
  | _ => false

theorem of_ofNumber (negative : Bool) (whole : Bytes) (fraction : Option Bytes) (exponent : Option Int) :
    (ofNumber negative whole fraction exponent).isNested = false ∧ (ofNumber negative whole fraction exponent).isNull = false := by
  unfold ofNumber
  dsimp only
  repeat' split
  all_goals exact ⟨rfl, rfl⟩

/-- A number that can be read can be passed over. -/
theorem of_number {care : Care} {negative : Bool} {bs rest : Bytes} {j : Json} (h : number care negative bs = .ok (j, rest)) :
    rest.length ≤ bs.length ∧ number .grammar negative bs = .ok (j, rest) ∧ j.isNested = false ∧ j.isNull = false := by
  unfold number at h ⊢
  obtain ⟨⟨whole, afterWhole⟩, hwhole, h⟩ := of_bind_eq_ok h
  obtain ⟨⟨fraction, afterFraction⟩, hfraction, h⟩ := of_bind_eq_ok h
  obtain ⟨⟨exponent, afterExponent⟩, hexponent, h⟩ := of_bind_eq_ok h
  have hread : ofNumber negative whole fraction exponent = j ∧ afterExponent = rest := by
    dsimp only at h
    split at h
    · split at h
      · cases h
        exact ⟨rfl, rfl⟩
      · cases h
    · cases h
      exact ⟨rfl, rfl⟩
  obtain ⟨rfl, rfl⟩ := hread
  refine ⟨?_, ?_, of_ofNumber negative whole fraction exponent⟩
  · calc afterExponent.length ≤ afterFraction.length := shrinks_exponentPart hexponent
      _ ≤ afterWhole.length := shrinks_fractionPart hfraction
      _ ≤ bs.length := shrinks_wholePart hwhole
  · rw [hwhole]
    change (fractionPart afterWhole >>= _) = _
    rw [hfraction]
    change (exponentPart afterFraction >>= _) = _
    rw [hexponent]
    rfl

/-! ### Values -/

/-- Reads a value that is neither a list nor an object, after its first byte. -/
def flatFrom (care : Care) (b : UInt8) (bs : Bytes) : Except Fault (Json × Bytes) :=
  if b = 0x6E then word "ull" .null bs
  else if b = 0x74 then word "rue" (.bool true) bs
  else if b = 0x66 then word "alse" (.bool false) bs
  else if b = 0x22 then (string care bs).map fun r => (.text r.1, r.2)
  else if b = 0x2D then number care true bs
  else if isDigit b then number care false (b :: bs)
  else .error .malformed

/-- What comes of reading a value that is neither a list nor an object, from the first byte on. -/
structure Flat (b : UInt8) (bs : Bytes) (j : Json) (rest : Bytes) : Prop where
  flat : j.isNested = false
  length_le : rest.length ≤ (b :: bs).length
  passes : ∃ j', flatFrom .grammar b bs = .ok (j', rest)
  ne_list : b ≠ 0x5B
  ne_object : b ≠ 0x7B
  null : j.isNull = true → b = 0x6E

theorem of_flatFrom {care : Care} {b : UInt8} {bs rest : Bytes} {j : Json} (h : flatFrom care b bs = .ok (j, rest)) :
    Flat b bs j rest := by
  by_cases hnull : b = 0x6E
  · subst hnull
    obtain ⟨rfl, hlength⟩ := of_word h
    exact ⟨rfl, Nat.le_succ_of_le hlength, ⟨_, h⟩, by decide, by decide, fun _ => rfl⟩
  by_cases htrue : b = 0x74
  · subst htrue
    obtain ⟨rfl, hlength⟩ := of_word h
    exact ⟨rfl, Nat.le_succ_of_le hlength, ⟨_, h⟩, by decide, by decide, nofun⟩
  by_cases hfalse : b = 0x66
  · subst hfalse
    obtain ⟨rfl, hlength⟩ := of_word h
    exact ⟨rfl, Nat.le_succ_of_le hlength, ⟨_, h⟩, by decide, by decide, nofun⟩
  by_cases hquote : b = 0x22
  · subst hquote
    obtain ⟨⟨s, after⟩, hs, heq⟩ := of_map_eq_ok h
    cases heq
    obtain ⟨hlength, hpasses⟩ := of_string hs
    refine ⟨rfl, Nat.le_succ_of_le hlength, ⟨.text "", ?_⟩, by decide, by decide, nofun⟩
    exact congrArg (Except.map fun r => (Json.text r.1, r.2)) hpasses
  by_cases hminus : b = 0x2D
  · subst hminus
    obtain ⟨hlength, hpasses, hflat, hsome⟩ := of_number h
    exact ⟨hflat, Nat.le_succ_of_le hlength, ⟨j, hpasses⟩, by decide, by decide, fun hj => absurd hj (by simp [hsome])⟩
  simp only [flatFrom, if_neg hnull, if_neg htrue, if_neg hfalse, if_neg hquote, if_neg hminus] at h
  split at h
  · rename_i hdigit
    obtain ⟨hlength, hpasses, hflat, hsome⟩ := of_number h
    refine ⟨hflat, hlength, ⟨j, ?_⟩, ?_, ?_, fun hj => absurd hj (by simp [hsome])⟩
    · simp only [flatFrom, if_neg hnull, if_neg htrue, if_neg hfalse, if_neg hquote, if_neg hminus, if_pos hdigit]
      exact hpasses
    · rintro rfl
      exact absurd hdigit (by decide)
    · rintro rfl
      exact absurd hdigit (by decide)
  · cases h

/-- Reads the fields of an object that is kept, each under its name. -/
def keepField (read : Bytes → Except Fault (Json × Bytes)) : FieldReader (List (String × Json)) :=
  fun name done => .ok fun bs => (read bs).map fun r => (putEntry name r.1 done, r.2)

section Value

variable {care : Care} {depth : Nat} {bs rest tail : Bytes} {b : UInt8} {j : Json}

theorem value_of_list (h : skipSpace bs = 0x5B :: tail) :
    value care (depth + 1) bs = (items (value care depth) tail).map fun r => (.list r.1, r.2) := by
  rw [value, h]
  rfl

theorem value_of_object (h : skipSpace bs = 0x7B :: tail) :
    value care (depth + 1) bs = (fields care (keepField (value care depth)) [] tail).map fun r => (.object r.1, r.2) := by
  rw [value, h]
  rfl

theorem value_zero (h : skipSpace bs = b :: tail) : value care 0 bs = flatFrom care b tail := by
  rw [value, h]
  rfl

/-- How deep lists and objects may be nested does not matter to other values. -/
theorem value_of_flat (h : skipSpace bs = b :: tail) (hlist : b ≠ 0x5B) (hobject : b ≠ 0x7B) :
    value care depth bs = flatFrom care b tail := by
  cases depth with
  | zero => exact value_zero h
  | succ depth =>
    rw [value, h]
    dsimp only
    rw [if_neg hlist, if_neg hobject]
    rfl

theorem value_of_flatFrom (h : skipSpace bs = b :: tail) (hflat : flatFrom care b tail = .ok (j, rest)) :
    value care depth bs = .ok (j, rest) := by
  have hread := of_flatFrom hflat
  rw [value_of_flat h hread.ne_list hread.ne_object]
  exact hflat

/-- The ways in which a value is read. -/
inductive ReadAs (care : Care) (bs : Bytes) : (depth : Nat) → Json → Bytes → Prop where
  | list {depth : Nat} {tail rest : Bytes} {js : List Json} (h : skipSpace bs = 0x5B :: tail)
      (hitems : items (value care depth) tail = .ok (js, rest)) : ReadAs care bs (depth + 1) (.list js) rest
  | object {depth : Nat} {tail rest : Bytes} {fs : List (String × Json)} (h : skipSpace bs = 0x7B :: tail)
      (hfields : fields care (keepField (value care depth)) [] tail = .ok (fs, rest)) : ReadAs care bs (depth + 1) (.object fs) rest
  | flat {depth : Nat} {b : UInt8} {tail rest : Bytes} {j : Json} (h : skipSpace bs = b :: tail)
      (hflat : flatFrom care b tail = .ok (j, rest)) : ReadAs care bs depth j rest

theorem readAs_of_value (h : value care depth bs = .ok (j, rest)) : ReadAs care bs depth j rest := by
  match hskip : skipSpace bs with
  | [] =>
    rw [value, hskip] at h
    cases h
  | b :: tail =>
    by_cases hlist : b = 0x5B
    · subst hlist
      cases depth with
      | zero =>
        rw [value_zero hskip] at h
        cases h
      | succ depth =>
        rw [value_of_list hskip] at h
        obtain ⟨⟨js, after⟩, hitems, heq⟩ := of_map_eq_ok h
        cases heq
        exact .list hskip hitems
    · by_cases hobject : b = 0x7B
      · subst hobject
        cases depth with
        | zero =>
          rw [value_zero hskip] at h
          cases h
        | succ depth =>
          rw [value_of_object hskip] at h
          obtain ⟨⟨fs, after⟩, hfields, heq⟩ := of_map_eq_ok h
          cases heq
          exact .object hskip hfields
      · rw [value_of_flat hskip hlist hobject] at h
        exact .flat hskip h

end Value

/-! ## Lists and objects -/

/-- Reads on after a part of a list or an object: more after a comma, and nothing more after the closing byte. -/
def next (close : UInt8) (more last : Bytes → Except Fault α) (bs : Bytes) : Except Fault α :=
  match skipSpace bs with
  | [] => .error .malformed
  | b :: bs => if b = 0x2C then more bs else if b = close then last bs else .error .malformed

section Next

variable {close : UInt8} {more last : Bytes → Except Fault α} {bs tail : Bytes}

theorem next_of_comma (h : skipSpace bs = 0x2C :: tail) : next close more last bs = more tail := by
  rw [next, h]
  rfl

theorem next_of_close (hclose : close ≠ 0x2C) (h : skipSpace bs = close :: tail) : next close more last bs = last tail := by
  rw [next, h]
  exact (if_neg hclose).trans (if_pos rfl)

theorem next_of_other (hcomma : ∀ tail, skipSpace bs ≠ 0x2C :: tail) (hclose : ∀ tail, skipSpace bs ≠ close :: tail) :
    next close more last bs = .error .malformed := by
  rw [next]
  split
  · rfl
  · rename_i b tail heq
    have hneComma : b ≠ 0x2C := fun hb => hcomma tail (hb ▸ heq)
    have hneClose : b ≠ close := fun hb => hclose tail (hb ▸ heq)
    rw [if_neg hneComma, if_neg hneClose]

theorem of_next {a : α} (h : next close more last bs = .ok a) :
    (∃ tail, skipSpace bs = 0x2C :: tail ∧ more tail = .ok a) ∨
      (close ≠ 0x2C ∧ ∃ tail, skipSpace bs = close :: tail ∧ last tail = .ok a) := by
  unfold next at h
  split at h
  · cases h
  · rename_i b tail hskip
    split at h
    · rename_i hcomma
      exact .inl ⟨tail, hcomma ▸ hskip, h⟩
    · rename_i hcomma
      split at h
      · rename_i hclose
        subst hclose
        exact .inr ⟨hcomma, tail, hskip, h⟩
      · cases h

end Next

/-- Reads parts one after another, at least one, with a comma after each but the last, up to a closing byte. -/
def parts (close : UInt8) (part : σ → Bytes → Except Fault (σ × Bytes)) : (steps : Nat) → σ → Bytes → Except Fault (σ × Bytes)
  | 0, _, _ => .error .malformed
  | steps + 1, state, bs => do
    let (state, bs) ← part state bs
    next close (parts close part steps state) (fun rest => .ok (state, rest)) bs

section Parts

variable {close : UInt8} {part : σ → Bytes → Except Fault (σ × Bytes)} {steps n : Nat} {s s' : σ} {bs rest : Bytes}

/-- One part is read, and then either the closing byte or a comma and more parts. -/
theorem of_parts (h : parts close part steps s bs = .ok (s', rest)) :
    ∃ steps' state after, steps = steps' + 1 ∧ part s bs = .ok (state, after) ∧
      ((∃ tail, skipSpace after = 0x2C :: tail ∧ parts close part steps' state tail = .ok (s', rest)) ∨
        (close ≠ 0x2C ∧ skipSpace after = close :: rest ∧ state = s')) := by
  cases steps with
  | zero => cases h
  | succ steps =>
    obtain ⟨⟨state, after⟩, hpart, hmore⟩ := of_bind_eq_ok h
    refine ⟨steps, state, after, rfl, hpart, (of_next hmore).imp_right ?_⟩
    rintro ⟨hcomma, tail, hskip, hlast⟩
    cases hlast
    exact ⟨hcomma, hskip, rfl⟩

theorem shrinks_parts (hpart : ∀ s, Shrinks (part s)) : Shrinks (parts close part steps s) := by
  intro bs s' rest h
  induction steps generalizing s bs with
  | zero => cases h
  | succ steps ih =>
    obtain ⟨_, state, after, heq, hread, hmore | ⟨-, hclose, -⟩⟩ := of_parts h
    · cases heq
      obtain ⟨tail, hskip, hmore⟩ := hmore
      calc rest.length ≤ tail.length := ih hmore
        _ ≤ after.length := Nat.le_of_lt (length_of_skipSpace hskip)
        _ ≤ bs.length := hpart s hread
    · calc rest.length ≤ after.length := Nat.le_of_lt (length_of_skipSpace hclose)
        _ ≤ bs.length := hpart s hread

/-- What each part keeps, all of them keep. -/
theorem parts_preserves {P : σ → Prop} (hpart : ∀ s bs s' rest, P s → part s bs = .ok (s', rest) → P s') (hP : P s)
    (h : parts close part steps s bs = .ok (s', rest)) : P s' := by
  induction steps generalizing s bs with
  | zero => cases h
  | succ steps ih =>
    obtain ⟨_, state, after, heq, hread, ⟨tail, -, hmore⟩ | ⟨-, -, rfl⟩⟩ := of_parts h
    · cases heq
      exact ih (hpart s bs state after hP hread) hmore
    · exact hpart s bs state after hP hread

/-- A reader of parts that keeps up with another one on each part keeps up with it on all of them. If it fails on a part, this can be
told from what the other one has read, and cannot be undone by what that reads after. -/
theorem parts_follows {part' : τ → Bytes → Except Fault (τ × Bytes)} (R : σ → τ → Prop) (Failed : σ → Prop)
    (hshrinks : ∀ s, Shrinks (part s))
    (hpart : ∀ s t bs s' rest, R s t → bs.length ≤ n → part s bs = .ok (s', rest) →
      (∃ t', part' t bs = .ok (t', rest) ∧ R s' t') ∨ ((∃ why, part' t bs = .error why) ∧ Failed s'))
    (hfailed : ∀ s bs s' rest, Failed s → part s bs = .ok (s', rest) → Failed s')
    {t : τ} (hR : R s t) (hn : bs.length ≤ n) (h : parts close part steps s bs = .ok (s', rest)) :
    (∃ t', parts close part' steps t bs = .ok (t', rest) ∧ R s' t') ∨
      ((∃ why, parts close part' steps t bs = .error why) ∧ Failed s') := by
  induction steps generalizing s t bs with
  | zero => cases h
  | succ steps ih =>
    obtain ⟨_, state, after, heq, hread, hmore⟩ := of_parts h
    cases heq
    rcases hpart s t bs state after hR hn hread with ⟨u, hu, hRu⟩ | ⟨⟨why, hwhy⟩, hstate⟩
    · have hstep : parts close part' (steps + 1) t bs =
          next close (parts close part' steps u) (fun rest => .ok (u, rest)) after := by
        rw [parts, hu]
        rfl
      rcases hmore with ⟨tail, hskip, hmore⟩ | ⟨hcomma, hskip, rfl⟩
      · rw [hstep, next_of_comma hskip]
        have htail : tail.length ≤ n := by
          have hlt := length_of_skipSpace hskip
          have hle := hshrinks s hread
          omega
        exact ih hRu htail hmore
      · exact .inl ⟨u, hstep.trans (next_of_close hcomma hskip), hRu⟩
    · refine .inr ⟨⟨why, ?_⟩, ?_⟩
      · rw [parts, hwhy]
        rfl
      · rcases hmore with ⟨tail, -, hmore⟩ | ⟨-, -, rfl⟩
        · exact parts_preserves hfailed hstate hmore
        · exact hstate

/-- A reader of parts that keeps up with another one on each part, and fails on none, keeps up with it on all of them. -/
theorem parts_keeps_up {part' : τ → Bytes → Except Fault (τ × Bytes)} {R : σ → τ → Prop} (hshrinks : ∀ s, Shrinks (part s))
    (hpart : ∀ s t bs s' rest, R s t → bs.length ≤ n → part s bs = .ok (s', rest) → ∃ t', part' t bs = .ok (t', rest) ∧ R s' t')
    {t : τ} (hR : R s t) (hn : bs.length ≤ n) (h : parts close part steps s bs = .ok (s', rest)) :
    ∃ t', parts close part' steps t bs = .ok (t', rest) ∧ R s' t' :=
  (parts_follows R (fun _ => False) hshrinks (fun s t bs s' rest hR hn h => .inl (hpart s t bs s' rest hR hn h))
    (fun _ _ _ _ never _ => never) hR hn h).resolve_right (·.2)

end Parts

/-- Reads one item of a list, on top of those before it, which stand in reverse order. -/
def item (read : Bytes → Except Fault (α × Bytes)) (done : List α) (bs : Bytes) : Except Fault (List α × Bytes) :=
  (read bs).map fun r => (r.1 :: done, r.2)

/-- Reads one field of an object. -/
def field (care : Care) (read : FieldReader σ) (state : σ) (bs : Bytes) : Except Fault (σ × Bytes) :=
  match skipSpace bs with
  | 0x22 :: bs => do
    let (name, bs) ← string care bs
    let readValue ← read name state
    let bs ← colon bs
    readValue bs
  | _ => .error .malformed

/-- The items of a list are its parts. -/
theorem itemsOnto_eq (read : Bytes → Except Fault (α × Bytes)) (done : List α) (steps : Nat) (bs : Bytes) :
    itemsOnto read done steps bs = (parts 0x5D (item read) steps done bs).map fun r => (r.1.reverse, r.2) := by
  induction steps generalizing done bs with
  | zero => rfl
  | succ steps ih =>
    rw [itemsOnto, parts, item]
    cases read bs with
    | error why => rfl
    | ok r =>
      dsimp only [bind, Except.bind, Except.map]
      split
      · rename_i heq
        rw [next_of_comma heq]
        exact ih _ _
      · rename_i heq
        rw [next_of_close (by decide) heq]
      · rename_i hcomma hclose
        rw [next_of_other (fun _ => hcomma _) (fun _ => hclose _)]

/-- The fields of an object are its parts. -/
theorem fieldsOnto_eq (care : Care) (read : FieldReader σ) (state : σ) (steps : Nat) (bs : Bytes) :
    fieldsOnto care read state steps bs = parts 0x7D (field care read) steps state bs := by
  induction steps generalizing state bs with
  | zero => rfl
  | succ steps ih =>
    rw [fieldsOnto, parts]
    split
    · rename_i tail hskip
      have hfield : field care read state bs =
          string care tail >>= fun named => read named.1 state >>= fun readValue => colon named.2 >>= readValue := by
        rw [field, hskip]
        rfl
      rw [hfield]
      cases string care tail with
      | error why => rfl
      | ok named =>
        change (read named.1 state >>= _) = ((read named.1 state >>= _) >>= _)
        cases read named.1 state with
        | error why => rfl
        | ok readValue =>
          change (colon named.2 >>= _) = ((colon named.2 >>= _) >>= _)
          cases colon named.2 with
          | error why => rfl
          | ok valued =>
            change (readValue valued >>= _) = (readValue valued >>= _)
            cases readValue valued with
            | error why => rfl
            | ok r =>
              dsimp only [bind, Except.bind]
              split
              · rename_i heq
                rw [next_of_comma heq]
                exact ih _ _
              · rename_i heq
                rw [next_of_close (by decide) heq]
              · rename_i hcomma hclose
                rw [next_of_other (fun _ => hcomma _) (fun _ => hclose _)]
    · rename_i hquote
      rw [field]
      split
      · rename_i hskip
        exact absurd hskip (hquote _)
      · rfl

/-- What comes of one field: its name is read, and then its value after a colon. -/
theorem of_field {care : Care} {read : FieldReader σ} {s s' : σ} {bs rest : Bytes} (h : field care read s bs = .ok (s', rest)) :
    ∃ tail name named readValue valued, skipSpace bs = 0x22 :: tail ∧ string care tail = .ok (name, named) ∧
      read name s = .ok readValue ∧ colon named = .ok valued ∧ valued.length ≤ bs.length ∧ readValue valued = .ok (s', rest) := by
  unfold field at h
  split at h
  · rename_i tail hskip
    obtain ⟨⟨name, named⟩, hname, h⟩ := of_bind_eq_ok h
    obtain ⟨readValue, hread, h⟩ := of_bind_eq_ok h
    obtain ⟨valued, hcolon, h⟩ := of_bind_eq_ok h
    have hvalued : valued.length ≤ named.length := by
      unfold colon at hcolon
      split at hcolon
      · rename_i heq
        cases hcolon
        exact Nat.le_of_lt (length_of_skipSpace heq)
      · cases hcolon
    have hlength : valued.length ≤ bs.length := by
      calc valued.length ≤ named.length := hvalued
        _ ≤ tail.length := (of_string hname).1
        _ ≤ bs.length := Nat.le_of_lt (length_of_skipSpace hskip)
    exact ⟨tail, name, named, readValue, valued, hskip, hname, hread, hcolon, hlength, h⟩
  · cases h

/-- Once its name and the colon are read, a field is read by its name. -/
theorem field_eq {care : Care} {read : FieldReader σ} {bs tail named valued : Bytes} {name : String} (s : σ)
    (hskip : skipSpace bs = 0x22 :: tail) (hname : string care tail = .ok (name, named)) (hcolon : colon named = .ok valued) :
    field care read s bs = (read name s).bind fun readValue => readValue valued := by
  rw [field, hskip]
  change (string care tail >>= _) = _
  rw [hname]
  change (read name s >>= _) = _
  cases read name s with
  | error why => rfl
  | ok readValue =>
    change (colon named >>= _) = _
    rw [hcolon]
    rfl

/-- The text of the items of a list, at least one, up to the closing bracket. -/
inductive Listed (read : Bytes → Except Fault (α × Bytes)) : List α → Bytes → Bytes → Prop where
  | last {a : α} {bs after rest : Bytes} (h : read bs = .ok (a, after)) (hclose : skipSpace after = 0x5D :: rest) :
      Listed read [a] bs rest
  | more {a : α} {as : List α} {bs after tail rest : Bytes} (h : read bs = .ok (a, after)) (hcomma : skipSpace after = 0x2C :: tail)
      (hmore : Listed read as tail rest) : Listed read (a :: as) bs rest

theorem listed_of_parts {read : Bytes → Except Fault (α × Bytes)} {steps : Nat} {done done' : List α} {bs rest : Bytes}
    (h : parts 0x5D (item read) steps done bs = .ok (done', rest)) : ∃ as, done' = as.reverse ++ done ∧ Listed read as bs rest := by
  induction steps generalizing done bs with
  | zero => cases h
  | succ steps ih =>
    obtain ⟨_, _, after, heq, hitem, hmore⟩ := of_parts h
    cases heq
    obtain ⟨⟨a, _⟩, ha, heq⟩ := of_map_eq_ok hitem
    cases heq
    rcases hmore with ⟨tail, hcomma, hmore⟩ | ⟨-, hclose, rfl⟩
    · obtain ⟨as, rfl, has⟩ := ih hmore
      exact ⟨a :: as, by rw [List.reverse_cons, List.append_assoc]; rfl, .more ha hcomma has⟩
    · exact ⟨[a], rfl, .last ha hclose⟩

/-- A list has no items, and its closing bracket comes first, or it has some. -/
theorem of_items {read : Bytes → Except Fault (α × Bytes)} {bs rest : Bytes} {as : List α} (h : items read bs = .ok (as, rest)) :
    (skipSpace bs = 0x5D :: rest ∧ as = []) ∨ ((∀ tail, skipSpace bs ≠ 0x5D :: tail) ∧ Listed read as (skipSpace bs) rest) := by
  unfold items at h
  split at h
  · rename_i hskip
    cases h
    exact .inl ⟨hskip, rfl⟩
  · rename_i hskip
    rw [itemsOnto_eq] at h
    obtain ⟨⟨done, after⟩, hparts, heq⟩ := of_map_eq_ok h
    cases heq
    obtain ⟨as, rfl, has⟩ := listed_of_parts hparts
    refine .inr ⟨fun tail => hskip tail, ?_⟩
    rwa [List.append_nil, List.reverse_reverse]

theorem shrinks_item {read : Bytes → Except Fault (α × Bytes)} (hread : Shrinks read) (done : List α) :
    Shrinks (item read done) := by
  intro bs js rest h
  obtain ⟨⟨a, after⟩, hitem, heq⟩ := of_map_eq_ok h
  cases heq
  exact hread hitem

theorem shrinks_field {care : Care} {read : FieldReader σ} (hread : ∀ name s f, read name s = .ok f → Shrinks f) (s : σ) :
    Shrinks (field care read s) := by
  intro bs s' rest h
  obtain ⟨tail, name, named, readValue, valued, -, -, hvalue, -, hlength, h⟩ := of_field h
  exact Nat.le_trans (hread name s readValue hvalue h) hlength

theorem shrinks_items {read : Bytes → Except Fault (α × Bytes)} (hread : Shrinks read) : Shrinks (items read) := by
  intro bs js rest h
  unfold items at h
  split at h
  · rename_i heq
    cases h
    exact Nat.le_of_lt (length_of_skipSpace heq)
  · rw [itemsOnto_eq] at h
    obtain ⟨⟨done, after⟩, hparts, heq⟩ := of_map_eq_ok h
    cases heq
    exact Nat.le_trans (shrinks_parts (shrinks_item hread) hparts) (length_skipSpace_le bs)

theorem shrinks_fields {care : Care} {read : FieldReader σ} (hread : ∀ name s f, read name s = .ok f → Shrinks f) (start : σ) :
    Shrinks (fields care read start) := by
  intro bs s rest h
  unfold fields at h
  split at h
  · rename_i heq
    cases h
    exact Nat.le_of_lt (length_of_skipSpace heq)
  · rw [fieldsOnto_eq] at h
    exact Nat.le_trans (shrinks_parts (shrinks_field hread) h) (length_skipSpace_le bs)

theorem shrinks_keepField {read : Bytes → Except Fault (Json × Bytes)} (hread : Shrinks read) (name : String)
    (done : List (String × Json)) (f : Bytes → Except Fault (List (String × Json) × Bytes))
    (hf : keepField read name done = .ok f) : Shrinks f := by
  cases hf
  intro bs fs rest h
  obtain ⟨⟨j, after⟩, hvalue, heq⟩ := of_map_eq_ok h
  cases heq
  exact hread hvalue

/-- Reading a value leaves no more bytes than there were. -/
theorem shrinks_value (care : Care) (depth : Nat) : Shrinks (value care depth) := by
  induction depth with
  | zero =>
    intro bs j rest h
    cases readAs_of_value h with
    | flat hskip hflat => exact Nat.le_trans (of_flatFrom hflat).length_le (length_of_skipSpace hskip)
  | succ depth ih =>
    intro bs j rest h
    cases readAs_of_value h with
    | list hskip hitems => exact Nat.le_trans (shrinks_items ih hitems) (Nat.le_of_lt (length_of_skipSpace hskip))
    | object hskip hfields =>
      exact Nat.le_trans (shrinks_fields (shrinks_keepField ih) [] hfields) (Nat.le_of_lt (length_of_skipSpace hskip))
    | flat hskip hflat => exact Nat.le_trans (of_flatFrom hflat).length_le (length_of_skipSpace hskip)

/-! ## Readers that keep up -/

/-- A reader that keeps up with another one on each item keeps up with it on a list. -/
theorem items_keeps_up {read : Bytes → Except Fault (α × Bytes)} {read' : Bytes → Except Fault (β × Bytes)} {Q : α → β → Prop}
    {n : Nat} (hshrinks : Shrinks read)
    (hread : ∀ bs a rest, bs.length ≤ n → read bs = .ok (a, rest) → ∃ b, read' bs = .ok (b, rest) ∧ Q a b)
    {bs rest : Bytes} {as : List α} (hn : bs.length ≤ n) (h : items read bs = .ok (as, rest)) :
    ∃ bs', items read' bs = .ok (bs', rest) ∧ List.Forall₂ Q as bs' := by
  unfold items at h ⊢
  split at h
  · cases h
    exact ⟨[], rfl, .nil⟩
  · rw [itemsOnto_eq] at h
    obtain ⟨⟨done, after⟩, hparts, heq⟩ := of_map_eq_ok h
    cases heq
    have hitem (done : List α) (done' : List β) (bs : Bytes) (as : List α) (rest : Bytes) (hdone : List.Forall₂ Q done done')
        (hn : bs.length ≤ n) (h : item read done bs = .ok (as, rest)) :
        ∃ bs', item read' done' bs = .ok (bs', rest) ∧ List.Forall₂ Q as bs' := by
      obtain ⟨⟨a, after⟩, ha, heq⟩ := of_map_eq_ok h
      cases heq
      obtain ⟨b, hb, hQ⟩ := hread bs a after hn ha
      exact ⟨b :: done', by rw [item, hb]; rfl, .cons hQ hdone⟩
    obtain ⟨done', hparts', hdone⟩ :=
      parts_keeps_up (shrinks_item hshrinks) hitem .nil (Nat.le_trans (length_skipSpace_le bs) hn) hparts
    rw [itemsOnto_eq, hparts']
    exact ⟨done'.reverse, rfl, List.rel_reverse hdone⟩

section Fields

variable {care care' : Care} {read : FieldReader σ} {read' : FieldReader τ} {n : Nat}
  {start s : σ} {start' : τ} {bs rest : Bytes}

/-- A reader that keeps up with another one on each field keeps up with it on an object, if it does not fail on a field. -/
theorem fields_follows (R : σ → τ → Prop) (Failed : σ → Prop) (hshrinks : ∀ name s f, read name s = .ok f → Shrinks f)
    (hfield : ∀ s t bs s' rest, R s t → bs.length ≤ n → field care read s bs = .ok (s', rest) →
      (∃ t', field care' read' t bs = .ok (t', rest) ∧ R s' t') ∨ ((∃ why, field care' read' t bs = .error why) ∧ Failed s'))
    (hfailed : ∀ s bs s' rest, Failed s → field care read s bs = .ok (s', rest) → Failed s')
    (hR : R start start') (hn : bs.length ≤ n) (h : fields care read start bs = .ok (s, rest)) :
    (∃ t, fields care' read' start' bs = .ok (t, rest) ∧ R s t) ∨
      ((∃ why, fields care' read' start' bs = .error why) ∧ Failed s) := by
  unfold fields at h ⊢
  split at h
  · cases h
    exact .inl ⟨start', rfl, hR⟩
  · rw [fieldsOnto_eq] at h ⊢
    exact parts_follows R Failed (shrinks_field hshrinks) hfield hfailed hR (Nat.le_trans (length_skipSpace_le bs) hn) h

/-- A reader that keeps up with another one on each field, and fails on none, keeps up with it on an object. -/
theorem fields_keeps_up {R : σ → τ → Prop} (hshrinks : ∀ name s f, read name s = .ok f → Shrinks f)
    (hfield : ∀ s t bs s' rest, R s t → bs.length ≤ n → field care read s bs = .ok (s', rest) →
      ∃ t', field care' read' t bs = .ok (t', rest) ∧ R s' t')
    (hR : R start start') (hn : bs.length ≤ n) (h : fields care read start bs = .ok (s, rest)) :
    ∃ t, fields care' read' start' bs = .ok (t, rest) ∧ R s t :=
  (fields_follows R (fun _ => False) hshrinks (fun s t bs s' rest hR hn h => .inl (hfield s t bs s' rest hR hn h))
    (fun _ _ _ _ never _ => never) hR hn h).resolve_right (·.2)

end Fields

/-! ## Passing over a value -/

/-- A value that is read can be passed over, if as many lists and objects may be nested as there are bytes. -/
theorem value_grammar {care : Care} {depth m : Nat} {bs rest : Bytes} {j : Json} (h : value care depth bs = .ok (j, rest))
    (hm : bs.length ≤ m) : ∃ j', value .grammar m bs = .ok (j', rest) := by
  induction depth generalizing m bs rest j with
  | zero =>
    cases readAs_of_value h with
    | flat hskip hflat => exact (of_flatFrom hflat).passes.imp fun _ => value_of_flatFrom hskip
  | succ depth ih =>
    cases readAs_of_value h with
    | flat hskip hflat => exact (of_flatFrom hflat).passes.imp fun _ => value_of_flatFrom hskip
    | @list _ tail _ js hskip hitems =>
      have hlt := length_of_skipSpace hskip
      obtain ⟨m, rfl⟩ : ∃ k, m = k + 1 := ⟨m - 1, by omega⟩
      have hitem (bs : Bytes) (j : Json) (rest : Bytes) (hn : bs.length ≤ m) (hj : value care depth bs = .ok (j, rest)) :
          ∃ j', value .grammar m bs = .ok (j', rest) ∧ True := (ih hj hn).imp fun _ hj' => ⟨hj', trivial⟩
      obtain ⟨js', hjs', -⟩ := items_keeps_up (shrinks_value care depth) hitem (by omega) hitems
      rw [value_of_list hskip, hjs']
      exact ⟨.list js', rfl⟩
    | @object _ tail _ fs hskip hfields =>
      have hlt := length_of_skipSpace hskip
      obtain ⟨m, rfl⟩ : ∃ k, m = k + 1 := ⟨m - 1, by omega⟩
      have hfield (done done' : List (String × Json)) (bs : Bytes) (fs : List (String × Json)) (rest : Bytes) (_ : True)
          (hn : bs.length ≤ m) (h : field care (keepField (value care depth)) done bs = .ok (fs, rest)) :
          ∃ fs', field .grammar (keepField (value .grammar m)) done' bs = .ok (fs', rest) ∧ True := by
        obtain ⟨tail, name, named, _, valued, hskip, hname, ⟨⟩, hcolon, hlength, hvalue⟩ := of_field h
        obtain ⟨⟨j, after⟩, hj, heq⟩ := of_map_eq_ok hvalue
        cases heq
        obtain ⟨j', hj'⟩ := ih hj (Nat.le_trans hlength hn)
        refine ⟨putEntry "" j' done', ?_, trivial⟩
        rw [field_eq done' hskip (of_string hname).2 hcolon]
        change (value .grammar m valued).map _ = _
        rw [hj']
        rfl
      obtain ⟨fs', hfs', -⟩ : ∃ fs', fields .grammar (keepField (value .grammar m)) [] tail = .ok (fs', rest) ∧ True :=
        fields_keeps_up (shrinks_keepField (shrinks_value care depth)) hfield trivial (by omega) hfields
      rw [value_of_object hskip, hfs']
      exact ⟨.object fs', rfl⟩

/-- A value that is read can be passed over. -/
theorem skip_of_value {care : Care} {depth : Nat} {bs rest : Bytes} {j : Json} (h : value care depth bs = .ok (j, rest)) :
    skip bs = .ok ((), rest) := by
  obtain ⟨j', hj'⟩ := value_grammar h (Nat.le_refl _)
  rw [skip, hj']
  rfl

end FleetControl.Json
