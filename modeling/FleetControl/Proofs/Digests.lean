import FleetControl.Proofs.Tally
import Mathlib.Data.List.Destutter
import Mathlib.Data.List.Induction
import Mathlib.Data.List.SplitBy

/-!
# Digests of sequences

What is to be told of the values that an attribute of a node took, one after another (`HistoryKind.digest`): of an address how
often it was seen in a row, of other attributes every change. One more value changes the digest at its end alone: it adds an entry,
or counts on the last, or says nothing new.
-/

namespace FleetControl

/-! ## Members without repetition, and runs -/

section Sequences

variable {α : Type} [DecidableEq α] {l : List α} {v : α}

/-- One more member is dropped if it is equal to the last, and kept otherwise. -/
theorem destutter_append_singleton (h : l.getLast? = some v) (x : α) :
    (l ++ [x]).destutter (· ≠ ·) = if x = v then l.destutter (· ≠ ·) else l.destutter (· ≠ ·) ++ [x] := by
  cases l with
  | nil => cases h
  | cons a l =>
    rw [List.cons_append, List.destutter_cons', List.destutter_cons']
    induction l generalizing a with
    | nil =>
      obtain rfl : a = v := by simpa using h
      rw [List.nil_append, List.destutter'_singleton, List.destutter'_nil]
      by_cases hx : x = a
      · rw [if_neg (not_not.mpr hx.symm), if_pos hx]
      · rw [if_pos (Ne.symm hx), if_neg hx, List.singleton_append]
    | cons b l ih =>
      rw [List.getLast?_cons_cons] at h
      rw [List.cons_append]
      by_cases hab : a ≠ b
      · rw [List.destutter'_cons_pos _ hab, List.destutter'_cons_pos _ hab, ih b h]
        split <;> rfl
      · obtain rfl := not_not.mp hab
        rw [List.destutter'_cons_neg _ hab, List.destutter'_cons_neg _ hab, ih a h]

/-- A list ends in a run of its last member, which the rest does not end in. -/
theorem exists_last_run (h : l.getLast? = some v) :
    ∃ rest n, l = rest ++ List.replicate (n + 1) v ∧ rest.getLast? ≠ some v := by
  induction l using List.reverseRecOn with
  | nil => cases h
  | append_singleton l x ih =>
    obtain rfl : x = v := by simpa using h
    by_cases hl : l.getLast? = some x
    · obtain ⟨rest, n, rfl, hrest⟩ := ih hl
      exact ⟨rest, n + 1, by rw [List.append_assoc, ← List.replicate_succ'], hrest⟩
    · exact ⟨l, 0, rfl, hl⟩

/-- A run that a list does not end in already is one more run after it. -/
theorem splitBy_append_replicate (h : l.getLast? ≠ some v) (n : Nat) :
    (l ++ List.replicate (n + 1) v).splitBy (· == ·) = l.splitBy (· == ·) ++ [List.replicate (n + 1) v] := by
  have hdiffers : ∀ x ∈ l.getLast?, (x == v) = false := by
    intro x hx
    refine beq_eq_false_iff_ne.mpr ?_
    rintro rfl
    exact h hx
  have hrun : (List.replicate (n + 1) v).splitBy (· == ·) = [List.replicate (n + 1) v] :=
    List.splitBy_of_isChain (List.cons_ne_nil v _) (List.isChain_replicate_of_rel _ (beq_self_eq_true v))
  rw [List.replicate_succ] at hrun ⊢
  rw [List.splitBy_append_cons _ hdiffers, hrun]

end Sequences

namespace HistoryKind

variable (kind : HistoryKind)

/-- What a history tells of the values that an attribute took, as values and counts: of addresses the runs and their lengths, of
other attributes the values without those equal to the one before, each with the count zero. -/
def digest (values : List String) : List (String × Int) :=
  match kind with
  | .ipAddress => (values.splitBy (· == ·)).map fun run => (run.headD "", run.length)
  | .hostname | .localname | .username => (values.destutter (· ≠ ·)).map fun value => (value, 0)

/-- The count that an entry starts with. -/
def firstCount : Int :=
  match kind with
  | .ipAddress => 1
  | .hostname | .localname | .username => 0

/-- The digest of one value. -/
theorem digest_singleton (v : String) : kind.digest [v] = [(v, kind.firstCount)] := by
  cases kind <;> rfl

variable {values : List String} {v : String}

/-- Another value is one more entry. -/
theorem digest_append_of_ne (h : values.getLast? = some v) {x : String} (hx : x ≠ v) :
    kind.digest (values ++ [x]) = kind.digest values ++ [(x, kind.firstCount)] := by
  cases kind with
  | ipAddress =>
    have hlast : values.getLast? ≠ some x := by
      rw [h]
      exact fun heq => hx (Option.some.inj heq).symm
    have hsplit := splitBy_append_replicate hlast 0
    simp only [digest, firstCount]
    rw [List.replicate_one] at hsplit
    rw [hsplit, List.map_append]
    rfl
  | hostname | localname | username =>
    simp only [digest, firstCount, destutter_append_singleton h, if_neg hx, List.map_append, List.map_cons, List.map_nil]

/-- The same value again is nothing to tell of an attribute whose changes are logged. -/
theorem digest_append_self (hkind : kind ≠ .ipAddress) (h : values.getLast? = some v) :
    kind.digest (values ++ [v]) = kind.digest values := by
  cases kind with
  | ipAddress => exact absurd rfl hkind
  | hostname | localname | username => simp only [digest, destutter_append_singleton h, if_true]

/-- The same address again is one more sighting of it. -/
theorem digest_ipAddress_append_self (h : values.getLast? = some v) :
    ∃ rest count, digest .ipAddress values = rest ++ [(v, count)] ∧
      digest .ipAddress (values ++ [v]) = rest ++ [(v, count + 1)] := by
  obtain ⟨l, n, rfl, hl⟩ := exists_last_run h
  refine ⟨(l.splitBy (· == ·)).map fun run => (run.headD "", run.length), (n + 1 : Nat), ?_, ?_⟩
  · simp only [digest, splitBy_append_replicate hl n, List.map_append, List.map_cons, List.map_nil, List.length_replicate]
    rfl
  · rw [List.append_assoc, ← List.replicate_succ']
    simp only [digest, splitBy_append_replicate hl (n + 1), List.map_append, List.map_cons, List.map_nil,
      List.length_replicate]
    rfl

/-- The counts of a digest are held as they are in 32 bits, while the runs of addresses are shorter than the half of them. -/
theorem map_bmod_digest (h : kind = .ipAddress → ∀ run ∈ values.splitBy (· == ·), run.length < 2 ^ 31) :
    ((kind.digest values).map fun p => (p.1, Int.bmod p.2 4294967296)) = kind.digest values := by
  have hheld : ∀ p ∈ kind.digest values, (p.1, Int.bmod p.2 4294967296) = p := by
    intro p hp
    cases kind with
    | ipAddress =>
      obtain ⟨run, hrun, rfl⟩ := List.mem_map.mp hp
      rw [Width.bmod_eq_self (h rfl run hrun)]
    | hostname | localname | username =>
      obtain ⟨value, -, rfl⟩ := List.mem_map.mp hp
      rfl
  rw [List.map_congr_left hheld, List.map_id']

end HistoryKind

end FleetControl
