import FleetControl.Proofs.Readings

/-!
# Revisions

What an observation changes of a node is the least that makes the node agree with it: an attribute is set just where something else
was reported than is stored, and the history gets one write for each logged attribute that is set and one for a reported address.
Once changed, the node agrees with the observation, so the same observation again changes nothing and counts the address once more;
and two observations one after the other leave the node as a single one does that reports what either reported, the later first
(`Revision.settles_and_composes`).
-/

namespace FleetControl

/-- What an observation and an earlier one report together: of each attribute what the later one reported, or else the earlier. -/
def Observation.over (later earlier : Observation) : Observation :=
  Readings.zipWith (fun new old => if new = "" then old else new) later earlier

namespace Reading

variable {α β γ : Type}

/-- Readings that agree in every slot are the same. -/
theorem ext_of {r s : Readings α} (h : ∀ reading : Reading, reading.of r = reading.of s) : r = s := by
  obtain ⟨_, _, _, _, _, _, _, _⟩ := r
  obtain ⟨_, _, _, _, _, _, _, _⟩ := s
  simp only [Readings.mk.injEq]
  exact ⟨h .hostname, h .localname, h .ipAddress, h .username, h .agentUser, h .agentVersion, h .configHash, h .daemonHash⟩

theorem of_const (reading : Reading) (a : α) : reading.of (Readings.const a) = a := by
  cases reading <;> rfl

/-- An observation calls for setting an attribute to what the attribute alone calls for. -/
theorem of_updates_plan (reading : Reading) (stored : Readings String) (observed : Observation) :
    reading.of (Revision.plan stored observed).updates = changed (reading.of stored) (reading.of observed) :=
  reading.of_zipWith changed stored observed

end Reading

/-! ## One attribute -/

variable {stored observed value : String}

/-- The value to store is what was reported, where that is something else than what is stored. -/
theorem changed_eq_some_iff :
    changed stored observed = some value ↔ (observed ≠ "" ∧ observed ≠ stored) ∧ value = observed := by
  unfold changed
  split
  · rename_i hdiffers
    rw [and_iff_right hdiffers, Option.some.injEq, eq_comm]
  · rename_i hsame
    exact iff_of_false nofun fun h => hsame h.1

/-- What is stored after an observation does not differ from it. -/
theorem changed_getD_changed : changed ((changed stored observed).getD stored) observed = none := by
  rw [getD_changed]
  refine if_neg ?_
  rintro ⟨hgiven, hdiffers⟩
  rw [if_neg hgiven] at hdiffers
  exact hdiffers rfl

/-- A logged attribute is appended to its history where it is set. -/
theorem logged_changed (kind : HistoryKind) :
    logged kind (changed stored observed) = if observed ≠ "" ∧ observed ≠ stored then [.append kind observed 0] else [] := by
  unfold changed
  split <;> rfl

/-- A reported address is written to the history once: appended where it differs from what is stored, and counted where not. -/
theorem sighted_changed :
    sighted (changed stored observed) observed =
      if observed = "" then []
      else if observed = stored then [.increment .ipAddress observed] else [.append .ipAddress observed 1] := by
  unfold changed
  by_cases hgiven : observed = ""
  · rw [if_neg fun h => h.1 hgiven, if_pos hgiven]
    exact if_pos hgiven
  · rw [if_neg hgiven]
    by_cases hsame : observed = stored
    · rw [if_neg fun h => h.2 hsame, if_pos hsame]
      exact if_neg hgiven
    · rw [if_pos ⟨hgiven, hsame⟩, if_neg hsame]
      rfl

/-! ## The whole revision -/

namespace Revision

variable (stored : Readings String) (observed : Observation)

/-- The writes of a revision: of each logged attribute one where it is set, and then one where an address was reported. -/
theorem history_plan :
    (plan stored observed).history =
      ([.username, .hostname, .localname].filter fun kind : HistoryKind =>
            kind.of observed ≠ "" ∧ kind.of observed ≠ kind.of stored).map (fun kind => .append kind (kind.of observed) 0) ++
        (if observed.ipAddress = "" then []
        else if observed.ipAddress = stored.ipAddress then [.increment .ipAddress observed.ipAddress]
        else [.append .ipAddress observed.ipAddress 1]) := by
  have hcons (kind : HistoryKind) (kinds : List HistoryKind) :
      ((kind :: kinds).filter fun kind => kind.of observed ≠ "" ∧ kind.of observed ≠ kind.of stored).map
          (fun kind => HistoryChange.append kind (kind.of observed) 0) =
        logged kind (changed (kind.of stored) (kind.of observed)) ++
          (kinds.filter fun kind => kind.of observed ≠ "" ∧ kind.of observed ≠ kind.of stored).map
            (fun kind => .append kind (kind.of observed) 0) := by
    rw [logged_changed, List.filter_cons]
    simp only [decide_eq_true_eq]
    split <;> rfl
  rw [hcons, hcons, hcons, ← sighted_changed, List.filter_nil, List.map_nil, List.append_nil]
  simp only [← List.append_assoc]
  rfl

/-- After a revision the same observation sets nothing, and calls for no write but one more sighting of its address. -/
theorem plan_apply_plan :
    plan ((plan stored observed).apply stored) observed =
      ⟨.const none, if observed.ipAddress = "" then [] else [.increment .ipAddress observed.ipAddress]⟩ := by
  have hupdates : Readings.zipWith changed ((plan stored observed).apply stored) observed = .const none := by
    refine Reading.ext_of fun reading => ?_
    rw [apply, reading.of_zipWith, reading.of_zipWith, reading.of_updates_plan, changed_getD_changed, reading.of_const]
  simp only [plan] at hupdates ⊢
  rw [hupdates]
  rfl

/-- Two observations one after the other come to the same as a single one of what either reported. -/
theorem apply_plan_apply_plan (later : Observation) :
    (plan ((plan stored observed).apply stored) later).apply ((plan stored observed).apply stored) =
      (plan stored (later.over observed)).apply stored := by
  refine Reading.ext_of fun reading => ?_
  rw [reading.of_apply_plan rfl, reading.of_apply_plan rfl, reading.of_apply_plan rfl, Observation.over, reading.of_zipWith]
  by_cases hlater : reading.of later = ""
  · rw [if_pos hlater, if_pos hlater]
  · rw [if_neg hlater, if_neg hlater, if_neg hlater]

/-- What an observation changes: attributes with another value are set, and logged, and an address counts. The same observation
again only counts the address once more, and two observations leave a node as one with the values of the second over the first
would. -/
theorem settles_and_composes (n : Node) (o : Observation) (now : Time) :
    let u := plan n.attributes.readings o
    let n' := n.revised now u
    (∀ (reading : Reading) (value : String),
        reading.of u.updates = some value ↔
          (reading.of o ≠ "" ∧ reading.of o ≠ reading.of n.attributes.readings) ∧ value = reading.of o) ∧
      u.history =
        ([.username, .hostname, .localname].filter fun kind : HistoryKind =>
            kind.of o ≠ "" ∧ kind.of o ≠ kind.of n.attributes.readings).map (fun kind => .append kind (kind.of o) 0) ++
          (if o.ipAddress = "" then []
          else if o.ipAddress = n.attributes.readings.ipAddress then [.increment .ipAddress o.ipAddress]
          else [.append .ipAddress o.ipAddress 1]) ∧
      plan n'.attributes.readings o =
        ⟨.const none, if o.ipAddress = "" then [] else [.increment .ipAddress o.ipAddress]⟩ ∧
      ∀ (second : Observation) (later : Time),
        n'.revised later (plan n'.attributes.readings second) =
          n.revised later (plan n.attributes.readings (second.over o)) := by
  intro u n'
  refine ⟨?_, history_plan n.attributes.readings o, plan_apply_plan n.attributes.readings o, ?_⟩
  · intro reading value
    rw [reading.of_updates_plan]
    exact changed_eq_some_iff
  · intro second later
    have hreadings := apply_plan_apply_plan n.attributes.readings o second
    exact congrArg
      (fun r => { n with attributes := { n.attributes with readings := r }, updatedAt := later }) hreadings

end Revision

end FleetControl
