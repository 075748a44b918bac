import FleetControl.Proofs.Histories

/-!
# What is stored of a node

A node is stored as it was enrolled, but for what it reported since: of each attribute that it keeps reporting the last value that was
not empty is stored, or the one it enrolled with, and the rest stays. This is carried from the enrolment on by every call, whatever
commands are carried out and in whatever turns (`Session.Reached.readings`); nothing but an observation that is applied to the node
changes anything of it.
-/

namespace FleetControl

/-! ## One attribute at a time -/

/-- An attribute that a node keeps reporting. -/
inductive Reading where
  | hostname
  | localname
  | ipAddress
  | username
  | agentUser
  | agentVersion
  | configHash
  | daemonHash
  deriving DecidableEq

namespace Reading

variable {α β γ : Type} (reading : Reading)

/-- The slot of the attribute. -/
def of (r : Readings α) : α :=
  match reading with
  | .hostname => r.hostname
  | .localname => r.localname
  | .ipAddress => r.ipAddress
  | .username => r.username
  | .agentUser => r.agentUser
  | .agentVersion => r.agentVersion
  | .configHash => r.configHash
  | .daemonHash => r.daemonHash

theorem of_zipWith (f : α → β → γ) (r : Readings α) (s : Readings β) :
    reading.of (Readings.zipWith f r s) = f (reading.of r) (reading.of s) := by
  cases reading <;> rfl

/-- What is stored of the attribute after an observation is what was observed, if anything was. The observation is compared with what
is stored of one row and applied to another that agrees with it. -/
theorem of_apply_plan {stored other : Readings String} (h : reading.of other = reading.of stored) (observed : Observation) :
    reading.of ((Revision.plan stored observed).apply other) =
      if reading.of observed = "" then reading.of stored else reading.of observed := by
  have hupdates : reading.of (Revision.plan stored observed).updates = changed (reading.of stored) (reading.of observed) :=
    reading.of_zipWith changed stored observed
  rw [Revision.apply, of_zipWith, hupdates, h, getD_changed]

/-- The last value of the attribute that was observed and is not empty, or the one at the beginning if there is none. -/
def last (first : Readings String) (observed : List Observation) : String :=
  ((observed.map reading.of).filter (· ≠ "")).getLast?.getD (reading.of first)

theorem last_append (first : Readings String) (observed : List Observation) (o : Observation) :
    reading.last first (observed ++ [o]) = if reading.of o = "" then reading.last first observed else reading.of o := by
  unfold last
  rw [List.map_append, List.map_singleton, List.filter_append]
  by_cases hempty : reading.of o = ""
  · rw [if_pos hempty, List.filter_cons_of_neg (by simpa using hempty), List.filter_nil, List.append_nil]
  · rw [if_neg hempty, List.filter_cons_of_pos (by simpa using hempty), List.filter_nil, List.getLast?_concat, Option.getD_some]

end Reading

/-- The node of a UUID is still the one that was inserted, and what is stored of it is the last that it reported of each
attribute. -/
def Store.Retains (s : Store) (inserted : Node) (observed : List Observation) : Prop :=
  ∀ n ∈ s.nodes, n.uuid = inserted.uuid →
    inserted.Same n ∧ ∀ reading : Reading, reading.of n.attributes.readings = reading.last inserted.attributes.readings observed

namespace Store.Retains

variable {s : Store} {inserted : Node} {observed : List Observation} (now : Time)

/-- A node that is enrolled is as it is inserted. -/
theorem enrol {e : Enrollment} (hfree : s.isTaken e = false) (seeds : List HistorySeed) :
    ((Call.insertNode e seeds).after now s).Retains (s.newNode now e) [] := by
  intro n hn huuid
  rw [Call.eq_newNode_of_mem_after now hfree hn huuid]
  exact ⟨.refl _, fun _ => rfl⟩

/-- An observation that is applied to the node is stored. -/
theorem observe (h : s.Retains inserted observed) {n : Node} (hfind : s.nodes.find? (·.uuid == inserted.uuid) = some n)
    (o : Observation) : ((Call.applyObservation inserted.uuid o).after now s).Retains inserted (observed ++ [o]) := by
  obtain ⟨hn, huuid⟩ := Store.of_find?_eq_some hfind
  obtain ⟨-, hcurrent⟩ := h n hn huuid
  obtain ⟨_, _, hrevise⟩ := Call.after_applyObservation s now inserted.uuid o
  rw [hrevise, Store.revision, hfind]
  intro m' hm' huuid'
  obtain ⟨m, hm, rfl⟩ := List.mem_map.mp hm'
  by_cases hmu : m.uuid = inserted.uuid
  · obtain ⟨hsame, hreadings⟩ := h m hm hmu
    rw [if_pos hmu]
    refine ⟨⟨hsame.id, hsame.key, hsame.uuid, ?_, hsame.createdAt⟩, ?_⟩
    · exact congrArg
        (fun a : Attributes => { a with readings := (Revision.plan n.attributes.readings o).apply m.attributes.readings })
        hsame.attributes
    · intro reading
      rw [reading.last_append, ← hcurrent reading]
      exact reading.of_apply_plan ((hreadings reading).trans (hcurrent reading).symm) o
  · rw [if_neg hmu] at huuid'
    exact absurd huuid' hmu

/-- Whatever is done to other nodes, and whatever is not done to a history, leaves what is stored of the node. -/
theorem leave (h : s.Retains inserted observed) {c : Call} (hc : c.writesHistoryOf ≠ some inserted.uuid) :
    (c.after now s).Retains inserted observed := by
  intro n hn huuid
  obtain ⟨m, hm, hsame, hreadings⟩ := Call.same_after now hc hn huuid
  obtain ⟨hinserted, hlast⟩ := h m hm (hsame.uuid ▸ huuid)
  rw [← hreadings]
  exact ⟨hinserted.trans hsame, hlast⟩

end Store.Retains

end FleetControl
