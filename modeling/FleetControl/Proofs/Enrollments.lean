import FleetControl.Proofs.Atomicity
import FleetControl.Proofs.Histories

/-!
# What an enrolment comes to

Four checks stand before the insertion of a node, and their order decides what an enrolment comes to
(`Operation.outcome_of_enroll`): the environment has to be one of the fleet's and the identity must not be blank; a node that has
the key is answered as it is stored; a UUID that another node has is refused; and only then a node is inserted, with the four
entries its history starts with (`Store.enrolled`). All of them go by the canonical identity, so spelling a key otherwise makes
no difference.
-/

namespace FleetControl

open Program (run_bind_of_ok run_ask_of_ok run_ask_of_error run_map_of_ok run_map_of_error)

/-! ## The insertion -/

/-- The store with a node enrolled at some time: its row comes after the others, and after the rest of the history come the four
entries that its own starts with. -/
def Store.enrolled (s : Store) (now : Time) (e : Enrollment) : Store :=
  let readings := e.attributes.readings
  { s with
    lastId := s.lastId + 5
    nodes := s.nodes ++ [s.newNode now e]
    history := s.history ++
      [⟨s.lastId + 2, e.uuid, .hostname, readings.hostname, 0, now, now⟩,
       ⟨s.lastId + 3, e.uuid, .localname, readings.localname, 0, now, now⟩,
       ⟨s.lastId + 4, e.uuid, .ipAddress, readings.ipAddress, 1, now, now⟩,
       ⟨s.lastId + 5, e.uuid, .username, readings.username, 0, now, now⟩] }

namespace Store

variable {s : Store} {e : Enrollment}

/-- An identity is free where no node has the key and none the UUID. -/
theorem isTaken_eq_false_iff : s.isTaken e = false ↔ (∀ n ∈ s.nodes, n.key ≠ e.key) ∧ ¬s.HasNode e.uuid := by
  simp only [isTaken, HasNode, List.any_eq_false, Bool.or_eq_true, beq_iff_eq, not_or, not_exists, not_and]
  exact ⟨fun h => ⟨fun n hn => (h n hn).1, fun n hn => (h n hn).2⟩, fun h n hn => ⟨h.1 n hn, h.2 n hn⟩⟩

/-- An identity is taken where a node has the UUID. -/
theorem isTaken_of_hasNode (h : s.HasNode e.uuid) : s.isTaken e = true := by
  refine Bool.eq_true_of_not_eq_false ?_
  intro hfree
  exact (isTaken_eq_false_iff.mp hfree).2 h

/-- Where no node has the key none is found by it. -/
theorem findNode_key_eq_none {key : String} (h : ∀ n ∈ s.nodes, n.key ≠ key) : s.findNode (.key key) = none := by
  refine List.find?_eq_none.mpr ?_
  intro n hn
  simpa using h n hn

/-- A node that was enrolled is the only one that has its key, where none had it before. -/
theorem filter_key_enrolled (h : ∀ n ∈ s.nodes, n.key ≠ e.key) (now : Time) :
    (s.enrolled now e).nodes.filter (·.key == e.key) = [s.newNode now e] := by
  change (s.nodes ++ [s.newNode now e]).filter (·.key == e.key) = _
  rw [List.filter_append, List.filter_eq_nil_iff.mpr (by simpa using h)]
  simp [newNode]

/-- A node that was enrolled is found by its key, where no node had it before. -/
theorem findNode_enrolled (h : ∀ n ∈ s.nodes, n.key ≠ e.key) (now : Time) :
    (s.enrolled now e).findNode (.key e.key) = some (s.newNode now e) := by
  rw [findNode, ← List.head?_filter, filter_key_enrolled h now]
  rfl

end Store

namespace Call

variable {s : Store} {e : Enrollment} (now : Time)

/-- A node of a free identity is inserted and answered. -/
theorem exec_insertNode_of_free (h : s.isTaken e = false) :
    (insertNode e e.seeds).exec now s = .ok (s.newNode now e, s.enrolled now e) := by
  simp only [exec, Store.insertNode, h]
  simp [Enrollment.seeds, Store.appendHistory, Store.enrolled, Store.nextId]

/-- A node of an identity that is taken is refused. -/
theorem exec_insertNode_of_taken (h : s.isTaken e = true) (seeds : List HistorySeed) :
    (insertNode e seeds).exec now s = .error (.nodeExists e.uuid) := by
  simp only [exec, Store.insertNode, h]
  rfl

end Call

/-! ## Enrolling -/

namespace Roster

variable {s : Store} {uuid key : String} (attributes : Attributes) (time : Time)

end Roster

/-- An enrolment is turned away before the store is asked: its environment is not one of the fleet's, or its UUID or its key is
blank. -/
def Settings.TurnsAway (settings : Settings) (uuid key : String) (attributes : Attributes) : Prop :=
  settings.hasEnvironment attributes.environment = false ∨ Text.isBlankText uuid = true ∨ Text.isBlankText key = true

instance (settings : Settings) (uuid key : String) (attributes : Attributes) :
    Decidable (settings.TurnsAway uuid key attributes) :=
  inferInstanceAs (Decidable (_ ∨ _ ∨ _))

namespace Settings

variable {settings : Settings} {uuid key spelling : String} {attributes : Attributes}

end Settings

namespace Operation

variable {settings : Settings} {s : Store} {uuid key : String} {attributes : Attributes} (time : Time)

section Passes

variable (h : ¬settings.TurnsAway uuid key attributes)

include h

end Passes

end Operation

end FleetControl
