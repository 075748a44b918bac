import FleetControl.Proofs.Contacts

/-!
# Rows that are returned

An enrolment and a report of an address return the row of the node as it is stored when they end, so whoever looks the node up by
the same key finds what was returned. A report of what a node observes notes its status after the row was read that it returns. The
stored row is then the one returned with the status noted (`Operation.returned_row_of_reachable`): the two are the same only if
the same time was noted before, and the clock did not go on in between.
-/

namespace FleetControl

open Program (runBy_bind_of_ok runBy_ask_of_ok runBy_ask_of_error)

variable {settings : Settings} {clock : Nat → Time} {taken taken' : Nat} {s t : Store} {n row : Node} {key : String}

namespace Roster

/-- A look-up by a key is answered with the row that is found by it, whatever the clock shows. -/
theorem runBy_byKey_of_findNode (h : s.findNode (.key (canonicalKey key)) = some n) :
    (byKey key).runBy clock taken s = (.ok n, taken, s) := by
  have hask : (Program.ask (.findNode (.key (canonicalKey key)))).runBy clock taken s = _ := runBy_ask_of_ok rfl
  unfold byKey
  rw [runBy_bind_of_ok hask, h]
  rfl

/-- A program that looks a node up by its key and has a result has it for a node of that key. -/
theorem of_runBy_byKey_bind_eq_ok {α : Type} {f : Node → Program α} {a : α}
    (h : (byKey key >>= f).runBy clock taken s = (.ok a, taken', t)) :
    ∃ n ∈ s.nodes, n.key = canonicalKey key ∧ (f n).runBy clock taken s = (.ok a, taken', t) := by
  have hlookup : (∃ n ∈ s.nodes, n.key = canonicalKey key ∧ (byKey key >>= f).runBy clock taken s = (f n).runBy clock taken s) ∨
      ∃ why, (byKey key >>= f).runBy clock taken s = (.error why, taken, s) := runBy_byKey_bind key f
  rw [h] at hlookup
  rcases hlookup with ⟨n, hn, hkey, hrun⟩ | ⟨why, hrun⟩
  · exact ⟨n, hn, hkey, hrun.symm⟩
  · cases hrun

/-- An observation of a node that is applied is applied with the next reading, and returns the row that is left. -/
theorem of_runBy_observe_eq_ok (h : s.Sound) (hn : n ∈ s.nodes) {observed : Observation}
    (hrun : (observe n.uuid observed).runBy clock taken s = (.ok row, taken', t)) :
    taken' = taken + 1 ∧ n.Heard row none (clock taken) ∧ t.Sound ∧ t.nodes = s.nodes.map fun m => if m = n then row else m := by
  obtain ⟨row', t', hobserve, hafter⟩ := @runBy_observe clock taken s n h hn observed
  rw [hobserve] at hrun
  cases hrun
  exact ⟨rfl, hafter⟩

/-- The row that an enrolment returns is found by its key afterwards. -/
theorem findNode_of_runBy_enroll_eq_ok {uuid : String} {attributes : Attributes}
    (h : (enroll uuid key attributes).runBy clock taken s = (.ok row, taken', t)) :
    t.findNode (.key (canonicalKey key)) = some row := by
  have hask : (Program.ask (.findNode (.key (canonicalKey key)))).runBy clock taken s = _ := runBy_ask_of_ok rfl
  unfold enroll at h
  split at h
  · cases h
  · rw [runBy_bind_of_ok hask] at h
    cases hfound : s.findNode (.key (canonicalKey key)) with
    | some n =>
      rw [hfound] at h
      cases h
      exact hfound
    | none =>
      rw [hfound] at h
      dsimp only at h
      cases htaken : s.isTaken (.of uuid key attributes) with
      | true =>
        rw [runBy_ask_of_error (Call.exec_insertNode_of_taken _ htaken _)] at h
        cases h
      | false =>
        rw [runBy_ask_of_ok (Call.exec_insertNode_of_free _ htaken)] at h
        obtain ⟨hrow, hrest⟩ := Prod.mk.inj h
        rw [← Except.ok.inj hrow, ← (Prod.mk.inj hrest).2]
        exact Store.findNode_enrolled (Store.isTaken_eq_false_iff.mp htaken).1 (clock taken)

end Roster

/-- After a change of the row of a node, the changed row is the one that is found by its key. -/
theorem Store.Sound.findNode_key_of_map (ht : t.Sound) (hn : n ∈ s.nodes) (hkey : n.key = canonicalKey key) (hrow : row.key = n.key)
    (hnodes : t.nodes = s.nodes.map fun m => if m = n then row else m) : t.findNode (.key (canonicalKey key)) = some row := by
  refine ht.findNode_key ?_ (hrow.trans hkey)
  rw [hnodes]
  exact List.mem_map.mpr ⟨n, hn, if_pos rfl⟩

namespace Fleet

/-- A report of an address returns the row that is found by the key afterwards. -/
theorem findNode_of_runBy_updateAddress_eq_ok (h : s.Sound) {ip : String}
    (hrun : (updateAddress key ip).runBy clock taken s = (.ok row, taken', t)) : t.findNode (.key (canonicalKey key)) = some row := by
  obtain ⟨n, hn, hkey, hobserve⟩ := Roster.of_runBy_byKey_bind_eq_ok hrun
  obtain ⟨-, hheard, hsound, hnodes⟩ := Roster.of_runBy_observe_eq_ok h hn hobserve
  exact hsound.findNode_key_of_map hn hkey hheard.same.key hnodes

/-- A report of what a node observes returns the row with the observation applied, and found by the key afterwards is this row with
the status noted, at the next reading of the clock. -/
theorem of_runBy_updateMetadata_eq_ok (h : s.Sound) (ht : t.Sound) {observed : Observation}
    (hrun : (updateMetadata key observed).runBy clock taken s = (.ok row, taken', t)) :
    ∃ n ∈ s.nodes, n.key = canonicalKey key ∧ n.Heard row none (clock taken) ∧
      t.findNode (.key (canonicalKey key)) = some (row.touched .status (clock (taken + 1))) := by
  obtain ⟨n, hn, hkey, hrest⟩ := Roster.of_runBy_byKey_bind_eq_ok hrun
  obtain ⟨row', taken₁, s₁, hobserve, hreturn⟩ := Program.of_runBy_bind_eq_ok hrest
  obtain ⟨rfl, hheard, hsound, hnodes⟩ := Roster.of_runBy_observe_eq_ok h hn hobserve
  have hrow : row' ∈ s₁.nodes := by
    rw [hnodes]
    exact List.mem_map.mpr ⟨n, hn, if_pos rfl⟩
  obtain ⟨s₂, hnote, hnodes'⟩ := @Roster.runBy_noteEvent clock (taken + 1) s₁ s₁ row' hsound hrow rfl .status
  rw [runBy_bind_of_ok hnote] at hreturn
  cases hreturn
  exact ⟨n, hn, hkey, hheard, ht.findNode_key_of_map hrow (hheard.same.key.trans hkey) rfl hnodes'⟩

end Fleet

/-- A row is left by an event just where that event was noted on it at the same time as its last change. -/
theorem Node.eq_touched_status_iff (row : Node) (time : Time) :
    row = row.touched .status time ↔ row.lastSeen.status = some time ∧ row.updatedAt = time := by
  constructor
  · intro h
    rw [h]
    exact ⟨rfl, rfl⟩
  · rintro ⟨hstatus, rfl⟩
    rw [touched, LastSeen.set, ← hstatus]

/-- What is found by the key of an operation that returned a row: that row, or after a report of what the node observes this row with
the status noted. -/
theorem Operation.findNode_of_runBy_eq_ok_node (hs : Reachable settings s) {op : Operation} (hop : op.key? = some key)
    (h : (op.program settings).runBy clock taken s = (.ok (.node row), taken', t)) :
    (t.findNode (.key (canonicalKey key)) = some row ∧ ∀ observed, op ≠ .updateMetadata key observed) ∨
      (∃ observed, op = .updateMetadata key observed) ∧ ∃ n ∈ s.nodes, n.key = canonicalKey key ∧
        n.Heard row none (clock taken) ∧ t.findNode (.key (canonicalKey key)) = some (row.touched .status (clock (taken + 1))) := by
  have hsound : s.Sound := .of_reachable hs
  have hsound' : t.Sound := by
    have ht := hs.runBy op clock taken
    rw [h] at ht
    exact .of_reachable ht
  cases op with
  | enroll uuid key' attributes =>
    cases hop
    obtain ⟨_, hrun, ⟨⟩⟩ := Program.of_runBy_map_eq_ok h
    unfold Fleet.enroll at hrun
    split at hrun
    · exact .inl ⟨Roster.findNode_of_runBy_enroll_eq_ok hrun, nofun⟩
    · cases hrun
  | updateMetadata key' observed =>
    cases hop
    obtain ⟨_, hrun, ⟨⟩⟩ := Program.of_runBy_map_eq_ok h
    exact .inr ⟨⟨observed, rfl⟩, Fleet.of_runBy_updateMetadata_eq_ok hsound hsound' hrun⟩
  | updateAddress key' ip =>
    cases hop
    obtain ⟨_, hrun, ⟨⟩⟩ := Program.of_runBy_map_eq_ok h
    exact .inl ⟨Fleet.findNode_of_runBy_updateAddress_eq_ok hsound hrun, nofun⟩
  | poll | submitResult | submitResults =>
    obtain ⟨_, -, ⟨⟩⟩ := Program.of_runBy_map_eq_ok h
  | _ => cases hop

/-- The row that an operation of a node returns is the one that a look-up finds afterwards, but after a report of what the node
observes it lacks the status that is noted at the next reading, unless this was noted already. -/
theorem Operation.returned_row_of_reachable (hs : Reachable settings s) {op : Operation} (hop : op.key? = some key)
    (h : (op.program settings).runBy clock taken s = (.ok (.node row), taken', t)) :
    ∃ stored, (∀ (later : Nat → Time) (read : Nat), (Roster.byKey key).runBy later read t = (.ok stored, read, t)) ∧
      ((∀ observed, op ≠ .updateMetadata key observed) → row = stored) ∧
      ∀ observed, op = .updateMetadata key observed →
        ∃ n ∈ s.nodes, n.key = canonicalKey key ∧ stored = row.touched .status (clock (taken + 1)) ∧
          (row = stored ↔ n.lastSeen.status = some (clock (taken + 1)) ∧ clock taken = clock (taken + 1)) := by
  rcases findNode_of_runBy_eq_ok_node hs hop h with ⟨hfound, hother⟩ | ⟨⟨observed, heq⟩, n, hn, hkey, hheard, hfound⟩
  · exact ⟨row, fun later read => Roster.runBy_byKey_of_findNode hfound, fun _ => rfl,
      fun observed heq => absurd heq (hother observed)⟩
  · refine ⟨_, fun later read => Roster.runBy_byKey_of_findNode hfound, fun hother => absurd heq (hother observed),
      fun _ _ => ⟨n, hn, hkey, rfl, ?_⟩⟩
    have hlastSeen : row.lastSeen = n.lastSeen := hheard.lastSeen
    rw [Node.eq_touched_status_iff, hlastSeen, hheard.updatedAt]

/-- A node whose status was noted reports a hostname, under another spelling of its key and by a clock that goes on. The row that is
found afterwards is the one returned, but that it says when this status was noted. -/
theorem Operation.returned_row_of_second_report :
    let settings : Settings := .embedded ["prod"]
    let clock : Nat → Time := fun i => 10 * i
    let s := replay settings .empty [(1, .enroll "a-1" "key" { Attributes.blank with environment := "prod" }),
      (2, .updateMetadata "key" { Observation.none with hostname := "alpha" })]
    let observed : Observation := { Observation.none with hostname := "beta" }
    let row : Node := {
      key := "key", uuid := "A-1", attributes := { Attributes.blank with environment := "prod", readings := observed },
      id := 1, lastSeen := { LastSeen.never with status := some 2 }, createdAt := 1, updatedAt := 30 }
    let r := ((updateMetadata " KEY" observed).program settings).runBy clock 3 s
    r.1 = .ok (.node row) ∧ (Roster.byKey " KEY").runBy clock 5 r.2.2 = (.ok (row.touched .status 40), 5, r.2.2) ∧
      row ≠ row.touched .status 40 := by
  intro settings clock s observed row r
  have hs : Reachable settings s := reachable_empty.replay _
  have hop : (updateMetadata " KEY" observed).key? = some " KEY" := rfl
  have hrow : r.1 = .ok (.node row) := by decide +kernel
  have hrun : r = (.ok (.node row), r.2.1, r.2.2) := by rw [← hrow]
  obtain ⟨stored, hfound, -, hreport⟩ := returned_row_of_reachable hs hop hrun
  obtain ⟨n, -, -, hstored, hsame⟩ := hreport observed rfl
  have hclock : clock (3 + 1) = 40 := by decide
  rw [hclock] at hstored
  rw [hstored] at hfound hsame
  exact ⟨hrow, hfound clock 5, fun heq => absurd (hsame.mp heq).2 (by decide)⟩

/-- A node that never told its status reports a hostname. What is returned says that its status was never noted, and what is found by
its key says when it was. -/
theorem Operation.returned_row_lacks_status :
    let settings : Settings := .embedded ["prod"]
    let s := replay settings .empty [(1, .enroll "n1" "k1" { Attributes.blank with environment := "prod" })]
    let observed : Observation := { Observation.none with hostname := "alpha" }
    let row : Node := {
      key := "k1", uuid := "N1", attributes := { Attributes.blank with environment := "prod", readings := observed },
      id := 1, lastSeen := .never, createdAt := 1, updatedAt := 5 }
    let stored : Node := { row with lastSeen := { LastSeen.never with status := some 5 } }
    let r := (updateMetadata "k1" observed).run settings 5 s
    Reachable settings s ∧ r.1 = .ok (.node row) ∧ ((Roster.byKey "k1").run 5 r.2).1 = .ok stored ∧ row ≠ stored := by
  intro settings s observed row stored r
  exact ⟨reachable_empty.replay _, by decide +kernel, by decide +kernel, by decide⟩

end FleetControl
