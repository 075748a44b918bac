import FleetControl.Proofs.Atomicity
import Mathlib.Data.List.Induction

/-!
# Actions on several nodes

The action on several nodes looks all of them up first and then acts on one after another. Whoever is not found, or may not be
acted on, is so before the first write. Archiving leaves the nodes there, and removing one leaves the others, so nodes that are
found and differ are all acted on (`Fleet.run_actOnAll`). But a node that is named twice, in whatever spellings, is found when it
is looked up and gone when its second turn comes: such a removal breaks off half way, and nothing else does
(`Operation.nodeAction_breaks_off_iff`).
-/

namespace FleetControl

open Program (run_bind_of_ok run_bind_of_error run_ask_of_ok run_ask_of_error)

/-! ## One node -/

namespace Roster

variable {time : Time} {s : Store} {uuid : String}

/-- A snapshot is taken of a node that the store has, and goes to the archive. -/
theorem run_archive_of_hasNode (time : Time) (h : s.HasNode (canonicalUuid uuid)) (trigger : String) :
    ∃ n ∈ s.nodes, n.uuid = canonicalUuid uuid ∧ (archive uuid trigger).run time s =
      (.ok (s.insertArchive (n.snapshot trigger time)).1, (s.insertArchive (n.snapshot trigger time)).2) := by
  obtain ⟨n, hn, huuid, hfound⟩ := run_byUuid_of_hasNode h
  refine ⟨n, hn, huuid, ?_⟩
  unfold archive
  rw [run_bind_of_ok hfound, run_bind_of_ok (Program.run_now time s)]
  exact run_ask_of_ok rfl

/-- A node that the store has is removed, after a snapshot of it was taken and given a number, and the others stay. -/
theorem run_retire_of_hasNode (h : s.HasNode (canonicalUuid uuid)) :
    ∃ row s₁, (retire uuid).run time s = (.ok row, s₁) ∧ s₁.lastId = s.nextId ∧
      s₁.nodes = s.nodes.filter (·.uuid != canonicalUuid uuid) := by
  obtain ⟨n, -, huuid, harchive⟩ := run_archive_of_hasNode time h deleteTrigger
  let row := (s.insertArchive (n.snapshot deleteTrigger time)).1
  let s₁ := (s.insertArchive (n.snapshot deleteTrigger time)).2
  have hdelete : (Call.deleteNode row.uuid).exec time s₁ =
      .ok ((), { s₁ with nodes := s.nodes.filter (·.uuid != n.uuid) }) := by
    obtain ⟨m, -, -, hfind⟩ := h.find?_eq_some
    have hfound : s₁.nodes.find? (·.uuid == row.uuid) = some m := by
      rw [← huuid] at hfind
      exact hfind
    simp only [Call.exec, Call.done, Store.deleteNode, Store.nodeWith, hfound]
    rfl
  refine ⟨row, { s₁ with nodes := s.nodes.filter (·.uuid != n.uuid) }, ?_, rfl, by rw [huuid]⟩
  unfold retire
  rw [run_bind_of_ok harchive, run_bind_of_ok (run_ask_of_ok hdelete)]
  rfl

end Roster

namespace Fleet

variable {time : Time} {s : Store} {uuid : String} {uuids : List String} {action : NodeAction}

/-- A node that the store has is acted on, and afterwards the store has the same nodes but for one that was removed. -/
theorem run_actOn_of_hasNode (time : Time) (action : NodeAction) (h : s.HasNode (canonicalUuid uuid)) :
    ∃ row s₁, (actOn action uuid).run time s = (.ok row, s₁) ∧
      ∀ u, s₁.HasNode u ↔ s.HasNode u ∧ (action = .delete → u ≠ canonicalUuid uuid) := by
  cases action with
  | archive trigger =>
    obtain ⟨n, -, -, hrun⟩ := Roster.run_archive_of_hasNode time h trigger
    refine ⟨_, _, hrun, ?_⟩
    intro u
    simp [Store.HasNode, Store.insertArchive]
  | delete =>
    obtain ⟨row, s₁, hrun, -, hnodes⟩ := Roster.run_retire_of_hasNode h
    refine ⟨row, s₁, hrun, ?_⟩
    intro u
    simp only [Store.hasNode_iff_of_filter hnodes, true_imp_iff]

/-- A node that the store does not have is not acted on. -/
theorem run_actOn_of_not_hasNode (time : Time) (action : NodeAction) (h : ¬s.HasNode (canonicalUuid uuid)) :
    (actOn action uuid).run time s = (.error (.refused (.noNode (canonicalUuid uuid))), s) := by
  have hlookup : (Roster.byUuid uuid).run time s = _ := Roster.run_byUuid_of_not_hasNode h
  cases action with
  | archive trigger => exact run_bind_of_error hlookup _
  | delete =>
    have harchive : (Roster.archive uuid Roster.deleteTrigger).run time s = _ := run_bind_of_error hlookup _
    exact run_bind_of_error harchive _

/-! ## Several nodes -/

/-- Nodes that the store has are all acted on, provided that those to be removed differ. Afterwards the store has the same nodes but
for those that were removed. -/
theorem run_actOnAll (time : Time) (action : NodeAction) (hall : ∀ uuid ∈ uuids, s.HasNode (canonicalUuid uuid))
    (honce : action = .delete → (uuids.map canonicalUuid).Nodup) :
    ∃ rows s₁, (uuids.mapM (actOn action)).run time s = (.ok rows, s₁) ∧
      ∀ u, s₁.HasNode u ↔ s.HasNode u ∧ (action = .delete → u ∉ uuids.map canonicalUuid) := by
  induction uuids generalizing s with
  | nil =>
    refine ⟨[], s, rfl, ?_⟩
    intro u
    simp
  | cons uuid rest ih =>
    obtain ⟨hfirst, hrest⟩ := List.forall_mem_cons.mp hall
    obtain ⟨row, s₁, hrun, hleft⟩ := run_actOn_of_hasNode time action hfirst
    -- the first may be gone now, but none of the rest is the first
    have hrest₁ : ∀ other ∈ rest, s₁.HasNode (canonicalUuid other) := by
      intro other hother
      refine (hleft _).mpr ⟨hrest other hother, ?_⟩
      intro hdelete heq
      exact (List.nodup_cons.mp (honce hdelete)).1 (heq ▸ List.mem_map_of_mem hother)
    obtain ⟨rows, s₂, hruns, hleft₂⟩ := ih hrest₁ fun hdelete => (List.nodup_cons.mp (honce hdelete)).2
    refine ⟨row :: rows, s₂, ?_, ?_⟩
    · rw [List.mapM_cons, run_bind_of_ok hrun, run_bind_of_ok hruns]
      rfl
    · intro u
      rw [hleft₂, hleft, List.map_cons, List.mem_cons, not_or, and_assoc, forall_and]

/-- After nodes were acted on as a whole, the rest is acted on in what is left. -/
theorem run_actOnAll_append {before : List String} {rows : List ArchivedNode} {s₁ : Store}
    (hrun : (before.mapM (actOn action)).run time s = (.ok rows, s₁)) {rest : List String} {why : Stop} {s₂ : Store}
    (hrest : (rest.mapM (actOn action)).run time s₁ = (.error why, s₂)) :
    ((before ++ rest).mapM (actOn action)).run time s = (.error why, s₂) := by
  rw [List.mapM_append, run_bind_of_ok hrun]
  exact run_bind_of_error hrest _

/-- An action on nodes that are all there, by one who may take it, goes on to act on them. -/
theorem run_nodeAction_of_hasNode {actor : String} (hpermits : s.Permits actor .admin none)
    (hall : ∀ uuid ∈ uuids, s.HasNode (canonicalUuid uuid)) :
    (nodeAction actor action uuids).run time s = (uuids.mapM (actOn action)).run time s := by
  have hlookups : (uuids.forM fun uuid => discard (Roster.byUuid uuid)).run time s = (.ok ⟨⟩, s) := by
    clear hpermits
    induction uuids with
    | nil => rfl
    | cons uuid rest ih =>
      obtain ⟨hfirst, hrest⟩ := List.forall_mem_cons.mp hall
      obtain ⟨n, -, -, hfound⟩ := Roster.run_byUuid_of_hasNode hfirst
      exact (run_bind_of_ok (Program.run_map_of_ok hfound _) _).trans (ih hrest)
  unfold nodeAction
  rw [run_bind_of_ok (Accounts.run_require_of_permits time hpermits), run_bind_of_ok hlookups]

/-- Any other action on several nodes is refused before it writes. -/
theorem run_nodeAction_of_not (time : Time) (action : NodeAction) {actor : String}
    (h : ¬(s.Permits actor .admin none ∧ ∀ uuid ∈ uuids, s.HasNode (canonicalUuid uuid))) :
    ∃ why, (nodeAction actor action uuids).run time s = (.error why, s) := by
  have hreads : ∀ uuid, (discard (Roster.byUuid uuid)).Asks fun c => c.part = none := by
    intro uuid
    exact (Roster.asks_byUuid (fun _ => id) uuid).map _
  unfold nodeAction
  by_cases hpermits : s.Permits actor .admin none
  · rw [run_bind_of_ok (Accounts.run_require_of_permits time hpermits)]
    rcases Program.run_bind_of_reads (Program.asks_forM fun uuid _ => hreads uuid) _ time s with hrefused | ⟨u, hlookups, -⟩
    · exact hrefused
    · -- every node was looked up, so all of them are there
      refine absurd ⟨hpermits, ?_⟩ h
      intro uuid huuid
      by_contra hnone
      obtain ⟨n, hfound, -⟩ := Program.of_run_map_eq_ok (Program.of_run_forM_eq_ok hreads hlookups uuid huuid)
      rw [Roster.run_byUuid_of_not_hasNode hnone] at hfound
      cases hfound
  · exact ⟨_, run_bind_of_error (Accounts.run_require_of_not_permits time hpermits) _⟩

end Fleet

/-- A list whose members do not all differ by a key has a first member whose key one before it has. -/
theorem exists_first_repeated {α β : Type} {key : α → β} {l : List α} (h : ¬(l.map key).Nodup) :
    ∃ before a after, l = before ++ a :: after ∧ (before.map key).Nodup ∧ key a ∈ before.map key := by
  induction l using List.reverseRecOn with
  | nil => exact absurd List.nodup_nil h
  | append_singleton l a ih =>
    by_cases hl : (l.map key).Nodup
    · refine ⟨l, a, [], rfl, hl, ?_⟩
      by_contra hnew
      rw [List.map_append] at h
      exact h (hl.append (List.nodup_singleton _) (List.disjoint_singleton.mpr hnew))
    · obtain ⟨before, b, after, rfl, hbefore, hb⟩ := ih hl
      exact ⟨before, b, after ++ [a], by simp, hbefore, hb⟩

/-- A removal of nodes that are all there breaks off at the first that was named before. What is left is what the removal of the
nodes before it leaves. -/
theorem Fleet.run_nodeAction_of_repeated {s : Store} {actor : String} {uuids : List String} {time : Time}
    (hpermits : s.Permits actor .admin none) (hall : ∀ uuid ∈ uuids, s.HasNode (canonicalUuid uuid))
    (htwice : ¬(uuids.map canonicalUuid).Nodup) :
    ∃ before uuid after rows s₁, uuids = before ++ uuid :: after ∧ canonicalUuid uuid ∈ before.map canonicalUuid ∧
      (nodeAction actor .delete before).run time s = (.ok rows, s₁) ∧
      (nodeAction actor .delete uuids).run time s = (.error (.refused (.noNode (canonicalUuid uuid))), s₁) ∧ s₁ ≠ s := by
  obtain ⟨before, uuid, after, rfl, honce, hrepeated⟩ := exists_first_repeated htwice
  have hbefore : ∀ uuid ∈ before, s.HasNode (canonicalUuid uuid) := by
    intro other hother
    exact hall other (List.mem_append_left _ hother)
  -- the nodes before the repeated one differ and are all removed, and it is one of them
  obtain ⟨rows, s₁, hrun, hleft⟩ := run_actOnAll time .delete hbefore fun _ => honce
  have hgone : ¬s₁.HasNode (canonicalUuid uuid) := by
    intro hthere
    exact ((hleft _).mp hthere).2 rfl hrepeated
  refine ⟨before, uuid, after, rows, s₁, rfl, hrepeated, ?_, ?_, ?_⟩
  · rw [run_nodeAction_of_hasNode hpermits hbefore, hrun]
  · rw [run_nodeAction_of_hasNode hpermits hall]
    refine run_actOnAll_append hrun ?_
    rw [List.mapM_cons]
    exact run_bind_of_error (run_actOn_of_not_hasNode time .delete hgone) _
  · rintro rfl
    exact hgone (hall uuid (List.mem_append_right _ List.mem_cons_self))

/-- The action removes nodes that are all there, its actor may take it, and it names one of the nodes twice, in whatever
spellings. -/
def NodeAction.RemovesTwice (s : Store) (actor : String) (action : NodeAction) (uuids : List String) : Prop :=
  action = .delete ∧ s.Permits actor .admin none ∧ (∀ uuid ∈ uuids, s.HasNode (canonicalUuid uuid)) ∧
    ¬(uuids.map canonicalUuid).Nodup

/-- An action on several nodes that removes none of them twice is all or nothing. -/
theorem Fleet.allOrNothing_nodeAction {s : Store} {actor : String} {action : NodeAction} {uuids : List String} {time : Time}
    (h : ¬action.RemovesTwice s actor uuids) : (nodeAction actor action uuids).AllOrNothing time s := by
  by_cases hstarts : s.Permits actor .admin none ∧ ∀ uuid ∈ uuids, s.HasNode (canonicalUuid uuid)
  · obtain ⟨hpermits, hall⟩ := hstarts
    have honce : action = .delete → (uuids.map canonicalUuid).Nodup := by
      intro hdelete
      by_contra htwice
      exact h ⟨hdelete, hpermits, hall, htwice⟩
    obtain ⟨rows, s₁, hrun, -⟩ := run_actOnAll time action hall honce
    rw [← run_nodeAction_of_hasNode hpermits hall] at hrun
    exact Program.Answered.allOrNothing ⟨rows, s₁, hrun⟩
  · intro why s' herror
    obtain ⟨why', hrun⟩ := run_nodeAction_of_not time action hstarts
    rw [hrun] at herror
    cases herror
    rfl

/-- An action on several nodes ends without a result and yet changes the store in just one case: it removes a node twice. Then it
is refused at the first name that was given before, and what is left is what the removal of the nodes before it leaves. -/
theorem Operation.nodeAction_breaks_off_iff (settings : Settings) (actor : String) (action : NodeAction) (uuids : List String)
    (time : Time) (s : Store) :
    ((∃ why, ((nodeAction actor action uuids).run settings time s).1 = .error why) ∧
        ((nodeAction actor action uuids).run settings time s).2 ≠ s ↔ action.RemovesTwice s actor uuids) ∧
    (action.RemovesTwice s actor uuids →
      ∃ before uuid after rows s₁, uuids = before ++ uuid :: after ∧ canonicalUuid uuid ∈ before.map canonicalUuid ∧
        (nodeAction actor action before).run settings time s = (.ok (.archived rows), s₁) ∧
        (nodeAction actor action uuids).run settings time s = (.error (.refused (.noNode (canonicalUuid uuid))), s₁)) := by
  refine ⟨⟨?_, ?_⟩, ?_⟩
  · rintro ⟨⟨why, herror⟩, hchanged⟩
    by_contra hnot
    exact hchanged (((Fleet.allOrNothing_nodeAction hnot).map Answer.archived) why _ (Prod.ext herror rfl))
  · rintro ⟨rfl, hpermits, hall, htwice⟩
    obtain ⟨_, _, _, _, s₁, -, -, -, hrun, hne⟩ := Fleet.run_nodeAction_of_repeated hpermits hall htwice
    rw [run, program, Program.run_map_of_error hrun]
    exact ⟨⟨_, rfl⟩, hne⟩
  · rintro ⟨rfl, hpermits, hall, htwice⟩
    obtain ⟨before, uuid, after, rows, s₁, hsplit, hrepeated, hbefore, hrun, -⟩ :=
      Fleet.run_nodeAction_of_repeated hpermits hall htwice
    exact ⟨before, uuid, after, rows, s₁, hsplit, hrepeated, Program.run_map_of_ok hbefore Answer.archived,
      Program.run_map_of_error hrun Answer.archived⟩

/-- A node named in two spellings is removed and archived, and the removal is refused nevertheless. -/
theorem Operation.nodeAction_refused_and_node_gone :
    let settings : Settings := .embedded ["prod"]
    let s := replay settings .empty [(0, .ensureAdmin "root"),
      (1, .enroll "a-1" "Key" { Attributes.blank with environment := "prod" })]
    let outcome := (Operation.nodeAction "root" .delete ["a-1", " A-1 "]).run settings 2 s
    Reachable settings s ∧ outcome.1 = .error (.refused (.noNode "A-1")) ∧
      s.nodes.length = 1 ∧ outcome.2.nodes.length = 0 ∧ outcome.2.archive.length = 1 := by
  intro settings s outcome
  exact ⟨reachable_empty.replay _, by decide +kernel, by decide +kernel, by decide +kernel, by decide +kernel⟩

end FleetControl
