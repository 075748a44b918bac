import FleetControl.Proofs.Sound

/-!
# What a node is handed

A query is due to a node while it is active, one of its targets is for the node and the node has not executed it
(`Store.Due`). A node that polls is handed exactly the queries that are due to it (`Operation.poll_of_reachable`), and of the
store only the times of that node change.
-/

namespace FleetControl

/-! ## Queries that are due -/

/-- The target is for the node. -/
def Target.IsFor (t : Target) (node : Node) : Prop :=
  match t.kind with
  | .uuid => node.uuid = t.value
  | .environment => node.attributes.environment = t.value
  | .platform => node.attributes.platform = t.value
  | .localname => node.attributes.readings.hostname = t.value ∨ node.attributes.readings.localname = t.value

theorem Target.selects_iff (t : Target) (node : Node) : t.selects node = true ↔ t.IsFor node := by
  unfold selects IsFor
  cases t.kind <;> simp [Node.isHost]

namespace Store

variable (s : Store) (node : Node)

/-- The query is due to the node: it is active, one of its targets is for the node, and the node has not executed it. -/
def Due (q : Query) : Prop :=
  (q.active = true ∧ q.completed = false ∧ q.deleted = false) ∧
    (∃ entry ∈ s.targets, entry.query = q.name ∧ entry.target.IsFor node) ∧
      ∀ e ∈ s.executions, ¬(e.name = q.name ∧ e.uuid = node.uuid)

/-- One of the targets of the query selects the node, and the node has no execution of it. -/
def awaits (q : Query) : Bool := Target.anySelects (s.targetsOf q.name) node && !s.hasExecution q.name node.uuid

theorem anySelects_targetsOf_iff (name : String) :
    Target.anySelects (s.targetsOf name) node = true ↔
      ∃ entry ∈ s.targets, entry.query = name ∧ entry.target.IsFor node := by
  simp only [Target.anySelects, targetsOf, List.any_map, List.any_filter, List.any_eq_true, Bool.and_eq_true, beq_iff_eq,
    Function.comp_apply, Target.selects_iff]

theorem hasExecution_eq_false_iff (name uuid : String) :
    s.hasExecution name uuid = false ↔ ∀ e ∈ s.executions, ¬(e.name = name ∧ e.uuid = uuid) := by
  simp only [hasExecution, List.any_eq_false, Bool.and_eq_true, beq_iff_eq]

theorem due_iff (q : Query) : s.Due node q ↔ (Listing.active.admits q.toDraft && s.awaits node q) = true := by
  simp only [Due, Listing.admits, awaits, Bool.and_eq_true, Bool.not_eq_true', anySelects_targetsOf_iff,
    hasExecution_eq_false_iff, and_assoc]

instance (q : Query) : Decidable (s.Due node q) := decidable_of_iff' _ (s.due_iff node q)

/-- The texts of the queries that are due to the node, by name. -/
def due : Dictionary String := .ofList ((s.queries.filter fun q => s.Due node q).map fun q => (q.name, q.text))

variable {s node}

/-- What is due are the names and texts of the queries that are due. -/
theorem mem_due {name text : String} (h : (name, text) ∈ (s.due node).entries) :
    ∃ q ∈ s.queries, s.Due node q ∧ q.name = name ∧ q.text = text := by
  obtain ⟨q, hq, heq⟩ := List.mem_map.mp (Dictionary.mem_of_mem_ofList h)
  obtain ⟨hq, hdue⟩ := List.mem_filter.mp hq
  obtain ⟨hname, htext⟩ := Prod.mk.inj heq
  exact ⟨q, hq, of_decide_eq_true hdue, hname, htext⟩

/-- Where queries are told apart by their names there is an entry for each query that is due. -/
theorem Sound.perm_due (h : s.Sound) (node : Node) :
    (s.due node).entries.Perm ((s.queries.filter fun q => s.Due node q).map fun q => (q.name, q.text)) := by
  refine Dictionary.perm_ofList ?_
  rw [List.map_map]
  exact h.names.sublist (List.filter_sublist.map _)

end Store

/-! ## Polling -/

namespace Delivery

variable (time : Time) (s : Store)

/-- The pending queries among some are those that await the node, found without a change to the store. -/
theorem run_pendingAmong (node : Node) (found : Dictionary String) (queries : List Query) :
    (pendingAmong node found queries).run time s =
      (.ok ((queries.filter (s.awaits node)).foldl (fun d q => d.insert q.name q.text) found), s) := by
  induction queries generalizing found with
  | nil => rfl
  | cons query rest ih =>
    unfold pendingAmong
    rw [Program.run_bind_of_ok (Program.run_ask_of_ok rfl)]
    cases hselects : Target.anySelects (s.targetsOf query.name) node with
    | false =>
      have hawaits : s.awaits node query = false := by rw [Store.awaits, hselects, Bool.false_and]
      rw [if_neg Bool.false_ne_true, ih, List.filter_cons_of_neg (by rw [hawaits]; exact Bool.false_ne_true)]
    | true =>
      rw [if_pos rfl, Program.run_bind_of_ok (Program.run_ask_of_ok rfl)]
      cases hexecuted : s.hasExecution query.name node.uuid with
      | true =>
        have hawaits : s.awaits node query = false := by rw [Store.awaits, hexecuted, Bool.not_true, Bool.and_false]
        rw [if_pos rfl, ih, List.filter_cons_of_neg (by rw [hawaits]; exact Bool.false_ne_true)]
      | false =>
        have hawaits : s.awaits node query = true := by rw [Store.awaits, hselects, hexecuted]; rfl
        rw [if_neg Bool.false_ne_true, ih, List.filter_cons_of_pos hawaits, List.foldl_cons]

/-- The pending queries of a node are those due to it, found without a change to the store. -/
theorem run_pending (node : Node) : (pending node).run time s = (.ok (s.due node), s) := by
  have hdue : (s.queries.filter fun q => s.Due node q) = (s.listQueries .active).filter (s.awaits node) := by
    rw [Store.listQueries, List.filter_filter]
    refine List.filter_congr ?_
    intro q _
    rw [Bool.eq_iff_iff, decide_eq_true_iff, s.due_iff, Bool.and_comm]
  unfold pending
  rw [Program.run_bind_of_ok (Program.run_ask_of_ok rfl), run_pendingAmong, Store.due, hdue, Dictionary.ofList,
    List.foldl_map]

end Delivery

/-- A node that polls is handed what is due to it, and it is noted when. -/
theorem Fleet.run_poll {s : Store} (h : s.Sound) {n : Node} (hn : n ∈ s.nodes) {key : String} (hkey : n.key = canonicalKey key)
    (time : Time) : (poll key).run time s = (.ok (s.due n), s.changeNode n.uuid fun m => m.touched .queryRead time) := by
  unfold poll
  rw [Program.run_bind_of_ok (h.run_byKey hn hkey time), Program.run_bind_of_ok (Delivery.run_pending time s n),
    Program.run_bind_of_ok (h.run_noteEvent hn .queryRead time)]
  rfl

/-- In a store that operations lead to, a node that polls by its key, however it is spelled, is handed exactly the queries that
are due to it, with an entry for each of them, and of the store only the times of the node change: that of its last reading of
queries and that of its last change. A key that no node has is refused, and nothing changes. -/
theorem Operation.poll_of_reachable {settings : Settings} {s : Store} (hs : Reachable settings s) (key : String) (time : Time) :
    (∀ n ∈ s.nodes, n.key = canonicalKey key →
      ∃ pending : Dictionary String,
        (Operation.poll key).run settings time s =
          (.ok (.pending pending), { s with
            nodes := s.nodes.map fun m =>
              if m = n then { m with lastSeen := { m.lastSeen with queryRead := some time }, updatedAt := time } else m }) ∧
        (∀ name text, (name, text) ∈ pending.entries ↔ ∃ q ∈ s.queries, s.Due n q ∧ q.name = name ∧ q.text = text) ∧
        pending.entries.length = s.queries.countP fun q => s.Due n q) ∧
    ((∀ n ∈ s.nodes, n.key ≠ canonicalKey key) →
      ∃ why, (Operation.poll key).run settings time s = (.error (.refused why), s) ∧ why.kind = .notFound) := by
  have hsound := Store.Sound.of_reachable hs
  constructor
  · intro n hn hkey
    have hperm := hsound.perm_due n
    refine ⟨s.due n, ?_, ?_, ?_⟩
    · have hrun := Fleet.run_poll hsound hn hkey time
      rw [hsound.changeNode_uuid hn] at hrun
      exact Program.run_map_of_ok hrun Answer.pending
    · intro name text
      constructor
      · exact Store.mem_due
      · rintro ⟨q, hq, hdue, rfl, rfl⟩
        have hkept : q ∈ s.queries.filter fun q => s.Due n q := List.mem_filter.mpr ⟨hq, decide_eq_true hdue⟩
        exact hperm.mem_iff.mpr (List.mem_map_of_mem hkept)
    · rw [hperm.length_eq, List.length_map, List.countP_eq_length_filter]
  · intro hnone
    refine ⟨.noNodeWithKey, ?_, rfl⟩
    have hrun : (Fleet.poll key).run time s = (.error (.refused .noNodeWithKey), s) :=
      Program.run_bind_of_error (Roster.run_byKey_of_ne hnone time) _
    exact Program.run_map_of_error hrun Answer.pending

/-- An enrolled node is handed the query launched at its environment. -/
theorem Operation.poll_of_enrolled :
    let s := replay (.embedded ["prod"]) .empty [(0, .ensureAdmin "root"),
      (1, .enroll "a-1" "Key" { Attributes.blank with environment := "prod" }),
      (2, .createQuery 7 "root" "SELECT 1;" [⟨.environment, "prod"⟩] .standard)]
    ∃ pending s', (Operation.poll " KEY ").run (.embedded ["prod"]) 3 s = (.ok (.pending pending), s') ∧
      pending.entries.length = 1 := by
  intro s
  have hs : Reachable (.embedded ["prod"]) s := reachable_empty.replay _
  obtain ⟨n, hn, hkey⟩ : ∃ n ∈ s.nodes, n.key = canonicalKey " KEY " := by decide +kernel
  have hdue : ∀ n ∈ s.nodes, s.queries.countP (fun q => s.Due n q) = 1 := by decide +kernel
  obtain ⟨pending, hrun, -, hlength⟩ := (poll_of_reachable hs " KEY " 3).1 n hn hkey
  exact ⟨pending, _, hrun, hlength.trans (hdue n hn)⟩

end FleetControl
