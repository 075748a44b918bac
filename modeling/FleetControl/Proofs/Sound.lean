import FleetControl.Proofs.Runs

/-!
# What identifies a row

In every store that operations lead to a node is told from the others by its key and by its UUID, which is in canonical form, and
a query by its name (`Store.Sound`). So whatever is looked up by one of these is the one row that has it.
-/

namespace FleetControl

/-- No two nodes have the same key or the same UUID, the UUIDs are in canonical form, and no two queries have the same name. -/
structure Store.Sound (s : Store) : Prop where
  keys : (s.nodes.map (·.key)).Nodup
  uuids : (s.nodes.map (·.uuid)).Nodup
  canonical : ∀ n ∈ s.nodes, canonicalUuid n.uuid = n.uuid
  names : s.queryNames.Nodup

namespace Store.Sound

variable {s : Store}

theorem empty : Sound .empty := ⟨List.nodup_nil, List.nodup_nil, fun _ hn => absurd hn List.not_mem_nil, List.nodup_nil⟩

/-- A new node has a key and a UUID that no other has. -/
theorem fresh {e : Enrollment} (hfree : s.isTaken e = false) : e.key ∉ s.nodes.map (·.key) ∧ e.uuid ∉ s.nodes.map (·.uuid) := by
  simp only [isTaken, List.any_eq_false, Bool.or_eq_true, beq_iff_eq, not_or] at hfree
  refine ⟨?_, ?_⟩
  · intro hmem
    obtain ⟨n, hn, hkey⟩ := List.mem_map.mp hmem
    exact (hfree n hn).1 hkey
  · intro hmem
    obtain ⟨n, hn, huuid⟩ := List.mem_map.mp hmem
    exact (hfree n hn).2 huuid

/-- Nodes stay told from one another by their keys and UUIDs. -/
theorem identities_after (hkeys : (s.nodes.map (·.key)).Nodup) (huuids : (s.nodes.map (·.uuid)).Nodup) (c : Call) (now : Time) :
    ((c.after now s).nodes.map (·.key)).Nodup ∧ ((c.after now s).nodes.map (·.uuid)).Nodup := by
  rcases Call.nodes_cases s now c with hsame | ⟨e, seeds, rfl, hfree, hnodes⟩ | ⟨uuid, rfl, hnodes⟩
  · rw [hsame.identities.1, hsame.identities.2]
    exact ⟨hkeys, huuids⟩
  · obtain ⟨hkey, huuid⟩ := fresh hfree
    rw [hnodes, List.map_append, List.map_append]
    exact ⟨hkeys.append (List.nodup_singleton _) (List.disjoint_singleton.mpr hkey),
      huuids.append (List.nodup_singleton _) (List.disjoint_singleton.mpr huuid)⟩
  · rw [hnodes]
    exact ⟨hkeys.sublist (List.filter_sublist.map _), huuids.sublist (List.filter_sublist.map _)⟩

/-- What holds of the nodes, of a node later on if it did before, and of a node that the call inserts, holds of the nodes after the
call. -/
theorem forall_nodes_after {P : Node → Prop} {c : Call} {now : Time} (hsame : ∀ n n' : Node, n.Same n' → P n → P n')
    (hnew : ∀ e seeds, c = .insertNode e seeds → P (s.newNode now e)) (h : ∀ n ∈ s.nodes, P n) :
    ∀ n ∈ (c.after now s).nodes, P n := by
  intro n hn
  rcases Call.nodes_cases s now c with ⟨change, hchange, hnodes⟩ | ⟨e, seeds, hcall, -, hnodes⟩ | ⟨uuid, -, hnodes⟩
  · rw [hnodes] at hn
    obtain ⟨m, hm, rfl⟩ := List.mem_map.mp hn
    exact hsame m (change m) (hchange m) (h m hm)
  · rw [hnodes] at hn
    rcases List.mem_append.mp hn with hn | hn
    · exact h n hn
    · rw [List.mem_singleton.mp hn]
      exact hnew e seeds hcall
  · rw [hnodes] at hn
    exact h n (List.mem_filter.mp hn).1

/-- Queries stay told from one another by their names. -/
theorem names_after (h : s.Sound) (c : Call) (now : Time) : (c.after now s).queryNames.Nodup := by
  rcases Call.queryNames_cases s now c with hsame | ⟨draft, -, hfree, hnames⟩
  · rw [hsame]
    exact h.names
  · rw [hnames]
    exact h.names.append (List.nodup_singleton _) (List.disjoint_singleton.mpr hfree)

/-- Proper calls keep the store sound. -/
theorem after {settings : Settings} (h : s.Sound) {c : Call} (hc : c.Proper settings) (now : Time) : (c.after now s).Sound := by
  obtain ⟨hkeys, huuids⟩ := identities_after h.keys h.uuids c now
  refine ⟨hkeys, huuids, ?_, h.names_after c now⟩
  refine forall_nodes_after (fun n n' hsame hcanonical => ?_) (fun e seeds hcall => ?_) h.canonical
  · rw [hsame.uuid, hcanonical]
  · subst hcall
    cases hc with
    | reads hreads => cases hreads
    | insertNode _ _ _ huuid => exact huuid

theorem of_reachable {settings : Settings} (hs : Reachable settings s) : s.Sound := by
  refine hs.preserves empty ?_
  intro c hc now s h
  exact h.after hc now

/-- What holds of every node that operations insert, and of a node later on if it did before, holds of the nodes of every store that
operations lead to. -/
theorem forall_nodes_of_reachable {settings : Settings} {P : Node → Prop} (hsame : ∀ n n' : Node, n.Same n' → P n → P n')
    (hnew : ∀ s now e seeds, (Call.insertNode e seeds).Proper settings → P (newNode s now e)) (hs : Reachable settings s) :
    ∀ n ∈ s.nodes, P n := by
  refine hs.preserves (P := fun s => ∀ n ∈ s.nodes, P n) (fun _ hn => absurd hn List.not_mem_nil) ?_
  intro c hc now s h
  exact forall_nodes_after hsame (fun e seeds hcall => hnew s now e seeds (hcall ▸ hc)) h

/-! ## Looking rows up -/

/-- The node of a key is found by it. -/
theorem findNode_key (h : s.Sound) {n : Node} (hn : n ∈ s.nodes) {key : String} (hkey : n.key = key) :
    s.findNode (.key key) = some n := by
  rw [← hkey]
  exact find?_eq_some_of_nodup h.keys hn

/-- A node is the only one of its UUID. -/
theorem eq_of_uuid_eq (h : s.Sound) {n m : Node} (hn : n ∈ s.nodes) (hm : m ∈ s.nodes) (huuid : m.uuid = n.uuid) : m = n :=
  List.inj_on_of_nodup_map h.uuids hm hn huuid

/-- A change to the node of a UUID is a change to this node alone. -/
theorem changeNode_uuid (h : s.Sound) {n : Node} (hn : n ∈ s.nodes) (change : Node → Node) :
    s.changeNode n.uuid change = { s with nodes := s.nodes.map fun m => if m = n then change m else m } := by
  rw [changeNode]
  congr 1
  refine List.map_congr_left ?_
  intro m hm
  by_cases heq : m = n
  · rw [if_pos heq, heq, if_pos rfl]
  · have hne : m.uuid ≠ n.uuid := by
      intro huuid
      exact heq (h.eq_of_uuid_eq hn hm huuid)
    rw [if_neg heq, if_neg hne]

/-- The node of a key is found by it. -/
theorem run_byKey (h : s.Sound) {n : Node} (hn : n ∈ s.nodes) {key : String} (hkey : n.key = canonicalKey key) (time : Time) :
    (Roster.byKey key).run time s = (.ok n, s) := by
  unfold Roster.byKey
  rw [Program.run_bind_of_ok (Program.run_ask_of_ok rfl), h.findNode_key hn hkey]
  rfl

/-- An event of a node is noted on that node. -/
theorem run_noteEvent (h : s.Sound) {n : Node} (hn : n ∈ s.nodes) (event : NodeEvent) (time : Time) :
    (Roster.noteEvent n.uuid event).run time s = (.ok (), s.changeNode n.uuid fun m => m.touched event time) := by
  unfold Roster.noteEvent
  rw [h.canonical n hn, Program.run_bind_of_ok (Program.run_now time s)]
  refine Program.run_ask_of_ok ?_
  simp only [Call.exec, Call.done, touchEvent, nodeWith, find?_eq_some_of_nodup h.uuids hn]
  rfl

end Store.Sound

/-- A key that no node has is refused. -/
theorem Roster.run_byKey_of_ne {s : Store} {key : String} (h : ∀ n ∈ s.nodes, n.key ≠ canonicalKey key) (time : Time) :
    (byKey key).run time s = (.error (.refused .noNodeWithKey), s) := by
  have hnone : s.findNode (.key (canonicalKey key)) = none := by
    apply List.find?_eq_none.mpr
    intro n hn
    simpa using h n hn
  unfold byKey
  rw [Program.run_bind_of_ok (Program.run_ask_of_ok rfl), hnone]
  rfl

end FleetControl
