import FleetControl.Proofs.Batches
import FleetControl.Proofs.Delivery
import FleetControl.Proofs.Journal
import FleetControl.Proofs.Reach

/-!
# Looking nodes up

A node is looked up by its key or by its UUID, however these are spelled, and the ways to look it up agree: each succeeds where a
live node has what is looked up, with that one node, and is refused as not found where none has (`Program.Resolves`). An operation
of a node looks the node up by its key and then goes by the UUID of the row that it found, put into canonical form once more. Since
the UUIDs of live nodes are in canonical form already and differ, and no call of such an operation takes a node away
(`Call.KeepsTo`), that is the UUID of the same row at every later call.
-/

namespace FleetControl

open Program (run_bind_of_ok run_bind_of_error run_ask_of_ok run_map_of_ok run_map_of_error asks_pure asks_refuse asks_ask asks_ite
  calls_ask calls_bind_of_ok calls_bind_pure calls_map)

/-! ## Look-ups -/

/-- A look-up succeeds where a live node meets a condition, with the one that does. It is refused as not found where none does, and
changes nothing. -/
structure Program.Resolves (lookup : Program Node) (time : Time) (s : Store) (holds : Node → Prop) : Prop where
  succeeds : (∃ n, (lookup.run time s).1 = .ok n) ↔ ∃ n ∈ s.nodes, holds n
  unique : ∀ n, (lookup.run time s).1 = .ok n → n ∈ s.nodes ∧ holds n ∧ ∀ m ∈ s.nodes, holds m → m = n
  fails : ∀ why, (lookup.run time s).1 = .error why → ∃ refusal, why = .refused refusal ∧ refusal.kind = .notFound
  leaves : (lookup.run time s).2 = s

namespace Program.Resolves

variable {lookup : Program Node} {time : Time} {s : Store} {holds : Node → Prop}

/-- A look-up is told by what it comes to where a node meets the condition and where none does. -/
theorem of_cases (hfound : ∀ n ∈ s.nodes, holds n → lookup.run time s = (.ok n, s))
    (hmissing : (∀ n ∈ s.nodes, ¬holds n) → ∃ refusal, refusal.kind = .notFound ∧
      lookup.run time s = (.error (.refused refusal), s)) : lookup.Resolves time s holds := by
  by_cases h : ∃ n ∈ s.nodes, holds n
  · obtain ⟨n, hn, hholds⟩ := h
    have hrun := hfound n hn hholds
    refine ⟨⟨fun _ => ⟨n, hn, hholds⟩, fun _ => ⟨n, by rw [hrun]⟩⟩, ?_, ?_, by rw [hrun]⟩
    · intro m hm
      rw [hrun] at hm
      cases hm
      refine ⟨hn, hholds, fun m hm hmholds => ?_⟩
      have hagain := hfound m hm hmholds
      rw [hrun] at hagain
      cases hagain
      rfl
    · intro why hwhy
      rw [hrun] at hwhy
      cases hwhy
  · obtain ⟨refusal, hkind, hrun⟩ := hmissing fun n hn hholds => h ⟨n, hn, hholds⟩
    refine ⟨⟨?_, fun hsome => absurd hsome h⟩, ?_, ?_, by rw [hrun]⟩
    · rintro ⟨n, hn⟩
      rw [hrun] at hn
      cases hn
    · intro n hn
      rw [hrun] at hn
      cases hn
    · intro why hwhy
      rw [hrun] at hwhy
      cases hwhy
      exact ⟨refusal, rfl, hkind⟩

/-- Where a node meets the condition, the look-up is answered with it. -/
theorem run_of_mem (h : lookup.Resolves time s holds) {n : Node} (hn : n ∈ s.nodes) (hholds : holds n) :
    lookup.run time s = (.ok n, s) := by
  obtain ⟨m, hm⟩ := h.succeeds.mpr ⟨n, hn, hholds⟩
  obtain ⟨-, -, hone⟩ := h.unique m hm
  rw [hone n hn hholds]
  exact Prod.ext hm h.leaves

/-- Where no node meets the condition, the look-up is refused as not found. -/
theorem run_of_not_exists (h : lookup.Resolves time s holds) (hnone : ¬∃ n ∈ s.nodes, holds n) :
    ∃ refusal, refusal.kind = .notFound ∧ lookup.run time s = (.error (.refused refusal), s) := by
  cases hrun : (lookup.run time s).1 with
  | ok n => exact absurd (h.succeeds.mp ⟨n, hrun⟩) hnone
  | error why =>
    obtain ⟨refusal, rfl, hkind⟩ := h.fails why hrun
    exact ⟨refusal, hkind, Prod.ext hrun h.leaves⟩

/-- Whether a look-up succeeds is whether a node meets the condition. -/
theorem run_finds (h : lookup.Resolves time s holds) [Decidable (∃ n ∈ s.nodes, holds n)] :
    (Roster.finds lookup).run time s = (.ok (decide (∃ n ∈ s.nodes, holds n)), s) := by
  have hattempt : lookup.attempt.run time s = _ := Program.run_attempt _
  unfold Roster.finds
  by_cases hsome : ∃ n ∈ s.nodes, holds n
  · obtain ⟨n, hn, hholds⟩ := hsome
    rw [h.run_of_mem hn hholds] at hattempt
    rw [run_bind_of_ok hattempt, decide_eq_true ⟨n, hn, hholds⟩]
    rfl
  · obtain ⟨refusal, hkind, hrun⟩ := h.run_of_not_exists hsome
    rw [hrun] at hattempt
    rw [run_bind_of_ok hattempt, decide_eq_false hsome]
    simp only [Refusal.isNotFound, hkind, beq_self_eq_true, if_true]
    rfl

end Program.Resolves

namespace Roster

variable {s : Store} {time : Time}

theorem resolves_byKey (h : s.Sound) (text : String) : (byKey text).Resolves time s (·.key = canonicalKey text) :=
  .of_cases (fun _ hn hkey => h.run_byKey hn hkey time) fun hnone => ⟨.noNodeWithKey, rfl, run_byKey_of_ne hnone time⟩

theorem resolves_byUuid (h : s.Sound) (text : String) : (byUuid text).Resolves time s (·.uuid = canonicalUuid text) := by
  refine .of_cases (fun n hn huuid => ?_) fun hnone => ⟨.noNode (canonicalUuid text), rfl, run_byUuid_of_not_hasNode ?_⟩
  · obtain ⟨m, hm, hmuuid, hrun⟩ : ∃ m ∈ s.nodes, m.uuid = canonicalUuid text ∧ (byUuid text).run time s = (.ok m, s) :=
      run_byUuid_of_hasNode ⟨n, hn, huuid⟩
    rw [hrun, h.eq_of_uuid_eq hn hm (hmuuid.trans huuid.symm)]
  · rintro ⟨n, hn, huuid⟩
    exact hnone n hn huuid

theorem resolves_byUuidIn (h : s.Sound) (text environment : String) :
    (byUuidIn text environment).Resolves time s
      fun n => n.uuid = canonicalUuid text ∧ n.attributes.environment = environment := by
  have hlookup : (byUuid text).Resolves time s (·.uuid = canonicalUuid text) := resolves_byUuid h text
  refine .of_cases ?_ ?_
  · rintro n hn ⟨huuid, henvironment⟩
    unfold byUuidIn
    rw [run_bind_of_ok (hlookup.run_of_mem hn huuid), if_pos henvironment]
    rfl
  · intro hnone
    unfold byUuidIn
    by_cases hthere : ∃ n ∈ s.nodes, n.uuid = canonicalUuid text
    · obtain ⟨n, hn, huuid⟩ := hthere
      refine ⟨.noNodeIn n.uuid environment, rfl, ?_⟩
      rw [run_bind_of_ok (hlookup.run_of_mem hn huuid), if_neg fun henvironment => hnone n hn ⟨huuid, henvironment⟩]
      rfl
    · obtain ⟨refusal, hkind, hrun⟩ := hlookup.run_of_not_exists hthere
      exact ⟨refusal, hkind, run_bind_of_error hrun _⟩

/-- Whether a node goes by a name on its network. -/
theorem run_hasHost (text : String) : (hasHost text).run time s = (.ok (decide (∃ n ∈ s.nodes, n.isHost text = true)), s) := by
  have hlist : (onHost text).run time s = (.ok (s.nodesOnHost text), s) := run_ask_of_ok rfl
  unfold hasHost
  rw [run_bind_of_ok hlist]
  refine congrArg (fun b : Bool => ((.ok b : Except Stop Bool), s)) ?_
  rw [Bool.eq_iff_iff, Bool.not_eq_true', List.isEmpty_eq_false_iff_exists_mem, decide_eq_true_iff]
  simp only [Store.nodesOnHost, List.mem_filter]

/-- The nodes that go by a name on their network are told where there are any. -/
theorem run_someOnHost (text : String) :
    (someOnHost text).run time s =
      if ∃ n ∈ s.nodes, n.isHost text = true then (.ok (s.nodes.filter (·.isHost text)), s)
      else (.error (.refused (.noNodeOnHost text)), s) := by
  have hlist : (onHost text).run time s = (.ok (s.nodesOnHost text), s) := run_ask_of_ok rfl
  have hempty : (s.nodesOnHost text).isEmpty = true ↔ ¬∃ n ∈ s.nodes, n.isHost text = true := by
    simp [Store.nodesOnHost, List.filter_eq_nil_iff]
  unfold someOnHost
  rw [run_bind_of_ok hlist]
  by_cases hsome : ∃ n ∈ s.nodes, n.isHost text = true
  · rw [if_pos hsome, if_neg fun h => hempty.mp h hsome]
    rfl
  · rw [if_neg hsome, if_pos (hempty.mpr hsome)]
    rfl

end Roster

/-! ## Calls that keep to one row -/

/-- The UUID that a call goes by, if it goes by one. -/
def Call.uuid? : Call → Option String
  | .findNode (.uuid uuid) | .applyObservation uuid _ | .touchEvent uuid _ _ | .archived uuid | .deleteNode uuid
  | .history uuid _ | .hasExecution _ uuid => some uuid
  | .insertNode e _ => some e.uuid
  | .insertArchive snapshot => some snapshot.uuid
  | .recordExecution e => some e.uuid
  | _ => none

/-- The call goes by no UUID but this one, and takes no node away. -/
inductive Call.KeepsTo (uuid : String) : Call → Prop where
  | aside {c : Call} (h : c.uuid? = none) : KeepsTo uuid c
  | observes (observed : Observation) : KeepsTo uuid (.applyObservation uuid observed)
  | notes (event : NodeEvent) (time : Time) : KeepsTo uuid (.touchEvent uuid event time)
  | asks (name : String) : KeepsTo uuid (.hasExecution name uuid)
  | records (name : String) (result : Int) : KeepsTo uuid (.recordExecution ⟨name, uuid, result⟩)

namespace Call

/-- Rows of the nodes later on: the same nodes in the same order, of which only that of a UUID may have changed. -/
def ChangesOnly (uuid : String) (nodes nodes' : List Node) : Prop :=
  ∃ change : Node → Node, (∀ n : Node, n.Same (change n)) ∧ (∀ n : Node, n.uuid ≠ uuid → change n = n) ∧
    nodes' = nodes.map change

theorem ChangesOnly.refl (uuid : String) (nodes : List Node) : ChangesOnly uuid nodes nodes :=
  ⟨id, Node.Same.refl, fun _ _ => rfl, (List.map_id nodes).symm⟩

theorem ChangesOnly.trans {uuid : String} {nodes nodes' nodes'' : List Node} (h : ChangesOnly uuid nodes nodes')
    (h' : ChangesOnly uuid nodes' nodes'') : ChangesOnly uuid nodes nodes'' := by
  obtain ⟨change, hsame, hothers, rfl⟩ := h
  obtain ⟨change', hsame', hothers', rfl⟩ := h'
  refine ⟨change' ∘ change, fun n => (hsame n).trans (hsame' (change n)), fun n hne => ?_, List.map_map⟩
  rw [Function.comp_apply, hothers n hne, hothers' n hne]

/-- A change to the node of a UUID changes only its row. -/
theorem changesOnly_changeNode (s : Store) (uuid : String) {change : Node → Node} (h : ∀ n : Node, n.Same (change n)) :
    ChangesOnly uuid s.nodes (s.changeNode uuid change).nodes := by
  refine ⟨fun n => if n.uuid = uuid then change n else n, fun n => ?_, fun n hne => if_neg hne, rfl⟩
  dsimp only
  split
  · exact h n
  · exact Node.Same.refl n

variable {uuid : String} {c : Call}

theorem KeepsTo.eq_of_uuid?_eq_some (h : c.KeepsTo uuid) {u : String} (hu : c.uuid? = some u) : u = uuid := by
  cases h with
  | aside hnone =>
    rw [hnone] at hu
    cases hu
  | observes | notes | asks | records =>
    cases hu
    rfl

/-- A call that goes by no UUID writes nothing to the nodes. -/
theorem part_ne_nodes_of_uuid?_eq_none (h : c.uuid? = none) : c.part ≠ some .nodes := by
  cases c with
  | insertNode | applyObservation | touchEvent | deleteNode => cases h
  | _ => simp [part]

/-- After the call only the row of the UUID may be another. -/
theorem KeepsTo.changesOnly (h : c.KeepsTo uuid) (time : Time) (s : Store) :
    ChangesOnly uuid s.nodes (c.after time s).nodes := by
  have hleaves : ∀ c : Call, c.part ≠ some .nodes → ChangesOnly uuid s.nodes (c.after time s).nodes := by
    intro c hpart
    rw [(nodes_of_part_ne s time hpart).1]
    exact .refl uuid s.nodes
  cases h with
  | aside hnone => exact hleaves c (part_ne_nodes_of_uuid?_eq_none hnone)
  | observes observed =>
    obtain ⟨lastId, history, heq⟩ := after_applyObservation s time uuid observed
    rw [heq]
    exact changesOnly_changeNode s uuid fun n => ⟨rfl, rfl, rfl, rfl, rfl⟩
  | notes event time' =>
    rw [after_touchEvent]
    exact changesOnly_changeNode s uuid fun n => ⟨rfl, rfl, rfl, rfl, rfl⟩
  | asks | records => exact hleaves _ (by simp [part])

/-- After any number of such calls only the row of the UUID may be another. -/
theorem changesOnly_replay {calls : List Call} (h : ∀ c ∈ calls, c.KeepsTo uuid) (time : Time) (s : Store) :
    ChangesOnly uuid s.nodes (s.replay (calls.map fun c => (time, c))).nodes := by
  induction calls generalizing s with
  | nil => exact .refl uuid s.nodes
  | cons c calls ih =>
    obtain ⟨hc, hrest⟩ := List.forall_mem_cons.mp h
    exact (hc.changesOnly time s).trans (ih hrest (c.after time s))

end Call

/-- Where only the row of a node may have changed, it is found by its UUID, and every other row is as it was. -/
theorem Store.Sound.of_changesOnly {s t : Store} (h : s.Sound) {n : Node} (hn : n ∈ s.nodes)
    (hchanges : Call.ChangesOnly n.uuid s.nodes t.nodes) :
    (∃ row, t.findNode (.uuid n.uuid) = some row ∧ n.Same row) ∧ ∀ m ∈ s.nodes, m ≠ n → m ∈ t.nodes := by
  obtain ⟨change, hsame, hothers, hnodes⟩ := hchanges
  have huuids : t.nodes.map (·.uuid) = s.nodes.map (·.uuid) := (Call.SameNodes.identities ⟨change, hsame, hnodes⟩).2
  have hmem : ∀ m ∈ s.nodes, change m ∈ t.nodes := fun m hm => hnodes ▸ List.mem_map_of_mem hm
  refine ⟨⟨change n, ?_, hsame n⟩, fun m hm hne => ?_⟩
  · have hfind := find?_eq_some_of_nodup (huuids ▸ h.uuids) (hmem n hn)
    rwa [(hsame n).uuid] at hfind
  · have hkept := hmem m hm
    rwa [hothers m fun huuid => hne (h.eq_of_uuid_eq hn hm huuid)] at hkept

namespace Delivery

variable {uuid : String}

theorem keepsTo_pending {node : Node} (h : node.uuid = uuid) : (pending node).Asks (Call.KeepsTo uuid) := by
  have hamong : ∀ (queries : List Query) (found : Dictionary String),
      (pendingAmong node found queries).Asks (Call.KeepsTo uuid) := by
    intro queries
    induction queries with
    | nil => exact fun found => asks_pure found
    | cons query rest ih =>
      intro found
      unfold pendingAmong
      refine (asks_ask (.aside rfl)).bind fun targets => asks_ite (fun _ => ?_) fun _ => ih found
      refine (asks_ask ?_).bind fun executed => ?_
      · rw [h]
        exact .asks query.name
      · cases executed with
        | true => exact ih found
        | false => exact ih _
  exact (asks_ask (.aside rfl)).bind fun queries => hamong queries .empty

theorem keepsTo_record (h : canonicalUuid uuid = uuid) (name : String) (result : Int) :
    (record name uuid result).Asks (Call.KeepsTo uuid) := by
  unfold record
  refine (asks_ask (.aside rfl)).bind fun found => ?_
  cases found with
  | none => exact asks_refuse _
  | some query =>
    dsimp only
    rw [h]
    refine (asks_ask (.records name result)).bind fun recorded => ?_
    cases recorded with
    | true => exact asks_pure ()
    | false => exact asks_refuse _

theorem keepsTo_recordAll (h : canonicalUuid uuid = uuid) (report : Report) (statuses : List (String × Int)) :
    (recordAll uuid report statuses).Asks (Call.KeepsTo uuid) := by
  induction statuses generalizing report with
  | nil => exact asks_pure report
  | cons status rest ih =>
    unfold recordAll
    refine (keepsTo_record h status.1 status.2).attempt.bind fun outcome => ?_
    cases outcome with
    | ok _ => exact ih _
    | error why =>
      dsimp only
      split
      · exact ih _
      · exact ih _
      · exact asks_refuse why

end Delivery

theorem Roster.keepsTo_noteEvent {uuid : String} (h : canonicalUuid uuid = uuid) (event : NodeEvent) :
    (noteEvent uuid event).Asks (Call.KeepsTo uuid) := by
  refine asks_noteEvent uuid event fun time => ?_
  rw [h]
  exact .notes event time

/-! ## Operations of nodes -/

/-- The key that an operation of a node comes under, where nothing else but that no node has the key can make it fail. -/
def Operation.caller? : Operation → Option String
  | .updateMetadata key _ | .updateAddress key _ | .poll key | .submitResults key _ => some key
  | _ => none

/-- An operation reaches the row of a node: it succeeds, and wherever it makes a call that goes by a UUID, this is the UUID of the
node in canonical form, and in the store as it is then the row of that UUID is the one of the node. Every other row is afterwards
what it was. -/
structure Operation.ReachesRow (settings : Settings) (op : Operation) (time : Time) (s : Store) (n : Node) : Prop where
  succeeds : ∃ answer, (op.run settings time s).1 = .ok answer
  reaches : ∀ before c after uuid, (op.program settings).calls time s = before ++ c :: after → c.uuid? = some uuid →
    uuid = canonicalUuid n.uuid ∧
      ∃ row, (s.replay (before.map fun c => (time, c))).findNode (.uuid uuid) = some row ∧ n.Same row
  others : ∀ m ∈ s.nodes, m ≠ n → m ∈ (op.run settings time s).2.nodes

namespace Operation

variable {settings : Settings} {s : Store} {n : Node} {op : Operation} {key : String} {time : Time}

/-- An operation that makes only calls that keep to a node reaches its row. -/
theorem ReachesRow.of_keepsTo (h : s.Sound) (hn : n ∈ s.nodes) {answer : Answer} {t : Store}
    (hrun : (op.program settings).run time s = (.ok answer, t))
    (hcalls : ∀ c ∈ (op.program settings).calls time s, c.KeepsTo n.uuid) : op.ReachesRow settings time s n := by
  refine ⟨⟨answer, congrArg Prod.fst hrun⟩, fun before c after uuid hsplit huuid => ?_, ?_⟩
  · rw [hsplit, List.forall_mem_append, List.forall_mem_cons] at hcalls
    obtain ⟨hbefore, hc, -⟩ := hcalls
    obtain rfl : uuid = n.uuid := hc.eq_of_uuid?_eq_some huuid
    exact ⟨(h.canonical n hn).symm, (h.of_changesOnly hn (Call.changesOnly_replay hbefore time s)).1⟩
  · have hfollow := Program.follow_calls (.fleet op) (op.program settings) time s
    rw [Store.follow, List.map_map] at hfollow
    unfold run
    rw [← hfollow]
    exact (h.of_changesOnly hn (Call.changesOnly_replay hcalls time s)).2

/-- What starts by looking up the node of a key keeps to that node if the rest does. -/
theorem keepsTo_byKey_bind {α : Type} (h : s.Sound) (hn : n ∈ s.nodes) (hkey : n.key = canonicalKey key) {f : Node → Program α}
    (hf : ∀ c ∈ (f n).calls time s, c.KeepsTo n.uuid) : ∀ c ∈ (Roster.byKey key >>= f).calls time s, c.KeepsTo n.uuid := by
  have hlookup : (Roster.byKey key).calls time s = [.findNode (.key (canonicalKey key))] := by
    have hask : (Program.ask (.findNode (.key (canonicalKey key)))).run time s = _ := run_ask_of_ok rfl
    unfold Roster.byKey
    rw [calls_bind_of_ok hask, calls_ask]
    cases s.findNode (.key (canonicalKey key)) <;> rfl
  rw [calls_bind_of_ok (h.run_byKey hn hkey time), hlookup, List.singleton_append, List.forall_mem_cons]
  exact ⟨.aside rfl, hf⟩

theorem reachesRow_updateMetadata (h : s.Sound) (hn : n ∈ s.nodes) (hkey : n.key = canonicalKey key) (observed : Observation) :
    (updateMetadata key observed).ReachesRow settings time s n := by
  have hcanonical := h.canonical n hn
  have hfind : s.nodes.find? (·.uuid == canonicalUuid n.uuid) = some n := by
    rw [hcanonical]
    exact Store.find?_eq_some_of_nodup h.uuids hn
  have hobserve : (Roster.observe n.uuid observed).run time s = _ := Roster.run_observe_of_find hfind observed
  -- the row that the observation is answered with has the same UUID, so that the event is noted on it
  obtain ⟨-, hthere⟩ := Roster.hasNode_of_run_observe hobserve
  obtain ⟨_, t, hnote⟩ : (Roster.noteEvent n.uuid .status).Answered time _ := Roster.answered_noteEvent hthere .status
  have hrun : (Fleet.updateMetadata key observed).run time s =
      (.ok (n.revised time (Revision.plan n.attributes.readings observed)), t) :=
    (run_bind_of_ok (h.run_byKey hn hkey time) _).trans ((run_bind_of_ok hobserve _).trans (run_bind_of_ok hnote _))
  refine .of_keepsTo h hn (run_map_of_ok hrun Answer.node) ?_
  rw [program, calls_map]
  refine keepsTo_byKey_bind h hn hkey ?_
  rw [calls_bind_of_ok hobserve, calls_bind_pure, Roster.observe, calls_ask, hcanonical, List.singleton_append,
    List.forall_mem_cons]
  exact ⟨.observes observed, (Roster.keepsTo_noteEvent hcanonical .status).calls time _⟩

theorem reachesRow_updateAddress (h : s.Sound) (hn : n ∈ s.nodes) (hkey : n.key = canonicalKey key) (ip : String) :
    (updateAddress key ip).ReachesRow settings time s n := by
  have hcanonical := h.canonical n hn
  have hfind : s.nodes.find? (·.uuid == canonicalUuid n.uuid) = some n := by
    rw [hcanonical]
    exact Store.find?_eq_some_of_nodup h.uuids hn
  have hrun : (Fleet.updateAddress key ip).run time s = _ :=
    (run_bind_of_ok (h.run_byKey hn hkey time) _).trans (Roster.run_observe_of_find hfind (.address ip))
  refine .of_keepsTo h hn (run_map_of_ok hrun Answer.node) ?_
  rw [program, calls_map]
  refine keepsTo_byKey_bind h hn hkey ?_
  rw [Roster.observeAddress, Roster.observe, calls_ask, hcanonical, List.forall_mem_singleton]
  exact .observes (.address ip)

theorem reachesRow_poll (h : s.Sound) (hn : n ∈ s.nodes) (hkey : n.key = canonicalKey key) :
    (poll key).ReachesRow settings time s n := by
  refine .of_keepsTo h hn (run_map_of_ok (Fleet.run_poll h hn hkey time) Answer.pending) ?_
  rw [program, calls_map]
  refine keepsTo_byKey_bind h hn hkey (Program.Asks.calls ?_ time s)
  refine (Delivery.keepsTo_pending rfl).bind fun pending => ?_
  exact (Roster.keepsTo_noteEvent (h.canonical n hn) .queryRead).bind fun _ => asks_pure pending

theorem reachesRow_submitResults (h : s.Sound) (hn : n ∈ s.nodes) (hkey : n.key = canonicalKey key) (statuses : Dictionary Int) :
    (submitResults key statuses).ReachesRow settings time s n := by
  obtain ⟨t, hrun, -⟩ := Fleet.run_submitResults h hn hkey statuses time
  refine .of_keepsTo h hn (run_map_of_ok hrun Answer.report) ?_
  rw [program, calls_map]
  refine keepsTo_byKey_bind h hn hkey (Program.Asks.calls ?_ time s)
  refine (Delivery.keepsTo_recordAll (h.canonical n hn) .empty statuses.entries).bind fun report => ?_
  refine asks_ite (fun _ => asks_pure report) fun _ => ?_
  exact (Roster.keepsTo_noteEvent (h.canonical n hn) .queryWrite).bind fun _ => asks_pure report

/-- An operation of a node reaches the row of the node of its key. -/
theorem reachesRow_of_caller? (h : s.Sound) (hn : n ∈ s.nodes) (hop : op.caller? = some key) (hkey : n.key = canonicalKey key)
    (time : Time) : op.ReachesRow settings time s n := by
  cases op with
  | updateMetadata key' observed =>
    cases hop
    exact reachesRow_updateMetadata h hn hkey observed
  | updateAddress key' ip =>
    cases hop
    exact reachesRow_updateAddress h hn hkey ip
  | poll key' =>
    cases hop
    exact reachesRow_poll h hn hkey
  | submitResults key' statuses =>
    cases hop
    exact reachesRow_submitResults h hn hkey statuses
  | _ => cases hop

/-- An operation of a node under a key that no node has is refused as not found, and changes nothing. -/
theorem run_of_caller?_of_ne (hop : op.caller? = some key) (hkey : ∀ n ∈ s.nodes, n.key ≠ canonicalKey key) (time : Time) :
    op.run settings time s = (.error (.refused .noNodeWithKey), s) := by
  have hlookup := Roster.run_byKey_of_ne hkey time
  cases op with
  | updateMetadata | updateAddress | poll | submitResults =>
    cases hop
    exact run_map_of_error (run_bind_of_error hlookup _) _
  | _ => cases hop

end Operation

/-- Look-ups agree. By its key or by its UUID, however these are spelled, a text finds the one live node that has its canonical
form, every check of existence says the same, and the calls of an operation under a key reach the row of its node alone. -/
theorem Roster.lookups_agree {settings : Settings} {s : Store} (hs : Reachable settings s) (time : Time) :
    (∀ text,
      (byKey text).Resolves time s (·.key = canonicalKey text) ∧
      (byUuid text).Resolves time s (·.uuid = canonicalUuid text) ∧
      (∀ environment, (byUuidIn text environment).Resolves time s
        fun n => n.uuid = canonicalUuid text ∧ n.attributes.environment = environment) ∧
      (hasKey text).run time s = (.ok (decide (∃ n ∈ s.nodes, n.key = canonicalKey text)), s) ∧
      (hasUuid text).run time s = (.ok (decide (∃ n ∈ s.nodes, n.uuid = canonicalUuid text)), s) ∧
      (hasHost text).run time s = (.ok (decide (∃ n ∈ s.nodes, n.isHost text = true)), s) ∧
      ((∃ found, ((someOnHost text).run time s).1 = .ok found) ↔ ∃ n ∈ s.nodes, n.isHost text = true)) ∧
    (∀ n ∈ s.nodes, (byKey n.key).run time s = (.ok n, s) ∧ (byUuid n.uuid).run time s = (.ok n, s) ∧
      ∀ environment, (∃ m, ((byUuidIn n.uuid environment).run time s).1 = .ok m) ↔ environment = n.attributes.environment) ∧
    ∀ op key, Operation.caller? op = some key →
      ((∀ n ∈ s.nodes, n.key ≠ canonicalKey key) →
        ∃ refusal, refusal.kind = .notFound ∧ op.run settings time s = (.error (.refused refusal), s)) ∧
      ∀ n ∈ s.nodes, n.key = canonicalKey key → op.ReachesRow settings time s n := by
  have h : s.Sound := .of_reachable hs
  refine ⟨fun text => ⟨resolves_byKey h text, resolves_byUuid h text, resolves_byUuidIn h text, (resolves_byKey h text).run_finds,
    (resolves_byUuid h text).run_finds, run_hasHost text, ?_⟩, fun n hn => ?_, fun op key hop => ⟨fun hnone => ?_, ?_⟩⟩
  · rw [run_someOnHost]
    split
    · rename_i hsome
      exact ⟨fun _ => hsome, fun _ => ⟨_, rfl⟩⟩
    · rename_i hnone
      refine ⟨?_, fun hsome => absurd hsome hnone⟩
      rintro ⟨found, hfound⟩
      cases hfound
  · have hkey : n.key = canonicalKey n.key := (Store.canonicalKey_of_reachable hs n hn).symm
    have huuid : n.uuid = canonicalUuid n.uuid := (h.canonical n hn).symm
    refine ⟨(resolves_byKey h n.key).run_of_mem hn hkey, (resolves_byUuid h n.uuid).run_of_mem hn huuid, fun environment => ?_⟩
    rw [(resolves_byUuidIn h n.uuid environment).succeeds]
    constructor
    · rintro ⟨m, hm, hmuuid, rfl⟩
      rw [h.eq_of_uuid_eq hn hm (hmuuid.trans huuid.symm)]
    · rintro rfl
      exact ⟨n, hn, huuid, rfl⟩
  · exact ⟨.noNodeWithKey, rfl, Operation.run_of_caller?_of_ne hop hnone time⟩
  · intro n hn hkey
    exact Operation.reachesRow_of_caller? h hn hop hkey time

/-- A node that enrolled with a sharp s in its UUID and capitals in its key, and blanks around both, is found however they are
spelled, in the one environment it is in; it polls under another spelling of its key, and no other key reaches it. -/
theorem Roster.lookups_agree_on_spellings :
    let settings : Settings := .embedded ["prod", "dev"]
    let s := Operation.replay settings .empty
      [(1, .enroll " straße " " KÉY " { Attributes.blank with environment := "prod" })]
    ∃ n ∈ s.nodes, (n.key = "kéy" ∧ n.uuid = "STRASSE") ∧
      (byKey "Kéy\n").run 5 s = (.ok n, s) ∧ (byUuid "Strasse").run 5 s = (.ok n, s) ∧
      (hasKey "key").run 5 s = (.ok false, s) ∧ (hasUuid "straSSe").run 5 s = (.ok true, s) ∧
      (∃ m, ((byUuidIn n.uuid "prod").run 5 s).1 = .ok m) ∧ (¬∃ m, ((byUuidIn n.uuid "dev").run 5 s).1 = .ok m) ∧
      (Operation.poll " KÉY").ReachesRow settings 5 s n ∧
      ∃ refusal, refusal.kind = .notFound ∧
        (Operation.updateAddress "key" "10.0.0.1").run settings 5 s = (.error (.refused refusal), s) := by
  intro settings s
  have hs : Reachable settings s := reachable_empty.replay _
  obtain ⟨n, hn, hkey, huuid, henvironment⟩ :
      ∃ n ∈ s.nodes, n.key = "kéy" ∧ n.uuid = "STRASSE" ∧ n.attributes.environment = "prod" := by decide +kernel
  have hnone : ∀ n ∈ s.nodes, n.key ≠ canonicalKey "key" := by decide +kernel
  have hsome : ∃ n ∈ s.nodes, n.uuid = canonicalUuid "straSSe" := by decide +kernel
  obtain ⟨hlookups, hlive, hoperations⟩ := lookups_agree hs 5
  obtain ⟨hbyKey, -, -, -⟩ := hlookups "Kéy\n"
  obtain ⟨-, hbyUuid, -, -⟩ := hlookups "Strasse"
  obtain ⟨-, -, -, hhasKey, -⟩ := hlookups "key"
  obtain ⟨-, -, -, -, hhasUuid, -⟩ := hlookups "straSSe"
  obtain ⟨-, -, hin⟩ := hlive n hn
  refine ⟨n, hn, ⟨hkey, huuid⟩, ?_, ?_, ?_, ?_, (hin "prod").mpr henvironment.symm, ?_, ?_, ?_⟩
  · exact hbyKey.run_of_mem hn (by rw [hkey]; decide +kernel)
  · exact hbyUuid.run_of_mem hn (by rw [huuid]; decide +kernel)
  · rw [hhasKey, decide_eq_false]
    rintro ⟨m, hm, hmkey⟩
    exact hnone m hm hmkey
  · rw [hhasUuid, decide_eq_true hsome]
  · rw [hin "dev", henvironment]
    decide
  · exact (hoperations (.poll " KÉY") " KÉY" rfl).2 n hn (by rw [hkey]; decide +kernel)
  · exact (hoperations (.updateAddress "key" "10.0.0.1") "key" rfl).1 hnone

end FleetControl
