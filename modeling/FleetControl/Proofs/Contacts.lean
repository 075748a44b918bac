import FleetControl.Proofs.Clocks
import FleetControl.Proofs.Enrollments
import FleetControl.Proofs.Neighbours

/-!
# When a node was last heard of

A node is heard of when it reports what it observes, is seen with an address, asks for its queries or has a result recorded, and by
nothing else (`Turn.contact?`). Each of these writes down its last reading of the clock as the time of the last change of the node
and, but for an address, as that of an event; a node that is enrolled starts with the time of its insertion, and any other operation
leaves the row of a node as it is or takes it away (`Turn.Remakes`). So over any operations that are carried out one after another,
by a clock that does not run backwards, the times of a node are those of the latest turns in which it was heard of
(`Operation.times_of_diary`). Where the steps of operations are taken in turns, a reading may be written down after a later one.
-/

namespace FleetControl

open Program (runBy_bind_of_ok runBy_bind_of_error runBy_ask_of_ok runBy_ask_of_error runBy_map)

namespace LastSeen

theorem get_never (event : NodeEvent) : never.get event = none := by cases event <;> rfl

theorem get_set (l : LastSeen) (event : NodeEvent) (time : Time) (other : NodeEvent) :
    (l.set event time).get other = if event = other then some time else l.get other := by
  cases event <;> cases other <;> rfl

end LastSeen

/-- The row of a node after it was heard of at some time, by an event or without one. -/
structure Node.Heard (n row : Node) (event : Option NodeEvent) (time : Time) : Prop where
  same : n.Same row
  updatedAt : row.updatedAt = time
  lastSeen : row.lastSeen = event.elim n.lastSeen fun event => n.lastSeen.set event time

theorem Node.heard_touched (n : Node) (event : NodeEvent) (time : Time) : n.Heard (n.touched event time) (some event) time :=
  ⟨⟨rfl, rfl, rfl, rfl, rfl⟩, rfl, rfl⟩

/-- A change to one of the nodes is a change of its row. -/
theorem Store.Sound.nodes_changeNode {s : Store} (h : s.Sound) {n : Node} (hn : n ∈ s.nodes) (change : Node → Node) :
    (s.changeNode n.uuid change).nodes = s.nodes.map fun m => if m = n then change n else m := by
  rw [h.changeNode_uuid hn]
  refine List.map_congr_left fun m _ => ?_
  split
  · rename_i heq
    rw [heq]
  · rfl

/-! ## Programs of nodes by a clock -/

/-- A program that writes to other parts of the store leaves the nodes. -/
theorem Program.nodes_runBy_of_asks {α : Type} {p : Program α} (hp : p.Asks fun c => c.part ≠ some .nodes)
    (clock : Nat → Time) (taken : Nat) (s : Store) : (p.runBy clock taken s).2.2.nodes = s.nodes := by
  refine runBy_preserves (P := fun t => t.nodes = s.nodes) ?_ hp rfl
  intro c hc time t ht
  exact (Call.nodes_of_part_ne t time hc).1.trans ht

namespace Roster

variable {clock : Nat → Time} {taken : Nat} {s s' : Store} {n : Node}

/-- A program that starts by looking a node up by its key goes on with a node of that key, or stops. -/
theorem runBy_byKey_bind {α : Type} (key : String) (f : Node → Program α) :
    (∃ n ∈ s.nodes, n.key = canonicalKey key ∧ (byKey key >>= f).runBy clock taken s = (f n).runBy clock taken s) ∨
      ∃ why, (byKey key >>= f).runBy clock taken s = (.error why, taken, s) := by
  have hask : (Program.ask (.findNode (.key (canonicalKey key)))).runBy clock taken s =
      (.ok (s.findNode (.key (canonicalKey key))), taken, s) := runBy_ask_of_ok rfl
  cases hfound : s.findNode (.key (canonicalKey key)) with
  | none =>
    refine .inr ⟨.refused .noNodeWithKey, runBy_bind_of_error ?_ f⟩
    unfold byKey
    rw [runBy_bind_of_ok hask, hfound]
    rfl
  | some n =>
    obtain ⟨hn, hkey⟩ := Store.of_find?_eq_some hfound
    refine .inl ⟨n, hn, hkey, runBy_bind_of_ok ?_ f⟩
    unfold byKey
    rw [runBy_bind_of_ok hask, hfound]
    rfl

/-- An event of a node is noted with the next reading, whatever was written to other parts of the store before. -/
theorem runBy_noteEvent (h : s.Sound) (hn : n ∈ s.nodes) (hnodes : s'.nodes = s.nodes) (event : NodeEvent) :
    ∃ t, (noteEvent n.uuid event).runBy clock taken s' = (.ok (), taken + 1, t) ∧
      t.nodes = s.nodes.map fun m => if m = n then n.touched event (clock taken) else m := by
  have hfind : s'.nodes.find? (·.uuid == n.uuid) = some n := by
    rw [hnodes]
    exact Store.find?_eq_some_of_nodup h.uuids hn
  refine ⟨s'.changeNode n.uuid fun m => m.touched event (clock taken), ?_, ?_⟩
  · have hnow : Program.now.runBy clock taken s' = (.ok (clock taken), taken + 1, s') := rfl
    unfold noteEvent
    rw [h.canonical n hn, runBy_bind_of_ok hnow]
    refine runBy_ask_of_ok (c := .touchEvent n.uuid event (clock taken)) ?_
    simp only [Call.exec, Call.done, Store.touchEvent, Store.nodeWith, hfind]
    rfl
  · rw [← h.nodes_changeNode hn fun m => m.touched event (clock taken)]
    simp only [Store.changeNode, hnodes]

/-- An observation of a node is applied with the next reading. -/
theorem runBy_observe (h : s.Sound) (hn : n ∈ s.nodes) (observed : Observation) :
    ∃ row t, (observe n.uuid observed).runBy clock taken s = (.ok row, taken + 1, t) ∧ n.Heard row none (clock taken) ∧
      t.Sound ∧ t.nodes = s.nodes.map fun m => if m = n then row else m := by
  have hfind : s.nodes.find? (·.uuid == n.uuid) = some n := Store.find?_eq_some_of_nodup h.uuids hn
  let revision := Revision.plan n.attributes.readings observed
  refine ⟨n.revised (clock taken) revision, (Call.applyObservation n.uuid observed).after (clock taken) s, ?_,
    ⟨⟨rfl, rfl, rfl, rfl, rfl⟩, rfl, rfl⟩, ?_, ?_⟩
  · unfold observe
    rw [h.canonical n hn]
    refine runBy_ask_of_ok ?_
    simp only [Call.after, Call.exec, Store.applyObservation, Store.nodeWith, hfind]
    rfl
  · have hproper : (Call.applyObservation n.uuid observed).Proper (.embedded []) := .applyObservation _ _ (h.canonical n hn)
    exact h.after hproper (clock taken)
  · rw [← h.nodes_changeNode hn fun m => m.revised (clock taken) revision]
    obtain ⟨lastId, history, hafter⟩ := Call.after_applyObservation s (clock taken) n.uuid observed
    rw [hafter, Store.revision, hfind]
    rfl

/-- An enrolment leaves the nodes, or inserts a new one with the last reading. -/
theorem runBy_enroll (uuid key : String) (attributes : Attributes) :
    (∃ outcome taken', (enroll uuid key attributes).runBy clock taken s = (outcome, taken', s)) ∨
      let e := Enrollment.of uuid key attributes
      s.isTaken e = false ∧
        (enroll uuid key attributes).runBy clock taken s =
          (.ok (s.newNode (clock taken) e), taken + 1, s.enrolled (clock taken) e) := by
  unfold enroll
  split
  · exact .inl ⟨_, _, rfl⟩
  · have hask : (Program.ask (.findNode (.key (canonicalKey key)))).runBy clock taken s =
        (.ok (s.findNode (.key (canonicalKey key))), taken, s) := runBy_ask_of_ok rfl
    rw [runBy_bind_of_ok hask]
    cases s.findNode (.key (canonicalKey key)) with
    | some n => exact .inl ⟨_, _, rfl⟩
    | none =>
      cases htaken : s.isTaken (.of uuid key attributes) with
      | true => exact .inl ⟨_, _, runBy_ask_of_error (Call.exec_insertNode_of_taken _ htaken _)⟩
      | false => exact .inr ⟨htaken, runBy_ask_of_ok (Call.exec_insertNode_of_free _ htaken)⟩

end Roster

/-! ## Contacts -/

/-- The node that an answered operation heard of, told by its key, and the event that was noted, if any. -/
def Operation.contact? : Operation → Answer → Option (String × Option NodeEvent)
  | .updateMetadata key _, _ => some (canonicalKey key, some .status)
  | .updateAddress key _, _ => some (canonicalKey key, none)
  | .poll key, _ => some (canonicalKey key, some .queryRead)
  | .submitResult key _ _, _ => some (canonicalKey key, some .queryWrite)
  | .submitResults key _, .report report => if report.recorded = [] then none else some (canonicalKey key, some .queryWrite)
  | _, _ => none

namespace Turn

/-- The node that was heard of in a turn, and the event that was noted, if any. A refused operation heard of none. -/
def contact? (x : Turn) : Option (String × Option NodeEvent) := x.outcome.toOption.bind x.op.contact?

/-- The node of a key was heard of in the turn. -/
def hears (key : String) (x : Turn) : Bool := x.contact?.any (·.1 == key)

/-- An event of the node of a key was noted in the turn. -/
def notes (key : String) (event : NodeEvent) (x : Turn) : Bool := x.contact? == some (key, some event)

/-- The time of the latest of the turns that are of some sort. -/
def latest (holds : Turn → Bool) (turns : List Turn) : Option Time := ((turns.filter holds).map (·.time)).max?

/-- What a turn makes of the rows of the nodes: it leaves them, takes some away, adds one, or changes the one of the node that was
heard of. -/
inductive Remakes (x : Turn) (nodes : List Node) : List Node → Prop where
  | leaves (hcontact : x.contact? = none) : Remakes x nodes nodes
  | removes {rest : List Node} (actor : String) (uuids : List String) (hop : x.op = .nodeAction actor .delete uuids)
      (hrest : rest.Sublist nodes) : Remakes x nodes rest
  | enrols {row : Node} (hcontact : x.contact? = none) (houtcome : x.outcome = .ok (.node row))
      (hnew : ∀ n ∈ nodes, n.uuid ≠ row.uuid) (hcreated : row.createdAt = x.time) (hupdated : row.updatedAt = x.time)
      (hnever : row.lastSeen = .never) : Remakes x nodes (nodes ++ [row])
  | hears {n row : Node} {event : Option NodeEvent} (hcontact : x.contact? = some (n.key, event)) (hn : n ∈ nodes)
      (hheard : n.Heard row event x.time) : Remakes x nodes (nodes.map fun m => if m = n then row else m)

end Turn

/-- What a run by a clock comes to that leaves the nodes unless it has a result that tells of a contact, and then it hears of that
node at its last reading. -/
inductive Program.Contacts {α : Type} (clock : Nat → Time) (s : Store) (contact? : α → Option (String × Option NodeEvent)) :
    Except Stop α × Nat × Store → Prop where
  | refused (why : Stop) (taken : Nat) {t : Store} (hnodes : t.nodes = s.nodes) : Contacts clock s contact? (.error why, taken, t)
  | silent {a : α} (hcontact : contact? a = none) (taken : Nat) {t : Store} (hnodes : t.nodes = s.nodes) :
      Contacts clock s contact? (.ok a, taken, t)
  | hears {a : α} {n row : Node} {event : Option NodeEvent} (hcontact : contact? a = some (n.key, event)) (hn : n ∈ s.nodes)
      (taken : Nat) (hheard : n.Heard row event (clock taken)) {t : Store}
      (hnodes : t.nodes = s.nodes.map fun m => if m = n then row else m) : Contacts clock s contact? (.ok a, taken + 1, t)

namespace Program.Contacts

variable {α β : Type} {clock : Nat → Time} {taken : Nat} {s s' : Store} {contact? : β → Option (String × Option NodeEvent)}

/-- A change to the result tells of the same contacts. -/
theorem bind_pure {p : Program α} {f : α → β} (h : Contacts clock s (fun a => contact? (f a)) (p.runBy clock taken s')) :
    Contacts clock s contact? ((p >>= fun a => pure (f a)).runBy clock taken s') := by
  rw [runBy_bind]
  generalize p.runBy clock taken s' = run at h
  cases h with
  | refused why taken' hnodes => exact .refused why taken' hnodes
  | silent hcontact taken' hnodes => exact .silent hcontact taken' hnodes
  | hears hcontact hn taken' hheard hnodes => exact .hears hcontact hn taken' hheard hnodes

theorem map {p : Program α} {f : α → β} (h : Contacts clock s (fun a => contact? (f a)) (p.runBy clock taken s')) :
    Contacts clock s contact? ((f <$> p).runBy clock taken s') := by
  rw [map_eq_pure_bind]
  exact h.bind_pure

/-- After a part that leaves the nodes the rest makes contact or does not. -/
theorem bind_of_asks {p : Program α} (hp : p.Asks fun c => c.part ≠ some .nodes) {f : α → Program β}
    (hf : ∀ a taken' s', s'.nodes = s.nodes → Contacts clock s contact? ((f a).runBy clock taken' s')) :
    Contacts clock s contact? ((p >>= f).runBy clock taken s) := by
  have hkept := nodes_runBy_of_asks hp clock taken s
  rw [runBy_bind]
  generalize p.runBy clock taken s = run at hkept
  obtain ⟨_ | a, taken', s'⟩ := run
  · exact .refused _ taken' hkept
  · exact hf a taken' s' hkept

/-- After its node is looked up by a key, the rest makes contact or does not. -/
theorem byKey_bind {key : String} {f : Node → Program β}
    (hf : ∀ n ∈ s.nodes, n.key = canonicalKey key → Contacts clock s contact? ((f n).runBy clock taken s)) :
    Contacts clock s contact? ((Roster.byKey key >>= f).runBy clock taken s) := by
  rcases Roster.runBy_byKey_bind key f with ⟨n, hn, hkey, hrun⟩ | ⟨why, hrun⟩ <;> rw [hrun]
  · exact hf n hn hkey
  · exact .refused why taken rfl

/-- To note an event makes contact. -/
theorem noteEvent (h : s.Sound) {n : Node} (hn : n ∈ s.nodes) (hnodes : s'.nodes = s.nodes) {event : NodeEvent}
    {contact? : Unit → Option (String × Option NodeEvent)} (hcontact : contact? () = some (n.key, some event)) :
    Contacts clock s contact? ((Roster.noteEvent n.uuid event).runBy clock taken s') := by
  obtain ⟨t, hrun, ht⟩ := Roster.runBy_noteEvent h hn hnodes event
  rw [hrun]
  exact .hears hcontact hn taken (n.heard_touched event _) ht

/-- To apply an observation makes contact. -/
theorem observe (h : s.Sound) {n : Node} (hn : n ∈ s.nodes) (observed : Observation)
    {contact? : Node → Option (String × Option NodeEvent)} (hcontact : ∀ row, contact? row = some (n.key, none)) :
    Contacts clock s contact? ((Roster.observe n.uuid observed).runBy clock taken s) := by
  obtain ⟨row, t, hrun, hheard, -, ht⟩ := Roster.runBy_observe h hn observed
  rw [hrun]
  exact .hears (hcontact row) hn taken hheard ht

/-- To note an event of a node that an observation was applied to makes contact. -/
theorem observe_noteEvent (h : s.Sound) {n : Node} (hn : n ∈ s.nodes) (observed : Observation) {event : NodeEvent}
    {contact? : Node → Option (String × Option NodeEvent)} (hcontact : ∀ row, contact? row = some (n.key, some event)) :
    Contacts clock s contact?
      ((do
        let row ← Roster.observe n.uuid observed
        Roster.noteEvent row.uuid event
        return row : Program Node).runBy clock taken s) := by
  obtain ⟨row, t, hrun, hheard, hsound, ht⟩ := Roster.runBy_observe h hn observed
  have hrow : row ∈ t.nodes := by
    rw [ht]
    exact List.mem_map.mpr ⟨n, hn, if_pos rfl⟩
  obtain ⟨t', hrun', ht'⟩ := Roster.runBy_noteEvent (s := t) hsound hrow rfl event
  rw [runBy_bind_of_ok hrun, runBy_bind_of_ok hrun']
  have hnoted : n.Heard (row.touched event (clock (taken + 1))) (some event) (clock (taken + 1)) := by
    refine ⟨hheard.same.trans (row.heard_touched event _).same, rfl, ?_⟩
    exact congrArg (fun l : LastSeen => l.set event (clock (taken + 1))) hheard.lastSeen
  refine .hears (hcontact row) hn (taken + 1) hnoted ?_
  rw [ht', ht, List.map_map]
  refine List.map_congr_left fun m hm => ?_
  simp only [Function.comp_apply]
  by_cases heq : m = n
  · rw [if_pos heq, if_pos rfl, if_pos heq]
  · have hne : m ≠ row := by
      rintro rfl
      exact heq (h.eq_of_uuid_eq hn hm hheard.same.uuid)
    rw [if_neg heq, if_neg hne, if_neg heq]

/-- A program of other parts makes no contact. -/
theorem of_asks {p : Program β} (hp : p.Asks fun c => c.part ≠ some .nodes) (hcontact : ∀ b, contact? b = none) :
    Contacts clock s contact? (p.runBy clock taken s) := by
  have hkept := nodes_runBy_of_asks hp clock taken s
  generalize p.runBy clock taken s = run at hkept
  obtain ⟨_ | b, taken', s'⟩ := run
  · exact .refused _ taken' hkept
  · exact .silent (hcontact b) taken' hkept

end Program.Contacts

/-! ## What each operation makes of the nodes -/

namespace Operation

variable {settings : Settings} {clock : Nat → Time} {taken : Nat} {s : Store}

/-- An administrator writes to other parts of the store than the nodes, or removes nodes. -/
theorem asks_of_key?_eq_none (settings : Settings) {op : Operation} (hop : op.key? = none) :
    (op.program settings).Asks fun c =>
      c.part ≠ some .nodes ∨ (∃ actor uuids, op = .nodeAction actor .delete uuids) ∧ ∃ uuid, c = .deleteNode uuid := by
  refine (op.asks_makes settings).mono fun c hc => ?_
  rcases hc with hreads | hwrites
  · rw [hreads]
    exact .inl nofun
  · cases op with
    | createQuery | createCarve =>
      obtain ⟨_, _, -, rfl⟩ := hwrites
      exact .inl nofun
    | queryAction =>
      obtain ⟨_, -, rfl⟩ := hwrites
      exact .inl nofun
    | nodeAction actor action uuids =>
      rcases hwrites with ⟨_, _, rfl⟩ | ⟨rfl, uuid, rfl⟩
      · exact .inl nofun
      · exact .inr ⟨⟨actor, uuids, rfl⟩, uuid, rfl⟩
    | addUser | ensureAdmin =>
      obtain ⟨-, rfl⟩ := hwrites
      exact .inl nofun
    | setAdmin | setPermissions =>
      obtain rfl := hwrites
      exact .inl nofun
    | authorize | listQueries | nodeStats => exact hwrites.elim
    | _ => cases hop

/-- The operation of a node that is there makes contact where it tells of one. -/
theorem contacts_of_key? (h : s.Sound) {op : Operation} {key : String} (hop : op.key? = some key)
    (hne : ∀ uuid key attributes, op ≠ .enroll uuid key attributes) :
    Program.Contacts clock s op.contact? ((op.program settings).runBy clock taken s) := by
  have hreads : ∀ c : Call, c.part = none → c.part ≠ some .nodes := fun c hc => by simp [hc]
  cases op with
  | enroll uuid key attributes => exact absurd rfl (hne uuid key attributes)
  | updateMetadata key observed =>
    refine .map (.byKey_bind fun n hn hkey => ?_)
    exact .observe_noteEvent h hn observed fun _ => by rw [hkey]; rfl
  | updateAddress key ip =>
    refine .map (.byKey_bind fun n hn hkey => ?_)
    exact .observe h hn (.address ip) fun _ => by rw [hkey]; rfl
  | poll key =>
    refine .map (.byKey_bind fun n hn hkey => ?_)
    refine .bind_of_asks (Delivery.asks_pending hreads n) fun pending taken' s' hnodes => .bind_pure ?_
    exact .noteEvent h hn hnodes (by rw [hkey]; rfl)
  | submitResult key name result =>
    refine .map (.byKey_bind fun n hn hkey => ?_)
    have hrecord := Delivery.asks_record hreads name n.uuid result (by simp [Call.part])
    exact .bind_of_asks hrecord fun _ taken' s' hnodes => .noteEvent h hn hnodes (by rw [hkey]; rfl)
  | submitResults key statuses =>
    refine .map (.byKey_bind fun n hn hkey => ?_)
    have hrecord := Delivery.asks_recordAll hreads n.uuid .empty statuses.entries fun _ _ => by simp [Call.part]
    refine .bind_of_asks hrecord fun report taken' s' hnodes => ?_
    split
    · rename_i hempty
      have hsilent : (submitResults key statuses).contact? (.report report) = none := if_pos (List.isEmpty_iff.mp hempty)
      exact .silent (a := report) hsilent taken' hnodes
    · rename_i hsome
      refine .bind_pure (.noteEvent h hn hnodes ?_)
      rw [hkey]
      exact if_neg (mt List.isEmpty_iff.mpr hsome)
  | _ => cases hop

/-- Only the operations of nodes make contact. -/
theorem contact?_of_key?_eq_none {op : Operation} (hop : op.key? = none) (answer : Answer) : op.contact? answer = none := by
  cases op <;> first | rfl | cases hop

/-- A turn that makes the contacts its operation tells of leaves the nodes, or changes the one that was heard of. -/
theorem remakes_of_contacts {op : Operation} {run : Except Stop Answer × Nat × Store}
    (h : Program.Contacts clock s op.contact? run) :
    Turn.Remakes ⟨op, run.1, clock (run.2.1 - 1)⟩ s.nodes run.2.2.nodes := by
  cases h with
  | refused why taken hnodes =>
    rw [hnodes]
    exact .leaves rfl
  | silent hcontact taken hnodes =>
    rw [hnodes]
    exact .leaves hcontact
  | hears hcontact hn taken hheard hnodes =>
    rw [hnodes]
    exact .hears hcontact hn hheard

/-- An enrolment leaves the nodes, or adds one. -/
theorem remakes_enroll (uuid key : String) (attributes : Attributes) :
    let run := ((enroll uuid key attributes).program settings).runBy clock taken s
    Turn.Remakes ⟨enroll uuid key attributes, run.1, clock (run.2.1 - 1)⟩ s.nodes run.2.2.nodes := by
  intro run
  have hrun : run = _ := runBy_map (Fleet.enroll settings uuid key attributes) Answer.node
  have hsilent : ∀ (outcome : Except Stop Answer) (time : Time), Turn.contact? ⟨enroll uuid key attributes, outcome, time⟩ = none := by
    intro outcome time
    cases outcome <;> rfl
  by_cases henvironment : settings.hasEnvironment attributes.environment = true
  · rw [Fleet.enroll, if_pos henvironment] at hrun
    rcases Roster.runBy_enroll uuid key attributes with ⟨outcome, taken', henroll⟩ | ⟨hfree, henroll⟩
    · rw [hrun, henroll]
      exact .leaves (hsilent _ _)
    · rw [hrun, henroll]
      refine .enrols (hsilent _ _) rfl ?_ rfl rfl rfl
      intro n hn huuid
      exact (Store.Sound.fresh hfree).2 (List.mem_map.mpr ⟨n, hn, huuid⟩)
  · rw [Fleet.enroll, if_neg henvironment] at hrun
    rw [hrun]
    exact .leaves (hsilent _ _)

/-- An operation makes of the rows of the nodes what a turn does. -/
theorem remakes (h : s.Sound) (op : Operation) :
    let run := (op.program settings).runBy clock taken s
    Turn.Remakes ⟨op, run.1, clock (run.2.1 - 1)⟩ s.nodes run.2.2.nodes := by
  intro run
  cases hop : op.key? with
  | some key =>
    by_cases henrol : ∃ uuid key attributes, op = .enroll uuid key attributes
    · obtain ⟨uuid, key, attributes, rfl⟩ := henrol
      exact remakes_enroll uuid key attributes
    · refine remakes_of_contacts (contacts_of_key? h hop ?_)
      rintro uuid key attributes rfl
      exact henrol ⟨uuid, key, attributes, rfl⟩
  | none =>
    have hasks := asks_of_key?_eq_none settings hop
    by_cases hremoves : ∃ actor uuids, op = .nodeAction actor .delete uuids
    · obtain ⟨actor, uuids, rfl⟩ := hremoves
      refine .removes actor uuids rfl (Program.runBy_preserves (P := fun t => t.nodes.Sublist s.nodes) ?_ hasks (.refl _))
      rintro c (hpart | ⟨-, uuid, rfl⟩) time t ht
      · rwa [(Call.nodes_of_part_ne t time hpart).1]
      · rw [Call.after_deleteNode]
        exact List.filter_sublist.trans ht
    · refine remakes_of_contacts (.of_asks (hasks.mono fun c hc => ?_) (contact?_of_key?_eq_none hop))
      exact hc.resolve_right fun hdeletes => hremoves hdeletes.1

end Operation

/-! ## The times of a node -/

namespace Turn

variable {holds : Turn → Bool} {turns : List Turn} {x : Turn}

/-- A turn that is not earlier than those before is the latest, if it is of the sort. -/
theorem latest_concat (h : ∀ y ∈ turns, y.time ≤ x.time) :
    latest holds (turns ++ [x]) = if holds x then some x.time else latest holds turns := by
  unfold latest
  rw [List.filter_append]
  cases hx : holds x with
  | true =>
    rw [List.filter_cons_of_pos hx, List.filter_nil, List.map_append, if_pos rfl]
    refine List.max?_eq_some_iff.mpr ⟨by simp, fun time htime => ?_⟩
    rcases List.mem_append.mp htime with htime | htime
    · obtain ⟨y, hy, rfl⟩ := List.mem_map.mp htime
      exact h y (List.mem_filter.mp hy).1
    · exact Int.le_of_eq (List.mem_singleton.mp htime)
  | false =>
    rw [List.filter_cons_of_neg (by simp [hx]), List.filter_nil, List.append_nil]
    rfl

/-- The latest time is that of one of the turns. -/
theorem exists_of_latest_eq_some {time : Time} (h : latest holds turns = some time) :
    ∃ x ∈ turns, holds x = true ∧ x.time = time := by
  obtain ⟨x, hx, htime⟩ := List.mem_map.mp (List.max?_eq_some_iff.mp h).1
  obtain ⟨hmem, hholds⟩ := List.mem_filter.mp hx
  exact ⟨x, hmem, hholds, htime⟩

/-- No turn of the sort is later than the latest. -/
theorem le_latest (hx : x ∈ turns) (hholds : holds x = true) (first : Time) : x.time ≤ (latest holds turns).getD first := by
  have hmem : x.time ∈ (turns.filter holds).map (·.time) := List.mem_map_of_mem (List.mem_filter.mpr ⟨hx, hholds⟩)
  cases hlatest : latest holds turns with
  | none => exact absurd (List.max?_eq_none_iff.mp hlatest) (List.ne_nil_of_mem hmem)
  | some time => exact (List.max?_eq_some_iff.mp hlatest).2 _ hmem

/-- Where an event of a node is noted, the node is heard of. -/
theorem hears_of_notes {key : String} {event : NodeEvent} (h : x.notes key event = true) : x.hears key = true := by
  rw [hears, beq_iff_eq.mp h]
  exact beq_self_eq_true key

theorem hears_of_contact? {key : String} {event : Option NodeEvent} (h : x.contact? = some (key, event)) (other : String) :
    x.hears other = (key == other) := by
  rw [hears, h]
  rfl

theorem notes_of_contact? {key : String} {event : Option NodeEvent} (h : x.contact? = some (key, event)) (other : NodeEvent) :
    x.notes key other = true ↔ event = some other := by
  rw [notes, h, beq_iff_eq, Option.some_inj, Prod.mk.injEq]
  exact and_iff_right rfl

end Turn

/-- The times of a node are those of the latest of some turns in which it was heard of. -/
structure Node.Follows (n : Node) (turns : List Turn) : Prop where
  updatedAt : n.updatedAt = (Turn.latest (Turn.hears n.key) turns).getD n.createdAt
  lastSeen : ∀ event, n.lastSeen.get event = Turn.latest (Turn.notes n.key event) turns

namespace Node.Follows

variable {n row : Node} {turns : List Turn} {x : Turn}

/-- A turn in which the node was not heard of may be added. -/
theorem concat_of_silent (h : n.Follows turns) (hle : ∀ y ∈ turns, y.time ≤ x.time) (hsilent : x.hears n.key = false) :
    n.Follows (turns ++ [x]) := by
  refine ⟨?_, fun event => ?_⟩
  · rw [Turn.latest_concat hle, hsilent]
    exact h.updatedAt
  · have hnotes : ¬x.notes n.key event = true := by
      intro hnotes
      rw [Turn.hears_of_notes hnotes] at hsilent
      cases hsilent
    rw [Turn.latest_concat hle, if_neg hnotes]
    exact h.lastSeen event

/-- After it was heard of, the times of the node are those of that turn. -/
theorem concat_of_heard (h : n.Follows turns) (hle : ∀ y ∈ turns, y.time ≤ x.time) {event : Option NodeEvent}
    (hcontact : x.contact? = some (n.key, event)) (hheard : n.Heard row event x.time) : row.Follows (turns ++ [x]) := by
  refine ⟨?_, fun other => ?_⟩
  · rw [hheard.same.key, Turn.latest_concat hle, Turn.hears_of_contact? hcontact, beq_self_eq_true, if_pos rfl]
    exact hheard.updatedAt
  · rw [hheard.same.key, Turn.latest_concat hle, hheard.lastSeen]
    cases event with
    | none =>
      rw [if_neg fun hnotes => nomatch (Turn.notes_of_contact? hcontact other).mp hnotes]
      exact h.lastSeen other
    | some event =>
      dsimp only [Option.elim]
      rw [LastSeen.get_set, h.lastSeen other]
      exact if_congr ((Option.some_inj.symm).trans (Turn.notes_of_contact? hcontact other).symm) rfl rfl

end Node.Follows

/-- A row after a turn is one from before of a node that was not heard of, that of the node that was, or a new one. -/
theorem Turn.Remakes.cases_of_mem {x : Turn} {nodes nodes' : List Node} (h : x.Remakes nodes nodes')
    (hkeys : (nodes.map (·.key)).Nodup) {m : Node} (hm : m ∈ nodes') :
    (m ∈ nodes ∧ x.hears m.key = false) ∨
      (∃ n ∈ nodes, ∃ event, x.contact? = some (n.key, event) ∧ n.Heard m event x.time) ∨
      (x.outcome = .ok (.node m) ∧ (∀ n ∈ nodes, n.uuid ≠ m.uuid) ∧ m.createdAt = x.time ∧ m.updatedAt = x.time ∧
        m.lastSeen = .never) := by
  have hsilent : x.contact? = none → x.hears m.key = false := by
    intro hcontact
    rw [Turn.hears, hcontact]
    rfl
  cases h with
  | leaves hcontact => exact .inl ⟨hm, hsilent hcontact⟩
  | removes actor uuids hop hrest =>
    refine .inl ⟨hrest.subset hm, hsilent ?_⟩
    rw [Turn.contact?, hop]
    cases x.outcome <;> rfl
  | enrols hcontact houtcome hnew hcreated hupdated hnever =>
    rcases List.mem_append.mp hm with hm | hm
    · exact .inl ⟨hm, hsilent hcontact⟩
    · rw [List.mem_singleton.mp hm]
      exact .inr (.inr ⟨houtcome, hnew, hcreated, hupdated, hnever⟩)
  | @hears n row event hcontact hn hheard =>
    obtain ⟨m', hm', heq⟩ := List.mem_map.mp hm
    by_cases hsame : m' = n
    · rw [if_pos hsame] at heq
      exact .inr (.inl ⟨n, hn, event, hcontact, heq ▸ hheard⟩)
    · rw [if_neg hsame] at heq
      subst heq
      refine .inl ⟨hm', ?_⟩
      rw [Turn.hears_of_contact? hcontact, beq_eq_false_iff_ne]
      intro hkey
      exact hsame (List.inj_on_of_nodup_map hkeys hm' hn hkey.symm)

/-- A turn that is not for the removal of nodes leaves the row of a node that was not heard of. -/
theorem Turn.Remakes.mem_of_silent {x : Turn} {nodes nodes' : List Node} (h : x.Remakes nodes nodes')
    (hop : ∀ actor uuids, x.op ≠ .nodeAction actor .delete uuids) {n : Node} (hn : n ∈ nodes) (hsilent : x.hears n.key = false) :
    n ∈ nodes' := by
  cases h with
  | leaves => exact hn
  | removes actor uuids hremoves => exact absurd hremoves (hop actor uuids)
  | enrols => exact List.mem_append_left _ hn
  | @hears heard row event hcontact =>
    have hne : n ≠ heard := by
      rintro rfl
      rw [Turn.hears_of_contact? hcontact, beq_self_eq_true] at hsilent
      cases hsilent
    exact List.mem_map.mpr ⟨n, hn, if_neg hne⟩

namespace Operation

variable {settings : Settings} {clock : Nat → Time}

/-- The turn in which an operation is carried out next. -/
theorem exists_turn (settings : Settings) (clock : Nat → Time) (ops : List Operation) (op : Operation) :
    ∃ x : Turn, x.op = op ∧ (diary settings clock (ops ++ [op])).turns = (diary settings clock ops).turns ++ [x] ∧
      x.Remakes (diary settings clock ops).store.nodes (diary settings clock (ops ++ [op])).store.nodes := by
  rw [diary_concat]
  exact ⟨_, rfl, rfl, remakes (.of_reachable (reachable_diary settings clock ops)) op⟩

/-- Of the operations that were carried out one inserted the node, when no node had its UUID, and these are the turns since. -/
def Inserted (settings : Settings) (clock : Nat → Time) (ops : List Operation) (n : Node) (later : List Turn) : Prop :=
  ∃ before op after row, ops = before ++ op :: after ∧
    (diary settings clock ops).turns = (diary settings clock before).turns ++ ⟨op, .ok (.node row), n.createdAt⟩ :: later ∧
    ¬(diary settings clock before).store.HasNode n.uuid ∧ row.Same n

/-- One operation more is one turn more since the node was inserted. -/
theorem Inserted.concat {ops : List Operation} {m n : Node} {later : List Turn} (h : Inserted settings clock ops m later)
    (hsame : m.Same n) {op : Operation} {x : Turn}
    (hturns : (diary settings clock (ops ++ [op])).turns = (diary settings clock ops).turns ++ [x]) :
    Inserted settings clock (ops ++ [op]) n (later ++ [x]) := by
  obtain ⟨before, first, after, row, hops, hbefore, habsent, hrow⟩ := h
  refine ⟨before, first, after ++ [op], row, by rw [hops]; simp, ?_, ?_, hrow.trans hsame⟩
  · rw [hturns, hbefore, hsame.createdAt]
    simp
  · rwa [hsame.uuid]

/-- The turns since the node was inserted are turns of the diary. -/
theorem Inserted.subset {ops : List Operation} {n : Node} {later : List Turn} (h : Inserted settings clock ops n later) :
    later ⊆ (diary settings clock ops).turns := by
  obtain ⟨before, first, after, row, -, hturns, -⟩ := h
  intro y hy
  rw [hturns]
  simp [hy]

/-- No turn since a node was inserted is earlier than its insertion. -/
theorem Inserted.createdAt_le (hclock : ∀ i j, i ≤ j → clock i ≤ clock j) {ops : List Operation} {n : Node} {later : List Turn}
    (h : Inserted settings clock ops n later) {x : Turn} (hx : x ∈ later) : n.createdAt ≤ x.time := by
  obtain ⟨before, op, after, row, -, hturns, -⟩ := h
  have hpairwise := (pairwise_diary settings hclock ops).2
  rw [hturns] at hpairwise
  exact (List.pairwise_cons.mp (List.pairwise_append.mp hpairwise).2.1).1 x hx

/-- The times of a node that a diary leaves are those of the latest turns in which it was heard of since it was inserted. -/
theorem follows_diary (hclock : ∀ i j, i ≤ j → clock i ≤ clock j) (ops : List Operation) {n : Node}
    (hn : n ∈ (diary settings clock ops).store.nodes) : ∃ later, Inserted settings clock ops n later ∧ n.Follows later := by
  induction ops using List.reverseRecOn generalizing n with
  | nil => exact absurd hn List.not_mem_nil
  | append_singleton ops op ih =>
    obtain ⟨x, hop, hturns, hremakes⟩ := exists_turn settings clock ops op
    have hle : ∀ y ∈ (diary settings clock ops).turns, y.time ≤ x.time := by
      have hpairwise := (pairwise_diary settings hclock (ops ++ [op])).2
      rw [hturns] at hpairwise
      exact fun y hy => (List.pairwise_append.mp hpairwise).2.2 y hy x (List.mem_singleton_self x)
    have hsound := Store.Sound.of_reachable (reachable_diary settings clock ops)
    rcases hremakes.cases_of_mem hsound.keys hn with
      ⟨hn, hsilent⟩ | ⟨m, hm, event, hcontact, hheard⟩ | ⟨houtcome, hnew, hcreated, hupdated, hnever⟩
    · obtain ⟨later, hinserted, hfollows⟩ := ih hn
      exact ⟨_, hinserted.concat (.refl n) hturns,
        hfollows.concat_of_silent (fun y hy => hle y (hinserted.subset hy)) hsilent⟩
    · obtain ⟨later, hinserted, hfollows⟩ := ih hm
      exact ⟨_, hinserted.concat hheard.same hturns,
        hfollows.concat_of_heard (fun y hy => hle y (hinserted.subset hy)) hcontact hheard⟩
    · have hx : x = ⟨op, .ok (.node n), n.createdAt⟩ := by rw [hcreated, ← houtcome, ← hop]
      refine ⟨[], ⟨ops, op, [], n, rfl, by rw [hturns, hx], ?_, .refl n⟩, hupdated.trans hcreated.symm, ?_⟩
      · rintro ⟨m, hm, huuid⟩
        exact hnew m hm huuid
      · intro event
        rw [hnever, LastSeen.get_never]
        rfl

/-- A turn in which a node was not heard of leaves its row, unless the turn is for the removal of nodes, and there is no other row of
its UUID after it. -/
theorem row_of_silent (ops : List Operation) {n : Node} (hn : n ∈ (diary settings clock ops).store.nodes) {op : Operation} {x : Turn}
    (hturns : (diary settings clock (ops ++ [op])).turns = (diary settings clock ops).turns ++ [x]) (hsilent : x.hears n.key = false) :
    ((∀ actor uuids, op ≠ .nodeAction actor .delete uuids) → n ∈ (diary settings clock (ops ++ [op])).store.nodes) ∧
      ∀ m ∈ (diary settings clock (ops ++ [op])).store.nodes, m.uuid = n.uuid → m = n := by
  have hsound := Store.Sound.of_reachable (reachable_diary settings clock ops)
  obtain ⟨x', hop, hturns', hremakes⟩ := exists_turn settings clock ops op
  obtain rfl : x = x' := List.singleton_inj.mp (List.append_cancel_left (hturns.symm.trans hturns'))
  constructor
  · intro hkept
    refine hremakes.mem_of_silent ?_ hn hsilent
    rwa [hop]
  · intro m hm huuid
    rcases hremakes.cases_of_mem hsound.keys hm with ⟨hm, -⟩ | ⟨m', hm', event, hcontact, hheard⟩ | ⟨-, hnew, -⟩
    · exact hsound.eq_of_uuid_eq hn hm huuid
    · have heq : m' = n := hsound.eq_of_uuid_eq hn hm' (hheard.same.uuid.symm.trans huuid)
      rw [heq] at hcontact
      rw [Turn.hears_of_contact? hcontact, beq_self_eq_true] at hsilent
      cases hsilent
    · exact absurd huuid.symm (hnew n hn)

/-- By a clock that does not run backwards, the times of a node are those of the turns in which it was heard of: the latest since
its insertion for its last change, and the latest that noted an event of a kind for the last event of this kind. -/
theorem times_of_diary (hclock : ∀ i j, i ≤ j → clock i ≤ clock j) (ops : List Operation) {n : Node}
    (hn : n ∈ (diary settings clock ops).store.nodes) :
    (∃ later, Inserted settings clock ops n later ∧
      n.updatedAt = (Turn.latest (Turn.hears n.key) later).getD n.createdAt ∧
      ∀ event, n.lastSeen.get event = Turn.latest (Turn.notes n.key event) later) ∧
    (∀ event time, n.lastSeen.get event = some time → n.createdAt ≤ time ∧ time ≤ n.updatedAt) ∧
    ∀ op x, (diary settings clock (ops ++ [op])).turns = (diary settings clock ops).turns ++ [x] → x.hears n.key = false →
      ((∀ actor uuids, op ≠ .nodeAction actor .delete uuids) → n ∈ (diary settings clock (ops ++ [op])).store.nodes) ∧
      ∀ m ∈ (diary settings clock (ops ++ [op])).store.nodes, m.uuid = n.uuid → m = n := by
  obtain ⟨later, hinserted, hfollows⟩ := follows_diary hclock ops hn
  refine ⟨⟨later, hinserted, hfollows.updatedAt, hfollows.lastSeen⟩, fun event time hseen => ?_, fun op x => row_of_silent ops hn⟩
  rw [hfollows.lastSeen] at hseen
  obtain ⟨x, hx, hnotes, rfl⟩ := Turn.exists_of_latest_eq_some hseen
  refine ⟨hinserted.createdAt_le hclock hx, ?_⟩
  rw [hfollows.updatedAt]
  exact Turn.le_latest hx (Turn.hears_of_notes hnotes) n.createdAt

/-- A node is enrolled with the second reading, asks for its queries with the third and is seen with an address with the fourth. To
enrol again changes nothing of that. -/
theorem times_of_enrolled :
    let settings := Settings.embedded ["prod"]
    let clock : Nat → Time := fun taken => 10 * taken
    let enrolment : Operation := .enroll "n-1" "Key" { Attributes.blank with environment := "prod" }
    let ops : List Operation := [.ensureAdmin "root", enrolment, .poll "key", .updateAddress "KEY" "10.0.0.1"]
    ∃ n ∈ (diary settings clock ops).store.nodes, n.createdAt = 10 ∧ n.lastSeen.queryRead = some 20 ∧ n.updatedAt = 30 ∧
      (∃ later, Inserted settings clock ops n later ∧ Turn.latest (Turn.notes n.key .queryRead) later = some 20) ∧
      n ∈ (diary settings clock (ops ++ [enrolment])).store.nodes := by
  intro settings clock enrolment ops
  have hclock : ∀ i j, i ≤ j → clock i ≤ clock j := by
    intro i j hij
    have hle : (10 * i : Int) ≤ 10 * j := by omega
    exact hle
  obtain ⟨n, hn, hcreated, hseen, hupdated⟩ : ∃ n ∈ (diary settings clock ops).store.nodes,
      n.createdAt = 10 ∧ n.lastSeen.queryRead = some 20 ∧ n.updatedAt = 30 := by decide +kernel
  obtain ⟨⟨later, hinserted, -, hlast⟩, -, hkept⟩ := times_of_diary hclock ops hn
  refine ⟨n, hn, hcreated, hseen, hupdated, ⟨later, hinserted, (hlast .queryRead).symm.trans hseen⟩, ?_⟩
  obtain ⟨x, hop, hturns, -⟩ := exists_turn settings clock ops enrolment
  refine (hkept enrolment x hturns ?_).1 nofun
  rw [Turn.hears, Turn.contact?, hop]
  cases x.outcome <;> rfl

end Operation

end FleetControl
