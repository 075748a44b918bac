import FleetControl.Proofs.Launches
import FleetControl.Proofs.Results

/-!
# All or nothing

An operation reads first and writes last. It is refused before its first write, or the one call it writes by is refused, which
then writes nothing, or it goes on by calls that cannot be refused any more: the event of a node that was just found, the flags of
queries that were all looked up. So an operation that ends without a result leaves the store as it was
(`Operation.unchanged_of_error`). The action on several nodes is not among them: it writes node by node.
-/

namespace FleetControl

open Program (run_bind_of_ok run_bind_of_error run_ask_of_ok run_ask_of_error of_run_bind_eq_ok run_preserves)

/-! ## Programs that leave the store unless they have a result -/

namespace Program

variable {α β : Type}

/-- A run of the program on the store that ends without a result leaves the store. -/
def AllOrNothing (p : Program α) (time : Time) (s : Store) : Prop :=
  ∀ why s', p.run time s = (.error why, s') → s' = s

/-- A run of the program on the store ends with a result. -/
def Answered (p : Program α) (time : Time) (s : Store) : Prop := ∃ a s', p.run time s = (.ok a, s')

variable {time : Time} {s : Store} {p : Program α} {f : α → Program β}

theorem answered_pure (a : α) : (pure a : Program α).Answered time s := ⟨a, s, rfl⟩

theorem Answered.bind (hp : p.Answered time s) (hf : ∀ a s₁, p.run time s = (.ok a, s₁) → (f a).Answered time s₁) :
    (p >>= f).Answered time s := by
  obtain ⟨a, s₁, hrun⟩ := hp
  obtain ⟨b, s₂, hrest⟩ := hf a s₁ hrun
  exact ⟨b, s₂, (run_bind_of_ok hrun f).trans hrest⟩

/-- A program with a result is not refused. -/
theorem Answered.allOrNothing (hp : p.Answered time s) : p.AllOrNothing time s := by
  intro why s' hrun
  obtain ⟨a, s₁, hok⟩ := hp
  rw [hok] at hrun
  cases hrun

/-- A program that only reads leaves the store in any case. -/
theorem Asks.allOrNothing (hp : p.Asks fun c => c.part = none) : p.AllOrNothing time s := by
  intro why s' hrun
  exact eq_of_run_of_reads hp hrun

/-- A call that is refused writes nothing. -/
theorem allOrNothing_ask (c : Call) : (ask c).AllOrNothing time s := by
  intro why s' hrun
  cases hexec : c.exec time s with
  | ok answered =>
    obtain ⟨reply, s₁⟩ := answered
    rw [run_ask_of_ok hexec] at hrun
    cases hrun
  | error refusal =>
    rw [run_ask_of_error hexec] at hrun
    cases hrun
    rfl

/-- One program after another is all or nothing where the first is, and the other leaves what the first found. -/
theorem AllOrNothing.bind (hp : p.AllOrNothing time s)
    (hf : ∀ a s₁, p.run time s = (.ok a, s₁) → ∀ why s', (f a).run time s₁ = (.error why, s') → s' = s) :
    (p >>= f).AllOrNothing time s := by
  intro why s' hrun
  cases hfirst : p.run time s with
  | mk result s₁ =>
    cases result with
    | error why₁ =>
      rw [run_bind_of_error hfirst] at hrun
      cases hrun
      exact hp _ _ hfirst
    | ok a =>
      rw [run_bind_of_ok hfirst] at hrun
      exact hf a s₁ hfirst why s' hrun

/-- What is read first does not matter. -/
theorem AllOrNothing.bind_of_reads (hp : p.Asks fun c => c.part = none)
    (hf : ∀ a, p.run time s = (.ok a, s) → (f a).AllOrNothing time s) : (p >>= f).AllOrNothing time s := by
  refine hp.allOrNothing.bind ?_
  intro a s₁ hrun
  obtain rfl := eq_of_run_of_reads hp hrun
  exact hf a hrun

/-- What always has a result may follow a write. -/
theorem AllOrNothing.bind_of_answered (hp : p.AllOrNothing time s)
    (hf : ∀ a s₁, p.run time s = (.ok a, s₁) → (f a).Answered time s₁) : (p >>= f).AllOrNothing time s := by
  refine hp.bind ?_
  intro a s₁ hrun why s' herror
  obtain ⟨b, s₂, hok⟩ := hf a s₁ hrun
  rw [hok] at herror
  cases herror

theorem AllOrNothing.map (hp : p.AllOrNothing time s) (g : α → β) : (g <$> p).AllOrNothing time s := by
  rw [map_eq_pure_bind]
  refine hp.bind_of_answered ?_
  intro a s₁ _
  exact answered_pure (g a)

/-- A program that is attempted is all or nothing where the program is. -/
theorem AllOrNothing.attempt (hp : p.AllOrNothing time s) : p.attempt.AllOrNothing time s := by
  intro why s' hrun
  rw [run_attempt] at hrun
  cases hfirst : p.run time s with
  | mk result s₁ =>
    rw [hfirst] at hrun
    rcases result with (_ | _) | _
    · cases hrun
    · cases hrun
      exact hp _ _ hfirst
    · cases hrun

/-- Where an attempt tells a refusal, the store is as it was. -/
theorem AllOrNothing.eq_of_run_attempt (hp : p.AllOrNothing time s) {refusal : Refusal} {s' : Store}
    (h : p.attempt.run time s = (.ok (.error refusal), s')) : s' = s := by
  rw [run_attempt] at h
  cases hfirst : p.run time s with
  | mk result s₁ =>
    rw [hfirst] at h
    rcases result with (_ | _) | _
    · cases h
      exact hp _ _ hfirst
    · cases h
    · cases h

/-- Whatever is done for each member has a result where each has one and keeps what the others need. -/
theorem answered_forM {P : Store → Prop} {g : α → Program PUnit} {as : List α}
    (h : ∀ a ∈ as, ∀ s, P s → ∃ s', (g a).run time s = (.ok ⟨⟩, s') ∧ P s') (hs : P s) : (as.forM g).Answered time s := by
  induction as generalizing s with
  | nil => exact answered_pure PUnit.unit
  | cons a as ih =>
    obtain ⟨hfirst, hrest⟩ := List.forall_mem_cons.mp h
    obtain ⟨s₁, hrun, hs₁⟩ := hfirst s hs
    obtain ⟨u, s₂, hall⟩ := ih hrest hs₁
    exact ⟨u, s₂, (run_bind_of_ok hrun _).trans hall⟩

/-- Where something that only reads has a result for every member, it has one for each. -/
theorem of_run_forM_eq_ok {g : α → Program PUnit} {as : List α} (hreads : ∀ a, (g a).Asks fun c => c.part = none)
    {u : PUnit} {s' : Store} (h : (as.forM g).run time s = (.ok u, s')) : ∀ a ∈ as, (g a).run time s = (.ok ⟨⟩, s) := by
  induction as with
  | nil =>
    intro a ha
    exact absurd ha List.not_mem_nil
  | cons a as ih =>
    obtain ⟨v, s₁, hfirst, hrest⟩ := of_run_bind_eq_ok h
    obtain rfl := eq_of_run_of_reads (hreads a) hfirst
    exact List.forall_mem_cons.mpr ⟨hfirst, ih hrest⟩

/-- A program that writes to other parts of the store leaves the nodes. -/
theorem nodes_of_asks (hp : p.Asks fun c => c.part ≠ some .nodes) : (p.run time s).2.nodes = s.nodes := by
  refine run_preserves (P := fun s' => s'.nodes = s.nodes) ?_ hp rfl
  intro c hc s' hs'
  exact (Call.nodes_of_part_ne s' time hc).1.trans hs'

end Program

/-! ## Nodes and queries that are there -/

/-- The store has a node of the UUID. -/
def Store.HasNode (s : Store) (uuid : String) : Prop := ∃ n ∈ s.nodes, n.uuid = uuid

instance (s : Store) (uuid : String) : Decidable (s.HasNode uuid) :=
  inferInstanceAs (Decidable (∃ n ∈ s.nodes, n.uuid = uuid))

/-- A node that the store has is found by its UUID. -/
theorem Store.HasNode.find?_eq_some {s : Store} {uuid : String} (h : s.HasNode uuid) :
    ∃ n ∈ s.nodes, n.uuid = uuid ∧ s.nodes.find? (·.uuid == uuid) = some n := by
  cases hfind : s.nodes.find? (·.uuid == uuid) with
  | none =>
    obtain ⟨n, hn, huuid⟩ := h
    exact absurd huuid (Store.ne_of_find?_eq_none hfind n hn)
  | some n =>
    obtain ⟨hn, huuid⟩ := Store.of_find?_eq_some hfind
    exact ⟨n, hn, huuid, rfl⟩

/-- A node that the store does not have is not found by its UUID. -/
theorem Store.find?_eq_none_of_not_hasNode {s : Store} {uuid : String} (h : ¬s.HasNode uuid) :
    s.nodes.find? (·.uuid == uuid) = none := by
  refine List.find?_eq_none.mpr ?_
  intro n hn huuid
  exact h ⟨n, hn, beq_iff_eq.mp huuid⟩

/-- The same nodes are nodes of the same UUIDs. -/
theorem Store.HasNode.of_sameNodes {s s' : Store} {uuid : String} (h : s.HasNode uuid)
    (hsame : Call.SameNodes s.nodes s'.nodes) : s'.HasNode uuid := by
  have huuids := hsame.identities.2
  have hmem : uuid ∈ s'.nodes.map (·.uuid) := by
    rw [huuids]
    exact List.mem_map.mpr h
  exact List.mem_map.mp hmem

/-- Where the node of a UUID was removed, that node is gone and the others stay. -/
theorem Store.hasNode_iff_of_filter {s s' : Store} {gone : String} (h : s'.nodes = s.nodes.filter (·.uuid != gone))
    (uuid : String) : s'.HasNode uuid ↔ s.HasNode uuid ∧ uuid ≠ gone := by
  simp only [HasNode, h, List.mem_filter, bne_iff_ne]
  constructor
  · rintro ⟨n, ⟨hn, hne⟩, rfl⟩
    exact ⟨⟨n, hn, rfl⟩, hne⟩
  · rintro ⟨⟨n, hn, rfl⟩, hne⟩
    exact ⟨n, ⟨hn, hne⟩, rfl⟩

namespace Roster

variable {time : Time} {s s' : Store}

/-- A node found by its key is a node of the store. -/
theorem mem_of_run_byKey {key : String} {n : Node} (h : (byKey key).run time s = (.ok n, s')) : n ∈ s.nodes := by
  unfold byKey at h
  rw [run_bind_of_ok (run_ask_of_ok rfl)] at h
  cases hfound : s.findNode (.key (canonicalKey key)) with
  | none =>
    rw [hfound] at h
    cases h
  | some node =>
    rw [hfound] at h
    cases h
    exact List.mem_of_find?_eq_some hfound

/-- A node that the store has is looked up. -/
theorem run_byUuid_of_hasNode {uuid : String} (h : s.HasNode (canonicalUuid uuid)) :
    ∃ n ∈ s.nodes, n.uuid = canonicalUuid uuid ∧ (byUuid uuid).run time s = (.ok n, s) := by
  obtain ⟨n, hn, huuid, hfind⟩ := h.find?_eq_some
  refine ⟨n, hn, huuid, ?_⟩
  unfold byUuid
  rw [run_bind_of_ok (run_ask_of_ok rfl)]
  simp only [Store.findNode, hfind]
  rfl

/-- A node that the store does not have is refused. -/
theorem run_byUuid_of_not_hasNode {uuid : String} (h : ¬s.HasNode (canonicalUuid uuid)) :
    (byUuid uuid).run time s = (.error (.refused (.noNode (canonicalUuid uuid))), s) := by
  unfold byUuid
  rw [run_bind_of_ok (run_ask_of_ok rfl)]
  simp only [Store.findNode, Store.find?_eq_none_of_not_hasNode h]
  rfl

/-- The event of a node that the store has is noted. -/
theorem answered_noteEvent {uuid : String} (h : s.HasNode (canonicalUuid uuid)) (event : NodeEvent) :
    (noteEvent uuid event).Answered time s := by
  obtain ⟨n, -, -, hfind⟩ := h.find?_eq_some
  unfold noteEvent
  rw [Program.Answered, run_bind_of_ok (Program.run_now time s)]
  refine ⟨(), s.changeNode (canonicalUuid uuid) fun m => m.touched event time, run_ask_of_ok ?_⟩
  simp only [Call.exec, Call.done, Store.touchEvent, Store.nodeWith, hfind]
  rfl

/-- An event is noted, or it is refused and nothing changes. -/
theorem allOrNothing_noteEvent (uuid : String) (event : NodeEvent) : (noteEvent uuid event).AllOrNothing time s := by
  refine Program.AllOrNothing.bind_of_reads Program.asks_now ?_
  intro now _
  exact Program.allOrNothing_ask _

/-- An observation of a node that the store has is applied to it. -/
theorem run_observe_of_find {uuid : String} {n : Node} (hfind : s.nodes.find? (·.uuid == canonicalUuid uuid) = some n)
    (observed : Observation) :
    (observe uuid observed).run time s = (.ok (n.revised time (Revision.plan n.attributes.readings observed)),
      (Call.applyObservation (canonicalUuid uuid) observed).after time s) := by
  refine run_ask_of_ok ?_
  simp only [Call.after, Call.exec, Store.applyObservation, Store.nodeWith, hfind]
  rfl

/-- An observation of a node that the store does not have is refused. -/
theorem run_observe_of_find_eq_none {uuid : String} (hfind : s.nodes.find? (·.uuid == canonicalUuid uuid) = none)
    (observed : Observation) :
    (observe uuid observed).run time s = (.error (.refused (.noNode (canonicalUuid uuid))), s) := by
  refine run_ask_of_error ?_
  simp only [Call.exec, Store.applyObservation, Store.nodeWith, hfind]
  rfl

/-- An observation that is applied tells the node it was applied to, which the store still has. -/
theorem hasNode_of_run_observe {uuid : String} {observed : Observation} {n : Node}
    (h : (observe uuid observed).run time s = (.ok n, s')) :
    n.uuid = canonicalUuid uuid ∧ s'.HasNode (canonicalUuid uuid) := by
  cases hfind : s.nodes.find? (·.uuid == canonicalUuid uuid) with
  | none =>
    rw [run_observe_of_find_eq_none hfind] at h
    cases h
  | some node =>
    obtain ⟨hnode, huuid⟩ := Store.of_find?_eq_some hfind
    rw [run_observe_of_find hfind] at h
    cases h
    refine ⟨huuid, Store.HasNode.of_sameNodes ⟨node, hnode, huuid⟩ ?_⟩
    rcases Call.nodes_cases s time (.applyObservation (canonicalUuid uuid) observed) with hsame | ⟨_, _, hc, -⟩ | ⟨_, hc, -⟩
    · exact hsame
    · cases hc
    · cases hc

end Roster

namespace Delivery

variable {time : Time} {s s' : Store}

/-- A result is recorded, or it is refused and nothing changes. -/
theorem allOrNothing_record (name uuid : String) (result : Int) : (record name uuid result).AllOrNothing time s := by
  intro why s' hrun
  rw [run_record] at hrun
  split at hrun
  · cases hrun
    rfl
  · split at hrun
    · cases hrun
      rfl
    · cases hrun

/-- A batch of results is never refused: what cannot be recorded is reported. -/
theorem answered_recordAll (uuid : String) (report : Report) (statuses : List (String × Int)) :
    (recordAll uuid report statuses).Answered time s := by
  induction statuses generalizing report s with
  | nil => exact Program.answered_pure report
  | cons status rest ih =>
    obtain ⟨name, result⟩ := status
    rw [Program.Answered, run_recordAll_cons]
    split
    · exact ih _
    · split
      · exact ih _
      · exact ih _

end Delivery

namespace QueryBook

variable {time : Time} {s s' : Store} {name : String}

/-- A query that is looked up and found is stored. -/
theorem mem_queryNames_of_run_get (h : (discard (get name)).run time s = (.ok ⟨⟩, s')) : name ∈ s.queryNames := by
  obtain ⟨_, hget, -⟩ := Program.of_run_map_eq_ok h
  unfold get at hget
  rw [run_bind_of_ok (run_ask_of_ok rfl)] at hget
  cases hfound : s.getQuery name with
  | none =>
    rw [hfound] at hget
    cases hget
  | some q => exact s.mem_queryNames_of_getQuery hfound

/-- An action on a stored query is carried out. -/
theorem run_apply (h : name ∈ s.queryNames) (action : QueryAction) :
    (apply name action).run time s =
      (.ok (), s.changeQuery name fun q => { q.withFlags action.flags with updatedAt := time }) := by
  obtain ⟨q, hq⟩ := s.exists_getQuery h
  rw [Store.getQuery] at hq
  refine run_ask_of_ok ?_
  simp only [Call.exec, Call.done, Store.setFlags, Store.queryNamed, hq]
  rfl

end QueryBook

/-- An account is made, or it is refused and nothing changes. -/
theorem Accounts.allOrNothing_add {time : Time} {s : Store} (account : Access.Account) (environments : List String) :
    (add account environments).AllOrNothing time s := by
  unfold add
  dsimp only
  split
  · exact (Program.asks_refuse _).allOrNothing
  · exact Program.allOrNothing_ask _

/-! ## Operations -/

namespace Fleet

variable {settings : Settings} {time : Time} {s : Store}

theorem allOrNothing_enroll (uuid key : String) (attributes : Attributes) :
    (enroll settings uuid key attributes).AllOrNothing time s := by
  unfold enroll
  split
  · unfold Roster.enroll
    split
    · exact (Program.asks_refuse _).allOrNothing
    · refine Program.AllOrNothing.bind_of_reads (Program.asks_ask rfl) ?_
      intro found _
      cases found with
      | some node => exact (Program.answered_pure node).allOrNothing
      | none => exact Program.allOrNothing_ask _
  · exact (Program.asks_refuse _).allOrNothing

theorem allOrNothing_updateMetadata (key : String) (observed : Observation) :
    (updateMetadata key observed).AllOrNothing time s := by
  unfold updateMetadata
  refine Program.AllOrNothing.bind_of_reads (Roster.asks_byKey (fun _ => id) key) ?_
  intro node _
  refine (Program.allOrNothing_ask _).bind_of_answered ?_
  intro node' s₁ hobserve
  -- the observation was applied, so the node is there when its event is noted, and its UUID is canonical already
  obtain ⟨huuid, hthere⟩ := Roster.hasNode_of_run_observe hobserve
  rw [← canonicalUuid_canonicalUuid, ← huuid] at hthere
  refine (Roster.answered_noteEvent hthere .status).bind ?_
  intro _ s₂ _
  exact Program.answered_pure node'

theorem allOrNothing_updateAddress (key ip : String) : (updateAddress key ip).AllOrNothing time s := by
  unfold updateAddress
  refine Program.AllOrNothing.bind_of_reads (Roster.asks_byKey (fun _ => id) key) ?_
  intro node _
  exact Program.allOrNothing_ask _

theorem allOrNothing_poll (key : String) : (poll key).AllOrNothing time s := by
  unfold poll
  refine Program.AllOrNothing.bind_of_reads (Roster.asks_byKey (fun _ => id) key) ?_
  intro node _
  refine Program.AllOrNothing.bind_of_reads (Delivery.asks_pending (fun _ => id) node) ?_
  intro pending _
  refine (Roster.allOrNothing_noteEvent node.uuid .queryRead).bind_of_answered ?_
  intro _ s₁ _
  exact Program.answered_pure pending

/-- After results were recorded for a node that was found, its event can be noted. -/
theorem hasNode_of_recorded {α : Type} {p : Program α} (h : s.Sound) {node : Node} (hnode : node ∈ s.nodes)
    (hp : p.Asks fun c => c.part ≠ some .nodes) {a : α} {s₁ : Store} (hrun : p.run time s = (.ok a, s₁)) :
    s₁.HasNode (canonicalUuid node.uuid) := by
  have hnodes : (p.run time s).2.nodes = s.nodes := Program.nodes_of_asks hp
  rw [hrun] at hnodes
  refine ⟨node, ?_, (h.canonical node hnode).symm⟩
  rw [hnodes]
  exact hnode

theorem allOrNothing_submitResult (h : s.Sound) (key name : String) (result : Int) :
    (submitResult key name result).AllOrNothing time s := by
  unfold submitResult
  refine Program.AllOrNothing.bind_of_reads (Roster.asks_byKey (fun _ => id) key) ?_
  intro node hfound
  refine (Delivery.allOrNothing_record name node.uuid result).bind_of_answered ?_
  intro _ s₁ hrecord
  have hasks : (Delivery.record name node.uuid result).Asks fun c => c.part ≠ some .nodes :=
    Delivery.asks_record (fun c hc => by simp [hc]) name node.uuid result (by simp [Call.part])
  exact Roster.answered_noteEvent (hasNode_of_recorded h (Roster.mem_of_run_byKey hfound) hasks hrecord) .queryWrite

theorem allOrNothing_submitResults (h : s.Sound) (key : String) (statuses : Dictionary Int) :
    (submitResults key statuses).AllOrNothing time s := by
  unfold submitResults
  refine Program.AllOrNothing.bind_of_reads (Roster.asks_byKey (fun _ => id) key) ?_
  intro node hfound
  refine (Delivery.answered_recordAll node.uuid .empty statuses.entries).allOrNothing.bind_of_answered ?_
  intro report s₁ hrecord
  have hasks : (Delivery.recordAll node.uuid .empty statuses.entries).Asks fun c => c.part ≠ some .nodes :=
    Delivery.asks_recordAll (fun c hc => by simp [hc]) node.uuid .empty statuses.entries fun _ _ => by simp [Call.part]
  have hthere := hasNode_of_recorded h (Roster.mem_of_run_byKey hfound) hasks hrecord
  split
  · exact Program.answered_pure report
  · refine (Roster.answered_noteEvent hthere .queryWrite).bind ?_
    intro _ s₂ _
    exact Program.answered_pure report

theorem allOrNothing_launch (draft : Query.Draft) (targets : List Target) :
    (launch settings draft targets).AllOrNothing time s := by
  intro why s' hrun
  rcases run_launch settings draft targets time s with ⟨why', h⟩ | ⟨_, _, _, -, h⟩
  · rw [h] at hrun
    cases hrun
    rfl
  · rw [h] at hrun
    cases hrun

theorem allOrNothing_createQuery (token : QueryName.Token) (actor text : String) (targets : List Target) (kind : QueryKind) :
    (createQuery settings token actor text targets kind).AllOrNothing time s := by
  unfold createQuery
  refine Program.AllOrNothing.bind_of_reads (Accounts.asks_require (fun _ => id) actor .query none) ?_
  intro _ _
  exact allOrNothing_launch _ targets

theorem allOrNothing_createCarve (token : QueryName.Token) (actor path : String) (targets : List Target) :
    (createCarve settings token actor path targets).AllOrNothing time s := by
  unfold createCarve
  refine Program.AllOrNothing.bind_of_reads (Accounts.asks_require (fun _ => id) actor .carve none) ?_
  intro _ _
  dsimp only
  split
  · exact (Program.asks_refuse _).allOrNothing
  · exact allOrNothing_launch _ targets

theorem allOrNothing_queryAction (actor : String) (action : QueryAction) (names : List String) :
    (queryAction actor action names).AllOrNothing time s := by
  unfold queryAction
  have hget : ∀ name, (discard (QueryBook.get name)).Asks fun c => c.part = none := by
    intro name
    exact (QueryBook.asks_get (fun _ => id) name).map _
  refine Program.AllOrNothing.bind_of_reads (Accounts.asks_require (fun _ => id) actor .query none) ?_
  intro _ _
  refine Program.AllOrNothing.bind_of_reads (Program.asks_forM fun name _ => hget name) ?_
  intro _ hall
  -- setting flags renames no query, so each finds its own whatever was set before it
  refine (Program.answered_forM (P := fun s' => s'.queryNames = s.queryNames) ?_ rfl).allOrNothing
  intro name hname s' hnames
  have hstored : name ∈ s'.queryNames := by
    rw [hnames]
    exact QueryBook.mem_queryNames_of_run_get (Program.of_run_forM_eq_ok hget hall name hname)
  have hkept : (s'.changeQuery name fun q => { q.withFlags action.flags with updatedAt := time }).queryNames = s'.queryNames :=
    s'.queryNames_changeQuery name fun _ => rfl
  exact ⟨_, QueryBook.run_apply hstored action, hkept.trans hnames⟩

theorem allOrNothing_addUser (actor : String) (account : Access.Account) :
    (addUser settings actor account).AllOrNothing time s := by
  unfold addUser
  refine Program.AllOrNothing.bind_of_reads (Accounts.asks_require (fun _ => id) actor .admin none) ?_
  intro _ _
  exact (Accounts.allOrNothing_add account settings.environments).map _

theorem allOrNothing_setAdmin (actor username : String) (admin : Bool) :
    (setAdmin settings actor username admin).AllOrNothing time s := by
  unfold setAdmin
  refine Program.AllOrNothing.bind_of_reads (Accounts.asks_require (fun _ => id) actor .admin none) ?_
  intro _ _
  exact Program.allOrNothing_ask _

theorem allOrNothing_setPermissions (actor username : String) (permissions : Access.Permissions) :
    (setPermissions actor username permissions).AllOrNothing time s := by
  unfold setPermissions
  refine Program.AllOrNothing.bind_of_reads (Accounts.asks_require (fun _ => id) actor .admin none) ?_
  intro _ _
  exact Program.allOrNothing_ask _

theorem allOrNothing_ensureAdmin (username : String) : (ensureAdmin settings username).AllOrNothing time s := by
  unfold ensureAdmin
  refine Program.AllOrNothing.bind_of_reads (Accounts.asks_has (fun _ => id) username) ?_
  intro known _
  cases known with
  | true => exact (Program.answered_pure _).allOrNothing
  | false =>
    have hadd : (Accounts.add { Access.Account.blank with username := username, admin := true }
        settings.environments).AllOrNothing time s := Accounts.allOrNothing_add _ _
    refine hadd.attempt.bind ?_
    intro made s₁ hmade why s' hrun
    cases made with
    | ok user => cases hrun
    | error refusal =>
      -- a refusal is told or passed over, and either way the attempt wrote nothing
      obtain rfl := hadd.eq_of_run_attempt hmade
      dsimp only at hrun
      split at hrun
      · cases hrun
      · cases hrun
        rfl

end Fleet

/-- The operation is the action on several nodes. -/
def Operation.isNodeAction : Operation → Bool
  | .nodeAction _ _ _ => true
  | _ => false

/-- An operation other than the action on several nodes is all or nothing. -/
theorem Operation.allOrNothing {settings : Settings} {s : Store} (hsound : s.Sound) {op : Operation}
    (hop : op.isNodeAction = false) (time : Time) : (op.program settings).AllOrNothing time s := by
  cases op with
  | nodeAction actor action uuids => cases hop
  | enroll uuid key attributes => exact (Fleet.allOrNothing_enroll uuid key attributes).map _
  | updateMetadata key observed => exact (Fleet.allOrNothing_updateMetadata key observed).map _
  | updateAddress key ip => exact (Fleet.allOrNothing_updateAddress key ip).map _
  | poll key => exact (Fleet.allOrNothing_poll key).map _
  | submitResult key name result => exact (Fleet.allOrNothing_submitResult hsound key name result).map _
  | submitResults key statuses => exact (Fleet.allOrNothing_submitResults hsound key statuses).map _
  | authorize actor level environment =>
    exact ((Accounts.asks_authorize (fun _ => id) actor level environment).map _).allOrNothing
  | createQuery token actor text targets kind =>
    exact (Fleet.allOrNothing_createQuery token actor text targets kind).map _
  | createCarve token actor path targets => exact (Fleet.allOrNothing_createCarve token actor path targets).map _
  | listQueries actor listing => exact ((Fleet.asks_listQueries (fun _ => id) actor listing).map _).allOrNothing
  | queryAction actor action names => exact (Fleet.allOrNothing_queryAction actor action names).map _
  | addUser actor account => exact (Fleet.allOrNothing_addUser actor account).map _
  | setAdmin actor username admin => exact (Fleet.allOrNothing_setAdmin actor username admin).map _
  | setPermissions actor username permissions => exact (Fleet.allOrNothing_setPermissions actor username permissions).map _
  | nodeStats actor environment =>
    exact ((Fleet.asks_nodeStats (fun _ => id) settings actor environment).map _).allOrNothing
  | ensureAdmin username => exact (Fleet.allOrNothing_ensureAdmin username).map _

/-- In a store that operations lead to, an operation other than the action on several nodes leaves every table and the number given
last as they were unless it has a result. -/
theorem Operation.unchanged_of_error {settings : Settings} {s : Store} (hs : Reachable settings s) {op : Operation}
    (hop : op.isNodeAction = false) {time : Time} {why : Stop} (herror : (op.run settings time s).1 = .error why) :
    (op.run settings time s).2 = s :=
  allOrNothing (Store.Sound.of_reachable hs) hop time why _ (Prod.ext herror rfl)

/-- Of two queries to be completed one is not stored, so neither is completed. -/
theorem Operation.unchanged_of_unknown_name :
    let settings : Settings := .embedded ["prod"]
    let s := replay settings .empty [(0, .ensureAdmin "root"),
      (1, .enroll "a-1" "Key" { Attributes.blank with environment := "prod" }),
      (2, .createQuery 7 "root" "SELECT 1;" [⟨.environment, "prod"⟩] .standard)]
    let outcome := (Operation.queryAction "root" .complete [QueryName.query 7, "other"]).run settings 3 s
    outcome.1 = .error (.refused (.noQuery "other")) ∧ outcome.2 = s := by
  intro settings s outcome
  have hs : Reachable settings s := reachable_empty.replay _
  have herror : outcome.1 = .error (.refused (.noQuery "other")) := by decide +kernel
  exact ⟨herror, unchanged_of_error hs rfl herror⟩

end FleetControl
