import FleetControl.Proofs.Atomicity
import FleetControl.Proofs.Delivery
import FleetControl.Proofs.Histories
import FleetControl.Proofs.Mediation

/-!
# What nodes leave of one another

A node goes by its key, and what it writes is written under the UUID of the node that has the key. So an operation under another
key than that of a live node finds another node, of another UUID, or none, and whatever is stored under the UUID of the first stays
as it is (`Store.Leaves`). Only an enrolment names a UUID of its own; if a live node has it, it is refused.
-/

namespace FleetControl

open Program (run_bind run_bind_of_ok run_bind_of_error run_preserves)

/-- The key by which the node of an operation goes. -/
def Operation.key? : Operation → Option String
  | .enroll _ key _ | .updateMetadata key _ | .updateAddress key _ | .poll key | .submitResult key _ _ | .submitResults key _ =>
    some key
  | _ => none

theorem Operation.isTraffic_of_key? {op : Operation} {key : String} (h : op.key? = some key) : op.isTraffic = true := by
  cases op <;> first | rfl | cases h

/-! ## What is stored under a UUID -/

/-- What nodes write under a UUID is the same: the row of the node, its history and its executions. -/
structure Store.Leaves (uuid : String) (s t : Store) : Prop where
  row : t.nodes.filter (·.uuid == uuid) = s.nodes.filter (·.uuid == uuid)
  histories : ∀ kind, t.historyOf uuid kind = s.historyOf uuid kind
  executions : t.executions.filter (·.uuid == uuid) = s.executions.filter (·.uuid == uuid)

/-- The call reads, enrols a node, or writes under another UUID. -/
inductive Call.Spares (uuid : String) : Call → Prop where
  | reads {c : Call} (h : c.part = none) : c.Spares uuid
  | insertNode (e : Enrollment) (seeds : List HistorySeed) : (Call.insertNode e seeds).Spares uuid
  | applyObservation {u : String} (h : u ≠ uuid) (observed : Observation) : (Call.applyObservation u observed).Spares uuid
  | touchEvent {u : String} (h : u ≠ uuid) (event : NodeEvent) (time : Time) : (Call.touchEvent u event time).Spares uuid
  | recordExecution {e : Execution.Draft} (h : e.uuid ≠ uuid) : (Call.recordExecution e).Spares uuid

namespace Store

variable {uuid : String} {s t : Store}

/-- A change to the node of another UUID leaves the row. -/
theorem filter_nodes_changeNode {u : String} (h : u ≠ uuid) (change : Node → Node) (hchange : ∀ n, (change n).uuid = n.uuid) :
    (s.changeNode u change).nodes.filter (·.uuid == uuid) = s.nodes.filter (·.uuid == uuid) := by
  rw [changeNode, List.filter_map]
  have hsame : ((fun n : Node => n.uuid == uuid) ∘ fun n => if n.uuid = u then change n else n) = fun n => n.uuid == uuid := by
    funext n
    rw [Function.comp_apply]
    split
    · rw [hchange]
    · rfl
  rw [hsame]
  refine (List.map_congr_left ?_).trans (List.map_id _)
  intro n hn
  have huuid : n.uuid = uuid := beq_iff_eq.mp (List.mem_filter.mp hn).2
  rw [if_neg (huuid ▸ h.symm)]
  rfl

namespace Leaves

theorem refl (uuid : String) (s : Store) : s.Leaves uuid s := ⟨rfl, fun _ => rfl, rfl⟩

/-- The same rows are rows of the same nodes. -/
theorem mem_iff (h : s.Leaves uuid t) {n : Node} (hn : n.uuid = uuid) : n ∈ t.nodes ↔ n ∈ s.nodes := by
  have hmem : n ∈ t.nodes.filter (·.uuid == uuid) ↔ n ∈ s.nodes.filter (·.uuid == uuid) := by rw [h.row]
  simpa [hn] using hmem

/-- A call that spares a UUID leaves what is stored under it, where a live node has it. -/
theorem after (h : s.Leaves uuid t) (hlive : s.HasNode uuid) {c : Call} (hc : c.Spares uuid) (now : Time) :
    s.Leaves uuid (c.after now t) := by
  cases hc with
  | reads hreads => rwa [Call.after_of_reads t now hreads]
  | insertNode e seeds =>
    rcases Call.after_insertNode t now e seeds with ⟨hsame, -⟩ | ⟨hfree, _, _, hinsert⟩
    · rwa [hsame]
    · have hne : e.uuid ≠ uuid := by
        rintro rfl
        obtain ⟨n, hn, huuid⟩ := hlive
        exact (Sound.fresh hfree).2 (List.mem_map.mpr ⟨n, (h.mem_iff huuid).mpr hn, huuid⟩)
      have hwrites : (Call.insertNode e seeds).writesHistoryOf ≠ some uuid := fun heq => hne (Option.some.inj heq)
      refine ⟨?_, fun kind => (Call.historyOf_after now hwrites kind).trans (h.histories kind), ?_⟩
      · rw [hinsert, List.filter_append, h.row]
        simp [newNode, hne]
      · rw [hinsert, h.executions]
  | @applyObservation u hne observed =>
    have hwrites : (Call.applyObservation u observed).writesHistoryOf ≠ some uuid := fun heq => hne (Option.some.inj heq)
    obtain ⟨_, _, heq⟩ := Call.after_applyObservation t now u observed
    refine ⟨?_, fun kind => (Call.historyOf_after now hwrites kind).trans (h.histories kind), ?_⟩
    · rw [heq]
      exact (filter_nodes_changeNode hne (fun n => n.revised now (t.revision u observed)) fun _ => rfl).trans h.row
    · rw [heq]
      exact h.executions
  | touchEvent hne event time =>
    rw [Call.after_touchEvent]
    exact ⟨(filter_nodes_changeNode hne (fun n => n.touched event time) fun _ => rfl).trans h.row, h.histories, h.executions⟩
  | @recordExecution e hne =>
    rw [Call.after_recordExecution]
    split
    · exact h
    · refine ⟨h.row, h.histories, ?_⟩
      dsimp only
      rw [List.filter_append, h.executions]
      simp [hne]

/-- A program whose calls spare a UUID leaves what is stored under it, where a live node has it. -/
theorem run (h : s.Leaves uuid t) (hlive : s.HasNode uuid) {α : Type} {p : Program α} (hp : p.Asks (Call.Spares uuid))
    (time : Time) : s.Leaves uuid (p.run time t).2 := by
  refine run_preserves ?_ hp h
  intro c hc t ht
  exact ht.after hlive hc time

end Leaves

/-! ## Operations under another key -/

section Stranger

variable {b : Node} (h : s.Sound) (hb : b ∈ s.nodes) {key : String} (hkey : canonicalKey key ≠ b.key)

include h hb hkey

/-- Under another key than that of a live node another node is found, or none: what is then done for a node of another UUID is all
that is done. -/
theorem leaves_byKey_bind {α : Type} {f : Node → Program α} {time : Time}
    (hf : ∀ a : Node, canonicalUuid a.uuid ≠ b.uuid → s.Leaves b.uuid ((f a).run time s).2) :
    s.Leaves b.uuid ((Roster.byKey key >>= f).run time s).2 := by
  by_cases hfound : ∃ a ∈ s.nodes, a.key = canonicalKey key
  · obtain ⟨a, ha, hakey⟩ := hfound
    rw [run_bind_of_ok (h.run_byKey ha hakey time)]
    refine hf a ?_
    rw [h.canonical a ha]
    intro huuid
    rw [h.eq_of_uuid_eq hb ha huuid] at hakey
    exact hkey hakey.symm
  · have hnone : ∀ a ∈ s.nodes, a.key ≠ canonicalKey key := fun a ha hakey => hfound ⟨a, ha, hakey⟩
    rw [run_bind_of_error (Roster.run_byKey_of_ne hnone time)]
    exact .refl b.uuid s

theorem leaves_updateMetadata (observed : Observation) (time : Time) :
    s.Leaves b.uuid ((Fleet.updateMetadata key observed).run time s).2 := by
  have hlive : s.HasNode b.uuid := ⟨b, hb, rfl⟩
  refine leaves_byKey_bind h hb hkey ?_
  intro a hne
  have hobserve : (Roster.observe a.uuid observed).Asks (Call.Spares b.uuid) := Program.asks_ask (.applyObservation hne observed)
  have hleaves := (Leaves.refl b.uuid s).run hlive hobserve time
  cases hrun : (Roster.observe a.uuid observed).run time s with
  | mk result t =>
    rw [hrun] at hleaves
    cases result with
    | error why => rwa [run_bind_of_error hrun]
    | ok n =>
      -- the node that comes back from the observation has the UUID of the one observed
      have huuid : canonicalUuid n.uuid ≠ b.uuid := by
        rwa [(Roster.hasNode_of_run_observe hrun).1, canonicalUuid_canonicalUuid]
      rw [run_bind_of_ok hrun]
      refine hleaves.run hlive ?_ time
      refine (Roster.asks_noteEvent n.uuid .status fun now => .touchEvent huuid .status now).bind ?_
      intro _
      exact Program.asks_pure n

theorem leaves_updateAddress (ip : String) (time : Time) : s.Leaves b.uuid ((Fleet.updateAddress key ip).run time s).2 := by
  refine leaves_byKey_bind h hb hkey ?_
  intro a hne
  exact (Leaves.refl b.uuid s).run ⟨b, hb, rfl⟩ (Program.asks_ask (.applyObservation hne (.address ip))) time

theorem leaves_poll (time : Time) : s.Leaves b.uuid ((Fleet.poll key).run time s).2 := by
  refine leaves_byKey_bind h hb hkey ?_
  intro a hne
  refine (Leaves.refl b.uuid s).run ⟨b, hb, rfl⟩ ?_ time
  refine (Delivery.asks_pending (fun _ => .reads) a).bind ?_
  intro pending
  refine (Roster.asks_noteEvent a.uuid .queryRead fun now => .touchEvent hne .queryRead now).bind ?_
  intro _
  exact Program.asks_pure pending

theorem leaves_submitResult (name : String) (result : Int) (time : Time) :
    s.Leaves b.uuid ((Fleet.submitResult key name result).run time s).2 := by
  refine leaves_byKey_bind h hb hkey ?_
  intro a hne
  refine (Leaves.refl b.uuid s).run ⟨b, hb, rfl⟩ ?_ time
  refine (Delivery.asks_record (fun _ => .reads) name a.uuid result (.recordExecution hne)).bind ?_
  intro _
  exact Roster.asks_noteEvent a.uuid .queryWrite fun now => .touchEvent hne .queryWrite now

theorem leaves_submitResults (statuses : Dictionary Int) (time : Time) :
    s.Leaves b.uuid ((Fleet.submitResults key statuses).run time s).2 := by
  refine leaves_byKey_bind h hb hkey ?_
  intro a hne
  refine (Leaves.refl b.uuid s).run ⟨b, hb, rfl⟩ ?_ time
  refine (Delivery.asks_recordAll (fun _ => .reads) a.uuid .empty statuses.entries fun _ _ => .recordExecution hne).bind ?_
  intro report
  refine Program.asks_ite (fun _ => Program.asks_pure report) ?_
  intro _
  refine (Roster.asks_noteEvent a.uuid .queryWrite fun now => .touchEvent hne .queryWrite now).bind ?_
  intro _
  exact Program.asks_pure report

/-- An operation under another key than that of a live node leaves what is stored under the UUID of that node. -/
theorem leaves_of_key? {settings : Settings} {op : Operation} (hop : op.key? = some key) (time : Time) :
    s.Leaves b.uuid (op.run settings time s).2 := by
  unfold Operation.run
  cases op with
  | enroll uuid key' attributes =>
    refine (Leaves.refl b.uuid s).run ⟨b, hb, rfl⟩ ?_ time
    exact (Fleet.asks_enroll (fun _ => .reads) settings uuid key' attributes fun _ _ _ => .insertNode _ _).map _
  | updateMetadata key' observed =>
    cases hop
    rw [Operation.program, Program.run_map]
    exact leaves_updateMetadata h hb hkey observed time
  | updateAddress key' ip =>
    cases hop
    rw [Operation.program, Program.run_map]
    exact leaves_updateAddress h hb hkey ip time
  | poll key' =>
    cases hop
    rw [Operation.program, Program.run_map]
    exact leaves_poll h hb hkey time
  | submitResult key' name result =>
    cases hop
    rw [Operation.program, Program.run_map]
    exact leaves_submitResult h hb hkey name result time
  | submitResults key' statuses =>
    cases hop
    rw [Operation.program, Program.run_map]
    exact leaves_submitResults h hb hkey statuses time
  | _ => cases hop

end Stranger

/-! ## What is due -/

/-- The executions of a UUID tell which queries it has executed. -/
theorem hasExecution_eq_any_filter (s : Store) (name uuid : String) :
    s.hasExecution name uuid = (s.executions.filter (·.uuid == uuid)).any (·.name == name) := by
  simp only [hasExecution, List.any_filter, Bool.and_comm]

/-- What is due to a node is told by the queries without their counts. -/
theorem due_eq_uncounted (s : Store) (node : Node) :
    s.due node = .ofList (((s.queries.map Query.uncounted).filter fun q => s.Due node q).map fun q => (q.name, q.text)) := by
  rw [due, List.filter_map, List.map_map]
  rfl

/-- What is due to a node is the same where its executions, the targets and the queries but for their counts are. -/
theorem due_eq_of_leaves {node : Node} (h : s.Leaves node.uuid t)
    (hqueries : t.queries.map Query.uncounted = s.queries.map Query.uncounted) (htargets : t.targets = s.targets) :
    t.due node = s.due node := by
  have hdue : ∀ q, t.Due node q ↔ s.Due node q := by
    intro q
    rw [due_iff, due_iff, awaits, awaits, hasExecution_eq_any_filter, hasExecution_eq_any_filter, h.executions, targetsOf,
      targetsOf, htargets]
  rw [due_eq_uncounted, due_eq_uncounted, hqueries]
  simp only [hdue]

end Store

/-- Nodes leave one another alone. Whether an operation of a node that goes by another key succeeds or not, the row, the histories,
the archive and the executions of a live node are what they were, and so is the answer to its polls. -/
theorem Operation.leaves_neighbours {settings : Settings} {s : Store} (hs : Reachable settings s) {b : Node} (hb : b ∈ s.nodes)
    {op : Operation} {key : String} (hop : op.key? = some key) (hkey : canonicalKey key ≠ b.key) (time : Time) :
    let s' := (op.run settings time s).2
    (s'.findNode (.key b.key) = some b ∧ s'.findNode (.uuid b.uuid) = some b) ∧
      (∀ kind, s'.historyOf b.uuid kind = s.historyOf b.uuid kind) ∧
      s'.archived b.uuid = s.archived b.uuid ∧
      s'.executions.filter (·.uuid == b.uuid) = s.executions.filter (·.uuid == b.uuid) ∧
      ∃ pending : Dictionary String, ∀ spelling, canonicalKey spelling = b.key → ∀ now later : Time,
        ((Operation.poll spelling).run settings now s).1 = .ok (.pending pending) ∧
        ((Operation.poll spelling).run settings later s').1 = .ok (.pending pending) := by
  intro s'
  have hsound : s.Sound := Store.Sound.of_reachable hs
  have hsound' : s'.Sound := Store.Sound.of_reachable (hs.run op time)
  have hleaves : s.Leaves b.uuid s' := Store.leaves_of_key? hsound hb hkey hop time
  obtain ⟨-, harchive, -, hqueries, htargets⟩ : s.OnlyTraffic s' := onlyTraffic_run (isTraffic_of_key? hop) time
  have hb' : b ∈ s'.nodes := (hleaves.mem_iff rfl).mpr hb
  have hdue : s'.due b = s.due b := Store.due_eq_of_leaves hleaves hqueries htargets
  refine ⟨⟨hsound'.findNode_key hb' rfl, Store.find?_eq_some_of_nodup hsound'.uuids hb'⟩, hleaves.histories, ?_,
    hleaves.executions, s.due b, ?_⟩
  · rw [Store.archived, Store.archived, harchive]
  · intro spelling hspelling now later
    have hpoll : ∀ (t : Store), t.Sound → b ∈ t.nodes → ∀ time,
        ((poll spelling).run settings time t).1 = .ok (.pending (t.due b)) := by
      intro t ht hbt time
      rw [run, program, Program.run_map_of_ok (Fleet.run_poll ht hbt hspelling.symm time)]
    refine ⟨hpoll s hsound hb now, ?_⟩
    rw [hpoll s' hsound' hb' later, hdue]

/-- Of two nodes that a query awaits one reports its result, and a third key is to enrol with the UUID of the other. The other node
still polls the query. -/
theorem Operation.leaves_neighbours_of_report_and_clash :
    let settings : Settings := .embedded ["prod"]
    let attributes : Attributes := { Attributes.blank with environment := "prod" }
    let s := replay settings .empty [(0, .ensureAdmin "root"), (1, .enroll "a-1" "one" attributes),
      (2, .enroll "b-2" "two" attributes), (3, .createQuery 7 "root" "SELECT 1;" [⟨.environment, "prod"⟩] .standard)]
    let report : Operation := .submitResult "one" (QueryName.query 7) 0
    let reported := report.run settings 4 s
    let clash : Operation := .enroll "b-2" "three" attributes
    let clashed := clash.run settings 4 s
    reported.1 = .ok .nothing ∧ clashed.1 = .error (.refused (.nodeExists "B-2")) ∧
      ((poll "two").run settings 4 s).1 ≠ .ok (.pending .empty) ∧
      ((poll " TWO ").run settings 5 reported.2).1 = ((poll "two").run settings 4 s).1 ∧
      ((poll " TWO ").run settings 5 clashed.2).1 = ((poll "two").run settings 4 s).1 := by
  intro settings attributes s report reported clash clashed
  have hs : Reachable settings s := reachable_empty.replay _
  obtain ⟨b, hb, hkey⟩ : ∃ b ∈ s.nodes, b.key = "two" := by decide +kernel
  have htwo : canonicalKey "two" = b.key := by rw [hkey]; decide +kernel
  have hspelled : canonicalKey " TWO " = b.key := by rw [hkey]; decide +kernel
  have hone : canonicalKey "one" ≠ b.key := by rw [hkey]; decide +kernel
  have hthree : canonicalKey "three" ≠ b.key := by rw [hkey]; decide +kernel
  have hreport : report.key? = some "one" := rfl
  have hclash : clash.key? = some "three" := rfl
  obtain ⟨-, -, -, -, pending, hreported⟩ := leaves_neighbours hs hb hreport hone 4
  obtain ⟨-, -, -, -, pending', hclashed⟩ := leaves_neighbours hs hb hclash hthree 4
  refine ⟨by decide +kernel, by decide +kernel, by decide +kernel, ?_, ?_⟩
  · rw [(hreported "two" htwo 4 5).1]
    exact (hreported " TWO " hspelled 4 5).2
  · rw [(hclashed "two" htwo 4 5).1]
    exact (hclashed " TWO " hspelled 4 5).2

end FleetControl
