import FleetControl.Proofs.Atomicity
import FleetControl.Proofs.Tally
import FleetControl.Proofs.Text.ByteOrder
import Mathlib.Data.List.Induction
import Mathlib.Data.List.Perm.Basic

/-!
# Batches of results

A batch is recorded name by name, and no name is left out or taken twice: each is sorted by what the store held when the batch
came (`Delivery.run_recordAll`), since the names of a batch differ and a record of one says nothing of another. What a batch or
any other sequence of results leaves is told by the executions that were new, in the order in which they were recorded
(`Store.Takes`). Their order shows in nothing but numbers and times, so the results may as well be submitted one by one
(`Operation.submitResults_as_singles`).
-/

namespace FleetControl

open Program (run_bind_of_ok run_ask_of_ok run_map_of_ok run_map_of_error)

/-! ## Executions that are recorded one after another -/

/-- The query after an execution, which is counted if it is one of this query. -/
def Query.tally (q : Query) (e : Execution.Draft) : Query := if q.name = e.name then q.tallied e else q

theorem Query.name_foldl_tally (q : Query) (es : List Execution.Draft) : (es.foldl tally q).name = q.name := by
  induction es generalizing q with
  | nil => rfl
  | cons e es ih =>
    rw [List.foldl_cons, ih, tally]
    split
    · exact (q.same_tallied e).name
    · rfl

/-- Two executions may be counted in either order. -/
instance Query.rightCommutative_tally : RightCommutative Query.tally := by
  constructor
  intro q e e'
  simp only [tally, tallied, counted]
  split_ifs <;> rfl

/-- A store after executions were recorded one after another, whenever that was. Of the nodes nothing is said. -/
structure Store.Recorded (s t : Store) (es : List Execution.Draft) : Prop where
  lastId : t.lastId = s.lastId + es.length
  archive : t.archive = s.archive
  history : t.history = s.history
  queries : t.queries = s.queries.map fun q => es.foldl Query.tally q
  targets : t.targets = s.targets
  executions : ∃ added, t.executions = s.executions ++ added ∧ added.map (·.toDraft) = es
  users : t.users = s.users

namespace Store.Recorded

variable {s t v : Store} {es es' : List Execution.Draft}

theorem refl (s : Store) : s.Recorded s [] where
  lastId := rfl
  archive := rfl
  history := rfl
  queries := (List.map_id _).symm
  targets := rfl
  executions := ⟨[], (List.append_nil _).symm, rfl⟩
  users := rfl

theorem trans (h : s.Recorded t es) (h' : t.Recorded v es') : s.Recorded v (es ++ es') where
  lastId := by rw [h'.lastId, h.lastId, List.length_append, Nat.add_assoc]
  archive := h'.archive.trans h.archive
  history := h'.history.trans h.history
  queries := by
    rw [h'.queries, h.queries, List.map_map]
    refine List.map_congr_left fun q _ => ?_
    rw [List.foldl_append]
    rfl
  targets := h'.targets.trans h.targets
  executions := by
    obtain ⟨added, heq, hdrafts⟩ := h.executions
    obtain ⟨added', heq', hdrafts'⟩ := h'.executions
    exact ⟨added ++ added', by rw [heq', heq, List.append_assoc], by rw [List.map_append, hdrafts, hdrafts']⟩
  users := h'.users.trans h.users

/-- A new execution of a stored query is recorded. -/
theorem record {e : Execution.Draft} (hstored : e.name ∈ s.queryNames) (hnew : (e.name, e.uuid) ∉ s.executed) (time : Time) :
    s.Recorded ((Call.recordExecution e).after time s) [e] ∧ ((Call.recordExecution e).after time s).nodes = s.nodes := by
  have hfree := s.hasExecution_eq_false hnew
  have hfound : s.queries.any (·.name == e.name) = true := by simpa [Store.queryNames] using hstored
  rw [Call.after_recordExecution, if_neg (by simp [hfree, hfound])]
  exact ⟨⟨rfl, rfl, rfl, rfl, rfl, ⟨_, rfl, rfl⟩, rfl⟩, rfl⟩

/-- What is recorded says nothing of the nodes, so they may change. -/
theorem changeNode (h : s.Recorded t es) (uuid : String) (change : Node → Node) : s.Recorded (t.changeNode uuid change) es :=
  ⟨h.lastId, h.archive, h.history, h.queries, h.targets, h.executions, h.users⟩

/-- Where nothing is recorded and the nodes are the same, the store is. -/
theorem eq_of_nil (h : s.Recorded t []) (hnodes : t.nodes = s.nodes) : t = s := by
  obtain ⟨added, hexecutions, hnil⟩ := h.executions
  rw [List.map_eq_nil_iff.mp hnil, List.append_nil] at hexecutions
  obtain ⟨hlastId, harchive, hhistory, hqueries, htargets, -, husers⟩ := h
  have hqueries' : t.queries = s.queries := hqueries.trans (List.map_id _)
  cases s
  cases t
  simp_all

/-- No query is added, and none renamed. -/
theorem queryNames (h : s.Recorded t es) : t.queryNames = s.queryNames := by
  unfold Store.queryNames
  rw [h.queries, List.map_map]
  exact List.map_congr_left fun q _ => q.name_foldl_tally es

/-- What was recorded is executed. -/
theorem executed (h : s.Recorded t es) : t.executed = s.executed ++ es.map fun e => (e.name, e.uuid) := by
  obtain ⟨added, hexecutions, hdrafts⟩ := h.executions
  unfold Store.executed
  rw [hexecutions, List.map_append, ← hdrafts, List.map_map]
  rfl

end Store.Recorded

/-! ## How the names of a batch are sorted -/

namespace Store

variable (s : Store) (uuid : String)

/-- A result of the query is new for a node: the query is stored, and no execution of it by the node is. -/
def Lacks (name : String) : Prop := name ∈ s.queryNames ∧ (name, uuid) ∉ s.executed

instance (name : String) : Decidable (s.Lacks uuid name) := inferInstanceAs (Decidable (_ ∧ _))

/-- Names sorted for a node: those of stored queries without an execution by the node, those with one, and those of no query. -/
def sorted (names : List String) : Delivery.Report where
  recorded := names.filter fun name => s.Lacks uuid name
  duplicates := names.filter fun name => name ∈ s.queryNames ∧ (name, uuid) ∈ s.executed
  unknown := names.filter fun name => name ∉ s.queryNames

/-- The executions by a node that results come to, where they are new. -/
def drafts (results : List (String × Int)) : List Execution.Draft :=
  (results.filter fun result => s.Lacks uuid result.1).map fun result => ⟨result.1, uuid, result.2⟩

variable {s uuid}

theorem drafts_append (results more : List (String × Int)) :
    s.drafts uuid (results ++ more) = s.drafts uuid results ++ s.drafts uuid more := by
  rw [drafts, List.filter_append, List.map_append]
  rfl

/-- The new executions are of the names that are recorded. -/
theorem map_name_drafts (results : List (String × Int)) :
    (s.drafts uuid results).map (·.name) = (s.sorted uuid (results.map (·.1))).recorded := by
  rw [drafts, sorted, List.map_map, List.filter_map]
  rfl

/-- The new executions are of the node and of the names that are recorded. -/
theorem map_executed_drafts (results : List (String × Int)) :
    ((s.drafts uuid results).map fun e => (e.name, e.uuid)) =
      (s.sorted uuid (results.map (·.1))).recorded.map fun name => (name, uuid) := by
  rw [← map_name_drafts, drafts, List.map_map, List.map_map, List.map_map]
  rfl

/-- The new executions of some results are of their names. -/
theorem map_name_drafts_sublist (results : List (String × Int)) :
    ((s.drafts uuid results).map (·.name)).Sublist (results.map (·.1)) := by
  rw [map_name_drafts]
  exact List.filter_sublist

/-- A query other than those recorded is executed by the node or not as before. -/
theorem Recorded.mem_executed_iff {t : Store} {es : List Execution.Draft} (h : s.Recorded t es) {name : String}
    (hname : name ∉ es.map (·.name)) (uuid : String) : (name, uuid) ∈ t.executed ↔ (name, uuid) ∈ s.executed := by
  rw [h.executed, List.mem_append]
  refine or_iff_left ?_
  intro hmem
  obtain ⟨e, he, heq⟩ := List.mem_map.mp hmem
  exact hname (List.mem_map.mpr ⟨e, he, (Prod.mk.inj heq).1⟩)

/-- A name other than those recorded is new or not as before. -/
theorem Recorded.lacks_iff {t : Store} {es : List Execution.Draft} (h : s.Recorded t es) {name : String}
    (hname : name ∉ es.map (·.name)) : t.Lacks uuid name ↔ s.Lacks uuid name := by
  rw [Lacks, Lacks, h.queryNames, h.mem_executed_iff hname]

/-- Names other than those recorded are sorted as before. -/
theorem Recorded.sorted_eq {t : Store} {es : List Execution.Draft} (h : s.Recorded t es) {names : List String}
    (hnames : ∀ name ∈ names, name ∉ es.map (·.name)) : t.sorted uuid names = s.sorted uuid names := by
  unfold sorted
  rw [h.queryNames]
  congr 1
  · exact List.filter_congr fun name hname => decide_eq_decide.mpr (h.lacks_iff (hnames name hname))
  · refine List.filter_congr fun name hname => decide_eq_decide.mpr ?_
    rw [h.mem_executed_iff (hnames name hname)]

/-- Results of names other than those recorded are new or not as before. -/
theorem Recorded.drafts_eq {t : Store} {es : List Execution.Draft} (h : s.Recorded t es) {results : List (String × Int)}
    (hnames : ∀ result ∈ results, result.1 ∉ es.map (·.name)) : t.drafts uuid results = s.drafts uuid results := by
  unfold drafts
  rw [List.filter_congr fun result hresult => decide_eq_decide.mpr (h.lacks_iff (hnames result hresult))]

end Store

/-- One report after another. -/
def Delivery.Report.append (a b : Report) : Report :=
  ⟨a.recorded ++ b.recorded, a.duplicates ++ b.duplicates, a.unknown ++ b.unknown⟩

/-- A batch in which no name comes twice is sorted by what is stored when it comes, and its new executions are recorded in order. -/
theorem Delivery.run_recordAll {uuid : String} (huuid : canonicalUuid uuid = uuid) (report : Report)
    {results : List (String × Int)} (hnodup : (results.map (·.1)).Nodup) (time : Time) (s : Store) :
    ∃ t, (recordAll uuid report results).run time s = (.ok (report.append (s.sorted uuid (results.map (·.1)))), t) ∧
      s.Recorded t (s.drafts uuid results) ∧ t.nodes = s.nodes := by
  induction results generalizing report s with
  | nil =>
    refine ⟨s, ?_, .refl s, rfl⟩
    simp [recordAll, Report.append, Store.sorted]
  | cons result rest ih =>
    obtain ⟨name, value⟩ := result
    obtain ⟨hname, hrest⟩ := List.nodup_cons.mp hnodup
    rw [run_recordAll_cons, huuid]
    by_cases hstored : name ∈ s.queryNames
    · rw [if_neg (not_not.mpr hstored)]
      by_cases hexecuted : (name, uuid) ∈ s.executed
      · obtain ⟨t, hrun, hrecorded, hnodes⟩ := ih { report with duplicates := report.duplicates ++ [name] } hrest s
        refine ⟨t, ?_, ?_, hnodes⟩
        · rw [if_pos hexecuted, hrun]
          simp [Report.append, Store.sorted, Store.Lacks, hstored, hexecuted]
        · simpa [Store.drafts, Store.Lacks, hexecuted] using hrecorded
      · let e : Execution.Draft := ⟨name, uuid, value⟩
        obtain ⟨hfirst, hsame⟩ := Store.Recorded.record (e := e) hstored hexecuted time
        obtain ⟨t, hrun, hrecorded, hnodes⟩ := ih { report with recorded := report.recorded ++ [name] } hrest
          ((Call.recordExecution e).after time s)
        have hother : ∀ other ∈ rest.map (·.1), other ∉ [e].map (·.name) := by
          intro other hmem heq
          exact hname (List.mem_singleton.mp heq ▸ hmem)
        rw [hfirst.sorted_eq hother] at hrun
        rw [hfirst.drafts_eq fun result hresult => hother result.1 (List.mem_map_of_mem hresult)] at hrecorded
        refine ⟨t, ?_, ?_, hnodes.trans hsame⟩
        · rw [if_neg hexecuted, hrun]
          simp [Report.append, Store.sorted, Store.Lacks, hstored, hexecuted]
        · have hall := hfirst.trans hrecorded
          simpa [Store.drafts, Store.Lacks, hstored, hexecuted, e] using hall
    · obtain ⟨t, hrun, hrecorded, hnodes⟩ := ih { report with unknown := report.unknown ++ [name] } hrest s
      refine ⟨t, ?_, ?_, hnodes⟩
      · rw [if_pos hstored, hrun]
        simp [Report.append, Store.sorted, Store.Lacks, hstored]
      · simpa [Store.drafts, Store.Lacks, hstored] using hrecorded

/-! ## Times and order -/

/-- The node but for times: that of its last change, and that of its last result, of which only is kept whether there was one. -/
def Node.undated (n : Node) : Node :=
  { n with lastSeen := { n.lastSeen with queryWrite := n.lastSeen.queryWrite.map fun _ => 0 }, updatedAt := 0 }

/-- The rows of nodes, where a result of the node of a UUID was noted. -/
def Node.heardOf (uuid : String) (rows : List Node) : List Node :=
  rows.map fun row => if row.uuid = uuid then row.touched .queryWrite 0 else row

/-- To note one more result shows in times only. -/
theorem Node.heardOf_heardOf (uuid : String) (rows : List Node) : heardOf uuid (heardOf uuid rows) = heardOf uuid rows := by
  unfold heardOf
  rw [List.map_map]
  refine List.map_congr_left fun row _ => ?_
  by_cases h : row.uuid = uuid
  · simp only [Function.comp_apply, if_pos h]
    rw [if_pos (show (row.touched .queryWrite 0).uuid = uuid from h)]
    rfl
  · simp only [Function.comp_apply, if_neg h]

/-- Whenever a result is noted, it shows alike but for times. -/
theorem Store.map_undated_changeNode (s : Store) (uuid : String) (time : Time) :
    (s.changeNode uuid fun m => m.touched .queryWrite time).nodes.map Node.undated =
      Node.heardOf uuid (s.nodes.map Node.undated) := by
  unfold changeNode Node.heardOf
  rw [List.map_map, List.map_map]
  refine List.map_congr_left fun n _ => ?_
  simp only [Function.comp_apply]
  rw [show n.undated.uuid = n.uuid from rfl]
  split <;> rfl

/-- Of executions of different queries those of one query are the same in any order, since there is at most one. -/
theorem Execution.filter_name_eq_of_perm {es es' : List Execution.Draft} (hperm : es.Perm es') (hnodup : (es.map (·.name)).Nodup)
    (name : String) : es'.filter (·.name == name) = es.filter (·.name == name) := by
  have hfilter := hperm.filter (·.name == name)
  rcases hes : es.filter (·.name == name) with _ | ⟨e, _ | ⟨e', rest⟩⟩ <;> rw [hes] at hfilter
  · exact (List.perm_nil.mp hfilter.symm).trans hes.symm
  · exact (List.perm_singleton.mp hfilter.symm).trans hes.symm
  · have hname : ∀ e ∈ es.filter (·.name == name), e.name = name := fun e he => beq_iff_eq.mp (List.mem_filter.mp he).2
    have hdistinct : ((es.filter (·.name == name)).map (·.name)).Nodup := hnodup.sublist (List.filter_sublist.map _)
    rw [hes] at hname hdistinct
    rw [List.map_cons, List.map_cons, hname e (by simp), hname e' (by simp)] at hdistinct
    exact absurd List.mem_cons_self (List.nodup_cons.mp hdistinct).1

/-- Two stores that differ in numbers and times of executions and in times of the nodes only, and in the order of executions of
different queries. -/
structure Store.Alike (s t : Store) : Prop where
  lastId : t.lastId = s.lastId
  nodes : t.nodes.map Node.undated = s.nodes.map Node.undated
  archive : t.archive = s.archive
  history : t.history = s.history
  queries : t.queries = s.queries
  targets : t.targets = s.targets
  executions : ∀ name, (t.executionsOf name).map (·.toDraft) = (s.executionsOf name).map (·.toDraft)
  users : t.users = s.users

/-- A store after executions by the node of a UUID were recorded one after another, whenever that was, and it was noted of the node
if there were any. -/
structure Store.Takes (s t : Store) (uuid : String) (es : List Execution.Draft) : Prop extends s.Recorded t es where
  nodes : t.nodes.map Node.undated =
    if es = [] then s.nodes.map Node.undated else Node.heardOf uuid (s.nodes.map Node.undated)

namespace Store.Takes

variable {s t v : Store} {uuid : String} {es es' : List Execution.Draft}

theorem refl (s : Store) (uuid : String) : s.Takes s uuid [] := ⟨.refl s, rfl⟩

theorem trans (h : s.Takes t uuid es) (h' : t.Takes v uuid es') : s.Takes v uuid (es ++ es') := by
  refine ⟨h.toRecorded.trans h'.toRecorded, ?_⟩
  rw [h'.nodes, h.nodes]
  by_cases hes : es = []
  · rw [if_pos hes, hes, List.nil_append]
  · rw [if_neg hes, if_neg (List.append_ne_nil_of_left_ne_nil hes es'), Node.heardOf_heardOf, ite_self]

/-- The nodes are the same, told by key and UUID. -/
theorem identities (h : s.Takes t uuid es) : t.nodes.map (fun m => (m.key, m.uuid)) = s.nodes.map fun m => (m.key, m.uuid) := by
  have hundated : ∀ rows : List Node, (rows.map Node.undated).map (fun m => (m.key, m.uuid)) =
      rows.map fun m => (m.key, m.uuid) := fun rows => List.map_map
  have hheard : ∀ rows : List Node, (Node.heardOf uuid rows).map (fun m => (m.key, m.uuid)) =
      rows.map fun m => (m.key, m.uuid) := by
    intro rows
    rw [Node.heardOf, List.map_map]
    refine List.map_congr_left fun row _ => ?_
    simp only [Function.comp_apply]
    split <;> rfl
  rw [← hundated t.nodes, h.nodes]
  split
  · exact hundated _
  · rw [hheard, hundated]

/-- A node is there still, with its key and its UUID. -/
theorem exists_node (h : s.Takes t uuid es) {n : Node} (hn : n ∈ s.nodes) : ∃ m ∈ t.nodes, m.key = n.key ∧ m.uuid = n.uuid := by
  have hmem : (n.key, n.uuid) ∈ t.nodes.map fun m => (m.key, m.uuid) := by
    rw [h.identities]
    exact List.mem_map_of_mem hn
  obtain ⟨m, hm, heq⟩ := List.mem_map.mp hmem
  exact ⟨m, hm, (Prod.mk.inj heq).1, (Prod.mk.inj heq).2⟩

/-- The executions of a query are those before and the new ones of it. -/
theorem map_executionsOf (h : s.Takes t uuid es) (name : String) :
    (t.executionsOf name).map (·.toDraft) = (s.executionsOf name).map (·.toDraft) ++ es.filter (·.name == name) := by
  obtain ⟨added, hexecutions, rfl⟩ := h.executions
  unfold executionsOf
  rw [hexecutions, List.filter_append, List.map_append, List.filter_map]
  rfl

/-- In which order executions of different queries are recorded, and when, shows in numbers and times only. -/
theorem alike (h : s.Takes t uuid es) (h' : s.Takes v uuid es') (hperm : es.Perm es') (hnodup : (es.map (·.name)).Nodup) :
    t.Alike v where
  lastId := by rw [h.lastId, h'.lastId, hperm.length_eq]
  nodes := by
    rw [h.nodes, h'.nodes]
    by_cases hes : es = []
    · rw [if_pos hes, if_pos (List.perm_nil.mp (hes ▸ hperm.symm))]
    · have hes' : es' ≠ [] := by
        rintro rfl
        exact hes (List.perm_nil.mp hperm)
      rw [if_neg hes, if_neg hes']
  archive := h'.archive.trans h.archive.symm
  history := h'.history.trans h.history.symm
  queries := by
    rw [h.queries, h'.queries]
    exact List.map_congr_left fun q _ => (hperm.foldl_eq q).symm
  targets := h'.targets.trans h.targets.symm
  executions name := by
    rw [h.map_executionsOf, h'.map_executionsOf, Execution.filter_name_eq_of_perm hperm hnodup]
  users := h'.users.trans h.users.symm

end Store.Takes

/-! ## One result -/

namespace Fleet

variable {s : Store} {n : Node} {key : String}

/-- A result that a node submits is refused, and nothing changes, unless it is new. -/
theorem run_submitResult (h : s.Sound) (hn : n ∈ s.nodes) (hkey : n.key = canonicalKey key) (name : String) (result : Int)
    (time : Time) :
    (submitResult key name result).run time s =
      if name ∉ s.queryNames then (.error (.refused (.noQuery name)), s)
      else if (name, n.uuid) ∈ s.executed then (.error (.refused (.alreadyExecuted name n.uuid)), s)
      else (.ok (), ((Call.recordExecution ⟨name, n.uuid, result⟩).after time s).changeNode n.uuid
        fun m => m.touched .queryWrite time) := by
  have hrecord := Delivery.run_record time s name n.uuid result
  rw [h.canonical n hn] at hrecord
  unfold submitResult
  rw [run_bind_of_ok (h.run_byKey hn hkey time)]
  split
  · rename_i hunknown
    rw [if_pos hunknown] at hrecord
    exact Program.run_bind_of_error hrecord _
  · rename_i hstored
    rw [if_neg hstored] at hrecord
    split
    · rename_i hexecuted
      rw [if_pos hexecuted] at hrecord
      exact Program.run_bind_of_error hrecord _
    · rename_i hnew
      rw [if_neg hnew] at hrecord
      rw [run_bind_of_ok hrecord]
      have hnodes := (Store.Recorded.record (e := ⟨name, n.uuid, result⟩) (not_not.mp hstored) hnew time).2
      have hproper : (Call.recordExecution ⟨name, n.uuid, result⟩).Proper (.embedded []) := .recordExecution _ (h.canonical n hn)
      exact (h.after hproper time).run_noteEvent (hnodes ▸ hn) .queryWrite time

/-- What a submitted result leaves is told by its execution, if it is new. -/
theorem takes_submitResult (h : s.Sound) (hn : n ∈ s.nodes) (hkey : n.key = canonicalKey key) (name : String) (result : Int)
    (time : Time) : s.Takes ((submitResult key name result).run time s).2 n.uuid (s.drafts n.uuid [(name, result)]) := by
  rw [run_submitResult h hn hkey]
  by_cases hlacks : s.Lacks n.uuid name
  · obtain ⟨hrecorded, hnodes⟩ := Store.Recorded.record (e := ⟨name, n.uuid, result⟩) hlacks.1 hlacks.2 time
    have hdrafts : s.drafts n.uuid [(name, result)] = [⟨name, n.uuid, result⟩] := by
      rw [Store.drafts, List.filter_cons_of_pos (by simpa using hlacks)]
      rfl
    rw [if_neg (not_not.mpr hlacks.1), if_neg hlacks.2, hdrafts]
    refine ⟨hrecorded.changeNode _ _, ?_⟩
    rw [Store.map_undated_changeNode, hnodes, if_neg (List.cons_ne_nil _ _)]
  · have hdrafts : s.drafts n.uuid [(name, result)] = [] := by
      rw [Store.drafts, List.filter_cons_of_neg (by simpa using hlacks)]
      rfl
    have hleft : ((submitResult key name result).run time s).2 = s := by
      rw [run_submitResult h hn hkey]
      by_cases hstored : name ∈ s.queryNames
      · rw [if_neg (not_not.mpr hstored), if_pos (by_contra fun hnew => hlacks ⟨hstored, hnew⟩)]
      · rw [if_pos hstored]
    rw [← run_submitResult h hn hkey, hleft, hdrafts]
    exact .refl s n.uuid

/-- A batch is answered with its names as they are sorted, and what it leaves is told by the executions that are new. -/
theorem run_submitResults (h : s.Sound) (hn : n ∈ s.nodes) (hkey : n.key = canonicalKey key) (statuses : Dictionary Int)
    (time : Time) :
    ∃ t, (submitResults key statuses).run time s = (.ok (s.sorted n.uuid statuses.keys), t) ∧
      s.Takes t n.uuid (s.drafts n.uuid statuses.entries) ∧ ((s.sorted n.uuid statuses.keys).recorded = [] → t = s) := by
  obtain ⟨t, hrun, hrecorded, hnodes⟩ := Delivery.run_recordAll (h.canonical n hn) .empty statuses.nodup_keys time s
  have hreport : Delivery.Report.empty.append (s.sorted n.uuid (statuses.entries.map (·.1))) = s.sorted n.uuid statuses.keys := rfl
  have hnames : (s.drafts n.uuid statuses.entries).map (·.name) = (s.sorted n.uuid statuses.keys).recorded :=
    Store.map_name_drafts statuses.entries
  rw [hreport] at hrun
  unfold submitResults
  rw [run_bind_of_ok (h.run_byKey hn hkey time), run_bind_of_ok hrun]
  by_cases hnone : s.drafts n.uuid statuses.entries = []
  · have hempty : (s.sorted n.uuid statuses.keys).recorded = [] := by rw [← hnames, hnone]; rfl
    rw [hnone] at hrecorded ⊢
    rw [if_pos (List.isEmpty_iff.mpr hempty)]
    refine ⟨t, rfl, ⟨hrecorded, ?_⟩, fun _ => hrecorded.eq_of_nil hnodes⟩
    rw [hnodes, if_pos rfl]
  · have hsome : (s.sorted n.uuid statuses.keys).recorded ≠ [] := by
      rw [← hnames, Ne, List.map_eq_nil_iff]
      exact hnone
    have hsound : t.Sound := by
      have hasks : (Delivery.recordAll n.uuid .empty statuses.entries).Asks (Call.Proper (.embedded [])) :=
        Delivery.asks_recordAll (fun _ => .reads) n.uuid .empty statuses.entries
          fun status _ => .recordExecution _ (canonicalUuid_canonicalUuid n.uuid)
      have hkept := Program.run_preserves (P := Store.Sound) (fun c hc s hs => hs.after hc time) hasks h
      rwa [hrun] at hkept
    rw [if_neg (mt List.isEmpty_iff.mp hsome), run_bind_of_ok (hsound.run_noteEvent (hnodes ▸ hn) .queryWrite time)]
    refine ⟨_, rfl, ⟨hrecorded.changeNode _ _, ?_⟩, fun hnil => absurd hnil hsome⟩
    rw [Store.map_undated_changeNode, hnodes, if_neg hnone]

end Fleet

/-! ## A batch and its results one by one -/

/-- A result that is submitted by itself. -/
structure SingleResult where
  time : Time
  key : String
  name : String
  result : Int

namespace SingleResult

variable {settings : Settings} {s : Store} {n : Node} {singles : List SingleResult}

/-- The operation by which the result is submitted. -/
def entry (x : SingleResult) : Time × Operation := (x.time, .submitResult x.key x.name x.result)

/-- The result as it stands in a batch. -/
def status (x : SingleResult) : String × Int := (x.name, x.result)

/-- What is left of submitting one result more. -/
theorem replay_concat (settings : Settings) (s : Store) (singles : List SingleResult) (x : SingleResult) :
    Operation.replay settings s ((singles ++ [x]).map entry) =
      ((Fleet.submitResult x.key x.name x.result).run x.time (Operation.replay settings s (singles.map entry))).2 := by
  unfold Operation.replay
  rw [List.map_append, List.foldl_append]
  exact congrArg Prod.snd (Program.run_map (Fleet.submitResult x.key x.name x.result) fun _ => Answer.nothing)

/-- A result of another query than all of some results is of another than all that are new of them. -/
theorem name_not_mem_drafts {x : SingleResult} {uuid : String}
    (hother : ∀ a ∈ singles.map (·.name), ∀ b ∈ [x].map (·.name), a ≠ b) :
    x.name ∉ (s.drafts uuid (singles.map status)).map (·.name) := by
  intro hmem
  have hname : x.name ∈ singles.map (·.name) := by
    have hnames := (Store.map_name_drafts_sublist (singles.map status)).subset hmem
    rwa [List.map_map] at hnames
  exact hother x.name hname x.name (by simp) rfl

/-- What results of a node leave that are submitted one by one is told by the executions that are new, as long as no two are of one
query. -/
theorem takes_replay (hs : Reachable settings s) (hn : n ∈ s.nodes) (hkeys : ∀ x ∈ singles, n.key = canonicalKey x.key)
    (hnodup : (singles.map (·.name)).Nodup) :
    s.Takes (Operation.replay settings s (singles.map entry)) n.uuid (s.drafts n.uuid (singles.map status)) := by
  induction singles using List.reverseRecOn with
  | nil => exact .refl s n.uuid
  | append_singleton singles x ih =>
    rw [List.map_append, List.nodup_append] at hnodup
    obtain ⟨hbefore, -, hother⟩ := hnodup
    have htakes := ih (fun y hy => hkeys y (List.mem_append_left _ hy)) hbefore
    obtain ⟨m, hm, hmkey, hmuuid⟩ := htakes.exists_node hn
    have hkey : m.key = canonicalKey x.key := hmkey.trans (hkeys x (by simp))
    have hlast := Fleet.takes_submitResult (Store.Sound.of_reachable (hs.replay _)) hm hkey x.name x.result x.time
    rw [hmuuid, htakes.drafts_eq] at hlast
    · rw [replay_concat, List.map_append, Store.drafts_append]
      exact htakes.trans hlast
    · intro result hresult
      rw [List.mem_singleton.mp hresult]
      exact name_not_mem_drafts hother

end SingleResult

/-! ## A batch that is reported -/

namespace Delivery.Report

/-- The names of every list of the report strictly ascend, byte by byte. -/
def Ascends (r : Report) : Prop :=
  ∀ names ∈ [r.recorded, r.duplicates, r.unknown], names.Pairwise fun a b => Utf8.encode a < Utf8.encode b

/-- The report has a name where the answer to a result of that query alone puts it. -/
def Tells (r : Report) (name : String) (answer : Except Stop Answer) : Prop :=
  (name ∈ r.recorded ↔ answer = .ok .nothing) ∧
  (name ∈ r.duplicates ↔ ∃ why, answer = .error (.refused why) ∧ why.kind = .alreadyRecorded) ∧
  (name ∈ r.unknown ↔ ∃ why, answer = .error (.refused why) ∧ why.kind = .notFound)

end Delivery.Report

namespace Store

variable {s : Store} {uuid name : String} {names : List String}

theorem mem_sorted_recorded (hname : name ∈ names) : name ∈ (s.sorted uuid names).recorded ↔ s.Lacks uuid name := by
  simp [sorted, hname]

theorem mem_sorted_duplicates (hname : name ∈ names) :
    name ∈ (s.sorted uuid names).duplicates ↔ name ∈ s.queryNames ∧ (name, uuid) ∈ s.executed := by
  simp [sorted, hname]

/-- The names of stored queries are recorded or duplicates. -/
theorem mem_sorted_recorded_or_duplicates (hname : name ∈ names) :
    name ∈ (s.sorted uuid names).recorded ∨ name ∈ (s.sorted uuid names).duplicates ↔ name ∈ s.queryNames := by
  rw [mem_sorted_recorded hname, mem_sorted_duplicates hname, Lacks, ← and_or_left]
  exact and_iff_left (em' _)

theorem mem_sorted_unknown (hname : name ∈ names) : name ∈ (s.sorted uuid names).unknown ↔ name ∉ s.queryNames := by
  simp [sorted, hname]

/-- Names that ascend are sorted into lists that do. -/
theorem ascends_sorted (h : names.Pairwise (· < ·)) : (s.sorted uuid names).Ascends := by
  have hencoded : names.Pairwise fun a b => Utf8.encode a < Utf8.encode b := h.imp Utf8.encode_lt
  intro list hlist
  simp only [List.mem_cons, List.not_mem_nil, or_false] at hlist
  rcases hlist with rfl | rfl | rfl
  · exact hencoded.filter _
  · exact hencoded.filter _
  · exact hencoded.filter _

/-- Every name is sorted into one of the lists. -/
theorem perm_sorted (s : Store) (uuid : String) (names : List String) :
    ((s.sorted uuid names).recorded ++ (s.sorted uuid names).duplicates ++ (s.sorted uuid names).unknown).Perm names := by
  let stored := names.filter fun name => name ∈ s.queryNames
  have hrecorded : (s.sorted uuid names).recorded = stored.filter fun name => (name, uuid) ∉ s.executed := by
    simp [stored, sorted, Lacks, List.filter_filter, and_comm]
  have hduplicates : (s.sorted uuid names).duplicates = stored.filter fun name => !decide ((name, uuid) ∉ s.executed) := by
    simp [stored, sorted, List.filter_filter, and_comm]
  have hunknown : (s.sorted uuid names).unknown = names.filter fun name => !decide (name ∈ s.queryNames) := by
    simp [sorted]
  rw [hrecorded, hduplicates, hunknown]
  exact ((List.filter_append_perm _ stored).append_right _).trans (List.filter_append_perm _ names)

/-- Where the node has executed every stored query of some names, none of them is new. -/
theorem sorted_of_executed (h : ∀ name ∈ names, name ∈ s.queryNames → (name, uuid) ∈ s.executed) :
    s.sorted uuid names =
      ⟨[], names.filter fun name => name ∈ s.queryNames, names.filter fun name => ¬name ∈ s.queryNames⟩ := by
  unfold sorted
  congr 1
  · refine List.filter_eq_nil_iff.mpr fun name hname => ?_
    rw [decide_eq_true_iff]
    exact fun hlacks => hlacks.2 (h name hname hlacks.1)
  · exact List.filter_congr fun name hname => decide_eq_decide.mpr (and_iff_left_of_imp (h name hname))

/-- Records of other names leave where a report has a name. -/
theorem Recorded.tells {t : Store} {es : List Execution.Draft} (h : s.Recorded t es) (hother : name ∉ es.map (·.name))
    (hname : name ∈ names) {answer : Except Stop Answer} (htells : (t.sorted uuid names).Tells name answer) :
    (s.sorted uuid names).Tells name answer := by
  obtain ⟨hrecorded, hduplicates, hunknown⟩ := htells
  rw [mem_sorted_recorded hname, h.lacks_iff hother] at hrecorded
  rw [mem_sorted_duplicates hname, h.queryNames, h.mem_executed_iff hother] at hduplicates
  rw [mem_sorted_unknown hname, h.queryNames] at hunknown
  exact ⟨(mem_sorted_recorded hname).trans hrecorded, (mem_sorted_duplicates hname).trans hduplicates,
    (mem_sorted_unknown hname).trans hunknown⟩

end Store

namespace Operation

variable {settings : Settings} {s : Store} {n : Node} {key : String}

/-- A result is answered as its name is sorted. -/
theorem tells_submitResult (h : s.Sound) (hn : n ∈ s.nodes) (hkey : n.key = canonicalKey key) {name : String} {names : List String}
    (hname : name ∈ names) (result : Int) (time : Time) :
    (s.sorted n.uuid names).Tells name ((submitResult key name result).run settings time s).1 := by
  unfold Delivery.Report.Tells
  rw [Store.mem_sorted_recorded hname, Store.mem_sorted_duplicates hname, Store.mem_sorted_unknown hname]
  have hrun := Fleet.run_submitResult h hn hkey name result time
  rw [run, program]
  by_cases hstored : name ∈ s.queryNames
  · rw [if_neg (not_not.mpr hstored)] at hrun
    by_cases hexecuted : (name, n.uuid) ∈ s.executed
    · rw [if_pos hexecuted] at hrun
      rw [Program.run_map_of_error hrun]
      simp [Store.Lacks, hstored, hexecuted, Refusal.kind]
    · rw [if_neg hexecuted] at hrun
      rw [Program.run_map_of_ok hrun]
      simp [Store.Lacks, hstored, hexecuted]
  · rw [if_pos hstored] at hrun
    rw [Program.run_map_of_error hrun]
    simp [Store.Lacks, hstored, Refusal.kind]

/-- A result that is submitted after others of its node is answered as its name was sorted before all of them, as long as no two
are of one query. -/
theorem tells_of_before (hs : Reachable settings s) (hn : n ∈ s.nodes) {before : List SingleResult} {x : SingleResult}
    (hkeys : ∀ y ∈ before ++ [x], n.key = canonicalKey y.key) (hnodup : ((before ++ [x]).map (·.name)).Nodup)
    {names : List String} (hname : x.name ∈ names) :
    (s.sorted n.uuid names).Tells x.name
      (x.entry.2.run settings x.time (replay settings s (before.map SingleResult.entry))).1 := by
  rw [List.map_append, List.nodup_append] at hnodup
  obtain ⟨hbefore, -, hother⟩ := hnodup
  have htakes := SingleResult.takes_replay hs hn (fun y hy => hkeys y (List.mem_append_left _ hy)) hbefore
  obtain ⟨m, hm, hmkey, hmuuid⟩ := htakes.exists_node hn
  have hkey : m.key = canonicalKey x.key := hmkey.trans (hkeys x (by simp))
  refine htakes.tells (SingleResult.name_not_mem_drafts hother) hname ?_
  rw [← hmuuid]
  exact tells_submitResult (.of_reachable (hs.replay _)) hm hkey hname x.result x.time

/-- Once results of a node are taken, a batch of their names is answered with no new one, and nothing changes. -/
theorem run_submitResults_of_takes {t : Store} (ht : t.Sound) {results : List (String × Int)}
    (htakes : s.Takes t n.uuid (s.drafts n.uuid results)) (hn : n ∈ s.nodes) (hkey : n.key = canonicalKey key)
    {again : Dictionary Int} (hsub : again.keys ⊆ results.map (·.1)) (time : Time) :
    (submitResults key again).run settings time t =
      (.ok (.report ⟨[], again.keys.filter fun name => name ∈ s.queryNames,
        again.keys.filter fun name => ¬name ∈ s.queryNames⟩), t) := by
  obtain ⟨m, hm, hmkey, hmuuid⟩ := htakes.exists_node hn
  -- whatever of the names is stored is executed by now
  have hexecuted : ∀ name ∈ again.keys, name ∈ t.queryNames → (name, m.uuid) ∈ t.executed := by
    intro name hname hstored
    rw [hmuuid, htakes.executed, Store.map_executed_drafts, List.mem_append]
    rw [htakes.queryNames] at hstored
    refine or_iff_not_imp_left.mpr fun hnew => List.mem_map_of_mem ?_
    exact (Store.mem_sorted_recorded (hsub hname)).mpr ⟨hstored, hnew⟩
  obtain ⟨t', hrun, -, hsame⟩ := Fleet.run_submitResults ht hm (hmkey.trans hkey) again time
  rw [Store.sorted_of_executed hexecuted, htakes.queryNames] at hrun hsame
  rw [hsame rfl] at hrun
  exact Program.run_map_of_ok hrun Answer.report

/-- A batch that a node submits by its key, however it is spelled, comes to what its results come to one by one, in any order and
at any times. The answer has each name of the batch in one of three ascending lists, and what was submitted once records nothing
again. -/
theorem submitResults_as_singles (hs : Reachable settings s) (hn : n ∈ s.nodes) (hkey : n.key = canonicalKey key)
    (statuses : Dictionary Int) (time : Time) :
    ∃ report t, (submitResults key statuses).run settings time s = (.ok (.report report), t) ∧
      report.Ascends ∧ (report.recorded ++ report.duplicates ++ report.unknown).Perm statuses.keys ∧
      (∀ name ∈ statuses.keys,
        (name ∈ report.recorded ↔ name ∈ s.queryNames ∧ (name, n.uuid) ∉ s.executed) ∧
        (name ∈ report.duplicates ↔ (name, n.uuid) ∈ s.executed) ∧ (name ∈ report.unknown ↔ name ∉ s.queryNames)) ∧
      (∀ singles : List SingleResult, (∀ x ∈ singles, n.key = canonicalKey x.key) →
        (singles.map SingleResult.status).Perm statuses.entries →
        t.Alike (replay settings s (singles.map SingleResult.entry)) ∧
        ∀ before x after, singles = before ++ x :: after →
          report.Tells x.name (x.entry.2.run settings x.time (replay settings s (before.map SingleResult.entry))).1) ∧
      ∀ (again : Dictionary Int) (key' : String) (time' : Time), again.keys ⊆ statuses.keys → n.key = canonicalKey key' →
        (submitResults key' again).run settings time' t =
          (.ok (.report ⟨[], again.keys.filter fun name => name ∈ report.recorded ∨ name ∈ report.duplicates,
            again.keys.filter fun name => ¬(name ∈ report.recorded ∨ name ∈ report.duplicates)⟩), t) := by
  have hsound := Store.Sound.of_reachable hs
  have hstored : ∀ name, (name, n.uuid) ∈ s.executed → name ∈ s.queryNames := by
    intro name hmem
    obtain ⟨e, he, heq⟩ := List.mem_map.mp hmem
    exact (Prod.mk.inj heq).1 ▸ (Tallied.of_reachable hs).stored e he
  obtain ⟨t, hrun, htakes, -⟩ := Fleet.run_submitResults hsound hn hkey statuses time
  have hanswer := Program.run_map_of_ok hrun Answer.report
  refine ⟨s.sorted n.uuid statuses.keys, t, hanswer, Store.ascends_sorted statuses.pairwise_keys,
    s.perm_sorted n.uuid statuses.keys, ?_, ?_, ?_⟩
  · intro name hname
    rw [Store.mem_sorted_recorded hname, Store.mem_sorted_duplicates hname, Store.mem_sorted_unknown hname]
    exact ⟨Iff.rfl, and_iff_right_of_imp (hstored name), Iff.rfl⟩
  · intro singles hkeys hperm
    have hnames : (singles.map (·.name)).Perm statuses.keys := by
      have hmapped := hperm.map (·.1)
      rwa [List.map_map] at hmapped
    have hnodup := hnames.nodup_iff.mpr statuses.nodup_keys
    have hdrafts : (s.drafts n.uuid statuses.entries).Perm (s.drafts n.uuid (singles.map SingleResult.status)) :=
      ((hperm.filter _).map _).symm
    refine ⟨htakes.alike (SingleResult.takes_replay hs hn hkeys hnodup) hdrafts ?_, ?_⟩
    · exact statuses.nodup_keys.sublist (Store.map_name_drafts_sublist statuses.entries)
    · rintro before x after rfl
      have hpart : (before ++ [x]).Sublist (before ++ x :: after) := by simp
      exact tells_of_before hs hn (fun y hy => hkeys y (hpart.subset hy)) (hnodup.sublist (hpart.map _))
        (hnames.subset (by simp))
  · intro again key' time' hsub hkey'
    have ht : Reachable settings t := by
      have hreached := hs.run (submitResults key statuses) time
      rwa [show (submitResults key statuses).run settings time s = _ from hanswer] at hreached
    refine (run_submitResults_of_takes (.of_reachable ht) htakes hn hkey' hsub time').trans ?_
    have hthere : ∀ name ∈ again.keys, name ∈ s.queryNames ↔ name ∈ (s.sorted n.uuid statuses.keys).recorded ∨
        name ∈ (s.sorted n.uuid statuses.keys).duplicates :=
      fun name hname => (Store.mem_sorted_recorded_or_duplicates (hsub hname)).symm
    rw [List.filter_congr fun name hname => decide_eq_decide.mpr (hthere name hname),
      List.filter_congr fun name hname => decide_eq_decide.mpr (not_congr (hthere name hname))]

/-- A node reports of a query for the first time, of one for the second time, and of one that is not stored, in a batch or one by
one. -/
theorem submitResults_of_three :
    let s := replay (.embedded ["prod"]) .empty [(0, .ensureAdmin "root"),
      (1, .enroll "n-1" "Key" { Attributes.blank with environment := "prod" }),
      (2, .createQuery 7 "root" "SELECT 1;" [⟨.environment, "prod"⟩] .standard),
      (3, .createQuery 8 "root" "SELECT 2;" [⟨.environment, "prod"⟩] .standard),
      (4, .submitResult "key" (QueryName.query 7) 0)]
    let singles : List SingleResult := [⟨6, "key", "none", 0⟩, ⟨8, "Key", QueryName.query 8, 1⟩, ⟨9, " key", QueryName.query 7, 2⟩]
    let statuses := Dictionary.ofList (singles.map SingleResult.status)
    ∃ t, (submitResults " KEY " statuses).run (.embedded ["prod"]) 5 s =
        (.ok (.report ⟨[QueryName.query 8], [QueryName.query 7], ["none"]⟩), t) ∧
      t.Alike (replay (.embedded ["prod"]) s (singles.map SingleResult.entry)) ∧
      ((submitResults "key" statuses).run (.embedded ["prod"]) 10 t).2 = t := by
  intro s singles statuses
  have hs : Reachable (.embedded ["prod"]) s := reachable_empty.replay _
  obtain ⟨n, hn, hkey⟩ : ∃ n ∈ s.nodes, n.key = canonicalKey " KEY " := by decide +kernel
  have hkeys : ∀ x ∈ singles, canonicalKey " KEY " = canonicalKey x.key := by decide +kernel
  have hperm : (singles.map SingleResult.status).Perm statuses.entries := by decide +kernel
  have hreport : ((submitResults " KEY " statuses).run (.embedded ["prod"]) 5 s).1 =
      .ok (.report ⟨[QueryName.query 8], [QueryName.query 7], ["none"]⟩) := by decide +kernel
  have hspelled : canonicalKey " KEY " = canonicalKey "key" := by decide +kernel
  obtain ⟨report, t, hrun, -, -, -, hsingles, hagain⟩ := submitResults_as_singles hs hn hkey statuses 5
  rw [hrun] at hreport
  obtain ⟨rfl⟩ := Answer.report.inj (Except.ok.inj hreport)
  refine ⟨t, hrun, (hsingles singles (fun x hx => hkey.trans (hkeys x hx)) hperm).1, ?_⟩
  rw [hagain statuses "key" 10 (List.Subset.refl _) (hkey.trans hspelled)]

end Operation

end FleetControl
