import FleetControl.Proofs.Delivery

/-!
# What becomes of a result

A result is recorded for the canonical UUID of the node that submits it, and no call removes a record. So once a node was told
that its result of a query is recorded, or was recorded before, the query is never pending again for a node of that UUID,
whatever happens in between (`Operation.not_pending_after_result`).
-/

namespace FleetControl

open Program (run_bind_of_ok run_ask_of_ok of_run_bind_eq_ok of_run_map_eq_ok run_preserves_of_all)

namespace Call

variable {s : Store} {e : Execution.Draft} (now : Time)

/-- An execution that is stored is not recorded again. -/
theorem exec_recordExecution_of_executed (h : (e.name, e.uuid) ∈ s.executed) :
    (recordExecution e).exec now s = .ok (false, s) := by
  simp only [exec, Store.recordExecution, s.hasExecution_iff.mpr h, if_true]

/-- A new execution of a stored query is recorded as it is. -/
theorem recorded_after (hnew : (e.name, e.uuid) ∉ s.executed) (hstored : e.name ∈ s.queryNames) :
    ∃ e' ∈ ((recordExecution e).after now s).executions, e'.toDraft = e := by
  have hfree := s.hasExecution_eq_false hnew
  have hfound : s.queries.any (·.name == e.name) = true := by simpa [Store.queryNames] using hstored
  rw [after_recordExecution, if_neg (by simp [hfree, hfound])]
  exact ⟨_, List.mem_append_right _ List.mem_cons_self, rfl⟩

/-- A call to record a new execution of a stored query is answered that it is recorded. -/
theorem exec_recordExecution_of_stored (hnew : (e.name, e.uuid) ∉ s.executed) (hstored : e.name ∈ s.queryNames) :
    (recordExecution e).exec now s = .ok (true, (recordExecution e).after now s) ∧
      (e.name, e.uuid) ∈ ((recordExecution e).after now s).executed := by
  have hfree := s.hasExecution_eq_false hnew
  obtain ⟨q, hq⟩ := s.exists_getQuery hstored
  obtain ⟨e', he', hdraft⟩ := recorded_after now hnew hstored
  rw [Store.getQuery] at hq
  constructor
  · simp only [after, exec, Store.recordExecution, hfree, Store.queryNamed, hq]
    rfl
  · exact List.mem_map.mpr ⟨e', he', by rw [hdraft]⟩

end Call

namespace Delivery

variable (time : Time) (s : Store) (name uuid : String)

/-- A result is recorded if the query is stored and the node has not executed it; otherwise it is refused and nothing changes. -/
theorem run_record (result : Int) :
    (record name uuid result).run time s =
      if name ∉ s.queryNames then (.error (.refused (.noQuery name)), s)
      else if (name, canonicalUuid uuid) ∈ s.executed then
        (.error (.refused (.alreadyExecuted name (canonicalUuid uuid))), s)
      else (.ok (), (Call.recordExecution ⟨name, canonicalUuid uuid, result⟩).after time s) := by
  unfold record
  rw [run_bind_of_ok (run_ask_of_ok rfl)]
  cases hquery : s.getQuery name with
  | none =>
    rw [if_pos (s.getQuery_eq_none_iff.mp hquery)]
    rfl
  | some query =>
    have hstored := s.mem_queryNames_of_getQuery hquery
    rw [if_neg (not_not.mpr hstored)]
    let e : Execution.Draft := ⟨name, canonicalUuid uuid, result⟩
    by_cases hexecuted : (name, canonicalUuid uuid) ∈ s.executed
    · have hexec := Call.exec_recordExecution_of_executed (e := e) time hexecuted
      rw [if_pos hexecuted]
      exact run_bind_of_ok (run_ask_of_ok hexec) _
    · have hexec := (Call.exec_recordExecution_of_stored (e := e) time hexecuted hstored).1
      rw [if_neg hexecuted]
      exact run_bind_of_ok (run_ask_of_ok hexec) _

/-- After a result was recorded, or refused because one was recorded before, the execution is stored. -/
theorem executed_of_record {result : Int} {outcome : Except Stop Unit} {s' : Store}
    (h : (record name uuid result).run time s = (outcome, s'))
    (hdone : outcome = .ok () ∨ outcome = .error (.refused (.alreadyExecuted name (canonicalUuid uuid)))) :
    (name, canonicalUuid uuid) ∈ s'.executed := by
  rw [run_record] at h
  split at h
  · cases h
    rcases hdone with hdone | hdone <;> cases hdone
  · rename_i hstored
    split at h
    · rename_i hexecuted
      cases h
      exact hexecuted
    · rename_i hnew
      cases h
      exact (Call.exec_recordExecution_of_stored (e := ⟨name, canonicalUuid uuid, result⟩) time hnew (not_not.mp hstored)).2

/-- The first result of a batch is recorded, or reported as recorded before or as of no query, and the batch goes on. -/
theorem run_recordAll_cons (report : Report) (result : Int) (rest : List (String × Int)) :
    (recordAll uuid report ((name, result) :: rest)).run time s =
      if name ∉ s.queryNames then (recordAll uuid { report with unknown := report.unknown ++ [name] } rest).run time s
      else if (name, canonicalUuid uuid) ∈ s.executed then
        (recordAll uuid { report with duplicates := report.duplicates ++ [name] } rest).run time s
      else (recordAll uuid { report with recorded := report.recorded ++ [name] } rest).run time
        ((Call.recordExecution ⟨name, canonicalUuid uuid, result⟩).after time s) := by
  have hattempt : (record name uuid result).attempt.run time s = _ := Program.run_attempt _
  rw [run_record] at hattempt
  rw [recordAll]
  split
  · rename_i hunknown
    rw [if_pos hunknown] at hattempt
    rw [run_bind_of_ok hattempt]
    rfl
  · rename_i hstored
    rw [if_neg hstored] at hattempt
    split
    · rename_i hexecuted
      rw [if_pos hexecuted] at hattempt
      rw [run_bind_of_ok hattempt]
      rfl
    · rename_i hnew
      rw [if_neg hnew] at hattempt
      rw [run_bind_of_ok hattempt]

/-- Whatever a batch reports as recorded or as recorded before is stored when the batch is done. -/
theorem executed_of_recordAll {report report' : Report} {statuses : List (String × Int)} {s' : Store}
    (h : (recordAll uuid report statuses).run time s = (.ok report', s'))
    (hreport : ∀ n, n ∈ report.recorded ∨ n ∈ report.duplicates → (n, canonicalUuid uuid) ∈ s.executed) :
    ∀ n, n ∈ report'.recorded ∨ n ∈ report'.duplicates → (n, canonicalUuid uuid) ∈ s'.executed := by
  induction statuses generalizing report s with
  | nil =>
    cases h
    exact hreport
  | cons status rest ih =>
    obtain ⟨name, result⟩ := status
    rw [run_recordAll_cons] at h
    split at h
    · exact ih s h hreport
    · rename_i hstored
      split at h
      · rename_i hexecuted
        refine ih s h ?_
        intro n hn
        simp only [List.mem_append, List.mem_singleton, ← or_assoc] at hn
        rcases hn with hn | rfl
        · exact hreport n hn
        · exact hexecuted
      · rename_i hnew
        refine ih _ h ?_
        intro n hn
        rw [List.mem_append, List.mem_singleton, or_right_comm] at hn
        rcases hn with hn | rfl
        · exact Call.executed_after _ (hreport n hn)
        · exact (Call.exec_recordExecution_of_stored (e := ⟨n, canonicalUuid uuid, result⟩) time hnew (not_not.mp hstored)).2

end Delivery

/-! ## Never again -/

/-- What is executed stays executed through a run of any program. -/
theorem Program.executed_run {α : Type} (time : Time) (p : Program α) {s : Store} {pair : String × String}
    (h : pair ∈ s.executed) : pair ∈ (p.run time s).2.executed := by
  refine p.run_preserves_of_all (P := fun s => pair ∈ s.executed) ?_ h
  intro c s hpair
  exact c.executed_after hpair

/-- A node of the UUID goes by the key. -/
def Store.Identifies (s : Store) (key uuid : String) : Prop := ∃ n ∈ s.nodes, n.key = canonicalKey key ∧ n.uuid = uuid

instance (s : Store) (key uuid : String) : Decidable (s.Identifies key uuid) :=
  inferInstanceAs (Decidable (∃ n ∈ s.nodes, n.key = canonicalKey key ∧ n.uuid = uuid))

/-- The answer tells whoever goes by the key that the result of a query is recorded, or was recorded before. -/
def Operation.Confirms (key name : String) : Operation → Answer → Prop
  | .submitResult key' name' _, .nothing => key' = key ∧ name' = name
  | .submitResults key' _, .report report => key' = key ∧ (name ∈ report.recorded ∨ name ∈ report.duplicates)
  | _, _ => False

namespace Fleet

variable {s s' : Store} {n : Node} {key : String} {time : Time}

/-- A submitted result is recorded for the UUID of the node. -/
theorem executed_of_submitResult (h : s.Sound) (hn : n ∈ s.nodes) (hkey : n.key = canonicalKey key) {name : String}
    {result : Int} (hrun : (submitResult key name result).run time s = (.ok (), s')) : (name, n.uuid) ∈ s'.executed := by
  unfold submitResult at hrun
  rw [run_bind_of_ok (h.run_byKey hn hkey time)] at hrun
  obtain ⟨_, s₁, hrecord, hnote⟩ := of_run_bind_eq_ok hrun
  have hexecuted := Delivery.executed_of_record time s name n.uuid hrecord (.inl rfl)
  rw [h.canonical n hn] at hexecuted
  have hkept := Program.executed_run time (Roster.noteEvent n.uuid .queryWrite) hexecuted
  rwa [hnote] at hkept

/-- Whatever a submitted batch reports as recorded or as recorded before is recorded for the UUID of the node. -/
theorem executed_of_submitResults (h : s.Sound) (hn : n ∈ s.nodes) (hkey : n.key = canonicalKey key)
    {statuses : Dictionary Int} {report : Delivery.Report}
    (hrun : (submitResults key statuses).run time s = (.ok report, s')) {name : String}
    (hname : name ∈ report.recorded ∨ name ∈ report.duplicates) : (name, n.uuid) ∈ s'.executed := by
  unfold submitResults at hrun
  rw [run_bind_of_ok (h.run_byKey hn hkey time)] at hrun
  obtain ⟨report', s₁, hall, hnote⟩ := of_run_bind_eq_ok hrun
  have hempty : ∀ name, name ∈ Delivery.Report.empty.recorded ∨ name ∈ Delivery.Report.empty.duplicates →
      (name, canonicalUuid n.uuid) ∈ s.executed := by
    intro name hmem
    simp [Delivery.Report.empty] at hmem
  have hexecuted := Delivery.executed_of_recordAll time s n.uuid hall hempty
  rw [h.canonical n hn] at hexecuted
  split at hnote
  · cases hnote
    exact hexecuted name hname
  · obtain ⟨_, s₂, hnote, hpure⟩ := of_run_bind_eq_ok hnote
    cases hpure
    have hkept := Program.executed_run time (Roster.noteEvent n.uuid .queryWrite) (hexecuted name hname)
    rwa [hnote] at hkept

end Fleet

/-- A confirmed result is recorded for the UUID of the node. -/
theorem Operation.executed_of_confirms {settings : Settings} {s s' : Store} (h : s.Sound) {key uuid : String}
    (hnode : s.Identifies key uuid) {op : Operation} {answer : Answer} {time : Time}
    (hrun : op.run settings time s = (.ok answer, s')) {name : String} (hconfirms : op.Confirms key name answer) :
    (name, uuid) ∈ s'.executed := by
  obtain ⟨n, hn, hkey, rfl⟩ := hnode
  cases op with
  | submitResult key' name' result =>
    obtain ⟨_, hsubmit, rfl⟩ := of_run_map_eq_ok hrun
    obtain ⟨rfl, rfl⟩ := hconfirms
    exact Fleet.executed_of_submitResult h hn hkey hsubmit
  | submitResults key' statuses =>
    obtain ⟨report, hsubmit, rfl⟩ := of_run_map_eq_ok hrun
    obtain ⟨rfl, hname⟩ := hconfirms
    exact Fleet.executed_of_submitResults h hn hkey hsubmit hname
  | _ => exact hconfirms.elim

/-- Once a node was told that its result of a query is recorded, or was recorded before, no later poll by a node of that UUID is
handed the query, whatever operations are carried out in between, their steps taken in any turns. -/
theorem Operation.not_pending_after_result {settings : Settings} {s s₁ s₂ s₃ : Store} {begun begun' : List (Program Answer)}
    {op : Operation} {answer : Answer} {key key' name uuid : String} {time time' : Time} {pending : Dictionary String}
    (before : Traffic.LeadsTo settings ⟨.empty, []⟩ ⟨s, begun⟩) (hnode : s.Identifies key uuid)
    (hresult : op.run settings time s = (.ok answer, s₁)) (hconfirms : op.Confirms key name answer)
    (between : Traffic.LeadsTo settings ⟨s₁, begun⟩ ⟨s₂, begun'⟩) (hpoller : s₂.Identifies key' uuid)
    (hpoll : (Operation.poll key').run settings time' s₂ = (.ok (.pending pending), s₃)) : name ∉ pending.keys := by
  have hreached : Reachable settings s := ⟨begun, before⟩
  have hreached₁ := hreached.run op time
  rw [hresult] at hreached₁
  have hexecuted₁ := executed_of_confirms (.of_reachable hreached) hnode hresult hconfirms
  have hkept : ∀ c : Call, c.Proper settings → ∀ now s, s.Sound ∧ (name, uuid) ∈ s.executed →
      (c.after now s).Sound ∧ (name, uuid) ∈ (c.after now s).executed := by
    intro c hc now s ⟨hsound, hexecuted⟩
    exact ⟨hsound.after hc now, c.executed_after hexecuted⟩
  obtain ⟨⟨hsound, hexecuted⟩, -⟩ := between.preserves (P := fun s => s.Sound ∧ (name, uuid) ∈ s.executed) hkept before.proper
    ⟨.of_reachable hreached₁, hexecuted₁⟩
  obtain ⟨n, hn, hkey, rfl⟩ := hpoller
  obtain ⟨pending', hpoll, heq⟩ := of_run_map_eq_ok hpoll
  cases heq
  rw [Fleet.run_poll hsound hn hkey time'] at hpoll
  cases hpoll
  intro hpending
  obtain ⟨⟨_, text⟩, hentry, rfl⟩ := List.mem_map.mp hpending
  obtain ⟨q, -, ⟨-, -, hnone⟩, hname, -⟩ := Store.mem_due hentry
  obtain ⟨e, he, heq⟩ := List.mem_map.mp hexecuted
  obtain ⟨hquery, huuid⟩ := Prod.mk.inj heq
  exact hnone e he ⟨hquery.trans hname.symm, huuid⟩

/-- The node is removed and enrolled anew under another key, and the query is completed and activated. -/
theorem Operation.not_pending_after_enrolling_anew :
    let settings : Settings := .embedded ["prod"]
    let s := replay settings .empty [(0, .ensureAdmin "root"),
      (1, .enroll "a-1" "Key" { Attributes.blank with environment := "prod" }),
      (2, .createQuery 7 "root" "SELECT 1;" [⟨.environment, "prod"⟩] .standard)]
    let s₁ := ((Operation.submitResult "key" (QueryName.query 7) 0).run settings 3 s).2
    let s₂ := replay settings s₁ [(4, .nodeAction "root" .delete ["A-1"]),
      (5, .enroll "A-1" "other" { Attributes.blank with environment := "prod" }),
      (6, .queryAction "root" .complete [QueryName.query 7]), (7, .queryAction "root" .activate [QueryName.query 7])]
    ∃ pending s₃, (Operation.poll "other").run settings 8 s₂ = (.ok (.pending pending), s₃) ∧
      QueryName.query 7 ∉ pending.keys := by
  intro settings s s₁ s₂
  have hs : Reachable settings s := reachable_empty.replay _
  have hs₂ : Reachable settings s₂ := (hs.run _ 3).replay _
  obtain ⟨begun, before⟩ := hs
  obtain ⟨begun', between⟩ : ∃ begun', Traffic.LeadsTo settings ⟨s₁, begun⟩ ⟨s₂, begun'⟩ := Traffic.leadsTo_replay begun _ s₁
  have hresult : (Operation.submitResult "key" (QueryName.query 7) 0).run settings 3 s = (.ok .nothing, s₁) := by
    decide +kernel
  have hnode : s.Identifies "key" "A-1" := by decide +kernel
  obtain ⟨n, hn, hkey, huuid⟩ : s₂.Identifies "other" "A-1" := by decide +kernel
  have hpoll := Program.run_map_of_ok (Fleet.run_poll (.of_reachable hs₂) hn hkey 8) Answer.pending
  exact ⟨_, _, hpoll, not_pending_after_result before hnode hresult ⟨rfl, rfl⟩ between ⟨n, hn, hkey, huuid⟩ hpoll⟩

end FleetControl
