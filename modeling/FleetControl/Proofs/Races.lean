import FleetControl.Proofs.Results
import FleetControl.Proofs.Tally

/-!
# Reports that race

A report of a result takes two steps: the query is looked up, and then the execution is recorded unless there is one. A `Race` is
a store, any number of reports of one query for one UUID, which each may spell in its own way, and whatever else was begun; a step
is one of a report, or one of the rest that does not record this execution itself.

What decides a race is the second step, for it is one call that looks and records. A report moves from one stage to the next by
itself (`Submission.Stands.step`), and the reports that are accepted and the record in the store agree after every step
(`Race.Agrees`). So at most one report is ever accepted, and in the end exactly one where the query was stored and not executed
at the beginning (`Race.recorded_once`).
-/

namespace FleetControl

/-- The program has ended, with a result or without. -/
def Program.Ended {α : Type} : Program α → Prop
  | .done _ | .stop _ => True
  | .clock _ | .call _ _ => False

/-- The program has ended with a result. -/
def Program.hasResult {α : Type} : Program α → Bool
  | .done _ => true
  | _ => false

instance {α : Type} : (p : Program α) → Decidable p.Ended
  | .done _ | .stop _ => inferInstanceAs (Decidable True)
  | .clock _ | .call _ _ => inferInstanceAs (Decidable False)

/-- A program that has ended stays as it is, and so does the store. -/
theorem Program.step_of_ended {α : Type} {p : Program α} (h : p.Ended) (time : Time) (s : Store) : p.step time s = (p, s) := by
  cases p with
  | done a => rfl
  | stop why => rfl
  | clock next => exact h.elim
  | call c next => exact h.elim

/-! ## The records of one query and node -/

namespace Store

variable (s : Store) (name uuid : String)

/-- The executions of a query by the node of a UUID. -/
def executionsBy : List Execution := (s.executionsOf name).filter (·.uuid == uuid)

/-- How many of the executions of a query by other nodes count on a counter. -/
def recordsBesides (counter : Counter) : Nat :=
  ((s.executionsOf name).filter (·.uuid != uuid)).countP fun e => counter.counts e.toDraft

/-- The records of a query are those of one node and those of the others. -/
theorem records_eq (counter : Counter) :
    s.records name counter =
      ((s.executionsBy name uuid).countP fun e => counter.counts e.toDraft) + s.recordsBesides name uuid counter :=
  List.countP_eq_countP_filter_add (s.executionsOf name) _ (·.uuid == uuid)

variable {s name uuid}

theorem mem_executionsBy {e : Execution} : e ∈ s.executionsBy name uuid ↔ e ∈ s.executions ∧ e.name = name ∧ e.uuid = uuid := by
  simp only [executionsBy, executionsOf, List.mem_filter, beq_iff_eq, and_assoc]

/-- Without an execution by the node there is no record. -/
theorem executionsBy_eq_nil (h : (name, uuid) ∉ s.executed) : s.executionsBy name uuid = [] := by
  refine List.eq_nil_iff_forall_not_mem.mpr ?_
  intro e he
  obtain ⟨hmem, hname, huuid⟩ := mem_executionsBy.mp he
  exact h (List.mem_map.mpr ⟨e, hmem, Prod.ext hname huuid⟩)

/-- Where no two records are of one query and node, a record is the only one of its query and node. -/
theorem executionsBy_eq_singleton (honce : s.executed.Nodup) {e : Execution} (he : e ∈ s.executions) :
    s.executionsBy e.name e.uuid = [e] := by
  have hnodup : (s.executionsBy e.name e.uuid).Nodup := ((honce.of_map _).filter _).filter _
  refine List.perm_singleton.mp ((List.perm_ext_iff_of_nodup hnodup (List.nodup_singleton e)).mpr ?_)
  intro other
  rw [mem_executionsBy, List.mem_singleton]
  constructor
  · rintro ⟨hother, hname, huuid⟩
    exact List.inj_on_of_nodup_map honce hother he (Prod.ext hname huuid)
  · rintro rfl
    exact ⟨he, rfl, rfl⟩

end Store

/-- Between two stores whose counters hold the numbers of records, the count of a query moves by the new records of other nodes and
by the one record of the node that had none. -/
theorem Tallied.count_moved {s s' : Store} (h : Tallied (fun _ _ => 0) s) (h' : Tallied (fun _ _ => 0) s') {name uuid : String}
    {q q' : Query} (hq : s.getQuery name = some q) (hq' : s'.getQuery name = some q') (hnew : (name, uuid) ∉ s.executed)
    {e : Execution} (he : s'.executionsBy name uuid = [e]) (counter : Counter) :
    q'.count counter =
      Int.bmod (q.count counter + (s'.recordsBesides name uuid counter - s.recordsBesides name uuid counter) +
        if counter.counts e.toDraft then 1 else 0) 4294967296 := by
  obtain ⟨hmem, rfl⟩ := s.of_getQuery_eq_some hq
  obtain ⟨hmem', hname⟩ := s'.of_getQuery_eq_some hq'
  have hstart := h.count q hmem counter
  have hend := h'.count q' hmem' counter
  rw [s.records_eq q.name uuid, Store.executionsBy_eq_nil hnew, List.countP_nil] at hstart
  rw [hname, s'.records_eq q.name uuid, he, List.countP_singleton] at hend
  rw [hstart, hend, Int.add_assoc, Int.bmod_add_bmod]
  congr 1
  split <;> omega

/-! ## The two steps of a report -/

/-- A call that is answered is a step to what its answer chooses. -/
theorem Program.step_ask_of_ok {α : Type} {c : Call} {reply : c.Reply} {time : Time} {s s' : Store}
    (h : c.exec time s = .ok (reply, s')) (f : c.Reply → Program α) : (ask c >>= f).step time s = (f reply, s') := by
  have hserve : s.serve time c = (.ok reply, s') := by rw [Store.serve, h]
  have hstep : (ask c >>= f).step time s = (ofExcept (s.serve time c).1 >>= f, (s.serve time c).2) := rfl
  rw [hstep, hserve]
  rfl

namespace Delivery

/-- What is left of a report when its query was found: the execution is recorded unless there is one. -/
def recordFound (name uuid : String) (result : Int) : Program Unit := do
  if ← .ask (.recordExecution ⟨name, uuid, result⟩) then return ()
  else .refuse (.alreadyExecuted name uuid)

variable (time : Time) (s : Store) (name uuid : String) (result : Int)

/-- The first step of a report looks the query up. -/
theorem step_record :
    (record name uuid result).step time s =
      (if name ∈ s.queryNames then recordFound name (canonicalUuid uuid) result else .refuse (.noQuery name), s) := by
  unfold record
  rw [Program.step_ask_of_ok rfl]
  cases hquery : s.getQuery name with
  | none => rw [if_neg (s.getQuery_eq_none_iff.mp hquery)]
  | some query =>
    rw [if_pos (s.mem_queryNames_of_getQuery hquery)]
    rfl

variable {s name uuid}

/-- The second step of a report records the execution of a stored query unless there is one. -/
theorem step_recordFound (hstored : name ∈ s.queryNames) :
    (recordFound name uuid result).step time s =
      if (name, uuid) ∈ s.executed then (.refuse (.alreadyExecuted name uuid), s)
      else (.done (), (Call.recordExecution ⟨name, uuid, result⟩).after time s) := by
  let e : Execution.Draft := ⟨name, uuid, result⟩
  unfold recordFound
  by_cases hexecuted : (name, uuid) ∈ s.executed
  · rw [if_pos hexecuted, Program.step_ask_of_ok (Call.exec_recordExecution_of_executed (e := e) time hexecuted)]
    rfl
  · rw [if_neg hexecuted, Program.step_ask_of_ok (Call.exec_recordExecution_of_stored (e := e) time hexecuted hstored).1]
    rfl

end Delivery

/-! ## Reports -/

/-- A report of a result for a UUID in some spelling, and what is left of it. -/
structure Submission where
  spelling : String
  result : Int
  left : Program Unit

namespace Submission

/-- What is reported. -/
def reported (r : Submission) : String × Int := (r.spelling, r.result)

/-- The report has ended with its result recorded. -/
def accepted (r : Submission) : Bool := r.left.hasResult

/-- A report takes a step. -/
def step (time : Time) (s : Store) (r : Submission) : Submission × Store :=
  ({ r with left := (r.left.step time s).1 }, (r.left.step time s).2)

/-- The report is one of the query for the UUID and has not taken a step. -/
def Begins (name uuid : String) (r : Submission) : Prop :=
  canonicalUuid r.spelling = uuid ∧ r.left = Delivery.record name r.spelling r.result

/-- Where a report of a query for a UUID stands, in a race that started from one store and has come to another: before the steps,
between them or after them. It is refused for a record only where there is one, and for want of the query only where the query
was not there at the start. -/
inductive Stands (name uuid : String) (start s : Store) (r : Submission) : Prop where
  | begins (h : r.Begins name uuid)
  | found (h : r.left = Delivery.recordFound name uuid r.result) (hstored : name ∈ s.queryNames)
  | accepted (h : r.left = .done ())
  | repeated (h : r.left = .refuse (.alreadyExecuted name uuid)) (hexecuted : (name, uuid) ∈ s.executed)
  | unknown (h : r.left = .refuse (.noQuery name)) (habsent : name ∉ start.queryNames)

variable {name uuid : String} {start s s' : Store} {r : Submission}

/-- A report stands where it stood when there are more records and names. -/
theorem Stands.mono (h : r.Stands name uuid start s) (hnames : s.queryNames ⊆ s'.queryNames)
    (hexecuted : s.executed ⊆ s'.executed) : r.Stands name uuid start s' := by
  cases h with
  | begins h => exact .begins h
  | found h hstored => exact .found h (hnames hstored)
  | accepted h => exact .accepted h
  | repeated h hpair => exact .repeated h (hexecuted hpair)
  | unknown h habsent => exact .unknown h habsent

/-- Of reports one of which is not accepted, the accepted ones are among the others. -/
theorem filter_of_open (h : r.accepted = false) {before after : List Submission} :
    (before ++ r :: after).filter (·.accepted) = before.filter (·.accepted) ++ after.filter (·.accepted) := by
  rw [List.filter_append, List.filter_cons_of_neg (by rw [h]; exact Bool.false_ne_true)]

/-- A report that has ended stays as it is. -/
theorem step_of_ended (h : r.left.Ended) (time : Time) : r.step time s = (r, s) := by
  unfold step
  rw [Program.step_of_ended h]

/-- A report stays what it is when it takes a step. -/
theorem reported_step (time : Time) (s : Store) (r : Submission) : (r.step time s).1.reported = r.reported := rfl

/-- A report that has ended and is not accepted was refused because of a record, where the query was stored at the start. -/
theorem Stands.of_ended (h : r.Stands name uuid start s) (hstored : name ∈ start.queryNames) (hended : r.left.Ended)
    (hopen : r.accepted = false) : r.left = .refuse (.alreadyExecuted name uuid) ∧ (name, uuid) ∈ s.executed := by
  cases h with
  | begins h =>
    rw [h.2] at hended
    exact hended.elim
  | found h _ =>
    rw [h] at hended
    exact hended.elim
  | accepted h =>
    rw [Submission.accepted, h] at hopen
    cases hopen
  | repeated h hexecuted => exact ⟨h, hexecuted⟩
  | unknown _ habsent => exact absurd hstored habsent

/-- A step of a report changes nothing, or takes it to the next stage and leaves the store, or records its result, where the query
is stored and there is no record. -/
theorem Stands.step (h : r.Stands name uuid start s) (hnames : start.queryNames ⊆ s.queryNames) (time : Time) :
    r.step time s = (r, s) ∨
    (∃ r', r.step time s = (r', s) ∧ r'.Stands name uuid start s ∧ r.accepted = false ∧ r'.accepted = false) ∨
    (r.step time s = ({ r with left := .done () }, (Call.recordExecution ⟨name, uuid, r.result⟩).after time s) ∧
      r.accepted = false ∧ name ∈ s.queryNames ∧ (name, uuid) ∉ s.executed) := by
  cases h with
  | begins h =>
    -- the first step only reads
    obtain ⟨rfl, hleft⟩ := h
    have hopen : r.accepted = false := by rw [Submission.accepted, hleft]; rfl
    rw [Submission.step, hleft, Delivery.step_record]
    refine .inr (.inl ?_)
    by_cases hstored : name ∈ s.queryNames
    · rw [if_pos hstored]
      exact ⟨_, rfl, .found rfl hstored, hopen, rfl⟩
    · rw [if_neg hstored]
      exact ⟨_, rfl, .unknown rfl fun hstart => hstored (hnames hstart), hopen, rfl⟩
  | found hleft hstored =>
    -- the second step looks for a record and makes one in a single call
    have hopen : r.accepted = false := by rw [Submission.accepted, hleft]; rfl
    rw [Submission.step, hleft, Delivery.step_recordFound time r.result hstored]
    refine .inr ?_
    by_cases hexecuted : (name, uuid) ∈ s.executed
    · rw [if_pos hexecuted]
      exact .inl ⟨_, rfl, .repeated rfl hexecuted, hopen, rfl⟩
    · rw [if_neg hexecuted]
      exact .inr ⟨rfl, hopen, hstored, hexecuted⟩
  | accepted hleft => exact .inl (step_of_ended (by rw [hleft]; trivial) time)
  | repeated hleft => exact .inl (step_of_ended (by rw [hleft]; trivial) time)
  | unknown hleft => exact .inl (step_of_ended (by rw [hleft]; trivial) time)

end Submission

/-! ## Races -/

/-- A store, the reports of a query for a UUID, and what is left of the other programs. -/
structure Race where
  store : Store
  reports : List Submission
  others : List (Program Answer)

namespace Race

/-- A report takes a step, or the rest of the traffic takes one that does not record an execution of the query for the UUID. -/
inductive Step (settings : Settings) (name uuid : String) : Race → Race → Prop where
  | report (s : Store) (before after : List Submission) (r : Submission) (others : List (Program Answer)) (time : Time) :
      Step settings name uuid ⟨s, before ++ r :: after, others⟩
        ⟨(r.step time s).2, before ++ (r.step time s).1 :: after, others⟩
  | other {s s' : Store} {others others' : List (Program Answer)} (reports : List Submission)
      (step : Traffic.Step settings ⟨s, others⟩ ⟨s', others'⟩)
      (hpair : (name, uuid) ∈ s'.executed → (name, uuid) ∈ s.executed) :
      Step settings name uuid ⟨s, reports, others⟩ ⟨s', reports, others'⟩

/-- Any number of steps, in any turns. -/
def LeadsTo (settings : Settings) (name uuid : String) (v w : Race) : Prop :=
  Relation.ReflTransGen (Step settings name uuid) v w

/-- The reports that are accepted agree with the store: there is none, and no record but one from the start, or there is one, and
its result is recorded. -/
def Agrees (name uuid : String) (start s : Store) (accepted : List Submission) : Prop :=
  accepted = [] ∧ ((name, uuid) ∈ s.executed → (name, uuid) ∈ start.executed) ∨
    ∃ r, accepted = [r] ∧ ∃ e ∈ s.executions, e.toDraft = ⟨name, uuid, r.result⟩

/-- What holds throughout a race that started from a store. -/
structure Kept (settings : Settings) (name uuid : String) (start : Store) (w : Race) : Prop where
  proper : Traffic.Proper settings ⟨w.store, w.others⟩
  tallied : Tallied (fun _ _ => 0) w.store
  names : start.queryNames ⊆ w.store.queryNames
  stands : ∀ r ∈ w.reports, r.Stands name uuid start w.store
  agrees : Agrees name uuid start w.store (w.reports.filter (·.accepted))

variable {settings : Settings} {name uuid : String} {start s s' : Store} {accepted : List Submission} {v w : Race}

/-- Reports go on agreeing with a store that keeps its records and gains no record of theirs. -/
theorem Agrees.mono (h : Agrees name uuid start s accepted) (hexecutions : s.executions ⊆ s'.executions)
    (hpair : (name, uuid) ∈ s'.executed → (name, uuid) ∈ s.executed) : Agrees name uuid start s' accepted := by
  rcases h with ⟨hnone, hstart⟩ | ⟨r, hone, e, he, hdraft⟩
  · exact .inl ⟨hnone, fun h => hstart (hpair h)⟩
  · exact .inr ⟨r, hone, e, hexecutions he, hdraft⟩

/-- While there is no record no report is accepted. -/
theorem Agrees.eq_nil (h : Agrees name uuid start s accepted) (hnew : (name, uuid) ∉ s.executed) : accepted = [] := by
  rcases h with ⟨hnone, -⟩ | ⟨r, -, e, he, hdraft⟩
  · exact hnone
  · have hpair : (e.name, e.uuid) = (name, uuid) := by rw [hdraft]
    exact absurd (hpair ▸ List.mem_map_of_mem he) hnew

namespace Kept

/-- What holds of a race holds at its start. -/
theorem begins {begun : List (Program Answer)} (before : Traffic.LeadsTo settings ⟨.empty, []⟩ ⟨start, begun⟩)
    {reports : List Submission} (hbegins : ∀ r ∈ reports, r.Begins name uuid) :
    Kept settings name uuid start ⟨start, reports, begun⟩ where
  proper := before.proper
  tallied := .of_reachable ⟨begun, before⟩
  names := List.Subset.refl _
  stands := fun r hr => .begins (hbegins r hr)
  agrees := by
    refine .inl ⟨?_, id⟩
    rw [List.filter_eq_nil_iff]
    intro r hr
    rw [Submission.accepted, (hbegins r hr).2]
    exact Bool.false_ne_true

section Report

variable {before after : List Submission} {r : Submission} {others : List (Program Answer)}

/-- What holds of a race holds after a report went to another stage and the store stayed. -/
theorem stage (h : Kept settings name uuid start ⟨s, before ++ r :: after, others⟩) {r' : Submission}
    (hr' : r'.Stands name uuid start s) (hopen : r.accepted = false) (hopen' : r'.accepted = false) :
    Kept settings name uuid start ⟨s, before ++ r' :: after, others⟩ := by
  obtain ⟨hbefore, hr⟩ := List.forall_mem_append.mp h.stands
  refine ⟨h.proper, h.tallied, h.names, ?_, ?_⟩
  · exact List.forall_mem_append.mpr ⟨hbefore, List.forall_mem_cons.mpr ⟨hr', (List.forall_mem_cons.mp hr).2⟩⟩
  · have hagrees := h.agrees
    rw [Submission.filter_of_open hopen] at hagrees
    rwa [Submission.filter_of_open hopen']

/-- What holds of a race holds after the result of a report is recorded: it is the first that is accepted. -/
theorem record (h : Kept settings name uuid start ⟨s, before ++ r :: after, others⟩) (hopen : r.accepted = false)
    (hstored : name ∈ s.queryNames) (hnew : (name, uuid) ∉ s.executed) (time : Time) :
    Kept settings name uuid start
      ⟨(Call.recordExecution ⟨name, uuid, r.result⟩).after time s, before ++ { r with left := .done () } :: after, others⟩ := by
  let e : Execution.Draft := ⟨name, uuid, r.result⟩
  let s' := (Call.recordExecution e).after time s
  have hnames : s.queryNames ⊆ s'.queryNames := fun _ hname => Call.stored_after _ hname
  have hexecuted : s.executed ⊆ s'.executed := fun _ hpair => Call.executed_after _ hpair
  have hstands : ∀ other ∈ before ++ r :: after, other.Stands name uuid start s' := by
    intro other hother
    exact (h.stands other hother).mono hnames hexecuted
  obtain ⟨hbefore, hr⟩ := List.forall_mem_append.mp hstands
  -- the call found no record, so no report was accepted before, whatever was looked up earlier
  have hnone := h.agrees.eq_nil hnew
  rw [Submission.filter_of_open hopen, List.append_eq_nil_iff] at hnone
  refine ⟨h.proper, ?_, List.Subset.trans h.names hnames, ?_, ?_⟩
  · exact h.tallied.after_of_ne time fun _ _ heq => by cases heq
  · exact List.forall_mem_append.mpr ⟨hbefore, List.forall_mem_cons.mpr ⟨.accepted rfl, (List.forall_mem_cons.mp hr).2⟩⟩
  · refine .inr ⟨{ r with left := .done () }, ?_, Call.recorded_after (e := e) time hnew hstored⟩
    rw [List.filter_append, List.filter_cons_of_pos rfl, hnone.1, hnone.2]
    rfl

/-- What holds of a race holds after a step of a report. -/
theorem report (h : Kept settings name uuid start ⟨s, before ++ r :: after, others⟩) (time : Time) :
    Kept settings name uuid start ⟨(r.step time s).2, before ++ (r.step time s).1 :: after, others⟩ := by
  have hr := h.stands r (List.mem_append_right _ List.mem_cons_self)
  rcases hr.step h.names time with hstep | ⟨r', hstep, hr', hopen, hopen'⟩ | ⟨hstep, hopen, hstored, hnew⟩
  · rw [hstep]
    exact h
  · rw [hstep]
    exact h.stage hr' hopen hopen'
  · rw [hstep]
    exact h.record hopen hstored hnew time

end Report

/-- What holds of a race holds after a step of the rest. -/
theorem other {reports : List Submission} {others others' : List (Program Answer)}
    (h : Kept settings name uuid start ⟨s, reports, others⟩) (step : Traffic.Step settings ⟨s, others⟩ ⟨s', others'⟩)
    (hpair : (name, uuid) ∈ s'.executed → (name, uuid) ∈ s.executed) :
    Kept settings name uuid start ⟨s', reports, others'⟩ := by
  have hkept : ∀ c : Call, c.Proper settings → ∀ now s',
      Tallied (fun _ _ => 0) s' ∧ s.queryNames ⊆ s'.queryNames ∧ s.executions ⊆ s'.executions →
      Tallied (fun _ _ => 0) (c.after now s') ∧ s.queryNames ⊆ (c.after now s').queryNames ∧
        s.executions ⊆ (c.after now s').executions := by
    intro c hc now s' ⟨htallied, hnames, hexecutions⟩
    exact ⟨htallied.after_of_proper hc now, fun _ hname => c.stored_after (hnames hname),
      List.Subset.trans hexecutions (c.prefix_executions s' now).subset⟩
  obtain ⟨⟨htallied, hnames, hexecutions⟩, hproper⟩ :=
    Traffic.LeadsTo.preserves hkept (.single step) h.proper ⟨h.tallied, List.Subset.refl _, List.Subset.refl _⟩
  refine ⟨hproper, htallied, List.Subset.trans h.names hnames, ?_, h.agrees.mono hexecutions hpair⟩
  intro r hr
  exact (h.stands r hr).mono hnames (List.map_subset _ hexecutions)

theorem of_step (h : Kept settings name uuid start v) (step : Step settings name uuid v w) :
    Kept settings name uuid start w := by
  cases step with
  | report _ _ _ _ _ time => exact h.report time
  | other _ step hpair => exact h.other step hpair

/-- What holds of a race holds however far it has come. -/
theorem of_leadsTo (h : Kept settings name uuid start v) (steps : LeadsTo settings name uuid v w) :
    Kept settings name uuid start w := by
  induction steps with
  | refl => exact h
  | tail _ step ih => exact ih.of_step step

end Kept

/-- A report stays what it is, whatever steps are taken. -/
theorem LeadsTo.reported (steps : LeadsTo settings name uuid v w) :
    w.reports.map (·.reported) = v.reports.map (·.reported) := by
  induction steps with
  | refl => rfl
  | tail _ step ih =>
    rw [← ih]
    cases step with
    | report s before after r others time => simp only [List.map_append, List.map_cons, Submission.reported_step]
    | other reports _ _ => rfl

/-- When the reports of a query that was stored and not executed at the start have ended, one of them is accepted. -/
theorem Kept.exists_accepted (h : Kept settings name uuid start w) (hstored : name ∈ start.queryNames)
    (hnew : (name, uuid) ∉ start.executed) (hsome : w.reports ≠ []) (hended : ∀ r ∈ w.reports, r.left.Ended) :
    ∃ r, w.reports.filter (·.accepted) = [r] ∧ ∃ e ∈ w.store.executions, e.toDraft = ⟨name, uuid, r.result⟩ := by
  rcases h.agrees with ⟨hnone, hstart⟩ | hone
  -- any report would have been refused because of a record, which there was not at the start
  · obtain ⟨r, hr⟩ := List.exists_mem_of_ne_nil _ hsome
    have hopen : r.accepted = false := by simpa using List.filter_eq_nil_iff.mp hnone r hr
    exact absurd (hstart ((h.stands r hr).of_ended hstored (hended r hr) hopen).2) hnew
  · exact hone

/-- Of any number of reports of one query for one UUID, in any turns between steps of other programs, at most one is accepted. When
all have ended just one is, if the query was stored and not reported, and the counts have moved by its record. -/
theorem recorded_once {s : Store} {begun : List (Program Answer)} (before : Traffic.LeadsTo settings ⟨.empty, []⟩ ⟨s, begun⟩)
    {reports : List Submission} (hbegins : ∀ r ∈ reports, r.Begins name uuid)
    (steps : LeadsTo settings name uuid ⟨s, reports, begun⟩ w) :
    w.reports.map (·.reported) = reports.map (·.reported) ∧
    (w.reports.filter (·.accepted)).length ≤ 1 ∧
    ∀ q, s.getQuery name = some q → (name, uuid) ∉ s.executed → reports ≠ [] → (∀ r ∈ w.reports, r.left.Ended) →
      ∃ r, w.reports.filter (·.accepted) = [r] ∧
        (∀ other ∈ w.reports, other.accepted = false → other.left = .refuse (.alreadyExecuted name uuid)) ∧
        (∃ e, w.store.executionsBy name uuid = [e] ∧ e.result = r.result) ∧
        ∃ q', w.store.getQuery name = some q' ∧ ∀ counter, q'.count counter =
          Int.bmod (q.count counter + (w.store.recordsBesides name uuid counter - s.recordsBesides name uuid counter) +
            if counter.counts ⟨name, uuid, r.result⟩ then 1 else 0) 4294967296 := by
  have hkept := (Kept.begins before hbegins).of_leadsTo steps
  have hreported := steps.reported
  refine ⟨hreported, ?_, ?_⟩
  · rcases hkept.agrees with ⟨hnone, -⟩ | ⟨r, hone, -⟩
    · rw [hnone]
      exact Nat.zero_le 1
    · rw [hone]
      exact Nat.le_refl 1
  · intro q hq hnew hsome hended
    have hstored := s.mem_queryNames_of_getQuery hq
    have hsome' : w.reports ≠ [] := by
      intro hnil
      rw [hnil] at hreported
      exact hsome (List.map_eq_nil_iff.mp hreported.symm)
    obtain ⟨r, hone, e, he, hdraft⟩ := hkept.exists_accepted hstored hnew hsome' hended
    obtain ⟨q', hq'⟩ := w.store.exists_getQuery (hkept.names hstored)
    have hlone := Store.executionsBy_eq_singleton hkept.tallied.once he
    rw [hdraft] at hlone
    refine ⟨r, hone, ?_, ⟨e, hlone, by rw [hdraft]⟩, q', hq', ?_⟩
    · intro other hother hopen
      exact ((hkept.stands other hother).of_ended hstored (hended other hother) hopen).1
    · rw [← hdraft]
      exact (Tallied.of_reachable ⟨begun, before⟩).count_moved hkept.tallied hq hq' hnew hlone

/-- Of two reports of one node that both found the query, the later one is recorded first, after the result of another node. -/
theorem recorded_once_of_two_spellings :
    let settings : Settings := .embedded ["prod"]
    let name := QueryName.query 7
    let s := Operation.replay settings .empty [(0, .ensureAdmin "root"),
      (1, .enroll "a-1" "key" { Attributes.blank with environment := "prod" }),
      (2, .enroll "b-2" "lock" { Attributes.blank with environment := "prod" }),
      (3, .createQuery 7 "root" "SELECT 1;" [⟨.environment, "prod"⟩] .standard)]
    let reports : List Submission := [⟨"a-1", 0, Delivery.record name "a-1" 0⟩, ⟨" A-1 ", 9, Delivery.record name " A-1 " 9⟩]
    ∃ begun w, Traffic.LeadsTo settings ⟨.empty, []⟩ ⟨s, begun⟩ ∧ LeadsTo settings name "A-1" ⟨s, reports, begun⟩ w ∧
      (∀ r ∈ w.reports, r.left.Ended) ∧ ∃ r, w.reports.filter (·.accepted) = [r] ∧ r.result = 9 ∧
        ∃ q, w.store.getQuery name = some q ∧ q.executions = 2 ∧ q.errors = 1 := by
  intro settings name s reports
  obtain ⟨begun, before⟩ : Reachable settings s := reachable_empty.replay _
  let first : Submission := ⟨"a-1", 0, Delivery.record name "a-1" 0⟩
  let second : Submission := ⟨" A-1 ", 9, Delivery.record name " A-1 " 9⟩
  let other := (Operation.submitResult "lock" name 0).program settings
  -- both reports find the query
  let s₁ := (first.step 4 s).2
  let first₁ := (first.step 4 s).1
  let s₂ := (second.step 5 s₁).2
  let second₁ := (second.step 5 s₁).1
  -- the other node is looked up, and its result recorded
  let s₃ := (other.step 6 s₂).2
  let other₁ := (other.step 6 s₂).1
  let s₄ := (other₁.step 6 s₃).2
  let other₂ := (other₁.step 6 s₃).1
  let s₅ := (other₂.step 6 s₄).2
  let other₃ := (other₂.step 6 s₄).1
  -- both reports go on, the later one before the earlier
  let s₆ := (second₁.step 7 s₅).2
  let second₂ := (second₁.step 7 s₅).1
  let s₇ := (first₁.step 8 s₆).2
  let first₂ := (first₁.step 8 s₆).1
  let w : Race := ⟨s₇, [first₂, second₂], begun ++ [other₃]⟩
  have steps : LeadsTo settings name "A-1" ⟨s, reports, begun⟩ w := by
    refine .head (.report s [] [second] first begun 4) ?_
    refine .head (.report s₁ [first₁] [] second begun 5) ?_
    refine .head (.other _ (.begin s₂ begun (.submitResult "lock" name 0)) id) ?_
    refine .head (.other _ (.turn s₂ begun [] other 6) (by decide +kernel)) ?_
    refine .head (.other _ (.turn s₃ begun [] other₁ 6) (by decide +kernel)) ?_
    refine .head (.other _ (.turn s₄ begun [] other₂ 6) (by decide +kernel)) ?_
    refine .head (.report s₅ [first₁] [] second₁ _ 7) ?_
    exact .single (.report s₆ [] [second₂] first₁ _ 8)
  have hbegins : ∀ r ∈ reports, r.Begins name "A-1" := by
    refine List.forall_mem_cons.mpr ⟨⟨by decide +kernel, rfl⟩, ?_⟩
    exact List.forall_mem_singleton.mpr ⟨by decide +kernel, rfl⟩
  obtain ⟨hstored, hzero, hnew⟩ : name ∈ s.queryNames ∧
      (∀ q ∈ s.queries, q.count .executions = 0 ∧ q.count .errors = 0) ∧ (name, "A-1") ∉ s.executed := by decide +kernel
  obtain ⟨hended, hresult, hmoved, hmoved', hfailed, hfailed'⟩ : (∀ r ∈ [first₂, second₂], r.left.Ended) ∧
      ([first₂, second₂].filter (·.accepted)).map (·.result) = [9] ∧
      s.recordsBesides name "A-1" .executions = 0 ∧ s₇.recordsBesides name "A-1" .executions = 1 ∧
      s.recordsBesides name "A-1" .errors = 0 ∧ s₇.recordsBesides name "A-1" .errors = 0 := by decide +kernel
  obtain ⟨q, hq⟩ := s.exists_getQuery hstored
  obtain ⟨hexecutions, herrors⟩ := hzero q (s.of_getQuery_eq_some hq).1
  obtain ⟨r, hone, -, -, q', hq', hcount⟩ := (recorded_once before hbegins steps).2.2 q hq hnew (List.cons_ne_nil _ _) hended
  rw [hone] at hresult
  have hnine : r.result = 9 := List.singleton_inj.mp hresult
  refine ⟨begun, w, before, steps, hended, r, hone, hnine, q', hq', ?_⟩
  clear_value s s₇
  constructor
  · have hcounted := hcount .executions
    rw [hexecutions, hmoved, hmoved'] at hcounted
    exact hcounted
  · have hcounted := hcount .errors
    rw [herrors, hfailed, hfailed', hnine] at hcounted
    exact hcounted

end Race

end FleetControl
