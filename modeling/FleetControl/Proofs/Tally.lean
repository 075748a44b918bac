import FleetControl.Proofs.Runs

/-!
# The counts of queries

Executions are recorded once for each query and node, each of a stored query, and a query counts its executions and, of those,
the failed ones. A counter can also be incremented by a call of its own, which no operation makes. So after any log of calls a
counter holds the number of records and increments (`Store.tally_replay`), in 32 bits, and whatever the operations did it holds
the number of records.
-/

namespace FleetControl

/-! ## What is counted -/

/-- The value of a counter of the query. -/
def Query.count (q : Query) : Counter → Int
  | .executions => q.executions
  | .errors => q.errors

/-- An execution counts on the counter: every one on that of executions, a failed one on that of errors. -/
def Counter.counts : Counter → Execution.Draft → Bool
  | .executions, _ => true
  | .errors, e => e.isError

/-- How many of the stored executions of a query count on a counter. -/
def Store.records (s : Store) (name : String) (counter : Counter) : Nat :=
  (s.executionsOf name).countP fun e => counter.counts e.toDraft

/-- The store after a log of calls, each with the time at which it was made. -/
def Store.replay (s : Store) (log : List (Time × Call)) : Store := log.foldl (fun s entry => entry.2.after entry.1 s) s

/-- One if the call increments the counter of the query and is not refused, and zero otherwise. -/
def Call.increments (name : String) (counter : Counter) (time : Time) (c : Call) (s : Store) : Nat :=
  if c = .incrementCounter name counter ∧ (c.exec time s).isOk then 1 else 0

/-- How often a log of calls increments the counter of the query without being refused. -/
def Store.increments (name : String) (counter : Counter) : Store → List (Time × Call) → Nat
  | _, [] => 0
  | s, (time, c) :: log => c.increments name counter time s + increments name counter (c.after time s) log

theorem Query.count_counted (q : Query) (counter counted : Counter) :
    (q.counted counted).count counter = if counter = counted then Width.successor32 (q.count counter) else q.count counter := by
  cases counter <;> cases counted <;> rfl

/-- An execution adds one to the counters on which it counts. -/
theorem Query.count_tallied (q : Query) (e : Execution.Draft) (counter : Counter) :
    (q.tallied e).count counter =
      if counter.counts e then Width.successor32 (q.count counter) else q.count counter := by
  unfold tallied
  cases counter with
  | executions => split <;> rfl
  | errors =>
    rw [Counter.counts]
    split <;> rfl

/-- An increment is refused only where the query is not stored. -/
theorem Call.increments_incrementCounter (name n : String) (counted counter : Counter) (time : Time) (s : Store) :
    (incrementCounter name counted).increments n counter time s =
      if (name = n ∧ counted = counter) ∧ name ∈ s.queryNames then 1 else 0 := by
  have hok : ((incrementCounter name counted).exec time s).isOk ↔ name ∈ s.queryNames := by
    rw [← not_iff_not, ← s.getQuery_eq_none_iff]
    simp only [exec, done, Store.incrementCounter, Store.queryNamed, Store.getQuery]
    cases s.queries.find? (·.name == name) with
    | none => exact ⟨fun _ => rfl, fun _ => Bool.false_ne_true⟩
    | some q =>
      constructor
      · intro h
        exact absurd rfl h
      · intro h
        cases h
  simp only [increments, hok, incrementCounter.injEq]

/-- One more than a count in 32 bits is the next count in 32 bits. -/
theorem Width.successor32_bmod (n : Int) : successor32 (Int.bmod n 4294967296) = Int.bmod (n + 1) 4294967296 :=
  Int.bmod_add_bmod

/-- A count in 32 bits that moves by one when the number it counts does is still that number in 32 bits. -/
theorem Width.bmod_moved {moves : Prop} [Decidable moves] {held held' : Int} {n n' : Nat}
    (h : held = Int.bmod n 4294967296) (hheld : held' = if moves then successor32 held else held)
    (hn : n' = n + if moves then 1 else 0) : held' = Int.bmod n' 4294967296 := by
  rw [hheld, hn, h]
  split
  · rw [successor32_bmod, Int.natCast_add, Int.natCast_one]
  · rw [Nat.add_zero]

/-- A count below half the range is held as it is. -/
theorem Width.bmod_eq_self {n : Nat} (h : n < 2147483648) : Int.bmod n 4294967296 = n :=
  Int.bmod_eq_of_le_mul_two (by omega) (by omega)

/-! ## The invariant -/

/-- No two records are of one query and node, every record is of a stored query, and every counter of a stored query holds, in
32 bits, the number of its records and a given number of increments, of which names that are not stored have none. -/
structure Tallied (extra : String → Counter → Nat) (s : Store) : Prop where
  once : s.executed.Nodup
  stored : ∀ e ∈ s.executions, e.name ∈ s.queryNames
  none : ∀ name counter, name ∉ s.queryNames → extra name counter = 0
  count : ∀ q ∈ s.queries, ∀ counter,
    q.count counter = Int.bmod (s.records q.name counter + extra q.name counter : Nat) 4294967296

/-- The records of other executions are as many as they were. -/
theorem Store.records_of_executions_eq {s s' : Store} (h : s'.executions = s.executions) : s'.records = s.records := by
  unfold records executionsOf
  rw [h]

/-- One more execution is one more record of its query, on the counters on which it counts. -/
theorem Store.records_append {s s' : Store} {e : Execution} (h : s'.executions = s.executions ++ [e]) (name : String)
    (counter : Counter) :
    s'.records name counter = s.records name counter + if e.name = name ∧ counter.counts e.toDraft then 1 else 0 := by
  simp only [records, executionsOf, List.countP_filter]
  rw [h, List.countP_append, List.countP_singleton]
  simp only [Bool.and_eq_true, beq_iff_eq, and_comm]

namespace Tallied

variable {extra : String → Counter → Nat} {s s' : Store}

theorem empty : Tallied (fun _ _ => 0) .empty where
  once := List.nodup_nil
  stored := fun _ he => absurd he List.not_mem_nil
  none := fun _ _ _ => rfl
  count := fun _ hq => absurd hq List.not_mem_nil

/-- The tally is a matter of the queries and the executions only. -/
theorem congr (h : Tallied extra s) (hqueries : s'.queries = s.queries) (hexecutions : s'.executions = s.executions) :
    Tallied extra s' := by
  have hnames : s'.queryNames = s.queryNames := by
    unfold Store.queryNames
    rw [hqueries]
  refine ⟨?_, ?_, ?_, ?_⟩
  · unfold Store.executed
    rw [hexecutions]
    exact h.once
  · rw [hexecutions, hnames]
    exact h.stored
  · rw [hnames]
    exact h.none
  · rw [hqueries, Store.records_of_executions_eq hexecutions]
    exact h.count

/-- A query that is not stored has no records. -/
theorem records_eq_zero (h : Tallied extra s) {name : String} (hfree : name ∉ s.queryNames) (counter : Counter) :
    s.records name counter = 0 := by
  refine List.countP_eq_zero.mpr ?_
  intro e he _
  obtain ⟨he, hname⟩ := List.mem_filter.mp he
  exact hfree (beq_iff_eq.mp hname ▸ h.stored e he)

/-- A new query starts with counts of zero. -/
theorem insert (h : Tallied extra s) {now : Time} {draft : Query.Draft} (hfree : draft.name ∉ s.queryNames)
    (hqueries : s'.queries = s.queries ++ [s.newQuery now draft]) (hexecutions : s'.executions = s.executions) :
    Tallied extra s' := by
  have hnames : s'.queryNames = s.queryNames ++ [draft.name] := by
    unfold Store.queryNames
    rw [hqueries, List.map_append]
    rfl
  refine ⟨?_, ?_, ?_, ?_⟩
  · unfold Store.executed
    rw [hexecutions]
    exact h.once
  · intro e he
    rw [hexecutions] at he
    rw [hnames]
    exact List.mem_append_left _ (h.stored e he)
  · intro name counter hname
    rw [hnames] at hname
    have hother : name ∉ s.queryNames := by
      intro hmem
      exact hname (List.mem_append_left _ hmem)
    exact h.none name counter hother
  · intro q hq counter
    rw [hqueries] at hq
    rw [Store.records_of_executions_eq hexecutions]
    rcases List.mem_append.mp hq with hq | hq
    · exact h.count q hq counter
    · rw [List.mem_singleton.mp hq]
      change (s.newQuery now draft).count counter =
        Int.bmod (s.records draft.name counter + extra draft.name counter : Nat) 4294967296
      rw [h.records_eq_zero hfree counter, h.none draft.name counter hfree]
      cases counter <;> rfl

/-- A change to a query keeps the tally where its counts move with its records and increments. -/
theorem change {extra' : String → Counter → Nat} {name : String} {change : Query → Query}
    (hname : ∀ q : Query, (change q).name = q.name) (hqueries : s'.queries = (s.changeQuery name change).queries)
    (honce : s'.executed.Nodup) (hstored : ∀ e ∈ s'.executions, e.name ∈ s.queryNames)
    (hnone : ∀ n counter, n ∉ s.queryNames → extra' n counter = 0)
    (hcount : ∀ q ∈ s.queries, ∀ counter, (if q.name = name then change q else q).count counter =
      Int.bmod (s'.records q.name counter + extra' q.name counter : Nat) 4294967296) : Tallied extra' s' := by
  have hnames : s'.queryNames = s.queryNames := by
    rw [← s.queryNames_changeQuery name hname]
    unfold Store.queryNames
    rw [hqueries]
  refine ⟨honce, ?_, ?_, ?_⟩
  · rw [hnames]
    exact hstored
  · rw [hnames]
    exact hnone
  · intro q' hq' counter
    rw [hqueries] at hq'
    obtain ⟨q, hq, rfl⟩ := List.mem_map.mp hq'
    have hsame : (if q.name = name then change q else q).name = q.name := by
      split
      · exact hname q
      · rfl
    rw [hsame]
    exact hcount q hq counter

/-- A change that keeps the name and the counts of a query keeps the tally. -/
theorem keep (h : Tallied extra s) (name : String) {change : Query → Query} (hname : ∀ q : Query, (change q).name = q.name)
    (hcount : ∀ q : Query, (change q).count = q.count) : Tallied extra (s.changeQuery name change) := by
  refine Tallied.change hname rfl h.once h.stored h.none ?_
  intro q hq counter
  have hrecords : (s.changeQuery name change).records = s.records := rfl
  rw [hrecords, ← h.count q hq counter]
  split
  · rw [hcount]
  · rfl

/-- An increment of a counter of a stored query is one more increment of it. -/
theorem increment (h : Tallied extra s) {name : String} (counted : Counter) (hstored : name ∈ s.queryNames) :
    Tallied (fun n counter => extra n counter + if name = n ∧ counted = counter then 1 else 0)
      (s.changeQuery name (·.counted counted)) := by
  refine Tallied.change (fun q => (q.same_counted counted).name) rfl h.once h.stored ?_ ?_
  · intro n counter hn
    have hne : name ≠ n := by
      rintro rfl
      exact hn hstored
    simp only [hne, false_and, if_false, h.none n counter hn]
  · intro q hq counter
    refine Width.bmod_moved (h.count q hq counter) ?_ (Nat.add_assoc _ _ _).symm
    by_cases hname : q.name = name
    · rw [if_pos hname, Query.count_counted]
      simp only [hname, true_and, eq_comm]
    · have hstays : ¬(name = q.name ∧ counted = counter) := by
        rintro ⟨heq, -⟩
        exact hname heq.symm
      rw [if_neg hname, if_neg hstays]

/-- The record of an execution moves the counts of its query. -/
theorem record (h : Tallied extra s) {e : Execution} (hfree : s.hasExecution e.name e.uuid = false)
    (hstored : e.name ∈ s.queryNames) (hqueries : s'.queries = (s.changeQuery e.name (·.tallied e.toDraft)).queries)
    (hexecutions : s'.executions = s.executions ++ [e]) : Tallied extra s' := by
  refine Tallied.change (fun q => (q.same_tallied e.toDraft).name) hqueries ?_ ?_ h.none ?_
  · unfold Store.executed
    rw [hexecutions, List.map_append]
    refine h.once.append (List.nodup_singleton _) (List.disjoint_singleton.mpr ?_)
    intro hmem
    rw [s.hasExecution_iff.mpr hmem] at hfree
    cases hfree
  · intro e' he'
    rw [hexecutions] at he'
    rcases List.mem_append.mp he' with he' | he'
    · exact h.stored e' he'
    · rw [List.mem_singleton.mp he']
      exact hstored
  · intro q hq counter
    have hrecords := Store.records_append hexecutions q.name counter
    refine Width.bmod_moved (h.count q hq counter) ?_ (by rw [hrecords, Nat.add_right_comm])
    by_cases hname : q.name = e.name
    · rw [if_pos hname, Query.count_tallied]
      simp only [hname, true_and]
    · have hstays : ¬(e.name = q.name ∧ counter.counts e.toDraft = true) := by
        rintro ⟨heq, -⟩
        exact hname heq.symm
      rw [if_neg hname, if_neg hstays]

/-- A call other than an increment keeps the tally. -/
theorem after_of_ne (h : Tallied extra s) (time : Time) {c : Call} (hc : ∀ name counter, c ≠ .incrementCounter name counter) :
    Tallied extra (c.after time s) := by
  cases c with
  | insertQuery draft =>
    rw [Call.after_insertQuery]
    split
    · exact h
    · rename_i hfree
      exact h.insert (by simpa [Store.queryNames] using hfree) rfl rfl
  | insertQueryWithTargets draft targets =>
    rw [Call.after_insertQueryWithTargets]
    split
    · exact h
    · rename_i hfree
      exact h.insert (by simpa [Store.queryNames] using hfree) rfl rfl
  | insertTargets name added =>
    rw [Call.after_insertTargets]
    split
    · exact h.congr rfl rfl
    · exact h
  | setExpected name expected =>
    rw [Call.after_setExpected]
    refine h.keep name (fun _ => rfl) ?_
    intro q
    funext counter
    cases counter <;> rfl
  | setFlags name flags =>
    rw [Call.after_setFlags]
    refine h.keep name (fun _ => rfl) ?_
    intro q
    funext counter
    cases counter <;> rfl
  | incrementCounter name counter => exact absurd rfl (hc name counter)
  | recordExecution e =>
    rw [Call.after_recordExecution]
    split
    · exact h
    · rename_i hrecorded
      simp only [not_or, Bool.not_eq_true, Bool.not_eq_false] at hrecorded
      exact h.record hrecorded.1 (by simpa [Store.queryNames] using hrecorded.2) rfl rfl
  | _ =>
    exact h.congr (Call.queries_of_part_ne s time (by simp [Call.part])).1
      (Call.queries_of_part_ne s time (by simp [Call.part])).2.2

/-- A call keeps the tally when its increment is added. -/
theorem after (h : Tallied extra s) (time : Time) (c : Call) :
    Tallied (fun name counter => extra name counter + c.increments name counter time s) (c.after time s) := by
  by_cases hc : ∃ name counter, c = .incrementCounter name counter
  · obtain ⟨name, counted, rfl⟩ := hc
    simp only [Call.increments_incrementCounter]
    rw [Call.after_incrementCounter]
    by_cases hstored : name ∈ s.queryNames
    · simpa only [hstored, and_true] using h.increment counted hstored
    · rw [s.changeQuery_of_none (s.getQuery_eq_none_iff.mpr hstored)]
      simpa only [hstored, and_false, if_false, Nat.add_zero] using h
  · have hne : ∀ name counter, c ≠ .incrementCounter name counter := by
      intro name counter heq
      exact hc ⟨name, counter, heq⟩
    have hzero : ∀ name counter, c.increments name counter time s = 0 := by
      intro name counter
      unfold Call.increments
      rw [if_neg (not_and_of_not_left _ (hne name counter))]
    simp only [hzero, Nat.add_zero]
    exact h.after_of_ne time hne

/-- A log of calls keeps the tally when its increments are added. -/
theorem replay (h : Tallied extra s) (log : List (Time × Call)) :
    Tallied (fun name counter => extra name counter + s.increments name counter log) (s.replay log) := by
  induction log generalizing extra s with
  | nil => exact h
  | cons entry log ih =>
    have hlog := ih (h.after entry.1 entry.2)
    simp only [Nat.add_assoc] at hlog
    exact hlog

/-- Proper calls increment no counter. -/
theorem after_of_proper {settings : Settings} (h : Tallied extra s) {c : Call} (hc : c.Proper settings) (time : Time) :
    Tallied extra (c.after time s) := by
  apply h.after_of_ne time
  intro name counter heq
  rw [heq] at hc
  cases hc with
  | reads hreads => cases hreads

/-- Operations increment no counter. -/
theorem of_reachable {settings : Settings} (hs : Reachable settings s) : Tallied (fun _ _ => 0) s := by
  refine hs.preserves Tallied.empty ?_
  intro c hc now s h
  exact h.after_of_proper hc now

/-- While the records and increments of a counter are less than the half of 32 bits, the counter holds their number. -/
theorem count_eq (h : Tallied extra s) {q : Query} (hq : q ∈ s.queries) (counter : Counter)
    (hless : s.records q.name counter + extra q.name counter < 2 ^ 31) :
    q.count counter = (s.records q.name counter + extra q.name counter : Nat) := by
  rw [h.count q hq counter, Width.bmod_eq_self hless]

end Tallied

/-- After any log of calls a query and node have at most one execution, of a stored query, and counters hold the numbers of
executions and of increments, in 32 bits. Where operations lead there are no increments but those of executions. -/
theorem Store.tally_replay (log : List (Time × Call)) :
    ((empty.replay log).executions.map fun e => (e.name, e.uuid)).Nodup ∧
    (∀ e ∈ (empty.replay log).executions, ∃ q ∈ (empty.replay log).queries, q.name = e.name) ∧
    (∀ q ∈ (empty.replay log).queries,
      (((empty.replay log).executionsOf q.name).length + empty.increments q.name .executions log < 2 ^ 31 →
        q.executions = ((empty.replay log).executionsOf q.name).length + empty.increments q.name .executions log) ∧
      (((empty.replay log).executionsOf q.name).countP (·.result != 0) + empty.increments q.name .errors log < 2 ^ 31 →
        q.errors = ((empty.replay log).executionsOf q.name).countP (·.result != 0) + empty.increments q.name .errors log)) ∧
    ∀ (settings : Settings) (s : Store), Reachable settings s → ∀ q ∈ s.queries,
      ((s.executionsOf q.name).length < 2 ^ 31 → q.executions = (s.executionsOf q.name).length) ∧
      ((s.executionsOf q.name).countP (·.result != 0) < 2 ^ 31 →
        q.errors = (s.executionsOf q.name).countP (·.result != 0)) := by
  have hlog := Tallied.empty.replay log
  simp only [Nat.zero_add] at hlog
  have hall : ∀ (s : Store) (name : String), s.records name .executions = (s.executionsOf name).length := by
    intro s name
    exact congrFun List.countP_true (s.executionsOf name)
  refine ⟨hlog.once, ?_, ?_, ?_⟩
  · intro e he
    exact (mem_queryNames _).mp (hlog.stored e he)
  · intro q hq
    constructor
    · rw [← hall]
      exact hlog.count_eq hq .executions
    · exact hlog.count_eq hq .errors
  · intro settings s hs q hq
    have hreached := Tallied.of_reachable hs
    constructor
    · rw [← hall]
      exact hreached.count_eq hq .executions
    · exact hreached.count_eq hq .errors

/-- Two nodes report, one of them twice, the other with an error, and the executions are incremented once. -/
theorem Store.tally_replay_of_two_nodes :
    let log : List (Time × Call) := [(0, .insertQuery (.ready "q" "root" "SELECT 1;" .standard)),
      (1, .recordExecution ⟨"q", "A", 0⟩), (2, .recordExecution ⟨"q", "A", 1⟩), (3, .recordExecution ⟨"q", "B", 1⟩),
      (4, .incrementCounter "q" .executions)]
    ∃ q ∈ (empty.replay log).queries, q.executions = 3 ∧ q.errors = 1 := by
  intro log
  obtain ⟨q, hq, hname⟩ : ∃ q ∈ (empty.replay log).queries, q.name = "q" := by decide +kernel
  obtain ⟨hexecutions, herrors⟩ := (tally_replay log).2.2.1 q hq
  rw [hname] at hexecutions herrors
  exact ⟨q, hq, hexecutions (by decide +kernel), herrors (by decide +kernel)⟩

end FleetControl
