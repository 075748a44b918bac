import FleetControl.Proofs.Atomicity
import FleetControl.Proofs.Digests
import FleetControl.Proofs.Journal

/-!
# What a history tells

No table keeps the observations of a node: an observation is compared with what is stored of the node, and its history gets a new
entry or, for an address, one more sighting of the newest entry. The newest entry of each kind holds what is stored of the node, so
the entries written since the node was enrolled are a digest of all it reported (`HistoryKind.digest`): of hostname, local name
and username every value but those equal to the one before, of addresses the lengths of their runs. Entries of other nodes and of
earlier enrolments stay as they are (`Session.Reached.histories`).
-/

namespace FleetControl

/-! ## Writes to a history -/

/-- The attribute that is written of. -/
def HistoryChange.kind : HistoryChange → HistoryKind
  | .append kind _ _ => kind
  | .increment kind _ => kind

namespace Store

/-- The last row that meets a condition is changed, where there is one. -/
theorem changeLast_cases {α : Type} (holds : α → Bool) (change : α → α) (rows : List α) :
    changeLast holds change rows = none ∧ (∀ row ∈ rows, holds row = false) ∨
      ∃ before row after, rows = before ++ row :: after ∧ holds row = true ∧ (∀ row ∈ after, holds row = false) ∧
        changeLast holds change rows = some (before ++ change row :: after) := by
  induction rows with
  | nil => exact Or.inl ⟨rfl, fun _ hrow => absurd hrow List.not_mem_nil⟩
  | cons row rows ih =>
    rcases ih with ⟨hnone, hfree⟩ | ⟨before, found, after, rfl, hfound, hafter, hchanged⟩
    · cases hrow : holds row with
      | false => exact Or.inl ⟨by simp [changeLast, hnone, hrow], List.forall_mem_cons.mpr ⟨hrow, hfree⟩⟩
      | true => exact Or.inr ⟨[], row, rows, rfl, hrow, hfree, by simp [changeLast, hnone, hrow]⟩
    · exact Or.inr ⟨row :: before, found, after, rfl, hfound, hafter, by simp [changeLast, hchanged]⟩

variable (s : Store) (now : Time) (uuid : String)

/-- A new entry is the newest of its UUID and attribute. -/
theorem historyOf_appendHistory (kind : HistoryKind) (value : String) (count : Int) :
    (s.appendHistory now uuid kind value count).historyOf uuid kind =
      s.historyOf uuid kind ++ [⟨s.nextId, uuid, kind, value, count, now, now⟩] := by
  simp [appendHistory, historyOf]

/-- An entry is not of other UUIDs and attributes. -/
theorem historyOf_appendHistory_of_ne {kind k : HistoryKind} {u : String} (h : ¬(uuid = u ∧ kind = k)) (value : String)
    (count : Int) : (s.appendHistory now uuid kind value count).historyOf u k = s.historyOf u k := by
  simpa [appendHistory, historyOf] using h

/-- A write to the history of a UUID and attribute leaves the others. -/
theorem historyOf_applyChange_of_ne {change : HistoryChange} {k : HistoryKind} {u : String}
    (h : ¬(uuid = u ∧ change.kind = k)) : (applyChange now uuid s change).historyOf u k = s.historyOf u k := by
  cases change with
  | append kind value count => exact historyOf_appendHistory_of_ne s now uuid h value count
  | increment kind value =>
    have hother : ∀ e : HistoryEntry, (e.uuid == uuid && e.kind == kind && e.value == value) = true →
        (e.uuid == u && e.kind == k) = false := by
      intro e he
      simp only [Bool.and_eq_true, beq_iff_eq] at he
      rw [he.1.1, he.1.2]
      simpa [HistoryChange.kind] using h
    simp only [applyChange, bumpHistory]
    rcases changeLast_cases (fun e : HistoryEntry => e.uuid == uuid && e.kind == kind && e.value == value)
      (fun e => { e with count := Width.successor32 e.count, updatedAt := now }) s.history with
      ⟨hnone, -⟩ | ⟨before, e, after, heq, hfound, -, hchanged⟩
    · rw [hnone]
      exact historyOf_appendHistory_of_ne s now uuid h value 1
    · rw [hchanged]
      simp only [historyOf]
      rw [heq, List.filter_append, List.filter_append, List.filter_cons_of_neg, List.filter_cons_of_neg]
      · simpa using hother e hfound
      · simpa using hother e hfound

/-- One more sighting of the value that the newest entry of the UUID and attribute holds is counted on that entry. -/
theorem historyOf_bumpHistory {kind : HistoryKind} {earlier : List HistoryEntry} {newest : HistoryEntry}
    (h : s.historyOf uuid kind = earlier ++ [newest]) :
    (s.bumpHistory now uuid kind newest.value).historyOf uuid kind =
      earlier ++ [{ newest with count := Width.successor32 newest.count, updatedAt := now }] := by
  have hmem : newest ∈ s.historyOf uuid kind := by
    rw [h]
    exact List.mem_append_right _ List.mem_cons_self
  obtain ⟨hnewest, hof⟩ := List.mem_filter.mp hmem
  have hholds : (newest.uuid == uuid && newest.kind == kind && newest.value == newest.value) = true := by
    rw [hof, beq_self_eq_true]
    rfl
  simp only [bumpHistory]
  rcases changeLast_cases (fun e : HistoryEntry => e.uuid == uuid && e.kind == kind && e.value == newest.value)
    (fun e => { e with count := Width.successor32 e.count, updatedAt := now }) s.history with
    ⟨-, hfree⟩ | ⟨before, e, after, heq, hfound, hafter, hchanged⟩
  · rw [hfree newest hnewest] at hholds
    cases hholds
  · have hofe : (e.uuid == uuid && e.kind == kind) = true := (Bool.and_eq_true_iff.mp hfound).1
    rw [hchanged]
    simp only [historyOf] at h ⊢
    rw [heq, List.filter_append, List.filter_cons, if_pos hofe] at h
    rw [List.filter_append, List.filter_cons, if_pos hofe]
    -- the entry changed is the newest: what comes after it does not hold the value
    rcases List.eq_nil_or_concat (after.filter fun e => e.uuid == uuid && e.kind == kind) with hnil | ⟨rest, last, hlast⟩
    · rw [hnil] at h ⊢
      obtain ⟨rfl, hsame⟩ := List.append_inj' h rfl
      obtain rfl := List.singleton_inj.mp hsame
      rfl
    · rw [hlast, List.concat_eq_append, ← List.cons_append, ← List.append_assoc] at h
      obtain ⟨-, hsame⟩ := List.append_inj' h rfl
      obtain rfl := List.singleton_inj.mp hsame
      have hin : last ∈ after.filter fun e => e.uuid == uuid && e.kind == kind := by
        rw [hlast, List.concat_eq_append]
        exact List.mem_append_right _ List.mem_cons_self
      rw [hafter last (List.mem_filter.mp hin).1] at hholds
      cases hholds

end Store

/-- What is stored after a comparison is what was observed, if anything was. -/
theorem getD_changed (stored observed : String) :
    (changed stored observed).getD stored = if observed = "" then stored else observed := by
  unfold changed
  by_cases hempty : observed = ""
  · rw [if_neg fun h => h.1 hempty, if_pos hempty]
    rfl
  · rw [if_neg hempty]
    by_cases hsame : observed = stored
    · rw [if_neg fun h => h.2 hsame, hsame]
      rfl
    · rw [if_pos ⟨hempty, hsame⟩]
      rfl

/-- What an entry tells: a value and a count. -/
def HistoryEntry.told (e : HistoryEntry) : String × Int := (e.value, e.count)

namespace HistoryKind

variable (kind : HistoryKind)

/-- The attribute among readings. -/
def of (r : Readings String) : String :=
  match kind with
  | .hostname => r.hostname
  | .localname => r.localname
  | .ipAddress => r.ipAddress
  | .username => r.username

/-- The writes to the history of the attribute, given what is stored of it and what was observed. -/
def changes (stored observed : String) : List HistoryChange :=
  match kind with
  | .ipAddress => sighted (changed stored observed) observed
  | .hostname | .localname | .username => logged kind (changed stored observed)

/-- What is stored of the attribute after an observation is what was observed, if anything was. -/
theorem of_apply_plan {stored other : Readings String} (h : kind.of other = kind.of stored) (observed : Observation) :
    kind.of ((Revision.plan stored observed).apply other) =
      if kind.of observed = "" then kind.of stored else kind.of observed := by
  have hstored : kind.of ((Revision.plan stored observed).apply other) =
      (changed (kind.of stored) (kind.of observed)).getD (kind.of other) := by
    cases kind <;> rfl
  rw [hstored, h, getD_changed]

/-- A logged write is of its attribute. -/
theorem filter_logged (k : HistoryKind) (update : Option String) :
    (logged k update).filter (·.kind == kind) = if k = kind then logged k update else [] := by
  cases update with
  | none => simp [logged]
  | some value => simp [logged, List.filter_cons, HistoryChange.kind]

/-- A sighting is a write of addresses. -/
theorem filter_sighted (update : Option String) (observed : String) :
    (sighted update observed).filter (·.kind == kind) = if .ipAddress = kind then sighted update observed else [] := by
  cases update with
  | some value => simp [sighted, List.filter_cons, HistoryChange.kind]
  | none =>
    by_cases hempty : observed = ""
    · simp [sighted, hempty]
    · simp [sighted, hempty, List.filter_cons, HistoryChange.kind]

/-- An observation writes of the attribute what the attribute alone calls for. -/
theorem filter_plan (stored : Readings String) (observed : Observation) :
    (Revision.plan stored observed).history.filter (·.kind == kind) = kind.changes (kind.of stored) (kind.of observed) := by
  simp only [Revision.plan, List.filter_append, filter_logged, filter_sighted]
  cases kind <;> simp [changes, of, Readings.zipWith]

/-- A node starts with one entry of the attribute. -/
theorem filter_seeds (e : Enrollment) :
    (e.seeds.map fun seed => HistoryChange.append seed.kind seed.value seed.count).filter (·.kind == kind) =
      [.append kind (kind.of e.attributes.readings) kind.firstCount] := by
  cases kind <;> rfl

end HistoryKind

namespace Store

variable (s : Store) (now : Time) (uuid : String) {kind : HistoryKind} {changes : List HistoryChange}

/-- Writes to the history of a UUID leave that of others, and of attributes that they are not of. -/
theorem historyOf_foldl_of_ne {u : String} {k : HistoryKind} (h : ∀ change ∈ changes, ¬(uuid = u ∧ change.kind = k)) :
    (changes.foldl (applyChange now uuid) s).historyOf u k = s.historyOf u k := by
  induction changes generalizing s with
  | nil => rfl
  | cons change changes ih =>
    obtain ⟨hfirst, hrest⟩ := List.forall_mem_cons.mp h
    rw [List.foldl_cons, ih _ hrest, historyOf_applyChange_of_ne s now uuid hfirst]

/-- Of writes only those of an attribute change its history. -/
theorem historyOf_foldl_of_none (h : changes.filter (·.kind == kind) = []) :
    (changes.foldl (applyChange now uuid) s).historyOf uuid kind = s.historyOf uuid kind := by
  refine historyOf_foldl_of_ne s now uuid ?_
  rintro change hchange ⟨-, hkind⟩
  exact List.filter_eq_nil_iff.mp h change hchange (beq_iff_eq.mpr hkind)

/-- Of writes of which one is of an attribute its history is changed by that one alone. -/
theorem exists_historyOf_foldl {change : HistoryChange} (h : changes.filter (·.kind == kind) = [change]) :
    ∃ s₁, s₁.historyOf uuid kind = s.historyOf uuid kind ∧
      (changes.foldl (applyChange now uuid) s).historyOf uuid kind = (applyChange now uuid s₁ change).historyOf uuid kind := by
  induction changes generalizing s with
  | nil => cases h
  | cons first rest ih =>
    rw [List.filter_cons] at h
    split at h
    · obtain ⟨rfl, hrest⟩ := List.cons.inj h
      exact ⟨s, rfl, historyOf_foldl_of_none _ now uuid hrest⟩
    · rename_i hkind
      have hne : ¬(uuid = uuid ∧ first.kind = kind) := by
        rintro ⟨-, heq⟩
        exact hkind (beq_iff_eq.mpr heq)
      obtain ⟨s₁, hsame, hchanged⟩ := ih (applyChange now uuid s first) h
      exact ⟨s₁, hsame.trans (historyOf_applyChange_of_ne s now uuid hne), hchanged⟩

end Store

/-- Since the history was as at the start, entries were written that tell the digest of the values, with counts in 32 bits. -/
def HistoryKind.Tells (kind : HistoryKind) (start now : List HistoryEntry) (values : List String) : Prop :=
  ∃ written, now = start ++ written ∧
    written.map (·.told) = (kind.digest values).map fun p => (p.1, Int.bmod p.2 4294967296)

namespace HistoryKind.Tells

variable {kind : HistoryKind} {start : List HistoryEntry} {s : Store} {now : Time} {uuid : String}
  {changes : List HistoryChange} {values : List String}

/-- The entry that a history starts with tells one value. -/
theorem first {v : String} (h : changes.filter (·.kind == kind) = [.append kind v kind.firstCount]) :
    kind.Tells (s.historyOf uuid kind) ((changes.foldl (Store.applyChange now uuid) s).historyOf uuid kind) [v] := by
  obtain ⟨s₁, hsame, hchanged⟩ := Store.exists_historyOf_foldl s now uuid h
  rw [hchanged, ← hsame]
  refine ⟨_, Store.historyOf_appendHistory s₁ now uuid kind v kind.firstCount, ?_⟩
  rw [digest_singleton]
  cases kind <;> rfl

/-- An entry that is written of another value tells it. -/
theorem append {v x : String} (h : kind.Tells start (s.historyOf uuid kind) values) (hlast : values.getLast? = some v)
    (hx : x ≠ v) (hchanges : changes.filter (·.kind == kind) = [.append kind x kind.firstCount]) :
    kind.Tells start ((changes.foldl (Store.applyChange now uuid) s).historyOf uuid kind) (values ++ [x]) := by
  obtain ⟨written, hwritten, htold⟩ := h
  obtain ⟨s₁, hs₁, hchanged⟩ := Store.exists_historyOf_foldl s now uuid hchanges
  refine ⟨written ++ [⟨s₁.nextId, uuid, kind, x, kind.firstCount, now, now⟩], ?_, ?_⟩
  · rw [hchanged, ← List.append_assoc, ← hwritten, ← hs₁]
    exact Store.historyOf_appendHistory s₁ now uuid kind x kind.firstCount
  · rw [digest_append_of_ne kind hlast hx, List.map_append, List.map_append, htold]
    cases kind <;> rfl

/-- One more sighting of the last address is told by the newest entry, which holds that address. -/
theorem increment {x : String} (h : ipAddress.Tells start (s.historyOf uuid .ipAddress) values)
    (hlast : values.getLast? = some x) (hchanges : changes.filter (·.kind == ipAddress) = [.increment .ipAddress x]) :
    ipAddress.Tells start ((changes.foldl (Store.applyChange now uuid) s).historyOf uuid .ipAddress) (values ++ [x]) := by
  obtain ⟨written, hwritten, htold⟩ := h
  obtain ⟨s₁, hs₁, hchanged⟩ := Store.exists_historyOf_foldl s now uuid hchanges
  obtain ⟨rest, count, hdigest, hdigest'⟩ := digest_ipAddress_append_self hlast
  rw [hdigest, List.map_append, List.map_singleton] at htold
  obtain ⟨earlier, last, rfl, hearlier, hsingle⟩ := List.map_eq_append_iff.mp htold
  -- the last entry written is the newest of all, and it is this one that the sighting is counted on
  obtain ⟨newest, rfl, hnewest⟩ := List.map_eq_singleton_iff.mp hsingle
  obtain ⟨hvalue, hcount⟩ := Prod.mk.inj hnewest
  rw [hwritten, ← List.append_assoc] at hs₁
  refine ⟨earlier ++ [{ newest with count := Width.successor32 newest.count, updatedAt := now }], ?_, ?_⟩
  · rw [hchanged, ← List.append_assoc, ← Store.historyOf_bumpHistory s₁ now uuid hs₁, hvalue]
    rfl
  · rw [hdigest', List.map_append, List.map_append, hearlier]
    simp only [List.map_singleton, HistoryEntry.told, hvalue, hcount, Width.successor32_bmod]

/-- A value that was observed is told by what its comparison with the last one writes. -/
theorem observe {v : String} (h : kind.Tells start (s.historyOf uuid kind) values) (hlast : values.getLast? = some v)
    {x : String} (hchanges : changes.filter (·.kind == kind) = kind.changes v x) :
    kind.Tells start ((changes.foldl (Store.applyChange now uuid) s).historyOf uuid kind) (values ++ [x].filter (· ≠ "")) := by
  have hquiet : changes.filter (·.kind == kind) = [] →
      kind.Tells start ((changes.foldl (Store.applyChange now uuid) s).historyOf uuid kind) values := by
    intro hnone
    rwa [Store.historyOf_foldl_of_none s now uuid hnone]
  by_cases hempty : x = ""
  · rw [List.filter_cons_of_neg (by simpa using hempty), List.filter_nil, List.append_nil]
    refine hquiet (hchanges.trans ?_)
    cases kind <;> simp [HistoryKind.changes, logged, sighted, changed, hempty]
  · rw [List.filter_cons_of_pos (by simpa using hempty), List.filter_nil]
    by_cases hsame : x = v
    · subst hsame
      by_cases hkind : kind = .ipAddress
      · subst hkind
        refine h.increment hlast (hchanges.trans ?_)
        simp [HistoryKind.changes, sighted, changed, hempty]
      · have hnone : kind.changes x x = [] := by
          cases kind <;> simp_all [HistoryKind.changes, logged, changed]
        obtain ⟨written, hwritten, htold⟩ := hquiet (hchanges.trans hnone)
        rw [← digest_append_self kind hkind hlast] at htold
        exact ⟨written, hwritten, htold⟩
    · refine h.append hlast hsame (hchanges.trans ?_)
      cases kind <;> simp [HistoryKind.changes, logged, sighted, changed, hempty, hsame, firstCount]

end HistoryKind.Tells

/-! ## What each call does to a history -/

namespace Call

variable {s : Store} (now : Time)

/-- The UUID that a call writes the history of. -/
def writesHistoryOf : Call → Option String
  | .insertNode e _ => some e.uuid
  | .applyObservation uuid _ => some uuid
  | _ => none

/-- A call that is refused leaves the store. -/
theorem after_of_not_ok {c : Call} (h : (c.exec now s).isOk = false) : c.after now s = s := by
  unfold after
  cases hexec : c.exec now s with
  | ok answered =>
    rw [hexec] at h
    cases h
  | error why => rfl

/-- The node of a new identity is inserted together with the entries its history starts with. -/
theorem after_insertNode_of_free {e : Enrollment} (hfree : s.isTaken e = false) (seeds : List HistorySeed) :
    (insertNode e seeds).after now s =
      (seeds.map fun seed => HistoryChange.append seed.kind seed.value seed.count).foldl (Store.applyChange now e.uuid)
        { s with lastId := s.nextId, nodes := s.nodes ++ [s.newNode now e] } := by
  rw [List.foldl_map]
  simp only [after, exec, Store.insertNode, hfree]
  rfl

/-- An insertion that is not refused is one of a new identity. -/
theorem free_of_insertNode_ok {e : Enrollment} {seeds : List HistorySeed}
    (hok : ((insertNode e seeds).exec now s).isOk = true) : s.isTaken e = false := by
  cases htaken : s.isTaken e with
  | false => rfl
  | true =>
    simp only [exec, Store.insertNode, htaken] at hok
    cases hok

/-- The node of a new identity is put after those that are there. -/
theorem nodes_after_insertNode_of_free {e : Enrollment} (hfree : s.isTaken e = false) (seeds : List HistorySeed) :
    ((insertNode e seeds).after now s).nodes = s.nodes ++ [s.newNode now e] := by
  rcases after_insertNode s now e seeds with ⟨-, htaken⟩ | ⟨-, _, _, hinsert⟩
  · rw [hfree] at htaken
    cases htaken
  · rw [hinsert]

/-- The node of a new identity is the one that is inserted. -/
theorem eq_newNode_of_mem_after {e : Enrollment} (hfree : s.isTaken e = false) {seeds : List HistorySeed} {n : Node}
    (hn : n ∈ ((insertNode e seeds).after now s).nodes) (huuid : n.uuid = e.uuid) : n = s.newNode now e := by
  rw [nodes_after_insertNode_of_free now hfree] at hn
  rcases List.mem_append.mp hn with hn | hn
  · exact absurd (List.mem_map.mpr ⟨n, hn, huuid⟩) (Store.Sound.fresh hfree).2
  · exact List.mem_singleton.mp hn

/-- An observation of a node that is not there is refused. -/
theorem after_applyObservation_of_none {uuid : String} (h : s.nodes.find? (·.uuid == uuid) = none) (observed : Observation) :
    (applyObservation uuid observed).after now s = s :=
  after_of_not_ok now (by simp only [exec, Store.applyObservation, Store.nodeWith, h]; rfl)

/-- A node that is found is revised together with its history. -/
theorem after_applyObservation_of_find {uuid : String} {n : Node} (h : s.nodes.find? (·.uuid == uuid) = some n)
    (observed : Observation) :
    (applyObservation uuid observed).after now s =
      (Revision.plan n.attributes.readings observed).history.foldl (Store.applyChange now uuid)
        (s.changeNode uuid fun m => m.revised now (Revision.plan n.attributes.readings observed)) := by
  simp only [after, exec, Store.applyObservation, Store.nodeWith, h]
  rfl

/-- A call leaves the histories of other UUIDs. -/
theorem historyOf_after {c : Call} {uuid : String} (h : c.writesHistoryOf ≠ some uuid) (kind : HistoryKind) :
    (c.after now s).historyOf uuid kind = s.historyOf uuid kind := by
  cases c with
  | insertNode e seeds =>
    have hne : e.uuid ≠ uuid := fun heq => h (congrArg some heq)
    rcases after_insertNode s now e seeds with ⟨hsame, -⟩ | ⟨hfree, -⟩
    · rw [hsame]
    · rw [after_insertNode_of_free now hfree, Store.historyOf_foldl_of_ne _ now e.uuid fun _ _ heq => hne heq.1]
      rfl
  | applyObservation u observed =>
    have hne : u ≠ uuid := fun heq => h (congrArg some heq)
    cases hfind : s.nodes.find? (·.uuid == u) with
    | none =>
      rw [after_applyObservation_of_none now hfind]
    | some n =>
      rw [after_applyObservation_of_find now hfind, Store.historyOf_foldl_of_ne _ now u fun _ _ heq => hne heq.1]
      rfl
  | touchEvent u event time => rw [after_touchEvent]; rfl
  | deleteNode u => rw [after_deleteNode]; rfl
  | _ =>
    unfold Store.historyOf
    rw [(nodes_of_part_ne s now (by simp [part])).2]

/-- A call leaves the nodes of other UUIDs, and what they reported. -/
theorem same_after {c : Call} {uuid : String} (h : c.writesHistoryOf ≠ some uuid) {n : Node}
    (hn : n ∈ (c.after now s).nodes) (huuid : n.uuid = uuid) :
    ∃ m ∈ s.nodes, m.Same n ∧ m.attributes.readings = n.attributes.readings := by
  cases c with
  | insertNode e seeds =>
    rcases after_insertNode s now e seeds with ⟨hsame, -⟩ | ⟨-, _, _, hinsert⟩
    · rw [hsame] at hn
      exact ⟨n, hn, .refl n, rfl⟩
    · rw [hinsert] at hn
      rcases List.mem_append.mp hn with hn | hn
      · exact ⟨n, hn, .refl n, rfl⟩
      · rw [List.mem_singleton.mp hn] at huuid
        exact absurd (congrArg some huuid) h
  | applyObservation u observed =>
    obtain ⟨_, _, hrevise⟩ := after_applyObservation s now u observed
    rw [hrevise] at hn
    obtain ⟨m, hm, rfl⟩ := List.mem_map.mp hn
    by_cases hmu : m.uuid = u
    · rw [if_pos hmu] at huuid
      exact absurd (congrArg some (hmu.symm.trans huuid)) h
    · rw [if_neg hmu]
      exact ⟨m, hm, .refl m, rfl⟩
  | touchEvent u event time =>
    rw [after_touchEvent] at hn
    obtain ⟨m, hm, rfl⟩ := List.mem_map.mp hn
    refine ⟨m, hm, ?_⟩
    split <;> exact ⟨⟨rfl, rfl, rfl, rfl, rfl⟩, rfl⟩
  | deleteNode u =>
    rw [after_deleteNode] at hn
    exact ⟨n, (List.mem_filter.mp hn).1, .refl n, rfl⟩
  | _ =>
    rw [(nodes_of_part_ne s now (by simp [part])).1] at hn
    exact ⟨n, hn, .refl n, rfl⟩

end Call

/-! ## Since a node was enrolled -/

/-- The values that an attribute took since an enrolment: that of the enrolment, and those observed after it. -/
def Enrollment.values (e : Enrollment) (observed : List Observation) (kind : HistoryKind) : List String :=
  kind.of e.attributes.readings :: (observed.map kind.of).filter (· ≠ "")

theorem Enrollment.values_append (e : Enrollment) (observed : List Observation) (o : Observation) (kind : HistoryKind) :
    e.values (observed ++ [o]) kind = e.values observed kind ++ [kind.of o].filter (· ≠ "") := by
  simp only [values, List.map_append, List.map_singleton, List.filter_append, List.cons_append]

/-- Since the store was `start`, a node was enrolled and observations of it were applied: of each attribute the last value is
stored, and the history tells them all. -/
structure Store.Follows (s start : Store) (e : Enrollment) (observed : List Observation) : Prop where
  current : ∀ n ∈ s.nodes, n.uuid = e.uuid → ∀ kind : HistoryKind,
    (e.values observed kind).getLast? = some (kind.of n.attributes.readings)
  tells : ∀ kind : HistoryKind, kind.Tells (start.historyOf e.uuid kind) (s.historyOf e.uuid kind) (e.values observed kind)

namespace Store.Follows

variable {s start : Store} {e : Enrollment} {observed : List Observation} (now : Time)

/-- A node that is enrolled has told its attributes once. -/
theorem enrol (hfree : s.isTaken e = false) : ((Call.insertNode e e.seeds).after now s).Follows s e [] := by
  constructor
  · intro n hn huuid kind
    rw [Call.eq_newNode_of_mem_after now hfree hn huuid]
    rfl
  · intro kind
    rw [Call.after_insertNode_of_free now hfree]
    exact HistoryKind.Tells.first (kind.filter_seeds e)

/-- An observation that is applied to the node is told. -/
theorem observe (h : s.Follows start e observed) {n : Node} (hfind : s.nodes.find? (·.uuid == e.uuid) = some n)
    (o : Observation) : ((Call.applyObservation e.uuid o).after now s).Follows start e (observed ++ [o]) := by
  obtain ⟨hn, huuid⟩ := Store.of_find?_eq_some hfind
  rw [Call.after_applyObservation_of_find now hfind]
  constructor
  · intro m' hm' huuid' kind
    obtain ⟨_, _, hrevise⟩ := Store.foldl_applyChange
      (s.changeNode e.uuid fun m => m.revised now (Revision.plan n.attributes.readings o)) now e.uuid
      (Revision.plan n.attributes.readings o).history
    rw [hrevise] at hm'
    obtain ⟨m, hm, rfl⟩ := List.mem_map.mp hm'
    by_cases hmu : m.uuid = e.uuid
    · have hsame : kind.of m.attributes.readings = kind.of n.attributes.readings :=
        Option.some.inj ((h.current m hm hmu kind).symm.trans (h.current n hn huuid kind))
      rw [if_pos hmu, Enrollment.values_append]
      change _ = some (kind.of ((Revision.plan n.attributes.readings o).apply m.attributes.readings))
      rw [kind.of_apply_plan hsame]
      by_cases hempty : kind.of o = ""
      · rw [if_pos hempty, List.filter_cons_of_neg (by simpa using hempty), List.filter_nil, List.append_nil]
        exact h.current n hn huuid kind
      · rw [if_neg hempty, List.filter_cons_of_pos (by simpa using hempty), List.filter_nil, List.getLast?_append]
        rfl
    · rw [if_neg hmu] at huuid'
      exact absurd huuid' hmu
  · intro kind
    let revised := s.changeNode e.uuid fun m => m.revised now (Revision.plan n.attributes.readings o)
    have htells : kind.Tells (start.historyOf e.uuid kind) (revised.historyOf e.uuid kind) (e.values observed kind) :=
      h.tells kind
    rw [Enrollment.values_append]
    exact htells.observe (h.current n hn huuid kind) (kind.filter_plan n.attributes.readings o)

/-- Whatever is done to other nodes, and whatever is not done to a history, leaves what is told. -/
theorem leave (h : s.Follows start e observed) {c : Call} (hc : c.writesHistoryOf ≠ some e.uuid) :
    (c.after now s).Follows start e observed := by
  constructor
  · intro n hn huuid kind
    obtain ⟨m, hm, hsame, hreadings⟩ := Call.same_after now hc hn huuid
    rw [← hreadings]
    exact h.current m hm (hsame.uuid ▸ huuid) kind
  · intro kind
    rw [Call.historyOf_after now hc]
    exact h.tells kind

end Store.Follows

/-! ## What a journal tells -/

namespace Entry

variable (uuid : String) (s : Store) (entry : Entry)

/-- What the entry of a journal enrolled: what its command asks for, if its call inserts that and is answered. -/
def enrolled? : Option Enrollment :=
  entry.command.enrollment?.filter fun e => entry.call = .insertNode e e.seeds ∧ (entry.call.exec entry.time s).isOk

/-- The observation that the entry of a journal applied to the UUID: what its command reports, if its call applies that and is
answered. -/
def applied? : Option Observation :=
  entry.command.observation?.filter fun o => entry.call = .applyObservation uuid o ∧ (entry.call.exec entry.time s).isOk

variable {uuid s entry}

theorem enrolled?_eq_some_iff {e : Enrollment} :
    entry.enrolled? s = some e ↔
      entry.command.enrollment? = some e ∧ entry.call = .insertNode e e.seeds ∧ (entry.call.exec entry.time s).isOk = true := by
  simp only [enrolled?, Option.filter_eq_some_iff, decide_eq_true_eq]

theorem applied?_eq_some_iff {o : Observation} :
    entry.applied? uuid s = some o ↔
      entry.command.observation? = some o ∧ entry.call = .applyObservation uuid o ∧
        (entry.call.exec entry.time s).isOk = true := by
  simp only [applied?, Option.filter_eq_some_iff, decide_eq_true_eq]

/-- An entry that enrolled no node of the UUID and applied no observation to it did not write its history, or did nothing. -/
theorem leaves (hallows : entry.command.Allows entry.call) (henrolled : ∀ e, entry.enrolled? s = some e → e.uuid ≠ uuid)
    (happlied : entry.applied? uuid s = none) :
    entry.call.writesHistoryOf ≠ some uuid ∨ entry.call.after entry.time s = s := by
  cases hok : (entry.call.exec entry.time s).isOk with
  | false => exact Or.inr (Call.after_of_not_ok entry.time hok)
  | true =>
    left
    intro hwrites
    cases hcall : entry.call with
    | insertNode e seeds =>
      rw [hcall] at hallows hwrites
      obtain ⟨hcommand, rfl⟩ := hallows
      exact henrolled e (enrolled?_eq_some_iff.mpr ⟨hcommand, hcall, hok⟩) (Option.some.inj hwrites)
    | applyObservation u o =>
      rw [hcall] at hallows hwrites
      obtain rfl := Option.some.inj hwrites
      have happlies := applied?_eq_some_iff.mpr ⟨hallows, hcall, hok⟩
      rw [happlied] at happlies
      cases happlies
    | _ =>
      rw [hcall] at hwrites
      cases hwrites

end Entry

namespace Store

variable {α : Type} (f : Store → Entry → Option α)

/-- What the entries of a journal yield, each of them on the store that it found. -/
def gather (s : Store) : List Entry → List α
  | [] => []
  | entry :: journal => (f s entry).toList ++ gather (entry.call.after entry.time s) journal

theorem gather_append (s : Store) (journal more : List Entry) :
    s.gather f (journal ++ more) = s.gather f journal ++ (s.follow journal).gather f more := by
  induction journal generalizing s with
  | nil => rfl
  | cons entry journal ih =>
    rw [List.cons_append, gather, gather, ih, List.append_assoc]
    rfl

/-- What an observation of the node of a UUID carries on, and what is kept by whatever is done to other nodes and not done to a
history, is carried on by a journal that enrols no other node of the UUID, with the observations applied in it. -/
theorem follow_applied {P : Store → List Observation → Prop} {uuid : String}
    (hobserve : ∀ (s : Store) (observed : List Observation) (now : Time) (n : Node) (o : Observation), P s observed →
      s.nodes.find? (·.uuid == uuid) = some n → P ((Call.applyObservation uuid o).after now s) (observed ++ [o]))
    (hleave : ∀ (s : Store) (observed : List Observation) (now : Time) (c : Call), P s observed →
      c.writesHistoryOf ≠ some uuid → P (c.after now s) observed)
    {s : Store} {observed : List Observation} (h : P s observed) {journal : List Entry}
    (hallows : ∀ entry ∈ journal, entry.command.Allows entry.call)
    (hlast : ∀ e ∈ s.gather Entry.enrolled? journal, e.uuid ≠ uuid) :
    P (s.follow journal) (observed ++ s.gather (Entry.applied? uuid) journal) := by
  induction journal generalizing s observed with
  | nil =>
    rw [gather, List.append_nil]
    exact h
  | cons entry journal ih =>
    obtain ⟨hfirst, hrest⟩ := List.forall_mem_cons.mp hallows
    rw [gather, List.forall_mem_append] at hlast
    have henrolled : ∀ e, entry.enrolled? s = some e → e.uuid ≠ uuid := by
      intro e he
      exact hlast.1 e (Option.mem_toList.mpr he)
    have hstep : P (entry.call.after entry.time s) (observed ++ (entry.applied? uuid s).toList) := by
      cases happlied : entry.applied? uuid s with
      | some o =>
        obtain ⟨-, hcall, hok⟩ := Entry.applied?_eq_some_iff.mp happlied
        rw [hcall] at hok ⊢
        cases hfind : s.nodes.find? (·.uuid == uuid) with
        | none =>
          simp only [Call.exec, applyObservation, nodeWith, hfind] at hok
          cases hok
        | some n => exact hobserve s observed entry.time n o h hfind
      | none =>
        rw [Option.toList_none, List.append_nil]
        rcases entry.leaves hfirst henrolled happlied with hleaves | hsame
        · exact hleave s observed entry.time entry.call h hleaves
        · rwa [hsame]
    rw [gather, ← List.append_assoc]
    exact ih hstep hrest hlast.2

end Store

/-- What a session tells of a node since it was last enrolled: the entry of the journal that enrolled it, and the entries before
and after, of which those after enrolled no other node of the UUID. -/
structure Session.Life (v : Session) where
  before : List Entry
  entry : Entry
  after : List Entry
  enrollment : Enrollment
  journal_eq : v.journal = before ++ entry :: after
  enrolled : entry.enrolled? (Store.empty.follow before) = some enrollment
  last : ∀ e ∈ (Store.empty.follow (before ++ [entry])).gather Entry.enrolled? after, e.uuid ≠ enrollment.uuid

namespace Session.Life

variable {v : Session} (life : v.Life)

/-- The UUID of the node. -/
def uuid : String := life.enrollment.uuid

/-- The store right before the enrolment. -/
def start : Store := Store.empty.follow life.before

/-- The observations that were applied to the node since its enrolment. -/
def observed : List Observation :=
  (Store.empty.follow (life.before ++ [life.entry])).gather (Entry.applied? life.uuid) life.after

/-- The values that an attribute took since the enrolment: that of the enrolment, and those observed since, without the empty
ones. -/
def values (kind : HistoryKind) : List String := life.enrollment.values life.observed kind

/-- The enrolment found its identity free. -/
theorem free : life.start.isTaken life.enrollment = false := by
  obtain ⟨-, hcall, hok⟩ := Entry.enrolled?_eq_some_iff.mp life.enrolled
  rw [hcall] at hok
  exact Call.free_of_insertNode_ok life.entry.time hok

/-- What holds right after the enrolment, is carried on by every observation of the node, and is kept by whatever is done to other
nodes and not done to a history, holds in the end of a session that came about, with the observations applied since. -/
theorem carries {settings : Settings} (hv : v.Reached settings) {P : Store → List Observation → Prop}
    (henrol : P ((Call.insertNode life.enrollment life.enrollment.seeds).after life.entry.time life.start) [])
    (hobserve : ∀ (s : Store) (observed : List Observation) (now : Time) (n : Node) (o : Observation), P s observed →
      s.nodes.find? (·.uuid == life.uuid) = some n → P ((Call.applyObservation life.uuid o).after now s) (observed ++ [o]))
    (hleave : ∀ (s : Store) (observed : List Observation) (now : Time) (c : Call), P s observed →
      c.writesHistoryOf ≠ some life.uuid → P (c.after now s) observed) : P v.store life.observed := by
  obtain ⟨-, hstore, hjournal⟩ := hv.kept
  rw [life.journal_eq] at hjournal
  obtain ⟨-, hcall, -⟩ := Entry.enrolled?_eq_some_iff.mp life.enrolled
  have hstart : P (Store.empty.follow (life.before ++ [life.entry])) [] := by
    rw [Store.follow_append_singleton, hcall]
    exact henrol
  have hrest : ∀ entry ∈ life.after, entry.command.Allows entry.call := by
    intro entry hentry
    exact hjournal entry (List.mem_append_right _ (List.mem_cons_of_mem _ hentry))
  have hfollow := Store.follow_applied hobserve hleave hstart hrest life.last
  rw [← Store.follow_append, List.append_assoc, List.singleton_append, ← life.journal_eq, ← hstore,
    List.nil_append] at hfollow
  exact hfollow

/-- In a session that came about the history follows the node since it was enrolled. -/
theorem follows {settings : Settings} (hv : v.Reached settings) : v.store.Follows life.start life.enrollment life.observed :=
  life.carries hv (P := fun s observed => s.Follows life.start life.enrollment observed)
    (.enrol life.entry.time life.free) (fun _ _ now _ o h hfind => h.observe now hfind o) fun _ _ now _ h hc => h.leave now hc

end Session.Life

/-- In what a journal leads to from the empty store no two nodes have the same UUID. -/
theorem Store.nodup_uuids_follow (journal : List Entry) : ((Store.empty.follow journal).nodes.map (·.uuid)).Nodup := by
  let distinct (s : Store) : Prop := (s.nodes.map (·.key)).Nodup ∧ (s.nodes.map (·.uuid)).Nodup
  have hafter : ∀ (c : Call) (now : Time) (s : Store), distinct s → distinct (c.after now s) :=
    fun c now _ h => Sound.identities_after h.1 h.2 c now
  have hempty : distinct .empty := ⟨List.nodup_nil, List.nodup_nil⟩
  exact (follow_preserves hafter hempty journal).2

/-- A call after which there is a node of a UUID inserted it, or there was one before. -/
theorem Call.hasNode_of_after {c : Call} {now : Time} {s : Store} {uuid : String} (h : (c.after now s).HasNode uuid) :
    s.HasNode uuid ∨ ∃ e seeds, c = .insertNode e seeds ∧ (c.exec now s).isOk = true ∧ e.uuid = uuid := by
  obtain ⟨n, hn, huuid⟩ := h
  rcases Call.nodes_cases s now c with hsame | ⟨e, seeds, rfl, hfree, hnodes⟩ | ⟨u, -, hnodes⟩
  · have hmem : uuid ∈ s.nodes.map (·.uuid) := by
      rw [← hsame.identities.2, ← huuid]
      exact List.mem_map_of_mem hn
    exact Or.inl (List.mem_map.mp hmem)
  · rw [hnodes] at hn
    rcases List.mem_append.mp hn with hn | hn
    · exact Or.inl ⟨n, hn, huuid⟩
    · refine Or.inr ⟨e, seeds, rfl, ?_, ?_⟩
      · simp only [exec, Store.insertNode, hfree]
        rfl
      · rw [List.mem_singleton.mp hn] at huuid
        exact huuid
  · rw [hnodes] at hn
    exact Or.inl ⟨n, (List.mem_filter.mp hn).1, huuid⟩

/-- Whoever is there was enrolled, by a last entry that did. -/
theorem Store.exists_last_enrolled (journal : List Entry) (hallows : ∀ entry ∈ journal, entry.command.Allows entry.call)
    {uuid : String} (huuid : (Store.empty.follow journal).HasNode uuid) :
    ∃ before entry after e, journal = before ++ entry :: after ∧ entry.enrolled? (Store.empty.follow before) = some e ∧
      (∀ e' ∈ (Store.empty.follow (before ++ [entry])).gather Entry.enrolled? after, e'.uuid ≠ e.uuid) ∧ e.uuid = uuid := by
  induction journal using List.reverseRecOn with
  | nil =>
    obtain ⟨n, hn, -⟩ := huuid
    exact absurd hn List.not_mem_nil
  | append_singleton journal entry ih =>
    rw [List.forall_mem_append, List.forall_mem_singleton] at hallows
    obtain ⟨hrest, hentry⟩ := hallows
    -- either the last entry enrolled the node, or the node was there before and the last entry enrolled no other of the UUID
    by_cases henrolled : ∃ e, entry.enrolled? (Store.empty.follow journal) = some e ∧ e.uuid = uuid
    · obtain ⟨e, henrolled, heq⟩ := henrolled
      exact ⟨journal, entry, [], e, rfl, henrolled, fun _ he => absurd he List.not_mem_nil, heq⟩
    · have hthere : (Store.empty.follow journal).HasNode uuid := by
        rw [follow_append_singleton] at huuid
        rcases Call.hasNode_of_after huuid with hthere | ⟨e, seeds, hcall, hok, heq⟩
        · exact hthere
        · rw [hcall] at hentry
          obtain ⟨hcommand, rfl⟩ := hentry
          exact absurd ⟨e, Entry.enrolled?_eq_some_iff.mpr ⟨hcommand, hcall, hok⟩, heq⟩ henrolled
      obtain ⟨before, found, after, e, rfl, hfound, hlast, heq⟩ := ih hrest hthere
      refine ⟨before, found, after ++ [entry], e, by simp, hfound, ?_, heq⟩
      rw [gather_append, List.forall_mem_append, ← follow_append, List.append_assoc, List.singleton_append]
      refine ⟨hlast, ?_⟩
      intro e' he' heq'
      simp only [gather, List.append_nil, Option.mem_toList] at he'
      exact henrolled ⟨e', he', heq'.trans heq⟩

/-- In a session that came about every node that is there has a life. -/
theorem Session.Reached.exists_life {settings : Settings} {v : Session} (hv : v.Reached settings) {n : Node}
    (hn : n ∈ v.store.nodes) : ∃ life : v.Life, life.uuid = n.uuid := by
  obtain ⟨-, hstore, hjournal⟩ := hv.kept
  rw [hstore] at hn
  obtain ⟨before, entry, after, e, hsplit, henrolled, hlast, huuid⟩ :=
    Store.exists_last_enrolled v.journal hjournal ⟨n, hn, rfl⟩
  exact ⟨⟨before, entry, after, e, hsplit, henrolled, hlast⟩, huuid⟩

/-- The history of a node since it was last enrolled is the digest of what it told: values without repetitions, and of addresses
the runs with their lengths. Older entries stay, and no journal entry changes the history of a UUID it is not about. -/
theorem Session.Reached.histories {settings : Settings} {v : Session} (hv : v.Reached settings) :
    (∀ n ∈ v.store.nodes, ∃ life : v.Life, life.uuid = n.uuid) ∧
    (∀ (life : v.Life) (kind : HistoryKind),
      (kind = .ipAddress → ∀ run ∈ (life.values kind).splitBy (· == ·), run.length < 2 ^ 31) →
      ∃ written, v.store.historyOf life.uuid kind = life.start.historyOf life.uuid kind ++ written ∧
        written.map (fun e => (e.value, e.count)) = kind.digest (life.values kind)) ∧
    ∀ before entry after, v.journal = before ++ entry :: after → ∀ uuid,
      (∀ e, entry.enrolled? (Store.empty.follow before) = some e → e.uuid ≠ uuid) →
      entry.applied? uuid (Store.empty.follow before) = none →
      ∀ kind, (Store.empty.follow (before ++ [entry])).historyOf uuid kind = (Store.empty.follow before).historyOf uuid kind := by
  obtain ⟨-, -, hjournal⟩ := hv.kept
  refine ⟨fun n hn => hv.exists_life hn, ?_, ?_⟩
  · intro life kind hruns
    obtain ⟨written, hwritten, htold⟩ := (life.follows hv).tells kind
    exact ⟨written, hwritten, htold.trans (kind.map_bmod_digest hruns)⟩
  · intro before entry after hsplit uuid henrolled happlied kind
    have hallows : entry.command.Allows entry.call := by
      refine hjournal entry ?_
      rw [hsplit]
      exact List.mem_append_right _ List.mem_cons_self
    rw [Store.follow_append_singleton]
    rcases entry.leaves hallows henrolled happlied with hleaves | hsame
    · exact Call.historyOf_after entry.time hleaves kind
    · rw [hsame]

/-- A node changes its address, is removed and enrolled anew, is seen with the address it enrolled with, and changes it again: the
entries of its first life stay, and two more tell of its second. -/
theorem Session.histories_of_enrolled_anew :
    let attributes := { Attributes.blank with environment := "prod", readings := Observation.address "10.0.0.1" }
    let v := Session.start.performAll (.embedded ["prod"]) [(0, .roster (.enroll "a-1" "key" attributes)),
      (1, .fleet (.updateMetadata "key" (Observation.address "10.0.0.9"))), (2, .roster (.retire "a-1")),
      (3, .fleet (.enroll " A-1" "lock" attributes)), (4, .roster (.observeAddress "a-1" "10.0.0.1")),
      (5, .fleet (.updateAddress "lock" "10.0.0.2"))]
    v.Reached (.embedded ["prod"]) ∧ ∃ life : v.Life, life.uuid = "A-1" ∧
      (life.start.historyOf "A-1" .ipAddress).map (·.value) = ["10.0.0.1", "10.0.0.9"] ∧
      ∃ written, v.store.historyOf "A-1" .ipAddress = life.start.historyOf "A-1" .ipAddress ++ written ∧
        written.map (fun e => (e.value, e.count)) = [("10.0.0.1", 2), ("10.0.0.2", 1)] := by
  intro attributes v
  have hv : v.Reached (.embedded ["prod"]) := .performAll .refl _
  let e : Enrollment := .of " A-1" "lock" attributes
  let life : v.Life :=
    { before := v.journal.take 9
      entry := ⟨3, .fleet (.enroll " A-1" "lock" attributes), .insertNode e e.seeds⟩
      after := v.journal.drop 10
      enrollment := e
      journal_eq := by decide +kernel
      enrolled := by decide +kernel
      last := by decide +kernel }
  have huuid : life.uuid = "A-1" := by decide +kernel
  have hruns : ∀ run ∈ (life.values .ipAddress).splitBy (· == ·), run.length < 2 ^ 31 := by decide +kernel
  obtain ⟨written, hwritten, htold⟩ := hv.histories.2.1 life .ipAddress fun _ => hruns
  have hdigest : HistoryKind.digest .ipAddress (life.values .ipAddress) = [("10.0.0.1", 2), ("10.0.0.2", 1)] := by
    decide +kernel
  rw [huuid] at hwritten
  exact ⟨hv, life, huuid, by decide +kernel, written, hwritten, htold.trans hdigest⟩

end FleetControl
