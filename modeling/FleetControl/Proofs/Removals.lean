import FleetControl.Proofs.Histories
import FleetControl.Proofs.NodeActions

/-!
# No node is lost

A node leaves the store only by a removal, which first takes a snapshot of it. So the archive and the live nodes together account
for every node that was ever enrolled, as long as commands are carried out one after another: the journal of such commands removes
a node only right after the snapshot of it (`Store.Retires`), whether or not the command comes to its end. From this it follows
step by step that the numbers agree, and that the snapshot tells the node as it was when it was removed
(`Session.accounts_of_nodes`).
-/

namespace FleetControl

open Program (run_bind_of_ok run_bind_of_error of_run_bind_eq_ok calls_ask calls_bind_of_ok calls_bind_of_error calls_bind_pure)

/-- The row of the archive shows the node as it stands: its identity and all its attributes, when it was last heard of by kind of
event, and when it enrolled, with what made the snapshot be taken and when that was. -/
structure ArchivedNode.Shows (row : ArchivedNode) (n : Node) (trigger : String) (time : Time) : Prop where
  enrollment : row.toEnrollment = n.toEnrollment
  lastSeen : row.lastSeen = n.lastSeen
  enrolledAt : row.enrolledAt = n.createdAt
  trigger : row.trigger = trigger
  archivedAt : row.archivedAt = time

/-- The command is one that removes nodes. -/
def Command.removes : Command → Bool
  | .fleet (.nodeAction _ .delete _) | .roster (.retire _) => true
  | _ => false

namespace Entry

/-- The row that the entry of a journal put into the archive. -/
def archived? (s : Store) (entry : Entry) : Option ArchivedNode :=
  match entry.call with
  | .insertArchive snapshot => some (s.insertArchive snapshot).1
  | _ => none

/-- The row that the entry of a journal put into the archive for a command that removes nodes. -/
def retired? (s : Store) (entry : Entry) : Option ArchivedNode :=
  if entry.command.removes then entry.archived? s else none

end Entry

/-! ## The archive only grows -/

theorem Entry.archived?_eq_none {entry : Entry} (h : entry.call.part ≠ some .archive) (s : Store) : entry.archived? s = none := by
  unfold archived?
  split
  · rename_i hcall
    rw [hcall] at h
    exact absurd rfl h
  · rfl

theorem Entry.retired?_eq_none {entry : Entry} (hreads : entry.command.removes = true → entry.call.part = none) (s : Store) :
    entry.retired? s = none := by
  unfold retired?
  split
  · rename_i hremoves
    exact archived?_eq_none (by rw [hreads hremoves]; exact nofun) s
  · rfl

/-- After a call the archive is the one before with perhaps the row of a snapshot. -/
theorem Entry.archive_after (s : Store) (entry : Entry) :
    (entry.call.after entry.time s).archive = s.archive ++ (entry.archived? s).toList := by
  by_cases hpart : entry.call.part = some .archive
  · cases hcall : entry.call with
    | insertArchive snapshot =>
      rw [archived?, hcall]
      rfl
    | _ =>
      rw [hcall] at hpart
      cases hpart
  · rw [archived?_eq_none hpart, Call.archive_of_part_ne s entry.time hpart, Option.toList_none, List.append_nil]

/-- The archive holds the rows that a journal put there, in order, after those that were there. -/
theorem Store.archive_follow (s : Store) (journal : List Entry) :
    (s.follow journal).archive = s.archive ++ s.gather Entry.archived? journal := by
  induction journal generalizing s with
  | nil => exact (List.append_nil _).symm
  | cons entry journal ih =>
    rw [gather, ← List.append_assoc, ← entry.archive_after]
    exact ih (entry.call.after entry.time s)

/-- A call takes nothing from the archive. -/
theorem Call.prefix_archive (c : Call) (time : Time) (s : Store) : s.archive <+: (c.after time s).archive := by
  let entry : Entry := ⟨time, .roster .platforms, c⟩
  have harchive : (c.after time s).archive = s.archive ++ (entry.archived? s).toList := entry.archive_after s
  rw [harchive]
  exact List.prefix_append _ _

/-- A run of a program takes nothing from the archive. -/
theorem Program.prefix_archive {α : Type} (p : Program α) (time : Time) (s : Store) : s.archive <+: (p.run time s).2.archive :=
  run_preserves_of_all (P := fun t => s.archive <+: t.archive) (fun c t h => h.trans (c.prefix_archive time t)) p
    (List.prefix_refl _)

/-! ## How a journal removes nodes -/

/-- The journal removes nodes only as they are retired: for a command that removes nodes a snapshot is taken of a node that is there,
and with the next call that node is removed. For such a command it otherwise only reads. -/
inductive Store.Retires : Store → List Entry → Prop where
  | nil (s : Store) : Retires s []
  | other {s : Store} {entry : Entry} {journal : List Entry} (hallows : entry.command.Allows entry.call)
      (hstays : ∀ uuid, entry.call ≠ .deleteNode uuid) (hreads : entry.command.removes = true → entry.call.part = none)
      (hrest : Retires (entry.call.after entry.time s) journal) : Retires s (entry :: journal)
  | retire {s : Store} {n : Node} {time : Time} {command : Command} {journal : List Entry} (hn : n ∈ s.nodes)
      (hremoves : command.removes = true)
      (hrest : Retires (s.follow [⟨time, command, .insertArchive (n.snapshot Roster.deleteTrigger time)⟩,
        ⟨time, command, .deleteNode n.uuid⟩]) journal) :
      Retires s (⟨time, command, .insertArchive (n.snapshot Roster.deleteTrigger time)⟩ ::
        ⟨time, command, .deleteNode n.uuid⟩ :: journal)

namespace Store.Retires

variable {s : Store} {journal : List Entry}

theorem append {more : List Entry} (h : s.Retires journal) (hmore : (s.follow journal).Retires more) :
    s.Retires (journal ++ more) := by
  induction h with
  | nil => exact hmore
  | other hallows hstays hreads _ ih => exact .other hallows hstays hreads (ih hmore)
  | retire hn hremoves _ ih => exact .retire hn hremoves (ih hmore)

theorem of_forall (h : ∀ entry ∈ journal, entry.command.Allows entry.call ∧ (∀ uuid, entry.call ≠ .deleteNode uuid) ∧
    (entry.command.removes = true → entry.call.part = none)) : s.Retires journal := by
  induction journal generalizing s with
  | nil => exact .nil s
  | cons entry journal ih =>
    obtain ⟨⟨hallows, hstays, hreads⟩, hrest⟩ := List.forall_mem_cons.mp h
    exact .other hallows hstays hreads (ih hrest)

end Store.Retires

namespace Program

variable {α β : Type} {command : Command} {time : Time}

/-- The calls of the program, made on any store for a command, remove nodes only as they are retired. -/
def Retires (command : Command) (time : Time) (p : Program α) : Prop :=
  ∀ s : Store, s.Retires ((p.calls time s).map fun c => ⟨time, command, c⟩)

/-- A program that only reads removes nothing. -/
theorem Asks.retires {p : Program α} (hp : p.Asks fun c => c.part = none) : p.Retires command time := by
  intro s
  refine .of_forall ?_
  intro entry hentry
  obtain ⟨c, hc, rfl⟩ := List.mem_map.mp hentry
  have hreads : c.part = none := hp.calls time s c hc
  refine ⟨command.allows_of_reads c hreads, ?_, fun _ => hreads⟩
  rintro uuid rfl
  cases hreads

theorem Retires.bind {p : Program α} {f : α → Program β} (hp : p.Retires command time) (hf : ∀ a, (f a).Retires command time) :
    (p >>= f).Retires command time := by
  intro s
  rw [calls_bind, List.map_append]
  refine (hp s).append ?_
  rw [follow_calls]
  obtain ⟨why | a, s₁⟩ := p.run time s
  · exact .nil s₁
  · exact hf a s₁

theorem Retires.map {p : Program α} (hp : p.Retires command time) (f : α → β) : (f <$> p).Retires command time := by
  intro s
  rw [calls_map]
  exact hp s

theorem Retires.mapM {f : α → Program β} (hf : ∀ a, (f a).Retires command time) (as : List α) :
    (as.mapM f).Retires command time := by
  induction as with
  | nil => exact Asks.retires (asks_pure [])
  | cons a as ih =>
    rw [List.mapM_cons]
    refine (hf a).bind fun b => ih.bind fun bs => Asks.retires (asks_pure (b :: bs))

end Program

namespace Roster

variable {time : Time} {s : Store} {uuid : String}

/-- To look a node up by its UUID is one call. -/
theorem calls_byUuid (uuid : String) (time : Time) (s : Store) :
    (byUuid uuid).calls time s = [.findNode (.uuid (canonicalUuid uuid))] := by
  have hlookup : (Program.ask (.findNode (.uuid (canonicalUuid uuid)))).run time s = _ := Program.run_ask_of_ok rfl
  unfold byUuid
  rw [calls_bind_of_ok hlookup, calls_ask]
  cases s.findNode (.uuid (canonicalUuid uuid)) <;> rfl

/-- To retire a node that is there is to look it up, to take a snapshot of it and to remove it. -/
theorem calls_retire_of_hasNode (time : Time) (h : s.HasNode (canonicalUuid uuid)) :
    ∃ n ∈ s.nodes, (retire uuid).calls time s = [.findNode (.uuid (canonicalUuid uuid)),
      .insertArchive (n.snapshot deleteTrigger time), .deleteNode n.uuid] := by
  obtain ⟨n, hn, huuid, hfound⟩ := run_byUuid_of_hasNode h
  have hnow : Program.now.run time s = (.ok time, s) := rfl
  have hinsert : (Program.ask (.insertArchive (n.snapshot deleteTrigger time))).run time s = _ := Program.run_ask_of_ok rfl
  have harchive : (archive uuid deleteTrigger).run time s = _ :=
    (run_bind_of_ok hfound _).trans ((run_bind_of_ok hnow _).trans hinsert)
  refine ⟨n, hn, ?_⟩
  unfold retire
  rw [calls_bind_of_ok harchive]
  unfold archive
  rw [calls_bind_of_ok hfound, calls_byUuid, calls_bind_of_ok hnow, calls_ask, calls_bind_pure, calls_ask]
  rfl

/-- To retire a node that is not there is to look it up in vain. -/
theorem calls_retire_of_not_hasNode (time : Time) (h : ¬s.HasNode (canonicalUuid uuid)) :
    (retire uuid).calls time s = [.findNode (.uuid (canonicalUuid uuid))] := by
  have hlookup : (byUuid uuid).run time s = _ := run_byUuid_of_not_hasNode h
  have harchive : (archive uuid deleteTrigger).run time s = _ := run_bind_of_error hlookup _
  unfold retire
  rw [calls_bind_of_error harchive]
  unfold archive
  rw [calls_bind_of_error hlookup, calls_byUuid]

end Roster

/-- Whoever is retired, or not found when it is to be, is so in this way. -/
theorem Roster.retires_retire {command : Command} (hremoves : command.removes = true) (time : Time) (uuid : String) :
    (retire uuid).Retires command time := by
  intro s
  have hlookup : ∀ journal, s.Retires journal →
      s.Retires (⟨time, command, .findNode (.uuid (canonicalUuid uuid))⟩ :: journal) := by
    intro journal hjournal
    exact .other (command.allows_of_reads _ rfl) (fun _ hcall => by cases hcall) (fun _ => rfl) hjournal
  by_cases h : s.HasNode (canonicalUuid uuid)
  · obtain ⟨n, hn, hcalls⟩ := calls_retire_of_hasNode time h
    rw [hcalls]
    exact hlookup _ (.retire hn hremoves (.nil _))
  · rw [calls_retire_of_not_hasNode time h]
    exact hlookup _ (.nil s)

/-- The removal of several nodes removes them as they are retired, also where it breaks off. -/
theorem Fleet.retires_nodeAction {command : Command} (hremoves : command.removes = true) (time : Time) (actor : String)
    (uuids : List String) : (nodeAction actor .delete uuids).Retires command time := by
  have hreads : ∀ c : Call, c.part = none → c.part = none := fun _ => id
  have hrequire : (Accounts.require actor .admin none).Retires command time :=
    Program.Asks.retires (Accounts.asks_require hreads actor .admin none)
  have hlookups : (uuids.forM fun uuid => discard (Roster.byUuid uuid)).Retires command time :=
    Program.Asks.retires (Program.asks_forM fun uuid _ => (Roster.asks_byUuid hreads uuid).map _)
  exact hrequire.bind fun _ => hlookups.bind fun _ => Program.Retires.mapM (Roster.retires_retire hremoves time) uuids

/-- Only a command that removes nodes asks for a node to be removed. -/
theorem Command.of_makes_deleteNode {settings : Settings} {command : Command} {uuid : String}
    (h : command.Makes settings (.deleteNode uuid)) : command.removes = true := by
  cases command with
  | fleet op =>
    rcases h with hreads | hwrites
    · cases hreads
    · cases op with
      | nodeAction actor action uuids =>
        rcases hwrites with ⟨_, _, hcall⟩ | ⟨rfl, -⟩
        · cases hcall
        · rfl
      | _ => simp [Operation.Writes] at hwrites
  | roster op =>
    rcases h with hreads | hwrites
    · cases hreads
    · cases op with
      | retire uuid => rfl
      | _ => simp [RosterOperation.Writes] at hwrites

/-- Every command removes nodes as they are retired, if it removes any. -/
theorem Command.retires (settings : Settings) (command : Command) (time : Time) :
    (command.program settings).Retires command time := by
  cases hremoves : command.removes with
  | true =>
    cases command with
    | fleet op =>
      cases op with
      | nodeAction actor action uuids =>
        cases action with
        | delete => exact ((Fleet.retires_nodeAction hremoves time actor uuids).map _).map _
        | archive trigger => cases hremoves
      | _ => cases hremoves
    | roster op =>
      cases op with
      | retire uuid => exact (Roster.retires_retire hremoves time uuid).map _
      | _ => cases hremoves
  | false =>
    intro s
    refine .of_forall ?_
    intro entry hentry
    obtain ⟨c, hc, rfl⟩ := List.mem_map.mp hentry
    have hmakes : command.Makes settings c := (command.asks_makes settings).calls time s c hc
    refine ⟨allows_of_makes hmakes, ?_, ?_⟩
    · rintro uuid rfl
      rw [of_makes_deleteNode hmakes] at hremoves
      cases hremoves
    · intro hremoves'
      rw [hremoves] at hremoves'
      cases hremoves'

/-- The journal of commands carried out one after another removes nodes as they are retired. -/
theorem Session.retires_performAll {settings : Settings} {v : Session} (hv : v.store = Store.empty.follow v.journal)
    (h : Store.empty.Retires v.journal) (commands : List (Time × Command)) :
    Store.empty.Retires (v.performAll settings commands).journal := by
  induction commands generalizing v with
  | nil => exact h
  | cons entry commands ih =>
    refine ih ?_ ?_
    · rw [perform, Store.follow_append, ← hv, Program.follow_calls]
    · refine h.append ?_
      rw [← hv]
      exact entry.2.retires settings entry.1 v.store

/-! ## The balance of a journal -/

/-- By the journal every UUID has been enrolled as often as its node was retired, if the node that was there before is counted with
those enrolled and the one that is there afterwards with those retired. -/
def Store.Balances (s : Store) (journal : List Entry) : Prop :=
  ∀ uuid, (s.gather Entry.enrolled? journal).countP (·.uuid = uuid) + (if s.HasNode uuid then 1 else 0) =
    (s.gather Entry.retired? journal).countP (·.uuid = uuid) + if (s.follow journal).HasNode uuid then 1 else 0

/-- A call that removes no node leaves the UUIDs that are there, but for that of a node that it inserts. -/
theorem Call.hasNode_after_iff {c : Call} (h : ∀ uuid, c ≠ .deleteNode uuid) (time : Time) (s : Store) (uuid : String) :
    (c.after time s).HasNode uuid ↔
      s.HasNode uuid ∨ ∃ e seeds, c = .insertNode e seeds ∧ (c.exec time s).isOk = true ∧ e.uuid = uuid := by
  constructor
  · exact hasNode_of_after
  · rintro (hthere | ⟨e, seeds, rfl, hok, rfl⟩)
    · rcases nodes_cases s time c with hsame | ⟨e, seeds, rfl, -, hnodes⟩ | ⟨u, rfl, -⟩
      · exact hthere.of_sameNodes hsame
      · obtain ⟨n, hn, huuid⟩ := hthere
        exact ⟨n, hnodes ▸ List.mem_append_left _ hn, huuid⟩
      · exact absurd rfl (h u)
    · refine ⟨s.newNode time e, ?_, rfl⟩
      rw [nodes_after_insertNode_of_free time (free_of_insertNode_ok time hok)]
      exact List.mem_append_right _ List.mem_cons_self

/-- A node that is removed is gone, and the others stay. -/
theorem Call.hasNode_after_deleteNode_iff (gone : String) (time : Time) (s : Store) (uuid : String) :
    ((Call.deleteNode gone).after time s).HasNode uuid ↔ s.HasNode uuid ∧ uuid ≠ gone := by
  rw [after_deleteNode]
  exact Store.hasNode_iff_of_filter rfl uuid

namespace Store

variable {s : Store} {journal : List Entry}

/-- Where one journal balances and then another, both together do. -/
theorem Balances.append {more : List Entry} (h : s.Balances journal) (hmore : (s.follow journal).Balances more) :
    s.Balances (journal ++ more) := by
  intro uuid
  have hfirst := h uuid
  have hsecond := hmore uuid
  rw [gather_append, gather_append, List.countP_append, List.countP_append, follow_append]
  omega

/-- A call that removes no node balances: it inserts the node of a UUID that had none, or leaves the UUIDs as they are. -/
theorem balances_singleton {entry : Entry} (hallows : entry.command.Allows entry.call)
    (hstays : ∀ uuid, entry.call ≠ .deleteNode uuid) (hreads : entry.command.removes = true → entry.call.part = none) :
    s.Balances [entry] := by
  intro uuid
  have hafter := Call.hasNode_after_iff hstays entry.time s uuid
  rw [gather, gather, gather, gather, List.append_nil, List.append_nil, Entry.retired?_eq_none hreads]
  change _ = _ + if (entry.call.after entry.time s).HasNode uuid then 1 else 0
  cases henrolled : entry.enrolled? s with
  | some e =>
    obtain ⟨-, hcall, hok⟩ := Entry.enrolled?_eq_some_iff.mp henrolled
    have hinserts : (∃ e' seeds, entry.call = .insertNode e' seeds ∧ (entry.call.exec entry.time s).isOk = true ∧
        e'.uuid = uuid) ↔ e.uuid = uuid := by
      constructor
      · rintro ⟨e', seeds, hcall', -, rfl⟩
        rw [hcall] at hcall'
        cases hcall'
        rfl
      · intro huuid
        exact ⟨e, e.seeds, hcall, hok, huuid⟩
    have hnew : ¬s.HasNode e.uuid := by
      rw [hcall] at hok
      intro hthere
      exact (Sound.fresh (Call.free_of_insertNode_ok entry.time hok)).2 (List.mem_map.mpr hthere)
    rw [hinserts] at hafter
    by_cases huuid : e.uuid = uuid
    · rw [huuid] at hnew
      simp [hafter, huuid, hnew]
    · simp [hafter, huuid]
  | none =>
    have hinserts : ¬∃ e seeds, entry.call = .insertNode e seeds ∧ (entry.call.exec entry.time s).isOk = true ∧
        e.uuid = uuid := by
      rintro ⟨e, seeds, hcall, hok, -⟩
      rw [hcall] at hallows
      obtain ⟨hcommand, rfl⟩ := hallows
      rw [Entry.enrolled?_eq_some_iff.mpr ⟨hcommand, hcall, hok⟩] at henrolled
      cases henrolled
    rw [or_iff_left hinserts] at hafter
    simp [hafter]

/-- To retire a node balances: the row of the archive counts for the node that was there. -/
theorem balances_retire {n : Node} (hn : n ∈ s.nodes) {command : Command} (hremoves : command.removes = true) (time : Time) :
    s.Balances [⟨time, command, .insertArchive (n.snapshot Roster.deleteTrigger time)⟩,
      ⟨time, command, .deleteNode n.uuid⟩] := by
  intro uuid
  have hthere : s.HasNode n.uuid := ⟨n, hn, rfl⟩
  let archived := (s.insertArchive (n.snapshot Roster.deleteTrigger time)).2
  have hafter : ((Call.deleteNode n.uuid).after time archived).HasNode uuid ↔ s.HasNode uuid ∧ uuid ≠ n.uuid :=
    Call.hasNode_after_deleteNode_iff n.uuid time archived uuid
  have henrolled : s.gather Entry.enrolled? [⟨time, command, .insertArchive (n.snapshot Roster.deleteTrigger time)⟩,
      ⟨time, command, .deleteNode n.uuid⟩] = [] := by
    simp [gather, Entry.enrolled?]
  have hretired : s.gather Entry.retired? [⟨time, command, .insertArchive (n.snapshot Roster.deleteTrigger time)⟩,
      ⟨time, command, .deleteNode n.uuid⟩] = [(s.insertArchive (n.snapshot Roster.deleteTrigger time)).1] := by
    simp [gather, Entry.retired?, Entry.archived?, hremoves]
  rw [henrolled, hretired]
  change _ = _ + if ((Call.deleteNode n.uuid).after time archived).HasNode uuid then 1 else 0
  obtain rfl | huuid := eq_or_ne n.uuid uuid
  · simp [hafter, hthere, insertArchive, Node.snapshot]
  · simp [hafter, huuid, huuid.symm, insertArchive, Node.snapshot]

/-- A journal that removes nodes only as they are retired balances. -/
theorem Retires.balances (h : s.Retires journal) : s.Balances journal := by
  induction h with
  | nil => exact fun _ => rfl
  | other hallows hstays hreads _ ih => exact (balances_singleton hallows hstays hreads).append ih
  | retire hn hremoves _ ih => exact (balances_retire hn hremoves _).append ih

/-- Where nodes are removed only as they are retired, what is archived for a removal shows a node that is there, and the next call
of the same command removes that node. -/
theorem Retires.of_retired (h : s.Retires journal) {before after : List Entry} {entry : Entry} {row : ArchivedNode}
    (hsplit : journal = before ++ entry :: after) (hrow : entry.retired? (s.follow before) = some row) :
    ∃ n ∈ (s.follow before).nodes, row.Shows n Roster.deleteTrigger entry.time ∧
      ∃ rest, after = ⟨entry.time, entry.command, .deleteNode n.uuid⟩ :: rest := by
  induction h generalizing before with
  | nil => cases before <;> cases hsplit
  | other hallows hstays hreads _ ih =>
    rcases before with _ | ⟨first, before⟩
    · cases hsplit
      rw [Entry.retired?_eq_none hreads] at hrow
      cases hrow
    · cases hsplit
      exact ih rfl hrow
  | @retire s n time command journal hn hremoves _ ih =>
    rcases before with _ | ⟨first, _ | ⟨second, before⟩⟩
    · cases hsplit
      simp only [Entry.retired?, Entry.archived?, hremoves, if_true, Option.some.injEq] at hrow
      subst hrow
      exact ⟨n, hn, ⟨rfl, rfl, rfl, rfl, rfl⟩, journal, rfl⟩
    · cases hsplit
      simp [Entry.retired?, Entry.archived?] at hrow
    · cases hsplit
      exact ih rfl hrow

/-- Where nodes are removed only as they are retired, the call before the one that removes a node is of the same command and archives
a row that shows the node. -/
theorem Retires.of_removed (h : s.Retires journal) {before after : List Entry} {entry : Entry} {uuid : String}
    (hsplit : journal = before ++ entry :: after) (hthere : (s.follow before).HasNode uuid)
    (hgone : ¬(s.follow (before ++ [entry])).HasNode uuid) :
    ∃ earlier snap row, before = earlier ++ [snap] ∧ snap.time = entry.time ∧ snap.command = entry.command ∧
      snap.retired? (s.follow earlier) = some row ∧
      ∃ n ∈ (s.follow before).nodes, n.uuid = uuid ∧ row.Shows n Roster.deleteTrigger entry.time := by
  induction h generalizing before with
  | nil => cases before <;> cases hsplit
  | @other s first journal hallows hstays hreads _ ih =>
    rcases before with _ | ⟨_, before⟩
    · cases hsplit
      exact absurd ((Call.hasNode_after_iff hstays entry.time s uuid).mpr (.inl hthere)) hgone
    · cases hsplit
      obtain ⟨earlier, snap, row, rfl, hsnap⟩ := ih rfl hthere hgone
      exact ⟨first :: earlier, snap, row, rfl, hsnap⟩
  | @retire s n time command journal hn hremoves _ ih =>
    rcases before with _ | ⟨first, _ | ⟨second, before⟩⟩
    · cases hsplit
      exact absurd hthere hgone
    · cases hsplit
      have huuid : n.uuid = uuid := by
        by_contra hne
        exact hgone ((Call.hasNode_after_deleteNode_iff n.uuid time _ uuid).mpr ⟨hthere, Ne.symm hne⟩)
      refine ⟨[], _, (s.insertArchive (n.snapshot Roster.deleteTrigger time)).1, rfl, rfl, rfl, ?_, n, hn, huuid,
        ⟨rfl, rfl, rfl, rfl, rfl⟩⟩
      simp [Entry.retired?, Entry.archived?, hremoves, follow, replay]
    · cases hsplit
      obtain ⟨earlier, snap, row, rfl, hsnap⟩ := ih rfl hthere hgone
      exact ⟨_ :: _ :: earlier, snap, row, rfl, hsnap⟩

end Store

/-! ## What an action on several nodes leaves -/

namespace Fleet

variable {time : Time} {s s' : Store} {uuids : List String}

/-- Nodes that are archived one after another stay as they are, and for each of them, in order, a row that shows it is put into the
archive. -/
theorem of_run_archiveAll {trigger : String} {rows : List ArchivedNode}
    (h : (uuids.mapM (actOn (.archive trigger))).run time s = (.ok rows, s')) :
    s' = { s with lastId := s.lastId + uuids.length, archive := s.archive ++ rows } ∧
      List.Forall₂ (fun uuid row => ∃ n ∈ s.nodes, n.uuid = canonicalUuid uuid ∧ row.Shows n trigger time) uuids rows := by
  induction uuids generalizing s rows with
  | nil =>
    cases h
    exact ⟨by simp, .nil⟩
  | cons uuid uuids ih =>
    rw [List.mapM_cons] at h
    obtain ⟨row, s₁, hrun, hrest⟩ := of_run_bind_eq_ok h
    obtain ⟨others, s₂, hruns, hpure⟩ := of_run_bind_eq_ok hrest
    cases hpure
    by_cases hthere : s.HasNode (canonicalUuid uuid)
    · obtain ⟨n, hn, huuid, harchive⟩ := Roster.run_archive_of_hasNode time hthere trigger
      obtain ⟨hrow, hs₁⟩ := Prod.mk.inj (harchive.symm.trans hrun)
      cases hrow
      subst hs₁
      obtain ⟨rfl, hshown⟩ := ih hruns
      refine ⟨?_, .cons ⟨n, hn, huuid, rfl, rfl, rfl, rfl, rfl⟩ hshown⟩
      simp only [Store.insertArchive, Store.nextId, List.append_assoc, List.singleton_append, List.length_cons]
      congr 1
      omega
    · rw [run_actOn_of_not_hasNode time _ hthere] at hrun
      cases hrun

/-- An action on several nodes that has a result acted on one after another. -/
theorem of_run_nodeAction_eq_ok {actor : String} {action : NodeAction} {rows : List ArchivedNode}
    (h : (nodeAction actor action uuids).run time s = (.ok rows, s')) :
    (uuids.mapM (actOn action)).run time s = (.ok rows, s') := by
  by_cases hstarts : s.Permits actor .admin none ∧ ∀ uuid ∈ uuids, s.HasNode (canonicalUuid uuid)
  · rw [← run_nodeAction_of_hasNode hstarts.1 hstarts.2]
    exact h
  · obtain ⟨why, hrefused⟩ := run_nodeAction_of_not time action hstarts
    rw [hrefused] at h
    cases h

end Fleet

/-- An action on several nodes, whether or not it comes to its end, leaves all but the nodes, the archive and the number given
last. -/
theorem Operation.run_nodeAction (settings : Settings) (actor : String) (action : NodeAction) (uuids : List String) (time : Time)
    (s : Store) :
    ∃ lastId nodes archive, ((nodeAction actor action uuids).run settings time s).2 =
      { s with lastId := lastId, nodes := nodes, archive := archive } := by
  refine Program.run_preserves
    (P := fun t : Store => ∃ lastId nodes archive, t = { s with lastId := lastId, nodes := nodes, archive := archive }) ?_
    ((nodeAction actor action uuids).asks_makes settings) ⟨s.lastId, s.nodes, s.archive, rfl⟩
  rintro c hmakes _ ⟨lastId, nodes, archive, rfl⟩
  rcases hmakes with hreads | ⟨n, trigger, rfl⟩ | ⟨-, uuid, rfl⟩
  · rw [Call.after_of_reads _ time hreads]
    exact ⟨lastId, nodes, archive, rfl⟩
  · exact ⟨_, _, _, rfl⟩
  · rw [Call.after_deleteNode]
    exact ⟨_, _, _, rfl⟩

/-! ## Every node is accounted for -/

/-- Of every UUID as many nodes were enrolled as were archived for removals, and one more if one is there. Rows of the archive show
the nodes as they stood, and none is ever taken away or changed, whatever commands are carried out and however they end. -/
theorem Session.accounts_of_nodes (settings : Settings) :
    (∀ commands : List (Time × Command), let v := start.performAll settings commands
      (∀ uuid, (Store.empty.gather Entry.enrolled? v.journal).countP (·.uuid = uuid) =
        (Store.empty.gather Entry.retired? v.journal).countP (·.uuid = uuid) + if v.store.HasNode uuid then 1 else 0) ∧
      v.store.archive = Store.empty.gather Entry.archived? v.journal ∧
      (∀ before entry after, v.journal = before ++ entry :: after → ∀ n ∈ (Store.empty.follow before).nodes,
        ¬(Store.empty.follow (before ++ [entry])).HasNode n.uuid →
        ∃ earlier snap row, before = earlier ++ [snap] ∧ snap.command = entry.command ∧
          snap.retired? (Store.empty.follow earlier) = some row ∧ row.Shows n "delete" entry.time) ∧
      ∀ before entry after row, v.journal = before ++ entry :: after → entry.retired? (Store.empty.follow before) = some row →
        ∃ n ∈ (Store.empty.follow before).nodes, row.Shows n "delete" entry.time ∧
          ∃ rest, after = ⟨entry.time, entry.command, .deleteNode n.uuid⟩ :: rest) ∧
    (∀ actor trigger uuids time s answer s',
      (Operation.nodeAction actor (.archive trigger) uuids).run settings time s = (.ok answer, s') →
      ∃ rows, answer = .archived rows ∧ s' = { s with lastId := s.lastId + uuids.length, archive := s.archive ++ rows } ∧
        List.Forall₂ (fun uuid row => ∃ n ∈ s.nodes, n.uuid = canonicalUuid uuid ∧ row.Shows n trigger time) uuids rows) ∧
    (∀ (command : Command) (time : Time) (s : Store),
      s.archive <+: ((command.program settings).run time s).2.archive) ∧
    ∀ actor action uuids time s, let s' := ((Operation.nodeAction actor action uuids).run settings time s).2
      s'.history = s.history ∧ s'.executions = s.executions ∧ s'.queries = s.queries ∧ s'.targets = s.targets ∧
        s'.users = s.users := by
  refine ⟨?_, ?_, fun command time s => (command.program settings).prefix_archive time s, ?_⟩
  · intro commands v
    have hreached : v.Reached settings := .performAll .refl commands
    have hstore : v.store = Store.empty.follow v.journal := hreached.kept.store
    have hretires : Store.empty.Retires v.journal := retires_performAll rfl (.nil _) commands
    refine ⟨?_, ?_, ?_, ?_⟩
    · intro uuid
      have hbalance := hretires.balances uuid
      have hnone : ¬Store.empty.HasNode uuid := by
        rintro ⟨n, hn, -⟩
        cases hn
      rw [if_neg hnone, Nat.add_zero, ← hstore] at hbalance
      exact hbalance
    · rw [hstore, Store.archive_follow]
      exact List.nil_append _
    · intro before entry after hsplit n hn hgone
      obtain ⟨earlier, snap, row, hbefore, -, hcommand, hrow, m, hm, huuid, hshows⟩ :=
        hretires.of_removed hsplit ⟨n, hn, rfl⟩ hgone
      obtain rfl : m = n := List.inj_on_of_nodup_map (Store.nodup_uuids_follow before) hm hn huuid
      exact ⟨earlier, snap, row, hbefore, hcommand, hrow, hshows⟩
    · intro before entry after row hsplit hrow
      exact hretires.of_retired hsplit hrow
  · intro actor trigger uuids time s answer s' hrun
    obtain ⟨rows, hrows, rfl⟩ := Program.of_run_map_eq_ok hrun
    obtain ⟨hstore, hshown⟩ := Fleet.of_run_archiveAll (Fleet.of_run_nodeAction_eq_ok hrows)
    exact ⟨rows, rfl, hstore, hshown⟩
  · intro actor action uuids time s s'
    obtain ⟨_, _, _, hs'⟩ := Operation.run_nodeAction settings actor action uuids time s
    rw [show s' = _ from hs']
    exact ⟨rfl, rfl, rfl, rfl, rfl⟩

/-- A removal breaks off at a node that it names twice, the node is enrolled anew, and it is archived for a trigger of the same
name: of its two enrolments one was removed. -/
theorem Session.accounts_of_nodes_removed_half_way :
    let settings : Settings := .embedded ["prod"]
    let attributes := { Attributes.blank with environment := "prod" }
    let commands : List (Time × Command) := [(0, .fleet (.ensureAdmin "root")), (1, .fleet (.enroll "a-1" "key" attributes)),
      (2, .fleet (.enroll "b-2" "lock" attributes)), (3, .fleet (.nodeAction "root" .delete ["a-1", " A-1", "b-2"])),
      (4, .fleet (.enroll "a-1" "door" attributes))]
    let v := start.performAll settings commands
    let outcome := (Operation.nodeAction "root" (.archive "delete") ["b-2", "a-1"]).run settings 5 v.store
    v.store.HasNode "A-1" ∧ (Store.empty.gather Entry.retired? v.journal).countP (·.uuid = "A-1") = 1 ∧
      outcome.2.nodes = v.store.nodes ∧ (outcome.2.archive.map fun row => (row.uuid, row.trigger)) =
        [("A-1", "delete"), ("B-2", "delete"), ("A-1", "delete")] := by
  intro settings attributes commands v outcome
  obtain ⟨hruns, harchives, -, -⟩ := accounts_of_nodes settings
  have hthere : v.store.HasNode "A-1" := by decide +kernel
  have hretired : (Store.empty.gather Entry.retired? v.journal).countP (·.uuid = "A-1") = 1 := by
    have henrolled : (Store.empty.gather Entry.enrolled? v.journal).countP (·.uuid = "A-1") = 2 := by decide +kernel
    have hbalance : (Store.empty.gather Entry.enrolled? v.journal).countP (·.uuid = "A-1") =
        (Store.empty.gather Entry.retired? v.journal).countP (·.uuid = "A-1") + if v.store.HasNode "A-1" then 1 else 0 :=
      (hruns commands).1 "A-1"
    rw [henrolled, if_pos hthere] at hbalance
    omega
  have hanswered : outcome.1.isOk = true := by decide +kernel
  have hleaves : outcome.2.nodes = v.store.nodes := by
    clear_value v
    rcases houtcome : outcome with ⟨why | answer, s'⟩
    · rw [houtcome] at hanswered
      cases hanswered
    · obtain ⟨rows, -, rfl, -⟩ := harchives "root" "delete" ["b-2", "a-1"] 5 v.store answer s' houtcome
      rfl
  exact ⟨hthere, hretired, hleaves, by decide +kernel⟩

end FleetControl
