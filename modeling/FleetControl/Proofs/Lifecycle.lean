import FleetControl.Proofs.Numbering

/-!
# The lifecycle of a query

A query is launched active and is activated, completed and deleted from then on. Its three flags are no more than what these actions
leave (`Query.Draft.Bears`): it is deleted once it was deleted, and the last of the other actions tells whether it is active or
completed. So the listings share the queries out among them, and whatever was deleted is never listed as active or handed to a node
again (`Query.lifecycle`).
-/

namespace FleetControl

open Program (of_run_bind_eq_ok of_run_map_eq_ok)

/-! ## Flags and actions -/

/-- The last of the actions that activate or complete. -/
def QueryAction.lastSwitch (actions : List QueryAction) : Option QueryAction := (actions.filter (· ≠ .delete)).getLast?

namespace Query.Draft

/-- The flags of a query. -/
def flags (q : Query.Draft) : Bool × Bool × Bool := (q.active, q.completed, q.deleted)

/-- The flags of the query are those that the actions, one after another, leave a query that was launched. -/
structure Bears (q : Query.Draft) (actions : List QueryAction) : Prop where
  active : q.active = true ↔ actions.getLast? = none ∨ actions.getLast? = some .activate
  completed : q.completed = true ↔ QueryAction.lastSwitch actions = some .complete
  deleted : q.deleted = true ↔ .delete ∈ actions

variable {q q' : Query.Draft} {actions : List QueryAction}

theorem Bears.congr (h : q.Bears actions) (hflags : q'.flags = q.flags) : q'.Bears actions := by
  simp only [flags, Prod.mk.injEq] at hflags
  obtain ⟨hactive, hcompleted, hdeleted⟩ := hflags
  exact ⟨hactive ▸ h.active, hcompleted ▸ h.completed, hdeleted ▸ h.deleted⟩

/-- A query that is launched was not acted on. -/
theorem bears_nil (hactive : q.active = true) (hcompleted : q.completed = false) (hdeleted : q.deleted = false) : q.Bears [] := by
  constructor <;> simp [*, QueryAction.lastSwitch]

/-- To do the same again changes nothing. -/
theorem Bears.once {action : QueryAction} (h : q.Bears (actions ++ [action] ++ [action])) : q.Bears (actions ++ [action]) := by
  obtain ⟨hactive, hcompleted, hdeleted⟩ := h
  constructor
  · simpa using hactive
  · cases action <;> simpa [QueryAction.lastSwitch, List.filter_append] using hcompleted
  · simpa using hdeleted

/-- A query that was not deleted is active or completed as the last of the actions tells. -/
theorem Bears.state_iff (h : q.Bears actions) (hdeleted : q.deleted = false) :
    (q.state = .active ↔ QueryAction.lastSwitch actions = none ∨ QueryAction.lastSwitch actions = some .activate) ∧
      (q.state = .completed ↔ QueryAction.lastSwitch actions = some .complete) := by
  have hnone : QueryAction.delete ∉ actions := by
    intro hmem
    rw [h.deleted.mpr hmem] at hdeleted
    cases hdeleted
  have hall : actions.filter (· ≠ .delete) = actions := by
    rw [List.filter_eq_self]
    intro action haction
    simpa using ne_of_mem_of_not_mem haction hnone
  have hactive := h.active
  have hcompleted := h.completed
  simp only [QueryAction.lastSwitch, hall] at hcompleted ⊢
  cases hlast : actions.getLast? with
  | none => simp_all [state]
  | some action =>
    have hne : action ≠ .delete := ne_of_mem_of_not_mem (List.mem_of_getLast? hlast) hnone
    cases action with
    | delete => exact absurd rfl hne
    | activate => simp_all [state]
    | complete => simp_all [state]

/-- The listings of active and of completed queries show the queries that are in this state. -/
theorem admits_iff_state (q : Query.Draft) :
    (Listing.active.admits q = true ↔ q.state = .active) ∧ (Listing.completed.admits q = true ↔ q.state = .completed) := by
  unfold Listing.admits state
  cases q.active <;> cases q.completed <;> cases q.deleted <;> simp

/-- A query is not both active and completed. -/
theorem Bears.not_active_and_completed (h : q.Bears actions) : ¬(q.active = true ∧ q.completed = true) := by
  rintro ⟨hactive, hcompleted⟩
  have hlast := h.completed.mp hcompleted
  rcases h.active.mp hactive with hnone | hactivate
  · rw [List.getLast?_eq_none_iff.mp hnone] at hlast
    cases hlast
  · obtain ⟨rest, rfl⟩ := List.getLast?_eq_some_iff.mp hactivate
    simp [QueryAction.lastSwitch, List.filter_append] at hlast

/-- A query that was not deleted is shown by one of the listings of active and of completed queries. -/
theorem Bears.admits_completed (h : q.Bears actions) (hdeleted : q.deleted = false) :
    Listing.completed.admits q = !Listing.active.admits q := by
  obtain ⟨hactive, hcompleted⟩ := h.state_iff hdeleted
  rw [Bool.eq_iff_iff, Bool.not_eq_true', Bool.eq_false_iff, ne_eq, q.admits_iff_state.1, q.admits_iff_state.2, hactive, hcompleted]
  have hdelete : QueryAction.lastSwitch actions ≠ some .delete := by
    intro hlast
    simpa using List.mem_of_getLast? hlast
  cases hlast : QueryAction.lastSwitch actions with
  | none => simp
  | some action => cases action <;> simp_all

end Query.Draft

/-- An action is one more that the flags are left by. -/
theorem Query.bears_withFlags {q : Query} {actions : List QueryAction} (h : q.Bears actions) (action : QueryAction) :
    (q.withFlags action.flags).Bears (actions ++ [action]) := by
  obtain ⟨hactive, hcompleted, hdeleted⟩ := h
  cases action <;> constructor <;>
    simp [withFlags, QueryAction.flags, QueryAction.lastSwitch, List.filter_append, hcompleted, hdeleted]

namespace Store

variable {s : Store} {name : String} {actions : List QueryAction}

/-- A query of the name is stored, with flags that the actions leave. -/
def Bears (s : Store) (name : String) (actions : List QueryAction) : Prop :=
  name ∈ s.queryNames ∧ ∀ q ∈ s.queries, q.name = name → q.Bears actions

/-- The query of the name is stored; it is deleted if it was deleted, and is otherwise active or completed as the last of the other
actions tells; and the listings show it accordingly. -/
def StandsAfter (s : Store) (name : String) (actions : List QueryAction) : Prop :=
  ∃ q, s.getQuery name = some q ∧ (q.deleted = true ↔ .delete ∈ actions) ∧
    (q.deleted = false →
      (q.state = .active ↔ QueryAction.lastSwitch actions = none ∨ QueryAction.lastSwitch actions = some .activate) ∧
        (q.state = .completed ↔ QueryAction.lastSwitch actions = some .complete)) ∧
    (q ∈ s.listQueries .active ↔ q.state = .active) ∧ (q ∈ s.listQueries .completed ↔ q.state = .completed)

theorem Bears.standsAfter (h : s.Bears name actions) : s.StandsAfter name actions := by
  obtain ⟨hstored, hbears⟩ := h
  obtain ⟨q, hfound⟩ := s.exists_getQuery hstored
  obtain ⟨hq, hname⟩ := s.of_getQuery_eq_some hfound
  have hq' := hbears q hq hname
  have hlisted : ∀ listing, q ∈ s.listQueries listing ↔ listing.admits q.toDraft = true := by
    intro listing
    rw [listQueries, List.mem_filter, and_iff_right hq]
  refine ⟨q, hfound, hq'.deleted, hq'.state_iff, ?_, ?_⟩
  · rw [hlisted, q.admits_iff_state.1]
  · rw [hlisted, q.admits_iff_state.2]

end Store

/-! ## What calls do to flags -/

/-- A call leaves the flags of a query, unless it sets them. -/
theorem Call.Remakes.flags_eq {c : Call} {now : Time} {q q' : Query} (h : c.Remakes now q q')
    (hc : ∀ flags, c ≠ .setFlags q.name flags) : q'.flags = q.flags := by
  cases h with
  | flags _ flags => exact absurd rfl (hc flags)
  | leaves => rfl
  | expects => rfl
  | counts _ counter => cases counter <;> rfl
  | tallies =>
    unfold Query.tallied
    split <;> rfl

namespace Store

variable {s : Store} {name : String} {actions : List QueryAction}

/-- A call leaves the flags of the queries that they are not set of. -/
theorem Bears.after (h : s.Bears name actions) {c : Call} (hc : ∀ flags, c ≠ .setFlags name flags) (now : Time) :
    (c.after now s).Bears name actions := by
  obtain ⟨hstored, hbears⟩ := h
  refine ⟨c.stored_after hstored, ?_⟩
  intro q' hq' hname
  rcases Call.queries_cases s now c with ⟨remake, hremake, hqueries⟩ | ⟨draft, -, hfree, hqueries, -⟩
  · rw [hqueries] at hq'
    obtain ⟨q, hq, rfl⟩ := List.mem_map.mp hq'
    rw [(hremake q).same.name] at hname
    exact (hbears q hq hname).congr ((hremake q).flags_eq (hname ▸ hc))
  · rw [hqueries] at hq'
    rcases List.mem_append.mp hq' with hq' | hq'
    · exact hbears q' hq' hname
    · -- the name of a new query was free, and this one is stored
      rw [List.mem_singleton.mp hq'] at hname
      obtain ⟨q, hq, heq⟩ := s.mem_queryNames.mp hstored
      exact absurd (heq.trans hname.symm) (hfree q hq)

/-- Setting the flags of a query as an action does is one more action on it. -/
theorem Bears.after_setFlags (h : s.Bears name actions) (action : QueryAction) (now : Time) :
    ((Call.setFlags name action.flags).after now s).Bears name (actions ++ [action]) := by
  obtain ⟨hstored, hbears⟩ := h
  refine ⟨Call.stored_after _ hstored, ?_⟩
  intro q' hq' hname
  rw [Call.after_setFlags] at hq'
  obtain ⟨q, hq, rfl⟩ := List.mem_map.mp hq'
  by_cases heq : q.name = name
  · rw [if_pos heq]
    exact q.bears_withFlags (hbears q hq heq) action
  · rw [if_neg heq] at hname
    exact absurd hname heq

/-- To do the same again changes nothing. -/
theorem Bears.once {action : QueryAction} (h : s.Bears name (actions ++ [action] ++ [action])) :
    s.Bears name (actions ++ [action]) :=
  ⟨h.1, fun q hq hname => (h.2 q hq hname).once⟩

/-- A query that was just launched was not acted on. -/
theorem bears_after_launch {draft : Query.Draft} (hfree : draft.name ∉ s.queryNames)
    (hready : draft.active = true ∧ draft.completed = false ∧ draft.deleted = false) (targets : List Target) (now : Time) :
    ((Call.insertQueryWithTargets draft targets).after now s).Bears draft.name [] := by
  rw [Call.after_insertQueryWithTargets_of_fresh s now hfree]
  refine ⟨?_, ?_⟩
  · exact (mem_queryNames _).mpr ⟨s.newQuery now draft, List.mem_append_right _ List.mem_cons_self, rfl⟩
  · intro q hq hname
    rcases List.mem_append.mp hq with hq | hq
    · exact absurd (s.mem_queryNames.mpr ⟨q, hq, hname⟩) hfree
    · rw [List.mem_singleton.mp hq]
      obtain ⟨hactive, hcompleted, hdeleted⟩ := hready
      exact Query.Draft.bears_nil hactive hcompleted hdeleted

/-- Operations act on queries or leave their flags. -/
theorem Bears.after_proper {settings : Settings} (h : s.Bears name actions) {c : Call} (hc : c.Proper settings) (now : Time) :
    ∃ more, (c.after now s).Bears name (actions ++ more) := by
  by_cases hset : ∃ flags, c = .setFlags name flags
  · obtain ⟨flags, rfl⟩ := hset
    cases hc with
    | reads hreads => cases hreads
    | setFlags _ action => exact ⟨[action], h.after_setFlags action now⟩
  · refine ⟨[], ?_⟩
    rw [List.append_nil]
    exact h.after (fun flags heq => hset ⟨flags, heq⟩) now

end Store

/-! ## Commands in turns -/

/-- Flags are set by the actions on queries, and as these set them. -/
theorem Operation.of_makes_setFlags {settings : Settings} {op : Operation} {name : String} {flags : FlagUpdate}
    (h : op.Makes settings (.setFlags name flags)) :
    ∃ actor action names, op = .queryAction actor action names ∧ name ∈ names ∧ flags = action.flags := by
  rcases h with hreads | hwrites
  · cases hreads
  · cases op with
    | queryAction actor action names =>
      obtain ⟨_, hname, heq⟩ := hwrites
      cases heq
      exact ⟨actor, action, names, rfl, hname, rfl⟩
    | _ => simp [Writes] at hwrites

/-- Flags are set by the actions on queries of the fleet, and as these set them. -/
theorem Command.of_makes_setFlags {settings : Settings} {command : Command} {name : String} {flags : FlagUpdate}
    (h : command.Makes settings (.setFlags name flags)) :
    ∃ actor action names, command = .fleet (.queryAction actor action names) ∧ flags = action.flags := by
  cases command with
  | fleet op =>
    obtain ⟨actor, action, names, rfl, -, hflags⟩ := Operation.of_makes_setFlags h
    exact ⟨actor, action, names, rfl, hflags⟩
  | roster op =>
    rcases h with hreads | hwrites
    · cases hreads
    · cases op <;> simp [RosterOperation.Writes] at hwrites

/-- Queries are launched with flags that make them ready to be served. -/
theorem Command.of_makes_launch {settings : Settings} {command : Command} {draft : Query.Draft} {targets : List Target}
    (h : command.Makes settings (.insertQueryWithTargets draft targets)) :
    draft.active = true ∧ draft.completed = false ∧ draft.deleted = false := by
  cases command with
  | fleet op =>
    cases Operation.proper_of_makes h with
    | reads hreads => cases hreads
    | launch _ _ _ hactive hcompleted hdeleted => exact ⟨hactive, hcompleted, hdeleted⟩
  | roster op =>
    rcases h with hreads | hwrites
    · cases hreads
    · cases op <;> simp [RosterOperation.Writes] at hwrites

/-- The action that the entry of a journal carries out on the query of the name, if it does. -/
def Entry.action? (name : String) (entry : Entry) : Option QueryAction :=
  match entry.command, entry.call with
  | .fleet (.queryAction _ action _), .setFlags named _ => if named = name then some action else none
  | _, _ => none

/-- An entry of a journal leaves flags as the action does that it carries out. -/
theorem Store.Bears.after_entry {settings : Settings} {s : Store} {name : String} {actions : List QueryAction}
    (h : s.Bears name actions) {entry : Entry} (hmade : entry.command.Makes settings entry.call) :
    (entry.call.after entry.time s).Bears name (actions ++ (entry.action? name).toList) := by
  obtain ⟨time, command, call⟩ := entry
  by_cases hset : ∃ flags, call = .setFlags name flags
  · obtain ⟨flags, rfl⟩ := hset
    obtain ⟨actor, action, names, rfl, rfl⟩ := Command.of_makes_setFlags hmade
    simpa [Entry.action?] using h.after_setFlags action time
  · have hnone : Entry.action? name ⟨time, command, call⟩ = none := by
      unfold Entry.action?
      split
      · rename_i hcall
        refine if_neg ?_
        rintro rfl
        exact hset ⟨_, hcall⟩
      · rfl
    rw [hnone, Option.toList_none, List.append_nil]
    exact h.after (fun flags heq => hset ⟨flags, heq⟩) time

/-- The calls of a journal leave flags as the actions do that they carry out. -/
theorem Store.Bears.follow {settings : Settings} {s : Store} {name : String} {actions : List QueryAction}
    (h : s.Bears name actions) {journal : List Entry} (hmade : ∀ entry ∈ journal, entry.command.Makes settings entry.call) :
    (s.follow journal).Bears name (actions ++ journal.filterMap (·.action? name)) := by
  induction journal generalizing s actions with
  | nil =>
    rw [List.filterMap_nil, List.append_nil]
    exact h
  | cons entry rest ih =>
    obtain ⟨hentry, hrest⟩ := List.forall_mem_cons.mp hmade
    have hall := ih (h.after_entry hentry) hrest
    have hactions : (entry :: rest).filterMap (·.action? name) =
        (entry.action? name).toList ++ rest.filterMap (·.action? name) := by
      rw [List.filterMap_cons]
      cases entry.action? name <;> rfl
    rwa [List.append_assoc, ← hactions] at hall

/-- In a session that came about, a query stands as it is left by the actions whose calls came after the one that launched it. -/
theorem Session.Reached.standsAfter {settings : Settings} {v : Session} (hv : v.Reached settings) {before after : List Entry}
    {entry : Entry} (hsplit : v.journal = before ++ entry :: after) {draft : Query.Draft} {targets : List Target}
    (hcall : entry.call = .insertQueryWithTargets draft targets) (hfree : draft.name ∉ (Store.empty.follow before).queryNames) :
    v.store.StandsAfter draft.name (after.filterMap (·.action? draft.name)) := by
  obtain ⟨-, hstore, hjournal⟩ := hv.kept_of_asks (Command.asks_makes settings)
  rw [hsplit, List.forall_mem_append, List.forall_mem_cons] at hjournal
  obtain ⟨-, hentry, hafter⟩ := hjournal
  rw [hcall] at hentry
  have hlaunched := Store.bears_after_launch hfree (Command.of_makes_launch hentry) targets entry.time
  have hbears := hlaunched.follow hafter
  rw [hstore, hsplit, Store.follow_append]
  rw [← hcall, List.nil_append] at hbears
  exact hbears.standsAfter

/-! ## Operations one after another -/

namespace Operation

variable (settings : Settings) (name : String)

/-- The action that an operation, carried out as a whole, takes on the query of the name: the one it asks for, if it lists the name
and has a result. -/
def action? (time : Time) (s : Store) (op : Operation) : Option QueryAction :=
  match op with
  | .queryAction _ action names => if name ∈ names ∧ (op.run settings time s).1.isOk = true then some action else none
  | _ => none

/-- The actions that operations, carried out one after another, take on the query of the name. -/
def actions : Store → List (Time × Operation) → List QueryAction
  | _, [] => []
  | s, (time, op) :: ops => (op.action? settings name time s).toList ++ actions (op.run settings time s).2 ops

end Operation

/-- An action on queries is one action on each of them, however often it is listed. -/
theorem QueryBook.bears_apply {time : Time} {s s' : Store} {name : String} {actions : List QueryAction} {action : QueryAction}
    {names : List String} {u : PUnit} (h : s.Bears name actions)
    (hrun : (names.forM fun named => apply named action).run time s = (.ok u, s')) :
    s'.Bears name (actions ++ if name ∈ names then [action] else []) := by
  induction names generalizing s actions with
  | nil =>
    cases hrun
    simpa using h
  | cons named rest ih =>
    obtain ⟨_, s₁, hfirst, hrest⟩ := of_run_bind_eq_ok hrun
    obtain rfl : (Call.setFlags named action.flags).after time s = s₁ := by
      rw [← Store.serve_snd]
      exact congrArg Prod.snd ((Program.run_ask time s _).symm.trans hfirst)
    by_cases hnamed : named = name
    · subst hnamed
      have hall := ih (h.after_setFlags action time) hrest
      rw [if_pos List.mem_cons_self]
      by_cases hagain : named ∈ rest
      · rw [if_pos hagain] at hall
        exact hall.once
      · rwa [if_neg hagain, List.append_nil] at hall
    · have hother : ∀ flags, Call.setFlags named action.flags ≠ .setFlags name flags := by
        intro flags heq
        cases heq
        exact hnamed rfl
      simpa [List.mem_cons, Ne.symm hnamed] using ih (h.after hother time) hrest

namespace Operation

variable {settings : Settings} {name : String}

/-- An operation, carried out as a whole, leaves flags as the action does that it takes. -/
theorem bears_run {s : Store} {actions : List QueryAction} (h : s.Bears name actions) (op : Operation) (time : Time) :
    (op.run settings time s).2.Bears name (actions ++ (op.action? settings name time s).toList) := by
  by_cases hop : ∃ actor action names, op = .queryAction actor action names
  · obtain ⟨actor, action, names, rfl⟩ := hop
    cases hrun : (Operation.queryAction actor action names).run settings time s with
    | mk result s' =>
      cases result with
      | error why =>
        -- what is refused changes nothing
        obtain rfl := ((Fleet.allOrNothing_queryAction actor action names).map _) why s' hrun
        simpa [action?, hrun, Except.isOk, Except.toBool] using h
      | ok answer =>
        obtain ⟨_, haction, -⟩ := of_run_map_eq_ok hrun
        unfold Fleet.queryAction at haction
        obtain ⟨_, s₁, hrequire, hrequired⟩ := of_run_bind_eq_ok haction
        obtain rfl := Program.eq_of_run_of_reads (Accounts.asks_require (fun _ => id) actor .query none) hrequire
        obtain ⟨_, s₂, hget, hset⟩ := of_run_bind_eq_ok hrequired
        have hreads : (names.forM fun name => discard (QueryBook.get name)).Asks fun c => c.part = none :=
          Program.asks_forM fun name _ => (QueryBook.asks_get (fun _ => id) name).map _
        obtain rfl := Program.eq_of_run_of_reads hreads hget
        have hbears := QueryBook.bears_apply h hset
        by_cases hname : name ∈ names
        · simpa [action?, hrun, Except.isOk, Except.toBool, hname] using hbears
        · simpa [action?, hname] using hbears
  · have hnone : op.action? settings name time s = none := by
      unfold action?
      split
      · exact absurd ⟨_, _, _, rfl⟩ hop
      · rfl
    rw [hnone, Option.toList_none, List.append_nil]
    refine Program.run_preserves (P := fun s => s.Bears name actions) ?_ (op.asks_makes settings) h
    intro c hc s hs
    refine hs.after ?_ time
    rintro flags rfl
    obtain ⟨actor, action, names, rfl, -⟩ := of_makes_setFlags hc
    exact hop ⟨actor, action, names, rfl⟩

/-- Operations, carried out one after another, leave flags as the actions do that they take. -/
theorem bears_replay {s : Store} {acted : List QueryAction} (h : s.Bears name acted) (ops : List (Time × Operation)) :
    (replay settings s ops).Bears name (acted ++ actions settings name s ops) := by
  induction ops generalizing s acted with
  | nil =>
    rw [actions, List.append_nil]
    exact h
  | cons entry rest ih =>
    have hfirst : (entry.2.run settings entry.1 s).2.Bears name _ := bears_run h entry.2 entry.1
    have hall := ih hfirst
    rwa [List.append_assoc] at hall

/-- After an operation launched a query, the query stands as it is left by the actions that are taken on it from then on. -/
theorem standsAfter_replay {op : Operation} {targets : List Target} (hop : op.launchedAt = some targets) {time : Time}
    {s s₁ : Store} {handle : Handle} (hrun : op.run settings time s = (.ok (.handle handle), s₁))
    (ops : List (Time × Operation)) :
    (replay settings s₁ ops).StandsAfter handle.name (actions settings handle.name s₁ ops) := by
  obtain ⟨draft, hready, hlaunch⟩ := of_run_eq_ok_handle hop hrun
  obtain ⟨kept, -, hfree, hname, -, rfl⟩ := Fleet.of_run_launch_eq_ok hlaunch
  have hfresh : ({ draft with expected := handle.expected } : Query.Draft).name ∉ s.queryNames := hfree
  have hlaunched := Store.bears_after_launch hfresh hready kept time
  rw [hname]
  exact (bears_replay hlaunched ops).standsAfter

end Operation

/-! ## Listings -/

namespace Store

variable {settings : Settings} {s : Store}

/-- Whatever operations do, a query bears the actions on it, and later on these and more. -/
theorem Bears.of_leadsTo {s' : Store} {begun begun' : List (Program Answer)} {name : String} {actions : List QueryAction}
    (h : s.Bears name actions) (before : Traffic.LeadsTo settings ⟨.empty, []⟩ ⟨s, begun⟩)
    (steps : Traffic.LeadsTo settings ⟨s, begun⟩ ⟨s', begun'⟩) : ∃ more, s'.Bears name (actions ++ more) := by
  refine (steps.preserves (P := fun s => ∃ more, s.Bears name (actions ++ more)) ?_ before.proper ⟨[], ?_⟩).1
  · rintro c hc now s ⟨more, hs⟩
    obtain ⟨further, hfurther⟩ := hs.after_proper hc now
    exact ⟨more ++ further, by rwa [← List.append_assoc]⟩
  · rwa [List.append_nil]

theorem exists_bears_of_reachable (hs : Reachable settings s) : ∀ name ∈ s.queryNames, ∃ actions, s.Bears name actions := by
  refine hs.preserves (P := fun s => ∀ name ∈ s.queryNames, ∃ actions, s.Bears name actions)
    (fun _ hname => absurd hname List.not_mem_nil) ?_
  intro c hc now s h
  have hkept : ∀ name ∈ s.queryNames, ∃ actions, (c.after now s).Bears name actions := by
    intro name hname
    obtain ⟨actions, hbears⟩ := h name hname
    obtain ⟨more, hmore⟩ := hbears.after_proper hc now
    exact ⟨actions ++ more, hmore⟩
  rcases Call.queryNames_cases s now c with hsame | ⟨draft, hdraft, hfree, hnames⟩
  · rwa [hsame]
  · rw [hnames, List.forall_mem_append, List.forall_mem_singleton]
    refine ⟨hkept, [], ?_⟩
    cases hc with
    | reads hreads => rw [Operation.draft?_of_reads hreads] at hdraft; cases hdraft
    | launch _ targets _ hactive hcompleted hdeleted =>
      cases hdraft
      exact bears_after_launch hfree ⟨hactive, hcompleted, hdeleted⟩ targets now
    | _ => cases hdraft

/-- The queries stand in the order of their numbers, which were given one after another. -/
structure Ordered (s : Store) : Prop where
  ids : s.queries.Pairwise fun q r => q.id < r.id
  last : ∀ q ∈ s.queries, q.id ≤ s.lastId

theorem Ordered.of_reachable (hs : Reachable settings s) : s.Ordered := by
  have hnumbered := Numbered.of_reachable hs
  refine ⟨List.pairwise_map.mp (hnumbered.ordered .queries), ?_⟩
  intro q hq
  exact hnumbered.last q.id (idsOf_subset_ids .queries (List.mem_map_of_mem hq))

/-- The listing of all queries is shared out between those of active and of completed queries. -/
theorem perm_listQueries_all (hs : Reachable settings s) :
    (s.listQueries .active ++ s.listQueries .completed).Perm (s.listQueries .all) := by
  have hactive : s.listQueries .active = (s.listQueries .all).filter fun q => Listing.active.admits q.toDraft := by
    rw [listQueries, listQueries, List.filter_filter]
    refine List.filter_congr ?_
    intro q _
    simp only [Listing.admits, Bool.and_assoc, Bool.and_self]
  have hcompleted : s.listQueries .completed = (s.listQueries .all).filter fun q => !Listing.active.admits q.toDraft := by
    rw [listQueries, listQueries, List.filter_filter]
    refine List.filter_congr ?_
    intro q hq
    obtain ⟨actions, -, hbears⟩ := exists_bears_of_reachable hs q.name (s.mem_queryNames.mpr ⟨q, hq, rfl⟩)
    cases hdeleted : q.deleted with
    | true => simp [Listing.admits, hdeleted]
    | false =>
      have hall : Listing.all.admits q.toDraft = true := by rw [Listing.admits, hdeleted, Bool.not_false]
      rw [(hbears q hq rfl).admits_completed hdeleted, hall, Bool.and_true]
  rw [hactive, hcompleted]
  exact List.filter_append_perm _ _

/-- The queries are shared out between the listing of all and that of deleted queries. -/
theorem perm_queries (s : Store) : (s.listQueries .all ++ s.listQueries .deleted).Perm s.queries := by
  have hdeleted : s.listQueries .deleted = s.queries.filter fun q => !Listing.all.admits q.toDraft := by
    refine List.filter_congr ?_
    intro q _
    simp only [Listing.admits, Bool.not_not]
  rw [hdeleted]
  exact List.filter_append_perm _ _

/-- Listings of which none shows what the other shows have no query in common. -/
theorem disjoint_listQueries (s : Store) {listing other : Listing}
    (h : ∀ q : Query.Draft, ¬(listing.admits q = true ∧ other.admits q = true)) :
    (s.listQueries listing).Disjoint (s.listQueries other) := by
  intro q hq hq'
  exact h q.toDraft ⟨(List.mem_filter.mp hq).2, (List.mem_filter.mp hq').2⟩

end Store

/-- Queries stay in the order in which they came, and new ones come after them. -/
theorem Traffic.LeadsTo.prefix_queryNames {settings : Settings} {v w : Traffic} (steps : LeadsTo settings v w)
    (hv : v.Proper settings) : v.store.queryNames <+: w.store.queryNames := by
  refine (steps.preserves (P := fun t => v.store.queryNames <+: t.queryNames) ?_ hv (List.prefix_refl _)).1
  intro c _ now t ht
  exact ht.trans (Call.prefix_map_queries t now fun _ _ hremakes => hremakes.same.name)

/-- A deleted query stays deleted, is not listed as active and is handed to no node. -/
theorem Traffic.LeadsTo.deleted {settings : Settings} {s s' : Store} {begun begun' : List (Program Answer)}
    (steps : LeadsTo settings ⟨s, begun⟩ ⟨s', begun'⟩) (before : LeadsTo settings ⟨.empty, []⟩ ⟨s, begun⟩) {q : Query}
    (hq : q ∈ s.queries) (hdeleted : q.deleted = true) :
    ∃ q', s'.getQuery q.name = some q' ∧ q'.deleted = true ∧ q' ∉ s'.listQueries .active ∧
      ∀ time, ∀ n ∈ s'.nodes, s'.hands settings time q.name n = false := by
  have hs' : Reachable settings s' := ⟨begun', before.trans steps⟩
  obtain ⟨actions, hbears⟩ := Store.exists_bears_of_reachable ⟨begun, before⟩ q.name (s.mem_queryNames.mpr ⟨q, hq, rfl⟩)
  obtain ⟨more, hstored, hlater⟩ := hbears.of_leadsTo before steps
  have hkept : ∀ q' ∈ s'.queries, q'.name = q.name → q'.deleted = true := by
    intro q' hq' hname
    exact (hlater q' hq' hname).deleted.mpr (List.mem_append_left _ ((hbears.2 q hq rfl).deleted.mp hdeleted))
  obtain ⟨q', hfound⟩ := s'.exists_getQuery hstored
  obtain ⟨hq', hname⟩ := s'.of_getQuery_eq_some hfound
  refine ⟨q', hfound, hkept q' hq' hname, ?_, ?_⟩
  · intro hlisted
    have hactive := (List.mem_filter.mp hlisted).2
    simp [Listing.admits, hkept q' hq' hname] at hactive
  · intro time n hn
    rw [Bool.eq_false_iff, ne_eq, Store.hands_iff hs' hn]
    rintro ⟨r, hr, ⟨⟨-, -, hserved⟩, -⟩, heq⟩
    rw [hkept r hr heq] at hserved
    cases hserved

/-- A query stands as the actions on it tell, is never both active and completed, and is in the listings that its flags say, which
are in the order of launching. What was deleted stays so, and is handed to no node that polls. -/
theorem Query.lifecycle (settings : Settings) :
    (∀ v : Session, v.Reached settings → ∀ before entry after draft targets, v.journal = before ++ entry :: after →
      entry.call = .insertQueryWithTargets draft targets → draft.name ∉ (Store.empty.follow before).queryNames →
      v.store.StandsAfter draft.name (after.filterMap (·.action? draft.name))) ∧
    (∀ (op : Operation) targets time s handle s₁, op.launchedAt = some targets →
      op.run settings time s = (.ok (.handle handle), s₁) → ∀ ops,
      (Operation.replay settings s₁ ops).StandsAfter handle.name (Operation.actions settings handle.name s₁ ops)) ∧
    (∀ s, Reachable settings s →
      (∀ q ∈ s.queries, ¬(q.active = true ∧ q.completed = true)) ∧
      ((s.listQueries .active ++ s.listQueries .completed).Perm (s.listQueries .all) ∧
        (s.listQueries .active).Disjoint (s.listQueries .completed)) ∧
      ((s.listQueries .all ++ s.listQueries .deleted).Perm s.queries ∧
        (s.listQueries .all).Disjoint (s.listQueries .deleted)) ∧
      s.queryNames.Nodup ∧
      ∀ listing, (s.listQueries listing).Sublist s.queries ∧ (s.listQueries listing).Pairwise fun q r => q.id < r.id) ∧
    ∀ s begun s' begun', Traffic.LeadsTo settings ⟨.empty, []⟩ ⟨s, begun⟩ → Traffic.LeadsTo settings ⟨s, begun⟩ ⟨s', begun'⟩ →
      s.queryNames <+: s'.queryNames ∧
      ∀ q ∈ s.queries, q.deleted = true → ∃ q', s'.getQuery q.name = some q' ∧ q'.deleted = true ∧
        q' ∉ s'.listQueries .active ∧ ∀ time, ∀ n ∈ s'.nodes, s'.hands settings time q.name n = false := by
  refine ⟨?_, ?_, ?_, ?_⟩
  · intro v hv before entry after draft targets hsplit hcall hfree
    exact hv.standsAfter hsplit hcall hfree
  · intro op targets time s handle s₁ hop hrun ops
    exact Operation.standsAfter_replay hop hrun ops
  · intro s hs
    refine ⟨?_, ⟨Store.perm_listQueries_all hs, s.disjoint_listQueries ?_⟩, ⟨s.perm_queries, s.disjoint_listQueries ?_⟩,
      (Store.Sound.of_reachable hs).names, ?_⟩
    · intro q hq
      obtain ⟨actions, -, hbears⟩ := Store.exists_bears_of_reachable hs q.name (s.mem_queryNames.mpr ⟨q, hq, rfl⟩)
      exact (hbears q hq rfl).not_active_and_completed
    · intro q
      rw [q.admits_iff_state.1, q.admits_iff_state.2]
      rintro ⟨hactive, hcompleted⟩
      rw [hactive] at hcompleted
      cases hcompleted
    · rintro q ⟨hall, hdeleted⟩
      simp_all [Listing.admits]
    · intro listing
      exact ⟨List.filter_sublist, (Store.Ordered.of_reachable hs).ids.filter _⟩
  · intro s begun s' begun' before steps
    exact ⟨steps.prefix_queryNames before.proper, fun q hq hdeleted => steps.deleted before hq hdeleted⟩

/-- A query is completed and activated again, and is active. Then it is deleted, listed twice, and activated, and stays deleted. -/
theorem Query.lifecycle_of_activated_once_deleted :
    let settings : Settings := .embedded ["prod"]
    let s := Operation.replay settings .empty [(0, .ensureAdmin "root"),
      (1, .enroll "a-1" "key" { Attributes.blank with environment := "prod" })]
    let name := QueryName.query 7
    let op : Operation := .createQuery 7 "root" "SELECT 1;" [⟨.environment, "prod"⟩] .standard
    let s₁ := (op.run settings 2 s).2
    let served : List (Time × Operation) := [(3, .queryAction "root" .complete [name]), (4, .queryAction "root" .activate [name])]
    let s₂ := Operation.replay settings s₁ served
    let s₃ := Operation.replay settings s₁ (served ++ [(5, .queryAction "root" .delete [name, name])])
    let s₄ := Operation.replay settings s₃ [(6, .queryAction "root" .activate [name])]
    (∃ q, s₂.getQuery name = some q ∧ q.state = .active) ∧
      ∃ q, s₄.getQuery name = some q ∧ q.deleted = true ∧ q ∉ s₄.listQueries .active ∧
        ∀ time, ∀ n ∈ s₄.nodes, s₄.hands settings time name n = false := by
  intro settings s name op s₁ served s₂ s₃ s₄
  have hs : Reachable settings s := reachable_empty.replay _
  have hresult : (op.run settings 2 s).1 = .ok (.handle ⟨name, 1⟩) := by decide +kernel
  have hrun : op.run settings 2 s = (.ok (.handle ⟨name, 1⟩), s₁) := by
    rw [← hresult]
  obtain ⟨-, hactions, -, hkept⟩ := Query.lifecycle settings
  have hstands := hactions op _ 2 s ⟨name, 1⟩ s₁ rfl hrun
  constructor
  · obtain ⟨q, hq, hdeleted, hstate, -⟩ := hstands served
    have hserved : q.deleted = false := by
      rw [Bool.eq_false_iff, ne_eq, hdeleted]
      decide +kernel
    exact ⟨q, hq, (hstate hserved).1.mpr (by decide +kernel)⟩
  · obtain ⟨q, hfound, hdeleted, -⟩ := hstands (served ++ [(5, .queryAction "root" .delete [name, name])])
    obtain ⟨hq, hname⟩ := s₃.of_getQuery_eq_some hfound
    obtain ⟨begun, before⟩ : Reachable settings s₃ := (hs.run op 2).replay _
    obtain ⟨begun', steps⟩ : ∃ begun', Traffic.LeadsTo settings ⟨s₃, begun⟩ ⟨s₄, begun'⟩ := Traffic.leadsTo_replay begun _ s₃
    have hlater := (hkept s₃ begun s₄ begun' before steps).2 q hq (hdeleted.mpr (by decide +kernel))
    rwa [hname] at hlater

end FleetControl
