import FleetControl.Proofs.Calls

/-!
# Whom a refusal blames

A refusal blames its caller unless it is one of the configuration or an internal error. The store refuses nothing otherwise, and no
operation does: however it goes, it ends with a result or with a refusal that blames the caller (`Operation.fair`), as long as its
calls are refused so and the clock shows times whose activity cutoff can be held. The lemmas go program by program, each from the
lemmas of its parts.
-/

namespace FleetControl

open Access (Account Level Permissions)

variable {α β : Type}

/-- The refusal is not a fault of the service. -/
def Refusal.BlamesCaller (why : Refusal) : Prop := why.kind ≠ .configuration ∧ why.kind ≠ .internal

/-! ## Results -/

/-- A result, or a refusal that blames the caller. -/
def FairResult (e : Except Refusal α) : Prop := ∀ why, e = .error why → why.BlamesCaller

theorem FairResult.ok (a : α) : FairResult (.ok a) := nofun

theorem FairResult.error {why : Refusal} (h : why.BlamesCaller) : FairResult (.error why : Except Refusal α) := by
  rintro _ ⟨⟩
  exact h

theorem FairResult.bind {e : Except Refusal α} {f : α → Except Refusal β} (he : FairResult e) (hf : ∀ a, FairResult (f a)) :
    FairResult (e >>= f) := by
  cases e with
  | ok a => exact hf a
  | error why => exact .error (he why rfl)

theorem FairResult.map {e : Except Refusal α} (he : FairResult e) (f : α → β) : FairResult (e.map f) := by
  cases e with
  | ok a => exact .ok (f a)
  | error why => exact .error (he why rfl)

theorem FairResult.ite {c : Prop} [Decidable c] {d e : Except Refusal α} (hd : FairResult d) (he : FairResult e) :
    FairResult (if c then d else e) := by
  by_cases hc : c
  · rwa [if_pos hc]
  · rwa [if_neg hc]

namespace Store

variable (s : Store)

theorem fair_nodeWith (uuid : String) : FairResult (s.nodeWith uuid) := by
  unfold nodeWith
  split
  · exact .ok _
  · exact .error ⟨nofun, nofun⟩

theorem fair_queryNamed (name : String) : FairResult (s.queryNamed name) := by
  unfold queryNamed
  split
  · exact .ok _
  · exact .error ⟨nofun, nofun⟩

theorem fair_userNamed (username : String) : FairResult (s.userNamed username) := by
  unfold userNamed
  split
  · exact .ok _
  · exact .error ⟨nofun, nofun⟩

theorem fair_insertNode (now : Time) (e : Enrollment) (seeds : List HistorySeed) : FairResult (s.insertNode now e seeds) :=
  .ite (.error ⟨nofun, nofun⟩) (.ok _)

theorem fair_insertQuery (now : Time) (draft : Query.Draft) (targets : List Target) :
    FairResult (s.insertQuery now draft targets) :=
  .ite (.error ⟨nofun, nofun⟩) (.ok _)

theorem fair_recordExecution (now : Time) (e : Execution.Draft) : FairResult (s.recordExecution now e) :=
  .ite (.ok _) ((s.fair_queryNamed e.name).bind fun _ => .ok _)

theorem fair_insertUser (now : Time) (account : Account) : FairResult (s.insertUser now account) :=
  .ite (.error ⟨nofun, nofun⟩) (.ok _)

end Store

/-- The store refuses no call but by a fault of the caller. -/
theorem Call.fair_exec (now : Time) (s : Store) (c : Call) : FairResult (c.exec now s) := by
  cases c with
  | insertNode e seeds => exact s.fair_insertNode now e seeds
  | insertQuery draft => exact s.fair_insertQuery now draft []
  | insertQueryWithTargets draft chosen => exact s.fair_insertQuery now draft chosen
  | recordExecution e => exact s.fair_recordExecution now e
  | insertUser account => exact s.fair_insertUser now account
  | applyObservation uuid observed => exact (s.fair_nodeWith uuid).bind fun _ => .ok _
  | touchEvent uuid event time => exact ((s.fair_nodeWith uuid).bind fun _ => .ok _).map _
  | deleteNode uuid => exact ((s.fair_nodeWith uuid).bind fun _ => .ok _).map _
  | insertTargets name added => exact ((s.fair_queryNamed name).bind fun _ => .ok _).map _
  | setExpected name expected => exact ((s.fair_queryNamed name).bind fun _ => .ok _).map _
  | setFlags name flags => exact ((s.fair_queryNamed name).bind fun _ => .ok _).map _
  | incrementCounter name counter => exact ((s.fair_queryNamed name).bind fun _ => .ok _).map _
  | setAdmin username admin permissions => exact ((s.fair_userNamed username).bind fun _ => .ok _).map _
  | setPermissions username permissions => exact ((s.fair_userNamed username).bind fun _ => .ok _).map _
  | deleteUser username => exact ((s.fair_userNamed username).bind fun _ => .ok _).map _
  | _ => exact .ok _

/-! ## Words -/

theorem QueryKind.fair_parse (word : String) : FairResult (parse word) := by
  unfold parse
  split
  · exact .ok _
  · exact .error ⟨nofun, nofun⟩

theorem Listing.fair_parse (word : String) : FairResult (parse word) := by
  unfold parse
  split
  · exact .ok _
  · exact .error ⟨nofun, nofun⟩

theorem QueryAction.fair_parse (word : String) : FairResult (parse word) := by
  unfold parse
  split
  · exact .ok _
  · exact .error ⟨nofun, nofun⟩

theorem NodeAction.fair_parse (word : String) : FairResult (parse word) := .ite (.ok _) (.ite (.ok _) (.error ⟨nofun, nofun⟩))

theorem TargetKind.fair_parse (word : String) : FairResult (parse word) := by
  unfold parse
  split
  · exact .ok _
  · exact .error ⟨nofun, nofun⟩

namespace Target

theorem fair_make (kind : TargetKind) (text : String) : FairResult (make kind text) := by
  refine .ite (.error ⟨nofun, nofun⟩) ?_
  cases kind <;> exact .ok _

theorem fair_parseAll (pairs : List (String × String)) : FairResult (parseAll pairs) := by
  unfold parseAll
  induction pairs with
  | nil => exact .ok []
  | cons pair pairs ih =>
    rw [List.mapM_cons]
    refine ((TargetKind.fair_parse pair.1).bind fun kind => fair_make kind pair.2).bind ?_
    intro target
    exact ih.bind fun targets => .ok (target :: targets)

end Target

/-! ## Programs -/

namespace Program

/-- However the program goes, it ends with a result or with a refusal that blames the caller, as long as its calls are refused so
and the clock shows times whose activity cutoff some hours ago can be held. -/
inductive Fair (hours : Int) : Program α → Prop where
  | done (a : α) : Fair hours (.done a)
  | refused {why : Refusal} (h : why.BlamesCaller) : Fair hours (.stop (.refused why))
  | clock {next : Time → Program α} (h : ∀ now, (activityCutoff now hours).isSome → Fair hours (next now)) :
      Fair hours (.clock next)
  | call {c : Call} {next : Except Refusal c.Reply → Program α} (h : ∀ reply, FairResult reply → Fair hours (next reply)) :
      Fair hours (.call c next)

section Fair

variable {hours : Int}

theorem fair_pure (a : α) : (pure a : Program α).Fair hours := .done a

theorem fair_refuse {why : Refusal} (h : why.BlamesCaller) : (refuse why : Program α).Fair hours := .refused h

theorem fair_now : now.Fair hours := .clock fun now _ => .done now

theorem fair_ofExcept {e : Except Refusal α} (h : FairResult e) : (ofExcept e).Fair hours := by
  cases e with
  | ok a => exact .done a
  | error why => exact .refused (h why rfl)

theorem fair_ask (c : Call) : (ask c).Fair hours := .call fun _ => fair_ofExcept

theorem fair_cutoff : (cutoff hours).Fair hours := by
  refine .clock ?_
  intro now hcutoff
  split
  · exact .done _
  · rename_i hnone
    rw [hnone] at hcutoff
    cases hcutoff

theorem fair_ite {c : Prop} [Decidable c] {p q : Program α} (hp : p.Fair hours) (hq : q.Fair hours) :
    (if c then p else q).Fair hours := by
  by_cases hc : c
  · rwa [if_pos hc]
  · rwa [if_neg hc]

/-- One program after another is fair where the two are. -/
theorem Fair.bind {p : Program α} {f : α → Program β} (hp : p.Fair hours) (hf : ∀ a, (f a).Fair hours) : (p >>= f).Fair hours := by
  induction hp with
  | done a => exact hf a
  | refused h => exact .refused h
  | clock _ ih => exact .clock ih
  | call _ ih => exact .call ih

theorem Fair.map {p : Program α} (hp : p.Fair hours) (f : α → β) : (f <$> p).Fair hours := by
  rw [map_eq_pure_bind]
  exact hp.bind fun a => fair_pure (f a)

/-- What an attempted program is answered with is fair. -/
theorem Fair.attempt_bind {p : Program α} {f : Except Refusal α → Program β} (hp : p.Fair hours)
    (hf : ∀ e, FairResult e → (f e).Fair hours) : (p.attempt >>= f).Fair hours := by
  induction hp with
  | done a => exact hf (.ok a) (.ok a)
  | refused h => exact hf (.error _) (.error h)
  | clock _ ih => exact .clock ih
  | call _ ih => exact .call ih

theorem fair_forM {f : α → Program PUnit} (hf : ∀ a, (f a).Fair hours) (as : List α) : (as.forM f).Fair hours := by
  induction as with
  | nil => exact fair_pure _
  | cons a as ih => exact (hf a).bind fun _ => ih

theorem fair_mapM {f : α → Program β} (hf : ∀ a, (f a).Fair hours) (as : List α) : (as.mapM f).Fair hours := by
  induction as with
  | nil => exact fair_pure []
  | cons a as ih =>
    rw [List.mapM_cons]
    exact (hf a).bind fun b => ih.bind fun bs => fair_pure (b :: bs)

/-- A fair program that is run at a time whose cutoff can be held has a result or is refused by a fault of the caller. -/
theorem Fair.run {p : Program α} (hp : p.Fair hours) {time : Time} (hcutoff : (activityCutoff time hours).isSome) (s : Store) :
    (∃ a, (p.run time s).1 = .ok a) ∨ ∃ why : Refusal, why.BlamesCaller ∧ (p.run time s).1 = .error (.refused why) := by
  induction hp generalizing s with
  | done a => exact .inl ⟨a, rfl⟩
  | refused h => exact .inr ⟨_, h, rfl⟩
  | clock _ ih => exact ih time hcutoff s
  | @call c next _ ih =>
    refine ih (s.serve time c).1 ?_ (s.serve time c).2
    have hexec := c.fair_exec time s
    unfold Store.serve
    cases hreply : c.exec time s with
    | ok reply => exact .ok _
    | error why => exact .error (hexec why hreply)

end Fair

end Program

open Program (fair_ite fair_pure fair_refuse fair_now fair_ofExcept fair_ask fair_cutoff fair_forM fair_mapM)

section Programs

variable {hours : Int}

namespace Accounts

theorem fair_authorize (username : String) (level : Level) (environment : Option String) :
    (authorize username level environment).Fair hours := by
  refine (fair_ask _).bind ?_
  intro found
  cases found with
  | none => exact fair_pure false
  | some user => exact fair_pure _

theorem fair_require (username : String) (level : Level) (environment : Option String) :
    (require username level environment).Fair hours :=
  (fair_authorize username level environment).bind fun _ => fair_ite (fair_pure ()) (fair_refuse ⟨nofun, nofun⟩)

theorem fair_has (username : String) : (has username).Fair hours := (fair_ask _).bind fun _ => fair_pure _

theorem fair_add (account : Account) (environments : List String) : (add account environments).Fair hours :=
  fair_ite (fair_refuse ⟨nofun, nofun⟩) (fair_ask _)

end Accounts

namespace Roster

theorem fair_byKey (key : String) : (byKey key).Fair hours := by
  refine (fair_ask _).bind ?_
  intro found
  cases found with
  | none => exact fair_refuse ⟨nofun, nofun⟩
  | some node => exact fair_pure node

theorem fair_byUuid (uuid : String) : (byUuid uuid).Fair hours := by
  refine (fair_ask _).bind ?_
  intro found
  cases found with
  | none => exact fair_refuse ⟨nofun, nofun⟩
  | some node => exact fair_pure node

theorem fair_hasUuid (uuid : String) : (hasUuid uuid).Fair hours := by
  refine (fair_byUuid uuid).attempt_bind ?_
  intro found hfound
  cases found with
  | ok node => exact fair_pure true
  | error why => exact fair_ite (fair_pure false) (fair_refuse (hfound why rfl))

theorem fair_hasHost (host : String) : (hasHost host).Fair hours := (fair_ask _).bind fun _ => fair_pure _

theorem fair_enroll (uuid key : String) (attributes : Attributes) : (enroll uuid key attributes).Fair hours := by
  refine fair_ite (fair_refuse ⟨nofun, nofun⟩) ((fair_ask _).bind ?_)
  intro found
  cases found with
  | none => exact fair_ask _
  | some node => exact fair_pure node

theorem fair_noteEvent (uuid : String) (event : NodeEvent) : (noteEvent uuid event).Fair hours := fair_now.bind fun _ => fair_ask _

theorem fair_archive (uuid trigger : String) : (archive uuid trigger).Fair hours :=
  (fair_byUuid uuid).bind fun _ => fair_now.bind fun _ => fair_ask _

theorem fair_retire (uuid : String) : (retire uuid).Fair hours :=
  (fair_archive uuid deleteTrigger).bind fun archived => (fair_ask _).bind fun _ => fair_pure archived

theorem fair_list (selector : Selector) (activity : Activity) : (list selector activity hours).Fair hours :=
  fair_cutoff.bind fun _ => fair_ask _

theorem fair_stats (selector : Selector) : (stats selector hours).Fair hours :=
  fair_cutoff.bind fun _ => (fair_ask _).bind fun _ => (fair_ask _).bind fun _ => (fair_ask _).bind fun _ => fair_pure _

end Roster

namespace Reach

variable (settings : Settings)

theorem fair_isKnown (platforms : Option (List String)) (target : Target) : (isKnown settings platforms target).Fair hours := by
  unfold isKnown
  split
  · exact fair_pure _
  · cases platforms with
    | none => exact (fair_ask _).bind fun _ => fair_pure _
    | some names => exact (fair_pure names).bind fun _ => fair_pure _
  · exact (Roster.fair_hasUuid target.value).bind fun _ => fair_pure _
  · exact (Roster.fair_hasHost target.value).bind fun _ => fair_pure _

theorem fair_siftOnto (seen kept : List Target) (platforms : Option (List String)) (targets : List Target) :
    (siftOnto settings seen kept platforms targets).Fair hours := by
  induction targets generalizing seen kept platforms with
  | nil => exact fair_pure kept
  | cons target rest ih =>
    unfold siftOnto
    exact fair_ite (ih seen kept platforms) ((fair_isKnown settings platforms target).bind fun known => ih _ _ known.2)

theorem fair_reachedBy (found : List String) (target : Target) : (reachedBy hours found target).Fair hours := by
  unfold reachedBy
  split
  · exact (Roster.fair_list _ _).bind fun _ => fair_pure _
  · exact (Roster.fair_list _ _).bind fun _ => fair_pure _
  · exact (Roster.fair_hasUuid target.value).bind fun _ => fair_ite (fair_pure _) (fair_pure _)
  · exact (fair_ask _).bind fun _ => fair_pure _

theorem fair_reachedByAll (found : List String) (targets : List Target) : (reachedByAll hours found targets).Fair hours := by
  induction targets generalizing found with
  | nil => exact fair_pure found
  | cons target rest ih => exact (fair_reachedBy found target).bind fun found => ih found

theorem fair_count (targets : List Target) : (count hours targets).Fair hours :=
  (fair_reachedByAll [] targets).bind fun _ => fair_pure _

end Reach

namespace Delivery

theorem fair_pendingAmong (node : Node) (found : Dictionary String) (queries : List Query) :
    (pendingAmong node found queries).Fair hours := by
  induction queries generalizing found with
  | nil => exact fair_pure found
  | cons query rest ih =>
    unfold pendingAmong
    refine (fair_ask _).bind ?_
    intro targets
    refine fair_ite ((fair_ask _).bind ?_) (ih found)
    intro executed
    exact fair_ite (ih found) (ih _)

theorem fair_pending (node : Node) : (pending node).Fair hours :=
  (fair_ask _).bind fun queries => fair_pendingAmong node .empty queries

theorem fair_record (name uuid : String) (result : Int) : (record name uuid result).Fair hours := by
  refine (fair_ask _).bind ?_
  intro found
  cases found with
  | none => exact fair_refuse ⟨nofun, nofun⟩
  | some query =>
    refine (fair_ask _).bind ?_
    intro recorded
    exact fair_ite (fair_pure ()) (fair_refuse ⟨nofun, nofun⟩)

theorem fair_recordAll (uuid : String) (report : Report) (statuses : List (String × Int)) :
    (recordAll uuid report statuses).Fair hours := by
  induction statuses generalizing report with
  | nil => exact fair_pure report
  | cons status rest ih =>
    unfold recordAll
    refine (fair_record status.1 uuid status.2).attempt_bind ?_
    intro outcome houtcome
    cases outcome with
    | ok _ => exact ih _
    | error why =>
      dsimp only
      split
      · exact ih _
      · exact ih _
      · exact fair_refuse (houtcome why rfl)

end Delivery

namespace QueryBook

theorem fair_create (draft : Query.Draft) (targets : List Target) : (create draft targets).Fair hours :=
  fair_ite (fair_refuse ⟨nofun, nofun⟩) (fair_ite (fair_refuse ⟨nofun, nofun⟩) (fair_ask _))

theorem fair_storedCount (count : Nat) : FairResult (storedCount count) := .ite (.ok _) (.error ⟨nofun, nofun⟩)

theorem fair_get (name : String) : (get name).Fair hours := by
  refine (fair_ask _).bind ?_
  intro found
  cases found with
  | none => exact fair_refuse ⟨nofun, nofun⟩
  | some query => exact fair_pure query

end QueryBook

namespace Fleet

theorem fair_enroll (settings : Settings) (uuid key : String) (attributes : Attributes) :
    (enroll settings uuid key attributes).Fair hours :=
  fair_ite (Roster.fair_enroll uuid key attributes) (fair_refuse ⟨nofun, nofun⟩)

theorem fair_updateMetadata (key : String) (observed : Observation) : (updateMetadata key observed).Fair hours := by
  refine (Roster.fair_byKey key).bind ?_
  intro node
  refine (fair_ask _).bind ?_
  intro observedNode
  exact (Roster.fair_noteEvent observedNode.uuid .status).bind fun _ => fair_pure observedNode

theorem fair_updateAddress (key ip : String) : (updateAddress key ip).Fair hours := (Roster.fair_byKey key).bind fun _ => fair_ask _

theorem fair_poll (key : String) : (poll key).Fair hours := by
  refine (Roster.fair_byKey key).bind ?_
  intro node
  refine (Delivery.fair_pending node).bind ?_
  intro pending
  exact (Roster.fair_noteEvent node.uuid .queryRead).bind fun _ => fair_pure pending

theorem fair_submitResult (key name : String) (result : Int) : (submitResult key name result).Fair hours := by
  refine (Roster.fair_byKey key).bind ?_
  intro node
  exact (Delivery.fair_record name node.uuid result).bind fun _ => Roster.fair_noteEvent node.uuid .queryWrite

theorem fair_submitResults (key : String) (statuses : Dictionary Int) : (submitResults key statuses).Fair hours := by
  refine (Roster.fair_byKey key).bind ?_
  intro node
  refine (Delivery.fair_recordAll node.uuid .empty statuses.entries).bind ?_
  intro report
  exact fair_ite (fair_pure report) ((Roster.fair_noteEvent node.uuid .queryWrite).bind fun _ => fair_pure report)

theorem fair_launch (settings : Settings) (draft : Query.Draft) (targets : List Target) :
    (launch settings draft targets).Fair settings.inactiveHours := by
  refine fair_ite (fair_refuse ⟨nofun, nofun⟩) ((Reach.fair_siftOnto settings [] [] none targets).bind ?_)
  intro kept
  refine fair_ite (fair_refuse ⟨nofun, nofun⟩) ((Reach.fair_count kept).bind ?_)
  intro reach
  refine (fair_ofExcept (QueryBook.fair_storedCount reach)).bind ?_
  intro expected
  exact (QueryBook.fair_create _ kept).bind fun _ => fair_pure _

theorem fair_createQuery (settings : Settings) (token : QueryName.Token) (actor text : String) (targets : List Target)
    (kind : QueryKind) : (createQuery settings token actor text targets kind).Fair settings.inactiveHours :=
  (Accounts.fair_require actor .query none).bind fun _ => fair_launch settings _ targets

theorem fair_createCarve (settings : Settings) (token : QueryName.Token) (actor path : String) (targets : List Target) :
    (createCarve settings token actor path targets).Fair settings.inactiveHours := by
  refine (Accounts.fair_require actor .carve none).bind ?_
  intro _
  exact fair_ite (fair_refuse ⟨nofun, nofun⟩) (fair_launch settings _ targets)

theorem fair_listQueries (actor : String) (listing : Listing) : (listQueries actor listing).Fair hours :=
  (Accounts.fair_require actor .query none).bind fun _ => fair_ask _

theorem fair_queryAction (actor : String) (action : QueryAction) (names : List String) :
    (queryAction actor action names).Fair hours := by
  refine (Accounts.fair_require actor .query none).bind ?_
  intro _
  refine (fair_forM (fun name => (QueryBook.fair_get name).map _) names).bind ?_
  intro _
  exact fair_forM (fun name => fair_ask _) names

theorem fair_actOn (action : NodeAction) (uuid : String) : (actOn action uuid).Fair hours := by
  cases action with
  | delete => exact Roster.fair_retire uuid
  | archive trigger => exact Roster.fair_archive uuid trigger

theorem fair_nodeAction (actor : String) (action : NodeAction) (uuids : List String) :
    (nodeAction actor action uuids).Fair hours := by
  refine (Accounts.fair_require actor .admin none).bind ?_
  intro _
  refine (fair_forM (fun uuid => (Roster.fair_byUuid uuid).map _) uuids).bind ?_
  intro _
  exact fair_mapM (fair_actOn action) uuids

theorem fair_addUser (settings : Settings) (actor : String) (account : Account) : (addUser settings actor account).Fair hours :=
  (Accounts.fair_require actor .admin none).bind fun _ => (Accounts.fair_add account settings.environments).map _

theorem fair_setAdmin (settings : Settings) (actor username : String) (admin : Bool) :
    (setAdmin settings actor username admin).Fair hours :=
  (Accounts.fair_require actor .admin none).bind fun _ => fair_ask _

theorem fair_setPermissions (actor username : String) (permissions : Permissions) :
    (setPermissions actor username permissions).Fair hours :=
  (Accounts.fair_require actor .admin none).bind fun _ => fair_ask _

theorem fair_nodeStats (settings : Settings) (actor environment : String) :
    (nodeStats settings actor environment).Fair settings.inactiveHours :=
  (Accounts.fair_require actor .environment (some environment)).bind fun _ => Roster.fair_stats _

theorem fair_ensureAdmin (settings : Settings) (username : String) : (ensureAdmin settings username).Fair hours := by
  refine (Accounts.fair_has username).bind ?_
  intro known
  refine fair_ite (fair_pure _) ((Accounts.fair_add _ settings.environments).attempt_bind ?_)
  intro made hmade
  cases made with
  | ok user => exact fair_pure _
  | error why => exact fair_ite (fair_pure _) (fair_refuse (hmade why rfl))

end Fleet

end Programs

/-- However an operation goes, it ends with a result or with a refusal that blames the caller. -/
theorem Operation.fair (settings : Settings) (op : Operation) : (op.program settings).Fair settings.inactiveHours := by
  cases op with
  | enroll uuid key attributes => exact (Fleet.fair_enroll settings uuid key attributes).map _
  | updateMetadata key observed => exact (Fleet.fair_updateMetadata key observed).map _
  | updateAddress key ip => exact (Fleet.fair_updateAddress key ip).map _
  | poll key => exact (Fleet.fair_poll key).map _
  | submitResult key name result => exact (Fleet.fair_submitResult key name result).map _
  | submitResults key statuses => exact (Fleet.fair_submitResults key statuses).map _
  | authorize actor level environment => exact (Accounts.fair_authorize actor level environment).map _
  | createQuery token actor text targets kind => exact (Fleet.fair_createQuery settings token actor text targets kind).map _
  | createCarve token actor path targets => exact (Fleet.fair_createCarve settings token actor path targets).map _
  | listQueries actor listing => exact (Fleet.fair_listQueries actor listing).map _
  | queryAction actor action names => exact (Fleet.fair_queryAction actor action names).map _
  | nodeAction actor action uuids => exact (Fleet.fair_nodeAction actor action uuids).map _
  | addUser actor account => exact (Fleet.fair_addUser settings actor account).map _
  | setAdmin actor username admin => exact (Fleet.fair_setAdmin settings actor username admin).map _
  | setPermissions actor username permissions => exact (Fleet.fair_setPermissions actor username permissions).map _
  | nodeStats actor environment => exact (Fleet.fair_nodeStats settings actor environment).map _
  | ensureAdmin username => exact (Fleet.fair_ensureAdmin settings username).map _

end FleetControl
