import FleetControl.Fleet.Operation
import FleetControl.Proofs.Identity
import FleetControl.Proofs.Programs
import FleetControl.Proofs.Tables

/-!
# The calls of operations

For every operation, `Operation.Writes` says which calls it may make besides those that only read, whatever the calls before were
answered. The lemmas go program by program, each from the calls that the program makes itself and the lemmas of its parts. What all
operations have in common is `Call.Proper`: identities in canonical form, and grants, flags and drafts of the forms that
operations give them.
-/

namespace FleetControl

open Access (Account Permissions)
open Program (asks_pure asks_refuse asks_now asks_ofExcept asks_ask asks_cutoff asks_ite asks_forM asks_mapM)

/-! ## Programs that only read -/

/-- A program that only reads leaves the store. -/
theorem Program.run_of_reads {α : Type} {p : Program α} (hp : p.Asks fun c => c.part = none) (time : Time) (s : Store) :
    (p.run time s).2 = s := by
  refine run_preserves (P := fun s' => s' = s) ?_ hp rfl
  intro c hc s' hs
  rw [Call.after_of_reads s' time hc]
  exact hs

/-- The store after a run of a program that only reads is the one before. -/
theorem Program.eq_of_run_of_reads {α : Type} {p : Program α} (hp : p.Asks fun c => c.part = none) {time : Time} {s s' : Store}
    {result : Except Stop α} (h : p.run time s = (result, s')) : s' = s := by
  have hs := run_of_reads hp time s
  rwa [h] at hs

/-- After a program that only reads the store is as it was, and the other program runs if there is a result. -/
theorem Program.run_bind_of_reads {α β : Type} {p : Program α} (hp : p.Asks fun c => c.part = none) (f : α → Program β)
    (time : Time) (s : Store) :
    (∃ why, (p >>= f).run time s = (.error why, s)) ∨
      ∃ a, p.run time s = (.ok a, s) ∧ (p >>= f).run time s = (f a).run time s := by
  have hs := run_of_reads hp time s
  cases hrun : p.run time s with
  | mk result s' =>
    rw [hrun] at hs
    obtain rfl := hs
    cases result with
    | error why => exact Or.inl ⟨why, run_bind_of_error hrun f⟩
    | ok a => exact Or.inr ⟨a, rfl, run_bind_of_ok hrun f⟩

/-! ## Programs and their parts -/

section Asks

variable {allowed : Call → Prop} (hreads : ∀ c : Call, c.part = none → allowed c)

include hreads

namespace Accounts

theorem asks_authorize (username : String) (level : Access.Level) (environment : Option String) :
    (authorize username level environment).Asks allowed := by
  unfold authorize
  refine (asks_ask (hreads _ rfl)).bind ?_
  intro found
  cases found with
  | none => exact asks_pure false
  | some user => exact asks_pure _

theorem asks_require (username : String) (level : Access.Level) (environment : Option String) :
    (require username level environment).Asks allowed := by
  unfold require
  refine (asks_authorize hreads username level environment).bind ?_
  intro granted
  cases granted with
  | true => exact asks_pure ()
  | false => exact asks_refuse _

theorem asks_has (username : String) : (has username).Asks allowed := by
  refine (asks_ask (hreads _ rfl)).bind ?_
  intro _
  exact asks_pure _

omit hreads in
theorem asks_add (account : Account) (environments : List String)
    (hinsert : Text.trim account.username ≠ "" → allowed (.insertUser { account with
      username := Text.trim account.username, permissions := .uniform environments account.admin })) :
    (add account environments).Asks allowed := by
  unfold add
  apply asks_ite
  · intro _
    exact asks_refuse _
  · intro h
    exact asks_ask (hinsert h)

end Accounts

namespace Roster

theorem asks_byKey (key : String) : (byKey key).Asks allowed := by
  unfold byKey
  refine (asks_ask (hreads _ rfl)).bind ?_
  intro found
  cases found with
  | none => exact asks_refuse _
  | some node => exact asks_pure node

theorem asks_byUuid (uuid : String) : (byUuid uuid).Asks allowed := by
  unfold byUuid
  refine (asks_ask (hreads _ rfl)).bind ?_
  intro found
  cases found with
  | none => exact asks_refuse _
  | some node => exact asks_pure node

theorem asks_hasUuid (uuid : String) : (hasUuid uuid).Asks allowed := by
  unfold hasUuid finds
  refine (asks_byUuid hreads uuid).attempt.bind ?_
  intro found
  cases found with
  | ok node => exact asks_pure true
  | error why => exact asks_ite (fun _ => asks_pure false) fun _ => asks_refuse why

theorem asks_hasHost (host : String) : (hasHost host).Asks allowed := by
  refine (asks_ask (hreads _ rfl)).bind ?_
  intro _
  exact asks_pure _

theorem asks_enroll (uuid key : String) (attributes : Attributes)
    (hinsert : canonicalKey key ≠ "" → canonicalUuid uuid ≠ "" →
      allowed (.insertNode (.of uuid key attributes) (Enrollment.of uuid key attributes).seeds)) :
    (enroll uuid key attributes).Asks allowed := by
  unfold enroll
  refine asks_ite (fun _ => asks_refuse _) ?_
  intro h
  obtain ⟨hkey, huuid⟩ := not_or.mp h
  refine (asks_ask (hreads _ rfl)).bind ?_
  intro found
  cases found with
  | none => exact asks_ask (hinsert hkey huuid)
  | some node => exact asks_pure node

omit hreads in
theorem asks_noteEvent (uuid : String) (event : NodeEvent)
    (htouch : ∀ time, allowed (.touchEvent (canonicalUuid uuid) event time)) : (noteEvent uuid event).Asks allowed := by
  refine asks_now.bind ?_
  intro time
  exact asks_ask (htouch time)

theorem asks_archive (uuid trigger : String)
    (hinsert : ∀ (node : Node) (time : Time), allowed (.insertArchive (node.snapshot trigger time))) :
    (archive uuid trigger).Asks allowed := by
  refine (asks_byUuid hreads uuid).bind ?_
  intro node
  refine asks_now.bind ?_
  intro time
  exact asks_ask (hinsert node time)

theorem asks_retire (uuid : String)
    (hinsert : ∀ (node : Node) (time : Time), allowed (.insertArchive (node.snapshot deleteTrigger time)))
    (hdelete : ∀ uuid, allowed (.deleteNode uuid)) : (retire uuid).Asks allowed := by
  refine (asks_archive hreads uuid deleteTrigger hinsert).bind ?_
  intro archived
  refine (asks_ask (hdelete archived.uuid)).bind ?_
  intro _
  exact asks_pure archived

theorem asks_list (selector : Selector) (activity : Activity) (hours : Int) :
    (list selector activity hours).Asks allowed := by
  refine (asks_cutoff hours).bind ?_
  intro _
  exact asks_ask (hreads _ rfl)

theorem asks_stats (selector : Selector) (hours : Int) : (stats selector hours).Asks allowed := by
  refine (asks_cutoff hours).bind ?_
  intro _
  refine (asks_ask (hreads _ rfl)).bind ?_
  intro _
  refine (asks_ask (hreads _ rfl)).bind ?_
  intro _
  refine (asks_ask (hreads _ rfl)).bind ?_
  intro _
  exact asks_pure _

end Roster

namespace Reach

variable (settings : Settings)

theorem asks_isKnown (platforms : Option (List String)) (target : Target) :
    (isKnown settings platforms target).Asks allowed := by
  unfold isKnown
  split
  · exact asks_pure _
  · cases platforms with
    | none => exact (asks_ask (hreads _ rfl)).bind fun _ => asks_pure _
    | some names => exact (asks_pure names).bind fun _ => asks_pure _
  · refine (Roster.asks_hasUuid hreads target.value).bind ?_
    intro _
    exact asks_pure _
  · refine (Roster.asks_hasHost hreads target.value).bind ?_
    intro _
    exact asks_pure _

theorem asks_siftOnto (seen kept : List Target) (platforms : Option (List String)) (targets : List Target) :
    (siftOnto settings seen kept platforms targets).Asks allowed := by
  induction targets generalizing seen kept platforms with
  | nil => exact asks_pure kept
  | cons target rest ih =>
    unfold siftOnto
    apply asks_ite
    · intro _
      exact ih seen kept platforms
    · intro _
      refine (asks_isKnown hreads settings platforms target).bind ?_
      intro known
      exact ih _ _ known.2

theorem asks_sift (targets : List Target) : (sift settings targets).Asks allowed :=
  asks_siftOnto hreads settings [] [] none targets

theorem asks_reachedBy (hours : Int) (found : List String) (target : Target) :
    (reachedBy hours found target).Asks allowed := by
  unfold reachedBy
  split
  · refine (Roster.asks_list hreads _ _ hours).bind ?_
    intro _
    exact asks_pure _
  · refine (Roster.asks_list hreads _ _ hours).bind ?_
    intro _
    exact asks_pure _
  · refine (Roster.asks_hasUuid hreads target.value).bind ?_
    intro known
    cases known with
    | true => exact asks_pure _
    | false => exact asks_pure _
  · refine (asks_ask (hreads _ rfl)).bind ?_
    intro _
    exact asks_pure _

theorem asks_reachedByAll (hours : Int) (found : List String) (targets : List Target) :
    (reachedByAll hours found targets).Asks allowed := by
  induction targets generalizing found with
  | nil => exact asks_pure found
  | cons target rest ih => exact (asks_reachedBy hreads hours found target).bind fun found => ih found

theorem asks_count (hours : Int) (targets : List Target) : (count hours targets).Asks allowed := by
  refine (asks_reachedByAll hreads hours [] targets).bind ?_
  intro _
  exact asks_pure _

end Reach

namespace Delivery

theorem asks_pendingAmong (node : Node) (found : Dictionary String) (queries : List Query) :
    (pendingAmong node found queries).Asks allowed := by
  induction queries generalizing found with
  | nil => exact asks_pure found
  | cons query rest ih =>
    unfold pendingAmong
    refine (asks_ask (hreads _ rfl)).bind ?_
    intro targets
    apply asks_ite
    · intro _
      refine (asks_ask (hreads _ rfl)).bind ?_
      intro executed
      cases executed with
      | true => exact ih found
      | false => exact ih _
    · intro _
      exact ih found

theorem asks_pending (node : Node) : (pending node).Asks allowed := by
  unfold pending
  refine (asks_ask (hreads _ rfl)).bind ?_
  intro queries
  exact asks_pendingAmong hreads node .empty queries

theorem asks_record (name uuid : String) (result : Int)
    (hrecord : allowed (.recordExecution ⟨name, canonicalUuid uuid, result⟩)) : (record name uuid result).Asks allowed := by
  unfold record
  refine (asks_ask (hreads _ rfl)).bind ?_
  intro found
  cases found with
  | none => exact asks_refuse _
  | some query =>
    refine (asks_ask hrecord).bind ?_
    intro recorded
    cases recorded with
    | true => exact asks_pure ()
    | false => exact asks_refuse _

theorem asks_recordAll (uuid : String) (report : Report) (statuses : List (String × Int))
    (hrecord : ∀ status ∈ statuses, allowed (.recordExecution ⟨status.1, canonicalUuid uuid, status.2⟩)) :
    (recordAll uuid report statuses).Asks allowed := by
  induction statuses generalizing report with
  | nil => exact asks_pure report
  | cons status rest ih =>
    obtain ⟨hfirst, hrest⟩ := List.forall_mem_cons.mp hrecord
    unfold recordAll
    refine (asks_record hreads status.1 uuid status.2 hfirst).attempt.bind ?_
    intro outcome
    cases outcome with
    | ok _ => exact ih _ hrest
    | error why =>
      dsimp only
      split
      · exact ih _ hrest
      · exact ih _ hrest
      · exact asks_refuse why

end Delivery

namespace QueryBook

omit hreads in
theorem asks_create (draft : Query.Draft) (targets : List Target) (hinsert : allowed (.insertQueryWithTargets draft targets)) :
    (create draft targets).Asks allowed := by
  unfold create
  apply asks_ite
  · intro _
    exact asks_refuse _
  · intro _
    apply asks_ite
    · intro _
      exact asks_refuse _
    · intro _
      exact asks_ask hinsert

theorem asks_get (name : String) : (get name).Asks allowed := by
  unfold get
  refine (asks_ask (hreads _ rfl)).bind ?_
  intro found
  cases found with
  | none => exact asks_refuse _
  | some query => exact asks_pure query

end QueryBook

/-- What makes an action take a snapshot of a node. -/
def NodeAction.trigger : NodeAction → String
  | .delete => Roster.deleteTrigger
  | .archive trigger => trigger

namespace Fleet

theorem asks_enroll (settings : Settings) (uuid key : String) (attributes : Attributes)
    (hinsert : settings.hasEnvironment attributes.environment = true → canonicalKey key ≠ "" → canonicalUuid uuid ≠ "" →
      allowed (.insertNode (.of uuid key attributes) (Enrollment.of uuid key attributes).seeds)) :
    (enroll settings uuid key attributes).Asks allowed := by
  unfold enroll
  apply asks_ite
  · intro h
    exact Roster.asks_enroll hreads uuid key attributes (hinsert h)
  · intro _
    exact asks_refuse _

theorem asks_updateMetadata (key : String) (observed : Observation)
    (hobserve : ∀ uuid, allowed (.applyObservation (canonicalUuid uuid) observed))
    (htouch : ∀ uuid time, allowed (.touchEvent (canonicalUuid uuid) .status time)) :
    (updateMetadata key observed).Asks allowed := by
  unfold updateMetadata
  refine (Roster.asks_byKey hreads key).bind ?_
  intro node
  refine (asks_ask (hobserve node.uuid)).bind ?_
  intro observedNode
  refine (Roster.asks_noteEvent observedNode.uuid .status (htouch _)).bind ?_
  intro _
  exact asks_pure observedNode

theorem asks_updateAddress (key ip : String) (hobserve : ∀ uuid, allowed (.applyObservation (canonicalUuid uuid) (.address ip))) :
    (updateAddress key ip).Asks allowed := by
  unfold updateAddress
  refine (Roster.asks_byKey hreads key).bind ?_
  intro node
  exact asks_ask (hobserve node.uuid)

theorem asks_poll (key : String) (htouch : ∀ uuid time, allowed (.touchEvent (canonicalUuid uuid) .queryRead time)) :
    (poll key).Asks allowed := by
  unfold poll
  refine (Roster.asks_byKey hreads key).bind ?_
  intro node
  refine (Delivery.asks_pending hreads node).bind ?_
  intro pending
  refine (Roster.asks_noteEvent node.uuid .queryRead (htouch _)).bind ?_
  intro _
  exact asks_pure pending

theorem asks_submitResult (key name : String) (result : Int)
    (hrecord : ∀ uuid, allowed (.recordExecution ⟨name, canonicalUuid uuid, result⟩))
    (htouch : ∀ uuid time, allowed (.touchEvent (canonicalUuid uuid) .queryWrite time)) :
    (submitResult key name result).Asks allowed := by
  unfold submitResult
  refine (Roster.asks_byKey hreads key).bind ?_
  intro node
  refine (Delivery.asks_record hreads name node.uuid result (hrecord _)).bind ?_
  intro _
  exact Roster.asks_noteEvent node.uuid .queryWrite (htouch _)

theorem asks_submitResults (key : String) (statuses : Dictionary Int)
    (hrecord : ∀ uuid, ∀ status ∈ statuses.entries, allowed (.recordExecution ⟨status.1, canonicalUuid uuid, status.2⟩))
    (htouch : ∀ uuid time, allowed (.touchEvent (canonicalUuid uuid) .queryWrite time)) :
    (submitResults key statuses).Asks allowed := by
  unfold submitResults
  refine (Roster.asks_byKey hreads key).bind ?_
  intro node
  refine (Delivery.asks_recordAll hreads node.uuid .empty statuses.entries (hrecord _)).bind ?_
  intro report
  apply asks_ite
  · intro _
    exact asks_pure report
  · intro _
    refine (Roster.asks_noteEvent node.uuid .queryWrite (htouch _)).bind ?_
    intro _
    exact asks_pure report

theorem asks_launch (settings : Settings) (draft : Query.Draft) (targets : List Target)
    (hinsert : ∀ expected kept, kept ≠ [] → allowed (.insertQueryWithTargets { draft with expected := expected } kept)) :
    (launch settings draft targets).Asks allowed := by
  unfold launch
  refine asks_ite (fun _ => asks_refuse _) ?_
  intro _
  refine (Reach.asks_sift hreads settings targets).bind ?_
  intro kept
  refine asks_ite (fun _ => asks_refuse _) ?_
  intro hkept
  have hsome : kept ≠ [] := fun h => hkept (by rw [h]; rfl)
  refine (Reach.asks_count hreads settings.inactiveHours kept).bind ?_
  intro reach
  refine (asks_ofExcept _).bind ?_
  intro expected
  refine (QueryBook.asks_create { draft with expected := expected } kept (hinsert expected kept hsome)).bind ?_
  intro query
  exact asks_pure _

theorem asks_createQuery (settings : Settings) (token : QueryName.Token) (actor text : String) (targets : List Target)
    (kind : QueryKind) (hinsert : ∀ expected kept, kept ≠ [] → allowed (.insertQueryWithTargets
      { Query.Draft.ready (QueryName.query token) actor text kind with expected := expected } kept)) :
    (createQuery settings token actor text targets kind).Asks allowed := by
  unfold createQuery
  refine (Accounts.asks_require hreads actor .query none).bind ?_
  intro _
  exact asks_launch hreads settings _ targets hinsert

theorem asks_createCarve (settings : Settings) (token : QueryName.Token) (actor path : String) (targets : List Target)
    (hinsert : ∀ expected kept, kept ≠ [] → allowed (.insertQueryWithTargets
      { Query.Draft.ready (QueryName.carve token) actor (Carve.text (Text.trim path)) .carve with
        expected := expected, path := Text.trim path } kept)) :
    (createCarve settings token actor path targets).Asks allowed := by
  unfold createCarve
  refine (Accounts.asks_require hreads actor .carve none).bind ?_
  intro _
  apply asks_ite
  · intro _
    exact asks_refuse _
  · intro _
    exact asks_launch hreads settings _ targets hinsert

theorem asks_listQueries (actor : String) (listing : Listing) : (listQueries actor listing).Asks allowed := by
  unfold listQueries
  refine (Accounts.asks_require hreads actor .query none).bind ?_
  intro _
  exact asks_ask (hreads _ rfl)

theorem asks_queryAction (actor : String) (action : QueryAction) (names : List String)
    (hset : ∀ name ∈ names, allowed (.setFlags name action.flags)) : (queryAction actor action names).Asks allowed := by
  unfold queryAction
  refine (Accounts.asks_require hreads actor .query none).bind ?_
  intro _
  refine (asks_forM fun name _ => (QueryBook.asks_get hreads name).map _).bind ?_
  intro _
  exact asks_forM fun name hname => asks_ask (hset name hname)

theorem asks_actOn (action : NodeAction) (uuid : String)
    (hinsert : ∀ (node : Node) (time : Time), allowed (.insertArchive (node.snapshot action.trigger time)))
    (hdelete : action = .delete → ∀ uuid, allowed (.deleteNode uuid)) : (actOn action uuid).Asks allowed := by
  cases action with
  | delete => exact Roster.asks_retire hreads uuid hinsert (hdelete rfl)
  | archive trigger => exact Roster.asks_archive hreads uuid trigger hinsert

theorem asks_nodeAction (actor : String) (action : NodeAction) (uuids : List String)
    (hinsert : ∀ (node : Node) (time : Time), allowed (.insertArchive (node.snapshot action.trigger time)))
    (hdelete : action = .delete → ∀ uuid, allowed (.deleteNode uuid)) : (nodeAction actor action uuids).Asks allowed := by
  unfold nodeAction
  refine (Accounts.asks_require hreads actor .admin none).bind ?_
  intro _
  refine (asks_forM fun uuid _ => (Roster.asks_byUuid hreads uuid).map _).bind ?_
  intro _
  exact asks_mapM fun uuid _ => asks_actOn hreads action uuid hinsert hdelete

theorem asks_addUser (settings : Settings) (actor : String) (account : Account)
    (hinsert : Text.trim account.username ≠ "" → allowed (.insertUser { account with
      username := Text.trim account.username, permissions := .uniform settings.environments account.admin })) :
    (addUser settings actor account).Asks allowed := by
  unfold addUser
  refine (Accounts.asks_require hreads actor .admin none).bind ?_
  intro _
  exact (Accounts.asks_add account settings.environments hinsert).map _

theorem asks_setAdmin (settings : Settings) (actor username : String) (admin : Bool)
    (hset : allowed (.setAdmin username admin (.uniform settings.environments admin))) :
    (setAdmin settings actor username admin).Asks allowed := by
  unfold setAdmin
  refine (Accounts.asks_require hreads actor .admin none).bind ?_
  intro _
  exact asks_ask hset

theorem asks_setPermissions (actor username : String) (permissions : Permissions)
    (hset : allowed (.setPermissions username permissions)) : (setPermissions actor username permissions).Asks allowed := by
  unfold setPermissions
  refine (Accounts.asks_require hreads actor .admin none).bind ?_
  intro _
  exact asks_ask hset

theorem asks_nodeStats (settings : Settings) (actor environment : String) :
    (nodeStats settings actor environment).Asks allowed := by
  unfold nodeStats
  refine (Accounts.asks_require hreads actor .environment (some environment)).bind ?_
  intro _
  exact Roster.asks_stats hreads (.environment environment) settings.inactiveHours

theorem asks_ensureAdmin (settings : Settings) (username : String)
    (hinsert : Text.trim username ≠ "" → allowed (.insertUser { Account.blank with
      username := Text.trim username, admin := true, permissions := .uniform settings.environments true })) :
    (ensureAdmin settings username).Asks allowed := by
  unfold ensureAdmin
  refine (Accounts.asks_has hreads username).bind ?_
  intro known
  cases known with
  | true => exact asks_pure _
  | false =>
    have hadd := Accounts.asks_add { Account.blank with username := username, admin := true } settings.environments hinsert
    refine hadd.attempt.bind ?_
    intro made
    cases made with
    | ok user => exact asks_pure _
    | error why => exact asks_ite (fun _ => asks_pure _) fun _ => asks_refuse _

end Fleet

end Asks

/-! ## Operations -/

namespace Operation

variable (settings : Settings)

/-- The calls that an operation may make besides those that only read. -/
def Writes (c : Call) : Operation → Prop
  | .enroll uuid key attributes =>
    (settings.hasEnvironment attributes.environment = true ∧ canonicalKey key ≠ "" ∧ canonicalUuid uuid ≠ "") ∧
      c = .insertNode (.of uuid key attributes) (Enrollment.of uuid key attributes).seeds
  | .updateMetadata _ observed =>
    (∃ uuid, c = .applyObservation (canonicalUuid uuid) observed) ∨ ∃ uuid time, c = .touchEvent (canonicalUuid uuid) .status time
  | .updateAddress _ ip => ∃ uuid, c = .applyObservation (canonicalUuid uuid) (.address ip)
  | .poll _ => ∃ uuid time, c = .touchEvent (canonicalUuid uuid) .queryRead time
  | .submitResult _ name result =>
    (∃ uuid, c = .recordExecution ⟨name, canonicalUuid uuid, result⟩) ∨
      ∃ uuid time, c = .touchEvent (canonicalUuid uuid) .queryWrite time
  | .submitResults _ statuses =>
    (∃ uuid, ∃ status ∈ statuses.entries, c = .recordExecution ⟨status.1, canonicalUuid uuid, status.2⟩) ∨
      ∃ uuid time, c = .touchEvent (canonicalUuid uuid) .queryWrite time
  | .createQuery token actor text _ kind =>
    ∃ expected kept, kept ≠ [] ∧
      c = .insertQueryWithTargets { Query.Draft.ready (QueryName.query token) actor text kind with expected := expected } kept
  | .createCarve token actor path _ =>
    ∃ expected kept, kept ≠ [] ∧
      c = .insertQueryWithTargets
        { Query.Draft.ready (QueryName.carve token) actor (Carve.text (Text.trim path)) .carve with
          expected := expected, path := Text.trim path } kept
  | .queryAction _ action names => ∃ name ∈ names, c = .setFlags name action.flags
  | .nodeAction _ action _ =>
    (∃ (node : Node) (time : Time), c = .insertArchive (node.snapshot action.trigger time)) ∨
      action = .delete ∧ ∃ uuid, c = .deleteNode uuid
  | .addUser _ account =>
    Text.trim account.username ≠ "" ∧
      c = .insertUser { account with
        username := Text.trim account.username, permissions := .uniform settings.environments account.admin }
  | .setAdmin _ username admin => c = .setAdmin username admin (.uniform settings.environments admin)
  | .setPermissions _ username permissions => c = .setPermissions username permissions
  | .ensureAdmin username =>
    Text.trim username ≠ "" ∧
      c = .insertUser { Account.blank with
        username := Text.trim username, admin := true, permissions := .uniform settings.environments true }
  | .authorize _ _ _ | .listQueries _ _ | .nodeStats _ _ => False

/-- The calls that an operation may make. -/
def Makes (op : Operation) (c : Call) : Prop := c.part = none ∨ op.Writes settings c

/-- An operation makes no other calls than it may. -/
theorem asks_makes (op : Operation) : (op.program settings).Asks (op.Makes settings) := by
  have hreads : ∀ c : Call, c.part = none → op.Makes settings c := fun c => Or.inl
  cases op with
  | enroll uuid key attributes =>
    refine (Fleet.asks_enroll hreads settings uuid key attributes ?_).map _
    intro henvironment hkey huuid
    exact Or.inr ⟨⟨henvironment, hkey, huuid⟩, rfl⟩
  | updateMetadata key observed =>
    refine (Fleet.asks_updateMetadata hreads key observed ?_ ?_).map _
    · intro uuid
      exact Or.inr (Or.inl ⟨uuid, rfl⟩)
    · intro uuid time
      exact Or.inr (Or.inr ⟨uuid, time, rfl⟩)
  | updateAddress key ip =>
    refine (Fleet.asks_updateAddress hreads key ip ?_).map _
    intro uuid
    exact Or.inr ⟨uuid, rfl⟩
  | poll key =>
    refine (Fleet.asks_poll hreads key ?_).map _
    intro uuid time
    exact Or.inr ⟨uuid, time, rfl⟩
  | submitResult key name result =>
    refine (Fleet.asks_submitResult hreads key name result ?_ ?_).map _
    · intro uuid
      exact Or.inr (Or.inl ⟨uuid, rfl⟩)
    · intro uuid time
      exact Or.inr (Or.inr ⟨uuid, time, rfl⟩)
  | submitResults key statuses =>
    refine (Fleet.asks_submitResults hreads key statuses ?_ ?_).map _
    · intro uuid status hstatus
      exact Or.inr (Or.inl ⟨uuid, status, hstatus, rfl⟩)
    · intro uuid time
      exact Or.inr (Or.inr ⟨uuid, time, rfl⟩)
  | authorize actor level environment => exact (Accounts.asks_authorize hreads actor level environment).map _
  | createQuery token actor text targets kind =>
    refine (Fleet.asks_createQuery hreads settings token actor text targets kind ?_).map _
    intro expected kept hkept
    exact Or.inr ⟨expected, kept, hkept, rfl⟩
  | createCarve token actor path targets =>
    refine (Fleet.asks_createCarve hreads settings token actor path targets ?_).map _
    intro expected kept hkept
    exact Or.inr ⟨expected, kept, hkept, rfl⟩
  | listQueries actor listing => exact (Fleet.asks_listQueries hreads actor listing).map _
  | queryAction actor action names =>
    refine (Fleet.asks_queryAction hreads actor action names ?_).map _
    intro name hname
    exact Or.inr ⟨name, hname, rfl⟩
  | nodeAction actor action uuids =>
    refine (Fleet.asks_nodeAction hreads actor action uuids ?_ ?_).map _
    · intro node time
      exact Or.inr (Or.inl ⟨node, time, rfl⟩)
    · intro hdelete uuid
      exact Or.inr (Or.inr ⟨hdelete, uuid, rfl⟩)
  | addUser actor account =>
    refine (Fleet.asks_addUser hreads settings actor account ?_).map _
    intro husername
    exact Or.inr ⟨husername, rfl⟩
  | setAdmin actor username admin =>
    exact (Fleet.asks_setAdmin hreads settings actor username admin (.inr rfl)).map _
  | setPermissions actor username permissions =>
    exact (Fleet.asks_setPermissions hreads actor username permissions (.inr rfl)).map _
  | nodeStats actor environment => exact (Fleet.asks_nodeStats hreads settings actor environment).map _
  | ensureAdmin username =>
    refine (Fleet.asks_ensureAdmin hreads settings username ?_).map _
    intro husername
    exact Or.inr ⟨husername, rfl⟩

end Operation

/-- The calls that operations make: those that only read, and those that write what operations write, with identities in
canonical form and grants, flags and drafts of the forms that operations give them. -/
inductive Call.Proper (settings : Settings) : Call → Prop where
  | reads {c : Call} (h : c.part = none) : c.Proper settings
  | insertNode (e : Enrollment) (hkey : ∃ key, e.key = canonicalKey key) (hkeyed : e.key ≠ "")
      (huuid : canonicalUuid e.uuid = e.uuid) (huuided : e.uuid ≠ "")
      (henvironment : settings.hasEnvironment e.attributes.environment = true) :
      (Call.insertNode e e.seeds).Proper settings
  | applyObservation (uuid : String) (observed : Observation) (huuid : canonicalUuid uuid = uuid) :
      (Call.applyObservation uuid observed).Proper settings
  | touchEvent (uuid : String) (event : NodeEvent) (time : Time) (huuid : canonicalUuid uuid = uuid) :
      (Call.touchEvent uuid event time).Proper settings
  | insertArchive (snapshot : Snapshot) : (Call.insertArchive snapshot).Proper settings
  | deleteNode (uuid : String) : (Call.deleteNode uuid).Proper settings
  | launch (draft : Query.Draft) (targets : List Target) (htargets : targets ≠ []) (hactive : draft.active = true)
      (hcompleted : draft.completed = false) (hdeleted : draft.deleted = false) :
      (Call.insertQueryWithTargets draft targets).Proper settings
  | setFlags (name : String) (action : QueryAction) : (Call.setFlags name action.flags).Proper settings
  | recordExecution (e : Execution.Draft) (huuid : canonicalUuid e.uuid = e.uuid) :
      (Call.recordExecution e).Proper settings
  | insertUser (account : Account) (husername : Text.trim account.username = account.username) (hnamed : account.username ≠ "")
      (hpermissions : account.permissions = .uniform settings.environments account.admin) :
      (Call.insertUser account).Proper settings
  | setAdmin (username : String) (admin : Bool) :
      (Call.setAdmin username admin (.uniform settings.environments admin)).Proper settings
  | setPermissions (username : String) (permissions : Permissions) :
      (Call.setPermissions username permissions).Proper settings

/-- Operations make proper calls only. -/
theorem Operation.proper_of_makes {settings : Settings} {op : Operation} {c : Call} (h : op.Makes settings c) :
    c.Proper settings := by
  rcases h with hreads | hwrites
  · exact .reads hreads
  · cases op with
    | enroll uuid key attributes =>
      obtain ⟨⟨henvironment, hkey, huuid⟩, rfl⟩ := hwrites
      exact .insertNode (.of uuid key attributes) ⟨key, rfl⟩ hkey (canonicalUuid_canonicalUuid uuid) huuid henvironment
    | updateMetadata key observed =>
      rcases hwrites with ⟨uuid, rfl⟩ | ⟨uuid, time, rfl⟩
      · exact .applyObservation _ observed (canonicalUuid_canonicalUuid uuid)
      · exact .touchEvent _ .status time (canonicalUuid_canonicalUuid uuid)
    | updateAddress key ip =>
      obtain ⟨uuid, rfl⟩ := hwrites
      exact .applyObservation _ (.address ip) (canonicalUuid_canonicalUuid uuid)
    | poll key =>
      obtain ⟨uuid, time, rfl⟩ := hwrites
      exact .touchEvent _ .queryRead time (canonicalUuid_canonicalUuid uuid)
    | submitResult key name result =>
      rcases hwrites with ⟨uuid, rfl⟩ | ⟨uuid, time, rfl⟩
      · exact .recordExecution _ (canonicalUuid_canonicalUuid uuid)
      · exact .touchEvent _ .queryWrite time (canonicalUuid_canonicalUuid uuid)
    | submitResults key statuses =>
      rcases hwrites with ⟨uuid, status, -, rfl⟩ | ⟨uuid, time, rfl⟩
      · exact .recordExecution _ (canonicalUuid_canonicalUuid uuid)
      · exact .touchEvent _ .queryWrite time (canonicalUuid_canonicalUuid uuid)
    | createQuery token actor text targets kind =>
      obtain ⟨expected, kept, hkept, rfl⟩ := hwrites
      exact .launch _ kept hkept rfl rfl rfl
    | createCarve token actor path targets =>
      obtain ⟨expected, kept, hkept, rfl⟩ := hwrites
      exact .launch _ kept hkept rfl rfl rfl
    | queryAction actor action names =>
      obtain ⟨name, -, rfl⟩ := hwrites
      exact .setFlags name action
    | nodeAction actor action uuids =>
      rcases hwrites with ⟨node, time, rfl⟩ | ⟨-, uuid, rfl⟩
      · exact .insertArchive _
      · exact .deleteNode uuid
    | addUser actor account =>
      obtain ⟨husername, rfl⟩ := hwrites
      exact .insertUser _ (Text.trim_trim account.username) husername rfl
    | setAdmin actor username admin =>
      obtain rfl := hwrites
      exact .setAdmin username admin
    | setPermissions actor username permissions =>
      obtain rfl := hwrites
      exact .setPermissions username permissions
    | ensureAdmin username =>
      obtain ⟨husername, rfl⟩ := hwrites
      exact .insertUser _ (Text.trim_trim username) husername rfl
    | authorize actor level environment => exact hwrites.elim
    | listQueries actor listing => exact hwrites.elim
    | nodeStats actor environment => exact hwrites.elim

theorem Operation.asks_proper (settings : Settings) (op : Operation) : (op.program settings).Asks (Call.Proper settings) := by
  refine (op.asks_makes settings).mono ?_
  intro c hc
  exact proper_of_makes hc

end FleetControl
