import FleetControl.Proofs.Requests
import FleetControl.Proofs.Runs

/-!
# Who launches what

A program of an administrator goes on only where the actor passes the check (`Accounts.run_require`). A launch is refused, and
then nothing is written, or it inserts one query with its targets (`Fleet.run_launch`). So a carve is stored by just two kinds of
steps, which differ in the check that their actor passes: a carve that was launched takes the access of carves, a query that was
launched with the kind of carves only that of queries (`Operation.gains_carve_iff`).
-/

namespace FleetControl

open Access (Level)
open Program (run_bind_of_ok run_bind_of_error run_ask_of_ok run_ask_of_error of_run_map_eq_ok)

/-! ## Checks -/

/-- The store has a user of this name who passes the check. -/
def Store.Permits (s : Store) (username : String) (level : Level) (environment : Option String) : Prop :=
  ∃ user, s.getUser username = some user ∧ user.allows level environment = true

theorem Store.permits_iff {s : Store} {username : String} {level : Level} {environment : Option String} :
    s.Permits username level environment ↔ (s.getUser username).any (·.allows level environment) = true := by
  unfold Permits
  cases s.getUser username <;> simp

instance (s : Store) (username : String) (level : Level) (environment : Option String) :
    Decidable (s.Permits username level environment) :=
  decidable_of_iff' _ Store.permits_iff

namespace Accounts

variable (time : Time) {s : Store} {username : String} {level : Level} {environment : Option String}

/-- A check changes nothing. -/
theorem run_authorize :
    (authorize username level environment).run time s = (.ok ((s.getUser username).any (·.allows level environment)), s) := by
  unfold authorize
  rw [run_bind_of_ok (run_ask_of_ok rfl)]
  cases s.getUser username <;> rfl

/-- To ask whether there is a user changes nothing. -/
theorem run_has : (has username).run time s = (.ok (s.getUser username).isSome, s) := run_bind_of_ok (run_ask_of_ok rfl) _

/-- An actor who passes the check goes on. -/
theorem run_require_of_permits (h : s.Permits username level environment) :
    (require username level environment).run time s = (.ok (), s) := by
  unfold require
  rw [run_bind_of_ok (run_authorize time), Store.permits_iff.mp h]
  rfl

/-- Any other actor is refused. -/
theorem run_require_of_not_permits (h : ¬s.Permits username level environment) :
    (require username level environment).run time s = (.error (.refused (.lacksAccess username level environment)), s) := by
  unfold require
  have hany : (s.getUser username).any (·.allows level environment) = false := by
    apply Bool.eq_false_iff.mpr
    intro hany
    exact h (Store.permits_iff.mpr hany)
  rw [run_bind_of_ok (run_authorize time), hany]
  rfl

end Accounts

/-! ## Launches -/

/-- Among the later queries there is one of the kind and of a name that no query had. -/
def Store.Gains (s s' : Store) (kind : QueryKind) : Prop := ∃ q ∈ s'.queries, q.name ∉ s.queryNames ∧ q.kind = kind

instance (s s' : Store) (kind : QueryKind) : Decidable (s.Gains s' kind) :=
  inferInstanceAs (Decidable (∃ q ∈ s'.queries, q.name ∉ s.queryNames ∧ q.kind = kind))

theorem Store.not_gains_of_queryNames_eq {s s' : Store} (h : s'.queryNames = s.queryNames) (kind : QueryKind) :
    ¬s.Gains s' kind := by
  rintro ⟨q, hq, hnew, -⟩
  exact hnew (h ▸ s'.mem_queryNames.mpr ⟨q, hq, rfl⟩)

/-- What is gained by a launch is the query launched. -/
theorem Store.gains_after_launch {s : Store} (draft : Query.Draft) (hfree : draft.name ∉ s.queryNames) (kept : List Target)
    (time : Time) (kind : QueryKind) :
    s.Gains ((Call.insertQueryWithTargets draft kept).after time s) kind ↔ draft.kind = kind := by
  have hnone : s.queries.any (·.name == draft.name) = false := by simpa [queryNames] using hfree
  rw [Call.after_insertQueryWithTargets, if_neg (by rw [hnone]; exact Bool.false_ne_true)]
  constructor
  · rintro ⟨q, hq, hnew, hkind⟩
    rcases List.mem_append.mp hq with hq | hq
    · exact absurd (s.mem_queryNames.mpr ⟨q, hq, rfl⟩) hnew
    · rw [← hkind, List.mem_singleton.mp hq]
      rfl
  · intro hkind
    exact ⟨s.newQuery time draft, List.mem_append_right _ List.mem_cons_self, hfree, hkind⟩

/-- A query is written down under a new name, or refused, and then nothing is written. -/
theorem QueryBook.run_create (draft : Query.Draft) (targets : List Target) (time : Time) (s : Store) :
    (∃ why, (create draft targets).run time s = (.error why, s)) ∨
      draft.name ∉ s.queryNames ∧ (create draft targets).run time s =
        (.ok (s.newQuery time draft), (Call.insertQueryWithTargets draft targets).after time s) := by
  unfold create
  by_cases hflags : (draft.active && draft.completed) = true
  · rw [if_pos hflags]
    exact Or.inl ⟨_, rfl⟩
  · rw [if_neg hflags]
    by_cases hblank : (Text.isBlankText draft.name || Text.isBlankText draft.text) = true
    · rw [if_pos hblank]
      exact Or.inl ⟨_, rfl⟩
    · rw [if_neg hblank]
      by_cases hname : draft.name ∈ s.queryNames
      · have htaken : s.queries.any (·.name == draft.name) = true := by simpa [Store.queryNames] using hname
        have htwice : (Call.insertQueryWithTargets draft targets).exec time s = .error (.queryExists draft.name) := by
          rw [Call.exec, Store.insertQuery, if_pos htaken]
        exact Or.inl ⟨_, run_ask_of_error htwice⟩
      · have hfree : s.queries.any (·.name == draft.name) = false := by simpa [Store.queryNames] using hname
        refine Or.inr ⟨hname, run_ask_of_ok ?_⟩
        rw [Call.after_insertQueryWithTargets, Call.exec, Store.insertQuery, hfree]
        rfl

/-- A launch inserts the query under a new name, or it is refused, and then nothing is written. -/
theorem Fleet.run_launch (settings : Settings) (draft : Query.Draft) (targets : List Target) (time : Time) (s : Store) :
    (∃ why, (launch settings draft targets).run time s = (.error why, s)) ∨
      ∃ expected kept reach, draft.name ∉ s.queryNames ∧ (launch settings draft targets).run time s =
        (.ok ⟨draft.name, reach⟩, (Call.insertQueryWithTargets { draft with expected := expected } kept).after time s) := by
  have hreads : ∀ c : Call, c.part = none → c.part = none := fun _ => id
  unfold launch
  by_cases htargets : targets.isEmpty = true
  · rw [if_pos htargets]
    exact Or.inl ⟨_, rfl⟩
  · rw [if_neg htargets]
    rcases Program.run_bind_of_reads (Reach.asks_sift hreads settings targets) _ time s with h | ⟨kept, -, hsift⟩
    · exact Or.inl h
    · rw [hsift]
      by_cases hkept : kept.isEmpty = true
      · rw [if_pos hkept]
        exact Or.inl ⟨_, rfl⟩
      · rw [if_neg hkept]
        rcases Program.run_bind_of_reads (Reach.asks_count hreads settings.inactiveHours kept) _ time s with
          h | ⟨reach, -, hcount⟩
        · exact Or.inl h
        · rw [hcount]
          rcases Program.run_bind_of_reads (Program.asks_ofExcept (QueryBook.storedCount reach)) _ time s with
            h | ⟨expected, -, hexpected⟩
          · exact Or.inl h
          · rw [hexpected]
            rcases QueryBook.run_create { draft with expected := expected } kept time s with ⟨why, h⟩ | ⟨hfree, h⟩
            · exact Or.inl ⟨why, run_bind_of_error h _⟩
            · exact Or.inr ⟨expected, kept, reach, hfree, run_bind_of_ok h _⟩

/-- A launch gains a query of its kind, unless it is refused. -/
theorem Fleet.gains_launch_iff (settings : Settings) (draft : Query.Draft) (targets : List Target) (time : Time) (s : Store)
    (kind : QueryKind) :
    s.Gains ((launch settings draft targets).run time s).2 kind ↔
      draft.kind = kind ∧ ∃ handle, ((launch settings draft targets).run time s).1 = .ok handle := by
  rcases run_launch settings draft targets time s with ⟨why, h⟩ | ⟨expected, kept, reach, hfree, h⟩
  · rw [h]
    constructor
    · intro hgains
      exact absurd hgains (Store.not_gains_of_queryNames_eq rfl kind)
    · rintro ⟨-, handle, hok⟩
      cases hok
  · have hgains := Store.gains_after_launch { draft with expected := expected } hfree kept time kind
    rw [h, hgains]
    constructor
    · intro hkind
      exact ⟨hkind, _, rfl⟩
    · rintro ⟨hkind, -⟩
      exact hkind

/-- A query is gained by one who may launch queries, of whatever kind is asked for. -/
theorem Fleet.gains_createQuery_iff (settings : Settings) (token : QueryName.Token) (actor text : String)
    (targets : List Target) (asked kind : QueryKind) (time : Time) (s : Store) :
    s.Gains ((createQuery settings token actor text targets asked).run time s).2 kind ↔
      asked = kind ∧ s.Permits actor .query none ∧
        ∃ handle, ((createQuery settings token actor text targets asked).run time s).1 = .ok handle := by
  unfold createQuery
  by_cases hpermits : s.Permits actor .query none
  · rw [run_bind_of_ok (Accounts.run_require_of_permits time hpermits), gains_launch_iff]
    constructor
    · rintro ⟨hkind, hok⟩
      exact ⟨hkind, hpermits, hok⟩
    · rintro ⟨hkind, -, hok⟩
      exact ⟨hkind, hok⟩
  · rw [run_bind_of_error (Accounts.run_require_of_not_permits time hpermits)]
    constructor
    · intro hgains
      exact absurd hgains (Store.not_gains_of_queryNames_eq rfl kind)
    · rintro ⟨-, hpermits', -⟩
      exact absurd hpermits' hpermits

/-- A carve is gained by one who may launch carves. -/
theorem Fleet.gains_createCarve_iff (settings : Settings) (token : QueryName.Token) (actor path : String)
    (targets : List Target) (kind : QueryKind) (time : Time) (s : Store) :
    s.Gains ((createCarve settings token actor path targets).run time s).2 kind ↔
      .carve = kind ∧ s.Permits actor .carve none ∧
        ∃ handle, ((createCarve settings token actor path targets).run time s).1 = .ok handle := by
  unfold createCarve
  by_cases hpermits : s.Permits actor .carve none
  · rw [run_bind_of_ok (Accounts.run_require_of_permits time hpermits)]
    dsimp only
    by_cases hpath : Text.trim path = ""
    · rw [if_pos hpath]
      constructor
      · intro hgains
        exact absurd hgains (Store.not_gains_of_queryNames_eq rfl kind)
      · rintro ⟨-, -, handle, hok⟩
        cases hok
    · rw [if_neg hpath, gains_launch_iff]
      constructor
      · rintro ⟨hkind, hok⟩
        exact ⟨hkind, hpermits, hok⟩
      · rintro ⟨hkind, -, hok⟩
        exact ⟨hkind, hok⟩
  · rw [run_bind_of_error (Accounts.run_require_of_not_permits time hpermits)]
    constructor
    · intro hgains
      exact absurd hgains (Store.not_gains_of_queryNames_eq rfl kind)
    · rintro ⟨-, hpermits', -⟩
      exact absurd hpermits' hpermits

/-! ## Operations that gain a query -/

namespace Operation

variable (settings : Settings) (time : Time) (s : Store)

/-- The operation launches a query of the kind, and its actor passes the check that it makes. -/
def Launches (s : Store) (kind : QueryKind) : Operation → Prop
  | .createQuery _ actor _ _ asked => asked = kind ∧ s.Permits actor .query none
  | .createCarve _ actor _ _ => .carve = kind ∧ s.Permits actor .carve none
  | _ => False

/-- An operation that inserts no query leaves the names of the queries. -/
theorem queryNames_run {op : Operation} (h : ∀ c, op.Makes settings c → c.draft? = none) :
    (op.run settings time s).2.queryNames = s.queryNames := by
  refine Program.run_preserves (P := fun s' => s'.queryNames = s.queryNames) ?_ (op.asks_makes settings) rfl
  intro c hc s' hs'
  rcases Call.queryNames_cases s' time c with hsame | ⟨draft, hdraft, -, -⟩
  · exact hsame.trans hs'
  · rw [h c hc] at hdraft
    cases hdraft

/-- A call that only reads inserts no query. -/
theorem draft?_of_reads {c : Call} (h : c.part = none) : c.draft? = none := by
  cases c <;> first | rfl | cases h

/-- The operation launches a query or a carve. -/
def isLaunch : Operation → Bool
  | .createQuery _ _ _ _ _ | .createCarve _ _ _ _ => true
  | _ => false

/-- The operations other than launches insert no query. -/
theorem draft?_of_makes {op : Operation} {c : Call} (h : op.Makes settings c) (hlaunch : op.isLaunch = false) :
    c.draft? = none := by
  rcases h with hreads | hwrites
  · exact draft?_of_reads hreads
  · cases op with
    | createQuery | createCarve => cases hlaunch
    | enroll | addUser | ensureAdmin =>
      obtain ⟨-, rfl⟩ := hwrites
      rfl
    | setAdmin | setPermissions =>
      obtain rfl := hwrites
      rfl
    | updateAddress =>
      obtain ⟨_, rfl⟩ := hwrites
      rfl
    | poll =>
      obtain ⟨_, _, rfl⟩ := hwrites
      rfl
    | queryAction =>
      obtain ⟨_, -, rfl⟩ := hwrites
      rfl
    | updateMetadata | submitResult => rcases hwrites with ⟨_, rfl⟩ | ⟨_, _, rfl⟩ <;> rfl
    | submitResults => rcases hwrites with ⟨_, _, -, rfl⟩ | ⟨_, _, rfl⟩ <;> rfl
    | nodeAction => rcases hwrites with ⟨_, _, rfl⟩ | ⟨-, _, rfl⟩ <;> rfl
    | authorize | listQueries | nodeStats => exact hwrites.elim

theorem not_gains_of_not_launch {op : Operation} (hlaunch : op.isLaunch = false) (kind : QueryKind) :
    ¬s.Gains (op.run settings time s).2 kind := by
  apply Store.not_gains_of_queryNames_eq
  apply queryNames_run
  intro c hc
  exact draft?_of_makes settings hc hlaunch

/-- A query of a kind is gained by the launches of that kind that are not refused, and by nothing else. -/
theorem gains_iff (op : Operation) (kind : QueryKind) :
    s.Gains (op.run settings time s).2 kind ↔
      op.Launches s kind ∧ ∃ handle, (op.run settings time s).1 = .ok (.handle handle) := by
  have hhandle : ∀ result : Except Stop Handle,
      (∃ handle, result.map Answer.handle = .ok (.handle handle)) ↔ ∃ handle, result = .ok handle := by
    intro result
    cases result with
    | error why =>
      constructor <;>
      · rintro ⟨handle, h⟩
        cases h
    | ok handle =>
      constructor <;>
      · intro _
        exact ⟨handle, rfl⟩
  cases op with
  | createQuery token actor text targets asked =>
    simp only [run, program, Program.run_map, hhandle, Fleet.gains_createQuery_iff, Launches, and_assoc]
  | createCarve token actor path targets =>
    simp only [run, program, Program.run_map, hhandle, Fleet.gains_createCarve_iff, Launches, and_assoc]
  | _ =>
    constructor
    · intro hgains
      exact absurd hgains (not_gains_of_not_launch settings time s rfl kind)
    · rintro ⟨hlaunches, -⟩
      exact hlaunches.elim

/-- The operation launches a query of the kind of carves, its actor may launch queries and no carves, and it is not refused. -/
def CarvesAsQuery (op : Operation) : Prop :=
  ∃ token actor text targets, op = .createQuery token actor text targets .carve ∧
    (s.Permits actor .query none ∧ ¬s.Permits actor .carve none) ∧
      ∃ handle, (op.run settings time s).1 = .ok (.handle handle)

/-- The operations that store a carve without the access of carves are the launches of a query of that kind. -/
theorem gains_carve_without_access_iff (op : Operation) :
    (s.Gains (op.run settings time s).2 .carve ∧ ¬∃ actor, op.actor? = some actor ∧ s.Permits actor .carve none) ↔
      op.CarvesAsQuery settings time s := by
  rw [gains_iff]
  constructor
  · rintro ⟨⟨hlaunches, hok⟩, hdenied⟩
    cases op with
    | createQuery token actor text targets kind =>
      obtain ⟨rfl, hquery⟩ := hlaunches
      have hcarve : ¬s.Permits actor .carve none := by
        intro hcarve
        exact hdenied ⟨actor, rfl, hcarve⟩
      exact ⟨token, actor, text, targets, rfl, ⟨hquery, hcarve⟩, hok⟩
    | createCarve token actor path targets => exact absurd ⟨actor, rfl, hlaunches.2⟩ hdenied
    | _ => exact hlaunches.elim
  · rintro ⟨token, actor, text, targets, rfl, ⟨hquery, hcarve⟩, hok⟩
    refine ⟨⟨⟨rfl, hquery⟩, hok⟩, ?_⟩
    rintro ⟨actor', hactor, hpermits⟩
    cases hactor
    exact hcarve hpermits

end Operation

/-- A carve is stored without the access of carves by exactly these steps: an operation that launches a query of the kind of
carves for an actor who may launch queries and no carves, and that is not refused, and a request that asks such an operation. -/
theorem Operation.carve_gate_iff (settings : Settings) (time : Time) (s : Store) :
    (∀ op : Operation,
      (s.Gains (op.run settings time s).2 .carve ∧
        ¬∃ actor, op.actor? = some actor ∧ s.Permits actor .carve none) ↔ op.CarvesAsQuery settings time s) ∧
    ∀ (token : QueryName.Token) (r : Http.Request),
      (s.Gains ((Http.serve settings token r).run time s).2 .carve ∧
        ¬∃ actor, Http.actor settings r = .ok actor ∧ s.Permits actor .carve none) ↔
      ∃ op tell, Http.asked settings token r = .ok (op, tell) ∧ op.CarvesAsQuery settings time s := by
  refine ⟨gains_carve_without_access_iff settings time s, ?_⟩
  intro token r
  cases hasked : Http.asked settings token r with
  | error response =>
    rw [Http.run_serve_of_error hasked]
    constructor
    · rintro ⟨hgains, -⟩
      exact absurd hgains (Store.not_gains_of_queryNames_eq rfl .carve)
    · rintro ⟨op, tell, h, -⟩
      cases h
  | ok asked =>
    obtain ⟨op, tell⟩ := asked
    rw [Http.run_serve_of_asked hasked]
    constructor
    · rintro ⟨hgains, hdenied⟩
      refine ⟨op, tell, rfl, (gains_carve_without_access_iff settings time s op).mp ⟨hgains, ?_⟩⟩
      rintro ⟨actor, hactor, hpermits⟩
      exact hdenied ⟨actor, Http.actor_of_asked hasked hactor, hpermits⟩
    · rintro ⟨_, _, heq, hcarves⟩
      cases heq
      refine ⟨((gains_carve_without_access_iff settings time s op).mpr hcarves).1, ?_⟩
      obtain ⟨token', actor, text, targets, rfl, ⟨-, hcarve⟩, -⟩ := hcarves
      rintro ⟨actor', hactor', hpermits⟩
      rw [Http.actor_of_asked hasked rfl] at hactor'
      cases hactor'
      exact hcarve hpermits

/-- A user who may launch queries and no carves stores a carve. -/
theorem Operation.carve_gate_passed_without_access :
    let settings : Settings := .embedded ["prod"]
    let s := replay settings .empty [(0, .ensureAdmin "root"),
      (1, .addUser "root" { Access.Account.blank with username := "bob" }),
      (2, .setPermissions "root" "bob" ⟨.empty, true, false⟩)]
    Reachable settings s ∧ (s.Permits "bob" .query none ∧ ¬s.Permits "bob" .carve none) ∧
      s.Gains ((Operation.createQuery 7 "bob" "SELECT 1;" [⟨.environment, "prod"⟩] .carve).run settings 3 s).2 .carve := by
  intro settings s
  exact ⟨reachable_empty.replay _, by decide +kernel, by decide +kernel⟩

end FleetControl
