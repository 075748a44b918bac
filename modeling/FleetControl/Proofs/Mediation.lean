import FleetControl.Proofs.Lifecycle

/-!
# Who may change what

Every operation of an administrator checks its actor before it writes. So the calls that it makes, whatever else goes on, are calls
that its actor may ask for as long as the users stay as they are (`Operation.under`), and without an administrator the users do stay
so. What a table loses or gains tells what its actor holds (`Operation.mediation`): users, archive and live nodes take an
administrator, and queries one who may launch or act on them; nodes write what they report and nothing else; and no operation
changes what a stored query asks, or whom.
-/

namespace FleetControl

open Access (Level User)

/-! ## Programs that see the users of a store -/

/-- Of a call that looks a user up the reply tells the users of the store. -/
def Call.Told (s : Store) : (c : Call) → Except Refusal c.Reply → Prop
  | .getUser username, reply => reply = .ok (s.getUser username)
  | _, _ => True

/-- A store with the same users tells them. -/
theorem Store.told_serve {s t : Store} (h : t.users = s.users) (time : Time) (c : Call) : c.Told s (t.serve time c).1 := by
  cases c with
  | getUser username =>
    change Except.ok (t.getUser username) = Except.ok (s.getUser username)
    rw [getUser, getUser, h]
  | _ => trivial

namespace Program

variable {α β : Type}

/-- While the users are those of the store, every call that the program may make is one of those allowed, and its result is as
required. -/
inductive Under (s : Store) (allowed : Call → Prop) (required : α → Prop) : Program α → Prop where
  | done (a : α) (h : required a) : Under s allowed required (.done a)
  | stop (why : Stop) : Under s allowed required (.stop why)
  | clock {next : Time → Program α} (h : ∀ now, Under s allowed required (next now)) : Under s allowed required (.clock next)
  | call {c : Call} {next : Except Refusal c.Reply → Program α} (hc : allowed c)
      (h : ∀ reply, c.Told s reply → Under s allowed required (next reply)) : Under s allowed required (.call c next)

variable {s : Store} {allowed : Call → Prop} {required : α → Prop}

/-- What a program asks anyhow, it asks while the users are those of the store. -/
theorem Asks.under {p : Program α} (hp : p.Asks allowed) : p.Under s allowed fun _ => True := by
  induction hp with
  | done a => exact .done a trivial
  | stop why => exact .stop why
  | clock _ ih => exact .clock ih
  | call hc _ ih => exact .call hc fun reply _ => ih reply

/-- One program after another, of which the other relies on what is required of the result of the first. -/
theorem Under.bind {p : Program α} {f : α → Program β} {required' : β → Prop} (hp : p.Under s allowed required)
    (hf : ∀ a, required a → (f a).Under s allowed required') : (p >>= f).Under s allowed required' := by
  induction hp with
  | done a h => exact hf a h
  | stop why => exact .stop why
  | clock _ ih => exact .clock ih
  | call hc _ ih => exact .call hc ih

theorem Under.mono {p : Program α} {more : Call → Prop} (hp : p.Under s allowed required) (h : ∀ c, allowed c → more c) :
    p.Under s more fun _ => True := by
  induction hp with
  | done a _ => exact .done a trivial
  | stop why => exact .stop why
  | clock _ ih => exact .clock ih
  | call hc _ ih => exact .call (h _ hc) ih

section Runs

variable {P : Store → Prop} {time : Time} (husers : ∀ t, P t → t.users = s.users)
  (h : ∀ c, allowed c → ∀ t, P t → P (c.after time t))

include husers h

/-- What every allowed call preserves, and the users with it, a run of the program preserves. -/
theorem Under.run_preserves {p : Program α} (hp : p.Under s allowed required) {t : Store} (ht : P t) : P (p.run time t).2 := by
  induction hp generalizing t with
  | done a _ => exact ht
  | stop why => exact ht
  | clock _ ih => exact ih time ht
  | @call c next hc _ ih =>
    have ht' : P (t.serve time c).2 := by
      rw [Store.serve_snd]
      exact h c hc t ht
    exact ih _ (Store.told_serve (husers t ht) time c) ht'

/-- What every allowed call preserves, and the users with it, a step of the program preserves. -/
theorem Under.step_preserves {p : Program α} (hp : p.Under s allowed required) {t : Store} (ht : P t) :
    P (p.step time t).2 ∧ (p.step time t).1.Under s allowed required := by
  cases hp with
  | done a ha => exact ⟨ht, .done a ha⟩
  | stop why => exact ⟨ht, .stop why⟩
  | clock hnext => exact ⟨ht, hnext time⟩
  | call hc hnext =>
    refine ⟨?_, hnext _ (Store.told_serve (husers t ht) time _)⟩
    dsimp only [step]
    rw [Store.serve_snd]
    exact h _ hc t ht

end Runs

end Program

/-- An actor who does not pass the check is stopped by it, whatever else goes on. -/
theorem Accounts.under_require {s : Store} {username : String} {level : Level} {environment : Option String}
    (h : ¬s.Permits username level environment) :
    (require username level environment).Under s (fun c => c.part = none) fun _ => False := by
  have hlookup : (Program.ask (.getUser username)).Under s (fun c => c.part = none) fun found => found = s.getUser username := by
    refine .call rfl ?_
    intro reply htold
    rw [show reply = .ok (s.getUser username) from htold]
    exact .done _ rfl
  have hauthorize : (authorize username level environment).Under s (fun c => c.part = none) fun granted => granted = false := by
    refine hlookup.bind ?_
    rintro _ rfl
    cases hfound : s.getUser username with
    | none => exact .done false rfl
    | some user =>
      refine .done _ (Bool.eq_false_iff.mpr ?_)
      intro hallows
      exact h ⟨user, hfound, hallows⟩
  refine hauthorize.bind ?_
  rintro _ rfl
  exact .stop _

/-! ## What operations take -/

/-- The check that an operation makes of its actor. -/
def Operation.access? : Operation → Option (String × Level × Option String)
  | .createQuery _ actor _ _ _ | .listQueries actor _ | .queryAction actor _ _ => some (actor, .query, none)
  | .createCarve _ actor _ _ => some (actor, .carve, none)
  | .nodeAction actor _ _ | .addUser actor _ | .setAdmin actor _ _ | .setPermissions actor _ _ => some (actor, .admin, none)
  | .nodeStats actor environment => some (actor, .environment, some environment)
  | .enroll _ _ _ | .updateMetadata _ _ | .updateAddress _ _ | .poll _ | .submitResult _ _ _ | .submitResults _ _
  | .authorize _ _ _ | .ensureAdmin _ => none

/-- The operation is the one that is carried out when the service starts. -/
def Operation.isStartup : Operation → Bool
  | .ensureAdmin _ => true
  | _ => false

/-- The operation is one of a node. -/
def Operation.isTraffic : Operation → Bool
  | .enroll _ _ _ | .updateMetadata _ _ | .updateAddress _ _ | .poll _ | .submitResult _ _ _ | .submitResults _ _ => true
  | _ => false

/-- The levels of access of which a call takes one, unless anyone may make it. -/
def Call.levels? : Call → Option (List Level)
  | .insertArchive _ | .deleteNode _ | .insertUser _ | .setAdmin _ _ _ | .setPermissions _ _ | .deleteUser _ => some [.admin]
  | .insertQuery _ | .insertQueryWithTargets _ _ | .insertTargets _ _ => some [.query, .carve]
  | .setFlags _ _ => some [.query]
  | _ => none

/-- Anyone may make a call that only reads. -/
theorem Call.levels?_of_reads {c : Call} (h : c.part = none) : c.levels? = none := by
  cases c <;> first | rfl | cases h

namespace Operation

variable {settings : Settings} {op : Operation}

/-- The actor of the operation is a user of the store with this property. -/
def ActorIs (s : Store) (op : Operation) (property : User → Prop) : Prop :=
  ∃ actor user, op.actor? = some actor ∧ s.getUser actor = some user ∧ property user

theorem actorIs_iff {s : Store} {property : User → Prop} [DecidablePred property] :
    op.ActorIs s property ↔ (op.actor?.bind s.getUser).any (property ·) = true := by
  unfold ActorIs
  cases op.actor? with
  | none => simp
  | some actor => cases hfound : s.getUser actor <;> simp [hfound]

instance (s : Store) (op : Operation) (property : User → Prop) [DecidablePred property] : Decidable (op.ActorIs s property) :=
  decidable_of_iff' _ actorIs_iff

/-- An operation that checks its actor begins with the check, and goes on only after it. -/
theorem exists_program_eq_require_bind (settings : Settings) {actor : String} {level : Level} {environment : Option String}
    (hop : op.access? = some (actor, level, environment)) :
    ∃ next : Unit → Program Answer, op.program settings = Accounts.require actor level environment >>= next := by
  cases op with
  | createQuery | createCarve | listQueries | queryAction | nodeAction | addUser | setAdmin | setPermissions | nodeStats =>
    cases hop
    exact ⟨_, map_bind _ _ _⟩
  | _ => cases hop

/-- An operation whose actor does not pass its check only reads, whatever else goes on. -/
theorem under_of_not_permits {s : Store} {actor : String} {level : Level} {environment : Option String}
    (hop : op.access? = some (actor, level, environment)) (h : ¬s.Permits actor level environment) :
    (op.program settings).Under s (fun c => c.part = none) fun _ => True := by
  obtain ⟨next, hprogram⟩ := exists_program_eq_require_bind settings hop
  rw [hprogram]
  exact (Accounts.under_require h).bind fun _ hfalse => hfalse.elim

/-- An operation makes calls that take a level of access only if it checks that its actor has one of that level, or when the service
starts. -/
theorem levels_of_makes {c : Call} (h : op.Makes settings c) {levels : List Level} (hlevels : c.levels? = some levels) :
    op.isStartup = true ∨
      ∃ actor level, op.access? = some (actor, level, none) ∧ op.actor? = some actor ∧ level ∈ levels := by
  rcases h with hreads | hwrites
  · rw [Call.levels?_of_reads hreads] at hlevels
    cases hlevels
  · cases op with
    | ensureAdmin => exact Or.inl rfl
    | createQuery token actor =>
      obtain ⟨_, _, -, rfl⟩ := hwrites
      cases hlevels
      exact Or.inr ⟨actor, .query, rfl, rfl, by simp⟩
    | createCarve token actor =>
      obtain ⟨_, _, -, rfl⟩ := hwrites
      cases hlevels
      exact Or.inr ⟨actor, .carve, rfl, rfl, by simp⟩
    | queryAction actor =>
      obtain ⟨_, -, rfl⟩ := hwrites
      cases hlevels
      exact Or.inr ⟨actor, .query, rfl, rfl, by simp⟩
    | nodeAction actor =>
      rcases hwrites with ⟨_, _, rfl⟩ | ⟨-, _, rfl⟩ <;> cases hlevels <;>
      exact Or.inr ⟨actor, .admin, rfl, rfl, by simp⟩
    | addUser actor =>
      obtain ⟨-, rfl⟩ := hwrites
      cases hlevels
      exact Or.inr ⟨actor, .admin, rfl, rfl, by simp⟩
    | setAdmin actor | setPermissions actor =>
      obtain rfl := hwrites
      cases hlevels
      exact Or.inr ⟨actor, .admin, rfl, rfl, by simp⟩
    | enroll =>
      obtain ⟨-, rfl⟩ := hwrites
      cases hlevels
    | updateMetadata | submitResult => rcases hwrites with ⟨_, rfl⟩ | ⟨_, _, rfl⟩ <;> cases hlevels
    | submitResults => rcases hwrites with ⟨_, _, -, rfl⟩ | ⟨_, _, rfl⟩ <;> cases hlevels
    | updateAddress =>
      obtain ⟨_, rfl⟩ := hwrites
      cases hlevels
    | poll =>
      obtain ⟨_, _, rfl⟩ := hwrites
      cases hlevels
    | authorize | listQueries | nodeStats => exact hwrites.elim

/-- While the users are those of the store, every call that an operation makes, but for the one at the start of the service, is one
that its actor may ask for. -/
theorem under (s : Store) (hop : op.isStartup = false) :
    (op.program settings).Under s (fun c => op.Makes settings c ∧ ∀ levels, c.levels? = some levels →
      op.ActorIs s fun user => ∃ level ∈ levels, user.allows level none = true) fun _ => True := by
  by_cases hdenied : ∃ actor level environment, op.access? = some (actor, level, environment) ∧ ¬s.Permits actor level environment
  · obtain ⟨actor, level, environment, haccess, hdenied⟩ := hdenied
    refine (under_of_not_permits haccess hdenied).mono ?_
    intro c hreads
    refine ⟨.inl hreads, ?_⟩
    intro levels hlevels
    rw [Call.levels?_of_reads hreads] at hlevels
    cases hlevels
  · refine (op.asks_makes settings).under.mono ?_
    intro c hc
    refine ⟨hc, ?_⟩
    intro levels hlevels
    rcases levels_of_makes hc hlevels with hstartup | ⟨actor, level, haccess, hactor, hlevel⟩
    · rw [hop] at hstartup
      cases hstartup
    · have hpermits : s.Permits actor level none := by
        by_contra hnot
        exact hdenied ⟨actor, level, none, haccess, hnot⟩
      obtain ⟨user, hfound, hallows⟩ := hpermits
      exact ⟨actor, user, hactor, hfound, level, hlevel, hallows⟩

/-- An operation whose actor lacks a property makes no calls that take a level which only users with the property have. -/
theorem under_of_not_actorIs {s : Store} {property : User → Prop} (hop : op.isStartup = false) (h : ¬op.ActorIs s property) :
    (op.program settings).Under s (fun c => ∀ levels,
      (∀ user : User, ∀ level ∈ levels, user.allows level none = true → property user) → c.levels? ≠ some levels)
      fun _ => True := by
  refine (under s hop).mono ?_
  rintro c ⟨-, hasked⟩ levels hproperty hlevels
  obtain ⟨actor, user, hactor, hfound, level, hlevel, hallows⟩ := hasked levels hlevels
  exact h ⟨actor, user, hactor, hfound, hproperty user level hlevel hallows⟩

end Operation

/-! ## What calls leave -/

/-- The number, the key and the UUID of a node. -/
def Node.identity (n : Node) : Nat × String × String := (n.id, n.key, n.uuid)

/-- What a query was launched with, under its number: all but its flags and counts. -/
def Query.terms (q : Query) : Nat × Query.Draft := (q.id, { q.toDraft with active := false, completed := false, deleted := false })

/-- A query but for its counts. -/
def Query.uncounted (q : Query) : Query := { q with executions := 0, errors := 0 }

namespace Call

variable {c : Call} (s : Store) (now : Time)

/-- A call other than a removal leaves every live node in its place. -/
theorem prefix_map_identity (h : ∀ uuid, c ≠ .deleteNode uuid) :
    s.nodes.map Node.identity <+: (c.after now s).nodes.map Node.identity := by
  rcases nodes_cases s now c with ⟨change, hsame, hnodes⟩ | ⟨e, seeds, -, -, hnodes⟩ | ⟨uuid, rfl, -⟩
  · have hidentity : (s.nodes.map change).map Node.identity = s.nodes.map Node.identity := by
      rw [List.map_map]
      refine List.map_congr_left ?_
      intro n _
      simp only [Function.comp_apply, Node.identity, (hsame n).id, (hsame n).key, (hsame n).uuid]
    exact ⟨[], by rw [List.append_nil, hnodes, hidentity]⟩
  · rw [hnodes, List.map_append]
    exact List.prefix_append _ _
  · exact absurd rfl (h uuid)

/-- A call that inserts no query and no targets adds none. -/
theorem length_queries_of_levels (h : c.levels? ≠ some [.query, .carve]) :
    (c.after now s).queries.length = s.queries.length ∧ (c.after now s).targets = s.targets := by
  have hdraft : c.draft? = none := by
    cases c <;> first | rfl | exact absurd rfl h
  refine ⟨?_, ?_⟩
  · rcases queries_cases s now c with ⟨remake, -, hqueries⟩ | ⟨draft, hinserts, -, -, -⟩
    · rw [hqueries, List.length_map]
    · rw [hdraft] at hinserts
      cases hinserts
  · rcases targets_cases s now c with hsame | ⟨name, added, -, hinserts, -⟩
    · exact hsame
    · rcases hinserts with ⟨draft, rfl, -⟩ | rfl
      · exact absurd rfl h
      · exact absurd rfl h

/-- What operations do to a query does not touch what it was launched with. -/
theorem Remakes.terms_eq {settings : Settings} (hc : c.Proper settings) {now : Time} {q q' : Query} (h : c.Remakes now q q') :
    q'.terms = q.terms := by
  cases h with
  | leaves => rfl
  | expects =>
    cases hc with
    | reads hreads => cases hreads
  | flags => rfl
  | counts _ counter => cases counter <;> rfl
  | tallies =>
    unfold Query.tallied
    split <;> rfl

end Call

/-- What takes an administrator to change is as it was: the users, the archive, and every live node, in its place. -/
structure Store.Unadministered (s t : Store) : Prop where
  users : t.users = s.users
  archive : t.archive = s.archive
  nodes : s.nodes.map Node.identity <+: t.nodes.map Node.identity

/-- Nothing differs but what nodes write: live nodes, history, executions and the counts of these. -/
structure Store.OnlyTraffic (s t : Store) : Prop where
  users : t.users = s.users
  archive : t.archive = s.archive
  nodes : s.nodes.map Node.identity <+: t.nodes.map Node.identity
  queries : t.queries.map Query.uncounted = s.queries.map Query.uncounted
  targets : t.targets = s.targets

namespace Store

variable {s t u : Store} {c : Call}

theorem Unadministered.refl (s : Store) : s.Unadministered s := ⟨rfl, rfl, List.prefix_refl _⟩

theorem Unadministered.trans (h : s.Unadministered t) (h' : t.Unadministered u) : s.Unadministered u :=
  ⟨h'.users.trans h.users, h'.archive.trans h.archive, h.nodes.trans h'.nodes⟩

/-- A call that does not take an administrator does not write to the users. -/
theorem users_after (hc : c.levels? ≠ some [.admin]) (now : Time) : (c.after now s).users = s.users := by
  refine Call.users_of_part_ne s now ?_
  intro hpart
  cases c <;> first | exact absurd rfl hc | cases hpart

theorem Unadministered.after (h : s.Unadministered t) (hc : c.levels? ≠ some [.admin]) (now : Time) :
    s.Unadministered (c.after now t) := by
  refine h.trans ⟨users_after hc now, Call.archive_of_part_ne t now ?_, Call.prefix_map_identity t now ?_⟩
  · intro hpart
    cases c <;> first | exact absurd rfl hc | cases hpart
  · rintro uuid rfl
    exact hc rfl

/-- A call on the nodes that removes none leaves everything that nodes do not write. -/
theorem OnlyTraffic.after_nodes (h : s.OnlyTraffic t) (hpart : c.part = some .nodes) (hc : ∀ uuid, c ≠ .deleteNode uuid)
    (now : Time) : s.OnlyTraffic (c.after now t) := by
  have hnodes := Call.prefix_map_identity t now hc
  obtain ⟨lastId, nodes, history, heq⟩ := Call.after_of_nodes t now hpart
  rw [heq] at hnodes ⊢
  exact ⟨h.users, h.archive, h.nodes.trans hnodes, h.queries, h.targets⟩

/-- A call that records an execution leaves everything that nodes do not write. -/
theorem OnlyTraffic.after_record (h : s.OnlyTraffic t) (e : Execution.Draft) (now : Time) :
    s.OnlyTraffic ((Call.recordExecution e).after now t) := by
  rw [Call.after_recordExecution]
  split
  · exact h
  · refine ⟨h.users, h.archive, h.nodes, ?_, h.targets⟩
    refine Eq.trans ?_ h.queries
    rw [changeQuery, List.map_map]
    refine List.map_congr_left ?_
    intro q _
    simp only [Function.comp_apply]
    split
    · unfold Query.tallied
      split <;> rfl
    · rfl

end Store

/-! ## What operations leave -/

namespace Operation

variable {settings : Settings} {op : Operation} {s : Store}

/-- Without an administrator an operation leaves what takes one to change. -/
theorem under_of_not_admin (hop : op.isStartup = false) (h : ¬op.ActorIs s fun user => user.admin = true) :
    (op.program settings).Under s (fun c => c.levels? ≠ some [.admin]) fun _ => True := by
  refine (under_of_not_actorIs hop h).mono ?_
  intro c hc
  refine hc [.admin] ?_
  simp [User.allows, Access.allows]

theorem unadministered_run (hop : op.isStartup = false) (h : ¬op.ActorIs s fun user => user.admin = true) (time : Time) :
    s.Unadministered (op.run settings time s).2 := by
  refine (under_of_not_admin hop h).run_preserves (fun _ ht => ht.users) ?_ (.refl s)
  intro c hc t ht
  exact ht.after hc time

/-- Without an actor who may launch queries or carves an operation adds neither queries nor targets. -/
theorem adds_nothing_run (hop : op.isStartup = false)
    (h : ¬op.ActorIs s fun user => user.admin = true ∨ user.permissions.query = true ∨ user.permissions.carve = true)
    (time : Time) :
    (op.run settings time s).2.queries.length = s.queries.length ∧ (op.run settings time s).2.targets = s.targets := by
  let P := fun t : Store => t.users = s.users ∧ t.queries.length = s.queries.length ∧ t.targets = s.targets
  suffices hrun : P (op.run settings time s).2 from hrun.2
  refine (under_of_not_actorIs hop h).run_preserves (fun _ ht => ht.1) ?_ ⟨rfl, rfl, rfl⟩
  rintro c hc t ⟨husers, hqueries, htargets⟩
  have hadmin : c.levels? ≠ some [.admin] := hc _ (by simp +contextual [User.allows, Access.allows])
  have hlaunch : c.levels? ≠ some [.query, .carve] := hc _ (by simp +contextual [User.allows, Access.allows, or_imp])
  obtain ⟨hqueries', htargets'⟩ := Call.length_queries_of_levels t time hlaunch
  exact ⟨(Store.users_after hadmin time).trans husers, hqueries'.trans hqueries, htargets'.trans htargets⟩

/-- Without an actor who may act on queries an operation leaves the flags of every query. -/
theorem flags_run (hop : op.isStartup = false)
    (h : ¬op.ActorIs s fun user => user.admin = true ∨ user.permissions.query = true) (time : Time) :
    s.queries.map (·.flags) <+: (op.run settings time s).2.queries.map (·.flags) := by
  let P := fun t : Store => t.users = s.users ∧ s.queries.map (·.flags) <+: t.queries.map (·.flags)
  suffices hrun : P (op.run settings time s).2 from hrun.2
  refine (under_of_not_actorIs hop h).run_preserves (fun _ ht => ht.1) ?_ ⟨rfl, List.prefix_refl _⟩
  rintro c hc t ⟨husers, hflags⟩
  have hadmin : c.levels? ≠ some [.admin] := hc _ (by simp +contextual [User.allows, Access.allows])
  have hset : c.levels? ≠ some [.query] := hc _ (by simp +contextual [User.allows, Access.allows])
  refine ⟨(Store.users_after hadmin time).trans husers, hflags.trans (Call.prefix_map_queries t time ?_)⟩
  intro q q' hremakes
  refine hremakes.flags_eq ?_
  rintro flags rfl
  exact hset rfl

/-- A node makes calls on the nodes that remove none, and records executions. -/
theorem of_makes_of_isTraffic {c : Call} (h : op.Makes settings c) (hop : op.isTraffic = true) :
    c.part = none ∨ (c.part = some .nodes ∧ ∀ uuid, c ≠ .deleteNode uuid) ∨ ∃ e, c = .recordExecution e := by
  rcases h with hreads | hwrites
  · exact Or.inl hreads
  · right
    cases op with
    | enroll =>
      obtain ⟨-, rfl⟩ := hwrites
      exact Or.inl ⟨rfl, nofun⟩
    | updateMetadata => rcases hwrites with ⟨_, rfl⟩ | ⟨_, _, rfl⟩ <;> exact Or.inl ⟨rfl, nofun⟩
    | updateAddress =>
      obtain ⟨_, rfl⟩ := hwrites
      exact Or.inl ⟨rfl, nofun⟩
    | poll =>
      obtain ⟨_, _, rfl⟩ := hwrites
      exact Or.inl ⟨rfl, nofun⟩
    | submitResult =>
      rcases hwrites with ⟨_, rfl⟩ | ⟨_, _, rfl⟩
      · exact Or.inr ⟨_, rfl⟩
      · exact Or.inl ⟨rfl, nofun⟩
    | submitResults =>
      rcases hwrites with ⟨_, _, -, rfl⟩ | ⟨_, _, rfl⟩
      · exact Or.inr ⟨_, rfl⟩
      · exact Or.inl ⟨rfl, nofun⟩
    | _ => cases hop

/-- An operation of a node leaves everything that nodes do not write. -/
theorem onlyTraffic_run (hop : op.isTraffic = true) (time : Time) : s.OnlyTraffic (op.run settings time s).2 := by
  refine Program.run_preserves (P := s.OnlyTraffic) ?_ (op.asks_makes settings) ⟨rfl, rfl, List.prefix_refl _, rfl, rfl⟩
  intro c hc t ht
  rcases of_makes_of_isTraffic hc hop with hreads | ⟨hpart, hremoves⟩ | ⟨e, rfl⟩
  · rwa [Call.after_of_reads t time hreads]
  · exact ht.after_nodes hpart hremoves time
  · exact ht.after_record e time

/-- No operation changes what a query was launched with, or its targets. -/
theorem terms_run (settings : Settings) (op : Operation) (time : Time) (s : Store) :
    s.queries.map Query.terms <+: (op.run settings time s).2.queries.map Query.terms ∧
      ∀ name ∈ s.queryNames, (op.run settings time s).2.targetsOf name = s.targetsOf name := by
  let P := fun t : Store => s.queries.map Query.terms <+: t.queries.map Query.terms ∧
    ∀ name ∈ s.queryNames, name ∈ t.queryNames ∧ t.targetsOf name = s.targetsOf name
  suffices hrun : P (op.run settings time s).2 from ⟨hrun.1, fun name hname => (hrun.2 name hname).2⟩
  refine Program.run_preserves ?_ (op.asks_proper settings) ⟨List.prefix_refl _, fun _ hname => ⟨hname, rfl⟩⟩
  rintro c hc t ⟨hterms, htargets⟩
  refine ⟨hterms.trans (Call.prefix_map_queries t time fun _ _ hremakes => hremakes.terms_eq hc), ?_⟩
  intro name hname
  obtain ⟨hstored, hsame⟩ := htargets name hname
  refine ⟨c.stored_after hstored, ?_⟩
  rcases Call.targets_cases t time c with hkept | ⟨named, added, -, hinserts, hadded⟩
  · rw [← hsame, Store.targetsOf, Store.targetsOf, hkept]
  · have hne : named ≠ name := by
      rcases hinserts with ⟨draft, -, hfree⟩ | rfl
      · rintro rfl
        exact hfree hstored
      · cases hc with
        | reads hreads => cases hreads
    rw [← hsame, Store.targetsOf, Store.targetsOf, hadded, List.filter_append]
    simp [List.filter_map, Function.comp_def, hne]

end Operation

/-! ## Runs without an administrator -/

/-- The operation is not the one at the start of the service, and its actor, if it has one, is no administrator. -/
def Operation.Unprivileged (s : Store) (op : Operation) : Prop :=
  op.isStartup = false ∧ ¬op.ActorIs s fun user => user.admin = true

instance (s : Store) (op : Operation) : Decidable (op.Unprivileged s) :=
  inferInstanceAs (Decidable (op.isStartup = false ∧ ¬op.ActorIs s fun user => user.admin = true))

/-- Who is an administrator is a matter of the users. -/
theorem Operation.Unprivileged.of_users_eq {s t : Store} {op : Operation} (h : op.Unprivileged t) (husers : t.users = s.users) :
    op.Unprivileged s := by
  unfold Unprivileged ActorIs Store.getUser at h ⊢
  rwa [husers] at h

/-- Traffic in which only operations that meet a condition on the store are begun. -/
inductive Traffic.StepWhere (settings : Settings) (may : Store → Operation → Prop) : Traffic → Traffic → Prop where
  | begin (s : Store) (begun : List (Program Answer)) (op : Operation) (h : may s op) :
      StepWhere settings may ⟨s, begun⟩ ⟨s, begun ++ [op.program settings]⟩
  | turn (s : Store) (before after : List (Program Answer)) (p : Program Answer) (time : Time) :
      StepWhere settings may ⟨s, before ++ p :: after⟩ ⟨(p.step time s).2, before ++ (p.step time s).1 :: after⟩

/-- Where no operation of an administrator is begun, whatever is begun never makes a call that takes one. -/
theorem Traffic.unadministered {settings : Settings} {s : Store} {v : Traffic}
    (steps : Relation.ReflTransGen (StepWhere settings fun t op => op.Unprivileged t) ⟨s, []⟩ v) :
    s.Unadministered v.store ∧ ∀ p ∈ v.begun, p.Under s (fun c => c.levels? ≠ some [.admin]) fun _ => True := by
  induction steps with
  | refl => exact ⟨.refl s, fun _ hp => absurd hp List.not_mem_nil⟩
  | tail _ step ih =>
    obtain ⟨hstore, hbegun⟩ := ih
    cases step with
    | begin t begun op hmay =>
      refine ⟨hstore, ?_⟩
      obtain ⟨hop, hactor⟩ := hmay.of_users_eq hstore.users
      exact List.forall_mem_append.mpr ⟨hbegun, List.forall_mem_singleton.mpr (Operation.under_of_not_admin hop hactor)⟩
    | turn t before after p time =>
      rw [List.forall_mem_append, List.forall_mem_cons] at hbegun
      obtain ⟨hbefore, hp, hafter⟩ := hbegun
      obtain ⟨hstore', hp'⟩ : s.Unadministered (p.step time t).2 ∧ _ :=
        hp.step_preserves (fun _ ht => ht.users) (fun c hc t ht => ht.after hc time) hstore
      exact ⟨hstore', List.forall_mem_append.mpr ⟨hbefore, List.forall_mem_cons.mpr ⟨hp', hafter⟩⟩⟩

/-- Where operations are carried out one after another and none of an administrator is among them, what takes one to change
stays. -/
theorem Operation.unadministered_replay {settings : Settings} {s : Store} {ops : List (Time × Operation)}
    (h : ∀ before entry after, ops = before ++ entry :: after → entry.2.Unprivileged (replay settings s before)) :
    s.Unadministered (replay settings s ops) := by
  induction ops generalizing s with
  | nil => exact .refl s
  | cons entry rest ih =>
    obtain ⟨hop, hactor⟩ := h [] entry rest rfl
    refine (unadministered_run hop hactor entry.1).trans (ih ?_)
    rintro before later after rfl
    exact h (entry :: before) later after rfl

/-- On any store, and once the service has started, only an administrator changes the users or the archive or removes a node, and
the tables of queries change only as the grants of the actor allow. An operation of a node writes to nodes, histories, executions
and their counts. -/
theorem Operation.mediation (settings : Settings) :
    (∀ (s : Store) (op : Operation) (time : Time), op.isStartup = false →
      let s' := (op.run settings time s).2
      (s'.users ≠ s.users ∨ s'.archive ≠ s.archive ∨ ¬s.nodes.map Node.identity <+: s'.nodes.map Node.identity →
        op.ActorIs s fun user => user.admin = true) ∧
      (s'.queries.length ≠ s.queries.length ∨ s'.targets ≠ s.targets →
        op.ActorIs s fun user => user.admin = true ∨ user.permissions.query = true ∨ user.permissions.carve = true) ∧
      (¬s.queries.map (·.flags) <+: s'.queries.map (·.flags) →
        op.ActorIs s fun user => user.admin = true ∨ user.permissions.query = true)) ∧
    (∀ (s : Store) (op : Operation) (time : Time), op.isTraffic = true → s.OnlyTraffic (op.run settings time s).2) ∧
    (∀ (s : Store) (op : Operation) (time : Time),
      s.queries.map Query.terms <+: (op.run settings time s).2.queries.map Query.terms ∧
        ∀ name ∈ s.queryNames, (op.run settings time s).2.targetsOf name = s.targetsOf name) ∧
    (∀ (s : Store) (ops : List (Time × Operation)),
      (∀ before entry after, ops = before ++ entry :: after → entry.2.Unprivileged (replay settings s before)) →
      s.Unadministered (replay settings s ops)) ∧
    ∀ (s : Store) (v : Traffic),
      Relation.ReflTransGen (Traffic.StepWhere settings fun t op => op.Unprivileged t) ⟨s, []⟩ v → s.Unadministered v.store := by
  refine ⟨?_, fun s op time hop => onlyTraffic_run hop time, fun s op time => terms_run settings op time s,
    fun s ops h => unadministered_replay h, fun s v steps => (Traffic.unadministered steps).1⟩
  intro s op time hop s'
  refine ⟨?_, ?_, ?_⟩
  · intro hchanged
    by_contra hactor
    obtain ⟨husers, harchive, hnodes⟩ : s.Unadministered s' := unadministered_run hop hactor time
    rcases hchanged with h | h | h
    · exact h husers
    · exact h harchive
    · exact h hnodes
  · intro hchanged
    by_contra hactor
    obtain ⟨hqueries, htargets⟩ : s'.queries.length = s.queries.length ∧ s'.targets = s.targets :=
      adds_nothing_run hop hactor time
    rcases hchanged with h | h
    · exact h hqueries
    · exact h htargets
  · intro hchanged
    by_contra hactor
    exact hchanged (flags_run hop hactor time)

/-- The archive grows at the request of an administrator. A user who is none asks to be made one and to have the node removed, and
the users, the archive and the node stay as they are. -/
theorem Operation.mediation_of_removals :
    let settings : Settings := .embedded ["prod"]
    let s := replay settings .empty [(0, .ensureAdmin "root"), (1, .addUser "root" { Access.Account.blank with username := "bob" }),
      (2, .enroll "a-1" "key" { Attributes.blank with environment := "prod" })]
    let ops : List (Time × Operation) := [(3, .setAdmin "bob" "bob" true), (4, .nodeAction "bob" .delete ["a-1"])]
    ((nodeAction "root" .delete ["a-1"]).ActorIs s fun user => user.admin = true) ∧
      s.Unadministered (replay settings s ops) := by
  intro settings s ops
  obtain ⟨hmediated, -, -, hrun, -⟩ := mediation settings
  constructor
  · have hchanged : ((nodeAction "root" .delete ["a-1"]).run settings 3 s).2.archive ≠ s.archive := by decide +kernel
    exact (hmediated s (.nodeAction "root" .delete ["a-1"]) 3 rfl).1 (.inr (.inl hchanged))
  · refine hrun s ops ?_
    intro before entry after hsplit
    rcases before with _ | ⟨first, _ | ⟨second, before⟩⟩
    · obtain ⟨rfl, -⟩ := List.cons.inj hsplit
      decide +kernel
    · obtain ⟨rfl, hrest⟩ := List.cons.inj hsplit
      obtain ⟨rfl, -⟩ := List.cons.inj hrest
      decide +kernel
    · simp [ops] at hsplit

end FleetControl
