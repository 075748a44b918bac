import FleetControl.Proofs.Runs
import FleetControl.Proofs.Tally

/-!
# The journal of calls

Whoever embeds the service can use its roster of nodes beside the operations of the fleet; a `Command` is either. Commands are begun
by any number of clients, their steps are taken in any turns, and a client may give a command up. A `Session` is a store together
with what is left of the commands begun and the journal of the calls made so far. The journal tells the store, and which commands
made its calls: a node is inserted, and an observation applied, only by commands that ask for it (`Session.Reached.kept`).
Commands carried out one after another are a case of it (`Session.Reached.performAll`).
-/

namespace FleetControl

open Program (asks_pure asks_refuse asks_ask asks_ite)

/-! ## Commands -/

/-- An operation of the roster with its arguments. -/
inductive RosterOperation where
  | enroll (uuid key : String) (attributes : Attributes)
  | observe (uuid : String) (observed : Observation)
  | observeAddress (uuid ip : String)
  | archive (uuid trigger : String)
  | retire (uuid : String)
  | archived (uuid : String)
  | byKey (key : String)
  | byUuid (uuid : String)
  | byUuidIn (uuid environment : String)
  | onHost (host : String)
  | someOnHost (host : String)
  | hasKey (key : String)
  | hasUuid (uuid : String)
  | hasHost (host : String)
  | list (selector : Selector) (activity : Activity) (hours : Int)
  | platforms
  | stats (selector : Selector) (hours : Int)
  | noteEvent (uuid : String) (event : NodeEvent)
  | history (uuid : String) (kind : HistoryKind)
  deriving DecidableEq

/-- The program of an operation of the roster, whatever it answers. -/
def RosterOperation.program : RosterOperation → Program Unit
  | .enroll uuid key attributes => (fun _ => ()) <$> Roster.enroll uuid key attributes
  | .observe uuid observed => (fun _ => ()) <$> Roster.observe uuid observed
  | .observeAddress uuid ip => (fun _ => ()) <$> Roster.observeAddress uuid ip
  | .archive uuid trigger => (fun _ => ()) <$> Roster.archive uuid trigger
  | .retire uuid => (fun _ => ()) <$> Roster.retire uuid
  | .archived uuid => (fun _ => ()) <$> Roster.archived uuid
  | .byKey key => (fun _ => ()) <$> Roster.byKey key
  | .byUuid uuid => (fun _ => ()) <$> Roster.byUuid uuid
  | .byUuidIn uuid environment => (fun _ => ()) <$> Roster.byUuidIn uuid environment
  | .onHost host => (fun _ => ()) <$> Roster.onHost host
  | .someOnHost host => (fun _ => ()) <$> Roster.someOnHost host
  | .hasKey key => (fun _ => ()) <$> Roster.hasKey key
  | .hasUuid uuid => (fun _ => ()) <$> Roster.hasUuid uuid
  | .hasHost host => (fun _ => ()) <$> Roster.hasHost host
  | .list selector activity hours => (fun _ => ()) <$> Roster.list selector activity hours
  | .platforms => (fun _ => ()) <$> Roster.platforms
  | .stats selector hours => (fun _ => ()) <$> Roster.stats selector hours
  | .noteEvent uuid event => Roster.noteEvent uuid event
  | .history uuid kind => (fun _ => ()) <$> Roster.history uuid kind

/-- An operation of the fleet or of its roster. -/
inductive Command where
  | fleet (op : Operation)
  | roster (op : RosterOperation)
  deriving DecidableEq

namespace Command

/-- The program of a command, whatever it answers. -/
def program (settings : Settings) : Command → Program Unit
  | .fleet op => (fun _ => ()) <$> op.program settings
  | .roster op => op.program

/-- What is enrolled by a command, if it enrols. -/
def enrollment? : Command → Option Enrollment
  | .fleet (.enroll uuid key attributes) | .roster (.enroll uuid key attributes) => some (.of uuid key attributes)
  | _ => none

/-- What a command reports of a node, if it does: one that reports an address reports nothing else. -/
def observation? : Command → Option Observation
  | .fleet (.updateMetadata _ observed) | .roster (.observe _ observed) => some observed
  | .fleet (.updateAddress _ ip) | .roster (.observeAddress _ ip) => some (.address ip)
  | _ => none

/-- The calls a command may make: it inserts only what it enrols, with the history that starts then, and applies only what it
reports. -/
def Allows (command : Command) : Call → Prop
  | .insertNode e seeds => command.enrollment? = some e ∧ seeds = e.seeds
  | .applyObservation _ observed => command.observation? = some observed
  | _ => True

/-- Any command may make a call that only reads. -/
theorem allows_of_reads (command : Command) (c : Call) (h : c.part = none) : command.Allows c := by
  cases c with
  | insertNode | applyObservation => cases h
  | _ => trivial

/-- What an operation of the fleet may ask for is allowed it. -/
theorem allows_of_operation_makes {settings : Settings} {op : Operation} {c : Call} (h : op.Makes settings c) :
    (fleet op).Allows c := by
  rcases h with hreads | hwrites
  · exact allows_of_reads _ c hreads
  · cases op with
    | enroll uuid key attributes =>
      obtain ⟨-, rfl⟩ := hwrites
      exact ⟨rfl, rfl⟩
    | updateMetadata key observed =>
      rcases hwrites with ⟨uuid, rfl⟩ | ⟨uuid, time, rfl⟩
      · rfl
      · trivial
    | updateAddress key ip =>
      obtain ⟨uuid, rfl⟩ := hwrites
      rfl
    | addUser | ensureAdmin =>
      obtain ⟨-, rfl⟩ := hwrites
      trivial
    | setAdmin | setPermissions =>
      obtain rfl := hwrites
      trivial
    | poll =>
      obtain ⟨_, _, rfl⟩ := hwrites
      trivial
    | createQuery | createCarve =>
      obtain ⟨_, _, -, rfl⟩ := hwrites
      trivial
    | queryAction =>
      obtain ⟨_, -, rfl⟩ := hwrites
      trivial
    | submitResult => rcases hwrites with ⟨_, rfl⟩ | ⟨_, _, rfl⟩ <;> trivial
    | submitResults => rcases hwrites with ⟨_, _, -, rfl⟩ | ⟨_, _, rfl⟩ <;> trivial
    | nodeAction => rcases hwrites with ⟨_, _, rfl⟩ | ⟨-, _, rfl⟩ <;> trivial
    | authorize | listQueries | nodeStats => exact hwrites.elim

end Command

namespace Roster

variable {allowed : Call → Prop} (hreads : ∀ c : Call, c.part = none → allowed c)

include hreads

theorem asks_byUuidIn (uuid environment : String) : (byUuidIn uuid environment).Asks allowed := by
  refine (asks_byUuid hreads uuid).bind ?_
  intro node
  exact asks_ite (fun _ => asks_pure node) fun _ => asks_refuse _

theorem asks_someOnHost (host : String) : (someOnHost host).Asks allowed := by
  refine Program.Asks.bind (asks_ask (hreads _ rfl)) ?_
  intro nodes
  exact asks_ite (fun _ => asks_refuse _) fun _ => asks_pure nodes

theorem asks_hasKey (key : String) : (hasKey key).Asks allowed := by
  refine (asks_byKey hreads key).attempt.bind ?_
  intro found
  cases found with
  | ok node => exact asks_pure true
  | error why => exact asks_ite (fun _ => asks_pure false) fun _ => asks_refuse why

end Roster

/-- The calls that an operation of the roster may make besides those that only read. -/
def RosterOperation.Writes (c : Call) : RosterOperation → Prop
  | .enroll uuid key attributes => c = .insertNode (.of uuid key attributes) (Enrollment.of uuid key attributes).seeds
  | .observe uuid observed => c = .applyObservation (canonicalUuid uuid) observed
  | .observeAddress uuid ip => c = .applyObservation (canonicalUuid uuid) (.address ip)
  | .archive _ trigger => ∃ (node : Node) (time : Time), c = .insertArchive (node.snapshot trigger time)
  | .retire _ =>
    (∃ (node : Node) (time : Time), c = .insertArchive (node.snapshot Roster.deleteTrigger time)) ∨ ∃ uuid, c = .deleteNode uuid
  | .noteEvent uuid event => ∃ time, c = .touchEvent (canonicalUuid uuid) event time
  | _ => False

/-- The calls that a command may make. -/
def Command.Makes (settings : Settings) : Command → Call → Prop
  | .fleet op, c => op.Makes settings c
  | .roster op, c => c.part = none ∨ op.Writes c

/-- A command makes no other calls than it may. -/
theorem Command.asks_makes (settings : Settings) (command : Command) :
    (command.program settings).Asks (command.Makes settings) := by
  cases command with
  | fleet op => exact (op.asks_makes settings).map _
  | roster op =>
    have hreads : ∀ c : Call, c.part = none → (roster op).Makes settings c := fun c => Or.inl
    cases op with
    | enroll uuid key attributes => exact (Roster.asks_enroll hreads uuid key attributes fun _ _ => .inr rfl).map _
    | observe uuid observed => exact (asks_ask (.inr rfl)).map _
    | observeAddress uuid ip => exact (asks_ask (.inr rfl)).map _
    | archive uuid trigger => exact (Roster.asks_archive hreads uuid trigger fun node time => .inr ⟨node, time, rfl⟩).map _
    | retire uuid =>
      refine (Roster.asks_retire hreads uuid ?_ ?_).map _
      · intro node time
        exact .inr (.inl ⟨node, time, rfl⟩)
      · intro uuid
        exact .inr (.inr ⟨uuid, rfl⟩)
    | archived uuid => exact (asks_ask (.inl rfl)).map _
    | byKey key => exact (Roster.asks_byKey hreads key).map _
    | byUuid uuid => exact (Roster.asks_byUuid hreads uuid).map _
    | byUuidIn uuid environment => exact (Roster.asks_byUuidIn hreads uuid environment).map _
    | onHost host => exact (asks_ask (.inl rfl)).map _
    | someOnHost host => exact (Roster.asks_someOnHost hreads host).map _
    | hasKey key => exact (Roster.asks_hasKey hreads key).map _
    | hasUuid uuid => exact (Roster.asks_hasUuid hreads uuid).map _
    | hasHost host => exact (Roster.asks_hasHost hreads host).map _
    | list selector activity hours => exact (Roster.asks_list hreads selector activity hours).map _
    | platforms => exact (asks_ask (.inl rfl)).map _
    | stats selector hours => exact (Roster.asks_stats hreads selector hours).map _
    | noteEvent uuid event => exact Roster.asks_noteEvent uuid event fun time => .inr ⟨time, rfl⟩
    | history uuid kind => exact (asks_ask (.inl rfl)).map _

/-- A command makes no other calls than those allowed it. -/
theorem Command.allows_of_makes {settings : Settings} {command : Command} {c : Call} (h : command.Makes settings c) :
    command.Allows c := by
  cases command with
  | fleet op => exact allows_of_operation_makes h
  | roster op =>
    rcases h with hreads | hwrites
    · exact allows_of_reads _ c hreads
    · cases op with
      | enroll uuid key attributes =>
        obtain rfl := hwrites
        exact ⟨rfl, rfl⟩
      | observe | observeAddress =>
        obtain rfl := hwrites
        rfl
      | archive =>
        obtain ⟨_, _, rfl⟩ := hwrites
        trivial
      | retire => rcases hwrites with ⟨_, _, rfl⟩ | ⟨_, rfl⟩ <;> trivial
      | noteEvent =>
        obtain ⟨_, rfl⟩ := hwrites
        trivial
      | _ => exact hwrites.elim

/-! ## Sessions -/

/-- A call in a journal: when it was made, by which command, and what it was. -/
structure Entry where
  time : Time
  command : Command
  call : Call
  deriving DecidableEq

/-- The store after the calls of a journal. -/
def Store.follow (s : Store) (journal : List Entry) : Store := s.replay (journal.map fun entry => (entry.time, entry.call))

theorem Store.follow_append (s : Store) (journal more : List Entry) :
    s.follow (journal ++ more) = (s.follow journal).follow more := by
  rw [follow, follow, follow, List.map_append, replay, replay, replay, List.foldl_append]

/-- The store after a journal is that after its last call. -/
theorem Store.follow_append_singleton (s : Store) (journal : List Entry) (entry : Entry) :
    s.follow (journal ++ [entry]) = entry.call.after entry.time (s.follow journal) := s.follow_append journal [entry]

/-- What every call preserves, the calls of a journal preserve. -/
theorem Store.follow_preserves {P : Store → Prop} (h : ∀ (c : Call) (now : Time) (s : Store), P s → P (c.after now s)) {s : Store}
    (hs : P s) (journal : List Entry) : P (s.follow journal) := by
  induction journal generalizing s with
  | nil => exact hs
  | cons entry journal ih => exact ih (h entry.call entry.time s hs)

/-- A store in use: what is left of the commands begun on it, and the calls they made so far. -/
structure Session where
  store : Store
  begun : List (Command × Program Unit)
  journal : List Entry

namespace Session

/-- The empty store, before anything is begun. -/
def start : Session := ⟨.empty, [], []⟩

variable (settings : Settings)

/-- A command is begun or given up, or one of those begun reads the clock or makes a call. -/
inductive Step : Session → Session → Prop where
  | begin (v : Session) (command : Command) : Step v { v with begun := v.begun ++ [(command, command.program settings)] }
  | leave (s : Store) (journal : List Entry) (before after : List (Command × Program Unit)) (command : Command)
      (p : Program Unit) : Step ⟨s, before ++ (command, p) :: after, journal⟩ ⟨s, before ++ after, journal⟩
  | clock (s : Store) (journal : List Entry) (before after : List (Command × Program Unit)) (command : Command)
      (next : Time → Program Unit) (time : Time) :
      Step ⟨s, before ++ (command, .clock next) :: after, journal⟩ ⟨s, before ++ (command, next time) :: after, journal⟩
  | call (s : Store) (journal : List Entry) (before after : List (Command × Program Unit)) (command : Command) (c : Call)
      (next : Except Refusal c.Reply → Program Unit) (time : Time) :
      Step ⟨s, before ++ (command, .call c next) :: after, journal⟩
        ⟨(s.serve time c).2, before ++ (command, next (s.serve time c).1) :: after, journal ++ [⟨time, command, c⟩]⟩

/-- The session can come about: any number of steps, in any turns, lead to it from the start. -/
def Reached (v : Session) : Prop := Relation.ReflTransGen (Step settings) start v

variable {settings}

/-- The commands begun have calls left that they may make, the journal tells the store, and its calls are such as their commands
may make. -/
structure Kept (made : Command → Call → Prop) (v : Session) : Prop where
  begun : ∀ p ∈ v.begun, p.2.Asks (made p.1)
  store : v.store = Store.empty.follow v.journal
  journal : ∀ entry ∈ v.journal, made entry.command entry.call

theorem Kept.step {made : Command → Call → Prop}
    (hmade : ∀ command : Command, (command.program settings).Asks (made command)) {v w : Session} (h : v.Kept made)
    (step : Step settings v w) : w.Kept made := by
  obtain ⟨hbegun, hstore, hjournal⟩ := h
  cases step with
  | begin v command =>
    refine ⟨?_, hstore, hjournal⟩
    intro p hp
    rcases List.mem_append.mp hp with hp | hp
    · exact hbegun p hp
    · rw [List.mem_singleton.mp hp]
      exact hmade command
  | leave s journal before after command p =>
    refine ⟨?_, hstore, hjournal⟩
    intro q hq
    refine hbegun q ?_
    rcases List.mem_append.mp hq with hq | hq
    · exact List.mem_append_left _ hq
    · exact List.mem_append_right _ (List.mem_cons_of_mem _ hq)
  | clock s journal before after command next time =>
    refine ⟨?_, hstore, hjournal⟩
    rw [List.forall_mem_append, List.forall_mem_cons] at hbegun ⊢
    obtain ⟨hbefore, hp, hafter⟩ := hbegun
    refine ⟨hbefore, ?_, hafter⟩
    cases hp with
    | clock hnext => exact hnext time
  | call s journal before after command c next time =>
    rw [List.forall_mem_append, List.forall_mem_cons] at hbegun
    obtain ⟨hbefore, hp, hafter⟩ := hbegun
    cases hp with
    | call hc hnext =>
      refine ⟨?_, ?_, ?_⟩
      · rw [List.forall_mem_append, List.forall_mem_cons]
        exact ⟨hbefore, hnext _, hafter⟩
      · dsimp only at hstore ⊢
        rw [Store.follow_append_singleton, ← hstore, Store.serve_snd]
      · rw [List.forall_mem_append, List.forall_mem_singleton]
        exact ⟨hjournal, hc⟩

/-- In a session that came about, the journal tells the store and is made of the calls that the programs of commands make. -/
theorem Reached.kept_of_asks {made : Command → Call → Prop}
    (hmade : ∀ command : Command, (command.program settings).Asks (made command)) {v : Session} (h : v.Reached settings) :
    v.Kept made := by
  induction h with
  | refl => exact ⟨fun _ hp => absurd hp List.not_mem_nil, rfl, fun _ hentry => absurd hentry List.not_mem_nil⟩
  | tail _ step ih => exact ih.step hmade step

/-- The journal is made of calls that are allowed their commands. -/
theorem Reached.kept {v : Session} (h : v.Reached settings) : v.Kept Command.Allows :=
  h.kept_of_asks fun command => (command.asks_makes settings).mono fun _ => Command.allows_of_makes

/-- A store that operations lead to is the store of a session in which commands are operations of the fleet. -/
theorem exists_of_leadsTo {v : Traffic} (steps : Traffic.LeadsTo settings ⟨.empty, []⟩ v) :
    ∃ w : Session, w.Reached settings ∧ w.store = v.store ∧
      w.begun.map Prod.snd = v.begun.map ((fun _ => ()) <$> ·) ∧ (∀ p ∈ w.begun, ∃ op, p.1 = .fleet op) ∧
      ∀ entry ∈ w.journal, ∃ op, entry.command = .fleet op := by
  induction steps with
  | refl => exact ⟨start, .refl, rfl, rfl, fun _ hp => absurd hp List.not_mem_nil, fun _ he => absurd he List.not_mem_nil⟩
  | tail _ step ih =>
    obtain ⟨⟨store, begun', journal⟩, hw, hstore, hbegun, hfleet, hjournal⟩ := ih
    cases step with
    | begin s begun op =>
      subst hstore
      refine ⟨_, hw.tail (.begin _ (.fleet op)), rfl, ?_, ?_, hjournal⟩
      · rw [List.map_append, List.map_append, hbegun]
        rfl
      · rw [List.forall_mem_append, List.forall_mem_singleton]
        exact ⟨hfleet, op, rfl⟩
    | turn s before after p time =>
      subst hstore
      have hturn := hbegun
      rw [List.map_append, List.map_cons] at hturn
      obtain ⟨before', rest, rfl, hbefore, hrest⟩ := List.map_eq_append_iff.mp hturn
      obtain ⟨⟨command, q⟩, after', rfl, hq, hafter⟩ := List.map_eq_cons_iff.mp hrest
      obtain rfl : q = (fun _ => ()) <$> p := hq
      have hleft : ∀ q' : Program Unit, ∀ pair ∈ before' ++ (command, q') :: after', ∃ op, pair.1 = .fleet op := by
        intro q'
        rw [List.forall_mem_append, List.forall_mem_cons] at hfleet ⊢
        exact hfleet
      cases p with
      | done | stop => exact ⟨_, hw, rfl, hbegun, hfleet, hjournal⟩
      | clock next =>
        refine ⟨_, hw.tail (.clock store journal before' after' command (fun now => (fun _ => ()) <$> next now) time), rfl, ?_,
          hleft _, hjournal⟩
        rw [List.map_append, List.map_cons, hbefore, hafter, List.map_append, List.map_cons]
        rfl
      | call c next =>
        refine ⟨_, hw.tail (.call store journal before' after' command c (fun reply => (fun _ => ()) <$> next reply) time), rfl,
          ?_, hleft _, ?_⟩
        · rw [List.map_append, List.map_cons, hbefore, hafter, List.map_append, List.map_cons]
          rfl
        · rw [List.forall_mem_append, List.forall_mem_singleton]
          exact ⟨hjournal, hleft _ (command, (fun _ => ()) <$> Program.call c next) (List.mem_append_right _ List.mem_cons_self)⟩

end Session

/-! ## One command after another -/

/-- The calls that a run of the program on the store makes. -/
def Program.calls {α : Type} (time : Time) : Program α → Store → List Call
  | .done _, _ => []
  | .stop _, _ => []
  | .clock next, s => (next time).calls time s
  | .call c next, s => c :: (next (s.serve time c).1).calls time (s.serve time c).2

namespace Program

variable {α β : Type} {time : Time} {s : Store}

/-- A program that is one call makes that call. -/
theorem calls_ask (c : Call) : (ask c).calls time s = [c] := by
  dsimp only [ask, calls]
  cases (s.serve time c).1 <;> rfl

/-- One program after another makes the calls of the first, and those of the other if the first has a result. -/
theorem calls_bind (p : Program α) (f : α → Program β) (s : Store) :
    (p >>= f).calls time s =
      p.calls time s ++ match p.run time s with
        | (.ok a, s') => (f a).calls time s'
        | (.error _, _) => [] := by
  induction p generalizing s with
  | done a => rfl
  | stop why => rfl
  | clock next ih => exact ih time s
  | call c next ih => exact congrArg (c :: ·) (ih _ _)

theorem calls_bind_of_ok {p : Program α} {a : α} {s' : Store} (h : p.run time s = (.ok a, s')) (f : α → Program β) :
    (p >>= f).calls time s = p.calls time s ++ (f a).calls time s' := by
  rw [calls_bind, h]

theorem calls_bind_of_error {p : Program α} {why : Stop} {s' : Store} (h : p.run time s = (.error why, s'))
    (f : α → Program β) : (p >>= f).calls time s = p.calls time s := by
  rw [calls_bind, h, List.append_nil]

/-- What ends a program without a call of its own changes nothing of what it asks. -/
theorem calls_bind_pure (p : Program α) (f : α → β) : (p >>= fun a => pure (f a)).calls time s = p.calls time s := by
  rw [calls_bind]
  obtain ⟨_ | _, _⟩ := p.run time s <;> exact List.append_nil _

/-- A change to the result of a program changes nothing of what it asks. -/
theorem calls_map (p : Program α) (f : α → β) : (f <$> p).calls time s = p.calls time s := by
  rw [map_eq_pure_bind, calls_bind_pure]

/-- What a program makes on any store is what it may make. -/
theorem Asks.calls {allowed : Call → Prop} {p : Program α} (hp : p.Asks allowed) (time : Time) (s : Store) :
    ∀ c ∈ p.calls time s, allowed c := by
  induction hp generalizing s with
  | done | stop => exact fun c hc => absurd hc List.not_mem_nil
  | clock _ ih => exact ih time s
  | call hc _ ih => exact List.forall_mem_cons.mpr ⟨hc, ih _ _⟩

/-- The calls of a program, written into a journal, tell the store that the program leaves. -/
theorem follow_calls (command : Command) (p : Program α) (time : Time) (s : Store) :
    s.follow ((p.calls time s).map fun c => ⟨time, command, c⟩) = (p.run time s).2 := by
  induction p generalizing s with
  | done | stop => rfl
  | clock next ih => exact ih time s
  | call c next ih =>
    change (c.after time s).follow _ = _
    rw [← Store.serve_snd]
    exact ih (s.serve time c).1 (s.serve time c).2

end Program

namespace Session

variable (settings)

/-- The session after a command was carried out as a whole. -/
def perform (v : Session) (entry : Time × Command) : Session where
  store := ((entry.2.program settings).run entry.1 v.store).2
  begun := v.begun
  journal := v.journal ++ ((entry.2.program settings).calls entry.1 v.store).map fun c => ⟨entry.1, entry.2, c⟩

/-- The session after commands were carried out one after another, each at some time. -/
def performAll (commands : List (Time × Command)) (v : Session) : Session := commands.foldl (perform settings) v

variable {settings}

/-- A command that takes its steps without a break comes to its end. -/
theorem leadsTo_end (command : Command) (time : Time) (begun : List (Command × Program Unit)) (p : Program Unit) (s : Store)
    (journal : List Entry) :
    Relation.ReflTransGen (Step settings) ⟨s, begun ++ [(command, p)], journal⟩
      ⟨(p.run time s).2, begun, journal ++ (p.calls time s).map fun c => ⟨time, command, c⟩⟩ := by
  have hleave : ∀ (p : Program Unit) (s : Store) (journal : List Entry),
      Relation.ReflTransGen (Step settings) ⟨s, begun ++ [(command, p)], journal⟩ ⟨s, begun, journal ++ []⟩ := by
    intro p s journal
    have hstep : Step settings ⟨s, begun ++ [(command, p)], journal⟩ ⟨s, begun ++ [], journal⟩ :=
      .leave s journal begun [] command p
    rw [List.append_nil] at hstep
    rw [List.append_nil]
    exact .single hstep
  induction p generalizing s journal with
  | done a => exact hleave (.done a) s journal
  | stop why => exact hleave (.stop why) s journal
  | clock next ih => exact .head (.clock s journal begun [] command next time) (ih time s journal)
  | call c next ih =>
    have hrest := ih (s.serve time c).1 (s.serve time c).2 (journal ++ [⟨time, command, c⟩])
    rw [List.append_assoc] at hrest
    exact .head (.call s journal begun [] command c next time) hrest

/-- A command carried out as a whole leads from a session that came about to another. -/
theorem Reached.perform {v : Session} (h : v.Reached settings) (entry : Time × Command) :
    (v.perform settings entry).Reached settings :=
  h.trans (.head (.begin v entry.2) (leadsTo_end entry.2 entry.1 v.begun (entry.2.program settings) v.store v.journal))

/-- Commands carried out one after another lead from a session that came about to another. -/
theorem Reached.performAll {v : Session} (h : v.Reached settings) (commands : List (Time × Command)) :
    (v.performAll settings commands).Reached settings := by
  induction commands generalizing v with
  | nil => exact h
  | cons entry rest ih => exact ih (h.perform entry)

end Session

end FleetControl
