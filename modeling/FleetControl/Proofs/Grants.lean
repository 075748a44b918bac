import FleetControl.Proofs.Atomicity
import FleetControl.Proofs.Histories
import FleetControl.Proofs.Launches
import Mathlib.Data.Set.List

/-!
# What a user may do after a run

The access of a user changes in two ways: it is appointed whether the user is an administrator, when the account is made or later,
and the grants go with that; or the grants alone are set. So a user holds what the latest appointment and the latest setting of the
grants since then left (`Store.Reflects`). Every call preserves this, with the change that it makes, and so do operations carried out
one after another and commands in turns (`Operation.access_over_runs`).
-/

namespace FleetControl

open Access (Level Permissions)

namespace Access

/-- A change to the access of a user: whether it is an administrator is set anew, or its grants are. -/
inductive Change where
  | appoint (admin : Bool)
  | grant (permissions : Permissions)
  deriving DecidableEq

/-- The check is passed by an administrator, and else by whoever holds its grant. -/
def Passes (admin : Bool) (permissions : Permissions) (level : Level) (environment : Option String) : Prop :=
  admin = true ∨ match level with
    | .admin => False
    | .query => permissions.query = true
    | .carve => permissions.carve = true
    | .environment => ∃ name, environment = some name ∧ permissions.environments.get? name = some true

theorem allows_iff_passes {admin : Bool} {permissions : Permissions} {level : Level} {environment : Option String} :
    allows admin permissions level environment = true ↔ Passes admin permissions level environment := by
  unfold allows Passes
  rw [Bool.or_eq_true]
  refine or_congr_right ?_
  cases level with
  | admin => simp
  | query => rfl
  | carve => rfl
  | environment =>
    rw [Option.any_eq_true]
    refine exists_congr fun name => and_congr_right fun _ => ?_
    unfold Permissions.allowsEnvironment
    cases permissions.environments.get? name <;> simp

instance (admin : Bool) (permissions : Permissions) (level : Level) (environment : Option String) :
    Decidable (Passes admin permissions level environment) := decidable_of_iff _ allows_iff_passes

theorem decide_passes (admin : Bool) (permissions : Permissions) (level : Level) (environment : Option String) :
    decide (Passes admin permissions level environment) = allows admin permissions level environment := by
  rw [Bool.eq_iff_iff, decide_eq_true_iff]
  exact allows_iff_passes.symm

/-- Uniform grants name the environments that they are given, and no others. -/
theorem get?_uniform (environments : List String) (granted : Bool) (name : String) :
    (Permissions.uniform environments granted).environments.get? name = if name ∈ environments then some granted else none := by
  suffices hfold : ∀ d : Dictionary Bool,
      ((environments.map fun e => (e, granted)).foldl (fun d e => d.insert e.1 e.2) d).get? name =
        if name ∈ environments then some granted else d.get? name from hfold .empty
  induction environments with
  | nil => exact fun d => (if_neg List.not_mem_nil).symm
  | cons e rest ih =>
    intro d
    rw [List.map_cons, List.foldl_cons, ih, Dictionary.get?_insert]
    by_cases heq : name = e
    · rw [if_pos heq, ite_self, if_pos (heq ▸ List.mem_cons_self)]
    · simp only [if_neg heq, List.mem_cons, or_iff_right heq]

/-- Uniform grants hold nothing else. -/
theorem Permissions.eq_of_get?_uniform {environments : List String} {granted held : Bool} {name : String}
    (h : (uniform environments granted).environments.get? name = some held) : held = granted := by
  rw [get?_uniform] at h
  split at h
  · exact (Option.some.inj h).symm
  · cases h

/-- Who is no administrator and was given no grant passes no check. -/
theorem not_passes_of_dismissed (environments : List String) (level : Level) (environment : Option String) :
    ¬Passes false (.uniform environments false) level environment := by
  rintro (hadmin | hgrant)
  · cases hadmin
  · cases level with
    | admin => exact hgrant
    | query | carve => cases hgrant
    | environment =>
      obtain ⟨name, -, hheld⟩ := hgrant
      cases Permissions.eq_of_get?_uniform hheld

end Access

/-! ## What calls do to the access of a user -/

/-- What a call changes of the access of the user of a name, where it is carried out. -/
def Call.change? (username : String) : Call → Option Access.Change
  | .insertUser account => if account.username = username then some (.appoint account.admin) else none
  | .setAdmin named admin _ => if named = username then some (.appoint admin) else none
  | .setPermissions named permissions => if named = username then some (.grant permissions) else none
  | _ => none

/-- The call removes no user, and appoints one only together with the uniform grants that go with it. -/
def Call.AppointsUniformly (settings : Settings) : Call → Prop
  | .insertUser account => account.permissions = .uniform settings.environments account.admin
  | .setAdmin _ admin permissions => permissions = .uniform settings.environments admin
  | .deleteUser _ => False
  | _ => True

section PartNe

variable {c : Call} (h : c.part ≠ some .users)

include h

theorem Call.change?_of_part_ne {username : String} : c.change? username = none := by
  cases c with
  | insertUser | setAdmin | setPermissions => exact absurd rfl h
  | _ => rfl

theorem Call.appointsUniformly_of_part_ne {settings : Settings} : c.AppointsUniformly settings := by
  cases c with
  | insertUser | setAdmin | deleteUser => exact absurd rfl h
  | _ => trivial

end PartNe

namespace Store

variable {settings : Settings} {s : Store} {username : String} {changes : List Access.Change}

/-- The user of the name is stored, with this flag and these grants. -/
def Holds (s : Store) (username : String) (admin : Bool) (permissions : Permissions) : Prop :=
  ∃ user, s.getUser username = some user ∧ user.admin = admin ∧ user.permissions = permissions

/-- The user of the name is stored as the changes leave it: with the flag of the latest appointment, and the latest grants since
then or else the uniform ones. Or there were no changes, and the user is not stored. -/
def Reflects (settings : Settings) (s : Store) (username : String) (changes : List Access.Change) : Prop :=
  (s.getUser username = none ∧ changes = []) ∨
    ∃ (before : List Access.Change) (admin : Bool) (grants : List Permissions),
      changes = before ++ .appoint admin :: grants.map .grant ∧
      s.Holds username admin (grants.getLast?.getD (.uniform settings.environments admin))

theorem Reflects.of_getUser_eq {t : Store} (h : s.Reflects settings username changes)
    (hfound : t.getUser username = s.getUser username) : t.Reflects settings username changes := by
  unfold Reflects Holds at h ⊢
  rwa [hfound]

/-- Who was appointed is there. -/
theorem Reflects.getUser_ne_none_iff (h : s.Reflects settings username changes) : s.getUser username ≠ none ↔ changes ≠ [] := by
  rcases h with ⟨hnone, rfl⟩ | ⟨before, admin, grants, rfl, user, hfound, -⟩
  · exact iff_of_false (fun h => h hnone) fun h => h rfl
  · refine iff_of_true ?_ (List.append_ne_nil_of_right_ne_nil before (List.cons_ne_nil _ _))
    rw [hfound]
    exact Option.some_ne_none user

/-- An appointment counts whatever was before it. -/
theorem reflects_appoint {admin : Bool} (h : s.Holds username admin (.uniform settings.environments admin))
    (changes : List Access.Change) : s.Reflects settings username (changes ++ [.appoint admin]) :=
  Or.inr ⟨changes, admin, [], rfl, h⟩

/-- Grants count after the latest appointment. -/
theorem Reflects.grant (h : s.Reflects settings username changes) (hstored : s.getUser username ≠ none) {t : Store}
    {permissions : Permissions} (ht : ∀ admin held, s.Holds username admin held → t.Holds username admin permissions) :
    t.Reflects settings username (changes ++ [.grant permissions]) := by
  rcases h with ⟨hnone, -⟩ | ⟨before, admin, grants, rfl, hholds⟩
  · exact absurd hnone hstored
  · refine Or.inr ⟨before, admin, grants ++ [permissions], by simp, ?_⟩
    rw [List.getLast?_append, List.getLast?_singleton]
    exact ht admin _ hholds

/-- A change to a user that keeps the name is seen by looking the user up. -/
theorem getUser_changeUser (s : Store) (change : Access.User → Access.User) (hchange : ∀ u, (change u).username = u.username)
    (named username : String) :
    (s.changeUser named change).getUser username =
      if named = username then (s.getUser username).map change else s.getUser username := by
  have hsame : ((fun u : Access.User => u.username == username) ∘ fun u => if u.username = named then change u else u) =
      fun u => u.username == username := by
    funext u
    rw [Function.comp_apply]
    split
    · rw [hchange]
    · rfl
  have hfound : (s.changeUser named change).getUser username =
      (s.getUser username).map fun u => if u.username = named then change u else u := by
    unfold getUser changeUser
    rw [List.find?_map, hsame]
  rw [hfound]
  cases hget : s.getUser username with
  | none => split <;> rfl
  | some user =>
    obtain ⟨-, hname⟩ := of_find?_eq_some hget
    rw [Option.map_some, hname]
    by_cases hnamed : named = username
    · rw [if_pos hnamed.symm, if_pos hnamed]
      rfl
    · rw [if_neg (Ne.symm hnamed), if_neg hnamed]

section Calls

variable (s) (now : Time) (named : String) (username)

theorem getUser_after_setAdmin (admin : Bool) (permissions : Permissions) :
    ((Call.setAdmin named admin permissions).after now s).getUser username =
      if named = username then
        (s.getUser username).map fun u => { u with admin := admin, permissions := permissions, updatedAt := now }
      else s.getUser username := by
  rw [Call.after_setAdmin]
  exact getUser_changeUser s (fun u => { u with admin := admin, permissions := permissions, updatedAt := now })
    (fun _ => rfl) named username

theorem getUser_after_setPermissions (permissions : Permissions) :
    ((Call.setPermissions named permissions).after now s).getUser username =
      if named = username then (s.getUser username).map fun u => { u with permissions := permissions, updatedAt := now }
      else s.getUser username := by
  rw [Call.after_setPermissions]
  exact getUser_changeUser s (fun u => { u with permissions := permissions, updatedAt := now }) (fun _ => rfl) named username

/-- A new user is found by the name, and nobody else is found otherwise. -/
theorem getUser_after_insertUser (account : Access.Account) :
    ((Call.insertUser account).after now s).getUser username =
      if account.username = username ∧ s.getUser username = none then some (s.newUser now account) else s.getUser username := by
  rw [Call.after_insertUser]
  have htaken : s.users.any (·.username == account.username) = (s.getUser account.username).isSome := by
    rw [getUser, List.isSome_find?]
  rw [htaken]
  by_cases hname : account.username = username
  · subst hname
    cases hget : s.getUser account.username with
    | some user => simp [hget]
    | none =>
      unfold getUser at hget ⊢
      simp [List.find?_append, hget, newUser]
  · rw [if_neg (c := account.username = username ∧ s.getUser username = none) fun h => hname h.1]
    split
    · rfl
    · unfold getUser
      simp [List.find?_append, newUser, hname]

end Calls

/-- A call that does not change the access of a user leaves the row of the user. -/
theorem getUser_after {c : Call} (hc : c.AppointsUniformly settings) (hnone : c.change? username = none) (now : Time) :
    (c.after now s).getUser username = s.getUser username := by
  cases c with
  | deleteUser named => exact hc.elim
  | insertUser account =>
    have hne : account.username ≠ username := by simpa [Call.change?] using hnone
    rw [getUser_after_insertUser, if_neg fun h => hne h.1]
  | setAdmin named admin permissions =>
    have hne : named ≠ username := by simpa [Call.change?] using hnone
    rw [getUser_after_setAdmin, if_neg hne]
  | setPermissions named permissions =>
    have hne : named ≠ username := by simpa [Call.change?] using hnone
    rw [getUser_after_setPermissions, if_neg hne]
  | _ =>
    unfold getUser
    rw [Call.users_of_part_ne s now (by rintro ⟨⟩)]

/-- A user who is made was not there before. -/
theorem getUser_eq_none_of_insertUser {account : Access.Account} {now : Time}
    (hok : ((Call.insertUser account).exec now s).isOk = true) : s.getUser account.username = none := by
  cases htaken : s.users.any (·.username == account.username) with
  | true =>
    simp only [Call.exec, insertUser, htaken] at hok
    cases hok
  | false => simpa [getUser] using htaken

/-- A user who is made holds what the account says. -/
theorem holds_after_insertUser {account : Access.Account} {now : Time}
    (hok : ((Call.insertUser account).exec now s).isOk = true) :
    ((Call.insertUser account).after now s).Holds account.username account.admin account.permissions := by
  refine ⟨s.newUser now account, ?_, rfl, rfl⟩
  rw [getUser_after_insertUser, if_pos ⟨rfl, getUser_eq_none_of_insertUser hok⟩]

/-- A user who is needed and not refused is there. -/
theorem exists_getUser_of_userNamed_bind {named : String} {f : Access.User → Except Refusal Store}
    (hok : (Call.done (s.userNamed named >>= f)).isOk = true) : ∃ user, s.getUser named = some user := by
  unfold userNamed at hok
  cases hfound : s.getUser named with
  | some user => exact ⟨user, rfl⟩
  | none =>
    rw [show s.users.find? (·.username == named) = none from hfound] at hok
    cases hok

/-- Who is appointed holds what goes with it. -/
theorem holds_after_setAdmin {named : String} {admin : Bool} {permissions : Permissions} {now : Time}
    (hok : ((Call.setAdmin named admin permissions).exec now s).isOk = true) :
    ((Call.setAdmin named admin permissions).after now s).Holds named admin permissions := by
  obtain ⟨user, hfound⟩ := exists_getUser_of_userNamed_bind hok
  refine ⟨{ user with admin := admin, permissions := permissions, updatedAt := now }, ?_, rfl, rfl⟩
  rw [getUser_after_setAdmin, if_pos rfl, hfound]
  rfl

/-- A call that appoints uniformly is a change to what its user holds, and nothing to the other users. -/
theorem Reflects.after (h : s.Reflects settings username changes) {c : Call} (hc : c.AppointsUniformly settings) {now : Time}
    (hok : (c.exec now s).isOk = true) : (c.after now s).Reflects settings username (changes ++ (c.change? username).toList) := by
  cases hchange : c.change? username with
  | none =>
    rw [Option.toList_none, List.append_nil]
    exact h.of_getUser_eq (getUser_after hc hchange now)
  | some change =>
    cases c with
    | insertUser account =>
      obtain ⟨rfl, rfl⟩ : account.username = username ∧ Access.Change.appoint account.admin = change := by
        simpa [Call.change?] using hchange
      have hholds := holds_after_insertUser hok
      rw [show account.permissions = _ from hc] at hholds
      exact reflects_appoint hholds changes
    | setAdmin named admin permissions =>
      obtain ⟨rfl, rfl⟩ : named = username ∧ Access.Change.appoint admin = change := by simpa [Call.change?] using hchange
      have hholds := holds_after_setAdmin hok
      rw [show permissions = _ from hc] at hholds ⊢
      exact reflects_appoint hholds changes
    | setPermissions named permissions =>
      obtain ⟨rfl, rfl⟩ : named = username ∧ Access.Change.grant permissions = change := by simpa [Call.change?] using hchange
      obtain ⟨user, hfound⟩ := exists_getUser_of_userNamed_bind hok
      refine h.grant (by rw [hfound]; exact Option.some_ne_none user) ?_
      rintro admin held ⟨user', hfound', hadmin, -⟩
      refine ⟨{ user' with permissions := permissions, updatedAt := now }, ?_, hadmin, rfl⟩
      rw [getUser_after_setPermissions, if_pos rfl, hfound']
      rfl
    | _ => cases hchange

end Store

/-! ## Commands in turns -/

namespace Operation

variable (settings : Settings) (username : String)

/-- The change to the access of the user of the name that an operation asks for. -/
def change? : Operation → Option Access.Change
  | .addUser _ account => if Text.trim account.username = username then some (.appoint account.admin) else none
  | .setAdmin _ named admin => if named = username then some (.appoint admin) else none
  | .setPermissions _ named permissions => if named = username then some (.grant permissions) else none
  | .ensureAdmin named => if Text.trim named = username then some (.appoint true) else none
  | _ => none

variable {settings} {username}

/-- An operation makes no other change to the access of a user than it asks for. -/
theorem change?_of_makes {op : Operation} {c : Call} (h : op.Makes settings c) {change : Access.Change}
    (hchange : c.change? username = some change) : op.change? username = some change := by
  rcases h with hreads | hwrites
  · rw [Call.change?_of_part_ne (by rw [hreads]; nofun)] at hchange
    cases hchange
  · cases c with
    | insertUser account =>
      cases op with
      | addUser | ensureAdmin =>
        obtain ⟨-, heq⟩ := hwrites
        cases heq
        exact hchange
      | _ => simp [Writes] at hwrites
    | setAdmin named admin permissions =>
      cases op with
      | setAdmin =>
        cases hwrites
        exact hchange
      | _ => simp [Writes] at hwrites
    | setPermissions named permissions =>
      cases op with
      | setPermissions =>
        cases hwrites
        exact hchange
      | _ => simp [Writes] at hwrites
    | _ => cases hchange

theorem appointsUniformly_of_makes {op : Operation} {c : Call} (h : op.Makes settings c) : c.AppointsUniformly settings := by
  cases proper_of_makes h with
  | reads hreads => exact Call.appointsUniformly_of_part_ne (by rw [hreads]; nofun)
  | insertUser account husername hnamed hpermissions => exact hpermissions
  | setAdmin => exact rfl
  | _ => trivial

end Operation

/-- The roster does nothing to users. -/
theorem RosterOperation.part_ne_users_of_makes {settings : Settings} {op : RosterOperation} {c : Call}
    (h : (Command.roster op).Makes settings c) : c.part ≠ some .users := by
  rcases h with hreads | hwrites
  · rw [hreads]
    nofun
  · cases op with
    | enroll | observe | observeAddress =>
      obtain rfl := hwrites
      nofun
    | archive =>
      obtain ⟨_, _, rfl⟩ := hwrites
      nofun
    | retire => rcases hwrites with ⟨_, _, rfl⟩ | ⟨_, rfl⟩ <;> nofun
    | noteEvent =>
      obtain ⟨_, rfl⟩ := hwrites
      nofun
    | _ => exact hwrites.elim

/-- The change to the access of the user of the name that a command asks for. -/
def Command.change? (username : String) : Command → Option Access.Change
  | .fleet op => op.change? username
  | .roster _ => none

/-- A command appoints uniformly, and makes no other change to the access of a user than it asks for. -/
theorem Command.appoints_of_makes {settings : Settings} {command : Command} {c : Call} (h : command.Makes settings c) :
    c.AppointsUniformly settings ∧
      ∀ username change, c.change? username = some change → command.change? username = some change := by
  cases command with
  | fleet op => exact ⟨Operation.appointsUniformly_of_makes h, fun _ _ => Operation.change?_of_makes h⟩
  | roster op =>
    have hpart := RosterOperation.part_ne_users_of_makes h
    refine ⟨Call.appointsUniformly_of_part_ne hpart, ?_⟩
    intro username change hchange
    rw [Call.change?_of_part_ne hpart] at hchange
    cases hchange

/-- The change to the access of the user of the name that the entry of a journal carries out: the one its command asks for, if its
call is that change and is answered. -/
def Entry.change? (username : String) (s : Store) (entry : Entry) : Option Access.Change :=
  (entry.command.change? username).filter fun change =>
    entry.call.change? username = some change ∧ (entry.call.exec entry.time s).isOk

/-- An entry of a journal leaves the user of a name as the change does that it carries out. -/
theorem Store.Reflects.after_entry {settings : Settings} {s : Store} {username : String} {changes : List Access.Change}
    (h : s.Reflects settings username changes) {entry : Entry} (hmade : entry.command.Makes settings entry.call) :
    (entry.call.after entry.time s).Reflects settings username (changes ++ (entry.change? username s).toList) := by
  obtain ⟨hcall, hchange⟩ := Command.appoints_of_makes hmade
  cases hok : (entry.call.exec entry.time s).isOk with
  | false =>
    have hnone : entry.change? username s = none := by simp [Entry.change?, hok]
    rwa [hnone, Option.toList_none, List.append_nil, Call.after_of_not_ok entry.time hok]
  | true =>
    have hsame : entry.change? username s = entry.call.change? username := by
      refine Option.ext fun change => ?_
      simp only [Entry.change?, Option.filter_eq_some_iff, decide_eq_true_eq, hok, and_true]
      exact and_iff_right_of_imp (hchange username change)
    rw [hsame]
    exact h.after hcall hok

/-- The calls of a journal leave the user of a name as the changes do that they carry out. -/
theorem Store.Reflects.follow {settings : Settings} {s : Store} {username : String} {changes : List Access.Change}
    (h : s.Reflects settings username changes) {journal : List Entry}
    (hmade : ∀ entry ∈ journal, entry.command.Makes settings entry.call) :
    (s.follow journal).Reflects settings username (changes ++ s.gather (Entry.change? username) journal) := by
  induction journal generalizing s changes with
  | nil =>
    rw [gather, List.append_nil]
    exact h
  | cons entry journal ih =>
    obtain ⟨hentry, hrest⟩ := List.forall_mem_cons.mp hmade
    rw [gather, ← List.append_assoc]
    exact ih (h.after_entry hentry) hrest

/-! ## Operations one after another -/

/-- A run of the program on the store makes one call at most: it is refused and leaves the store, or it has a result once the call
was answered. -/
def Program.Attempts {α : Type} (p : Program α) (c : Call) (time : Time) (s : Store) : Prop :=
  (∃ why, p.run time s = (.error why, s)) ∨ (c.exec time s).isOk = true ∧ ∃ a, p.run time s = (.ok a, c.after time s)

namespace Program

variable {α β : Type} {p : Program α} {c : Call} {time : Time} {s : Store}

theorem attempts_refuse (why : Refusal) : (refuse why : Program α).Attempts c time s := Or.inl ⟨_, rfl⟩

theorem attempts_ask (c : Call) (time : Time) (s : Store) : (ask c).Attempts c time s := by
  cases hrun : (ask c).run time s with
  | mk result s' =>
    cases result with
    | error why =>
      obtain rfl := allOrNothing_ask c why s' hrun
      exact Or.inl ⟨why, hrun⟩
    | ok reply =>
      obtain ⟨hok, rfl⟩ := of_run_ask_eq_ok hrun
      exact Or.inr ⟨hok, reply, hrun⟩

theorem Attempts.map (h : p.Attempts c time s) (f : α → β) : (f <$> p).Attempts c time s := by
  rcases h with ⟨why, hrun⟩ | ⟨hok, a, hrun⟩
  · exact Or.inl ⟨why, run_map_of_error hrun f⟩
  · exact Or.inr ⟨hok, f a, run_map_of_ok hrun f⟩

/-- What is read first does not matter. -/
theorem Attempts.bind_of_reads {f : α → Program β} (hp : p.Asks fun c => c.part = none) (hf : ∀ a, (f a).Attempts c time s) :
    (p >>= f).Attempts c time s := by
  rcases run_bind_of_reads hp f time s with h | ⟨a, -, hrun⟩
  · exact Or.inl h
  · have hrest := hf a
    unfold Attempts at hrest ⊢
    rwa [hrun]

end Program

theorem Accounts.attempts_add (account : Access.Account) (environments : List String) (time : Time) (s : Store) :
    (add account environments).Attempts (.insertUser { account with
      username := Text.trim account.username, permissions := .uniform environments account.admin }) time s := by
  unfold add
  dsimp only
  split
  · exact Program.attempts_refuse _
  · exact Program.attempts_ask _ time s

namespace Fleet

section Ensuring

variable {settings : Settings} {username : String} (time : Time) {s : Store}

/-- When the name is found as it is spelled, nothing is done. -/
theorem run_ensureAdmin_of_known {user : Access.User} (hknown : s.getUser username = some user) :
    (ensureAdmin settings username).run time s = (.ok (), s) := by
  unfold ensureAdmin
  rw [Program.run_bind_of_ok (Accounts.run_has time), hknown]
  rfl

variable (hunknown : s.getUser username = none)

include hunknown

/-- When the name is not found as it is spelled, the administrator is made. -/
theorem run_ensureAdmin_of_made {user : Access.User} {s' : Store}
    (hadd : (Accounts.add { Access.Account.blank with username := username, admin := true } settings.environments).run time s =
      (.ok user, s')) : (ensureAdmin settings username).run time s = (.ok (), s') := by
  unfold ensureAdmin
  rw [Program.run_bind_of_ok (Accounts.run_has time), hunknown]
  exact Program.run_bind_of_ok (Program.run_attempt_of_ok hadd) _

/-- A refusal to make the administrator is passed over if it is that the name is taken. -/
theorem run_ensureAdmin_of_refused {why : Refusal}
    (hadd : (Accounts.add { Access.Account.blank with username := username, admin := true } settings.environments).run time s =
      (.error (.refused why), s)) :
    (ensureAdmin settings username).run time s =
      (if why.kind = .alreadyExists then .ok () else .error (.refused why), s) := by
  unfold ensureAdmin
  rw [Program.run_bind_of_ok (Accounts.run_has time), hunknown]
  refine (Program.run_bind_of_ok (Program.run_attempt_of_refused hadd) _).trans ?_
  dsimp only
  split <;> rfl

end Ensuring

variable (settings : Settings) (actor username : String) (time : Time) (s : Store)

/-- Whoever may do it makes one call. -/
theorem attempts_require {p : Program Unit} {c : Call} (level : Level) (environment : Option String)
    (hp : p.Attempts c time s) : (Accounts.require actor level environment >>= fun _ => p).Attempts c time s :=
  .bind_of_reads (Accounts.asks_require (fun _ => id) actor level environment) fun _ => hp

/-- Whom a start of the service ensures is there already, or is made. -/
theorem run_ensureAdmin :
    (ensureAdmin settings username).run time s = (.ok (), s) ∨
      (ensureAdmin settings username).Attempts (.insertUser { Access.Account.blank with
        username := Text.trim username, admin := true, permissions := .uniform settings.environments true }) time s := by
  cases hfound : s.getUser username with
  | some user => exact Or.inl (run_ensureAdmin_of_known time hfound)
  | none =>
    rcases Accounts.attempts_add { Access.Account.blank with username := username, admin := true } settings.environments
      time s with ⟨why, hadd⟩ | ⟨hok, user, hadd⟩
    · cases why with
      | refused refusal =>
        have hrun := run_ensureAdmin_of_refused time hfound hadd
        split at hrun
        · exact Or.inl hrun
        · exact Or.inr (Or.inl ⟨_, hrun⟩)
      | noCutoff =>
        refine Or.inr (Or.inl ⟨.noCutoff, ?_⟩)
        unfold ensureAdmin
        rw [Program.run_bind_of_ok (Accounts.run_has time), hfound]
        exact Program.run_bind_of_error (Program.run_attempt_of_noCutoff hadd) _
    · exact Or.inr (Or.inr ⟨hok, (), run_ensureAdmin_of_made time hfound hadd⟩)

end Fleet

namespace Operation

/-- The operation is to make a user. -/
def makesUser : Operation → Bool
  | .addUser _ _ | .ensureAdmin _ => true
  | _ => false

variable (settings : Settings) (username : String)

/-- The change to the access of the user of the name that an operation, carried out as a whole, makes: the one it asks for, if it
has a result, and if it made the user where it is to make one. -/
def changed? (time : Time) (s : Store) (op : Operation) : Option Access.Change :=
  (op.change? username).filter fun _ =>
    (op.run settings time s).1.isOk = true ∧
      (op.makesUser = true → s.getUser username = none ∧ (op.run settings time s).2.getUser username ≠ none)

/-- The changes to the access of the user of the name that operations, carried out one after another, make. -/
def changes : Store → List (Time × Operation) → List Access.Change
  | _, [] => []
  | s, (time, op) :: ops => (op.changed? settings username time s).toList ++ changes (op.run settings time s).2 ops

/-- The operations that have a result when they are carried out one after another. -/
def successes : Store → List (Time × Operation) → List Operation
  | _, [] => []
  | s, (time, op) :: ops =>
    (if (op.run settings time s).1.isOk then [op] else []) ++ successes (op.run settings time s).2 ops

variable {settings} {username}

/-- An operation that is to change the access of a user makes the one call that does, unless it is refused; or it ensures what is
there already. -/
theorem attempts_of_change? (settings : Settings) {op : Operation} {change : Access.Change}
    (hchange : op.change? username = some change) (time : Time) (s : Store) :
    (op.makesUser = true ∧ op.run settings time s = (.ok .nothing, s)) ∨
      ∃ c : Call, (op.program settings).Attempts c time s ∧ c.AppointsUniformly settings ∧ c.change? username = some change ∧
        (op.makesUser = true → ∃ account, c = .insertUser account) := by
  cases op with
  | addUser actor account =>
    have hadd := (Accounts.attempts_add account settings.environments time s).map fun _ => ()
    exact Or.inr ⟨_, (Fleet.attempts_require actor time s .admin none hadd).map _, rfl, hchange, fun _ => ⟨_, rfl⟩⟩
  | setAdmin actor named admin =>
    have hset := Program.attempts_ask (.setAdmin named admin (.uniform settings.environments admin)) time s
    exact Or.inr ⟨_, (Fleet.attempts_require actor time s .admin none hset).map _, rfl, hchange, nofun⟩
  | setPermissions actor named permissions =>
    have hset := Program.attempts_ask (.setPermissions named permissions) time s
    exact Or.inr ⟨_, (Fleet.attempts_require actor time s .admin none hset).map _, trivial, hchange, nofun⟩
  | ensureAdmin named =>
    rcases Fleet.run_ensureAdmin settings named time s with hrun | hattempt
    · exact Or.inl ⟨rfl, Program.run_map_of_ok hrun _⟩
    · exact Or.inr ⟨_, hattempt.map _, rfl, hchange, fun _ => ⟨_, rfl⟩⟩
  | _ => cases hchange

/-- An operation that asks for no change to the access of a user leaves the row of the user. -/
theorem getUser_run {op : Operation} (hchange : op.change? username = none) (time : Time) (s : Store) :
    (op.run settings time s).2.getUser username = s.getUser username := by
  refine Program.run_preserves (P := fun t => t.getUser username = s.getUser username) ?_ (op.asks_makes settings) rfl
  intro c hc t ht
  refine (Store.getUser_after (appointsUniformly_of_makes hc) ?_ time).trans ht
  refine Option.eq_none_iff_forall_ne_some.mpr ?_
  intro change hmakes
  rw [change?_of_makes hc hmakes] at hchange
  cases hchange

theorem changed?_eq_some_iff {op : Operation} {time : Time} {s : Store} {change : Access.Change} :
    op.changed? settings username time s = some change ↔
      op.change? username = some change ∧ (op.run settings time s).1.isOk = true ∧
        (op.makesUser = true → s.getUser username = none ∧ (op.run settings time s).2.getUser username ≠ none) := by
  simp only [changed?, Option.filter_eq_some_iff, decide_eq_true_eq]

/-- An operation, carried out as a whole, leaves the user of a name as the change does that it makes. -/
theorem reflects_run {s : Store} {made : List Access.Change} (h : s.Reflects settings username made) (op : Operation)
    (time : Time) :
    (op.run settings time s).2.Reflects settings username (made ++ (op.changed? settings username time s).toList) := by
  cases hchanged : op.changed? settings username time s with
  | none =>
    rw [Option.toList_none, List.append_nil]
    refine h.of_getUser_eq ?_
    cases hchange : op.change? username with
    | none => exact getUser_run hchange time s
    | some change =>
      rcases attempts_of_change? settings hchange time s with
        ⟨-, hrun⟩ | ⟨c, ⟨why, hrun⟩ | ⟨hok, answer, hrun⟩, hc, hcall, hnew⟩
      · rw [hrun]
      · rw [run, hrun]
      · -- a change that was made is told
        have hafter := (h.after hc hok).getUser_ne_none_iff.mpr (by rw [hcall]; simp)
        have hsome : op.changed? settings username time s = some change := by
          refine changed?_eq_some_iff.mpr ⟨hchange, by rw [run, hrun]; rfl, ?_⟩
          intro hmakes
          obtain ⟨account, rfl⟩ := hnew hmakes
          obtain ⟨rfl, -⟩ : account.username = username ∧ Access.Change.appoint account.admin = change := by
            simpa [Call.change?] using hcall
          refine ⟨Store.getUser_eq_none_of_insertUser hok, ?_⟩
          rwa [run, hrun]
        rw [hchanged] at hsome
        cases hsome
  | some change =>
    obtain ⟨hchange, hresult, hmade⟩ := changed?_eq_some_iff.mp hchanged
    rcases attempts_of_change? settings hchange time s with
      ⟨hmakes, hrun⟩ | ⟨c, ⟨why, hrun⟩ | ⟨hok, answer, hrun⟩, hc, hcall, -⟩
    · obtain ⟨hbefore, hafter⟩ := hmade hmakes
      rw [hrun] at hafter
      exact absurd hbefore hafter
    · rw [run, hrun] at hresult
      cases hresult
    · have hafter := h.after hc hok
      rw [hcall] at hafter
      rwa [run, hrun]

/-- Operations, carried out one after another, leave the user of a name as the changes do that they make. -/
theorem reflects_replay {s : Store} {made : List Access.Change} (h : s.Reflects settings username made)
    (ops : List (Time × Operation)) :
    (replay settings s ops).Reflects settings username (made ++ changes settings username s ops) := by
  induction ops generalizing s made with
  | nil =>
    rw [changes, List.append_nil]
    exact h
  | cons entry ops ih =>
    rw [changes, ← List.append_assoc]
    exact ih (reflects_run h entry.2 entry.1)

/-- The access of a user who is there is changed by nothing but settings of it that have a result. -/
theorem of_mem_changes {s : Store} {made : List Access.Change} (h : s.Reflects settings username made) (hmade : made ≠ [])
    {ops : List (Time × Operation)} {change : Access.Change} (hmem : change ∈ changes settings username s ops) :
    (∃ actor admin, change = .appoint admin ∧ .setAdmin actor username admin ∈ successes settings s ops) ∨
      ∃ actor permissions, change = .grant permissions ∧ .setPermissions actor username permissions ∈ successes settings s ops := by
  induction ops generalizing s made with
  | nil => exact absurd hmem List.not_mem_nil
  | cons entry ops ih =>
    obtain ⟨time, op⟩ := entry
    rw [changes, List.mem_append, Option.mem_toList] at hmem
    simp only [successes, List.mem_append]
    rcases hmem with hfirst | hrest
    · obtain ⟨hchange, hresult, hnew⟩ := changed?_eq_some_iff.mp hfirst
      rw [if_pos hresult]
      cases op with
      | addUser | ensureAdmin => exact absurd (hnew rfl).1 (h.getUser_ne_none_iff.mpr hmade)
      | setAdmin actor named admin =>
        obtain ⟨rfl, rfl⟩ : named = username ∧ Access.Change.appoint admin = change := by simpa [change?] using hchange
        exact Or.inl ⟨actor, admin, rfl, Or.inl List.mem_cons_self⟩
      | setPermissions actor named permissions =>
        obtain ⟨rfl, rfl⟩ : named = username ∧ Access.Change.grant permissions = change := by simpa [change?] using hchange
        exact Or.inr ⟨actor, permissions, rfl, Or.inl List.mem_cons_self⟩
      | _ => cases hchange
    · rcases ih (reflects_run h op time) (List.append_ne_nil_of_left_ne_nil hmade _) hrest with
        ⟨actor, admin, heq, hset⟩ | ⟨actor, permissions, heq, hset⟩
      · exact Or.inl ⟨actor, admin, heq, Or.inr hset⟩
      · exact Or.inr ⟨actor, permissions, heq, Or.inr hset⟩

end Operation

/-! ## Decisions -/

namespace Store

variable {settings : Settings} {s : Store} {username : String} {changes : List Access.Change}

/-- Every check of the user of the name is decided as the changes tell: by the flag of the latest appointment, and by the latest
grants since then or else the uniform ones. -/
def AnswersBy (settings : Settings) (s : Store) (username : String) (changes : List Access.Change) : Prop :=
  ∃ (before : List Access.Change) (admin : Bool) (grants : List Permissions),
    changes = before ++ .appoint admin :: grants.map .grant ∧
    ∀ level environment time, (Operation.authorize username level environment).run settings time s =
      (.ok (.decision (decide
        (Access.Passes admin (grants.getLast?.getD (.uniform settings.environments admin)) level environment))), s)

/-- The check of a user who is there is decided by what the user holds. -/
theorem Holds.run_authorize {admin : Bool} {permissions : Permissions} (h : s.Holds username admin permissions)
    (settings : Settings) (level : Level) (environment : Option String) (time : Time) :
    (Operation.authorize username level environment).run settings time s =
      (.ok (.decision (decide (Access.Passes admin permissions level environment))), s) := by
  obtain ⟨user, hfound, rfl, rfl⟩ := h
  refine Program.run_map_of_ok ?_ _
  rw [Accounts.run_authorize, hfound, Access.decide_passes]
  rfl

theorem Reflects.answersBy (h : s.Reflects settings username changes) (hstored : s.getUser username ≠ none) :
    s.AnswersBy settings username changes := by
  rcases h with ⟨hnone, -⟩ | ⟨before, admin, grants, rfl, hholds⟩
  · exact absurd hnone hstored
  · exact ⟨before, admin, grants, rfl, hholds.run_authorize settings⟩

/-- With no appointment after it, an appointment is the latest. -/
theorem Reflects.holds {admin : Bool} {grants : List Permissions}
    (h : s.Reflects settings username (.appoint admin :: grants.map .grant)) :
    s.Holds username admin (grants.getLast?.getD (.uniform settings.environments admin)) := by
  rcases h with ⟨-, hnil⟩ | ⟨before, admin', grants', heq, hholds⟩
  · cases hnil
  · cases before with
    | nil =>
      obtain ⟨hadmin, hgrants⟩ := List.cons.inj heq
      cases hadmin
      rwa [List.map_injective_iff.mpr (fun _ _ => Access.Change.grant.inj) hgrants]
    | cons first rest =>
      have hmem : Access.Change.appoint admin' ∈ grants.map .grant := by
        rw [(List.cons.inj heq).2]
        exact List.mem_append_right _ List.mem_cons_self
      obtain ⟨_, -, hne⟩ := List.mem_map.mp hmem
      cases hne

end Store

namespace Operation

variable {settings : Settings} {username actor : String} {admin : Bool} {time : Time} {s s₁ : Store} {answer : Answer}

/-- Who was just appointed holds what goes with it. -/
theorem reflects_of_run_setAdmin (hrun : (Operation.setAdmin actor username admin).run settings time s = (.ok answer, s₁)) :
    s₁.Reflects settings username [.appoint admin] := by
  have hset := Program.attempts_ask (.setAdmin username admin (.uniform settings.environments admin)) time s
  rcases (Fleet.attempts_require actor time s .admin none hset).map fun _ => Answer.nothing with
    ⟨why, hrun'⟩ | ⟨hok, answer', hrun'⟩
  · cases hrun.symm.trans hrun'
  · obtain rfl := congrArg Prod.snd (hrun.symm.trans hrun')
    exact Store.reflects_appoint (Store.holds_after_setAdmin hok) []

/-- While nobody is appointed anew, an appointment holds, with the latest grants since then. -/
theorem holds_replay_of_run_setAdmin
    (hrun : (Operation.setAdmin actor username admin).run settings time s = (.ok answer, s₁)) {ops : List (Time × Operation)}
    (hset : ∀ actor admin, Operation.setAdmin actor username admin ∉ successes settings s₁ ops) :
    ∃ grants : List Permissions, changes settings username s₁ ops = grants.map .grant ∧
      (replay settings s₁ ops).Holds username admin (grants.getLast?.getD (.uniform settings.environments admin)) := by
  have happointed := reflects_of_run_setAdmin hrun
  have hgrants : changes settings username s₁ ops ∈ Set.range (List.map Access.Change.grant) := by
    rw [Set.range_list_map]
    intro change hmem
    rcases of_mem_changes happointed (List.cons_ne_nil _ _) hmem with ⟨actor, admin, -, hmem'⟩ | ⟨_, permissions, rfl, -⟩
    · exact absurd hmem' (hset actor admin)
    · exact Set.mem_range_self permissions
  obtain ⟨grants, hgrants⟩ := hgrants
  refine ⟨grants, hgrants.symm, Store.Reflects.holds ?_⟩
  rw [hgrants]
  exact reflects_replay happointed ops

/-- While neither the flag nor the grants are set anew, who was dismissed is denied. -/
theorem authorize_of_dismissed (hrun : (Operation.setAdmin actor username false).run settings time s = (.ok answer, s₁))
    {ops : List (Time × Operation)} (hset : ∀ actor admin, Operation.setAdmin actor username admin ∉ successes settings s₁ ops)
    (hgranted : ∀ actor permissions, Operation.setPermissions actor username permissions ∉ successes settings s₁ ops)
    (level : Level) (environment : Option String) (now : Time) :
    (Operation.authorize username level environment).run settings now (replay settings s₁ ops) =
      (.ok (.decision false), replay settings s₁ ops) := by
  obtain ⟨grants, hchanges, hholds⟩ := holds_replay_of_run_setAdmin hrun hset
  have hnone : grants = [] := by
    refine List.eq_nil_iff_forall_not_mem.mpr ?_
    intro permissions hmem
    have hchange : Access.Change.grant permissions ∈ changes settings username s₁ ops := by
      rw [hchanges]
      exact List.mem_map_of_mem hmem
    rcases of_mem_changes (reflects_of_run_setAdmin hrun) (List.cons_ne_nil _ _) hchange with
      ⟨_, _, hne, -⟩ | ⟨actor', permissions', -, hmem'⟩
    · cases hne
    · exact hgranted actor' permissions' hmem'
  obtain rfl := hnone
  have hdenied := Access.not_passes_of_dismissed settings.environments level environment
  rw [← decide_eq_false hdenied]
  exact hholds.run_authorize settings level environment now

/-- While the flag is not set anew, who was made an administrator passes. -/
theorem authorize_of_promoted (hrun : (Operation.setAdmin actor username true).run settings time s = (.ok answer, s₁))
    {ops : List (Time × Operation)} (hset : ∀ actor admin, Operation.setAdmin actor username admin ∉ successes settings s₁ ops)
    (level : Level) (environment : Option String) (now : Time) :
    (Operation.authorize username level environment).run settings now (replay settings s₁ ops) =
      (.ok (.decision true), replay settings s₁ ops) := by
  obtain ⟨grants, -, hholds⟩ := holds_replay_of_run_setAdmin hrun hset
  have hpasses : Access.Passes true (grants.getLast?.getD (.uniform settings.environments true)) level environment := Or.inl rfl
  rw [← decide_eq_true hpasses]
  exact hholds.run_authorize settings level environment now

/-- Each check of a user who is there is decided by the latest operation that set whether the user is an administrator, and by the
latest setting of the grants since then, or else by the uniform grants of all environments. -/
theorem access_over_runs (settings : Settings) (username : String) :
    (∀ ops, (replay settings .empty ops).getUser username ≠ none →
      (replay settings .empty ops).AnswersBy settings username (changes settings username .empty ops)) ∧
    (∀ v : Session, v.Reached settings → v.store.getUser username ≠ none →
      v.store.AnswersBy settings username (Store.empty.gather (Entry.change? username) v.journal)) ∧
    ∀ actor admin time s answer s₁, (Operation.setAdmin actor username admin).run settings time s = (.ok answer, s₁) → ∀ ops,
      (∀ actor admin, .setAdmin actor username admin ∉ successes settings s₁ ops) →
      (admin = false → (∀ actor permissions, .setPermissions actor username permissions ∉ successes settings s₁ ops) →
        ∀ level environment now, (Operation.authorize username level environment).run settings now (replay settings s₁ ops) =
          (.ok (.decision false), replay settings s₁ ops)) ∧
      (admin = true →
        ∀ level environment now, (Operation.authorize username level environment).run settings now (replay settings s₁ ops) =
          (.ok (.decision true), replay settings s₁ ops)) := by
  have hempty : Store.empty.Reflects settings username [] := Or.inl ⟨rfl, rfl⟩
  refine ⟨?_, ?_, ?_⟩
  · intro ops hstored
    exact (reflects_replay hempty ops).answersBy hstored
  · intro v hv hstored
    obtain ⟨-, hstore, hjournal⟩ := hv.kept_of_asks (Command.asks_makes settings)
    have hfollow := hempty.follow hjournal
    rw [← hstore] at hfollow
    exact hfollow.answersBy hstored
  · intro actor admin time s answer s₁ hrun ops hset
    constructor
    · rintro rfl hgranted
      exact authorize_of_dismissed hrun hset hgranted
    · rintro rfl
      exact authorize_of_promoted hrun hset

/-- Someone was granted queries and made an administrator, and is then made one no more, tries to get the grants back, is refused,
and is denied whatever is asked. -/
theorem access_over_runs_of_dismissed :
    let settings : Settings := .embedded ["prod"]
    let granted : Permissions := ⟨.ofList [("prod", true)], true, false⟩
    let ops : List (Time × Operation) := [(0, .ensureAdmin "root"),
      (1, .addUser "root" { Access.Account.blank with username := " ann " }), (2, .setPermissions "root" "ann" granted),
      (3, .setAdmin "root" "ann" true)]
    let dismissal : Operation := .setAdmin "root" "ann" false
    let s := replay settings .empty ops
    let s₁ := (dismissal.run settings 4 s).2
    let later : List (Time × Operation) := [(5, .setPermissions "ann" "ann" granted), (6, .ensureAdmin "ann")]
    let v := Session.start.performAll settings ((ops ++ [(4, dismissal)]).map (Prod.map id Command.fleet))
    s.AnswersBy settings "ann" [.appoint false, .grant granted, .appoint true] ∧
      v.store.AnswersBy settings "ann" [.appoint false, .grant granted, .appoint true, .appoint false] ∧
      ∀ level environment now, (Operation.authorize "ann" level environment).run settings now (replay settings s₁ later) =
        (.ok (.decision false), replay settings s₁ later) := by
  intro settings granted ops dismissal s s₁ later v
  obtain ⟨hreplay, hsession, hset⟩ := access_over_runs settings "ann"
  refine ⟨?_, ?_, ?_⟩
  · have hchanges : changes settings "ann" .empty ops = [.appoint false, .grant granted, .appoint true] := by decide +kernel
    rw [← hchanges]
    exact hreplay ops (by decide +kernel)
  · have hchanges : Store.empty.gather (Entry.change? "ann") v.journal =
        [.appoint false, .grant granted, .appoint true, .appoint false] := by decide +kernel
    rw [← hchanges]
    exact hsession v (.performAll .refl _) (by decide +kernel)
  · have hresult : (dismissal.run settings 4 s).1 = .ok .nothing := by decide +kernel
    have hrun : dismissal.run settings 4 s = (.ok .nothing, s₁) := by
      rw [← hresult]
    have hsuccesses : successes settings s₁ later = [.ensureAdmin "ann"] := by decide +kernel
    refine (hset "root" false 4 s .nothing s₁ hrun later ?_).1 rfl ?_
    · rw [hsuccesses]
      simp
    · rw [hsuccesses]
      simp

end Operation

end FleetControl
