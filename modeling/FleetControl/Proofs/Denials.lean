import FleetControl.Proofs.Journal
import FleetControl.Proofs.Mediation

/-!
# What a denied caller learns

An operation of an administrator begins with the check of its actor, before it looks at its arguments or at anything else that is
stored. So what it answers to an actor who does not pass the check depends on the users of the store alone: two stores with the
same users, whatever their nodes and queries, refuse it alike (`Operation.denied_alike`), and it asked them for nothing but the actor.
-/

namespace FleetControl

open Access (Level User)
open Program (calls_ask calls_bind_of_ok calls_bind_of_error run_ask_of_ok run_bind_of_error)

namespace Accounts

variable (username : String) (level : Level) (environment : Option String) (time : Time) (s : Store)

/-- To decide a check the user is looked up, and nothing else. -/
theorem calls_authorize : (authorize username level environment).calls time s = [.getUser username] := by
  have hlookup : (Program.ask (.getUser username)).run time s = (.ok (s.getUser username), s) := run_ask_of_ok rfl
  unfold authorize
  rw [calls_bind_of_ok hlookup, calls_ask]
  cases s.getUser username <;> rfl

/-- To check an actor the actor is looked up, and nothing else. -/
theorem calls_require : (require username level environment).calls time s = [.getUser username] := by
  unfold require
  rw [calls_bind_of_ok (run_authorize time), calls_authorize]
  cases (s.getUser username).any (·.allows level environment) <;> rfl

end Accounts

namespace Store

variable {s t : Store} {username : String} {level : Level} {environment : Option String}

/-- Whom a store permits what is told by its users. -/
theorem permits_iff_of_users_eq (h : t.users = s.users) :
    t.Permits username level environment ↔ s.Permits username level environment := by
  have hfound : t.getUser username = s.getUser username := by rw [getUser, getUser, h]
  rw [permits_iff, permits_iff, hfound]

/-- A user whom the store does not know is permitted nothing. -/
theorem not_permits_of_getUser_eq_none (h : s.getUser username = none) : ¬s.Permits username level environment := by
  rintro ⟨user, hfound, -⟩
  rw [h] at hfound
  cases hfound

end Store

namespace Operation

variable {settings : Settings} {op : Operation} {s : Store} {actor : String} {level : Level} {environment : Option String}

section Denied

variable (hop : op.access? = some (actor, level, environment)) (h : ¬s.Permits actor level environment) (time : Time)

include hop h

/-- An operation whose actor does not pass its check is refused by the check and changes nothing. -/
theorem run_of_not_permits : op.run settings time s = (.error (.refused (.lacksAccess actor level environment)), s) := by
  obtain ⟨next, hprogram⟩ := exists_program_eq_require_bind settings hop
  rw [run, hprogram]
  exact run_bind_of_error (Accounts.run_require_of_not_permits time h) next

/-- An operation whose actor does not pass its check asks for the actor and nothing else. -/
theorem calls_of_not_permits : (op.program settings).calls time s = [.getUser actor] := by
  obtain ⟨next, hprogram⟩ := exists_program_eq_require_bind settings hop
  rw [hprogram, calls_bind_of_error (Accounts.run_require_of_not_permits time h), Accounts.calls_require]

end Denied

/-- A denied caller learns nothing. Stores with the same users refuse the operation alike, whatever else they hold and at whatever
times; each stays as it was and is asked for the actor alone. -/
theorem denied_alike (settings : Settings) :
    (∀ (op : Operation) (actor : String) (level : Level) (environment : Option String),
      op.access? = some (actor, level, environment) →
      ∀ s t : Store, t.users = s.users → ¬s.Permits actor level environment → ∀ time time' : Time,
        op.run settings time s = (.error (.refused (.lacksAccess actor level environment)), s) ∧
        op.run settings time' t = (.error (.refused (.lacksAccess actor level environment)), t) ∧
        (Refusal.lacksAccess actor level environment).kind = .permissionDenied ∧
        (op.program settings).calls time s = [.getUser actor] ∧ (op.program settings).calls time' t = [.getUser actor]) ∧
    ∀ (s : Store) (actor : String), s.getUser actor = none →
      ∀ (level : Level) (environment : Option String), ¬s.Permits actor level environment := by
  refine ⟨?_, fun s actor hunknown level environment => Store.not_permits_of_getUser_eq_none hunknown⟩
  intro op actor level environment hop s t husers hdenied time time'
  have hdenied' : ¬t.Permits actor level environment := by rwa [Store.permits_iff_of_users_eq husers]
  have hs : op.run settings time s = (.error (.refused (.lacksAccess actor level environment)), s) :=
    run_of_not_permits hop hdenied time
  have ht : op.run settings time' t = (.error (.refused (.lacksAccess actor level environment)), t) :=
    run_of_not_permits hop hdenied' time'
  exact ⟨hs, ht, rfl, calls_of_not_permits hop hdenied time, calls_of_not_permits hop hdenied' time'⟩

/-- A user who may launch queries but no carves asks for a carve of a blank path without any target, and a stranger asks for a
node to be removed. Neither is told whether the node is enrolled. -/
theorem denied_alike_with_and_without_node :
    let settings : Settings := .embedded ["prod"]
    let s := replay settings .empty [(0, .ensureAdmin "root"), (1, .addUser "root" { Access.Account.blank with username := "bob" }),
      (2, .setPermissions "root" "bob" { Access.Permissions.none with query := true })]
    let t := replay settings s [(3, .enroll "a-1" "key" { Attributes.blank with environment := "prod" })]
    s.nodes ≠ t.nodes ∧
      ((createCarve 0 "bob" "" []).run settings 4 s).1 = ((createCarve 0 "bob" "" []).run settings 4 t).1 ∧
      ((nodeAction "eve" .delete ["a-1"]).run settings 4 s).1 = ((nodeAction "eve" .delete ["a-1"]).run settings 4 t).1 := by
  intro settings s t
  obtain ⟨hdenied, hunknown⟩ := denied_alike settings
  have husers : t.users = s.users := by decide +kernel
  have hbob : ¬s.Permits "bob" .carve none := by decide +kernel
  have heve : ¬s.Permits "eve" .admin none := hunknown s "eve" (by decide +kernel) .admin none
  refine ⟨by decide +kernel, ?_, ?_⟩
  · obtain ⟨hs, ht, -⟩ := hdenied (.createCarve 0 "bob" "" []) "bob" .carve none rfl s t husers hbob 4 4
    rw [hs, ht]
  · obtain ⟨hs, ht, -⟩ := hdenied (.nodeAction "eve" .delete ["a-1"]) "eve" .admin none rfl s t husers heve 4 4
    rw [hs, ht]

end Operation

end FleetControl
