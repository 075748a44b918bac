import FleetControl.Proofs.Grants
import FleetControl.Proofs.Numbering
import FleetControl.Proofs.Variables

/-!
# The first administrator

A start of the service ensures that there is an administrator of the name in the settings. The name is looked up as it is spelled, while
accounts are made with trimmed names, so a name that is padded is not found although an account has it; the account is then refused as
taken, which is passed over (`Fleet.run_ensureAdmin_of_taken`). In a store that operations lead to every name is trimmed, so a name
whose trimmed form is free is not found either, and the account is made (`Fleet.run_ensureAdmin_of_free`). Since operations remove no
user, the name stays taken (`Traffic.LeadsTo.mem_usernames`). So whoever is named in settings that are accepted is ensured, as often as
the service starts (`Operation.ensureAdmin_of_leadsTo`).
-/

namespace FleetControl

open Access (Account)
open Program (run_bind_of_ok run_bind_of_error run_ask_of_ok run_ask_of_error run_map_of_ok run_map_of_error)

/-! ## Names that are taken -/

variable {settings : Settings} {s : Store} {name username : String}

theorem Store.getUser_eq_none_iff : s.getUser name = none ↔ name ∉ s.users.map (·.username) := by
  simp [getUser, List.find?_eq_none]

/-- A name that no account has in its trimmed form is not found as it is spelled. -/
theorem Store.getUser_eq_none_of_reachable (hs : Reachable settings s) (hfree : Text.trim name ∉ s.users.map (·.username)) :
    s.getUser name = none := by
  rw [getUser_eq_none_iff]
  intro hmem
  obtain ⟨user, huser, rfl⟩ := List.mem_map.mp hmem
  rw [((usernames_of_reachable hs).2 user huser).2] at hfree
  exact hfree hmem

/-- Proper calls remove no user. -/
theorem Call.mem_usernames_after {c : Call} (hc : c.Proper settings) (now : Time) (s : Store)
    (h : name ∈ s.users.map (·.username)) : name ∈ (c.after now s).users.map (·.username) := by
  rcases Call.users_cases s now c with ⟨change, hsame, husers⟩ | ⟨account, -, -, husers⟩ | ⟨named, rfl, -⟩
  · rwa [husers, Store.map_username_of_same hsame]
  · rw [husers, List.map_append]
    exact List.mem_append_left _ h
  · cases hc with
    | reads hreads => cases hreads

/-- A name that is taken stays taken, whatever operations do. -/
theorem Traffic.LeadsTo.mem_usernames {v w : Traffic} (steps : LeadsTo settings v w) (hv : v.Proper settings)
    (h : name ∈ v.store.users.map (·.username)) : name ∈ w.store.users.map (·.username) :=
  (steps.preserves (P := fun s => name ∈ s.users.map (·.username)) (fun _ hc now s => Call.mem_usernames_after hc now s) hv h).1

/-! ## Accounts that are made -/

namespace Accounts

variable {account : Account} (environments : List String) (time : Time)

/-- No account is made with a blank name. -/
theorem run_add_of_blank (hblank : Text.trim account.username = "") :
    (add account environments).run time s = (.error (.refused .blankUsername), s) := by
  unfold add
  rw [if_pos hblank]
  rfl

/-- No account is made with a name that is taken. -/
theorem run_add_of_taken (hnamed : Text.trim account.username ≠ "")
    (htaken : Text.trim account.username ∈ s.users.map (·.username)) :
    (add account environments).run time s = (.error (.refused (.userExists (Text.trim account.username))), s) := by
  have hany : s.users.any (·.username == Text.trim account.username) = true := by simpa using htaken
  unfold add
  rw [if_neg hnamed]
  refine run_ask_of_error ?_
  simp only [Call.exec, Store.insertUser, hany]
  rfl

/-- An account with any other name is made. -/
theorem run_add_of_free (hnamed : Text.trim account.username ≠ "")
    (hfree : Text.trim account.username ∉ s.users.map (·.username)) :
    let row := s.newUser time { account with
      username := Text.trim account.username, permissions := .uniform environments account.admin }
    (add account environments).run time s = (.ok row, { s with lastId := s.nextId, users := s.users ++ [row] }) := by
  have hany : s.users.any (·.username == Text.trim account.username) = false := by simpa using hfree
  unfold add
  rw [if_neg hnamed]
  refine run_ask_of_ok ?_
  simp only [Call.exec, Store.insertUser, hany]
  rfl

end Accounts

/-- The account of an administrator with all grants in the environments of the fleet. -/
def Access.Account.administrator (settings : Settings) (username : String) : Account :=
  { blank with username := Text.trim username, admin := true, permissions := .uniform settings.environments true }

namespace Fleet

variable (time : Time)

/-- Nobody is ensured under a blank name, which no user has. -/
theorem run_ensureAdmin_of_blank (hs : Reachable settings s) (hblank : Text.trim username = "") :
    (ensureAdmin settings username).run time s = (.error (.refused .blankUsername), s) := by
  have hfree : Text.trim username ∉ s.users.map (·.username) := by
    intro hmem
    obtain ⟨user, huser, hname⟩ := List.mem_map.mp hmem
    exact ((Store.usernames_of_reachable hs).2 user huser).1 (hname.trans hblank)
  have hunknown : s.getUser username = none := Store.getUser_eq_none_of_reachable hs hfree
  have hadd : (Accounts.add { Account.blank with username := username, admin := true } settings.environments).run time s =
      (.error (.refused .blankUsername), s) := Accounts.run_add_of_blank _ time hblank
  rw [run_ensureAdmin_of_refused time hunknown hadd, if_neg (by decide)]

/-- A user whose name is taken is ensured as it is: the name is found as it is spelled, or refused as taken. -/
theorem run_ensureAdmin_of_taken (hnamed : Text.trim username ≠ "")
    (htaken : Text.trim username ∈ s.users.map (·.username)) : (ensureAdmin settings username).run time s = (.ok (), s) := by
  cases hfound : s.getUser username with
  | some user => exact run_ensureAdmin_of_known time hfound
  | none =>
    have hadd : (Accounts.add { Account.blank with username := username, admin := true } settings.environments).run time s =
        (.error (.refused (.userExists (Text.trim username))), s) := Accounts.run_add_of_taken _ time hnamed htaken
    have hkind : (Refusal.userExists (Text.trim username)).kind = .alreadyExists := rfl
    rw [run_ensureAdmin_of_refused time hfound hadd, if_pos hkind]

/-- Where the name is free, the administrator is made. -/
theorem run_ensureAdmin_of_free (hs : Reachable settings s) (hnamed : Text.trim username ≠ "")
    (hfree : Text.trim username ∉ s.users.map (·.username)) :
    (ensureAdmin settings username).run time s =
      (.ok (), { s with lastId := s.nextId, users := s.users ++ [s.newUser time (.administrator settings username)] }) := by
  have hadd : (Accounts.add { Account.blank with username := username, admin := true } settings.environments).run time s =
      (.ok (s.newUser time (.administrator settings username)),
        { s with lastId := s.nextId, users := s.users ++ [s.newUser time (.administrator settings username)] }) :=
    Accounts.run_add_of_free _ time hnamed hfree
  exact run_ensureAdmin_of_made time (Store.getUser_eq_none_of_reachable hs hfree) hadd

/-- No account is made by anybody with a name that is taken. -/
theorem run_addUser_of_taken {actor : String} {account : Account} (hnamed : Text.trim account.username ≠ "")
    (htaken : Text.trim account.username ∈ s.users.map (·.username)) :
    ∃ why, (addUser settings actor account).run time s = (.error (.refused why), s) ∧
      (s.Permits actor .admin none → why = .userExists (Text.trim account.username)) := by
  unfold addUser
  by_cases hpermits : s.Permits actor .admin none
  · rw [run_bind_of_ok (Accounts.run_require_of_permits time hpermits)]
    exact ⟨_, run_map_of_error (Accounts.run_add_of_taken settings.environments time hnamed htaken) _, fun _ => rfl⟩
  · rw [run_bind_of_error (Accounts.run_require_of_not_permits time hpermits)]
    exact ⟨_, rfl, fun h => absurd h hpermits⟩

end Fleet

/-! ## The service starts -/

namespace Operation

/-- Whoever is named is ensured, and has the name afterwards: a user who had it stays as it is, and a new one is an administrator. -/
theorem run_ensureAdmin_of_named (hs : Reachable settings s) (hnamed : Text.trim username ≠ "") (time : Time) :
    ∃ s', (ensureAdmin username).run settings time s = (.ok .nothing, s') ∧ Text.trim username ∈ s'.users.map (·.username) ∧
      (Text.trim username ∈ s.users.map (·.username) → s' = s) ∧
      (Text.trim username ∉ s.users.map (·.username) →
        s' = { s with lastId := s.nextId, users := s.users ++ [s.newUser time (.administrator settings username)] }) := by
  by_cases htaken : Text.trim username ∈ s.users.map (·.username)
  · have hrun : (Fleet.ensureAdmin settings username).run time s = (.ok (), s) :=
      Fleet.run_ensureAdmin_of_taken time hnamed htaken
    exact ⟨s, run_map_of_ok hrun _, htaken, fun _ => rfl, fun hfree => absurd htaken hfree⟩
  · have hrun := Fleet.run_ensureAdmin_of_free time hs hnamed htaken
    refine ⟨_, run_map_of_ok hrun _, ?_, fun h => absurd h htaken, fun _ => rfl⟩
    rw [List.map_append]
    exact List.mem_append_right _ (List.mem_singleton.mpr rfl)

/-- A name that is taken is ensured as it is in every spelling, and nobody makes an account with it. -/
theorem run_of_taken (hnamed : Text.trim username ≠ "") (htaken : Text.trim username ∈ s.users.map (·.username)) (time : Time) :
    (ensureAdmin username).run settings time s = (.ok .nothing, s) ∧
      ∀ actor account, account.username = username →
        ∃ why, (addUser actor account).run settings time s = (.error (.refused why), s) ∧
          (s.Permits actor .admin none → why = .userExists (Text.trim username)) := by
  refine ⟨run_map_of_ok (Fleet.run_ensureAdmin_of_taken time hnamed htaken) _, ?_⟩
  rintro actor account rfl
  obtain ⟨why, hrun, hwhy⟩ := Fleet.run_addUser_of_taken time hnamed htaken
  exact ⟨why, run_map_of_error hrun _, hwhy⟩

/-- Ensuring an administrator adds one with all grants where nobody has the trimmed name, and changes nothing where somebody has it
or the name is blank. The name stays taken wherever operations lead. Accepted settings name no blank administrator. -/
theorem ensureAdmin_of_leadsTo {begun : List (Program Answer)}
    (before : Traffic.LeadsTo settings ⟨.empty, []⟩ ⟨s, begun⟩) (username : String) (time : Time) :
    let name := Text.trim username
    let outcome := (ensureAdmin username).run settings time s
    (name = "" → ∃ why, outcome = (.error (.refused why), s) ∧ why.kind = .invalidRequest) ∧
      (name ≠ "" →
        outcome.1 = .ok .nothing ∧
        (name ∈ s.users.map (·.username) → outcome.2 = s) ∧
        (name ∉ s.users.map (·.username) → ∃ row : Access.User,
          outcome.2 = { s with lastId := s.nextId, users := s.users ++ [row] } ∧ row.username = name ∧ row.admin = true ∧
            (row.permissions.query = true ∧ row.permissions.carve = true) ∧
            ∀ e, row.permissions.environments.get? e = if e ∈ settings.environments then some true else none) ∧
        ∀ s' begun', Traffic.LeadsTo settings ⟨outcome.2, begun⟩ ⟨s', begun'⟩ →
          ∀ spelling, Text.trim spelling = name → ∀ time',
            (ensureAdmin spelling).run settings time' s' = (.ok .nothing, s') ∧
              ∀ actor account, account.username = spelling →
                ∃ why, (addUser actor account).run settings time' s' = (.error (.refused why), s') ∧
                  (s'.Permits actor .admin none → why = .userExists name)) ∧
      ∀ resolve given, Settings.ofVariables resolve given = .ok settings → ∀ admin ∈ settings.bootstrapAdmin,
        Text.trim admin ≠ "" ∧ ((ensureAdmin admin).run settings time s).1 = .ok .nothing := by
  intro name outcome
  have hs : Reachable settings s := ⟨begun, before⟩
  refine ⟨?_, ?_, ?_⟩
  · intro hblank
    exact ⟨_, run_map_of_error (Fleet.run_ensureAdmin_of_blank time hs hblank) _, rfl⟩
  · intro hnamed
    obtain ⟨s₁, hrun, hafter, htaken, hfree⟩ := run_ensureAdmin_of_named hs hnamed time
    rw [show outcome = (.ok .nothing, s₁) from hrun]
    refine ⟨rfl, htaken, ?_, ?_⟩
    · intro hmem
      exact ⟨_, hfree hmem, rfl, rfl, ⟨rfl, rfl⟩, Access.get?_uniform settings.environments true⟩
    · intro s' begun' steps spelling hspelling time'
      have hlater : name ∈ s'.users.map (·.username) := steps.mem_usernames before.proper hafter
      rw [← hspelling] at hnamed hlater ⊢
      exact run_of_taken hnamed hlater time'
  · intro resolve given haccepted admin hadmin
    have hnamed := Settings.bootstrapAdmin_of_accepted haccepted hadmin
    obtain ⟨s₁, hrun, -⟩ := run_ensureAdmin_of_named hs hnamed time
    exact ⟨hnamed, congrArg Prod.fst hrun⟩

/-- An administrator whom the settings name with blanks around the name is ensured beside another, and after that the other cannot make
an account of the name without the blanks. Nobody is ensured under a name of blanks. -/
theorem ensureAdmin_of_padded_name :
    let resolve : Resolver := .ofHosts [("localhost", [.v4 [127, 0, 0, 1]])]
    let given := [("DATABASE_URL", "postgres://h/db"), ("FLEETD_BOOTSTRAP_ADMIN", "\u2003root "), ("FLEETD_ENVIRONMENTS", "prod,dev"),
      ("FLEETD_LISTEN_ADDR", "localhost:9000")]
    let settings : Settings := { Settings.embedded ["prod", "dev"] with
      listen := ⟨.v4 [127, 0, 0, 1], 9000⟩, databaseUrl := "postgres://h/db", maxPoolSize := 10, applySchema := true,
      bootstrapAdmin := some "\u2003root " }
    let s := replay settings .empty [(0, .ensureAdmin "ann")]
    let s' := ((ensureAdmin "\u2003root ").run settings 1 s).2
    Settings.ofVariables resolve given = .ok settings ∧
      ((ensureAdmin "\u2003root ").run settings 1 s).1 = .ok .nothing ∧ s'.users.map (·.username) = ["ann", "root"] ∧
      (addUser "ann" { Account.blank with username := "root" }).run settings 2 s' = (.error (.refused (.userExists "root")), s') ∧
      ∃ why, (ensureAdmin "\u3000").run settings 2 s' = (.error (.refused why), s') ∧ why.kind = .invalidRequest := by
  intro resolve given settings s s'
  have haccepted : Settings.ofVariables resolve given = .ok settings := by decide +kernel
  have htrim : Text.trim "\u2003root " = "root" := by decide +kernel
  have hnamed : Text.trim "\u2003root " ≠ "" := by decide +kernel
  obtain ⟨begun, before⟩ : Reachable settings s := reachable_empty.replay _
  obtain ⟨begun', before'⟩ : Reachable settings s' := Reachable.run ⟨begun, before⟩ _ _
  obtain ⟨-, hensures, hstarts⟩ := ensureAdmin_of_leadsTo before "\u2003root " 1
  obtain ⟨-, -, -, hlater⟩ := hensures hnamed
  obtain ⟨-, hrefuses⟩ := hlater s' begun .refl "root" (by decide +kernel) 2
  obtain ⟨why, hrun, hwhy⟩ := hrefuses "ann" { Account.blank with username := "root" } rfl
  obtain ⟨hblank, -, -⟩ := ensureAdmin_of_leadsTo before' "\u3000" 2
  have hpermits : s'.Permits "ann" .admin none := by decide +kernel
  refine ⟨haccepted, (hstarts resolve given haccepted _ rfl).2, by decide +kernel, ?_, hblank (by decide +kernel)⟩
  rw [hrun, hwhy hpermits, htrim]

end Operation

end FleetControl
