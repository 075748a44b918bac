import FleetControl.Proofs.Programs
import FleetControl.Settings.Variables

/-!
# Settings that are accepted

Variables are taken one after the other, so what the settings say follows from one variable at a time
(`Settings.Variables.of_takeAll_cons_eq_ok`). No variable that is known is taken twice, so the list of environments is that of the
one variable that has it, however its name is written (`Settings.environments_of_accepted`). A first administrator who is named is
not blank (`Settings.bootstrapAdmin_of_accepted`). All this holds however hosts are looked up; where nothing is said of listening,
none is (`Settings.Variables.listen_of_unset`).
-/

namespace FleetControl.Settings

namespace Variables

variable {vs vs' : Variables} {taken : List String} {name value lowered : String} {given rest : List (String × String)}

/-- When variables are taken, the first is one that was not taken before, if it is known, and the others follow. -/
theorem of_takeAll_cons_eq_ok (h : vs.takeAll taken ((name, value) :: rest) = .ok vs') :
    (Text.lower name ∈ known → Text.lower name ∉ taken) ∧
      ∃ vs₁, vs.take (Text.lower name) name value = .ok vs₁ ∧ vs₁.takeAll (Text.lower name :: taken) rest = .ok vs' := by
  unfold takeAll at h
  dsimp only at h
  split at h
  · cases h
  · rename_i hfree
    refine ⟨fun hknown htaken => hfree ?_, of_bind_eq_ok h⟩
    rw [Bool.and_eq_true, List.contains_iff_mem, List.contains_iff_mem]
    exact ⟨hknown, htaken⟩

/-- A variable whose name was not taken before is taken. -/
theorem takeAll_cons_of_free (hname : Text.lower name = lowered) (hfree : lowered ∉ taken)
    (h : vs.take lowered name value = .ok vs') (rest : List (String × String)) :
    vs.takeAll taken ((name, value) :: rest) = vs'.takeAll (lowered :: taken) rest := by
  have hcontains : taken.contains lowered = false := by simpa using hfree
  unfold takeAll
  dsimp only
  rw [hname, hcontains, Bool.and_false, if_neg Bool.false_ne_true, h]
  cases rest <;> rfl

/-- Unless it is said otherwise, the service listens at all addresses of version 4, and no host is looked up for that. -/
theorem listen_of_unset (resolve : Resolver) (haddress : vs.listenAddr = none) (hhost : vs.listenHost = none)
    (hport : vs.listenPort = none) : vs.listen resolve = .ok ⟨.v4 [0, 0, 0, 0], 8490⟩ := by
  have husual : Endpoint.usual? (defaultHost ++ ":" ++ toString defaultPort).toList = some ⟨.v4 [0, 0, 0, 0], 8490⟩ := by
    decide +kernel
  simp only [listen, haddress, hhost, hport, Option.getD_none, firstEndpoint, Endpoint.parse_of_usual resolve husual]

/-- The settings that variables make have at least one hour, the environments in the list, and an administrator who is not blank, or
none. -/
theorem of_settings_eq_ok {resolve : Resolver} {settings : Settings} (h : vs.settings resolve = .ok settings) :
    settings.inactiveHours = max 1 (vs.inactiveHours.getD defaultInactiveHours) ∧
      settings.environments = (vs.environments.map parseEnvironments).getD [] ∧
      settings.bootstrapAdmin = givenText vs.bootstrapAdmin := by
  obtain ⟨listen, -, hmade⟩ := of_bind_eq_ok h
  split at hmade
  · cases hmade
  · cases hmade
    exact ⟨rfl, rfl, rfl⟩

/-- One variable has the list of environments, and no other changes it. -/
theorem environments_of_take_eq_ok (h : vs.take lowered name value = .ok vs') :
    vs'.environments = if lowered = "fleetd_environments" then some value else vs.environments := by
  unfold take at h
  split at h
  case h_3 | h_6 | h_13 | h_14 | h_15 =>
    obtain ⟨_, -, rfl⟩ := of_map_eq_ok h
    exact (if_neg (by decide)).symm
  case h_16 =>
    cases h
    exact (if_neg (by assumption)).symm
  case h_12 =>
    cases h
    rfl
  all_goals
    cases h
    exact (if_neg (by decide)).symm

/-- The list of environments stays as it is once its variable was taken. -/
theorem environments_of_takeAll_of_taken (htaken : "fleetd_environments" ∈ taken) (h : vs.takeAll taken given = .ok vs') :
    vs'.environments = vs.environments := by
  induction given generalizing vs taken with
  | nil =>
    cases h
    rfl
  | cons entry rest ih =>
    obtain ⟨hfree, vs₁, htake, hrest⟩ := of_takeAll_cons_eq_ok h
    have hother : Text.lower entry.1 ≠ "fleetd_environments" := by
      intro hname
      rw [hname] at hfree
      exact hfree (by decide) htaken
    rw [ih (List.mem_cons_of_mem _ htaken) hrest, environments_of_take_eq_ok htake, if_neg hother]

theorem environments_of_takeAll_of_mem (hname : Text.lower name = "fleetd_environments") (hmem : (name, value) ∈ given)
    (h : vs.takeAll taken given = .ok vs') : vs'.environments = some value := by
  induction given generalizing vs taken with
  | nil => cases hmem
  | cons entry rest ih =>
    obtain ⟨-, vs₁, htake, hrest⟩ := of_takeAll_cons_eq_ok h
    rcases List.mem_cons.mp hmem with rfl | hmem
    · rw [hname] at htake hrest
      rw [environments_of_takeAll_of_taken List.mem_cons_self hrest, environments_of_take_eq_ok htake, if_pos rfl]
    · exact ih hmem hrest

end Variables

variable {resolve : Resolver} {given : List (String × String)} {settings : Settings}

/-- Accepted settings have the environments in the list that their variable gives. -/
theorem environments_of_accepted (h : ofVariables resolve given = .ok settings) {name csv : String}
    (hname : Text.lower name = "fleetd_environments") (hmem : (name, csv) ∈ given) :
    settings.environments = parseEnvironments csv := by
  obtain ⟨vs, htaken, hmade⟩ := of_bind_eq_ok h
  rw [(Variables.of_settings_eq_ok hmade).2.1, Variables.environments_of_takeAll_of_mem hname hmem htaken]
  rfl

/-- The first administrator of accepted settings is not blank. -/
theorem bootstrapAdmin_of_accepted (h : ofVariables resolve given = .ok settings) {admin : String}
    (hadmin : admin ∈ settings.bootstrapAdmin) : Text.trim admin ≠ "" := by
  obtain ⟨vs, -, hmade⟩ := of_bind_eq_ok h
  rw [(Variables.of_settings_eq_ok hmade).2.2, givenText, Option.mem_def, Option.filter_eq_some_iff] at hadmin
  simpa [Text.isBlankText] using hadmin.2

end FleetControl.Settings
