import FleetControl.Proofs.Blame
import FleetControl.Proofs.Sifting
import FleetControl.Proofs.Text.Numerals
import FleetControl.Proofs.Variables

/-!
# Settings and the activity cutoff

Settings that are accepted name between 1 and 2⁶³ - 1 hours after which a node is inactive, and any number of hours in between
(`Settings.exists_accepted_iff`). The cutoff lies that many hours before now, where it can be held: over the years in which the
service runs it is the earliest time that bounds them, long before the span of the hours is too long for 64 bits
(`activityCutoff_of_years`). Where it cannot be held, an operation stops if it asks for the cutoff, which are statistics and the
launches at targets for environments and platforms, and no other operation does (`Operation.stalls_iff`).
-/

namespace FleetControl

open Program (run_bind_of_ok run_bind_of_error fair_pure fair_ofExcept)

/-! ## Accepted settings -/

namespace Settings

/-- The number in the variables is not above the greatest that is read for it. -/
def Variables.Fits (vs : Variables) : Prop := ∀ n ∈ vs.inactiveHours, n ≤ Width.greatest64

theorem Variables.fits_of_take_eq_ok {vs vs' : Variables} (hfits : vs.Fits) {lowered name value : String}
    (h : vs.take lowered name value = .ok vs') : vs'.Fits := by
  have hread : ∀ {low high : Int} {set : Int → Variables}, (readNumber low high name value).map set = .ok vs' →
      ∃ n, Numeral.read low high value = .ok n ∧ set n = vs' := by
    intro low high set h
    obtain ⟨n, hread, hset⟩ := of_map_eq_ok h
    refine ⟨n, ?_, hset⟩
    unfold readNumber at hread
    split at hread
    · rename_i hnumber
      cases hread
      exact hnumber
    · cases hread
  unfold take at h
  split at h
  case h_13 =>
    obtain ⟨n, hnumber, rfl⟩ := hread h
    intro m hm
    cases hm
    exact Numeral.le_of_read_eq_ok (by decide) hnumber
  case h_3 | h_6 | h_14 =>
    obtain ⟨n, -, rfl⟩ := hread h
    exact hfits
  case h_15 =>
    obtain ⟨flag, -, rfl⟩ := of_map_eq_ok h
    exact hfits
  all_goals
    cases h
    exact hfits

theorem Variables.fits_of_takeAll_eq_ok {vs vs' : Variables} (hfits : vs.Fits) {taken : List String}
    {given : List (String × String)} (h : vs.takeAll taken given = .ok vs') : vs'.Fits := by
  induction given generalizing vs taken with
  | nil =>
    cases h
    exact hfits
  | cons entry rest ih =>
    obtain ⟨-, vs₁, htake, hrest⟩ := of_takeAll_cons_eq_ok h
    exact ih (fits_of_take_eq_ok hfits htake) hrest

/-- Accepted settings name at least one hour, and no more than fit 64 bits. -/
theorem inactiveHours_of_accepted {resolve : Resolver} {given : List (String × String)} {settings : Settings}
    (h : ofVariables resolve given = .ok settings) :
    1 ≤ settings.inactiveHours ∧ settings.inactiveHours ≤ Width.greatest64 := by
  obtain ⟨vs, htaken, hmade⟩ := of_bind_eq_ok h
  have hunset : Variables.unset.Fits := by
    intro n hn
    cases hn
  have hfits : vs.Fits := Variables.fits_of_takeAll_eq_ok hunset htaken
  rw [(Variables.of_settings_eq_ok hmade).1]
  refine ⟨Int.le_max_left _ _, Int.max_le.mpr ⟨by decide, ?_⟩⟩
  cases hhours : vs.inactiveHours with
  | none => exact (by decide : defaultInactiveHours ≤ Width.greatest64)
  | some n => exact hfits n hhours

/-- However hosts are looked up, settings with any number of hours from one to the greatest that fits 64 bits are accepted, and no
others. -/
theorem exists_accepted_iff (resolve : Resolver) (hours : Int) :
    (∃ given settings, ofVariables resolve given = .ok settings ∧ settings.inactiveHours = hours) ↔
      1 ≤ hours ∧ hours ≤ Width.greatest64 := by
  constructor
  · rintro ⟨given, settings, haccepted, rfl⟩
    exact inactiveHours_of_accepted haccepted
  · rintro ⟨hleast, hgreatest⟩
    obtain ⟨n, rfl⟩ := Int.eq_ofNat_of_zero_le (Int.le_trans (by decide) hleast)
    let unset : Variables := { Variables.unset with databaseUrl := some "postgres://" }
    let vs : Variables := { unset with inactiveHours := some n }
    have hnumber : readNumber Width.least64 Width.greatest64 "FLEETD_INACTIVE_HOURS" (toString n) = .ok n := by
      rw [readNumber, Numeral.read_toString hgreatest]
    have hhours : unset.take "fleetd_inactive_hours" "FLEETD_INACTIVE_HOURS" (toString n) = .ok vs :=
      congrArg (Except.map fun n => ({ unset with inactiveHours := some n } : Variables)) hnumber
    obtain ⟨settings, hmade⟩ : ∃ settings, vs.settings resolve = .ok settings := by
      rw [Variables.settings, Variables.listen_of_unset resolve rfl rfl rfl]
      exact ⟨_, rfl⟩
    refine ⟨[("DATABASE_URL", "postgres://"), ("FLEETD_INACTIVE_HOURS", toString n)], settings, ?_, ?_⟩
    · have hdatabase : Text.lower "DATABASE_URL" = "database_url" := by decide +kernel
      have hname : Text.lower "FLEETD_INACTIVE_HOURS" = "fleetd_inactive_hours" := by decide +kernel
      rw [ofVariables, Variables.takeAll_cons_of_free hdatabase List.not_mem_nil rfl,
        Variables.takeAll_cons_of_free hname (by decide) hhours]
      exact hmade
    · rw [(Variables.of_settings_eq_ok hmade).1]
      exact Int.max_eq_right hleast

end Settings

/-! ## Where the cutoff can be held -/

/-- From the start of 1970 to the end of 2100 the cutoff of any positive number of hours can be held if it is not before the earliest
time, and no other reason is left why it cannot. -/
theorem activityCutoff_of_years {now : Time} (hfrom : Calendar.dayNumber 1970 1 1 * Calendar.dayLength ≤ now)
    (huntil : now < Calendar.dayNumber 2101 1 1 * Calendar.dayLength) {hours : Int} (hhours : 0 ≤ hours) :
    activityCutoff now hours =
      if hours * Time.hourLength ≤ now - Time.earliest then some (now - hours * Time.hourLength) else none := by
  have hspan : 0 ≤ hours * Time.hourLength := Int.mul_nonneg hhours (by decide)
  have hstart : Calendar.dayNumber 1970 1 1 * Calendar.dayLength = 0 := by decide
  have hend : Calendar.dayNumber 2101 1 1 * Calendar.dayLength = 4133980800000 := by decide
  have hearliest : Time.earliest = -8334601228800000 := by decide
  have hlatest : Time.latest = 8210266876799999 := by decide
  -- a span that ends after the earliest time is far too short to leave 64 bits
  have hheld : ∀ now span : Int, 0 ≤ now → now < 4133980800000 → 0 ≤ span →
      ((-9223372036854775808 ≤ span ∧ span ≤ 9223372036854775807) ∧ -8334601228800000 ≤ now - span ∧
        now - span ≤ 8210266876799999 ↔ span ≤ now - -8334601228800000) := by omega
  rw [hstart] at hfrom
  rw [hend] at huntil
  unfold activityCutoff
  rw [hearliest, hlatest]
  exact ite_congr (propext (hheld now _ hfrom huntil hspan)) (fun _ => rfl) fun _ => rfl

/-! ## Who stops without a cutoff -/

namespace Program

variable {α β : Type} {time : Time} {s : Store}

/-- The run of a program stops because the cutoff cannot be held. -/
def Stalls (p : Program α) (time : Time) (s : Store) : Prop := (p.run time s).1 = .error .noCutoff

theorem stalls_map_iff {p : Program α} (f : α → β) : (f <$> p).Stalls time s ↔ p.Stalls time s := by
  rw [Stalls, Stalls, run_map]
  dsimp only
  cases (p.run time s).1 with
  | ok a => exact ⟨nofun, nofun⟩
  | error why => exact ⟨fun h => congrArg Except.error (Except.error.inj h), fun h => congrArg Except.error (Except.error.inj h)⟩

theorem not_stalls_refuse {why : Refusal} : ¬(refuse why : Program α).Stalls time s := nofun

/-- After a part that has a result, it is the rest that stops or goes on. -/
theorem stalls_bind_iff_of_ok {p : Program α} {a : α} {s' : Store} (h : p.run time s = (.ok a, s')) (f : α → Program β) :
    (p >>= f).Stalls time s ↔ (f a).Stalls time s' := by
  rw [Stalls, Stalls, run_bind_of_ok h]

theorem not_stalls_bind_of_refused {p : Program α} {why : Refusal} {s' : Store} (h : p.run time s = (.error (.refused why), s'))
    (f : α → Program β) : ¬(p >>= f).Stalls time s := by
  rw [Stalls, run_bind_of_error h]
  exact nofun

theorem stalls_bind_of_noCutoff {p : Program α} {s' : Store} (h : p.run time s = (.error .noCutoff, s')) (f : α → Program β) :
    (p >>= f).Stalls time s := by
  rw [Stalls, run_bind_of_error h]

/-- A program that is fair to its callers stops for a cutoff only where it cannot be held. -/
theorem Fair.not_stalls {p : Program α} {hours : Int} (hp : p.Fair hours) (hheld : (activityCutoff time hours).isSome) (s : Store) :
    ¬p.Stalls time s := by
  intro hstalls
  rw [Stalls] at hstalls
  rcases hp.run hheld s with ⟨a, hrun⟩ | ⟨why, -, hrun⟩ <;> rw [hrun] at hstalls <;> cases hstalls

end Program

/-- The operation asks for the activity cutoff: statistics for an actor who may see them, and a launch by one who may launch, at a
known target for an environment or a platform. -/
def Operation.NeedsCutoff (settings : Settings) (s : Store) (op : Operation) : Prop :=
  match op with
  | .nodeStats actor environment => s.Permits actor .environment (some environment)
  | _ => op.MayLaunch s ∧ ∃ targets ∈ op.launchedAt, ∃ t ∈ targets, t.isTimed = true ∧ s.Knows settings t

section Stalling

variable {settings : Settings} {time : Time} {s : Store}

/-- Statistics stop where the cutoff cannot be held. -/
theorem Roster.stalls_stats_iff (selector : Selector) (hours : Int) :
    (stats selector hours).Stalls time s ↔ activityCutoff time hours = none := by
  constructor
  · intro hstalls
    by_contra hheld
    exact (fair_stats selector).not_stalls (Option.isSome_iff_ne_none.mpr hheld) s hstalls
  · intro hnone
    exact Program.stalls_bind_of_noCutoff (Program.run_cutoff_of_eq_none hnone) _

/-- A launch stops where one of its known targets asks for the cutoff and this cannot be held. -/
theorem Fleet.stalls_launch_iff (h : s.Sound) (hplaced : s.Placed settings) {targets : List Target}
    (hparsed : ∀ t ∈ targets, t.IsParsed) (hheld : (activityCutoff time 0).isSome) (draft : Query.Draft) :
    (launch settings draft targets).Stalls time s ↔
      (∃ t ∈ targets, t.isTimed = true ∧ s.Knows settings t) ∧ activityCutoff time settings.inactiveHours = none := by
  let kept := targets.eraseDups.filter (s.Knows settings ·)
  have hkept : ∀ t, t ∈ kept ↔ t ∈ targets ∧ s.Knows settings t := by
    intro t
    rw [List.mem_filter, List.mem_eraseDups, decide_eq_true_iff]
  have htimed : (∃ t ∈ kept, t.isTimed = true) ↔ ∃ t ∈ targets, t.isTimed = true ∧ s.Knows settings t := by
    simp only [hkept]
    constructor
    · rintro ⟨t, ⟨ht, hknown⟩, htimed⟩
      exact ⟨t, ht, htimed, hknown⟩
    · rintro ⟨t, ht, htimed, hknown⟩
      exact ⟨t, ⟨ht, hknown⟩, htimed⟩
  have hsift : (Reach.sift settings targets).run time s = (.ok kept, s) := Reach.run_sift hplaced hparsed
  have hcount := Reach.run_count h (fun t ht => hparsed t ((hkept t).mp ht).1) time settings.inactiveHours
  rw [← htimed]
  by_cases hstops : (∃ t ∈ kept, t.isTimed = true) ∧ activityCutoff time settings.inactiveHours = none
  · rw [if_pos hstops] at hcount
    refine iff_of_true ?_ hstops
    obtain ⟨t, ht, -⟩ := hstops.1
    have hsome : kept ≠ [] := List.ne_nil_of_mem ht
    have htargets : targets ≠ [] := List.ne_nil_of_mem ((hkept t).mp ht).1
    unfold launch
    rw [if_neg (by simpa using htargets), Program.stalls_bind_iff_of_ok hsift, if_neg (by simpa using hsome)]
    exact Program.stalls_bind_of_noCutoff hcount _
  · rw [if_neg hstops] at hcount
    refine iff_of_false ?_ hstops
    unfold launch
    split
    · exact Program.not_stalls_refuse
    · rw [Program.stalls_bind_iff_of_ok hsift]
      split
      · exact Program.not_stalls_refuse
      · -- what follows the count asks for no cutoff, so it is as fair with hours whose cutoff can be held
        rw [Program.stalls_bind_iff_of_ok hcount]
        refine Program.Fair.not_stalls ?_ hheld s
        exact (fair_ofExcept (QueryBook.fair_storedCount _)).bind fun expected => (QueryBook.fair_create _ kept).bind
          fun query => fair_pure _

/-- A permitted request goes on with what it asks for; any other is refused, whatever the cutoff. -/
theorem Accounts.stalls_require_bind_iff {α : Type} (actor : String) (level : Access.Level) (environment : Option String)
    (f : Unit → Program α) :
    (require actor level environment >>= f).Stalls time s ↔ s.Permits actor level environment ∧ (f ()).Stalls time s := by
  by_cases hpermits : s.Permits actor level environment
  · rw [Program.stalls_bind_iff_of_ok (run_require_of_permits time hpermits)]
    exact (and_iff_right hpermits).symm
  · exact iff_of_false (Program.not_stalls_bind_of_refused (run_require_of_not_permits time hpermits) f) fun h => hpermits h.1

/-- A launch asks for the cutoff if it may be, and a known target is for an environment or a platform. -/
theorem Operation.needsCutoff_iff_of_launchedAt {op : Operation} {targets : List Target} (hop : op.launchedAt = some targets) :
    op.NeedsCutoff settings s ↔ op.MayLaunch s ∧ ∃ t ∈ targets, t.isTimed = true ∧ s.Knows settings t := by
  cases op with
  | createQuery | createCarve =>
    cases hop
    exact and_congr_right fun _ => ⟨fun ⟨_, rfl, h⟩ => h, fun h => ⟨targets, rfl, h⟩⟩
  | _ => cases hop

/-- An operation stops for want of a cutoff just where it asks for one and this cannot be held. -/
theorem Operation.stalls_iff (hs : Reachable settings s) {op : Operation}
    (hparsed : ∀ targets ∈ op.launchedAt, ∀ t ∈ targets, t.IsParsed) (hheld : (activityCutoff time 0).isSome) :
    (op.program settings).Stalls time s ↔ op.NeedsCutoff settings s ∧ activityCutoff time settings.inactiveHours = none := by
  have hlaunch : ∀ targets : List Target, (∀ t ∈ targets, t.IsParsed) → ∀ draft,
      ((Fleet.launch settings draft targets).Stalls time s ↔
        (∃ t ∈ targets, t.isTimed = true ∧ s.Knows settings t) ∧ activityCutoff time settings.inactiveHours = none) :=
    fun targets hparsed draft => Fleet.stalls_launch_iff (.of_reachable hs) (.of_reachable hs) hparsed hheld draft
  have hquiet : op.program { settings with inactiveHours := 0 } = op.program settings → ¬op.NeedsCutoff settings s →
      ((op.program settings).Stalls time s ↔
        op.NeedsCutoff settings s ∧ activityCutoff time settings.inactiveHours = none) := by
    intro hsame hneeds
    -- the hours do not matter to the program, which is as fair with hours whose cutoff can be held
    rw [← hsame]
    exact iff_of_false ((op.fair { settings with inactiveHours := 0 }).not_stalls hheld s) fun h => hneeds h.1
  cases op with
  | nodeStats actor environment =>
    rw [program, Program.stalls_map_iff, Fleet.nodeStats, Accounts.stalls_require_bind_iff, Roster.stalls_stats_iff]
    rfl
  | createQuery token actor text targets kind =>
    rw [program, Program.stalls_map_iff, Fleet.createQuery, Accounts.stalls_require_bind_iff,
      hlaunch targets (hparsed targets rfl), needsCutoff_iff_of_launchedAt rfl, and_assoc]
    rfl
  | createCarve token actor path targets =>
    rw [program, Program.stalls_map_iff, Fleet.createCarve, Accounts.stalls_require_bind_iff,
      needsCutoff_iff_of_launchedAt rfl, MayLaunch, and_assoc, and_assoc]
    refine and_congr_right fun _ => ?_
    dsimp only
    split
    · rename_i hblank
      exact iff_of_false Program.not_stalls_refuse fun h => h.1 hblank
    · rename_i hpath
      rw [hlaunch targets (hparsed targets rfl)]
      exact (and_iff_right hpath).symm
  | _ => exact hquiet rfl fun h => h.1

end Stalling

/-- Accepted settings have hours from one to the greatest that fits 64 bits, and the cutoff is the time that many hours before,
unless this is before the earliest time that can be held. Just then an operation that asks for the cutoff has neither a result nor
a refusal. -/
theorem Settings.cutoff_of_accepted {resolve : Resolver} {given : List (String × String)} {settings : Settings}
    (haccepted : ofVariables resolve given = .ok settings) {now : Time}
    (hfrom : Calendar.dayNumber 1970 1 1 * Calendar.dayLength ≤ now)
    (huntil : now < Calendar.dayNumber 2101 1 1 * Calendar.dayLength) :
    let span := settings.inactiveHours * Time.hourLength
    (1 ≤ settings.inactiveHours ∧ settings.inactiveHours ≤ Width.greatest64) ∧
      activityCutoff now settings.inactiveHours = (if span ≤ now - Time.earliest then some (now - span) else none) ∧
      ∀ s, Reachable settings s → ∀ op : Operation, (∀ targets ∈ op.launchedAt, ∀ t ∈ targets, t.IsParsed) →
        ((op.run settings now s).1 = .error .noCutoff ↔ op.NeedsCutoff settings s ∧ now - Time.earliest < span) := by
  intro span
  have hhours := inactiveHours_of_accepted haccepted
  have hcutoff := activityCutoff_of_years hfrom huntil (Int.le_trans (by decide) hhours.1)
  have hnone : activityCutoff now settings.inactiveHours = none ↔ now - Time.earliest < span := by
    rw [hcutoff, ← Int.not_le]
    split
    · rename_i hle
      exact iff_of_false nofun fun hlt => hlt hle
    · rename_i hlt
      exact iff_of_true rfl hlt
  have hheld : (activityCutoff now 0).isSome = true := by
    have hearliest : 0 * Time.hourLength ≤ now - Time.earliest := Int.sub_nonneg_of_le (Int.le_trans (by decide) hfrom)
    rw [activityCutoff_of_years hfrom huntil (Int.le_refl 0), if_pos hearliest]
    rfl
  refine ⟨hhours, hcutoff, fun s hs op hparsed => ?_⟩
  rw [← hnone]
  exact Operation.stalls_iff hs hparsed hheld

/-- The service listens at a host that is known by name, with the usual hours and a fleet of one environment. An administrator asks
for statistics in November of 2023 and is answered, from a cutoff three days before. -/
theorem Settings.cutoff_of_usual_hours :
    let resolve : Resolver := .ofHosts [("localhost", [.v4 [127, 0, 0, 1]])]
    let given := [("FLEETD_DATABASE_URL", "postgres://h/db"), ("FLEETD_LISTEN_HOST", "localhost"), ("fleetd_environments", "prod")]
    let settings : Settings := { Settings.embedded ["prod"] with
      listen := ⟨.v4 [127, 0, 0, 1], 8490⟩, databaseUrl := "postgres://h/db", maxPoolSize := 10, applySchema := true }
    let s := Operation.replay settings .empty [(0, .ensureAdmin "root")]
    let op : Operation := .nodeStats "root" "prod"
    ofVariables resolve given = .ok settings ∧
      activityCutoff 1700000000000 settings.inactiveHours = some 1699740800000 ∧
      op.NeedsCutoff settings s ∧ (op.run settings 1700000000000 s).1 ≠ .error .noCutoff := by
  intro resolve given settings s op
  have haccepted : ofVariables resolve given = .ok settings := by decide +kernel
  have hpermits : s.Permits "root" .environment (some "prod") := by decide +kernel
  have hfrom : Calendar.dayNumber 1970 1 1 * Calendar.dayLength ≤ 1700000000000 := by decide
  have huntil : 1700000000000 < Calendar.dayNumber 2101 1 1 * Calendar.dayLength := by decide
  obtain ⟨-, hcutoff, hstops⟩ := cutoff_of_accepted haccepted hfrom huntil
  refine ⟨haccepted, ?_, hpermits, ?_⟩
  · rw [hcutoff]
    decide +kernel
  · intro hnone
    have hshort := ((hstops s (reachable_empty.replay _) op nofun).mp hnone).2
    exact absurd hshort (by decide +kernel)

/-- Settings with 2562047788016 hours are accepted. There is no cutoff for them in November of 2023, and an administrator who asks
how many nodes the one environment has, which has one, is not answered. -/
theorem Settings.no_cutoff_of_accepted :
    let settings : Settings := { Settings.embedded ["prod"] with
      listen := ⟨.v4 [0, 0, 0, 0], 8490⟩, databaseUrl := "postgres://h/db", maxPoolSize := 10, applySchema := true,
      inactiveHours := 2562047788016 }
    let s := Operation.replay settings .empty [(0, .ensureAdmin "root"),
      (1, .enroll "n1" "k1" { Attributes.blank with environment := "prod" })]
    ofVariables (.ofHosts []) [("FLEETD_DATABASE_URL", "postgres://h/db"), ("FLEETD_ENVIRONMENTS", "prod"),
        ("FLEETD_INACTIVE_HOURS", "2562047788016")] = .ok settings ∧
      (Calendar.dayNumber 1970 1 1 * Calendar.dayLength ≤ 1700000000000 ∧
        1700000000000 < Calendar.dayNumber 2101 1 1 * Calendar.dayLength) ∧
      activityCutoff 1700000000000 settings.inactiveHours = none ∧
      ((Operation.nodeStats "root" "prod").run settings 1700000000000 s).1 = .error .noCutoff := by
  intro settings s
  exact ⟨by decide +kernel, by decide, by decide +kernel, by decide +kernel⟩

end FleetControl
