import FleetControl.Proofs.Reach
import Mathlib.Data.List.Induction

/-!
# The targets that are kept

Before a query is launched its targets are sifted. A target is known if it is for an environment of the fleet or for some live node
(`Store.Knows`), and what is asked of the store tells just that, because every live node is in an environment of the fleet. The
known targets are kept, each once, in the order in which they first occur (`Reach.run_sift`). Whoever is selected by a target makes
it known, so the targets that are kept select whom all of them select, and they are what a launch stores
(`Reach.sift_of_reachable`).
-/

namespace FleetControl

open Program (run_bind_of_ok run_bind_of_error run_ask_of_ok run_map_of_error)

/-! ## First occurrences -/

/-- A member at the end of a list is a repetition, or the last to occur. -/
theorem eraseDups_append_singleton {α : Type} [DecidableEq α] (as : List α) (a : α) :
    (as ++ [a]).eraseDups = if a ∈ as then as.eraseDups else as.eraseDups ++ [a] := by
  rw [List.eraseDups_append]
  split
  · rename_i ha
    have hnone : [a].removeAll as = [] := by simp [List.removeAll, ha]
    rw [hnone, List.eraseDups_nil, List.append_nil]
  · rename_i ha
    have hone : [a].removeAll as = [a] := by simp [List.removeAll, ha]
    rw [hone]
    rfl

/-- Without their repetitions the members of a list stand in the order in which they first occur in it. -/
theorem pairwise_idxOf_eraseDups {α : Type} [DecidableEq α] (as : List α) :
    as.eraseDups.Pairwise fun a b => as.idxOf a < as.idxOf b := by
  induction as using List.reverseRecOn with
  | nil => exact .nil
  | append_singleton as a ih =>
    have hkept : as.eraseDups.Pairwise fun b c => (as ++ [a]).idxOf b < (as ++ [a]).idxOf c := by
      refine ih.imp_of_mem ?_
      intro b c hb hc hlt
      rw [List.mem_eraseDups] at hb hc
      rwa [List.idxOf_append, if_pos hb, List.idxOf_append, if_pos hc]
    rw [eraseDups_append_singleton]
    split
    · exact hkept
    · rename_i ha
      rw [List.pairwise_append]
      refine ⟨hkept, List.pairwise_singleton _ a, ?_⟩
      intro b hb c hc
      rw [List.mem_eraseDups] at hb
      rw [List.mem_singleton.mp hc, List.idxOf_append, if_pos hb, List.idxOf_append, if_neg ha]
      exact Nat.lt_add_left _ (List.idxOf_lt_length_of_mem hb)

/-- What stands in the order of first occurrences has no repetition. -/
theorem nodup_of_pairwise_idxOf {α : Type} [DecidableEq α] {as kept : List α}
    (h : kept.Pairwise fun a b => as.idxOf a < as.idxOf b) : kept.Nodup := by
  refine h.imp ?_
  rintro a _ hlt rfl
  exact Nat.lt_irrefl _ hlt

/-! ## Targets that are known -/

namespace Store

variable (settings : Settings) (s : Store) (t : Target)

/-- Every live node is in an environment of the fleet. -/
def Placed : Prop := ∀ n ∈ s.nodes, settings.hasEnvironment n.attributes.environment = true

/-- The target is for an environment of the fleet or for some live node. -/
def Knows : Prop := (t.kind = .environment ∧ settings.hasEnvironment t.value = true) ∨ ∃ n ∈ s.nodes, t.IsFor n

instance : Decidable (s.Knows settings t) :=
  inferInstanceAs (Decidable ((t.kind = .environment ∧ settings.hasEnvironment t.value = true) ∨ ∃ n ∈ s.nodes, t.IsFor n))

variable {settings s t}

/-- Nodes are enrolled into the environments of the fleet, and stay where they are. -/
theorem Placed.of_reachable (hs : Reachable settings s) : s.Placed settings := by
  refine Sound.forall_nodes_of_reachable (fun n n' hsame hplaced => ?_) (fun s now e seeds hproper => ?_) hs
  · rw [hsame.attributes]
    exact hplaced
  · cases hproper with
    | reads hreads => cases hreads
    | insertNode _ _ _ _ _ henvironment => exact henvironment

/-- The platforms are those of the live nodes. -/
theorem mem_platforms {platform : String} : platform ∈ s.platforms ↔ ∃ n ∈ s.nodes, n.attributes.platform = platform := by
  simp only [platforms, Dictionary.mem_keys_ofList, List.map_map, List.mem_map, Function.comp_apply]

/-- Where nodes are in environments of the fleet, a target for an environment is known if that is one of the fleet's. -/
theorem Placed.knows_environment_iff (h : s.Placed settings) (hkind : t.kind = .environment) :
    s.Knows settings t ↔ settings.hasEnvironment t.value = true := by
  simp only [Knows, hkind, true_and, Target.IsFor]
  constructor
  · rintro (hconfigured | ⟨n, hn, hfor⟩)
    · exact hconfigured
    · rw [← hfor]
      exact h n hn
  · exact Or.inl

/-- Any other target is known if it is for some live node. -/
theorem knows_iff_of_kind_ne (hkind : t.kind ≠ .environment) : s.Knows settings t ↔ ∃ n ∈ s.nodes, t.IsFor n := by
  simp only [Knows, hkind, false_and, false_or]

end Store

/-! ## Sifting -/

namespace Reach

variable {settings : Settings} {time : Time} {s : Store} {platforms : Option (List String)}

/-- Whether a target is known is found out without a change to the store, and the platforms are remembered once they were asked
for. -/
theorem run_isKnown (h : s.Placed settings) {t : Target} (ht : t.IsParsed) (hplatforms : ∀ names ∈ platforms, names = s.platforms)
    (time : Time) :
    ∃ known platforms', (known = true ↔ s.Knows settings t) ∧ (∀ names ∈ platforms', names = s.platforms) ∧
      (isKnown settings platforms t).run time s = (.ok (known, platforms'), s) := by
  unfold isKnown
  cases hkind : t.kind with
  | environment => exact ⟨_, platforms, (h.knows_environment_iff hkind).symm, hplatforms, rfl⟩
  | platform =>
    refine ⟨s.platforms.contains t.value, some s.platforms, ?_, fun names hnames => (Option.some.inj hnames).symm, ?_⟩
    · rw [Store.knows_iff_of_kind_ne (by simp [hkind]), List.contains_iff_mem, Store.mem_platforms]
      simp only [Target.IsFor, hkind]
    · cases platforms with
      | none => exact run_bind_of_ok (run_ask_of_ok rfl) _
      | some names =>
        rw [← hplatforms names rfl]
        rfl
  | uuid =>
    refine ⟨decide (s.HasNode (canonicalUuid t.value)), platforms, ?_, hplatforms, run_bind_of_ok (Roster.run_hasUuid t.value) _⟩
    rw [Store.knows_iff_of_kind_ne (by simp [hkind]), ht.canonical hkind, decide_eq_true_iff]
    simp only [Target.IsFor, hkind, Store.HasNode]
  | localname =>
    have hhost : (Roster.hasHost t.value).run time s = (.ok (!(s.nodesOnHost t.value).isEmpty), s) :=
      run_bind_of_ok (run_ask_of_ok rfl) _
    refine ⟨!(s.nodesOnHost t.value).isEmpty, platforms, ?_, hplatforms, run_bind_of_ok hhost _⟩
    rw [Store.knows_iff_of_kind_ne (by simp [hkind]), Bool.not_eq_true', List.isEmpty_eq_false_iff_exists_mem]
    simp only [Store.nodesOnHost, List.mem_filter, Node.isHost, Target.IsFor, hkind, Bool.or_eq_true, beq_iff_eq]

/-- Of targets that were not seen before, the known ones are kept, each once. -/
theorem run_siftOnto (h : s.Placed settings) {seen kept targets : List Target} (htargets : ∀ t ∈ targets, t.IsParsed)
    (hplatforms : ∀ names ∈ platforms, names = s.platforms) :
    (siftOnto settings seen kept platforms targets).run time s =
      (.ok (kept ++ (targets.filter (· ∉ seen)).eraseDups.filter (s.Knows settings ·)), s) := by
  induction targets generalizing seen kept platforms with
  | nil => simp [siftOnto]
  | cons t rest ih =>
    obtain ⟨hparsed, hrest⟩ := List.forall_mem_cons.mp htargets
    unfold siftOnto
    by_cases hseen : t ∈ seen
    · rw [if_pos (List.contains_iff_mem.mpr hseen), ih hrest hplatforms, List.filter_cons_of_neg (by simpa using hseen)]
    · rw [if_neg (by simpa using hseen)]
      obtain ⟨known, platforms', hknown, hplatforms', hrun⟩ := run_isKnown h hparsed hplatforms time
      -- what is left of the rest is what was neither seen before nor is the target
      have hleft : (rest.filter (· ∉ seen)).filter (fun b => !b == t) = rest.filter (· ∉ t :: seen) := by
        rw [List.filter_filter]
        refine List.filter_congr ?_
        intro b _
        simp only [List.mem_cons, not_or, Bool.decide_and, decide_not, beq_eq_decide]
      rw [run_bind_of_ok hrun, List.filter_cons_of_pos (by simpa using hseen), List.eraseDups_cons, hleft]
      dsimp only
      rw [ih hrest hplatforms']
      cases known with
      | true =>
        rw [List.filter_cons_of_pos (by simpa using hknown.mp rfl), if_pos rfl, List.append_assoc, List.singleton_append]
      | false =>
        have hnot : ¬s.Knows settings t := by
          intro hknows
          cases hknown.mpr hknows
        rw [List.filter_cons_of_neg (by simpa using hnot), if_neg Bool.false_ne_true]

/-- The known targets are kept, each once, in the order in which they first occur. -/
theorem run_sift (h : s.Placed settings) {targets : List Target} (htargets : ∀ t ∈ targets, t.IsParsed) :
    (sift settings targets).run time s = (.ok (targets.eraseDups.filter (s.Knows settings ·)), s) := by
  have hall : targets.filter (· ∉ ([] : List Target)) = targets := by simp
  have hrun : (siftOnto settings [] [] none targets).run time s = _ := run_siftOnto h htargets fun _ hnone => nomatch hnone
  rwa [hall, List.nil_append] at hrun

end Reach

/-- The known targets select the live nodes that all of them select: a target that selects a live node is known. -/
theorem Store.anySelects_of_mem_iff {settings : Settings} {s : Store} {targets kept : List Target}
    (hkept : ∀ t, t ∈ kept ↔ t ∈ targets ∧ s.Knows settings t) {n : Node} (hn : n ∈ s.nodes) :
    Target.anySelects kept n = Target.anySelects targets n := by
  rw [Bool.eq_iff_iff, Target.anySelects, Target.anySelects, List.any_eq_true, List.any_eq_true]
  constructor
  · rintro ⟨t, ht, hselects⟩
    exact ⟨t, ((hkept t).mp ht).1, hselects⟩
  · rintro ⟨t, ht, hselects⟩
    exact ⟨t, (hkept t).mpr ⟨ht, .inr ⟨n, hn, (t.selects_iff n).mp hselects⟩⟩, hselects⟩

/-! ## Launches -/

/-- What an operation that launches a query looks at before the targets: its actor may launch it, and the path of a carve is not
blank. -/
def Operation.MayLaunch (s : Store) : Operation → Prop
  | .createQuery _ actor _ _ _ => s.Permits actor .query none
  | .createCarve _ actor path _ => s.Permits actor .carve none ∧ Text.trim path ≠ ""
  | _ => False

section Launches

variable {settings : Settings} {time : Time} {s : Store} {targets : List Target}

/-- A launch of which no target is kept is refused for its targets. -/
theorem Fleet.run_launch_of_sift_eq_nil (hsift : (Reach.sift settings targets).run time s = (.ok [], s)) (draft : Query.Draft) :
    ∃ why, (launch settings draft targets).run time s = (.error (.refused why), s) ∧ why.kind = .invalidTarget := by
  unfold launch
  by_cases hnone : targets.isEmpty = true
  · rw [if_pos hnone]
    exact ⟨.noTarget, rfl, rfl⟩
  · rw [if_neg hnone, run_bind_of_ok hsift]
    exact ⟨.noKnownTarget, rfl, rfl⟩

/-- An operation that launches nothing because of its targets is refused for them, or for what it looks at before them. -/
theorem Operation.run_of_launch_refused {op : Operation} (hop : op.launchedAt = some targets)
    (hlaunch : ∀ draft, ∃ why, (Fleet.launch settings draft targets).run time s = (.error (.refused why), s) ∧
      why.kind = .invalidTarget) :
    ∃ why, op.run settings time s = (.error (.refused why), s) ∧ (op.MayLaunch s → why.kind = .invalidTarget) := by
  cases op with
  | createQuery token actor text targets' kind =>
    cases hop
    by_cases hpermits : s.Permits actor .query none
    · obtain ⟨why, hrun, hkind⟩ := hlaunch (.ready (QueryName.query token) actor text kind)
      have hcreate : (Fleet.createQuery settings token actor text targets kind).run time s = (.error (.refused why), s) :=
        (run_bind_of_ok (Accounts.run_require_of_permits time hpermits) _).trans hrun
      exact ⟨why, run_map_of_error hcreate _, fun _ => hkind⟩
    · have hcreate := run_bind_of_error (Accounts.run_require_of_not_permits time hpermits)
        fun _ => Fleet.launch settings (.ready (QueryName.query token) actor text kind) targets
      exact ⟨_, run_map_of_error hcreate _, fun hmay => absurd hmay hpermits⟩
  | createCarve token actor path targets' =>
    cases hop
    by_cases hpermits : s.Permits actor .carve none
    · have hpasses := Accounts.run_require_of_permits time hpermits
      by_cases hpath : Text.trim path = ""
      · have hcreate : (Fleet.createCarve settings token actor path targets).run time s = (.error (.refused .blankPath), s) := by
          unfold Fleet.createCarve
          rw [run_bind_of_ok hpasses]
          dsimp only
          rw [if_pos hpath]
          rfl
        exact ⟨_, run_map_of_error hcreate _, fun hmay => absurd hpath hmay.2⟩
      · obtain ⟨why, hrun, hkind⟩ := hlaunch { Query.Draft.ready (QueryName.carve token) actor (Carve.text (Text.trim path)) .carve
          with path := Text.trim path }
        have hcreate : (Fleet.createCarve settings token actor path targets).run time s = (.error (.refused why), s) := by
          unfold Fleet.createCarve
          rw [run_bind_of_ok hpasses]
          dsimp only
          rw [if_neg hpath]
          exact hrun
        exact ⟨why, run_map_of_error hcreate _, fun _ => hkind⟩
    · have hcreate : (Fleet.createCarve settings token actor path targets).run time s =
          (.error (.refused (.lacksAccess actor .carve none)), s) :=
        run_bind_of_error (Accounts.run_require_of_not_permits time hpermits) _
      exact ⟨_, run_map_of_error hcreate _, fun hmay => absurd hmay.1 hpermits⟩
  | _ => cases hop

/-- What is stored of a launch are the targets that were kept, and no others. -/
theorem Fleet.targetsOf_of_run_launch (hs : Reachable settings s) {draft : Query.Draft} {handle : Handle} {s' : Store}
    (h : (launch settings draft targets).run time s = (.ok handle, s')) {kept : List Target}
    (hsift : (Reach.sift settings targets).run time s = (.ok kept, s)) : s'.targetsOf handle.name = kept := by
  obtain ⟨kept', hsift', hfree, hname, -, rfl⟩ := of_run_launch_eq_ok h
  rw [hsift] at hsift'
  cases hsift'
  -- no target of the name was there before, because none is stored without its query
  have hnone : s.targets.filter (·.query == draft.name) = [] := by
    rw [List.filter_eq_nil_iff]
    intro entry hentry hquery
    exact hfree (beq_iff_eq.mp hquery ▸ Store.TargetsStored.of_reachable hs entry hentry)
  have hfresh : ({ draft with expected := handle.expected } : Query.Draft).name ∉ s.queryNames := hfree
  rw [hname, Call.after_insertQueryWithTargets_of_fresh s time hfresh]
  simp only [Store.targetsOf, List.filter_append, hnone, List.nil_append, List.filter_map, List.map_map]
  simp [Function.comp_def]

end Launches

/-- Of parsed targets those are kept that are for an environment of the fleet or for some live node, each once and in order. They
select the same live nodes and are what a launch stores; where none is kept, nothing is launched. -/
theorem Reach.sift_of_reachable {settings : Settings} {s : Store} (hs : Reachable settings s) {targets : List Target}
    (hparsed : ∀ t ∈ targets, t.IsParsed) (time : Time) :
    ∃ kept, (sift settings targets).run time s = (.ok kept, s) ∧
      (∀ t, t ∈ kept ↔ t ∈ targets ∧ s.Knows settings t) ∧
      (kept.Nodup ∧ kept.Pairwise fun a b => targets.idxOf a < targets.idxOf b) ∧
      (∀ n ∈ s.nodes, Target.anySelects kept n = Target.anySelects targets n) ∧
      (∀ (op : Operation) (handle : Handle), op.launchedAt = some targets →
        (op.run settings time s).1 = .ok (.handle handle) → (op.run settings time s).2.targetsOf handle.name = kept) ∧
      (targets = [] ∨ kept = [] →
        (∀ draft, ∃ why, (Fleet.launch settings draft targets).run time s = (.error (.refused why), s) ∧
          why.kind = .invalidTarget) ∧
        ∀ op : Operation, op.launchedAt = some targets →
          ∃ why, op.run settings time s = (.error (.refused why), s) ∧ (op.MayLaunch s → why.kind = .invalidTarget)) := by
  have hplaced := Store.Placed.of_reachable hs
  let kept := targets.eraseDups.filter (s.Knows settings ·)
  have hsift : (sift settings targets).run time s = (.ok kept, s) := run_sift hplaced hparsed
  have hmem : ∀ t, t ∈ kept ↔ t ∈ targets ∧ s.Knows settings t := by
    intro t
    rw [List.mem_filter, List.mem_eraseDups, decide_eq_true_iff]
  have horder : kept.Pairwise fun a b => targets.idxOf a < targets.idxOf b :=
    (pairwise_idxOf_eraseDups targets).filter _
  refine ⟨kept, hsift, hmem, ⟨nodup_of_pairwise_idxOf horder, horder⟩, fun n => Store.anySelects_of_mem_iff hmem, ?_, ?_⟩
  · intro op handle hop hrun
    obtain ⟨draft, -, hlaunch⟩ := Operation.of_run_eq_ok_handle hop (Prod.ext hrun rfl)
    exact Fleet.targetsOf_of_run_launch hs hlaunch hsift
  · intro hnone
    have hempty : kept = [] := by
      rcases hnone with rfl | hnone
      · rfl
      · exact hnone
    rw [hempty] at hsift
    have hrefused := Fleet.run_launch_of_sift_eq_nil hsift
    exact ⟨hrefused, fun op hop => Operation.run_of_launch_refused hop hrefused⟩

/-- Of four targets one comes twice and one is for no node: two are kept and stored, and with the one alone nothing is launched. -/
theorem Reach.sift_of_repeated_and_unknown :
    let settings : Settings := .embedded ["prod"]
    let s := Operation.replay settings .empty [(0, .ensureAdmin "root"),
      (1, .enroll "a-1" "key" { Attributes.blank with environment := "prod", platform := "ubuntu" })]
    let targets : List Target := [⟨.uuid, "A-1"⟩, ⟨.platform, "darwin"⟩, ⟨.uuid, "A-1"⟩, ⟨.environment, "prod"⟩]
    let op : Operation := .createQuery 7 "root" "SELECT 1;" targets .standard
    (op.run settings 2 s).2.targetsOf (QueryName.query 7) = [⟨.uuid, "A-1"⟩, ⟨.environment, "prod"⟩] ∧
      ∃ why, (Operation.createQuery 7 "root" "SELECT 1;" [⟨.platform, "darwin"⟩] .standard).run settings 2 s =
        (.error (.refused why), s) ∧ why.kind = .invalidTarget := by
  intro settings s targets op
  have hs : Reachable settings s := reachable_empty.replay _
  have huuid : (⟨.uuid, "A-1"⟩ : Target).IsParsed := ⟨"uuid", " a-1", by decide +kernel⟩
  have hplatform : (⟨.platform, "darwin"⟩ : Target).IsParsed := ⟨"platform", "darwin", by decide +kernel⟩
  have henvironment : (⟨.environment, "prod"⟩ : Target).IsParsed := ⟨"context", "prod ", by decide +kernel⟩
  have hparsed : ∀ t ∈ targets, t.IsParsed := by
    simpa [targets] using ⟨huuid, hplatform, huuid, henvironment⟩
  constructor
  · obtain ⟨kept, hsift, -, -, -, hstored, -⟩ := sift_of_reachable hs hparsed 2
    have hkept : (sift settings targets).run 2 s = (.ok [⟨.uuid, "A-1"⟩, ⟨.environment, "prod"⟩], s) := by decide +kernel
    rw [hkept] at hsift
    cases hsift
    exact hstored op ⟨QueryName.query 7, 1⟩ rfl (by decide +kernel)
  · obtain ⟨kept, hsift, -, -, -, -, hnone⟩ := sift_of_reachable hs (List.forall_mem_singleton.mpr hplatform) 2
    have hkept : (sift settings [⟨.platform, "darwin"⟩]).run 2 s = (.ok [], s) := by decide +kernel
    rw [hkept] at hsift
    cases hsift
    obtain ⟨-, hrefused⟩ := hnone (.inr rfl)
    obtain ⟨why, hrun, hkind⟩ := hrefused (.createQuery 7 "root" "SELECT 1;" [⟨.platform, "darwin"⟩] .standard) rfl
    have hmay : s.Permits "root" .query none := by decide +kernel
    exact ⟨why, hrun, hkind hmay⟩

end FleetControl
