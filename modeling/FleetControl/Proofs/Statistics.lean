import FleetControl.Proofs.Batches
import FleetControl.Proofs.Sifting
import Mathlib.Algebra.Ring.Int.Defs
import Mathlib.Data.List.Dedup

/-!
# How statistics part the fleet

The statistics of a selection count what its listings show (`Store.statsOf`). A node is active, inactive or changed at the cutoff
itself, so the first two make up the total but for the nodes of that one instant. Nodes that are grouped by a text, such as their
environment or their platform, are counted once in all if every text that occurs is listed once (`Store.sum_statsOf`): the
environments of the fleet are such a list, as no node is in another, and so are the platforms. With more hours the cutoff lies
further back, and what was active stays so.
-/

namespace FleetControl

open Program (run_bind_of_ok run_ask_of_ok)

/-- Several statistics taken together, component by component. -/
def Stats.sum (parts : List Stats) : Stats where
  total := (parts.map (·.total)).sum
  active := (parts.map (·.active)).sum
  inactive := (parts.map (·.inactive)).sum

/-- What the listings of a selection show, counted. -/
def Store.statsOf (s : Store) (selector : Selector) (cutoff : Time) : Stats where
  total := (s.listNodes selector .all cutoff).length
  active := (s.listNodes selector .active cutoff).length
  inactive := (s.listNodes selector .inactive cutoff).length

namespace Program

variable {α β : Type} {time : Time} {s : Store}

/-- Programs that have results and leave the store have them one after another. -/
theorem run_mapM_of_ok {f : α → Program β} {g : α → β} {as : List α} (h : ∀ a ∈ as, (f a).run time s = (.ok (g a), s)) :
    (as.mapM f).run time s = (.ok (as.map g), s) := by
  induction as with
  | nil => rfl
  | cons a as ih =>
    obtain ⟨ha, has⟩ := List.forall_mem_cons.mp h
    rw [List.mapM_cons, run_bind_of_ok ha, run_bind_of_ok (ih has)]
    rfl

end Program

/-- Statistics are answered where the cutoff can be held. -/
theorem Roster.run_stats_of_cutoff {time : Time} {hours : Int} {cutoff : Time} (h : activityCutoff time hours = some cutoff)
    (selector : Selector) (s : Store) : (stats selector hours).run time s = (.ok (s.statsOf selector cutoff), s) := by
  have hcount : ∀ activity, (Program.ask (.countNodes selector activity cutoff)).run time s =
      (.ok ((s.listNodes selector activity cutoff).length : Int), s) := fun activity => run_ask_of_ok rfl
  unfold stats
  rw [run_bind_of_ok (Program.run_cutoff_of_eq_some h), run_bind_of_ok (hcount .all), run_bind_of_ok (hcount .active),
    run_bind_of_ok (hcount .inactive)]
  rfl

/-! ## Activity -/

namespace Activity

/-- A time is after the cutoff, before it or the cutoff. -/
theorem length_filter_all (nodes : List Node) (cutoff : Time) :
    nodes.length = (nodes.filter fun n => active.admits n.updatedAt cutoff).length +
      (nodes.filter fun n => inactive.admits n.updatedAt cutoff).length + nodes.countP (·.updatedAt == cutoff) := by
  induction nodes with
  | nil => rfl
  | cons n nodes ih =>
    simp only [List.filter_cons, List.countP_cons, List.length_cons, admits, decide_eq_true_eq, beq_iff_eq] at ih ⊢
    rcases Int.lt_trichotomy n.updatedAt cutoff with hlt | heq | hgt
    · rw [if_neg (Int.lt_asymm hlt), if_pos hlt, if_neg (Int.ne_of_lt hlt), List.length_cons]
      omega
    · rw [if_neg (heq ▸ Int.lt_irrefl cutoff), if_neg (heq ▸ Int.lt_irrefl cutoff), if_pos heq]
      omega
    · rw [if_pos hgt, if_neg (Int.lt_asymm hgt), if_neg (Int.ne_of_gt hgt), List.length_cons]
      omega

end Activity

namespace Store

variable {s : Store} {selector : Selector} {cutoff cutoff' : Time}

/-- A listing shows those of the nodes it is about that are of the activity. -/
theorem listNodes_eq_filter (s : Store) (selector : Selector) (activity : Activity) (cutoff : Time) :
    s.listNodes selector activity cutoff =
      (s.nodes.filter selector.admits).filter fun n => activity.admits n.updatedAt cutoff := by
  rw [listNodes, List.filter_filter]
  exact List.filter_congr fun n _ => Bool.and_comm _ _

/-- Of the nodes in all some are active, some are inactive, and the rest changed at the cutoff. -/
theorem total_statsOf (s : Store) (selector : Selector) (cutoff : Time) :
    (s.statsOf selector cutoff).total = (s.statsOf selector cutoff).active + (s.statsOf selector cutoff).inactive +
      (s.nodes.countP fun n => selector.admits n && n.updatedAt == cutoff : Nat) := by
  have hall : (s.nodes.filter selector.admits).filter (fun n => Activity.all.admits n.updatedAt cutoff) =
      s.nodes.filter selector.admits := List.filter_eq_self.mpr fun _ _ => rfl
  have hcount : (s.nodes.filter selector.admits).countP (·.updatedAt == cutoff) =
      s.nodes.countP fun n => selector.admits n && n.updatedAt == cutoff := by
    rw [List.countP_filter]
    exact List.countP_congr fun n _ => by rw [Bool.and_comm]
  have hlength := Activity.length_filter_all (s.nodes.filter selector.admits) cutoff
  simp only [statsOf, listNodes_eq_filter, hall]
  omega

/-- With a cutoff further back the active nodes are still active. -/
theorem listNodes_active_sublist (hcutoff : cutoff' ≤ cutoff) :
    (s.listNodes selector .active cutoff).Sublist (s.listNodes selector .active cutoff') := by
  refine List.monotone_filter_right _ fun n hn => ?_
  simp only [Activity.admits, Bool.and_eq_true, decide_eq_true_eq] at hn ⊢
  exact ⟨hn.1, Int.lt_of_le_of_lt hcutoff hn.2⟩

/-- With a cutoff further back no other nodes are inactive. -/
theorem listNodes_inactive_sublist (hcutoff : cutoff' ≤ cutoff) :
    (s.listNodes selector .inactive cutoff').Sublist (s.listNodes selector .inactive cutoff) := by
  refine List.monotone_filter_right _ fun n hn => ?_
  simp only [Activity.admits, Bool.and_eq_true, decide_eq_true_eq] at hn ⊢
  exact ⟨hn.1, Int.lt_of_lt_of_le hn.2 hcutoff⟩

/-! ## Groups -/

/-- Nodes that are grouped by a text are counted once in all, if the text of each is listed once. -/
theorem sum_length_groups {group : Node → String} {names : List String} (hnodup : names.Nodup) {nodes : List Node}
    (hlisted : ∀ n ∈ nodes, group n ∈ names) :
    (names.map fun name => ((nodes.filter fun n => group n == name).length : Int)).sum = nodes.length := by
  induction names generalizing nodes with
  | nil =>
    have hnone : nodes = [] := List.eq_nil_iff_forall_not_mem.mpr fun n hn => List.not_mem_nil (hlisted n hn)
    rw [hnone]
    rfl
  | cons name rest ih =>
    obtain ⟨hname, hrest⟩ := List.nodup_cons.mp hnodup
    -- the nodes of the first text are taken away, and the others are those of the texts that follow
    let others := nodes.filter fun n => !(group n == name)
    have hothers : ∀ n ∈ others, group n ∈ rest := by
      intro n hn
      obtain ⟨hmem, hne⟩ := List.mem_filter.mp hn
      refine (List.mem_cons.mp (hlisted n hmem)).resolve_left ?_
      simpa using hne
    have hgroup : ∀ other ∈ rest, (others.filter fun n => group n == other) = nodes.filter fun n => group n == other := by
      intro other hmem
      rw [List.filter_filter]
      refine List.filter_congr fun n _ => ?_
      by_cases heq : group n = other
      · have hne : group n ≠ name := heq ▸ ne_of_mem_of_not_mem hmem hname
        simp [heq ▸ hne, heq]
      · simp [heq]
    have hcounted : (rest.map fun other => ((nodes.filter fun n => group n == other).length : Int)).sum = others.length := by
      rw [← ih hrest hothers]
      exact congrArg List.sum (List.map_congr_left fun other hmem => by rw [hgroup other hmem])
    rw [List.map_cons, List.sum_cons, hcounted, List.length_eq_length_filter_add (l := nodes) fun n => group n == name]
    exact (Int.natCast_add _ _).symm

/-- The statistics of groups sum up to those of all nodes, if the text of each node is listed once. -/
theorem sum_statsOf {group : Node → String} {select : String → Selector}
    (hselect : ∀ name n, (select name).admits n = (group n == name)) {names : List String} (hnodup : names.Nodup)
    (hlisted : ∀ n ∈ s.nodes, group n ∈ names) (cutoff : Time) :
    Stats.sum (names.map fun name => s.statsOf (select name) cutoff) = s.statsOf .all cutoff := by
  have hcount : ∀ activity, (names.map fun name => ((s.listNodes (select name) activity cutoff).length : Int)).sum =
      ((s.listNodes .all activity cutoff).length : Int) := by
    intro activity
    have hshown : ∀ n ∈ s.listNodes .all activity cutoff, group n ∈ names := fun n hn => hlisted n (List.mem_filter.mp hn).1
    have hgroup : ∀ name, s.listNodes (select name) activity cutoff =
        (s.listNodes .all activity cutoff).filter fun n => group n == name := by
      intro name
      rw [listNodes, listNodes, List.filter_filter]
      exact List.filter_congr fun n _ => by rw [hselect]; rfl
    rw [← sum_length_groups hnodup hshown]
    exact congrArg List.sum (List.map_congr_left fun name _ => by rw [hgroup])
  simp only [Stats.sum, statsOf, List.map_map, Function.comp_def, hcount]

end Store

/-- More hours put the cutoff further back. -/
theorem activityCutoff_antitone {now cutoff cutoff' : Time} {hours hours' : Int} (hhours : hours ≤ hours')
    (h : activityCutoff now hours = some cutoff) (h' : activityCutoff now hours' = some cutoff') : cutoff' ≤ cutoff := by
  rw [eq_of_activityCutoff_eq_some h, eq_of_activityCutoff_eq_some h']
  exact Int.sub_le_sub_left (Int.mul_le_mul_of_nonneg_right hhours (by decide)) now

/-- Statistics are the lengths of the listings, and part the fleet by activity, by environments and by platforms, where the cutoff
can be held. With more hours the active nodes are listed still, and no other nodes as inactive. -/
theorem Roster.stats_part_fleet {settings : Settings} {s : Store} (hs : Reachable settings s) {time : Time} {hours : Int}
    {cutoff : Time} (hcutoff : activityCutoff time hours = some cutoff) :
    (∀ selector, ∃ (counted : Stats) (shown : Activity → List Node),
      (stats selector hours).run time s = (.ok counted, s) ∧
      (∀ activity, (list selector activity hours).run time s = (.ok (shown activity), s)) ∧
      (counted.total = (shown .all).length ∧ counted.active = (shown .active).length ∧
        counted.inactive = (shown .inactive).length) ∧
      counted.total = counted.active + counted.inactive +
        (s.nodes.countP fun n => selector.admits n && n.updatedAt == cutoff : Nat)) ∧
    (∃ fleet names parts,
      (stats .all hours).run time s = (.ok fleet, s) ∧
      (settings.environments.dedup.mapM fun name => stats (.environment name) hours).run time s = (.ok parts, s) ∧
      Stats.sum parts = fleet ∧
      platforms.run time s = (.ok names, s) ∧
      (names.Pairwise (· < ·) ∧ names.Pairwise (Utf8.encode · < Utf8.encode ·)) ∧
      ∃ parts', (names.mapM fun name => stats (.platform name) hours).run time s = (.ok parts', s) ∧ Stats.sum parts' = fleet) ∧
    ∀ selector hours' cutoff', hours ≤ hours' → activityCutoff time hours' = some cutoff' →
      ∃ shown shown' : Activity → List Node,
        (∀ activity, (list selector activity hours).run time s = (.ok (shown activity), s)) ∧
        (∀ activity, (list selector activity hours').run time s = (.ok (shown' activity), s)) ∧
        (shown .active).Sublist (shown' .active) ∧ (shown' .inactive).Sublist (shown .inactive) := by
  have hplaced : ∀ n ∈ s.nodes, n.attributes.environment ∈ settings.environments.dedup := by
    intro n hn
    exact List.mem_dedup.mpr (List.contains_iff_mem.mp (Store.Placed.of_reachable hs n hn))
  have hordered : s.platforms.Pairwise (· < ·) := Dictionary.pairwise_keys _
  have hnames : s.platforms.Nodup := hordered.imp String.ne_of_lt
  have hplatforms : ∀ n ∈ s.nodes, n.attributes.platform ∈ s.platforms := fun n hn => Store.mem_platforms.mpr ⟨n, hn, rfl⟩
  refine ⟨fun selector => ?_, ?_, fun selector hours' cutoff' hhours hcutoff' => ?_⟩
  · exact ⟨s.statsOf selector cutoff, fun activity => s.listNodes selector activity cutoff,
      run_stats_of_cutoff hcutoff selector s, run_list_of_cutoff hcutoff selector, ⟨rfl, rfl, rfl⟩,
      s.total_statsOf selector cutoff⟩
  · refine ⟨s.statsOf .all cutoff, s.platforms, _, run_stats_of_cutoff hcutoff .all s,
      Program.run_mapM_of_ok fun name _ => run_stats_of_cutoff hcutoff (.environment name) s,
      Store.sum_statsOf (fun _ _ => rfl) settings.environments.nodup_dedup hplaced cutoff, run_ask_of_ok rfl,
      ⟨hordered, hordered.imp Utf8.encode_lt⟩, _,
      Program.run_mapM_of_ok fun name _ => run_stats_of_cutoff hcutoff (.platform name) s,
      Store.sum_statsOf (fun _ _ => rfl) hnames hplatforms cutoff⟩
  · have hback : cutoff' ≤ cutoff := activityCutoff_antitone hhours hcutoff hcutoff'
    exact ⟨fun activity => s.listNodes selector activity cutoff, fun activity => s.listNodes selector activity cutoff',
      run_list_of_cutoff hcutoff selector, run_list_of_cutoff hcutoff' selector, Store.listNodes_active_sublist hback,
      Store.listNodes_inactive_sublist hback⟩

/-- Three nodes enrolled before the cutoff, at it and after it, into a fleet that has one of its environments configured twice. -/
theorem Roster.stats_part_fleet_at_cutoff :
    let settings : Settings := .embedded ["prod", "dev", "prod"]
    let placed (environment platform : String) : Attributes :=
      { Attributes.blank with environment := environment, platform := platform }
    let s := Operation.replay settings .empty [(5, .enroll "a-1" "one" (placed "prod" "linux")),
      (10, .enroll "b-2" "two" (placed "prod" "darwin")), (15, .enroll "c-3" "three" (placed "dev" "linux"))]
    (stats .all 1).run 3600010 s = (.ok ⟨3, 1, 1⟩, s) ∧
      (s.nodes.countP fun n => Selector.all.admits n && n.updatedAt == 10) = 1 ∧
      (∃ parts, (["dev", "prod"].mapM fun name => stats (.environment name) 1).run 3600010 s = (.ok parts, s) ∧
        Stats.sum parts = ⟨3, 1, 1⟩) ∧
      ∃ names parts, platforms.run 3600010 s = (.ok names, s) ∧ names.Pairwise (· < ·) ∧
        (names.mapM fun name => stats (.platform name) 1).run 3600010 s = (.ok parts, s) ∧ Stats.sum parts = ⟨3, 1, 1⟩ := by
  intro settings placed s
  have hs : Reachable settings s := reachable_empty.replay _
  have hcutoff : activityCutoff 3600010 1 = some 10 := by decide +kernel
  have henvironments : settings.environments.dedup = ["dev", "prod"] := by decide +kernel
  have hcounted : ((stats .all 1).run 3600010 s).1 = .ok ⟨3, 1, 1⟩ := by decide +kernel
  obtain ⟨hselect, ⟨fleet, names, parts, hfleet, hparts, hsum, hnames, hordered, parts', hparts', hsum'⟩, -⟩ :=
    stats_part_fleet hs hcutoff
  rw [hfleet] at hcounted
  obtain rfl : fleet = ⟨3, 1, 1⟩ := Except.ok.inj hcounted
  rw [henvironments] at hparts
  refine ⟨hfleet, ?_, ⟨parts, hparts, hsum⟩, names, parts', hnames, hordered.1, hparts', hsum'⟩
  obtain ⟨counted, shown, hrun, -, -, htotal⟩ := hselect .all
  rw [hfleet] at hrun
  obtain rfl : ⟨3, 1, 1⟩ = counted := Except.ok.inj (congrArg Prod.fst hrun)
  dsimp only at htotal
  omega

end FleetControl
