import FleetControl.Proofs.Atomicity
import FleetControl.Proofs.StoredTargets
import FleetControl.Proofs.Tally

/-!
# How many nodes a query reaches

A target reaches the nodes that it is for, and one for an environment or a platform only those of them that are active. The count
of a list of targets collects UUIDs, target by target, and so counts each node that one of them reaches once, provided that the
values of UUID targets are in canonical form, as parsed ones are, and that the activity cutoff can be held wherever a target asks
for it (`Reach.run_count`). A query that is launched while every node is active is expected to reach as many nodes as are handed
it afterwards (`Fleet.expected_of_run_launch`).
-/

namespace FleetControl

open Program (run_bind_of_ok run_bind_of_error run_ask_of_ok of_run_bind_eq_ok of_run_map_eq_ok)

/-! ## Targets and the nodes they reach -/

namespace Target

/-- The target is what some text gives. -/
def IsParsed (t : Target) : Prop := ∃ word text, parse word text = .ok t

/-- The value of a UUID target that was parsed is in canonical form. -/
theorem IsParsed.canonical {t : Target} (h : t.IsParsed) (hkind : t.kind = .uuid) : canonicalUuid t.value = t.value := by
  obtain ⟨word, text, hparse⟩ := h
  obtain ⟨-, -, hvalue⟩ := parse_eq_ok_iff.mp hparse
  rw [hvalue, hkind]
  exact TargetKind.uuid.valueOf_valueOf text

/-- Of the nodes that the target is for only the active ones count. -/
def isTimed (t : Target) : Bool :=
  match t.kind with
  | .environment | .platform => true
  | .uuid | .localname => false

/-- The target is for the node, which changed after the cutoff if only active nodes count. -/
def Reaches (t : Target) (cutoff : Time) (node : Node) : Prop := t.IsFor node ∧ (t.isTimed = true → cutoff < node.updatedAt)

instance (t : Target) (node : Node) : Decidable (t.IsFor node) := decidable_of_iff _ (t.selects_iff node)

instance (t : Target) (cutoff : Time) (node : Node) : Decidable (t.Reaches cutoff node) :=
  inferInstanceAs (Decidable (t.IsFor node ∧ (t.isTimed = true → cutoff < node.updatedAt)))

end Target

/-- The cutoff lies the hours before now. -/
theorem eq_of_activityCutoff_eq_some {now cutoff : Time} {hours : Int} (h : activityCutoff now hours = some cutoff) :
    cutoff = now - hours * Time.hourLength := by
  unfold activityCutoff at h
  dsimp only at h
  split at h
  · exact (Option.some.inj h).symm
  · cases h

namespace Roster

variable {time : Time} {s : Store}

/-- Whether there is a node of a UUID. -/
theorem run_hasUuid (uuid : String) : (hasUuid uuid).run time s = (.ok (decide (s.HasNode (canonicalUuid uuid))), s) := by
  have hattempt : (byUuid uuid).attempt.run time s = _ := Program.run_attempt _
  unfold hasUuid finds
  by_cases h : s.HasNode (canonicalUuid uuid)
  · obtain ⟨n, -, -, hfound⟩ : ∃ n ∈ s.nodes, n.uuid = canonicalUuid uuid ∧ (byUuid uuid).run time s = (.ok n, s) :=
      run_byUuid_of_hasNode h
    rw [hfound] at hattempt
    rw [run_bind_of_ok hattempt, decide_eq_true h]
    rfl
  · rw [run_byUuid_of_not_hasNode h] at hattempt
    rw [run_bind_of_ok hattempt, decide_eq_false h]
    rfl

/-- A listing is answered where the cutoff can be held. -/
theorem run_list_of_cutoff {hours : Int} {cutoff : Time} (h : activityCutoff time hours = some cutoff) (selector : Selector)
    (activity : Activity) : (list selector activity hours).run time s = (.ok (s.listNodes selector activity cutoff), s) := by
  unfold list
  rw [run_bind_of_ok (Program.run_cutoff_of_eq_some h)]
  exact run_ask_of_ok rfl

/-- Without a cutoff a listing stops. -/
theorem run_list_of_noCutoff {hours : Int} (h : activityCutoff time hours = none) (selector : Selector) (activity : Activity) :
    (list selector activity hours).run time s = (.error .noCutoff, s) :=
  run_bind_of_error (Program.run_cutoff_of_eq_none h) _

end Roster

/-! ## Collecting UUIDs -/

namespace Reach

/-- The UUIDs found are those of the nodes with the property, each once. -/
structure Collects (s : Store) (found : List String) (P : Node → Prop) : Prop where
  once : found.Nodup
  mem : ∀ uuid, uuid ∈ found ↔ ∃ n ∈ s.nodes, n.uuid = uuid ∧ P n

theorem collects_nil (s : Store) : Collects s [] fun _ => False :=
  ⟨List.nodup_nil, by simp⟩

namespace Collects

variable {s : Store} {found : List String} {P Q : Node → Prop}

theorem congr (h : Collects s found P) (hPQ : ∀ n ∈ s.nodes, P n ↔ Q n) : Collects s found Q := by
  refine ⟨h.once, ?_⟩
  intro uuid
  rw [h.mem]
  constructor
  · rintro ⟨n, hn, huuid, hP⟩
    exact ⟨n, hn, huuid, (hPQ n hn).mp hP⟩
  · rintro ⟨n, hn, huuid, hQ⟩
    exact ⟨n, hn, huuid, (hPQ n hn).mpr hQ⟩

/-- One more UUID is that of the nodes with another property. -/
theorem insert (h : Collects s found P) {uuid : String} (hQ : ∀ u, u = uuid ↔ ∃ n ∈ s.nodes, n.uuid = u ∧ Q n) :
    Collects s (found.insert uuid) fun n => P n ∨ Q n := by
  refine ⟨h.once.insert, ?_⟩
  intro u
  simp only [List.mem_insert_iff, h.mem, hQ, ← exists_or, ← and_or_left, or_comm (b := P _)]

/-- The UUIDs of listed nodes are those of the nodes with another property. -/
theorem addUuids (h : Collects s found P) {nodes : List Node} (hQ : ∀ n, n ∈ nodes ↔ n ∈ s.nodes ∧ Q n) :
    Collects s (addUuids found nodes) fun n => P n ∨ Q n := by
  have hadd : ∀ (nodes : List Node) (found : List String), found.Nodup →
      (Reach.addUuids found nodes).Nodup ∧ ∀ u, u ∈ Reach.addUuids found nodes ↔ u ∈ found ∨ ∃ n ∈ nodes, n.uuid = u := by
    intro nodes
    induction nodes with
    | nil =>
      intro found honce
      exact ⟨honce, by simp [Reach.addUuids]⟩
    | cons n nodes ih =>
      intro found honce
      obtain ⟨honce', hmem⟩ := ih (found.insert n.uuid) honce.insert
      refine ⟨honce', ?_⟩
      intro u
      have hstep : Reach.addUuids found (n :: nodes) = Reach.addUuids (found.insert n.uuid) nodes := rfl
      rw [hstep, hmem, List.mem_insert_iff, List.exists_mem_cons_iff, eq_comm (a := u), or_comm (a := n.uuid = u), or_assoc]
  obtain ⟨honce, hmem⟩ := hadd nodes found h.once
  refine ⟨honce, ?_⟩
  intro u
  rw [hmem, h.mem]
  constructor
  · rintro (⟨n, hn, huuid, hP⟩ | ⟨n, hn, huuid⟩)
    · exact ⟨n, hn, huuid, .inl hP⟩
    · exact ⟨n, ((hQ n).mp hn).1, huuid, .inr ((hQ n).mp hn).2⟩
  · rintro ⟨n, hn, huuid, hP | hQn⟩
    · exact .inl ⟨n, hn, huuid, hP⟩
    · exact .inr ⟨n, (hQ n).mpr ⟨hn, hQn⟩, huuid⟩

/-- Where nodes are told apart by their UUIDs, as many UUIDs were collected as there are nodes with the property. -/
theorem length_eq (hfound : Collects s found P) (h : s.Sound) [DecidablePred P] : found.length = s.nodes.countP fun n => P n := by
  have honce : ((s.nodes.filter fun n => P n).map (·.uuid)).Nodup := h.uuids.sublist (List.filter_sublist.map _)
  have hperm : found.Perm ((s.nodes.filter fun n => P n).map (·.uuid)) := by
    refine (List.perm_ext_iff_of_nodup hfound.once honce).mpr ?_
    intro uuid
    simp only [hfound.mem, List.mem_map, List.mem_filter, decide_eq_true_eq, and_assoc, and_comm (a := P _)]
  rw [hperm.length_eq, List.length_map, List.countP_eq_length_filter]

end Collects

variable {time : Time} {s : Store} {hours : Int}

/-- A target whose value is in its form and whose cutoff can be held adds the nodes that it reaches. -/
theorem run_reachedBy {found : List String} {P : Node → Prop} (hfound : Collects s found P) {t : Target} (ht : t.IsParsed)
    (hcutoff : t.isTimed = true → (activityCutoff time hours).isSome) :
    ∃ found', (reachedBy hours found t).run time s = (.ok found', s) ∧
      Collects s found' fun n => P n ∨ t.Reaches (time - hours * Time.hourLength) n := by
  have hlisted : ∀ selector : Selector, t.isTimed = true → (∀ n, selector.admits n = true ↔ t.IsFor n) →
      ∃ found', (do return addUuids found (← Roster.list selector .active hours) : Program (List String)).run time s =
        (.ok found', s) ∧ Collects s found' fun n => P n ∨ t.Reaches (time - hours * Time.hourLength) n := by
    intro selector htimed hadmits
    obtain ⟨cutoff, heq⟩ := Option.isSome_iff_exists.mp (hcutoff htimed)
    refine ⟨_, run_bind_of_ok (Roster.run_list_of_cutoff heq selector .active) _, hfound.addUuids ?_⟩
    intro n
    simp only [Store.listNodes, List.mem_filter, Bool.and_eq_true, hadmits, Activity.admits, decide_eq_true_eq,
      Target.Reaches, htimed, true_imp_iff, eq_of_activityCutoff_eq_some heq]
  have huntimed : t.isTimed = false → ∀ n, t.Reaches (time - hours * Time.hourLength) n ↔ t.IsFor n := by
    intro h n
    simp only [Target.Reaches, h, Bool.false_eq_true, false_imp_iff, and_true]
  unfold reachedBy
  cases hkind : t.kind with
  | environment =>
    refine hlisted (.environment t.value) (by simp only [Target.isTimed, hkind]) ?_
    intro n
    simp only [Selector.admits, Target.IsFor, hkind, beq_iff_eq]
  | platform =>
    refine hlisted (.platform t.value) (by simp only [Target.isTimed, hkind]) ?_
    intro n
    simp only [Selector.admits, Target.IsFor, hkind, beq_iff_eq]
  | uuid =>
    have hreaches : ∀ n, t.Reaches (time - hours * Time.hourLength) n ↔ n.uuid = t.value := by
      intro n
      rw [huntimed (by simp only [Target.isTimed, hkind]), Target.IsFor, hkind]
    rw [run_bind_of_ok (Roster.run_hasUuid t.value), ht.canonical hkind]
    by_cases hthere : s.HasNode t.value
    · rw [decide_eq_true hthere]
      -- the target's own text is collected, which is the UUID of a node because both are canonical
      refine ⟨_, rfl, hfound.insert ?_⟩
      intro u
      simp only [hreaches]
      constructor
      · rintro rfl
        obtain ⟨n, hn, huuid⟩ := hthere
        exact ⟨n, hn, huuid, huuid⟩
      · rintro ⟨n, -, rfl, huuid⟩
        exact huuid
    · rw [decide_eq_false hthere]
      refine ⟨_, rfl, hfound.congr ?_⟩
      intro n hn
      have hnot : ¬t.Reaches (time - hours * Time.hourLength) n := by
        rw [hreaches]
        intro huuid
        exact hthere ⟨n, hn, huuid⟩
      simp only [hnot, or_false]
  | localname =>
    refine ⟨_, run_bind_of_ok (run_ask_of_ok rfl) _, hfound.addUuids ?_⟩
    intro n
    rw [huntimed (by simp only [Target.isTimed, hkind])]
    simp only [Store.nodesOnHost, List.mem_filter, Node.isHost, Target.IsFor, hkind, Bool.or_eq_true, beq_iff_eq]

/-- A target that asks for the cutoff stops where there is none. -/
theorem run_reachedBy_of_noCutoff (found : List String) {t : Target} (htimed : t.isTimed = true)
    (hnone : activityCutoff time hours = none) : (reachedBy hours found t).run time s = (.error .noCutoff, s) := by
  unfold reachedBy
  cases hkind : t.kind with
  | environment | platform => exact run_bind_of_error (Roster.run_list_of_noCutoff hnone _ _) _
  | uuid | localname =>
    rw [Target.isTimed, hkind] at htimed
    cases htimed

/-- Targets whose values are in their form add the nodes that one of them reaches, where the cutoff can be held if it is asked
for. -/
theorem run_reachedByAll {found : List String} {P : Node → Prop} (hfound : Collects s found P) {targets : List Target}
    (htargets : ∀ t ∈ targets, t.IsParsed)
    (hcutoff : (∃ t ∈ targets, t.isTimed = true) → (activityCutoff time hours).isSome) :
    ∃ found', (reachedByAll hours found targets).run time s = (.ok found', s) ∧
      Collects s found' fun n => P n ∨ ∃ t ∈ targets, t.Reaches (time - hours * Time.hourLength) n := by
  induction targets generalizing found P with
  | nil =>
    refine ⟨found, rfl, hfound.congr ?_⟩
    intro n _
    simp
  | cons t rest ih =>
    obtain ⟨hparsed, hrest⟩ := List.forall_mem_cons.mp htargets
    obtain ⟨found₁, hrun, hfound₁⟩ := run_reachedBy hfound hparsed fun htimed => hcutoff ⟨t, List.mem_cons_self, htimed⟩
    obtain ⟨found₂, hruns, hfound₂⟩ := ih hfound₁ hrest fun ⟨t', ht', htimed⟩ =>
      hcutoff ⟨t', List.mem_cons_of_mem _ ht', htimed⟩
    refine ⟨found₂, (run_bind_of_ok hrun _).trans hruns, hfound₂.congr ?_⟩
    intro n _
    rw [List.exists_mem_cons_iff, or_assoc]

/-- Targets of which one asks for the cutoff stop where there is none. -/
theorem run_reachedByAll_of_noCutoff {found : List String} {P : Node → Prop} (hfound : Collects s found P)
    {targets : List Target} (htargets : ∀ t ∈ targets, t.IsParsed) (htimed : ∃ t ∈ targets, t.isTimed = true)
    (hnone : activityCutoff time hours = none) :
    (reachedByAll hours found targets).run time s = (.error .noCutoff, s) := by
  induction targets generalizing found P with
  | nil =>
    obtain ⟨t, ht, -⟩ := htimed
    exact absurd ht List.not_mem_nil
  | cons t rest ih =>
    obtain ⟨hparsed, hrest⟩ := List.forall_mem_cons.mp htargets
    cases hfirst : t.isTimed with
    | true => exact run_bind_of_error (run_reachedBy_of_noCutoff found hfirst hnone) _
    | false =>
      have hcutoff : t.isTimed = true → (activityCutoff time hours).isSome := by
        rw [hfirst]
        exact nofun
      obtain ⟨found₁, hrun, hfound₁⟩ := run_reachedBy hfound hparsed hcutoff
      refine (run_bind_of_ok hrun _).trans (ih hfound₁ hrest ?_)
      obtain ⟨t', ht', htimed'⟩ := htimed
      rcases List.mem_cons.mp ht' with rfl | ht'
      · rw [hfirst] at htimed'
        cases htimed'
      · exact ⟨t', ht', htimed'⟩

/-- Targets that were parsed are counted as the nodes that one of them reaches, unless one asks for a cutoff that cannot be held. -/
theorem run_count (h : s.Sound) {targets : List Target} (htargets : ∀ t ∈ targets, t.IsParsed) (time : Time) (hours : Int) :
    (count hours targets).run time s =
      (if (∃ t ∈ targets, t.isTimed = true) ∧ activityCutoff time hours = none then .error .noCutoff
        else .ok (s.nodes.countP fun n => ∃ t ∈ targets, t.Reaches (time - hours * Time.hourLength) n), s) := by
  unfold count
  split
  · rename_i hstops
    rw [run_bind_of_error (run_reachedByAll_of_noCutoff (collects_nil s) htargets hstops.1 hstops.2)]
  · rename_i hgoes
    have hcutoff : (∃ t ∈ targets, t.isTimed = true) → (activityCutoff time hours).isSome := by
      intro htimed
      exact Option.isSome_iff_ne_none.mpr fun hnone => hgoes ⟨htimed, hnone⟩
    obtain ⟨found, hrun, hfound⟩ := run_reachedByAll (collects_nil s) htargets hcutoff
    rw [run_bind_of_ok hrun, hfound.length_eq h]
    simp only [false_or]
    rfl

end Reach

/-! ## What is stored of a launch -/

/-- Sifting keeps some of the targets. -/
theorem Reach.subset_of_run_siftOnto {settings : Settings} {time : Time} {s s' : Store} {seen kept targets result : List Target}
    {platforms : Option (List String)} (h : (siftOnto settings seen kept platforms targets).run time s = (.ok result, s')) :
    result ⊆ kept ++ targets := by
  induction targets generalizing seen kept platforms s with
  | nil =>
    cases h
    exact List.subset_append_left _ []
  | cons target rest ih =>
    have hrest : kept ++ rest ⊆ kept ++ target :: rest :=
      List.append_subset.mpr
        ⟨List.subset_append_left _ _, List.Subset.trans (List.subset_cons_self _ _) (List.subset_append_right _ _)⟩
    unfold siftOnto at h
    split at h
    · exact List.Subset.trans (ih h) hrest
    · obtain ⟨⟨known, platforms'⟩, s₁, -, h⟩ := of_run_bind_eq_ok h
      refine List.Subset.trans (ih h) ?_
      split
      · rw [List.append_assoc, List.singleton_append]
        exact List.Subset.refl _
      · exact hrest

/-- A launch that is not refused stores the query with the targets that are kept and the count of the nodes that they reach. -/
theorem Fleet.of_run_launch_eq_ok {settings : Settings} {draft : Query.Draft} {targets : List Target} {time : Time}
    {s s' : Store} {handle : Handle} (h : (launch settings draft targets).run time s = (.ok handle, s')) :
    ∃ kept, (Reach.sift settings targets).run time s = (.ok kept, s) ∧ draft.name ∉ s.queryNames ∧ handle.name = draft.name ∧
      (Reach.count settings.inactiveHours kept).run time s = (.ok handle.expected, s) ∧
      s' = (Call.insertQueryWithTargets { draft with expected := handle.expected } kept).after time s := by
  have hreads : ∀ c : Call, c.part = none → c.part = none := fun _ => id
  unfold launch at h
  split at h
  · cases h
  · obtain ⟨kept, s₁, hsift, hsifted⟩ := of_run_bind_eq_ok h
    obtain rfl := (Program.eq_of_run_of_reads (Reach.asks_sift hreads settings targets) hsift).symm
    split at hsifted
    · cases hsifted
    · obtain ⟨reach, s₁, hcount, hcounted⟩ := of_run_bind_eq_ok hsifted
      obtain rfl := (Program.eq_of_run_of_reads (Reach.asks_count hreads settings.inactiveHours kept) hcount).symm
      obtain ⟨expected, s₁, hexpected, hcreated⟩ := of_run_bind_eq_ok hcounted
      obtain ⟨rfl, rfl⟩ : (reach : Int) = expected ∧ s = s₁ := by
        unfold QueryBook.storedCount at hexpected
        split at hexpected <;> cases hexpected
        exact ⟨rfl, rfl⟩
      rcases QueryBook.run_create { draft with expected := reach } kept time s with ⟨why, hcreate⟩ | ⟨hfree, hcreate⟩
      · rw [run_bind_of_error hcreate] at hcreated
        cases hcreated
      · rw [run_bind_of_ok hcreate] at hcreated
        cases hcreated
        exact ⟨kept, hsift, hfree, rfl, hcount, rfl⟩

/-- Every stored target is of a stored query. -/
def Store.TargetsStored (s : Store) : Prop := ∀ entry ∈ s.targets, entry.query ∈ s.queryNames

/-- After a call the targets are those before, with perhaps new ones: of the new query that the call inserts, or of a query that was
stored before. -/
theorem Call.targets_cases (s : Store) (now : Time) (c : Call) :
    (c.after now s).targets = s.targets ∨
      ∃ name, ∃ added : List Target, name ∈ (c.after now s).queryNames ∧
        ((∃ draft, c = .insertQueryWithTargets draft added ∧ name ∉ s.queryNames) ∨ c = .insertTargets name added) ∧
        (c.after now s).targets = s.targets ++ added.map fun t => ⟨name, t⟩ := by
  cases c with
  | insertQueryWithTargets draft targets =>
    by_cases hname : draft.name ∈ s.queryNames
    · rw [after_insertQueryWithTargets, if_pos (by simpa [Store.queryNames] using hname)]
      exact Or.inl rfl
    · rw [after_insertQueryWithTargets_of_fresh s now hname]
      refine Or.inr ⟨draft.name, targets, ?_, .inl ⟨draft, rfl, hname⟩, rfl⟩
      exact (Store.mem_queryNames _).mpr ⟨s.newQuery now draft, List.mem_append_right _ List.mem_cons_self, rfl⟩
  | insertTargets name added =>
    rw [after_insertTargets]
    split
    · rename_i hstored
      refine Or.inr ⟨name, added, ?_, .inr rfl, rfl⟩
      simpa [Store.queryNames] using hstored
    · exact Or.inl rfl
  | insertQuery draft => rw [after_insertQuery]; split <;> exact Or.inl rfl
  | setExpected name expected => rw [after_setExpected]; exact Or.inl rfl
  | setFlags name flags => rw [after_setFlags]; exact Or.inl rfl
  | incrementCounter name counter => rw [after_incrementCounter]; exact Or.inl rfl
  | recordExecution e => rw [after_recordExecution]; split <;> exact Or.inl rfl
  | _ => exact Or.inl (queries_of_part_ne s now (by simp [part])).2.1

namespace Store

variable {settings : Settings} {s : Store}

/-- Every call keeps targets with their queries. -/
theorem TargetsStored.after (h : s.TargetsStored) (c : Call) (now : Time) : (c.after now s).TargetsStored := by
  intro entry hentry
  rcases Call.targets_cases s now c with hsame | ⟨name, added, hname, -, htargets⟩
  · rw [hsame] at hentry
    exact c.stored_after (h entry hentry)
  · rw [htargets] at hentry
    rcases List.mem_append.mp hentry with hentry | hentry
    · exact c.stored_after (h entry hentry)
    · obtain ⟨t, -, rfl⟩ := List.mem_map.mp hentry
      exact hname

theorem TargetsStored.of_reachable (hs : Reachable settings s) : s.TargetsStored := by
  refine hs.preserves (fun _ hentry => absurd hentry List.not_mem_nil) ?_
  intro c _ now s h
  exact h.after c now

/-- In a store that operations lead to, the keys of the nodes are in canonical form. -/
theorem canonicalKey_of_reachable (hs : Reachable settings s) : ∀ n ∈ s.nodes, canonicalKey n.key = n.key := by
  refine Sound.forall_nodes_of_reachable (fun n n' hsame hcanonical => ?_) (fun s now e seeds hproper => ?_) hs
  · rw [hsame.key, hcanonical]
  · cases hproper with
    | reads hreads => cases hreads
    | insertNode _ hkey =>
      obtain ⟨key, hkey⟩ := hkey
      change canonicalKey e.key = e.key
      rw [hkey, canonicalKey_canonicalKey]

/-- The node that polls by its key is handed the query of the name. -/
def hands (settings : Settings) (time : Time) (name : String) (s : Store) (node : Node) : Bool :=
  match ((Operation.poll node.key).run settings time s).1 with
  | .ok (.pending pending) => pending.keys.contains name
  | _ => false

/-- A node is handed what is due to it. -/
theorem hands_iff (hs : Reachable settings s) {n : Node} (hn : n ∈ s.nodes) (time : Time) (name : String) :
    s.hands settings time name n = true ↔ ∃ q ∈ s.queries, s.Due n q ∧ q.name = name := by
  have hsound := Sound.of_reachable hs
  have hpoll := Program.run_map_of_ok (Fleet.run_poll hsound hn (canonicalKey_of_reachable hs n hn).symm time) Answer.pending
  simp only [hands, Operation.run, Operation.program, hpoll, List.contains_iff_mem]
  constructor
  · intro hpending
    obtain ⟨⟨_, text⟩, hentry, rfl⟩ := List.mem_map.mp hpending
    obtain ⟨q, hq, hdue, hname, -⟩ := mem_due hentry
    exact ⟨q, hq, hdue, hname⟩
  · rintro ⟨q, hq, hdue, rfl⟩
    have hkept : q ∈ s.queries.filter fun q => s.Due n q := List.mem_filter.mpr ⟨hq, decide_eq_true hdue⟩
    exact List.mem_map.mpr ⟨(q.name, q.text), (hsound.perm_due n).mem_iff.mpr (List.mem_map_of_mem hkept), rfl⟩

/-- A query that was just launched is handed to the nodes that one of its targets is for. -/
theorem hands_after_launch (hs : Reachable settings s) {draft : Query.Draft} {kept : List Target} {now : Time}
    (hs' : Reachable settings ((Call.insertQueryWithTargets draft kept).after now s)) (hfree : draft.name ∉ s.queryNames)
    (hactive : draft.active = true ∧ draft.completed = false ∧ draft.deleted = false) {n : Node} (hn : n ∈ s.nodes)
    (time : Time) :
    ((Call.insertQueryWithTargets draft kept).after now s).hands settings time draft.name n = true ↔
      ∃ t ∈ kept, t.IsFor n := by
  have hnodes := (Call.nodes_of_part_ne (c := .insertQueryWithTargets draft kept) s now (by simp [Call.part])).1
  rw [hands_iff hs' (hnodes ▸ hn), Call.after_insertQueryWithTargets_of_fresh s now hfree]
  constructor
  · rintro ⟨q, -, ⟨-, ⟨entry, hentry, hquery, hfor⟩, -⟩, hname⟩
    rcases List.mem_append.mp hentry with hentry | hentry
    · -- the targets that were there before are of stored queries, and the name was free
      have hstored := TargetsStored.of_reachable hs entry hentry
      rw [hquery, hname] at hstored
      exact absurd hstored hfree
    · obtain ⟨t, ht, rfl⟩ := List.mem_map.mp hentry
      exact ⟨t, ht, hfor⟩
  · rintro ⟨t, ht, hfor⟩
    refine ⟨s.newQuery now draft, List.mem_append_right _ List.mem_cons_self, ⟨hactive, ?_, ?_⟩, rfl⟩
    · exact ⟨⟨draft.name, t⟩, List.mem_append_right _ (List.mem_map_of_mem ht), rfl, hfor⟩
    · rintro e he ⟨hname, -⟩
      exact hfree (hname ▸ (Tallied.of_reachable hs).stored e he)

end Store

/-- A query that is launched while every node is active is stored with the count of the nodes that are handed it when they poll. -/
theorem Fleet.expected_of_run_launch {settings : Settings} {s s' : Store} (hs : Reachable settings s)
    (hs' : Reachable settings s') {draft : Query.Draft}
    (hready : draft.active = true ∧ draft.completed = false ∧ draft.deleted = false) {targets : List Target}
    (hparsed : ∀ t ∈ targets, t.IsParsed) {time : Time}
    (hactive : ∀ n ∈ s.nodes, time - settings.inactiveHours * Time.hourLength < n.updatedAt) {handle : Handle}
    (h : (launch settings draft targets).run time s = (.ok handle, s')) :
    (∃ q, s'.getQuery handle.name = some q ∧ q.expected = handle.expected) ∧
      ∀ time', handle.expected = s'.nodes.countP (s'.hands settings time' handle.name) := by
  obtain ⟨kept, hsift, hfree, hname, hcount, rfl⟩ := of_run_launch_eq_ok h
  have hkept : kept ⊆ targets := Reach.subset_of_run_siftOnto hsift
  have hreached : handle.expected =
      s.nodes.countP fun n => ∃ t ∈ kept, t.Reaches (time - settings.inactiveHours * Time.hourLength) n := by
    rw [Reach.run_count (.of_reachable hs) fun t ht => hparsed t (hkept ht)] at hcount
    split at hcount
    · cases hcount
    · exact (Except.ok.inj (congrArg Prod.fst hcount)).symm
  constructor
  · have hnames := (Store.Sound.of_reachable hs').names
    have hfresh : ({ draft with expected := handle.expected } : Query.Draft).name ∉ s.queryNames := hfree
    rw [Call.after_insertQueryWithTargets_of_fresh s time hfresh] at hnames ⊢
    refine ⟨s.newQuery time { draft with expected := handle.expected }, ?_, rfl⟩
    rw [hname]
    exact Store.find?_eq_some_of_nodup hnames (List.mem_append_right _ List.mem_cons_self)
  · intro time'
    rw [(Call.nodes_of_part_ne s time (by simp [Call.part])).1, hname]
    refine hreached.trans (List.countP_congr ?_)
    intro n hn
    rw [decide_eq_true_iff, Store.hands_after_launch hs hs' hfree hready hn]
    constructor
    · rintro ⟨t, ht, hfor, -⟩
      exact ⟨t, ht, hfor⟩
    · rintro ⟨t, ht, hfor⟩
      exact ⟨t, ht, hfor, fun _ => hactive n hn⟩

/-- The targets that an operation launches a query at. -/
def Operation.launchedAt : Operation → Option (List Target)
  | .createQuery _ _ _ targets _ | .createCarve _ _ _ targets => some targets
  | _ => none

/-- An operation that launches a query and is not refused is a launch of a query that is ready to be served. -/
theorem Operation.of_run_eq_ok_handle {settings : Settings} {op : Operation} {targets : List Target}
    (hop : op.launchedAt = some targets) {time : Time} {s s' : Store} {handle : Handle}
    (h : op.run settings time s = (.ok (.handle handle), s')) :
    ∃ draft : Query.Draft, (draft.active = true ∧ draft.completed = false ∧ draft.deleted = false) ∧
      (Fleet.launch settings draft targets).run time s = (.ok handle, s') := by
  have hrequire : ∀ {actor : String} {level : Access.Level} {u : Unit} {s₁ : Store},
      (Accounts.require actor level none).run time s = (.ok u, s₁) → s = s₁ := by
    intro actor level u s₁ hrun
    exact (Program.eq_of_run_of_reads (Accounts.asks_require (fun _ => id) actor level none) hrun).symm
  cases op with
  | createQuery token actor text targets' kind =>
    cases hop
    obtain ⟨_, hcreate, heq⟩ := of_run_map_eq_ok h
    cases heq
    unfold Fleet.createQuery at hcreate
    obtain ⟨_, s₁, hpasses, hlaunch⟩ := of_run_bind_eq_ok hcreate
    obtain rfl := hrequire hpasses
    exact ⟨_, ⟨rfl, rfl, rfl⟩, hlaunch⟩
  | createCarve token actor path targets' =>
    cases hop
    obtain ⟨_, hcreate, heq⟩ := of_run_map_eq_ok h
    cases heq
    unfold Fleet.createCarve at hcreate
    obtain ⟨_, s₁, hpasses, hlaunch⟩ := of_run_bind_eq_ok hcreate
    obtain rfl := hrequire hpasses
    dsimp only at hlaunch
    split at hlaunch
    · cases hlaunch
    · exact ⟨_, ⟨rfl, rfl, rfl⟩, hlaunch⟩
  | _ => cases hop

/-- Parsed targets are counted as the live nodes that one of them reaches, if the cutoff they ask for can be held: never more than
they select, and the same in any order. It is how many nodes are handed the query, if all are active at its launch. -/
theorem Reach.count_of_reachable {settings : Settings} {s : Store} (hs : Reachable settings s) (time : Time) :
    (∀ (hours : Int) (targets : List Target), (∀ t ∈ targets, t.IsParsed) →
      (count hours targets).run time s =
        (if (∃ t ∈ targets, t.isTimed = true) ∧ activityCutoff time hours = none then .error .noCutoff
          else .ok (s.nodes.countP fun n => ∃ t ∈ targets, t.Reaches (time - hours * Time.hourLength) n), s) ∧
      (s.nodes.countP fun n => ∃ t ∈ targets, t.Reaches (time - hours * Time.hourLength) n) ≤
        s.nodes.countP (Target.anySelects targets) ∧
      ∀ targets', (∀ t, t ∈ targets' ↔ t ∈ targets) →
        (count hours targets').run time s = (count hours targets).run time s) ∧
    ∀ (op : Operation) (targets : List Target) (handle : Handle), op.launchedAt = some targets →
      (∀ t ∈ targets, t.IsParsed) → (∀ n ∈ s.nodes, time - settings.inactiveHours * Time.hourLength < n.updatedAt) →
      (op.run settings time s).1 = .ok (.handle handle) →
      let s' := (op.run settings time s).2
      (∃ q, s'.getQuery handle.name = some q ∧ q.expected = handle.expected) ∧
        ∀ time', handle.expected = s'.nodes.countP (s'.hands settings time' handle.name) := by
  have hsound := Store.Sound.of_reachable hs
  constructor
  · intro hours targets hparsed
    refine ⟨run_count hsound hparsed time hours, ?_, ?_⟩
    · refine List.countP_mono_left ?_
      intro n _ hreached
      obtain ⟨t, ht, hfor, -⟩ := of_decide_eq_true hreached
      exact List.any_eq_true.mpr ⟨t, ht, (t.selects_iff n).mpr hfor⟩
    · intro targets' hsame
      have hparsed' : ∀ t ∈ targets', t.IsParsed := fun t ht => hparsed t ((hsame t).mp ht)
      rw [run_count hsound hparsed, run_count hsound hparsed']
      simp only [hsame]
  · intro op targets handle hop hparsed hactive hrun s'
    obtain ⟨draft, hready, hlaunch⟩ := Operation.of_run_eq_ok_handle hop (Prod.ext hrun rfl)
    exact Fleet.expected_of_run_launch hs (hs.run op time) hready hparsed hactive hlaunch

/-- Of two nodes in an environment one is also named by its UUID: both are counted, each once, and both are handed the query. -/
theorem Reach.count_of_overlapping_targets :
    let settings : Settings := .embedded ["prod"]
    let s := Operation.replay settings .empty [(0, .ensureAdmin "root"),
      (1, .enroll "a-1" "key" { Attributes.blank with environment := "prod" }),
      (2, .enroll "b-2" "lock" { Attributes.blank with environment := "prod" })]
    let targets : List Target := [⟨.environment, "prod"⟩, ⟨.uuid, "A-1"⟩]
    let op : Operation := .createQuery 7 "root" "SELECT 1;" targets .standard
    let s' := (op.run settings 3 s).2
    ((count settings.inactiveHours targets).run 3 s).1 = .ok 2 ∧
      (op.run settings 3 s).1 = .ok (.handle ⟨QueryName.query 7, 2⟩) ∧
      s'.nodes.countP (s'.hands settings 4 (QueryName.query 7)) = 2 := by
  intro settings s targets op s'
  have hs : Reachable settings s := reachable_empty.replay _
  have hparsed : ∀ t ∈ targets, t.IsParsed := by
    refine List.forall_mem_cons.mpr ⟨⟨"environment", "prod", by decide +kernel⟩, ?_⟩
    exact List.forall_mem_singleton.mpr ⟨"uuid", " a-1", by decide +kernel⟩
  have hactive : ∀ n ∈ s.nodes, 3 - settings.inactiveHours * Time.hourLength < n.updatedAt := by decide +kernel
  have hrun : (op.run settings 3 s).1 = .ok (.handle ⟨QueryName.query 7, 2⟩) := by decide +kernel
  obtain ⟨hcount, hlaunch⟩ := count_of_reachable hs 3
  refine ⟨?_, hrun, ?_⟩
  · rw [(hcount settings.inactiveHours targets hparsed).1]
    decide +kernel
  · exact ((hlaunch op targets ⟨QueryName.query 7, 2⟩ rfl hparsed hactive hrun).2 4).symm

/-- A node is in the environment, and there is no count of the environment where the cutoff lies too far back to be held. -/
theorem Reach.no_count_without_cutoff :
    let settings : Settings := .embedded ["prod"]
    let s := Operation.replay settings .empty [(0, .enroll "n1" "k1" { Attributes.blank with environment := "prod" })]
    let target : Target := ⟨.environment, "prod"⟩
    Reachable settings s ∧ Target.parse "environment" "prod" = .ok target ∧
      (s.nodes.countP fun n => target.Reaches (1 - 2562047788016 * Time.hourLength) n) = 1 ∧
      ((count 2562047788016 [target]).run 1 s).1 = .error .noCutoff := by
  intro settings s target
  exact ⟨reachable_empty.replay _, by decide +kernel, by decide +kernel, by decide +kernel⟩

end FleetControl
