import FleetControl.Proofs.Enrollments
import FleetControl.Proofs.Races

/-!
# Enrolments that race

An enrolment looks for the key in one step and inserts the node in another, and between the two steps others may take theirs. Any
number of applicants with one canonical identity enrol at once, in the turns of a schedule (`Contest.play`). What becomes of them
is told by the first turn that is an applicant's second (`Contest.enrolls_once`): it inserts the node, and nothing else is ever
written. Whoever looked before it, and is not the one who inserts, is refused in the end, although the node is there under the key
(`Contest.refused_though_enrolled`); all others are answered with the node.
-/

namespace FleetControl

open Program (ask step_ask_of_ok)

/-! ## Programs in turns -/

/-- How a program has ended, if it has. -/
def Program.outcome? {α : Type} : Program α → Option (Except Stop α)
  | .done a => some (.ok a)
  | .stop why => some (.error why)
  | .clock _ | .call _ _ => none

/-- A store, and what is left of several programs on it. -/
structure Contest (ι α : Type) where
  left : ι → Program α
  store : Store

namespace Contest

variable {ι α : Type} [DecidableEq ι]

/-- One of the programs takes a step at some time. -/
def turn (v : Contest ι α) (i : ι) (time : Time) : Contest ι α where
  left := Function.update v.left i ((v.left i).step time v.store).1
  store := ((v.left i).step time v.store).2

/-- The programs take steps, in the turns of a schedule. -/
def play (v : Contest ι α) (schedule : List (ι × Time)) : Contest ι α :=
  schedule.foldl (fun v entry => v.turn entry.1 entry.2) v

/-- The programs that have a turn in a schedule. -/
def movers (schedule : List (ι × Time)) : List ι := schedule.map Prod.fst

theorem turn_eq {v : Contest ι α} {i : ι} {time : Time} {p : Program α} {s : Store}
    (h : (v.left i).step time v.store = (p, s)) : v.turn i time = ⟨Function.update v.left i p, s⟩ := by
  unfold turn
  rw [h]

theorem play_append (v : Contest ι α) (schedule more : List (ι × Time)) :
    v.play (schedule ++ more) = (v.play schedule).play more :=
  List.foldl_append

/-- While steps leave the store, every program that has a turn takes its step, where none has a second turn or a second step
changes nothing more. -/
theorem play_of_silent {left next : ι → Program α} {s : Store} (h : ∀ i time, (left i).step time s = (next i, s))
    {schedule : List (ι × Time)}
    (hsecond : (movers schedule).Nodup ∨ ∀ i time, (next i).step time s = (next i, s)) :
    play ⟨left, s⟩ schedule = ⟨fun i => if i ∈ movers schedule then next i else left i, s⟩ := by
  induction schedule using List.reverseRecOn with
  | nil => simp [play, movers]
  | append_singleton schedule entry ih =>
    obtain ⟨i, time⟩ := entry
    have hmovers : movers (schedule ++ [(i, time)]) = movers schedule ++ [i] := List.map_append
    rw [hmovers] at hsecond ⊢
    have hsecond' : (movers schedule).Nodup ∨ ∀ i time, (next i).step time s = (next i, s) :=
      hsecond.imp_left fun hnodup => hnodup.sublist (List.sublist_append_left _ _)
    -- the program whose turn it is now has not taken its step, or has taken it for good
    have hstep : (if i ∈ movers schedule then next i else left i).step time s = (next i, s) := by
      split
      · rename_i hmoved
        refine hsecond.resolve_left ?_ i time
        intro hnodup
        exact List.disjoint_of_nodup_append hnodup hmoved (List.mem_singleton_self i)
      · exact h i time
    rw [play_append, ih hsecond']
    change turn _ i time = _
    rw [turn_eq hstep]
    congr 1
    funext j
    by_cases hji : j = i
    · rw [hji, Function.update_self, if_pos (List.mem_append_right _ (List.mem_singleton_self i))]
    · rw [Function.update_of_ne hji]
      simp [hji]

/-- In a schedule no program has a second turn, or there is a first turn that is a second one. -/
theorem nodup_or_first_second_turn (schedule : List (ι × Time)) :
    (movers schedule).Nodup ∨ ∃ before i time after, schedule = before ++ (i, time) :: after ∧ (movers before).Nodup ∧
      i ∈ movers before := by
  induction schedule using List.reverseRecOn with
  | nil => exact .inl List.nodup_nil
  | append_singleton schedule entry ih =>
    obtain ⟨j, later⟩ := entry
    rcases ih with hnodup | ⟨before, i, time, after, rfl, hnodup, hi⟩
    · by_cases hj : j ∈ movers schedule
      · exact .inr ⟨schedule, j, later, [], rfl, hnodup, hj⟩
      · refine .inl ?_
        rw [movers, List.map_append]
        exact hnodup.append (List.nodup_singleton j) (List.disjoint_singleton.mpr hj)
    · exact .inr ⟨before, i, time, after ++ [(j, later)], by simp, hnodup, hi⟩

end Contest

/-! ## Applicants -/

/-- An identity to be enrolled, a UUID and a key in some spelling, with attributes. -/
structure Applicant where
  uuid : String
  key : String
  attributes : Attributes

namespace Applicant

variable (a : Applicant)

/-- The enrolment that the applicant is given. -/
def enrollment : Enrollment := .of a.uuid a.key a.attributes

/-- Enrols the applicant. -/
def program : Program Node := Roster.enroll a.uuid a.key a.attributes

/-- What is left once no node was found under the key. -/
def insertion : Program Node := ask (.insertNode a.enrollment a.enrollment.seeds)

/-- Neither half of the canonical identity is empty. -/
def Named : Prop := ¬(canonicalKey a.key = "" ∨ canonicalUuid a.uuid = "")

variable {a} {s : Store} (time : Time)

/-- A blank identity is refused without a step. -/
theorem program_of_not_named (h : ¬a.Named) : a.program = .refuse .blankIdentity := by
  unfold program Roster.enroll
  rw [if_pos (not_not.mp h)]

/-- The first step finds the node that has the key. -/
theorem step_program_of_find (h : a.Named) {n : Node} (hfind : s.findNode (.key (canonicalKey a.key)) = some n) :
    a.program.step time s = (.done n, s) := by
  unfold program Roster.enroll
  rw [if_neg h, step_ask_of_ok rfl, hfind]
  rfl

/-- The first step finds no node where none has the key. -/
theorem step_program_of_ne (h : a.Named) (hnone : ∀ n ∈ s.nodes, n.key ≠ canonicalKey a.key) :
    a.program.step time s = (a.insertion, s) := by
  unfold program Roster.enroll
  rw [if_neg h, step_ask_of_ok rfl, Store.findNode_key_eq_none hnone]
  rfl

/-- An applicant that has not taken a step has not ended. -/
theorem outcome?_program (h : a.Named) : a.program.outcome? = none := by
  unfold program Roster.enroll
  rw [if_neg h]
  rfl

/-- The second step inserts a node whose identity is free. -/
theorem step_insertion_of_free (hfree : s.isTaken a.enrollment = false) :
    a.insertion.step time s = (.done (s.newNode time a.enrollment), s.enrolled time a.enrollment) := by
  have hserve : s.serve time (.insertNode a.enrollment a.enrollment.seeds) =
      (.ok (s.newNode time a.enrollment), s.enrolled time a.enrollment) := by
    rw [Store.serve, Call.exec_insertNode_of_free time hfree]
  unfold insertion ask
  rw [Program.step, hserve]
  rfl

/-- The second step is refused where the identity is taken. -/
theorem step_insertion_of_taken (htaken : s.isTaken a.enrollment = true) :
    a.insertion.step time s = (.refuse (.nodeExists (canonicalUuid a.uuid)), s) := by
  have hserve : s.serve time (.insertNode a.enrollment a.enrollment.seeds) =
      (.error (.nodeExists (canonicalUuid a.uuid)), s) := by
    rw [Store.serve, Call.exec_insertNode_of_taken time htaken]
    rfl
  unfold insertion ask
  rw [Program.step, hserve]
  rfl

end Applicant

/-! ## The race -/

namespace Contest

variable {ι : Type} [DecidableEq ι] {applicants : ι → Applicant} {s : Store} {key uuid : String}

/-- Applicants begin to enrol. -/
def start (applicants : ι → Applicant) (s : Store) : Contest ι Node := ⟨fun i => (applicants i).program, s⟩

/-- What is left of the applicants right after one of them inserted its node: it has ended, and of the others those that had a turn
have looked. -/
def afterInsertion (applicants : ι → Applicant) (looked : List ι) (w : ι) (row : Node) (i : ι) : Program Node :=
  if i = w then .done row else if i ∈ looked then (applicants i).insertion else (applicants i).program

/-- What becomes of the applicants once a node is inserted: those that looked before, but the one that inserted it, are refused. -/
def settled (uuid : String) (looked : List ι) (w : ι) (row : Node) (i : ι) : Program Node :=
  if i ≠ w ∧ i ∈ looked then .refuse (.nodeExists uuid) else .done row

/-- Blank identities are refused at once, and no turn changes anything. -/
theorem play_of_not_named (hblank : ∀ i, ¬(applicants i).Named) (schedule : List (ι × Time)) :
    (start applicants s).play schedule = start applicants s := by
  have hrefused : ∀ i time, (applicants i).program.step time s = ((applicants i).program, s) := by
    intro i time
    rw [Applicant.program_of_not_named (hblank i)]
    rfl
  refine (play_of_silent hrefused (.inr hrefused)).trans ?_
  simp only [ite_self]
  rfl

/-- Where a node has the key, every applicant is answered with it in one step. -/
theorem play_of_mem (hs : s.Sound) (hnamed : ∀ i, (applicants i).Named) (hkey : ∀ i, canonicalKey (applicants i).key = key)
    {n : Node} (hn : n ∈ s.nodes) (hnkey : n.key = key) (schedule : List (ι × Time)) :
    (start applicants s).play schedule =
      ⟨fun i => if i ∈ movers schedule then .done n else (applicants i).program, s⟩ := by
  have hanswered : ∀ i time, (applicants i).program.step time s = (.done n, s) := by
    intro i time
    exact Applicant.step_program_of_find time (hnamed i) (hs.findNode_key hn (hnkey.trans (hkey i).symm))
  exact play_of_silent hanswered (.inr fun _ _ => rfl)

section NoNode

variable (hnamed : ∀ i, (applicants i).Named) (hkey : ∀ i, canonicalKey (applicants i).key = key)
  (hnone : ∀ n ∈ s.nodes, n.key ≠ key)

include hnamed hkey hnone

/-- Where no node has the key, applicants find none while none takes a second step. -/
theorem play_of_nodup {schedule : List (ι × Time)} (hnodup : (movers schedule).Nodup) :
    (start applicants s).play schedule =
      ⟨fun i => if i ∈ movers schedule then (applicants i).insertion else (applicants i).program, s⟩ := by
  refine play_of_silent ?_ (.inl hnodup)
  intro i time
  exact Applicant.step_program_of_ne time (hnamed i) (by rwa [hkey i])

variable (huuid : ∀ i, canonicalUuid (applicants i).uuid = uuid) (habsent : ¬s.HasNode uuid)

include huuid habsent

/-- The first turn that is a second one inserts the node of its applicant. -/
theorem play_of_second_turn {before : List (ι × Time)} {w : ι} (hnodup : (movers before).Nodup) (hw : w ∈ movers before)
    (time : Time) :
    (start applicants s).play (before ++ [(w, time)]) =
      ⟨afterInsertion applicants (movers before) w (s.newNode time (applicants w).enrollment),
        s.enrolled time (applicants w).enrollment⟩ := by
  have hfree : s.isTaken (applicants w).enrollment = false := by
    refine Store.isTaken_eq_false_iff.mpr ⟨?_, ?_⟩
    · change ∀ n ∈ s.nodes, n.key ≠ canonicalKey (applicants w).key
      rwa [hkey w]
    · change ¬s.HasNode (canonicalUuid (applicants w).uuid)
      rwa [huuid w]
  have hplayed := play_of_nodup hnamed hkey hnone hnodup
  have hstep : (((start applicants s).play before).left w).step time ((start applicants s).play before).store =
      (.done (s.newNode time (applicants w).enrollment), s.enrolled time (applicants w).enrollment) := by
    rw [hplayed]
    dsimp only
    rw [if_pos hw]
    exact Applicant.step_insertion_of_free time hfree
  rw [play_append]
  change turn _ w time = _
  rw [turn_eq hstep, hplayed]
  congr 1
  funext i
  unfold afterInsertion
  by_cases hiw : i = w
  · rw [hiw, Function.update_self, if_pos rfl]
  · rw [Function.update_of_ne hiw, if_neg hiw]

omit habsent in
/-- After the insertion whoever looked before it is refused at the next turn, and whoever did not is answered with the node. -/
theorem step_afterInsertion {looked : List ι} {w : ι} (time later : Time) (i : ι) :
    (afterInsertion applicants looked w (s.newNode time (applicants w).enrollment) i).step later
        (s.enrolled time (applicants w).enrollment) =
      (settled uuid looked w (s.newNode time (applicants w).enrollment) i, s.enrolled time (applicants w).enrollment) := by
  unfold afterInsertion settled
  by_cases hi : i = w
  · rw [if_pos hi, if_neg fun h => h.1 hi]
    rfl
  · rw [if_neg hi]
    by_cases hlooked : i ∈ looked
    · have htaken : (s.enrolled time (applicants w).enrollment).isTaken (applicants i).enrollment = true :=
        Store.isTaken_of_hasNode ⟨_, List.mem_append_right _ List.mem_cons_self, (huuid w).trans (huuid i).symm⟩
      rw [if_pos hlooked, if_pos ⟨hi, hlooked⟩, Applicant.step_insertion_of_taken later htaken, huuid i]
    · have hfind : (s.enrolled time (applicants w).enrollment).findNode (.key (canonicalKey (applicants i).key)) =
          some (s.newNode time (applicants w).enrollment) := by
        rw [hkey i, ← hkey w]
        exact Store.findNode_enrolled (e := (applicants w).enrollment) (by rw [← hkey w] at hnone; exact hnone) time
      rw [if_neg hlooked, if_neg fun h => hlooked h.2]
      exact Applicant.step_program_of_find later (hnamed i) hfind

/-- A schedule with a second turn inserts one node, and whoever has a turn after the insertion is settled then. -/
theorem play_after_second_turn {before : List (ι × Time)} {w : ι} (hnodup : (movers before).Nodup) (hw : w ∈ movers before)
    (time : Time) (after : List (ι × Time)) :
    (start applicants s).play (before ++ (w, time) :: after) =
      ⟨fun i =>
        if i ∈ movers after then settled uuid (movers before) w (s.newNode time (applicants w).enrollment) i
        else afterInsertion applicants (movers before) w (s.newNode time (applicants w).enrollment) i,
        s.enrolled time (applicants w).enrollment⟩ := by
  rw [List.append_cons, play_append, play_of_second_turn hnamed hkey hnone huuid habsent hnodup hw time]
  refine play_of_silent (fun i later => step_afterInsertion hnamed hkey hnone huuid time later i) (.inr fun i later => ?_)
  unfold settled
  split <;> rfl

end NoNode

/-- Who did not insert the node has ended if it had a turn since: refused if it looked before, and else with the node. -/
theorem outcome?_after_second_turn (hnamed : ∀ i, (applicants i).Named) {looked later : List ι} {w i : ι} (hi : i ≠ w) (row : Node) :
    (if i ∈ later then settled uuid looked w row i else afterInsertion applicants looked w row i).outcome? =
      if i ∉ later then none
      else if i ∈ looked then some (.error (.refused (.nodeExists uuid)))
      else some (.ok row) := by
  by_cases hlater : i ∈ later
  · by_cases hlooked : i ∈ looked <;> simp [hlater, hlooked, hi, settled, Program.outcome?, Program.refuse]
  · by_cases hlooked : i ∈ looked
    · simp [hlater, hlooked, hi, afterInsertion, Applicant.insertion, ask, Program.outcome?]
    · simp [hlater, hlooked, hi, afterInsertion, Applicant.outcome?_program (hnamed i)]

/-- Of any number of applicants with one identity, whose steps are taken in the turns of a schedule, at most one inserts a node,
and the others are answered with it, but for those who had looked for the key before it was there: they are refused. -/
theorem enrolls_once {settings : Settings} (hs : Reachable settings s) (hkey : ∀ i, canonicalKey (applicants i).key = key)
    (huuid : ∀ i, canonicalUuid (applicants i).uuid = uuid) (hown : ∀ n ∈ s.nodes, n.uuid = uuid → n.key = key)
    (schedule : List (ι × Time)) :
    let v := (start applicants s).play schedule
    (key = "" ∨ uuid = "" →
      v.store = s ∧ ∀ i, (v.left i).outcome? = some (.error (.refused .blankIdentity))) ∧
    (¬(key = "" ∨ uuid = "") → ∀ n ∈ s.nodes, n.key = key →
      v.store = s ∧ ∀ i, (v.left i).outcome? = if i ∈ movers schedule then some (.ok n) else none) ∧
    (¬(key = "" ∨ uuid = "") → (∀ n ∈ s.nodes, n.key ≠ key) →
      (movers schedule).Nodup ∧ v.store = s ∧ (∀ i, (v.left i).outcome? = none) ∨
      ∃ before w time after, schedule = before ++ (w, time) :: after ∧ (movers before).Nodup ∧ w ∈ movers before ∧
        let row := s.newNode time (applicants w).enrollment
        v.store = s.enrolled time (applicants w).enrollment ∧ v.store.nodes.filter (·.key == key) = [row] ∧
          (v.left w).outcome? = some (.ok row) ∧
          ∀ i, i ≠ w → (v.left i).outcome? =
            if i ∉ movers after then none
            else if i ∈ movers before then some (.error (.refused (.nodeExists uuid)))
            else some (.ok row)) := by
  intro v
  have hnamed : ∀ i, (applicants i).Named ↔ ¬(key = "" ∨ uuid = "") := by
    intro i
    rw [Applicant.Named, hkey i, huuid i]
  refine ⟨?_, ?_, ?_⟩
  · intro hblank
    have hnone : ∀ i, ¬(applicants i).Named := fun i h => (hnamed i).mp h hblank
    have hplayed : v = start applicants s := play_of_not_named hnone schedule
    rw [hplayed]
    refine ⟨rfl, fun i => ?_⟩
    dsimp only [start]
    rw [Applicant.program_of_not_named (hnone i)]
    rfl
  · intro h n hn hnkey
    have hplayed : v = _ := play_of_mem (.of_reachable hs) (fun i => (hnamed i).mpr h) hkey hn hnkey schedule
    rw [hplayed]
    refine ⟨rfl, fun i => ?_⟩
    dsimp only
    split
    · rfl
    · exact Applicant.outcome?_program ((hnamed i).mpr h)
  · intro h hnone
    have hall : ∀ i, (applicants i).Named := fun i => (hnamed i).mpr h
    have habsent : ¬s.HasNode uuid := by
      rintro ⟨n, hn, hnuuid⟩
      exact hnone n hn (hown n hn hnuuid)
    rcases nodup_or_first_second_turn schedule with hnodup | ⟨before, w, time, after, rfl, hnodup, hw⟩
    · have hplayed : v = _ := play_of_nodup hall hkey hnone hnodup
      rw [hplayed]
      refine .inl ⟨hnodup, rfl, fun i => ?_⟩
      dsimp only
      split
      · rfl
      · exact Applicant.outcome?_program (hall i)
    · have hplayed : v = _ := play_after_second_turn hall hkey hnone huuid habsent hnodup hw time after
      rw [hplayed]
      refine .inr ⟨before, w, time, after, rfl, hnodup, hw, rfl, ?_, ?_, fun i hi => ?_⟩
      · rw [← hkey w]
        exact Store.filter_key_enrolled (e := (applicants w).enrollment) (by rw [← hkey w] at hnone; exact hnone) time
      · simp [settled, afterInsertion, Program.outcome?]
      · exact outcome?_after_second_turn hall hi _

/-- Of three applicants two look, the second of them inserts its node, and the third comes later, with another spelling: the first is
refused, and the third is answered with the node of the second. -/
theorem enrolls_once_of_three :
    let attributes : Attributes := { Attributes.blank with environment := "prod" }
    let s := Operation.replay (.embedded ["prod"]) .empty [(0, .ensureAdmin "root")]
    let applicants : Fin 3 → Applicant := fun i =>
      [⟨"n-1", "key", attributes⟩, ⟨" N-1 ", "KEY", attributes⟩, ⟨"N-1", " Key", attributes⟩].get i
    let v := (start applicants s).play [(0, 1), (1, 2), (1, 3), (0, 4), (2, 5)]
    let row := s.newNode 3 ⟨"key", "N-1", attributes⟩
    v.store = s.enrolled 3 ⟨"key", "N-1", attributes⟩ ∧ (v.left 1).outcome? = some (.ok row) ∧
      (v.left 0).outcome? = some (.error (.refused (.nodeExists "N-1"))) ∧ (v.left 2).outcome? = some (.ok row) := by
  intro attributes s applicants v row
  have hs : Reachable (.embedded ["prod"]) s := reachable_empty.replay _
  have hkey : ∀ i, canonicalKey (applicants i).key = "key" := by decide +kernel
  have huuid : ∀ i, canonicalUuid (applicants i).uuid = "N-1" := by decide +kernel
  have hrow : (applicants 1).enrollment = ⟨"key", "N-1", attributes⟩ := by decide +kernel
  obtain ⟨-, -, hnew⟩ := enrolls_once hs hkey huuid (by decide +kernel) [(0, 1), (1, 2), (1, 3), (0, 4), (2, 5)]
  rcases hnew (by decide) (by decide +kernel) with
    ⟨hnodup, -⟩ | ⟨before, w, time, after, hschedule, hnodup, hw, hstore, -, hwinner, hothers⟩
  · exact absurd hnodup (by decide)
  · -- the first turn that is a second one is the third
    obtain ⟨rfl, rfl, rfl, rfl⟩ : before = [(0, 1), (1, 2)] ∧ w = 1 ∧ time = 3 ∧ after = [(0, 4), (2, 5)] := by
      rcases before with _ | ⟨b₁, _ | ⟨b₂, _ | ⟨b₃, rest⟩⟩⟩
      · cases hw
      · cases hschedule
        exact absurd hw (by decide)
      · cases hschedule
        exact ⟨rfl, rfl, rfl, rfl⟩
      · simp only [List.cons_append, List.cons.injEq] at hschedule
        obtain ⟨rfl, rfl, rfl, -⟩ := hschedule
        exact absurd hnodup (by simp [movers])
    rw [hrow] at hstore hwinner hothers
    exact ⟨hstore, hwinner, hothers 0 (by decide), hothers 2 (by decide)⟩

/-- Two applicants with one identity both look before either inserts: both end, one of them with the node that is then there under
the key, and the other is refused. -/
theorem refused_though_enrolled :
    let s := Operation.replay (.embedded ["prod"]) .empty [(0, .ensureAdmin "root")]
    let applicant : Applicant := ⟨"n1", "k1", { Attributes.blank with environment := "prod" }⟩
    let v := (start (fun _ : Bool => applicant) s).play [(false, 1), (true, 2), (false, 3), (true, 4)]
    Reachable (.embedded ["prod"]) s ∧ (∀ i, (v.left i).outcome? ≠ none) ∧ (v.store.nodes.map (·.key)) = ["k1"] ∧
      ¬∃ n, ∀ i, (v.left i).outcome? = some (.ok n) := by
  intro s applicant v
  refine ⟨reachable_empty.replay _, by decide +kernel, by decide +kernel, ?_⟩
  rintro ⟨n, hn⟩
  have hrefused : (v.left true).outcome? = some (.error (.refused (.nodeExists "N1"))) := by decide +kernel
  rw [hn true] at hrefused
  cases hrefused

end Contest

end FleetControl
