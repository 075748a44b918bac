import FleetControl.Proofs.Runs
import Mathlib.Data.List.Induction

/-!
# Runs by a clock

A program that is run at some time finds that the clock stands still. Here it goes on: a clock is the sequence of its readings, and
whatever reads it takes the next one, be it the program itself or the store that serves one of its calls (`Program.runBy`). Calls for
which the store reads no clock are served alike at all times (`Store.serve_eq_of_readsClock_eq_false`). A run at some time is a run
by a clock that shows nothing else (`Program.runBy_of_still`), and every run by a clock is a case of traffic.

Of operations that are carried out one after another a diary is kept (`Operation.diary`), which says of each what became of it and
the last reading by then. Where the clock does not run backwards, the times of a diary ascend (`Operation.pairwise_diary`).
-/

namespace FleetControl

/-- The store reads the clock when it serves the call. -/
def Call.readsClock : Call → Bool
  | .insertNode _ _ | .applyObservation _ _ | .insertQuery _ | .insertQueryWithTargets _ _ | .setExpected _ _ | .setFlags _ _
  | .recordExecution _ | .insertUser _ | .setAdmin _ _ _ | .setPermissions _ _ => true
  | _ => false

/-- A call is served alike at all times if the store does not read the clock. -/
theorem Store.serve_eq_of_readsClock_eq_false {c : Call} (h : c.readsClock = false) (time time' : Time) (s : Store) :
    s.serve time c = s.serve time' c := by
  unfold Store.serve
  cases c <;> first | exact Bool.noConfusion h | rfl

/-- Runs a program on a store by the readings of a clock of which some are taken. -/
def Program.runBy {α : Type} (clock : Nat → Time) : Program α → Nat → Store → Except Stop α × Nat × Store
  | .done a, taken, s => (.ok a, taken, s)
  | .stop why, taken, s => (.error why, taken, s)
  | .clock next, taken, s => (next (clock taken)).runBy clock (taken + 1) s
  | .call c next, taken, s =>
    let served := s.serve (clock taken) c
    (next served.1).runBy clock (if c.readsClock then taken + 1 else taken) served.2

namespace Program

variable {α β : Type} {clock : Nat → Time} {taken taken' : Nat} {s s' : Store}

/-- One program after another runs on what the first leaves, and only if the first has a result. -/
theorem runBy_bind (p : Program α) (f : α → Program β) :
    (p >>= f).runBy clock taken s =
      match p.runBy clock taken s with
      | (.ok a, taken', s') => (f a).runBy clock taken' s'
      | (.error why, taken', s') => (.error why, taken', s') := by
  induction p generalizing taken s with
  | done a => rfl
  | stop why => rfl
  | clock next ih => exact ih _
  | call c next ih => exact ih _

theorem runBy_bind_of_ok {p : Program α} {a : α} (h : p.runBy clock taken s = (.ok a, taken', s')) (f : α → Program β) :
    (p >>= f).runBy clock taken s = (f a).runBy clock taken' s' := by
  rw [runBy_bind, h]

theorem runBy_bind_of_error {p : Program α} {why : Stop} (h : p.runBy clock taken s = (.error why, taken', s'))
    (f : α → Program β) : (p >>= f).runBy clock taken s = (.error why, taken', s') := by
  rw [runBy_bind, h]

/-- A change to the result of a program changes nothing of what the program takes and leaves. -/
theorem runBy_map (p : Program α) (f : α → β) :
    (f <$> p).runBy clock taken s = ((p.runBy clock taken s).1.map f, (p.runBy clock taken s).2) := by
  rw [map_eq_pure_bind, runBy_bind]
  obtain ⟨_ | _, _, _⟩ := p.runBy clock taken s <;> rfl

/-- Where one program after another has a result, so has the first, and then the other. -/
theorem of_runBy_bind_eq_ok {p : Program α} {f : α → Program β} {b : β}
    (h : (p >>= f).runBy clock taken s = (.ok b, taken', s')) :
    ∃ a taken₁ s₁, p.runBy clock taken s = (.ok a, taken₁, s₁) ∧ (f a).runBy clock taken₁ s₁ = (.ok b, taken', s') := by
  rw [runBy_bind] at h
  split at h
  · rename_i a taken₁ s₁ hp
    exact ⟨a, taken₁, s₁, hp, h⟩
  · cases h

/-- Where a program has a result that is changed, the program has a result. -/
theorem of_runBy_map_eq_ok {p : Program α} {f : α → β} {b : β} (h : (f <$> p).runBy clock taken s = (.ok b, taken', s')) :
    ∃ a, p.runBy clock taken s = (.ok a, taken', s') ∧ f a = b := by
  rw [map_eq_pure_bind] at h
  obtain ⟨a, taken₁, s₁, hp, hpure⟩ := of_runBy_bind_eq_ok h
  cases hpure
  exact ⟨a, hp, rfl⟩

/-- A call that is answered runs to its answer and the store after it. -/
theorem runBy_ask_of_ok {c : Call} {reply : c.Reply} (h : c.exec (clock taken) s = .ok (reply, s')) :
    (ask c).runBy clock taken s = (.ok reply, if c.readsClock then taken + 1 else taken, s') := by
  rw [ask, runBy, Store.serve, h]
  rfl

/-- A call that is refused runs to its refusal and leaves the store. -/
theorem runBy_ask_of_error {c : Call} {why : Refusal} (h : c.exec (clock taken) s = .error why) :
    (ask c).runBy clock taken s = (.error (.refused why), if c.readsClock then taken + 1 else taken, s) := by
  rw [ask, runBy, Store.serve, h]
  rfl

/-- No reading is given back. -/
theorem le_taken (p : Program α) : taken ≤ (p.runBy clock taken s).2.1 := by
  induction p generalizing taken s with
  | done a => exact Nat.le_refl _
  | stop why => exact Nat.le_refl _
  | clock next ih => exact (Nat.le_succ _).trans (ih _)
  | call c next ih =>
    refine Nat.le_trans ?_ (ih _)
    split
    · exact Nat.le_succ _
    · exact Nat.le_refl _

/-- What every allowed call preserves at all times, a run by a clock preserves. -/
theorem runBy_preserves {allowed : Call → Prop} {P : Store → Prop} (h : ∀ c, allowed c → ∀ time s, P s → P (c.after time s))
    {p : Program α} (hp : p.Asks allowed) (hs : P s) : P (p.runBy clock taken s).2.2 := by
  induction hp generalizing taken s with
  | done a => exact hs
  | stop why => exact hs
  | clock _ ih => exact ih _ hs
  | call hc _ ih =>
    refine ih _ ?_
    rw [Store.serve_snd]
    exact h _ hc _ _ hs

/-- By a clock that stands still a program runs as it does at that time. -/
theorem runBy_of_still (p : Program α) (time : Time) (taken : Nat) (s : Store) :
    let r := p.runBy (fun _ => time) taken s
    (r.1, r.2.2) = p.run time s := by
  induction p generalizing taken s with
  | done a => rfl
  | stop why => rfl
  | clock next ih => exact ih time (taken + 1) s
  | call c next ih => exact ih (s.serve time c).1 (if c.readsClock then taken + 1 else taken) (s.serve time c).2

/-- A run by a clock is a case of traffic. -/
theorem leadsTo_runBy {settings : Settings} (before : List (Program Answer)) (p : Program Answer) (clock : Nat → Time)
    (taken : Nat) (s : Store) :
    ∃ left, Traffic.LeadsTo settings ⟨s, before ++ [p]⟩ ⟨(p.runBy clock taken s).2.2, before ++ [left]⟩ := by
  induction p generalizing taken s with
  | done a => exact ⟨.done a, .refl⟩
  | stop why => exact ⟨.stop why, .refl⟩
  | clock next ih =>
    obtain ⟨left, steps⟩ := ih (clock taken) (taken + 1) s
    exact ⟨left, .head (.turn s before [] (.clock next) (clock taken)) steps⟩
  | call c next ih =>
    obtain ⟨left, steps⟩ := ih (s.serve (clock taken) c).1 (if c.readsClock then taken + 1 else taken)
      (s.serve (clock taken) c).2
    exact ⟨left, .head (.turn s before [] (.call c next) (clock taken)) steps⟩

end Program

/-- An operation that is carried out by a clock leads from a reachable store to a reachable store. -/
theorem Reachable.runBy {settings : Settings} {s : Store} (hs : Reachable settings s) (op : Operation) (clock : Nat → Time)
    (taken : Nat) : Reachable settings ((op.program settings).runBy clock taken s).2.2 := by
  obtain ⟨begun, steps⟩ := hs
  obtain ⟨left, run⟩ := Program.leadsTo_runBy begun (op.program settings) clock taken s
  exact ⟨begun ++ [left], (steps.tail (.begin s begun op)).trans run⟩

/-! ## Operations one after another -/

/-- An operation that was carried out: what became of it, and the last reading of the clock by then. -/
structure Turn where
  op : Operation
  outcome : Except Stop Answer
  time : Time

/-- The operations that were carried out, how many readings they took, and the store they left. -/
structure Diary where
  turns : List Turn
  taken : Nat
  store : Store

/-- The diary after one operation more. -/
def Diary.extend (settings : Settings) (clock : Nat → Time) (d : Diary) (op : Operation) : Diary :=
  let run := (op.program settings).runBy clock d.taken d.store
  ⟨d.turns ++ [⟨op, run.1, clock (run.2.1 - 1)⟩], run.2.1, run.2.2⟩

/-- The diary of operations that are carried out on the empty store by the readings of a clock. -/
def Operation.diary (settings : Settings) (clock : Nat → Time) (ops : List Operation) : Diary :=
  ops.foldl (Diary.extend settings clock) ⟨[], 0, .empty⟩

namespace Operation

variable (settings : Settings) (clock : Nat → Time)

theorem diary_concat (ops : List Operation) (op : Operation) :
    diary settings clock (ops ++ [op]) = (diary settings clock ops).extend settings clock op := by
  rw [diary, List.foldl_append]
  rfl

/-- Operations that are carried out by a clock lead to reachable stores. -/
theorem reachable_diary (ops : List Operation) : Reachable settings (diary settings clock ops).store := by
  induction ops using List.reverseRecOn with
  | nil => exact reachable_empty
  | append_singleton ops op ih =>
    rw [diary_concat]
    exact ih.runBy op clock _

variable {clock} in
/-- Where the clock does not run backwards, no turn of a diary is later than the last reading, or than a turn after it. -/
theorem pairwise_diary (hclock : ∀ i j, i ≤ j → clock i ≤ clock j) (ops : List Operation) :
    (∀ x ∈ (diary settings clock ops).turns, x.time ≤ clock ((diary settings clock ops).taken - 1)) ∧
      (diary settings clock ops).turns.Pairwise fun x y => x.time ≤ y.time := by
  induction ops using List.reverseRecOn with
  | nil => exact ⟨fun x hx => absurd hx List.not_mem_nil, .nil⟩
  | append_singleton ops op ih =>
    obtain ⟨hlast, hpairwise⟩ := ih
    have htaken : (diary settings clock ops).taken - 1 ≤ (diary settings clock (ops ++ [op])).taken - 1 := by
      rw [diary_concat]
      exact Nat.sub_le_sub_right (Program.le_taken _) 1
    have hbefore : ∀ x ∈ (diary settings clock ops).turns, x.time ≤ clock ((diary settings clock (ops ++ [op])).taken - 1) :=
      fun x hx => Int.le_trans (hlast x hx) (hclock _ _ htaken)
    rw [diary_concat] at hbefore ⊢
    constructor
    · intro x hx
      rcases List.mem_append.mp hx with hx | hx
      · exact hbefore x hx
      · rw [List.mem_singleton.mp hx]
        exact Int.le_refl _
    · refine List.pairwise_append.mpr ⟨hpairwise, List.pairwise_singleton _ _, fun x hx y hy => ?_⟩
      rw [List.mem_singleton.mp hy]
      exact hbefore x hx

end Operation

end FleetControl
