import FleetControl.Proofs.Calls
import Mathlib.Logic.Relation

/-!
# Runs of operations

Operations are begun by any number of clients and their steps are taken in any turns: `Traffic` is a store together with what is
left of the programs begun, and `Traffic.Step` begins an operation or takes a step of a program. A store is `Reachable` when
traffic on the empty store leads to it; operations carried out one after another are a case of it (`Reachable.replay`). What
every proper call preserves holds of every reachable store (`Reachable.preserves`).
-/

namespace FleetControl

variable (settings : Settings)

/-! ## Steps in turns -/

/-- One step of a program: what is left of it, and the store after the step. A program that has ended stays as it is. -/
def Program.step {α : Type} (time : Time) (s : Store) : Program α → Program α × Store
  | .done a => (.done a, s)
  | .stop why => (.stop why, s)
  | .clock next => (next time, s)
  | .call c next => (next (s.serve time c).1, (s.serve time c).2)

/-- A store together with what is left of the programs begun on it. -/
structure Traffic where
  store : Store
  begun : List (Program Answer)

/-- An operation is begun, or one of the programs takes a step at some time. -/
inductive Traffic.Step : Traffic → Traffic → Prop where
  | begin (s : Store) (begun : List (Program Answer)) (op : Operation) :
      Step ⟨s, begun⟩ ⟨s, begun ++ [op.program settings]⟩
  | turn (s : Store) (before after : List (Program Answer)) (p : Program Answer) (time : Time) :
      Step ⟨s, before ++ p :: after⟩ ⟨(p.step time s).2, before ++ (p.step time s).1 :: after⟩

/-- Any number of steps, in any turns. -/
def Traffic.LeadsTo (v w : Traffic) : Prop := Relation.ReflTransGen (Traffic.Step settings) v w

/-- The stores that operations lead to from the empty one, their steps taken in any turns. -/
def Reachable (s : Store) : Prop := ∃ begun, Traffic.LeadsTo settings ⟨.empty, []⟩ ⟨s, begun⟩

variable {settings}

/-- What every allowed call preserves, a step of a program preserves. -/
theorem Program.step_preserves {α : Type} {allowed : Call → Prop} {P : Store → Prop} {time : Time}
    (h : ∀ c, allowed c → ∀ s, P s → P (c.after time s)) {p : Program α} (hp : p.Asks allowed) {s : Store} (hs : P s) :
    P (p.step time s).2 ∧ (p.step time s).1.Asks allowed := by
  cases hp with
  | done a => exact ⟨hs, .done a⟩
  | stop why => exact ⟨hs, .stop why⟩
  | clock hnext => exact ⟨hs, hnext time⟩
  | call hc hnext =>
    refine ⟨?_, hnext _⟩
    dsimp only [step]
    rw [Store.serve_snd]
    exact h _ hc s hs

namespace Traffic

/-- The programs of the traffic make proper calls only. -/
def Proper (settings : Settings) (v : Traffic) : Prop := ∀ p ∈ v.begun, p.Asks (Call.Proper settings)

/-- What every proper call preserves, proper traffic preserves, and it stays proper. -/
theorem LeadsTo.preserves {P : Store → Prop} (h : ∀ c : Call, c.Proper settings → ∀ now s, P s → P (c.after now s))
    {v w : Traffic} (steps : LeadsTo settings v w) (hv : v.Proper settings) (hs : P v.store) :
    P w.store ∧ w.Proper settings := by
  induction steps with
  | refl => exact ⟨hs, hv⟩
  | tail _ step ih =>
    obtain ⟨hs, hv⟩ := ih
    cases step with
    | begin s begun op =>
      refine ⟨hs, ?_⟩
      intro p hp
      rcases List.mem_append.mp hp with hp | hp
      · exact hv p hp
      · rw [List.mem_singleton.mp hp]
        exact Operation.asks_proper settings op
    | turn s before after p time =>
      obtain ⟨hs, hleft⟩ := Program.step_preserves (fun c hc => h c hc time) (hv p (by simp)) hs
      refine ⟨hs, ?_⟩
      intro q hq
      rcases List.mem_append.mp hq with hq | hq
      · exact hv q (List.mem_append_left _ hq)
      · rcases List.mem_cons.mp hq with rfl | hq
        · exact hleft
        · exact hv q (List.mem_append_right _ (List.mem_cons_of_mem _ hq))

/-- Traffic on the empty store is proper. -/
theorem LeadsTo.proper {v : Traffic} (steps : LeadsTo settings ⟨.empty, []⟩ v) : v.Proper settings := by
  have hnone : Proper settings ⟨.empty, []⟩ := by
    intro p hp
    exact absurd hp List.not_mem_nil
  exact (steps.preserves (P := fun _ => True) (fun _ _ _ _ _ => trivial) hnone trivial).2

/-- A program that takes its steps without a break leaves the store as a run of it does. -/
theorem leadsTo_run (before : List (Program Answer)) (p : Program Answer) (time : Time) (s : Store) :
    ∃ left, LeadsTo settings ⟨s, before ++ [p]⟩ ⟨(p.run time s).2, before ++ [left]⟩ := by
  induction p generalizing s with
  | done a => exact ⟨.done a, .refl⟩
  | stop why => exact ⟨.stop why, .refl⟩
  | clock next ih =>
    obtain ⟨left, steps⟩ := ih time s
    exact ⟨left, .head (.turn s before [] (.clock next) time) steps⟩
  | call c next ih =>
    obtain ⟨left, steps⟩ := ih (s.serve time c).1 (s.serve time c).2
    exact ⟨left, .head (.turn s before [] (.call c next) time) steps⟩

/-- An operation carried out as a whole is a case of traffic. -/
theorem leadsTo_operation (begun : List (Program Answer)) (op : Operation) (time : Time) (s : Store) :
    ∃ begun', LeadsTo settings ⟨s, begun⟩ ⟨(op.run settings time s).2, begun'⟩ := by
  obtain ⟨left, steps⟩ := leadsTo_run begun (op.program settings) time s
  exact ⟨begun ++ [left], .head (.begin s begun op) steps⟩

end Traffic

/-- The store after operations carried out one after another, each at some time. -/
def Operation.replay (settings : Settings) (s : Store) (ops : List (Time × Operation)) : Store :=
  ops.foldl (fun s entry => (entry.2.run settings entry.1 s).2) s

/-- Operations carried out one after another are a case of traffic. -/
theorem Traffic.leadsTo_replay (begun : List (Program Answer)) (ops : List (Time × Operation)) (s : Store) :
    ∃ begun', LeadsTo settings ⟨s, begun⟩ ⟨Operation.replay settings s ops, begun'⟩ := by
  induction ops generalizing s begun with
  | nil => exact ⟨begun, .refl⟩
  | cons entry ops ih =>
    obtain ⟨begun₁, first⟩ := leadsTo_operation begun entry.2 entry.1 s
    obtain ⟨begun₂, rest⟩ := ih begun₁ (entry.2.run settings entry.1 s).2
    exact ⟨begun₂, first.trans rest⟩

/-- What holds of the empty store and is preserved by every proper call holds of every reachable store. -/
theorem Reachable.preserves {P : Store → Prop} (hempty : P .empty)
    (h : ∀ c : Call, c.Proper settings → ∀ now s, P s → P (c.after now s)) {s : Store} (hs : Reachable settings s) : P s := by
  obtain ⟨begun, steps⟩ := hs
  exact (steps.preserves h (fun _ hp => absurd hp List.not_mem_nil) hempty).1

theorem reachable_empty : Reachable settings .empty := ⟨[], .refl⟩

/-- An operation carried out as a whole leads from a reachable store to a reachable store. -/
theorem Reachable.run {s : Store} (hs : Reachable settings s) (op : Operation) (time : Time) :
    Reachable settings (op.run settings time s).2 := by
  obtain ⟨begun, steps⟩ := hs
  obtain ⟨begun', run⟩ := Traffic.leadsTo_operation begun op time s
  exact ⟨begun', steps.trans run⟩

/-- Operations carried out one after another lead from a reachable store to a reachable store. -/
theorem Reachable.replay {s : Store} (hs : Reachable settings s) (ops : List (Time × Operation)) :
    Reachable settings (Operation.replay settings s ops) := by
  obtain ⟨begun, steps⟩ := hs
  obtain ⟨begun', run⟩ := Traffic.leadsTo_replay begun ops s
  exact ⟨begun', steps.trans run⟩

end FleetControl
