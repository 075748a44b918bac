import FleetControl.Program
import Mathlib.Logic.Basic

/-!
# What a program asks, and how it runs

A program is a tree, so what it may ask of the store can be told without a store: `Program.Asks` says that every call on every
course of it is one of those allowed. It holds of a program put together from parts when it holds of the parts, and whatever
every allowed call preserves is preserved by a run (`Program.run_preserves`). The other lemmas compute runs from the outside
in, one bind at a time.
-/

namespace FleetControl

/-- Where one result after another is there, so is the first, and then the other. -/
theorem of_bind_eq_ok {ε α β : Type} {e : Except ε α} {f : α → Except ε β} {b : β} (h : (e >>= f) = .ok b) :
    ∃ a, e = .ok a ∧ f a = .ok b := by
  cases e with
  | error why => cases h
  | ok a => exact ⟨a, rfl, h⟩

theorem of_map_eq_ok {ε α β : Type} {e : Except ε α} {f : α → β} {b : β} (h : e.map f = .ok b) :
    ∃ a, e = .ok a ∧ f a = b := by
  cases e with
  | error why => cases h
  | ok a =>
    cases h
    exact ⟨a, rfl, rfl⟩

/-- Serving a call leaves the store after the call. -/
theorem Store.serve_snd (time : Time) (s : Store) (c : Call) : (s.serve time c).2 = c.after time s := by
  unfold Store.serve Call.after
  split <;> simp_all

namespace Program

variable {α β : Type}

/-! ## What a program asks -/

/-- Every call that the program may make, whatever it is answered before, is one of those allowed. -/
inductive Asks (allowed : Call → Prop) : Program α → Prop where
  | done (a : α) : Asks allowed (.done a)
  | stop (why : Stop) : Asks allowed (.stop why)
  | clock {next : Time → Program α} (h : ∀ now, Asks allowed (next now)) : Asks allowed (.clock next)
  | call {c : Call} {next : Except Refusal c.Reply → Program α} (hc : allowed c) (h : ∀ reply, Asks allowed (next reply)) :
      Asks allowed (.call c next)

section Asks

variable {allowed : Call → Prop}

theorem asks_pure (a : α) : (pure a : Program α).Asks allowed := .done a

theorem asks_refuse (why : Refusal) : (refuse why : Program α).Asks allowed := .stop (.refused why)

theorem asks_now : now.Asks allowed := .clock .done

theorem asks_ofExcept (e : Except Refusal α) : (ofExcept e).Asks allowed := by
  cases e with
  | ok a => exact .done a
  | error why => exact .stop (.refused why)

theorem asks_ask {c : Call} (h : allowed c) : (ask c).Asks allowed := .call h asks_ofExcept

theorem asks_cutoff (hours : Int) : (cutoff hours).Asks allowed := by
  refine .clock ?_
  intro now
  split
  · exact .done _
  · exact .stop .noCutoff

theorem asks_ite {c : Prop} [Decidable c] {p q : Program α} (hp : c → p.Asks allowed) (hq : ¬c → q.Asks allowed) :
    (if c then p else q).Asks allowed := by
  by_cases hc : c
  · rw [if_pos hc]
    exact hp hc
  · rw [if_neg hc]
    exact hq hc

/-- One program after another asks what the two ask. -/
theorem Asks.bind {p : Program α} {f : α → Program β} (hp : p.Asks allowed) (hf : ∀ a, (f a).Asks allowed) :
    (p >>= f).Asks allowed := by
  induction hp with
  | done a => exact hf a
  | stop why => exact .stop why
  | clock _ ih => exact .clock ih
  | call hc _ ih => exact .call hc ih

theorem Asks.map {p : Program α} (hp : p.Asks allowed) (f : α → β) : (f <$> p).Asks allowed := by
  rw [map_eq_pure_bind]
  refine hp.bind ?_
  intro a
  exact asks_pure (f a)

theorem Asks.attempt {p : Program α} (hp : p.Asks allowed) : p.attempt.Asks allowed := by
  induction hp with
  | done a => exact .done (Except.ok a)
  | stop why =>
    cases why with
    | refused why => exact .done (Except.error why)
    | noCutoff => exact .stop .noCutoff
  | clock _ ih => exact .clock ih
  | call hc _ ih => exact .call hc ih

theorem asks_forM {f : α → Program PUnit} {as : List α} (hf : ∀ a ∈ as, (f a).Asks allowed) : (as.forM f).Asks allowed := by
  induction as with
  | nil => exact asks_pure _
  | cons a as ih =>
    obtain ⟨hfirst, hrest⟩ := List.forall_mem_cons.mp hf
    refine hfirst.bind ?_
    intro _
    exact ih hrest

theorem asks_mapM {f : α → Program β} {as : List α} (hf : ∀ a ∈ as, (f a).Asks allowed) : (as.mapM f).Asks allowed := by
  induction as with
  | nil => exact asks_pure []
  | cons a as ih =>
    obtain ⟨hfirst, hrest⟩ := List.forall_mem_cons.mp hf
    rw [List.mapM_cons]
    refine hfirst.bind ?_
    intro b
    refine (ih hrest).bind ?_
    intro bs
    exact asks_pure (b :: bs)

/-- Every program makes calls of some sort. -/
theorem asks_any (p : Program α) : p.Asks fun _ => True := by
  induction p with
  | done a => exact .done a
  | stop why => exact .stop why
  | clock next ih => exact .clock ih
  | call c next ih => exact .call trivial ih

/-- A program that asks for less asks for nothing more. -/
theorem Asks.mono {p : Program α} {more : Call → Prop} (hp : p.Asks allowed) (h : ∀ c, allowed c → more c) :
    p.Asks more := by
  induction hp with
  | done a => exact .done a
  | stop why => exact .stop why
  | clock _ ih => exact .clock ih
  | call hc _ ih => exact .call (h _ hc) ih

/-- What every allowed call preserves, a run of the program preserves. -/
theorem run_preserves {P : Store → Prop} {time : Time} (h : ∀ c, allowed c → ∀ s, P s → P (c.after time s))
    {p : Program α} (hp : p.Asks allowed) {s : Store} (hs : P s) : P (p.run time s).2 := by
  induction hp generalizing s with
  | done a => exact hs
  | stop why => exact hs
  | clock _ ih => exact ih time hs
  | @call c next hc _ ih =>
    have hs' : P (s.serve time c).2 := by
      rw [Store.serve_snd]
      exact h c hc s hs
    exact ih _ hs'

/-- What every call preserves, a run of any program preserves. -/
theorem run_preserves_of_all {P : Store → Prop} {time : Time} (h : ∀ (c : Call) s, P s → P (c.after time s)) (p : Program α)
    {s : Store} (hs : P s) : P (p.run time s).2 :=
  run_preserves (fun c _ => h c) (asks_any p) hs

end Asks

/-! ## Results and refusals -/

@[simp] theorem ofExcept_pure (a : α) : ofExcept (pure a) = pure a := rfl

/-- To go on with one result after another is to go on with the one and then with the other. -/
theorem ofExcept_bind (e : Except Refusal α) (f : α → Except Refusal β) :
    ofExcept (e >>= f) = ofExcept e >>= fun a => ofExcept (f a) := by
  cases e with
  | ok a => rfl
  | error why => rfl

/-! ## How a program runs -/

section Run

variable (time : Time) (s : Store)

@[simp] theorem run_pure (a : α) : (pure a : Program α).run time s = (.ok a, s) := rfl

@[simp] theorem run_now : now.run time s = (.ok time, s) := rfl

/-- One program after another runs on what the first leaves, and only if the first has a result. -/
theorem run_bind (p : Program α) (f : α → Program β) :
    (p >>= f).run time s =
      match p.run time s with
      | (.ok a, s') => (f a).run time s'
      | (.error why, s') => (.error why, s') := by
  unfold run
  rw [runWith_bind]
  obtain ⟨_ | _, _⟩ := p.runWith Store.serve time s <;> rfl

/-- A call runs as the store serves it. -/
theorem run_ask (c : Call) :
    (ask c).run time s = ((s.serve time c).1.mapError .refused, (s.serve time c).2) :=
  runWith_ask Store.serve time c s

variable {time s}

/-- The cutoff is told where it can be held. -/
theorem run_cutoff_of_eq_some {hours : Int} {cutoff : Time} (h : activityCutoff time hours = some cutoff) :
    (Program.cutoff hours).run time s = (.ok cutoff, s) := by
  rw [Program.cutoff, run, runWith, h]
  rfl

/-- Where the cutoff cannot be held the program stops. -/
theorem run_cutoff_of_eq_none {hours : Int} (h : activityCutoff time hours = none) :
    (Program.cutoff hours).run time s = (.error .noCutoff, s) := by
  rw [Program.cutoff, run, runWith, h]
  rfl

theorem run_bind_of_ok {p : Program α} {a : α} {s' : Store} (h : p.run time s = (.ok a, s')) (f : α → Program β) :
    (p >>= f).run time s = (f a).run time s' := by
  rw [run_bind, h]

theorem run_bind_of_error {p : Program α} {why : Stop} {s' : Store} (h : p.run time s = (.error why, s'))
    (f : α → Program β) : (p >>= f).run time s = (.error why, s') := by
  rw [run_bind, h]

/-- Where one program after another has a result, so has the first, and then the other. -/
theorem of_run_bind_eq_ok {p : Program α} {f : α → Program β} {b : β} {s' : Store}
    (h : (p >>= f).run time s = (.ok b, s')) :
    ∃ a s₁, p.run time s = (.ok a, s₁) ∧ (f a).run time s₁ = (.ok b, s') := by
  rw [run_bind] at h
  split at h
  · rename_i a s₁ hp
    exact ⟨a, s₁, hp, h⟩
  · cases h

/-- A call that is answered runs to its answer and the store after it. -/
theorem run_ask_of_ok {c : Call} {reply : c.Reply} {s' : Store} (h : c.exec time s = .ok (reply, s')) :
    (ask c).run time s = (.ok reply, s') := by
  rw [run_ask, Store.serve, h]
  rfl

/-- A call that is refused runs to its refusal and leaves the store. -/
theorem run_ask_of_error {c : Call} {why : Refusal} (h : c.exec time s = .error why) :
    (ask c).run time s = (.error (.refused why), s) := by
  rw [run_ask, Store.serve, h]
  rfl

/-- A call that runs to an answer is answered, and leads to the store after it. -/
theorem of_run_ask_eq_ok {c : Call} {reply : c.Reply} {s' : Store} (h : (ask c).run time s = (.ok reply, s')) :
    (c.exec time s).isOk = true ∧ c.after time s = s' := by
  cases hexec : c.exec time s with
  | error why =>
    rw [run_ask_of_error hexec] at h
    cases h
  | ok answered =>
    rw [run_ask_of_ok hexec] at h
    cases h
    refine ⟨rfl, ?_⟩
    unfold Call.after
    rw [hexec]

/-- A change to the result of a program changes nothing of what the program leaves. -/
theorem run_map (p : Program α) (f : α → β) :
    (f <$> p).run time s = ((p.run time s).1.map f, (p.run time s).2) := by
  rw [map_eq_pure_bind, run_bind]
  obtain ⟨_ | _, _⟩ := p.run time s <;> rfl

theorem run_map_of_ok {p : Program α} {a : α} {s' : Store} (h : p.run time s = (.ok a, s')) (f : α → β) :
    (f <$> p).run time s = (.ok (f a), s') := by
  rw [run_map, h]
  rfl

theorem run_map_of_error {p : Program α} {why : Stop} {s' : Store} (h : p.run time s = (.error why, s')) (f : α → β) :
    (f <$> p).run time s = (.error why, s') := by
  rw [run_map, h]
  rfl

theorem of_run_map_eq_ok {p : Program α} {f : α → β} {b : β} {s' : Store} (h : (f <$> p).run time s = (.ok b, s')) :
    ∃ a, p.run time s = (.ok a, s') ∧ f a = b := by
  rw [map_eq_pure_bind] at h
  obtain ⟨a, s₁, hp, hpure⟩ := of_run_bind_eq_ok h
  rw [run_pure] at hpure
  cases hpure
  exact ⟨a, hp, rfl⟩

/-- Attempting a program leaves what the program leaves; only a refusal is told otherwise. -/
theorem run_attempt (p : Program α) :
    p.attempt.run time s =
      match p.run time s with
      | (.ok a, s') => (.ok (.ok a), s')
      | (.error (.refused why), s') => (.ok (.error why), s')
      | (.error .noCutoff, s') => (.error .noCutoff, s') := by
  unfold run
  rw [runWith_attempt]
  obtain ⟨(_ | _) | _, _⟩ := p.runWith Store.serve time s <;> rfl

theorem run_attempt_of_ok {p : Program α} {a : α} {s' : Store} (h : p.run time s = (.ok a, s')) :
    p.attempt.run time s = (.ok (.ok a), s') := by
  rw [run_attempt, h]

/-- The refusal of a program that is attempted is its result. -/
theorem run_attempt_of_refused {p : Program α} {why : Refusal} {s' : Store} (h : p.run time s = (.error (.refused why), s')) :
    p.attempt.run time s = (.ok (.error why), s') := by
  rw [run_attempt, h]

theorem run_attempt_of_noCutoff {p : Program α} {s' : Store} (h : p.run time s = (.error .noCutoff, s')) :
    p.attempt.run time s = (.error .noCutoff, s') := by
  rw [run_attempt, h]

end Run

end Program

end FleetControl
