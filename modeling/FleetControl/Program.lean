import FleetControl.Store.Call

/-!
# Programs

An operation is a program: it ends with a result, or stops without one, or reads the clock, or makes a call on the store and
goes on by what the call is answered. A program is data, a tree of its possible courses, and knows nothing of the store. It
is run by whoever serves its calls (`Program.runWith`): the store itself (`Program.run`), or a store that refuses some calls.
Since each call is one step, the steps of several programs can also be taken in turns.
-/

namespace FleetControl

/-- Why a program stopped without a result: it was refused, or the activity cutoff it needed cannot be held. -/
inductive Stop where
  | refused (why : Refusal)
  | noCutoff
  deriving DecidableEq, Repr

/-- A program with a result of some type. -/
inductive Program (α : Type) : Type where
  | done (a : α)
  | stop (why : Stop)
  | clock (next : Time → Program α)
  | call (c : Call) (next : Except Refusal c.Reply → Program α)

namespace Program

variable {α β : Type}

/-- First the one program, then the one its result chooses. -/
def bind : Program α → (α → Program β) → Program β
  | .done a, f => f a
  | .stop why, _ => .stop why
  | .clock next, f => .clock fun now => (next now).bind f
  | .call c next, f => .call c fun reply => (next reply).bind f

instance : Monad Program where
  pure := .done
  bind := bind

/-- Going on by ending changes nothing. -/
theorem bind_done (p : Program α) : p.bind .done = p := by
  induction p with
  | done a => rfl
  | stop why => rfl
  | clock next ih => exact congrArg Program.clock (funext ih)
  | call c next ih => exact congrArg (Program.call c) (funext ih)

/-- Programs may be put one after another in any grouping. -/
theorem bind_bind {γ : Type} (p : Program α) (f : α → Program β) (g : β → Program γ) :
    (p.bind f).bind g = p.bind fun a => (f a).bind g := by
  induction p with
  | done a => rfl
  | stop why => rfl
  | clock next ih => exact congrArg Program.clock (funext ih)
  | call c next ih => exact congrArg (Program.call c) (funext ih)

instance : LawfulMonad Program :=
  LawfulMonad.mk' Program (fun p => bind_done p) (fun _ _ => rfl) (fun p f g => bind_bind p f g)

/-- Stops with a refusal. -/
def refuse (why : Refusal) : Program α := .stop (.refused why)

/-- Goes on with a result, or stops with the refusal in its place. -/
def ofExcept : Except Refusal α → Program α
  | .ok a => .done a
  | .error why => refuse why

/-- Makes a call and goes on with its answer; a refusal of the call stops the program. -/
def ask (c : Call) : Program c.Reply := .call c ofExcept

/-- Reads the clock. -/
def now : Program Time := .clock .done

/-- Reads the clock for the activity cutoff some hours ago. -/
def cutoff (hours : Int) : Program Time :=
  .clock fun now => match activityCutoff now hours with
    | some time => .done time
    | none => .stop .noCutoff

/-- The program with its refusals as results. -/
def attempt : Program α → Program (Except Refusal α)
  | .done a => .done (.ok a)
  | .stop (.refused why) => .done (.error why)
  | .stop .noCutoff => .stop .noCutoff
  | .clock next => .clock fun now => (next now).attempt
  | .call c next => .call c fun reply => (next reply).attempt

/-- Runs a program at some time on whatever serves its calls. The clock stands still while it runs. -/
def runWith {σ : Type} (serve : Time → σ → (c : Call) → Except Refusal c.Reply × σ) (time : Time) :
    Program α → σ → Except Stop α × σ
  | .done a, s => (.ok a, s)
  | .stop why, s => (.error why, s)
  | .clock next, s => (next time).runWith serve time s
  | .call c next, s =>
    let served := serve time s c
    (next served.1).runWith serve time served.2

section Running

variable {σ : Type} (serve : Time → σ → (c : Call) → Except Refusal c.Reply × σ) (time : Time)

/-- One program after another runs on what the first leaves, and only if the first has a result. -/
theorem runWith_bind (p : Program α) (f : α → Program β) (s : σ) :
    (p >>= f).runWith serve time s =
      match p.runWith serve time s with
      | (.ok a, s') => (f a).runWith serve time s'
      | (.error why, s') => (.error why, s') := by
  induction p generalizing s with
  | done a => rfl
  | stop why => rfl
  | clock next ih => exact ih time s
  | call c next ih => exact ih _ _

/-- A call runs as it is served. -/
theorem runWith_ask (c : Call) (s : σ) :
    (ask c).runWith serve time s = ((serve time s c).1.mapError .refused, (serve time s c).2) := by
  simp only [ask, runWith]
  cases (serve time s c).1 <;> rfl

/-- Attempting a program leaves what the program leaves; only a refusal is told otherwise. -/
theorem runWith_attempt (p : Program α) (s : σ) :
    p.attempt.runWith serve time s =
      match p.runWith serve time s with
      | (.ok a, s') => (.ok (.ok a), s')
      | (.error (.refused why), s') => (.ok (.error why), s')
      | (.error .noCutoff, s') => (.error .noCutoff, s') := by
  induction p generalizing s with
  | done a => rfl
  | stop why => cases why <;> rfl
  | clock next ih => exact ih time s
  | call c next ih => exact ih _ _

end Running

end Program

/-- The store serves a call: a refused one leaves it as it was. -/
def Store.serve (time : Time) (s : Store) (c : Call) : Except Refusal c.Reply × Store :=
  match c.exec time s with
  | .ok (reply, s') => (.ok reply, s')
  | .error why => (.error why, s)

/-- Runs a program at some time on a store. -/
def Program.run {α : Type} (p : Program α) (time : Time) (s : Store) : Except Stop α × Store :=
  p.runWith Store.serve time s

end FleetControl
