import FleetControl.Program

/-!
# Outages

A store whose backend may fail. Each outage concerns one call by its name: the call still goes through some times and is then
refused every time, and a call that is refused so writes nothing.
-/

namespace FleetControl

/-- An outage: the call it concerns, how many more times the call goes through, and how it is refused then. -/
structure Outage where
  call : String
  grace : Nat
  refusal : Refusal
  deriving DecidableEq, Repr

/-- A store behind a backend with outages. -/
structure Backend where
  store : Store
  outages : List Outage
  deriving DecidableEq, Repr

namespace Backend

/-- The backend without any outage of a call. -/
def repair (b : Backend) (call : String) : Backend := { b with outages := b.outages.filter (·.call != call) }

/-- The backend with an outage in place of any other of the same call. -/
def strike (b : Backend) (outage : Outage) : Backend :=
  { b with outages := outage :: (b.repair outage.call).outages }

/-- The backend with one time less for a call to go through. -/
def spend (b : Backend) (call : String) : Backend :=
  { b with outages := b.outages.map fun o => if o.call = call then { o with grace := o.grace - 1 } else o }

/-- The store behind the backend serves a call. -/
def passOn (time : Time) (b : Backend) (c : Call) : Except Refusal c.Reply × Backend :=
  let served := Store.serve time b.store c
  (served.1, { b with store := served.2 })

end Backend

/-- The backend serves a call: it is passed on unless an outage of it has set in. -/
def Backend.serve (time : Time) (b : Backend) (c : Call) : Except Refusal c.Reply × Backend :=
  match b.outages.find? (·.call == c.name) with
  | none => Backend.passOn time b c
  | some outage => if outage.grace = 0 then (.error outage.refusal, b) else Backend.passOn time (b.spend c.name) c

/-- Runs a program at some time on a backend. -/
def Program.runOn {α : Type} (p : Program α) (time : Time) (b : Backend) : Except Stop α × Backend :=
  p.runWith Backend.serve time b

end FleetControl
