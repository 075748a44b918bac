import FleetControl.Text.Hexadecimal
import FleetControl.Text.Numeral
import FleetControl.Text.Pieces
import FleetControl.Width

/-!
# Endpoints

An endpoint is a numeric address of version 4 or 6 and a port. It is read from a text in its usual form, and failing that from
a text that ends in a colon and a port, whose host is looked up. How hosts are looked up is up to the machine, so it is a
parameter. A version 6 address is written with its longest run of zero groups left out.
-/

namespace FleetControl

/-- A numeric address: four octets, or eight groups of sixteen bits and a zone, which is zero for none. -/
inductive Address where
  | v4 (octets : List Nat)
  | v6 (groups : List Nat) (zone : Nat)
  deriving DecidableEq, Repr

/-- An address and a port. -/
structure Endpoint where
  address : Address
  port : Nat
  deriving DecidableEq, Repr

namespace Address

/-! ## Writing -/

/-- The text of four octets. -/
def octetsText (octets : List Nat) : String := ".".intercalate (octets.map toString)

/-- The digits of a group without zeros before them. -/
def groupText (n : Nat) : String :=
  let digits := (Hexadecimal.digitsOnto [] 4 n).dropWhile (· == '0')
  if digits.isEmpty then "0" else String.ofList digits

/-- The text of groups between colons. -/
def groupsText (groups : List Nat) : String := ":".intercalate (groups.map groupText)

/-- Where the first of the longest runs of zero groups starts, and how long it is. -/
def longestZeros (groups : List Nat) : Nat × Nat :=
  (List.range groups.length).foldl
    (fun best start =>
      let run := ((groups.drop start).takeWhile (· == 0)).length
      if best.2 < run then (start, run) else best)
    (0, 0)

/-- The text of eight groups. An address that stands for one of version 4 shows its octets. -/
def v6Text (groups : List Nat) : String :=
  match groups with
  | [0, 0, 0, 0, 0, 0xFFFF, high, low] => "::ffff:" ++ octetsText [high / 256, high % 256, low / 256, low % 256]
  | _ =>
    let (start, run) := longestZeros groups
    if run ≤ 1 then groupsText groups
    else groupsText (groups.take start) ++ "::" ++ groupsText (groups.drop (start + run))

/-- The text of an address as it stands in an endpoint. -/
def text : Address → String
  | .v4 octets => octetsText octets
  | .v6 groups 0 => "[" ++ v6Text groups ++ "]"
  | .v6 groups zone => "[" ++ v6Text groups ++ "%" ++ toString zone ++ "]"

/-! ## Reading -/

/-- The value of a digit in a base up to sixteen. -/
def digitIn? (base : Nat) (c : Char) : Option Nat :=
  if c.toNat < 0x80 then (Hexadecimal.digit? (UInt8.ofNat c.toNat)).filter (· < base) else none

/-- The number that digits of a base stand for. -/
def numberIn? (base : Nat) (cs : List Char) : Option Nat :=
  if cs.isEmpty then none else cs.foldlM (fun n c => (digitIn? base c).map (n * base + ·)) 0

/-- The octet a text stands for: up to three digits without a zero before them. -/
def octet? (cs : List Char) : Option Nat :=
  if cs.length ≤ 3 ∧ ¬ (cs.length > 1 ∧ cs.head? = some '0') then (numberIn? 10 cs).filter (· < 256) else none

/-- Four octets between points. -/
def v4? (cs : List Char) : Option (List Nat) :=
  let parts := Text.pieces '.' cs
  if parts.length = 4 then parts.mapM octet? else none

/-- The group a text stands for: up to four digits. -/
def group? (cs : List Char) : Option Nat := if cs.length ≤ 4 then numberIn? 16 cs else none

/-- Groups between colons, of which the last two may be given as four octets. -/
def groups? (cs : List Char) : Option (List Nat) :=
  if cs.isEmpty then some []
  else
    let parts := Text.pieces ':' cs
    match v4? (parts.getLast?.getD []) with
    | some [a, b, c, d] => (parts.dropLast.mapM group?).map (· ++ [a * 256 + b, c * 256 + d])
    | _ => parts.mapM group?

/-- The text before the first double colon and the text after it. -/
def splitGap : List Char → Option (List Char × List Char)
  | ':' :: ':' :: rest => some ([], rest)
  | c :: rest => (splitGap rest).map fun s => (c :: s.1, s.2)
  | [] => none

/-- The eight groups of a text: all of them, or those around a double colon that stands for one group of zeros or more. No
octets stand before it. -/
def v6? (cs : List Char) : Option (List Nat) :=
  match splitGap cs with
  | none => (groups? cs).filter (·.length == 8)
  | some (before, after) => do
    let head ← groups? before
    let tail ← groups? after
    if before.contains '.' ∨ 7 < head.length + tail.length then none
    else some (head ++ List.replicate (8 - (head.length + tail.length)) 0 ++ tail)

/-- A version 6 address with the zone after a percent sign, if there is one. -/
def v6Zoned? (cs : List Char) : Option Address := do
  if cs.contains '%' then
    let (address, zone) := Text.splitFirst '%' cs
    let zone ← (numberIn? 10 zone).filter (· ≤ Width.unsigned32.toNat)
    return .v6 (← v6? address) zone
  else return .v6 (← v6? cs) 0

/-- One number of a loose version 4 address: hexadecimal after 0x, octal after 0, else decimal. -/
def looseNumber? : List Char → Option Nat
  | '0' :: 'x' :: digits => numberIn? 16 digits
  | '0' :: 'X' :: digits => numberIn? 16 digits
  | '0' :: digits => if digits.isEmpty then some 0 else numberIn? 8 digits
  | digits => numberIn? 10 digits

/-- A version 4 address of one to four numbers between points, of which the last one fills the octets that are left. -/
def looseV4? (cs : List Char) : Option (List Nat) := do
  let numbers ← (Text.pieces '.' cs).mapM looseNumber?
  let last ← numbers.getLast?
  let first := numbers.dropLast
  let left := 4 - first.length
  if first.length ≤ 3 ∧ first.all (· < 256) ∧ last < Nat.pow 256 left then
    return first ++ (List.range left).map fun i => last / Nat.pow 256 (left - 1 - i) % 256
  else none

/-- The address that a host in numeric form stands for. -/
def numeric? (host : List Char) : Option Address :=
  match looseV4? host with
  | some octets => some (.v4 octets)
  | none => v6Zoned? host

end Address

/-! ## Looking hosts up -/

/-- How a machine looks hosts up: the addresses of a host, or the reason why it is not found. -/
def Resolver : Type := String → Except String (List Address)

/-- The look-up of a machine that knows some hosts by name, and every host in numeric form. -/
def Resolver.ofHosts (hosts : List (String × List Address)) : Resolver := fun host =>
  match Address.numeric? host.toList with
  | some address => .ok [address]
  | none =>
    match hosts.lookup host with
    | some addresses => .ok addresses
    | none => .error "failed to lookup address information: Name or service not known"

namespace Endpoint

/-- The text of an endpoint. -/
def text (e : Endpoint) : String := e.address.text ++ ":" ++ toString e.port

/-- Why a text stands for no endpoints. A host that is not found has the reason that its look-up gives. -/
inductive Fault where
  | noColon
  | badPort
  | notFound (why : String)
  deriving DecidableEq, Repr

/-- The wording of a fault. -/
def Fault.message : Fault → String
  | .noColon => "invalid socket address"
  | .badPort => "invalid port value"
  | .notFound why => why

/-- What stands before the last colon and what stands after it. -/
def splitLast? (cs : List Char) : Option (List Char × List Char) :=
  let parts := Text.pieces ':' cs
  if parts.length ≤ 1 then none
  else some ([':'].intercalate parts.dropLast, parts.getLast?.getD [])

/-- The port that digits stand for in the usual form of an endpoint. -/
def port? (cs : List Char) : Option Nat := (Address.numberIn? 10 cs).filter (· ≤ Width.unsigned16.toNat)

/-- The endpoint of a text in the usual form: octets and a port, or groups in brackets and a port. -/
def usual? (cs : List Char) : Option Endpoint := do
  let (host, port) ← splitLast? cs
  let port ← port? port
  match host with
  | '[' :: rest =>
    if rest.getLast? = some ']' then return ⟨← Address.v6Zoned? rest.dropLast, port⟩ else none
  | _ => return ⟨.v4 (← Address.v4? host), port⟩

/-- The endpoints that a text stands for. In the usual form it is the one written there, and no host is looked up; otherwise they
are at the addresses of the host, in their order. -/
def parse (resolve : Resolver) (s : String) : Except Fault (List Endpoint) :=
  match usual? s.toList with
  | some e => .ok [e]
  | none =>
    match splitLast? s.toList with
    | none => .error .noColon
    | some (host, port) =>
      match Numeral.read 0 Width.unsigned16 (String.ofList port) with
      | .error _ => .error .badPort
      | .ok port =>
        match resolve (String.ofList host) with
        | .error why => .error (.notFound why)
        | .ok addresses => .ok (addresses.map fun address => ⟨address, port.toNat⟩)

theorem parse_of_usual (resolve : Resolver) {s : String} {e : Endpoint} (h : usual? s.toList = some e) :
    parse resolve s = .ok [e] := by
  rw [parse, h]

end Endpoint

end FleetControl
