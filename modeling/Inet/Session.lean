/-
Inet/Session.lean

Sessions: a network that is changed step by step.

Most steps replace the network as a whole, or its address, or its prefix
length; what is put together from an old and a new part is checked as any new
network is.  Some steps only ask.  A step that fails leaves the network as it
was.
-/
import Inet.Failure

namespace Inet.Session

inductive Step where
  /-- Replaces the network. -/
  | parse (text : String)
  /-- Replaces the address. -/
  | setAddr (text : String)
  | setOctets (values : List Int)
  | setBits (bits : UInt32)
  /-- Replaces the prefix length. -/
  | setPrefix (prefixLen : UInt8)
  /-- Moves the address to one that is derived from the network. -/
  | toNetwork
  | toBroadcast
  | toMin
  | toMax
  | toNetmask
  | toIndex (index : UInt64)
  /-- Asks whether an address is a member. -/
  | contains (text : String)
  /-- Asks how the network compares to another. -/
  | compareTo (text : String)
  /-- Writes the network as JSON and reads it back. -/
  | reload
  /-- Replaces the network by one that is read from JSON. -/
  | load (value : Json.Value)

inductive Answer where
  | done
  /-- There is no address at this index. -/
  | absent
  | member (found : Bool)
  | order (order : Ordering)
  deriving Repr, DecidableEq

/-- The network with another address. -/
def moveTo (n : Network) (addr : Address) : Attempt Failure (Answer × Network) := do
  let n ← Network.build addr n.prefixLen
  return (.done, n)

/-- What a step answers, and the network after it. -/
def apply (n : Network) : Step → Attempt Failure (Answer × Network)
  | .parse text => do
    let n ← Network.parse text
    return (.done, n)
  | .setAddr text => do
    let addr ← Address.parse text
    moveTo n addr
  | .setOctets values => do
    let addr ← Address.fromIntegers values
    moveTo n addr
  | .setBits bits => moveTo n (.ofBits bits)
  | .setPrefix prefixLen => do
    let n ← Network.build n.addr prefixLen
    return (.done, n)
  | .toNetwork => moveTo n n.networkAddr
  | .toBroadcast => moveTo n n.broadcastAddr
  | .toMin => moveTo n n.minHost
  | .toMax => moveTo n n.maxHost
  | .toNetmask => moveTo n n.netmask
  | .toIndex index =>
    match n.get? index with
    | some addr => moveTo n addr
    | none => return (.absent, n)
  | .contains text => do
    let addr ← Address.parse text
    return (.member (n.contains addr), n)
  | .compareTo text => do
    let other ← Network.parse text
    return (.order (compare n other), n)
  | .reload => do
    let n ← Json.decodeNetwork (Json.encodeNetwork n)
    return (.done, n)
  | .load value => do
    let n ← Json.decodeNetwork value
    return (.done, n)

/-- What came of a step. -/
structure Outcome where
  answer : Except Failure Answer
  /-- The network after the step. -/
  after : Network
  records : List Log.Record

/-- Carries out a step; a failed one changes nothing. -/
def perform (n : Network) (step : Step) : Outcome :=
  let attempt := apply n step
  match attempt.result with
  | .ok (answer, after) => ⟨.ok answer, after, attempt.records⟩
  | .error error => ⟨.error error, n, attempt.records⟩

/-- Carries out steps one after the other. -/
def run (n : Network) : List Step → List Outcome
  | [] => []
  | step :: steps =>
    let outcome := perform n step
    outcome :: run outcome.after steps

/-- Whether the own address is the network address, the broadcast address, the lowest and the
highest usable host, each as one digit. -/
def facts (n : Network) : String :=
  let digit (fact : Bool) : Char := if fact then '1' else '0'
  String.ofList
    [digit n.isNetworkAddr, digit n.isBroadcastAddr, digit n.isMinHost, digit n.isMaxHost]

end Inet.Session
