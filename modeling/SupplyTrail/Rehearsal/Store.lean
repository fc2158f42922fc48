import SupplyTrail.Ledger.Call
import SupplyTrail.Ledger.Failure
import SupplyTrail.Wallet.Account
/-!
# A ledger in memory

The contract's state as JSON: products by id, for each product the numbers of its events, and all events in the order in
which they were recorded, the number of an event being its place.  What is submitted is recorded as it stands.
-/
namespace SupplyTrail.Rehearsal

structure Store where
  products : List (String × Json)
  eventIds : List (String × List Nat)
  events : List Json

namespace Store

def empty : Store := ⟨[], [], []⟩

def put {V : Type} (key : String) (value : V) (entries : List (String × V)) : List (String × V) :=
  (key, value) :: entries.filter fun e => e.1 != key

/-- A text argument, empty if it is none. -/
def textArg (args : Json) (name : String) : String :=
  match args.member? name with
  | some (.string s) => s
  | _ => ""

def arg (args : Json) (name : String) : Json := (args.member? name).getD .null

def refuse {α : Type} (code : Nat) : Except LedgerFailure α :=
  .error (.contract code s!"HostError: Error(Contract, #{Text.decimal code}) {contractFaultName code}")

def numbers (ids : List Nat) : Json := .array (ids.map fun n => .word (UInt64.ofNat n))

/-- Record an event and list it for a product. -/
def record (s : Store) (product : String) (event : Json) : Store :=
  let ids := (valueOf? product s.eventIds).getD []
  { s with events := s.events ++ [event], eventIds := put product (ids ++ [s.events.length]) s.eventIds }

/-- Put a product in place, with no events if it has no list of them. -/
def place (s : Store) (product : String) (value : Json) : Store :=
  { s with
    products := put product value s.products
    eventIds := if (valueOf? product s.eventIds).isSome then s.eventIds else put product [] s.eventIds }

/-- A new product from the arguments of its registration. -/
def productRecord (args : Json) : Json :=
  .ofMembers [("id", arg args "id"), ("name", arg args "name"), ("description", arg args "description"),
    ("origin", .object [("location", arg args "origin_location")]), ("owner", arg args "owner"),
    ("created_at", arg args "created_at"), ("active", .bool true), ("category", arg args "category"),
    ("tags", arg args "tags"), ("custom", arg args "custom")]

/-- A new event from the arguments of its submission. -/
def eventRecord (number : Nat) (args : Json) : Json :=
  .ofMembers [("event_id", .word (UInt64.ofNat number)), ("product_id", arg args "product_id"),
    ("event_type", arg args "event_type"), ("timestamp", arg args "timestamp"), ("metadata", arg args "metadata"),
    ("actor", arg args "actor")]

def read (s : Store) (c : ContractCall) : Except LedgerFailure Json :=
  match c.function with
  | "get_product" =>
    match valueOf? (textArg c.args "id") s.products with
    | some value => .ok value
    | none => refuse 2
  | "get_product_event_ids" =>
    match valueOf? (textArg c.args "id") s.eventIds with
    | some ids => .ok (numbers ids)
    | none => refuse 2
  | "get_event" =>
    let number := match c.args.member? "event_id" with
      | some (.number (.whole n)) => n.word?
      | _ => none
    match number.bind fun n => s.events[n.toNat]? with
    | some event => .ok event
    | none => refuse 5
  | _ => refuse 4

/-- Apply a call that may change the state. -/
def apply (s : Store) (c : ContractCall) : Except LedgerFailure Json × Store :=
  match c.function with
  | "register_product" =>
    let id := textArg c.args "id"
    if (valueOf? id s.products).isSome then (refuse 1, s)
    else
      (.ok (.string id), { s with
        products := put id (productRecord c.args) s.products, eventIds := put id [] s.eventIds })
  | "add_tracking_event" =>
    let id := textArg c.args "product_id"
    if (valueOf? id s.products).isSome then
      (.ok (.word (UInt64.ofNat s.events.length)), s.record id (eventRecord s.events.length c.args))
    else (refuse 2, s)
  | _ => (s.read c, s)

/-- The invocation inside an envelope: its content is the hexadecimal form of the signed bytes. -/
def invocation? (content : String) : Option Invocation :=
  (Text.decodeHex? content).bind Invocation.ofBytes?

def submit (s : Store) (e : Envelope) : Except LedgerFailure Receipt × Store :=
  match invocation? e.content with
  | none => (.error (.remote .noData), s)
  | some i =>
    match s.apply i.call with
    | (.ok value, s) => (.ok ⟨s!"tx-{Text.decimal s.events.length}", none, some value⟩, s)
    | (.error failure, s) => (.error failure, s)

end Store

end SupplyTrail.Rehearsal
