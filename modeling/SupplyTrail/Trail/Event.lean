import SupplyTrail.Product.Details
/-!
# Tracking events

An event is one entry of a product's trail: what happened, when (in seconds since 1970, as its producer says), and open
metadata.  `Event.parse` reads a raw record, as a producer writes it or as the contract stores it, and checks it.
-/
namespace SupplyTrail

inductive EventKind where
  | register
  | transfer
  | checkpoint
  deriving DecidableEq, Repr

namespace EventKind

/-- The name under which the contract stores the kind. -/
def symbol : EventKind → String
  | .register => "REGISTER"
  | .transfer => "TRANSFER"
  | .checkpoint => "CHECKPOINT"

def names : List (String × EventKind) :=
  [("REGISTER", .register), ("TRANSFER", .transfer), ("CHECKPOINT", .checkpoint)]

/-- Read a name in any ASCII case. -/
def parse (text : String) : Except InputError EventKind :=
  match valueOf? (text.map Char.toUpper) names with
  | some kind => .ok kind
  | none => .error (.unknownEventKind text)

def toJson (k : EventKind) : Json := .string k.symbol

def decode : Json.Decoder EventKind := .variant names

end EventKind

structure Event where
  product : ProductId
  kind : EventKind
  time : UInt64
  metadata : Metadata
  deriving DecidableEq

namespace Event

/-- The checks on an event whose kind and time are already known to be good. -/
def check (e : Event) : Except InputError Event := do
  e.product.check
  checkMetadata e.metadata
  return e

def toJson (e : Event) : Json :=
  .object [("productId", e.product.toJson), ("type", e.kind.toJson), ("timestamp", .word e.time),
    ("metadata", .ofTable e.metadata)]

open Json.Decoder in
def form : Json.Form :=
  ⟨"event", [.of .fault "productId" text, .of .fault "type" EventKind.decode, .of .fault "timestamp" word64,
    .of .standard "metadata" (table value)]⟩

open Json.Decoder in
def decode : Json.Decoder Event := fun s => do
  let found ← form.locate s
  return {
    product := ← Json.need found "productId" ProductId.decode
    kind := ← Json.need found "type" EventKind.decode
    time := ← Json.need found "timestamp" word64
    metadata := ← Json.needOr .empty found "metadata" (table value) }

/-- The text of the first of two members that is there. -/
def textOfEither? (members : List (String × Json)) (name other : String) : Option String :=
  match (valueOf? name members).or (valueOf? other members) with
  | some (.string s) => some s
  | _ => none

/-- A time is a whole number that is not negative. -/
def parseTime (members : List (String × Json)) : Except InputError UInt64 :=
  match valueOf? "timestamp" members with
  | none => .error (.invalidTimestamp "missing")
  | some (.number (.whole n)) =>
    match n.word? with
    | some t => .ok t
    | none => .error (.invalidTimestamp (Json.number (.whole n)).render)
  | some other => .error (.invalidTimestamp other.render)

def parseMetadata (members : List (String × Json)) : Except InputError Metadata :=
  match valueOf? "metadata" members with
  | none | some .null => .ok .empty
  | some (.object entries) => .ok (Table.ofList entries)
  | some _ => .error (.malformed "metadata must be an object")

/-- Read and check a raw record, in the producer's spelling of the fields or in the contract's. -/
def parse (record : Json) : Except InputError Event :=
  match record with
  | .object members => do
    let product ← match textOfEither? members "productId" "product_id" with
      | some s => .ok s
      | none => .error (.malformed "missing productId")
    let kind ← match textOfEither? members "type" "event_type" with
      | some s => EventKind.parse s
      | none => .error (.malformed "missing type")
    let time ← parseTime members
    let metadata ← parseMetadata members
    check ⟨⟨product⟩, kind, time, metadata⟩
  | _ => .error (.malformed "expected a JSON object")

end Event

end SupplyTrail
