import SupplyTrail.Client.Reading
/-!
# Writing to the ledger

Registering a product and appending an event.  Both check their input before anything leaves the process, need a
connected wallet, and submit once: a failure is reported and nothing is tried again.  An event is appended only to a
product that this client has seen registered, and never with a time before the latest one it knows of that product.
-/
namespace SupplyTrail.Client

/-- The arguments of a registration, in key order. -/
def registerArgs (d : ProductDetails) (owner : String) (createdAt : UInt64) : Json :=
  .object [("category", .string d.category), ("created_at", .word createdAt),
    ("custom", ProductDetails.customJson d.custom), ("description", .string d.description), ("id", d.id.toJson),
    ("name", .string d.name), ("origin_location", .string d.origin), ("owner", .string owner),
    ("tags", ProductDetails.tagsJson d.tags)]

/-- The arguments of an event, in key order. -/
def appendArgs (e : Event) (actor : String) : Json :=
  .object [("actor", .string actor), ("event_type", .string e.kind.symbol), ("metadata", .ofTable e.metadata),
    ("note", .string ""), ("product_id", e.product.toJson), ("timestamp", .word e.time)]

def register (c : Client) (d : ProductDetails) : Op ProductId := do
  checkNetwork c
  checked d.check
  let time ← own .clock
  let event ← checked (Event.check ⟨d.id, .register, time, d.registerMetadata⟩)
  let owner ← connectedKey
  let receipt ← c.submit "register_product" (registerArgs d owner event.time) d.id
  note .info s!"Registered product {d.id.text} in transaction {receipt.hash}"
  own (.remember d.id event.time)
  return d.id

/-- The latest known time of a registered product: remembered, or read from its history. -/
def registeredTime (c : Client) (product : ProductId) : Op UInt64 := do
  match ← own (.lastSeen product) with
  | some time => return time
  | none => return (← c.getHistory product).lastTime

/-- Append an event to a registered product's trail. -/
def append (c : Client) (product : ProductId) (kind : EventKind) (metadata : Metadata) : Op Event := do
  checkNetwork c
  if kind = .register then throw (.invalidInput .registerNotAppendable)
  let draft ← checked (Event.check ⟨product, kind, 0, metadata⟩)
  let actor ← connectedKey
  let lastSeen ← c.registeredTime product
  let time ← own .clock
  let event := { draft with time := max time lastSeen }
  let receipt ← c.submit "add_tracking_event" (appendArgs event actor) product
  note .info s!"Appended {event.kind.symbol} to {event.product.text} in transaction {receipt.hash}"
  own (.remember product event.time)
  return event

def ping (c : Client) : Op Bool := do
  c.accept none (← away (.health c.endpoint.rpcUrl))

end SupplyTrail.Client
