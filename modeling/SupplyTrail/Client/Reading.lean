import SupplyTrail.Client.Ledger
import SupplyTrail.Product.Record
import SupplyTrail.Trail.History
/-!
# Reading a trail

A product's trail is its registration, which the product's record stands for, and then the events that the ledger lists.
At most `width` events are in hand at a time: queries that were begun and events that are not yet delivered.  They are
delivered in the ledger's order; a query is begun only when the next event is not there yet, and the events in hand are
filled up only when one is wanted.

A stream delivers failures as items and goes on after them; a history stops at the first one.
-/
namespace SupplyTrail.Client

def idArgs (product : ProductId) : Json := .object [("id", product.toJson)]

def getProduct (c : Client) (product : ProductId) : Op ProductRecord := do
  checkNetwork c
  let value ← c.query "get_product" (idArgs product) product
  match ProductRecord.decode value.toSource with
  | .ok record => return record
  | .error mismatch => throw (.malformed (.product product mismatch))

/-- The registration of a product and the numbers of its later events. -/
def trailHead (c : Client) (product : ProductId) : Op (Event × List UInt64) := do
  let record ← c.getProduct product
  let value ← c.query "get_product_event_ids" (idArgs product) product
  match Json.Decoder.list Json.Decoder.word64 value.toSource with
  | .ok ids => return (record.registerEvent, ids)
  | .error mismatch => throw (.malformed (.eventIds product mismatch))

/-- An event as it was delivered, or why it was not. -/
abbrev Item := Except ClientError Event

def eventCall (c : Client) (number : UInt64) : ContractCall :=
  c.call "get_event" (.object [("event_id", .word number)])

/-- The event in the ledger's answer, which must belong to the product. -/
def readEvent (c : Client) (product : ProductId) (number : UInt64) (reading : Reading) : Op Event := do
  let value ← c.accept none reading
  match Event.parse value with
  | .error error => throw (.malformed (.event number error))
  | .ok event =>
    if event.product ≠ product then
      note .error
        s!"Event {Text.decimal number.toNat} listed for {product.text} belongs to {event.product.text}"
      throw (.malformed (.foreignEvent number event.product product))
    return event

/-- How many events are in hand at most. -/
def width : Nat := 8

/-- Where the query for an event stands. -/
inductive Progress where
  | queued
  | out
  | back (item : Item)

def Progress.isQueued : Progress → Bool
  | .queued => true
  | .out | .back _ => false

def Progress.isOut : Progress → Bool
  | .out => true
  | .queued | .back _ => false

/-- An event in hand. -/
structure Slot where
  ticket : Ticket
  progress : Progress

/-- The events in hand and those that follow. -/
structure Window where
  slots : List Slot
  waiting : List Ticket

namespace Window

/-- A window before the first of a list of events. -/
def ofIds (ids : List UInt64) : Window :=
  ⟨[], ids.zipIdx.map fun (event, place) => ⟨place, event⟩⟩

/-- The window with as many events in hand as there may be. -/
def refill (w : Window) : Window :=
  let room := width - w.slots.length
  ⟨w.slots ++ (w.waiting.take room).map fun t => ⟨t, .queued⟩, w.waiting.drop room⟩

end Window

/-- The first event in hand whose query was not begun. -/
def firstQueued? : List Slot → Option Ticket
  | [] => none
  | s :: rest => if s.progress.isQueued then some s.ticket else firstQueued? rest

/-- The events in hand whose queries are out. -/
def ticketsOut : List Slot → List Ticket
  | [] => []
  | s :: rest => if s.progress.isOut then s.ticket :: ticketsOut rest else ticketsOut rest

/-- A query was begun: its event is there, or it is out. -/
def begun (item : Option Item) : Progress :=
  match item with
  | some item => .back item
  | none => .out

/-- Begin the query for the first queued event. -/
def markBegun (item : Option Item) : List Slot → List Slot
  | [] => []
  | s :: rest => if s.progress.isQueued then ⟨s.ticket, begun item⟩ :: rest else s :: markBegun item rest

/-- The query for an event that was out is back. -/
def markBack (ticket : Ticket) (item : Item) : List Slot → List Slot
  | [] => []
  | s :: rest =>
    if s.progress.isOut && s.ticket == ticket then ⟨s.ticket, .back item⟩ :: rest else s :: markBack ticket item rest

/-- The steps left for an event: its query is to be begun, or to come back. -/
def Progress.workLeft : Progress → Nat
  | .queued => 2
  | .out => 1
  | .back _ => 0

/-- The steps left for the events in hand. -/
def workLeft : List Slot → Nat
  | [] => 0
  | s :: rest => s.progress.workLeft + workLeft rest

theorem workLeft_markBegun {slots : List Slot} {t : Ticket} (h : firstQueued? slots = some t) (item : Option Item) :
    workLeft (markBegun item slots) < workLeft slots := by
  induction slots with
  | nil => simp [firstQueued?] at h
  | cons s rest ih =>
    obtain ⟨ticket, progress⟩ := s
    cases progress with
    | queued => cases item <;> simp [markBegun, workLeft, begun, Progress.isQueued, Progress.workLeft]
    | out =>
      have := ih (by simpa [firstQueued?, Progress.isQueued] using h)
      simpa [markBegun, workLeft, Progress.isQueued, Progress.workLeft] using this
    | back item =>
      have := ih (by simpa [firstQueued?, Progress.isQueued] using h)
      simpa [markBegun, workLeft, Progress.isQueued, Progress.workLeft] using this

theorem workLeft_markBack {slots : List Slot} {t : Ticket} (h : t ∈ ticketsOut slots) (item : Item) :
    workLeft (markBack t item slots) < workLeft slots := by
  induction slots with
  | nil => simp [ticketsOut] at h
  | cons s rest ih =>
    obtain ⟨ticket, progress⟩ := s
    cases progress with
    | queued =>
      have := ih (by simpa [ticketsOut, Progress.isOut] using h)
      simpa [markBack, workLeft, Progress.isOut, Progress.workLeft] using this
    | out =>
      by_cases ht : ticket = t
      · subst ht
        simp [markBack, workLeft, Progress.isOut, Progress.workLeft]
      · have hmem : t ∈ ticketsOut rest := by
          simp only [ticketsOut, Progress.isOut, if_true, List.mem_cons] at h
          exact h.resolve_left fun he => ht he.symm
        simpa [markBack, workLeft, Progress.isOut, Progress.workLeft, ht] using ih hmem
    | back old =>
      have := ih (by simpa [ticketsOut, Progress.isOut] using h)
      simpa [markBack, workLeft, Progress.isOut, Progress.workLeft] using this

/-- Begin the query for an event; nothing if it stays out. -/
def beginFetch (c : Client) (product : ProductId) (t : Ticket) : Run (Option Item) := do
  match ← away (.fetch t c.endpoint.rpcUrl (c.eventCall t.event)) with
  | none => return none
  | some reading => return some (← (c.readEvent product t.event reading).run)

/-- Wait for one of the queries that are out. -/
def awaitFetch (c : Client) (product : ProductId) (first : Ticket) (others : List Ticket) :
    Run ({ t : Ticket // t ∈ first :: others } × Item) := do
  let answer ← away (.settle first others)
  return (answer.1, ← (c.readEvent product answer.1.val.event answer.2).run)

theorem workLeft_settled {t u : Ticket} {rest : List Slot} (h : u ∈ t :: ticketsOut rest) (item : Item) :
    workLeft (markBack u item (⟨t, .out⟩ :: rest)) < workLeft (⟨t, .out⟩ :: rest) :=
  workLeft_markBack h item

theorem workLeft_begun (t : Ticket) (item : Option Item) (rest : List Slot) :
    workLeft (⟨t, begun item⟩ :: rest) < workLeft (⟨t, .queued⟩ :: rest) := by
  cases item <;> simp [workLeft, begun, Progress.workLeft]

/-- Work on the events in hand until the first one is there: its item and the others, or nothing if none is in hand. -/
def deliver (c : Client) (product : ProductId) (slots : List Slot) : Run (Option (Item × List Slot)) :=
  match slots with
  | [] => return none
  | ⟨_, .back item⟩ :: rest => return some (item, rest)
  | ⟨t, .queued⟩ :: rest => do
    let item ← c.beginFetch product t
    c.deliver product (⟨t, begun item⟩ :: rest)
  | ⟨t, .out⟩ :: rest =>
    match _h : firstQueued? rest with
    | some u => do
      let item ← c.beginFetch product u
      c.deliver product (⟨t, .out⟩ :: markBegun item rest)
    | none => do
      let answer ← c.awaitFetch product t (ticketsOut rest)
      c.deliver product (markBack answer.1.val answer.2 (⟨t, .out⟩ :: rest))
termination_by workLeft slots
decreasing_by
  · exact workLeft_begun t item rest
  · exact Nat.add_lt_add_left (workLeft_markBegun _h item) _
  · exact workLeft_settled answer.1.property answer.2

/-- The next item of a window and the window after it, or nothing at the end. -/
def Window.next (c : Client) (product : ProductId) (w : Window) : Run (Option (Item × Window)) := do
  match ← c.deliver product w.refill.slots with
  | some (item, slots) => return some (item, ⟨slots, w.refill.waiting⟩)
  | none => return none

/-- At most `count` events, up to the first failure. -/
def collect (c : Client) (product : ProductId) : Nat → Window → Op (List Event)
  | 0, _ => return []
  | count + 1, w => do
    match ← w.next c product with
    | none => return []
    | some (.error e, _) => throw e
    | some (.ok event, w) => return event :: (← c.collect product count w)

/-- At most `count` items, and whether the window ended before that. -/
def takeItems (c : Client) (product : ProductId) : Nat → Window → Run (List Item × Bool)
  | 0, _ => return ([], false)
  | count + 1, w => do
    match ← w.next c product with
    | none => return ([], true)
    | some (item, w) => do
      let (items, ended) ← c.takeItems product count w
      return (item :: items, ended)

/-- At most `count` items of a product's trail, and whether it ended before that.  Nothing is asked for no items. -/
def stream (c : Client) (product : ProductId) : Nat → Run (List Item × Bool)
  | 0 => return ([], false)
  | count + 1 => do
    match ← (c.trailHead product).run with
    | .error e => return ([.error e], count ≠ 0)
    | .ok (register, ids) => do
      let (items, ended) ← c.takeItems product count (.ofIds ids)
      return (.ok register :: items, ended)

/-- The whole history of a product.  Its latest time is remembered as the time the product was last seen. -/
def getHistory (c : Client) (product : ProductId) : Op History := do
  let (register, ids) ← c.trailHead product
  let events ← c.collect product ids.length (.ofIds ids)
  let history := History.ofEvents product (register :: events)
  match history.first? with
  | none => throw (.unknownProduct product)
  | some first =>
    if first.kind ≠ .register then
      note .error s!"History of {product.text} starts with {first.kind.symbol} instead of REGISTER"
      throw (.malformed (.unregistered product))
    own (.remember product history.lastTime)
    return history

def getPage (c : Client) (product : ProductId) (offset limit : Nat) : Op HistoryPage := do
  return (← c.getHistory product).page offset limit

end SupplyTrail.Client
