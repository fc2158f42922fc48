import SupplyTrail.Trail.Event
/-!
# Histories and pages

The history of a product lists its events in the order of their times; events of one time keep the order in which the
ledger lists them.  A page is a run of a history with its total length and whether more follows.
-/
namespace SupplyTrail

structure HistoryPage where
  events : List Event
  total : Nat
  hasMore : Bool
  deriving DecidableEq

structure History where
  product : ProductId
  events : List Event
  deriving DecidableEq

namespace History

/-- Order events by time, keeping the given order among equal times. -/
def ofEvents (product : ProductId) (events : List Event) : History :=
  ⟨product, events.mergeSort fun a b => a.time ≤ b.time⟩

def first? (h : History) : Option Event := h.events.head?

def last? (h : History) : Option Event := h.events.getLast?

/-- The time of the latest event, or the epoch if there is none. -/
def lastTime (h : History) : UInt64 :=
  match h.last? with
  | some e => e.time
  | none => 0

/-- At most `limit` events from the one at `offset` on. -/
def page (h : History) (offset limit : Nat) : HistoryPage :=
  let events := (h.events.drop offset).take limit
  ⟨events, h.events.length, offset + events.length < h.events.length⟩

end History

namespace HistoryPage

def toJson (p : HistoryPage) : Json :=
  .object [("events", .array (p.events.map Event.toJson)), ("total_count", .word (UInt64.ofNat p.total)),
    ("has_more", .bool p.hasMore)]

open Json.Decoder in
def form : Json.Form :=
  ⟨"page", [.of .fault "events" (list Event.decode), .of .fault "total_count" word64, .of .fault "has_more" flag]⟩

open Json.Decoder in
def decode : Json.Decoder HistoryPage := fun s => do
  let found ← form.locate s
  return {
    events := ← Json.need found "events" (list Event.decode)
    total := (← Json.need found "total_count" word64).toNat
    hasMore := ← Json.need found "has_more" flag }

end HistoryPage

end SupplyTrail
