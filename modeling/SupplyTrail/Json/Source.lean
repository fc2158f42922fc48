import SupplyTrail.Json.Value
/-!
# Documents as they were read

A document read from text keeps its members in the order and as often as they were written.  A part that no value can
stand for (a string with a lone surrogate or with bytes that are no text, a number beyond the doubles, an array or
object nested too deep) is kept as unreadable: it spoils the document only for a reader that wants it, not where it is
skipped.  A value is a document too, with nothing unreadable in it.
-/
namespace SupplyTrail.Json

inductive Source where
  | null
  | bool (b : Bool)
  | number (n : Number)
  | string (s : String)
  | array (items : List Source)
  | object (members : List (Option String × Source))
  | unreadable
  deriving Inhabited

mutual

def toSource : Json → Source
  | .null => .null
  | .bool b => .bool b
  | .number n => .number n
  | .string s => .string s
  | .array items => .array (itemsToSource items)
  | .object members => .object (membersToSource members)

def itemsToSource : List Json → List Source
  | [] => []
  | x :: xs => x.toSource :: itemsToSource xs

def membersToSource : List (String × Json) → List (Option String × Source)
  | [] => []
  | (k, x) :: xs => (some k, x.toSource) :: membersToSource xs

end

namespace Source

mutual

/-- The value of a document, if all of it is readable.  The members of an object come in key order, and of equal keys
the last one stays. -/
def toJson? : Source → Option Json
  | .null => some .null
  | .bool b => some (.bool b)
  | .number n => some (.number n)
  | .string s => some (.string s)
  | .array items => (itemsToJson? items).map .array
  | .object members => (membersToJson? members).map .ofMembers
  | .unreadable => none

def itemsToJson? : List Source → Option (List Json)
  | [] => some []
  | x :: xs => do return (← x.toJson?) :: (← itemsToJson? xs)

def membersToJson? : List (Option String × Source) → Option (List (String × Json))
  | [] => some []
  | (k, x) :: xs => do return (← k, ← x.toJson?) :: (← membersToJson? xs)

end

end Source

end SupplyTrail.Json
