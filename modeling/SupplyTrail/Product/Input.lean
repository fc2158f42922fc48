import SupplyTrail.Text.Digits
/-!
# Faults of local input

Everything that is checked before any call leaves the process.
-/
namespace SupplyTrail

/-- Why a product or an event is refused. -/
inductive InputError where
  | emptyProductId
  | productIdTooLong
  | emptyName
  | tooLong (field : String) (limit : Nat)
  | tooMany (field : String) (limit : Nat)
  | emptyMetadataKey
  | unknownEventKind (name : String)
  | invalidTimestamp (text : String)
  | malformed (detail : String)
  | registerNotAppendable
  deriving DecidableEq, Repr

/-- How long a product's texts may be, in characters, and how many tags and fields of its own it may have. -/
def maxProductId : Nat := 64
def maxName : Nat := 128
def maxDescription : Nat := 1024
def maxOrigin : Nat := 256
def maxCategory : Nat := 64
def maxTags : Nat := 20
def maxTag : Nat := 32
def maxCustomFields : Nat := 20
def maxCustomValue : Nat := 256

def InputError.message : InputError → String
  | .emptyProductId => "Product id must not be empty"
  | .productIdTooLong => s!"Product id is longer than {Text.decimal maxProductId} characters"
  | .emptyName => "Product name must not be empty"
  | .tooLong field limit => s!"{field} is longer than {Text.decimal limit} characters"
  | .tooMany field limit => s!"Too many {field}: at most {Text.decimal limit} allowed"
  | .emptyMetadataKey => "Metadata keys must not be empty"
  | .unknownEventKind name => s!"Unknown event type: {name}"
  | .invalidTimestamp text => s!"Invalid timestamp: {text}"
  | .malformed detail => s!"Malformed event record: {detail}"
  | .registerNotAppendable => "REGISTER events are only created by product registration"

end SupplyTrail
