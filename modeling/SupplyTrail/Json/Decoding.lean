import SupplyTrail.Json.Printer
import SupplyTrail.Json.Source
import SupplyTrail.Text.Quoted
/-!
# Decoding documents

A decoder reads a document as a value of some type or says what does not fit.  Whole numbers and doubles are told apart:
where a whole number is wanted, `1.0` is refused.

A form lists the fields of a record.  It is read from an object, whose unknown members are skipped, or from an array
that lists the fields in order.  Fields are checked in the order in which the document has them, and only then are
missing ones looked for, in the order of the form; so of two faults in a document the one that comes first is
reported.
-/
namespace SupplyTrail.Json

/-- Why a document does not fit. -/
inductive Mismatch where
  | wrongType (got want : String)
  | wrongValue (got want : String)
  | wrongLength (count : Nat) (want : String)
  | missingField (name : String)
  | duplicateField (name : String)
  | unknownVariant
  | unreadable
  deriving DecidableEq

def Mismatch.message : Mismatch → String
  | .wrongType got want => s!"invalid type: {got}, expected {want}"
  | .wrongValue got want => s!"invalid value: {got}, expected {want}"
  | .wrongLength count want => s!"invalid length {Text.decimal count}, expected {want}"
  | .missingField name => s!"missing field `{name}`"
  | .duplicateField name => s!"duplicate field `{name}`"
  | .unknownVariant => "unknown variant"
  | .unreadable => "unreadable value"

def Source.describe : Source → String
  | .null => "null"
  | .bool b => if b then "boolean `true`" else "boolean `false`"
  | .number (.whole n) => s!"integer `{Text.decimalInt n.value}`"
  | .number (.real d) => s!"floating point `{String.ofList (Decimal.shortText d)}`"
  | .string s => "string " ++ Text.quoted s
  | .array _ => "sequence"
  | .object _ => "map"
  | .unreadable => "unreadable value"

abbrev Decoder (α : Type) := Source → Except Mismatch α

namespace Decoder

variable {α : Type}

/-- The refusal of a document of the wrong type. -/
def refuse (want : String) (s : Source) : Except Mismatch α :=
  match s with
  | .unreadable => .error .unreadable
  | _ => .error (.wrongType s.describe want)

def text : Decoder String
  | .string s => .ok s
  | s => refuse "a string" s

def flag : Decoder Bool
  | .bool b => .ok b
  | s => refuse "a boolean" s

/-- A whole number with `least ≤ n < bound`. -/
def whole (want : String) (least bound : Int) : Decoder Int
  | .number (.whole n) =>
    if least ≤ n.value ∧ n.value < bound then .ok n.value
    else .error (.wrongValue (Source.number (.whole n)).describe want)
  | s => refuse want s

def word64 : Decoder UInt64 := fun s => (whole "u64" 0 18446744073709551616 s).map fun n => UInt64.ofNat n.toNat

def word32 : Decoder UInt32 := fun s => (whole "u32" 0 4294967296 s).map fun n => UInt32.ofNat n.toNat

def signed64 : Decoder Int := whole "i64" (-9223372036854775808) 9223372036854775808

/-- Any value, if all of it is readable. -/
def value : Decoder Json := fun s =>
  match s.toJson? with
  | some j => .ok j
  | none => .error .unreadable

/-- Null, or what the decoder reads. -/
def nullable (d : Decoder α) : Decoder (Option α)
  | .null => .ok none
  | s => (d s).map some

def list (d : Decoder α) : Decoder (List α)
  | .array items => items.mapM d
  | s => refuse "a sequence" s

/-- An object whose members are all read alike. -/
def table (d : Decoder α) : Decoder (Table α)
  | .object members => (Table.ofList ·) <$> members.mapM fun (k, x) =>
      match k with
      | some k => (d x).map (k, ·)
      | none => .error .unreadable
  | s => refuse "a map" s

/-- One of a few names, as a text or as the only member of an object, with null for its value. -/
def variant (names : List (String × α)) : Decoder α
  | .string s => pick s
  | .object [(some s, .null)] => pick s
  | .unreadable => .error .unreadable
  | _ => .error .unknownVariant
where
  pick (s : String) : Except Mismatch α :=
    match valueOf? s names with
    | some a => .ok a
    | none => .error .unknownVariant

end Decoder

/-- What the absence of a field means: a fault, nothing (in an object), or its standard value. -/
inductive Absence where
  | fault
  | nothing
  | standard
  deriving DecidableEq

/-- A field of a form: its name, what it may hold, and what its absence means. -/
structure Field where
  name : String
  check : Source → Except Mismatch Unit
  absence : Absence

def Field.of {α : Type} (absence : Absence) (name : String) (d : Decoder α) : Field :=
  ⟨name, fun s => (d s).map fun _ => (), absence⟩

/-- A record's name and its fields in order. -/
structure Form where
  name : String
  fields : List Field

namespace Form

/-- The fields found in the members of an object. -/
def gather (form : Form) : List (Option String × Source) → List (String × Source) →
    Except Mismatch (List (String × Source))
  | [], found => .ok found
  | (none, _) :: _, _ => .error .unreadable
  | (some k, x) :: rest, found =>
    match form.fields.find? (·.name == k) with
    | none => form.gather rest found
    | some f =>
      if (valueOf? k found).isSome then .error (.duplicateField k)
      else do
        f.check x
        form.gather rest ((k, x) :: found)

/-- The first field of a list that must be there and was not found. -/
def missing? (found : List (String × Source)) (fields : List Field) : Option Field :=
  fields.find? fun f => f.absence == .fault && (valueOf? f.name found).isNone

/-- How a form is named where the count of an array's items matters. -/
def describe (form : Form) : String :=
  let n := form.fields.length
  s!"struct {form.name} with {Text.decimal n} element" ++ if n = 1 then "" else "s"

/-- The fields found in the items of an array of `total` items, where `count` fields have been dealt with. -/
def align (form : Form) (total : Nat) : Nat → List Field → List Source → List (String × Source) →
    Except Mismatch (List (String × Source))
  | _, [], [], found => .ok found
  | _, [], _ :: _, _ => .error (.wrongLength total "fewer elements in array")
  | count, f :: fs, [], found =>
    if f.absence = .standard then form.align total (count + 1) fs [] found
    else .error (.wrongLength count form.describe)
  | count, f :: fs, x :: xs, found => do
    f.check x
    form.align total (count + 1) fs xs ((f.name, x) :: found)

/-- The fields of a document that fits the form. -/
def locate (form : Form) : Decoder (List (String × Source))
  | .object members => do
    let found ← form.gather members []
    match missing? found form.fields with
    | some f => .error (.missingField f.name)
    | none => .ok found
  | .array items => form.align items.length 0 form.fields items []
  | s => Decoder.refuse s!"struct {form.name}" s

end Form

def need {α : Type} (found : List (String × Source)) (name : String) (d : Decoder α) : Except Mismatch α :=
  match valueOf? name found with
  | some s => d s
  | none => .error (.missingField name)

/-- A field that was found, or a standard value. -/
def needOr {α : Type} (standard : α) (found : List (String × Source)) (name : String) (d : Decoder α) :
    Except Mismatch α :=
  match valueOf? name found with
  | some s => d s
  | none => .ok standard

/-- The value a decoder reads from a JSON value, if it fits. -/
def decode? {α : Type} (d : Decoder α) (j : Json) : Option α := (d j.toSource).toOption

end SupplyTrail.Json
