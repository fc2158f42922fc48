import SupplyTrail.Json.Decoding
import SupplyTrail.Product.Input
import SupplyTrail.Text.Blank
/-!
# Products

A product is known by an opaque id that never changes.  `ProductDetails` is what its owner registers it with: texts,
tags and a table of fields of its own, each within limits counted in characters.  The checks are made in a fixed order
and the first one that fails is reported.
-/
namespace SupplyTrail

structure ProductId where
  text : String
  deriving DecidableEq, Repr, Inhabited

namespace ProductId

/-- Nothing but white space. -/
def isBlank (id : ProductId) : Bool := Text.isBlank id.text

def toJson (id : ProductId) : Json := .string id.text

def decode : Json.Decoder ProductId := fun s => (Json.Decoder.text s).map ProductId.mk

/-- An id names a product if it is neither blank nor too long. -/
def check (id : ProductId) : Except InputError Unit :=
  if id.isBlank then .error .emptyProductId
  else if maxProductId < id.text.length then .error .productIdTooLong
  else .ok ()

def ofBytes (bytes : List UInt8) : ProductId := ⟨Text.encodeHex bytes⟩

end ProductId

/-- Values of any shape under keys of the producer's choice. -/
abbrev Metadata := Table Json

/-- Metadata with no blank key. -/
def checkMetadata (m : Metadata) : Except InputError Unit :=
  if m.keys.any Text.isBlank then .error .emptyMetadataKey else .ok ()

def metadataOfTexts (t : Table String) : Metadata := t.map .string

structure ProductDetails where
  id : ProductId
  name : String
  description : String
  origin : String
  category : String
  tags : List String
  custom : Table String
  deriving DecidableEq

namespace ProductDetails

/-- Details with nothing but an id, which is the name too. -/
def ofId (id : ProductId) : ProductDetails :=
  ⟨id, id.text, "", "", "", [], .empty⟩

def addTag (d : ProductDetails) (tag : String) : ProductDetails := { d with tags := d.tags ++ [tag] }

def addField (d : ProductDetails) (key value : String) : ProductDetails :=
  { d with custom := d.custom.insert key value }

/-- The metadata of the event that registers the product. -/
def registerMetadata (d : ProductDetails) : Metadata := metadataOfTexts d.custom

def checkLength (field text : String) (limit : Nat) : Except InputError Unit :=
  if limit < text.length then .error (.tooLong field limit) else .ok ()

def checkCount (field : String) (count limit : Nat) : Except InputError Unit :=
  if limit < count then .error (.tooMany field limit) else .ok ()

def checkTags : List String → Except InputError Unit
  | [] => .ok ()
  | tag :: rest => do
    checkLength "tag" tag maxTag
    checkTags rest

/-- Fields in key order, each with its key before its value. -/
def checkFields : List (String × String) → Except InputError Unit
  | [] => .ok ()
  | (key, value) :: rest => do
    if Text.isBlank key then throw .emptyMetadataKey
    checkLength "custom field value" value maxCustomValue
    checkFields rest

/-- Every limit on the details, the first broken one being reported. -/
def check (d : ProductDetails) : Except InputError Unit := do
  d.id.check
  if Text.isBlank d.name then throw .emptyName
  checkLength "name" d.name maxName
  checkLength "description" d.description maxDescription
  checkLength "origin" d.origin maxOrigin
  checkLength "category" d.category maxCategory
  checkCount "tags" d.tags.length maxTags
  checkTags d.tags
  checkCount "custom fields" d.custom.size maxCustomFields
  checkFields d.custom.entries

def tagsJson (tags : List String) : Json := .array (tags.map .string)

def customJson (custom : Table String) : Json := .ofTable (metadataOfTexts custom)

def toJson (d : ProductDetails) : Json :=
  .object [("id", d.id.toJson), ("name", .string d.name), ("description", .string d.description),
    ("origin_location", .string d.origin), ("category", .string d.category), ("tags", tagsJson d.tags),
    ("custom", customJson d.custom)]

open Json.Decoder in
def form : Json.Form :=
  ⟨"product details", [.of .fault "id" text, .of .fault "name" text, .of .standard "description" text,
    .of .standard "origin_location" text, .of .standard "category" text, .of .standard "tags" (list text),
    .of .standard "custom" (table text)]⟩

open Json.Decoder in
def decode : Json.Decoder ProductDetails := fun s => do
  let found ← form.locate s
  return {
    id := ← Json.need found "id" ProductId.decode
    name := ← Json.need found "name" text
    description := ← Json.needOr "" found "description" text
    origin := ← Json.needOr "" found "origin_location" text
    category := ← Json.needOr "" found "category" text
    tags := ← Json.needOr [] found "tags" (list text)
    custom := ← Json.needOr .empty found "custom" (table text) }

end ProductDetails

end SupplyTrail
