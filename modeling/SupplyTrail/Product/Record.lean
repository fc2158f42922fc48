import SupplyTrail.Trail.Event
/-!
# Product records

A product as the contract stores it.  The record stands for the product's first event: registration at its creation
time, with its fields of its own as metadata.
-/
namespace SupplyTrail

structure ProductRecord where
  id : ProductId
  name : String
  description : String
  /-- Where the product comes from. -/
  origin : String
  owner : String
  createdAt : UInt64
  active : Bool
  category : String
  tags : List String
  custom : Table String
  deriving DecidableEq

namespace ProductRecord

def registerEvent (r : ProductRecord) : Event :=
  ⟨r.id, .register, r.createdAt, metadataOfTexts r.custom⟩

def originJson (location : String) : Json := .object [("location", .string location)]

def toJson (r : ProductRecord) : Json :=
  .object [("id", r.id.toJson), ("name", .string r.name), ("description", .string r.description),
    ("origin", originJson r.origin), ("owner", .string r.owner), ("created_at", .word r.createdAt),
    ("active", .bool r.active), ("category", .string r.category), ("tags", ProductDetails.tagsJson r.tags),
    ("custom", ProductDetails.customJson r.custom)]

open Json.Decoder in
/-- An origin is a record with a location. -/
def decodeOrigin : Json.Decoder String := fun s => do
  let found ← (⟨"Origin", [.of .fault "location" text]⟩ : Json.Form).locate s
  Json.need found "location" text

open Json.Decoder in
def form : Json.Form :=
  ⟨"ProductRecord", [.of .fault "id" text, .of .fault "name" text, .of .standard "description" text,
    .of .fault "origin" decodeOrigin, .of .fault "owner" text, .of .fault "created_at" word64, .of .fault "active" flag,
    .of .standard "category" text, .of .standard "tags" (list text), .of .standard "custom" (table text)]⟩

open Json.Decoder in
def decode : Json.Decoder ProductRecord := fun s => do
  let found ← form.locate s
  return {
    id := ← Json.need found "id" ProductId.decode
    name := ← Json.need found "name" text
    description := ← Json.needOr "" found "description" text
    origin := ← Json.need found "origin" decodeOrigin
    owner := ← Json.need found "owner" text
    createdAt := ← Json.need found "created_at" word64
    active := ← Json.need found "active" flag
    category := ← Json.needOr "" found "category" text
    tags := ← Json.needOr [] found "tags" (list text)
    custom := ← Json.needOr .empty found "custom" (table text) }

end ProductRecord

end SupplyTrail
