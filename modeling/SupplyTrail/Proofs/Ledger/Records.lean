import SupplyTrail.Client.Writing
import SupplyTrail.Proofs.Ledger.Envelope
/-!
# Records — what the ledger writes down is accepted again

The record of a registration that a client drafted is decoded into the product that was registered, and the record of an
event that a client checked is parsed into that event: with other doubles in its metadata perhaps, but with the same
product, kind, time and keys.
-/
namespace SupplyTrail

open Client (registerArgs appendArgs)
open Rehearsal.Store (arg textArg eventRecord productRecord)

namespace Rehearsal.Store

theorem productRecord_eq (args : Json) : productRecord args =
    .object [("active", .bool true), ("category", arg args "category"), ("created_at", arg args "created_at"),
      ("custom", arg args "custom"), ("description", arg args "description"), ("id", arg args "id"),
      ("name", arg args "name"), ("origin", .object [("location", arg args "origin_location")]),
      ("owner", arg args "owner"), ("tags", arg args "tags")] := by
  simp only [productRecord, Json.ofMembers, Json.ofTable, Table.ofList, Table.insert, Table.empty, List.foldl_cons,
    List.foldl_nil, putEntry, String.reduceLT, String.reduceEq, ↓reduceIte]

theorem eventRecord_eq (number : Nat) (args : Json) : eventRecord number args =
    .object [("actor", arg args "actor"), ("event_id", .word (UInt64.ofNat number)),
      ("event_type", arg args "event_type"), ("metadata", arg args "metadata"),
      ("product_id", arg args "product_id"), ("timestamp", arg args "timestamp")] := by
  simp only [eventRecord, Json.ofMembers, Json.ofTable, Table.ofList, Table.insert, Table.empty, List.foldl_cons,
    List.foldl_nil, putEntry, String.reduceLT, String.reduceEq, ↓reduceIte]

theorem arg_outline {args like : Json} (h : args.outline = like.outline) (name : String) :
    (arg args name).outline = (arg like name).outline := by
  have hmember : (args.member? name).map Json.outline = (like.member? name).map Json.outline := by
    rw [← Json.member?_outline, h, Json.member?_outline]
  unfold arg
  cases hargs : args.member? name with
  | none => cases hlike : like.member? name <;> simp_all
  | some x => cases hlike : like.member? name <;> simp_all

end Rehearsal.Store

/-! ## Registrations -/

def ProductDetails.recorded (d : ProductDetails) (owner : String) (time : UInt64) : ProductRecord :=
  ⟨d.id, d.name, d.description, d.origin, owner, time, true, d.category, d.tags, d.custom⟩

open Json in
theorem noRealMembers_strings (entries : List (String × String)) :
    NoRealMembers (entries.map fun e => (e.1, Json.string e.2)) := by
  induction entries with
  | nil => trivial
  | cons e rest ih => exact ⟨trivial, ih⟩

open Json in
theorem noRealItems_strings (texts : List String) : NoRealItems (texts.map Json.string) := by
  induction texts with
  | nil => trivial
  | cons s rest ih => exact ⟨trivial, ih⟩

open Json in
theorem noReal_registerArgs (d : ProductDetails) (owner : String) (time : UInt64) :
    (registerArgs d owner time).NoReal := by
  have hcustom : (ProductDetails.customJson d.custom).NoReal := noRealMembers_strings d.custom.entries
  have htags : (ProductDetails.tagsJson d.tags).NoReal := noRealItems_strings d.tags
  simp [registerArgs, NoReal, NoRealMembers, ProductId.toJson, word, hcustom, htags]

open Json in
theorem mapM_itemsToSource {α β : Type} {write : α → Json} {read : Source → Except Mismatch β} {value : α → β}
    (h : ∀ x, read (write x).toSource = .ok (value x)) (xs : List α) :
    (itemsToSource (xs.map write)).mapM read = .ok (xs.map value) := by
  induction xs with
  | nil => rfl
  | cons x rest ih =>
    rw [List.map_cons, itemsToSource, List.mapM_cons, h, ih]
    rfl

open Json in
theorem mapM_membersToSource {read : Option String × Source → Except Mismatch (String × String)}
    (h : ∀ k s, read (some k, .string s) = .ok (k, s)) (entries : List (String × String)) :
    (membersToSource (entries.map fun e => (e.1, Json.string e.2))).mapM read = .ok entries := by
  induction entries with
  | nil => rfl
  | cons e rest ih =>
    have hhead : read (some e.1, (Json.string e.2).toSource) = .ok e := h e.1 e.2
    rw [List.map_cons, membersToSource, List.mapM_cons, hhead, ih]
    rfl

open Json Json.Decoder in
theorem list_strings (texts : List String) : list text (array (texts.map Json.string)).toSource = .ok texts := by
  have hread : ∀ s, text (Json.string s).toSource = .ok (id s) := fun _ => rfl
  have hitems := mapM_itemsToSource hread texts
  rw [List.map_id] at hitems
  exact hitems

open Json Json.Decoder in
theorem table_strings (t : Table String) : table text (ofTable (metadataOfTexts t)).toSource = .ok t := by
  refine Eq.trans (congrArg (Table.ofList <$> ·) (mapM_membersToSource ?_ t.entries))
    (congrArg Except.ok (Table.ofList_entries t))
  exact fun _ _ => rfl

open Json.Decoder in
theorem word64_word (n : UInt64) : word64 (Json.word n).toSource = .ok n := by
  have hrange : (0 : Int) ≤ n.toNat ∧ (n.toNat : Int) < 18446744073709551616 := by
    have := n.toNat_lt
    omega
  simp only [word64, Json.word, Json.toSource, whole, Whole.ofWord]
  rw [if_pos hrange]
  simp [Except.map]

open Json Json.Decoder in
theorem decodeOrigin_location (s : String) :
    ProductRecord.decodeOrigin (object [("location", Json.string s)]).toSource = .ok s := by
  simp [ProductRecord.decodeOrigin, toSource, membersToSource, Form.locate, Form.gather, Form.missing?, Field.of,
    valueOf?,
    need, text, Except.map, bind, Except.bind]

open Json Json.Decoder in
/-- **The record of a drafted registration is decoded as the registered product.** -/
theorem decode_productRecord {args : Json} {d : ProductDetails} {owner : String} {time : UInt64}
    (h : args.outline = (registerArgs d owner time).outline) :
    ProductRecord.decode (productRecord args).toSource = .ok (d.recorded owner time) := by
  obtain rfl := eq_of_outline_eq (noReal_registerArgs d owner time) h
  have hcreated := word64_word time
  have hcustom := table_strings d.custom
  have htags := list_strings d.tags
  have horigin := decodeOrigin_location d.origin
  have hdoc : (productRecord (registerArgs d owner time)).toSource = .object (keyed [("active", .bool true),
      ("category", .string d.category), ("created_at", (Json.word time).toSource),
      ("custom", (ofTable (metadataOfTexts d.custom)).toSource), ("description", .string d.description),
      ("id", .string d.id.text), ("name", .string d.name),
      ("origin", (object [("location", Json.string d.origin)]).toSource), ("owner", .string owner),
      ("tags", (array (d.tags.map Json.string)).toSource)]) := by
    rw [Rehearsal.Store.productRecord_eq]
    rfl
  generalize (Json.word time).toSource = createdDoc at hcreated hdoc
  generalize (ofTable (metadataOfTexts d.custom)).toSource = customDoc at hcustom hdoc
  generalize (array (d.tags.map Json.string)).toSource = tagsDoc at htags hdoc
  generalize (object [("location", Json.string d.origin)]).toSource = originDoc at horigin hdoc
  have hfits : ProductRecord.form.Fits [("active", .bool true), ("category", .string d.category),
      ("created_at", createdDoc), ("custom", customDoc), ("description", .string d.description),
      ("id", .string d.id.text),
      ("name", .string d.name), ("origin", originDoc), ("owner", .string owner), ("tags", tagsDoc)] := by
    refine ⟨show ["active", "category", "created_at", "custom", "description", "id", "name", "origin", "owner",
        "tags"].Nodup by decide, ?_,
      show ["id", "name", "description", "origin", "owner", "created_at", "active", "category", "tags", "custom"] ⊆
        ["active", "category", "created_at", "custom", "description", "id", "name", "origin", "owner", "tags"]
        by decide⟩
    simp only [List.forall_mem_cons, List.not_mem_nil, false_imp_iff, implies_true, and_true]
    exact ⟨⟨_, rfl, rfl⟩, ⟨_, rfl, rfl⟩, ⟨_, rfl, Field.check_of hcreated⟩, ⟨_, rfl, Field.check_of hcustom⟩,
      ⟨_, rfl, rfl⟩, ⟨_, rfl, rfl⟩, ⟨_, rfl, rfl⟩, ⟨_, rfl, Field.check_of horigin⟩, ⟨_, rfl, rfl⟩,
      ⟨_, rfl, Field.check_of htags⟩⟩
  obtain ⟨found, hfound, hvalue⟩ := hfits.locate
  have h₁ := need_of_found (d := ProductId.decode) (hvalue "id" (.string d.id.text) (by simp)) rfl
  have h₂ := need_of_found (d := text) (hvalue "name" (.string d.name) (by simp)) rfl
  have h₃ := needOr_of_found "" (d := text) (hvalue "description" (.string d.description) (by simp)) rfl
  have h₄ := need_of_found (hvalue "origin" originDoc (by simp)) horigin
  have h₅ := need_of_found (d := text) (hvalue "owner" (.string owner) (by simp)) rfl
  have h₆ := need_of_found (hvalue "created_at" createdDoc (by simp)) hcreated
  have h₇ := need_of_found (d := flag) (hvalue "active" (.bool true) (by simp)) rfl
  have h₈ := needOr_of_found "" (d := text) (hvalue "category" (.string d.category) (by simp)) rfl
  have h₉ := needOr_of_found [] (hvalue "tags" tagsDoc (by simp)) htags
  have h₀ := needOr_of_found .empty (hvalue "custom" customDoc (by simp)) hcustom
  rw [hdoc, ProductRecord.decode, hfound]
  simp only [bind, Except.bind, h₁, h₂, h₃, h₄, h₅, h₆, h₇, h₈, h₉, h₀]
  rfl

/-! ## Events -/

theorem EventKind.map_toUpper_symbol (k : EventKind) : k.symbol.map Char.toUpper = k.symbol := by
  rw [← String.toList_inj, String.toList_map]
  cases k <;> decide

theorem EventKind.parse_symbol (k : EventKind) : EventKind.parse k.symbol = .ok k := by
  have hname : valueOf? k.symbol EventKind.names = some k := by cases k <;> decide
  rw [EventKind.parse, EventKind.map_toUpper_symbol, hname]

/-- The arguments of an append whose metadata may hold other doubles. -/
theorem metadata_of_like {args : Json} {e : Event} {actor : String} (h : args.outline = (appendArgs e actor).outline) :
    ∃ m : Metadata, arg args "metadata" = .ofTable m ∧ m.keys = e.metadata.keys := by
  have harg := Rehearsal.Store.arg_outline h "metadata"
  have hlike : (arg (appendArgs e actor) "metadata").outline = .object (Json.membersOutline e.metadata.entries) := rfl
  obtain ⟨entries, hentries, hout⟩ := Json.outline_eq_object (harg.trans hlike)
  have hkeys : entries.map Prod.fst = e.metadata.keys := by
    rw [← Json.keys_membersOutline, hout, Json.keys_membersOutline, Table.keys]
  have hinc : Increasing entries := by
    rw [Increasing, hkeys]
    exact e.metadata.increasing
  exact ⟨⟨entries, hinc⟩, hentries, hkeys⟩

theorem Event.check_keys {e : Event} {m : Metadata} (h : Event.check e = .ok e) (hkeys : m.keys = e.metadata.keys) :
    Event.check { e with metadata := m } = .ok { e with metadata := m } := by
  unfold Event.check checkMetadata at h ⊢
  rw [hkeys]
  cases hid : e.product.check with
  | error err => rw [hid] at h; cases h
  | ok _ =>
    cases hblank : e.metadata.keys.any Text.isBlank with
    | true => rw [hid, hblank] at h; cases h
    | false => rfl

/-- The record of an event is parsed, whatever its number and its actor. -/
theorem parse_eventRecord {args : Json} {e : Event} {m : Metadata} (hproduct : arg args "product_id" = e.product.toJson)
    (hkind : arg args "event_type" = .string e.kind.symbol) (htime : arg args "timestamp" = .word e.time)
    (hmeta : arg args "metadata" = .ofTable m)
    (hcheck : Event.check { e with metadata := m } = .ok { e with metadata := m })
    (number : Nat) : Event.parse (eventRecord number args) = .ok { e with metadata := m } := by
  rw [Rehearsal.Store.eventRecord_eq, hproduct, hkind, htime, hmeta]
  simp [Event.parse, Event.textOfEither?, Event.parseTime, Event.parseMetadata, valueOf?, ProductId.toJson,
    EventKind.parse_symbol, Json.word, Whole.word?_ofWord, Json.ofTable, Table.ofList_entries, hcheck, bind,
      Except.bind]

/-- **The record of a checked event is parsed as that event**, but for doubles in its metadata. -/
theorem parse_eventRecord_like {args : Json} {e : Event} {actor : String}
    (h : args.outline = (appendArgs e actor).outline) (hcheck : Event.check e = .ok e) (number : Nat) :
    ∃ m : Metadata,
      m.keys = e.metadata.keys ∧ Event.parse (eventRecord number args) = .ok { e with metadata := m } := by
  obtain ⟨m, hmeta, hkeys⟩ := metadata_of_like h
  have harg := Rehearsal.Store.arg_outline h
  exact ⟨m, hkeys, parse_eventRecord (Json.outline_eq_string (harg "product_id"))
    (Json.outline_eq_string (harg "event_type")) (Json.outline_eq_word (harg "timestamp")) hmeta
    (Event.check_keys hcheck hkeys) number⟩

/-- The record of a checked event is parsed as it was, if the arguments are those that were drafted. -/
theorem parse_eventRecord_appendArgs {e : Event} (hcheck : Event.check e = .ok e) (actor : String) (number : Nat) :
    Event.parse (eventRecord number (appendArgs e actor)) = .ok e :=
  parse_eventRecord rfl rfl rfl rfl hcheck number

end SupplyTrail
