import SupplyTrail.Proofs.Ledger.Drafts
/-!
# Arguments — what a drafted call says

The arguments of a registration decode to the details that were registered and to its time, those of an append to the
event that was appended: nothing of what a client was asked for is lost in the call.
-/
namespace SupplyTrail

open Client (registerArgs appendArgs)
open Json Json.Decoder

/-- The time that a registration names. -/
def createdAt? (args : Json) : Option UInt64 := (args.member? "created_at").bind (decode? word64)

theorem createdAt?_registerArgs (d : ProductDetails) (owner : String) (time : UInt64) :
    createdAt? (registerArgs d owner time) = some time := by
  have hmember : (registerArgs d owner time).member? "created_at" = some (.word time) := by
    simp [registerArgs, Json.member?, valueOf?]
  rw [createdAt?, hmember, Option.bind_some, decode?, word64_word]
  rfl

/-- **The arguments of a registration decode to its details.** -/
theorem decode_registerArgs (d : ProductDetails) (owner : String) (time : UInt64) :
    ProductDetails.decode (registerArgs d owner time).toSource = .ok d := by
  have hcustom := table_strings d.custom
  have htags := list_strings d.tags
  have hdoc : (registerArgs d owner time).toSource = .object (keyed [("category", .string d.category),
      ("created_at", (Json.word time).toSource), ("custom", (ofTable (metadataOfTexts d.custom)).toSource),
      ("description", .string d.description), ("id", .string d.id.text), ("name", .string d.name),
      ("origin_location", .string d.origin), ("owner", .string owner),
      ("tags", (array (d.tags.map Json.string)).toSource)]) := rfl
  generalize (Json.word time).toSource = createdDoc at hdoc
  generalize (ofTable (metadataOfTexts d.custom)).toSource = customDoc at hcustom hdoc
  generalize (array (d.tags.map Json.string)).toSource = tagsDoc at htags hdoc
  have hfits : ProductDetails.form.Fits [("category", .string d.category), ("custom", customDoc),
      ("description", .string d.description), ("id", .string d.id.text), ("name", .string d.name),
      ("origin_location", .string d.origin), ("tags", tagsDoc)] := by
    refine ⟨show ["category", "custom", "description", "id", "name", "origin_location", "tags"].Nodup by decide, ?_,
      show ["id", "name", "description", "origin_location", "category", "tags", "custom"] ⊆
        ["category", "custom", "description", "id", "name", "origin_location", "tags"] by decide⟩
    simp only [List.forall_mem_cons, List.not_mem_nil, false_imp_iff, implies_true, and_true]
    exact ⟨⟨_, rfl, rfl⟩, ⟨_, rfl, Field.check_of hcustom⟩, ⟨_, rfl, rfl⟩, ⟨_, rfl, rfl⟩, ⟨_, rfl, rfl⟩,
      ⟨_, rfl, rfl⟩, ⟨_, rfl, Field.check_of htags⟩⟩
  obtain ⟨found, hfound, hvalue⟩ := hfits.locate
  -- the time and the owner are no fields of the details
  have hlocate : ProductDetails.form.locate (registerArgs d owner time).toSource = .ok found := by
    rw [hdoc, ← Form.locate_known]
    exact hfound
  have h₁ := need_of_found (d := ProductId.decode) (hvalue "id" (.string d.id.text) (by simp)) rfl
  have h₂ := need_of_found (d := text) (hvalue "name" (.string d.name) (by simp)) rfl
  have h₃ := needOr_of_found "" (d := text) (hvalue "description" (.string d.description) (by simp)) rfl
  have h₄ := needOr_of_found "" (d := text) (hvalue "origin_location" (.string d.origin) (by simp)) rfl
  have h₅ := needOr_of_found "" (d := text) (hvalue "category" (.string d.category) (by simp)) rfl
  have h₆ := needOr_of_found [] (hvalue "tags" tagsDoc (by simp)) htags
  have h₇ := needOr_of_found .empty (hvalue "custom" customDoc (by simp)) hcustom
  rw [ProductDetails.decode, hlocate]
  simp only [bind, Except.bind, h₁, h₂, h₃, h₄, h₅, h₆, h₇]
  rfl

/-- **The arguments of an append are parsed as its event**, if that was checked. -/
theorem parse_appendArgs {e : Event} (hcheck : Event.check e = .ok e) (actor : String) :
    Event.parse (appendArgs e actor) = .ok e := by
  simp [appendArgs, Event.parse, Event.textOfEither?, Event.parseTime, Event.parseMetadata, valueOf?,
    ProductId.toJson, EventKind.parse_symbol, Json.word, Whole.word?_ofWord, Json.ofTable, Table.ofList_entries,
    hcheck, bind, Except.bind]

end SupplyTrail
