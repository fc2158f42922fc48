import SupplyTrail.Proofs.Checks
import SupplyTrail.Proofs.Trail.Parsing
/-!
# Limits — which details of a product are accepted, and which fault is reported of others

The check of details is a list of requirements (`ProductDetails.requirements`), enforced from the first to the last
(`check_eq_enforce`).  So details are accepted exactly if they are within every limit, and otherwise the first broken
requirement is reported.  The event that registers accepted details passes its own check.
-/
namespace SupplyTrail

theorem isBlank_iff {s : String} : Text.isBlank s = true ↔ Text.trim s = "" := Text.isBlank_iff_trim_eq_empty s

namespace ProductDetails

/-- A text is not blank. -/
def named (text : String) (fault : InputError) : Requirement InputError := ⟨Text.trim text = "", fault⟩

/-- A text, or a collection, is not larger than a limit. -/
def atMost (size limit : Nat) (fault : InputError) : Requirement InputError := ⟨limit < size, fault⟩

/-- What is demanded of a field of the producer's own: a key, and then a value that is short enough. -/
def fieldRequirements (field : String × String) : List (Requirement InputError) :=
  [named field.1 .emptyMetadataKey, atMost field.2.length 256 (.tooLong "custom field value" 256)]

/-- What is demanded of details, in the order in which it is checked: tags in the order of their list, fields in the
order of their keys. -/
def requirements (d : ProductDetails) : List (Requirement InputError) :=
  [named d.id.text .emptyProductId, atMost d.id.text.length 64 .productIdTooLong,
    named d.name .emptyName, atMost d.name.length 128 (.tooLong "name" 128),
    atMost d.description.length 1024 (.tooLong "description" 1024), atMost d.origin.length 256 (.tooLong "origin" 256),
    atMost d.category.length 64 (.tooLong "category" 64), atMost d.tags.length 20 (.tooMany "tags" 20)] ++
  d.tags.map (fun tag => atMost tag.length 32 (.tooLong "tag" 32)) ++
  atMost d.custom.size 20 (.tooMany "custom fields" 20) :: d.custom.entries.flatMap fieldRequirements

/-- Details within every limit, texts being counted in characters. -/
structure WithinLimits (d : ProductDetails) : Prop where
  id : Text.trim d.id.text ≠ "" ∧ d.id.text.length ≤ 64
  name : Text.trim d.name ≠ "" ∧ d.name.length ≤ 128
  description : d.description.length ≤ 1024
  origin : d.origin.length ≤ 256
  category : d.category.length ≤ 64
  tags : d.tags.length ≤ 20 ∧ ∀ tag ∈ d.tags, tag.length ≤ 32
  custom : d.custom.size ≤ 20 ∧ ∀ field ∈ d.custom.entries, Text.trim field.1 ≠ "" ∧ field.2.length ≤ 256

theorem enforce_named {text : String} {fault : InputError} {rs : List (Requirement InputError)} :
    enforce (named text fault :: rs) = if Text.isBlank text then .error fault else enforce rs := by
  rw [enforce]
  exact if_congr isBlank_iff.symm rfl rfl

theorem enforce_atMost {size limit : Nat} {fault : InputError} {rs : List (Requirement InputError)} :
    enforce (atMost size limit fault :: rs) =
      (if limit < size then .error fault else .ok ()) >>= fun _ => enforce rs := by
  rw [enforce, atMost]
  split <;> rfl

theorem checkId_eq (id : ProductId) (rs : List (Requirement InputError)) :
    enforce (named id.text .emptyProductId :: atMost id.text.length 64 .productIdTooLong :: rs) =
      id.check >>= fun _ => enforce rs := by
  rw [enforce_named, enforce_atMost, ProductId.check, ProductId.isBlank]
  split <;> rfl

theorem checkTags_eq (tags : List String) :
    checkTags tags = enforce (tags.map fun tag => atMost tag.length 32 (.tooLong "tag" 32)) := by
  induction tags with
  | nil => rfl
  | cons tag tags ih => rw [checkTags, ih, List.map_cons, enforce_atMost]; rfl

theorem checkFields_eq (fields : List (String × String)) :
    checkFields fields = enforce (fields.flatMap fieldRequirements) := by
  induction fields with
  | nil => rfl
  | cons field fields ih =>
    obtain ⟨key, value⟩ := field
    rw [checkFields, List.flatMap_cons, fieldRequirements, List.cons_append, List.cons_append, List.nil_append,
      enforce_named, enforce_atMost, ih]
    split <;> rfl

/-- **The check of details enforces what is demanded of them, one requirement after the other.** -/
theorem check_eq_enforce (d : ProductDetails) : d.check = enforce d.requirements := by
  rw [check, checkTags_eq, checkFields_eq, requirements, List.append_assoc, List.cons_append, List.cons_append,
    checkId_eq]
  simp only [List.cons_append, List.nil_append, enforce_named, enforce_atMost, enforce_append]
  cases Text.isBlank d.name <;> rfl

theorem fieldRequirements_met_iff {fields : List (String × String)} :
    (∀ r ∈ fields.flatMap fieldRequirements, ¬ r.broken) ↔
      ∀ field ∈ fields, Text.trim field.1 ≠ "" ∧ field.2.length ≤ 256 := by
  rw [List.forall_mem_flatMap]
  refine forall₂_congr fun field _ => ?_
  simp only [fieldRequirements, named, atMost, List.forall_mem_cons, Nat.not_lt]
  exact ⟨fun ⟨hkey, hvalue, _⟩ => ⟨hkey, hvalue⟩, fun ⟨hkey, hvalue⟩ => ⟨hkey, hvalue, nofun⟩⟩

/-- **Details are accepted exactly if they are within every limit.** -/
theorem check_eq_ok_iff {d : ProductDetails} : d.check = .ok () ↔ d.WithinLimits := by
  rw [check_eq_enforce, enforce_eq_ok_iff, requirements]
  simp only [List.forall_mem_append, List.forall_mem_cons, List.forall_mem_map, fieldRequirements_met_iff]
  simp only [named, atMost, Nat.not_lt]
  constructor
  · rintro ⟨⟨⟨hid, hidSize, hname, hnameSize, hdescription, horigin, hcategory, hcount, -⟩, htags⟩, hfields, hcustom⟩
    exact ⟨⟨hid, hidSize⟩, ⟨hname, hnameSize⟩, hdescription, horigin, hcategory, ⟨hcount, htags⟩, hfields, hcustom⟩
  · rintro ⟨⟨hid, hidSize⟩, ⟨hname, hnameSize⟩, hdescription, horigin, hcategory, ⟨hcount, htags⟩, hfields, hcustom⟩
    exact ⟨⟨⟨hid, hidSize, hname, hnameSize, hdescription, horigin, hcategory, hcount, nofun⟩, htags⟩, hfields, hcustom⟩

/-- **Of other details the first fault is reported.** -/
theorem check_eq_error_iff {d : ProductDetails} {e : InputError} : d.check = .error e ↔
    ∃ before r after, d.requirements = before ++ r :: after ∧ (∀ r' ∈ before, ¬ r'.broken) ∧ r.broken ∧
      r.fault = e := by
  rw [check_eq_enforce, enforce_eq_error_iff]

example : check { ofId ⟨"P1"⟩ with
    name := "\u00a0", tags := ["0123456789abcdef0123456789abcdefé"],
    custom := Table.empty.insert " " "" } = .error .emptyName := by
  decide

theorem check_registerEvent {d : ProductDetails} (h : d.check = .ok ()) (time : UInt64) :
    Event.check ⟨d.id, .register, time, d.registerMetadata⟩ = .ok ⟨d.id, .register, time, d.registerMetadata⟩ := by
  have hlimits := check_eq_ok_iff.1 h
  refine Event.check_eq_ok_iff.2 ⟨rfl, hlimits.id.1, hlimits.id.2, fun k hk => ?_⟩
  have hkeys : d.registerMetadata.keys = d.custom.keys := by
    simp [registerMetadata, metadataOfTexts, Table.keys, Table.map]
  obtain ⟨field, hfield, rfl⟩ := List.mem_map.1 (hkeys ▸ hk)
  exact (hlimits.custom.2 field hfield).1

end ProductDetails

end SupplyTrail
