import SupplyTrail.Proofs.Ledger.Records
/-!
# Drafts — which drafted calls come through unchanged

A drafted registration always does; an append does if its metadata holds no doubles and does not nest too deep.
-/
namespace SupplyTrail

open Client (registerArgs appendArgs)
open Json

/-- Metadata that is read back as it was written: no doubles, and values that nest at most 123 deep.  The members of
every object inside come in key order. -/
structure Faithful (m : Metadata) : Prop where
  noReal : ∀ v ∈ m.values, v.NoReal
  ordered : ∀ v ∈ m.values, v.Ordered
  depth : ∀ v ∈ m.values, v.depth ≤ 123

/-- Arguments that are read back as they were written. -/
structure Plain (args : Json) : Prop where
  noReal : args.NoReal
  ordered : args.Ordered
  depth : args.depth ≤ 125

theorem Plain.ofBytes? {i : Invocation} (h : Plain i.call.args) : Invocation.ofBytes? i.toBytes = some i :=
  Invocation.ofBytes?_toBytes h.noReal h.ordered h.depth

theorem noRealMembers_iff (members : List (String × Json)) :
    NoRealMembers members ↔ ∀ v ∈ members.map Prod.snd, v.NoReal := by
  induction members with
  | nil => simp [NoRealMembers]
  | cons m rest ih =>
    rw [NoRealMembers, List.map_cons, List.forall_mem_cons, ih]

theorem orderedMembers_iff (members : List (String × Json)) :
    OrderedMembers members ↔ ∀ v ∈ members.map Prod.snd, v.Ordered := by
  induction members with
  | nil => simp [OrderedMembers]
  | cons m rest ih =>
    rw [OrderedMembers, List.map_cons, List.forall_mem_cons, ih]

theorem depthMembers_le_iff (members : List (String × Json)) (n : Nat) :
    depthMembers members ≤ n ↔ ∀ v ∈ members.map Prod.snd, v.depth ≤ n := by
  induction members with
  | nil => simp [depthMembers]
  | cons m rest ih =>
    rw [depthMembers, List.map_cons, List.forall_mem_cons, ← ih, Nat.max_le]

theorem depthItems_le_iff (items : List Json) (n : Nat) : depthItems items ≤ n ↔ ∀ v ∈ items, v.depth ≤ n := by
  induction items with
  | nil => simp [depthItems]
  | cons x rest ih =>
    rw [depthItems, List.forall_mem_cons, ← ih, Nat.max_le]

theorem orderedItems_strings (texts : List String) : OrderedItems (texts.map Json.string) := by
  induction texts with
  | nil => trivial
  | cons s rest ih => exact ⟨trivial, ih⟩

theorem faithful_metadataOfTexts (t : Table String) : Faithful (metadataOfTexts t) := by
  have hstring : ∀ v ∈ (metadataOfTexts t).values, ∃ s, v = Json.string s := by
    intro v hv
    rw [metadataOfTexts, Table.map, Table.values, List.map_map] at hv
    obtain ⟨e, -, rfl⟩ := List.mem_map.1 hv
    exact ⟨e.2, rfl⟩
  refine ⟨fun v hv => ?_, fun v hv => ?_, fun v hv => ?_⟩
  · obtain ⟨s, rfl⟩ := hstring v hv
    trivial
  · obtain ⟨s, rfl⟩ := hstring v hv
    trivial
  · obtain ⟨s, rfl⟩ := hstring v hv
    exact Nat.zero_le _

theorem Faithful.ordered_ofTable {m : Metadata} (h : Faithful m) : (Json.ofTable m).Ordered :=
  ⟨m.increasing, (orderedMembers_iff m.entries).2 h.ordered⟩

theorem Faithful.depth_ofTable {m : Metadata} (h : Faithful m) : (Json.ofTable m).depth ≤ 124 :=
  Nat.succ_le_succ ((depthMembers_le_iff m.entries 123).2 h.depth)

/-- **A drafted registration comes through unchanged.** -/
theorem plain_registerArgs (d : ProductDetails) (owner : String) (time : UInt64) :
    Plain (registerArgs d owner time) := by
  have hcustom := (faithful_metadataOfTexts d.custom).ordered_ofTable
  have hdepth := (faithful_metadataOfTexts d.custom).depth_ofTable
  have htags : (ProductDetails.tagsJson d.tags).Ordered := orderedItems_strings d.tags
  have hflat : (ProductDetails.tagsJson d.tags).depth ≤ 1 := by
    refine Nat.succ_le_succ ((depthItems_le_iff _ 0).2 fun v hv => ?_)
    obtain ⟨s, -, rfl⟩ := List.mem_map.1 hv
    exact Nat.le_refl 0
  refine ⟨noReal_registerArgs d owner time, ⟨?_, ?_⟩, ?_⟩
  · exact show ["category", "created_at", "custom", "description", "id", "name", "origin_location", "owner",
      "tags"].Pairwise (· < ·) by decide
  · exact ⟨trivial, trivial, hcustom, trivial, trivial, trivial, trivial, trivial, htags, trivial⟩
  · refine Nat.succ_le_succ ((depthMembers_le_iff _ 124).2 ?_)
    simp only [List.map_cons, List.map_nil, List.forall_mem_cons, List.not_mem_nil, false_imp_iff, implies_true,
      and_true]
    exact ⟨Nat.zero_le _, Nat.zero_le _, hdepth, Nat.zero_le _, Nat.zero_le _, Nat.zero_le _, Nat.zero_le _,
      Nat.zero_le _, Nat.le_trans hflat (by decide)⟩

theorem noReal_appendArgs {e : Event} (h : ∀ v ∈ e.metadata.values, v.NoReal) (actor : String) :
    (appendArgs e actor).NoReal := by
  have hmeta : (Json.ofTable e.metadata).NoReal := (noRealMembers_iff e.metadata.entries).2 h
  exact ⟨trivial, trivial, hmeta, trivial, trivial, trivial, trivial⟩

/-- **A drafted append comes through unchanged** if its metadata is faithful. -/
theorem plain_appendArgs {e : Event} (h : Faithful e.metadata) (actor : String) : Plain (appendArgs e actor) := by
  refine ⟨noReal_appendArgs h.noReal actor, ⟨?_, ?_⟩, ?_⟩
  · exact show ["actor", "event_type", "metadata", "note", "product_id", "timestamp"].Pairwise (· < ·) by decide
  · exact ⟨trivial, trivial, h.ordered_ofTable, trivial, trivial, trivial, trivial⟩
  · refine Nat.succ_le_succ ((depthMembers_le_iff _ 124).2 ?_)
    simp only [List.map_cons, List.map_nil, List.forall_mem_cons, List.not_mem_nil, false_imp_iff, implies_true,
      and_true]
    exact ⟨Nat.zero_le _, Nat.zero_le _, h.depth_ofTable, Nat.zero_le _, Nat.zero_le _, Nat.zero_le _⟩

theorem invocation?_of_plain {i : Invocation} (h : Plain i.call.args) :
    Rehearsal.Store.invocation? (Text.encodeHex i.toBytes) = some i := by
  rw [Rehearsal.Store.invocation?_encodeHex, h.ofBytes?]

end SupplyTrail
