import SupplyTrail.Proofs.Checks
import SupplyTrail.Proofs.Ledger.Drafts
import SupplyTrail.Proofs.Text.Letters
import SupplyTrail.Trail.Event
/-!
# Parsing — which records are events, and which event each is

A record is parsed exactly if it denotes an event (`Event.parse_eq_ok_iff`): one lemma says so of each field.  A record
that has the fields of a given event, in either spelling, is parsed as that event exactly if the event passes its check
(`Event.Tells.parse_iff`), and every record that the decoder reads has the fields of what it reads
(`Event.tells_of_decode`).
-/
namespace SupplyTrail

/-! ## Names of kinds -/

namespace EventKind

theorem valueOf?_names {name : String} {k : EventKind} : valueOf? name names = some k ↔ name = k.symbol := by
  constructor
  · intro h
    simp only [names, valueOf?] at h
    split at h
    · cases h; rename_i hname; exact hname.symm
    · split at h
      · cases h; rename_i hname; exact hname.symm
      · split at h
        · cases h; rename_i hname; exact hname.symm
        · cases h
  · rintro rfl
    cases k <;> decide

/-- **A name is read as a kind exactly if it is the kind's name up to case.** -/
theorem parse_eq_ok_iff {name : String} {k : EventKind} : parse name = .ok k ↔ Text.SameLetters name k.symbol := by
  rw [← Text.map_toUpper_eq_iff, map_toUpper_symbol, ← valueOf?_names, parse]
  cases valueOf? (name.map Char.toUpper) names with
  | none => simp
  | some kind => simp

end EventKind

namespace Event

/-! ## The fields of a record -/

/-- What a record has under a name, or under another one if it has nothing under the first. -/
def Under (members : List (String × Json)) (name other : String) (v : Json) : Prop :=
  valueOf? name members = some v ∨ valueOf? name members = none ∧ valueOf? other members = some v

/-- What a record says of metadata: nothing, null, or an object of entries. -/
inductive Metadatum (members : List (String × Json)) : Metadata → Prop
  | absent : valueOf? "metadata" members = none → Metadatum members .empty
  | null : valueOf? "metadata" members = some .null → Metadatum members .empty
  | object {entries : List (String × Json)} : valueOf? "metadata" members = some (.object entries) →
      (∀ m ∈ entries, Text.trim m.1 ≠ "") → Metadatum members (.ofList entries)

/-- The event that the members of a record denote. -/
structure Denotes (members : List (String × Json)) (e : Event) : Prop where
  product : Under members "productId" "product_id" (.string e.product.text)
  /-- The product is named. -/
  named : Text.trim e.product.text ≠ ""
  short : e.product.text.length ≤ 64
  /-- The kind is named, in any case. -/
  kind : ∃ name, Under members "type" "event_type" (.string name) ∧ Text.SameLetters name e.kind.symbol
  /-- The time is a whole number, and every word is a time. -/
  time : ∃ n : Whole, valueOf? "timestamp" members = some (.number (.whole n)) ∧ n.value = e.time.toNat
  metadata : Metadatum members e.metadata

variable {members : List (String × Json)}

theorem textOfEither?_eq_some_iff {name other s : String} :
    textOfEither? members name other = some s ↔ Under members name other (.string s) := by
  have hor : (valueOf? name members).or (valueOf? other members) = some (.string s) ↔
      Under members name other (.string s) := Option.or_eq_some_iff
  rw [← hor, textOfEither?]
  split
  · rename_i t ht
    simp [ht]
  · rename_i hother
    exact iff_of_false (by simp) (hother s)

theorem parseTime_eq_ok_iff {t : UInt64} : parseTime members = .ok t ↔
    ∃ n : Whole, valueOf? "timestamp" members = some (.number (.whole n)) ∧ n.value = t.toNat := by
  have hword : ∀ n : Whole, n.word? = some t ↔ n.value = t.toNat := by
    intro n
    have hmost := n.most
    have hlt := t.toNat_lt
    rw [Whole.word?]
    split
    · rw [Option.some_inj, ← UInt64.toNat_inj, UInt64.toNat_ofNat', Nat.mod_eq_of_lt (by omega)]
      omega
    · simp only [reduceCtorEq, false_iff]
      omega
  rw [parseTime]
  split
  · rename_i hnone
    simp [hnone]
  · rename_i n hn
    simp only [hn, Option.some.injEq, Json.number.injEq, Number.whole.injEq, exists_eq_left', ← hword n]
    cases n.word? with
    | none => simp
    | some t' => simp
  · rename_i other hwhole hother
    simp only [hother, Option.some.injEq, reduceCtorEq, false_iff, not_exists, not_and]
    exact fun n hn => (hwhole n hn).elim

/-- No key of the metadata of a record is blank. -/
theorem parseMetadata_eq_ok_iff {m : Metadata} :
    (parseMetadata members = .ok m ∧ ∀ k ∈ m.keys, Text.trim k ≠ "") ↔ Metadatum members m := by
  constructor
  · rintro ⟨hparse, hkeys⟩
    unfold parseMetadata at hparse
    split at hparse
    · cases hparse
      exact .absent ‹_›
    · cases hparse
      exact .null ‹_›
    · cases hparse
      exact .object ‹_› fun e he => hkeys e.1 (Table.mem_keys_ofList.2 (List.mem_map_of_mem he))
    · cases hparse
  · intro h
    cases h with
    | absent habsent => exact ⟨by rw [parseMetadata, habsent], nofun⟩
    | null hnull => exact ⟨by rw [parseMetadata, hnull], nofun⟩
    | object hentries hkeys =>
      refine ⟨by rw [parseMetadata, hentries], fun k hk => ?_⟩
      obtain ⟨e, he, rfl⟩ := List.mem_map.1 (Table.mem_keys_ofList.1 hk)
      exact hkeys e he

/-- A checked event names its product, with few enough characters, and has no blank key in its metadata. -/
theorem check_eq_ok_iff {e f : Event} : check e = .ok f ↔ f = e ∧ Text.trim e.product.text ≠ "" ∧
    e.product.text.length ≤ 64 ∧ ∀ k ∈ e.metadata.keys, Text.trim k ≠ "" := by
  have hblank : ∀ s, Text.trim s ≠ "" ↔ Text.isBlank s = false := fun s => by
    rw [Ne, ← Text.isBlank_iff_trim_eq_empty, Bool.not_eq_true]
  have hkeys : (∀ k ∈ e.metadata.keys, Text.isBlank k = false) ↔ e.metadata.keys.any Text.isBlank = false := by
    simp
  simp only [hblank, hkeys]
  unfold check ProductId.check checkMetadata ProductId.isBlank maxProductId
  cases Text.isBlank e.product.text with
  | true => simp [bind, Except.bind]
  | false =>
    by_cases hlong : 64 < e.product.text.length
    · simp [bind, Except.bind, hlong, Nat.not_le.2 hlong]
    · cases e.metadata.keys.any Text.isBlank with
      | true => simp [bind, Except.bind, hlong]
      | false => simp [bind, Except.bind, pure, Except.pure, hlong, Nat.not_lt.1 hlong, eq_comm]

/-! ## Records -/

theorem parse_object_eq_ok_iff {e : Event} : parse (.object members) = .ok e ↔
    ∃ p name k t m, textOfEither? members "productId" "product_id" = some p ∧
      textOfEither? members "type" "event_type" = some name ∧ EventKind.parse name = .ok k ∧
      parseTime members = .ok t ∧ parseMetadata members = .ok m ∧ check ⟨⟨p⟩, k, t, m⟩ = .ok e := by
  rw [parse]
  cases textOfEither? members "productId" "product_id" with
  | none => cases textOfEither? members "type" "event_type" <;> simp [bind_eq_ok_iff]
  | some p =>
    cases textOfEither? members "type" "event_type" with
    | none => simp [bind_eq_ok_iff]
    | some name => simp [bind_eq_ok_iff]

/-- **A record is parsed exactly if it is an object that denotes an event**, and as that event. -/
theorem parse_eq_ok_iff {r : Json} {e : Event} :
    parse r = .ok e ↔ ∃ members, r = .object members ∧ Denotes members e := by
  constructor
  · intro h
    cases r with
    | object members =>
      obtain ⟨p, name, k, t, m, hproduct, hname, hkind, htime, hmeta, hcheck⟩ := parse_object_eq_ok_iff.1 h
      obtain ⟨rfl, hnamed, hshort, hkeys⟩ := check_eq_ok_iff.1 hcheck
      exact ⟨members, rfl, textOfEither?_eq_some_iff.1 hproduct, hnamed, hshort,
        ⟨name, textOfEither?_eq_some_iff.1 hname, EventKind.parse_eq_ok_iff.1 hkind⟩, parseTime_eq_ok_iff.1 htime,
        parseMetadata_eq_ok_iff.1 ⟨hmeta, hkeys⟩⟩
    | _ => cases h
  · rintro ⟨members, rfl, hproduct, hnamed, hshort, ⟨name, hname, hkind⟩, htime, hmeta⟩
    obtain ⟨hmeta, hkeys⟩ := parseMetadata_eq_ok_iff.2 hmeta
    exact parse_object_eq_ok_iff.2 ⟨_, name, _, _, _, textOfEither?_eq_some_iff.2 hproduct,
      textOfEither?_eq_some_iff.2 hname, EventKind.parse_eq_ok_iff.2 hkind, parseTime_eq_ok_iff.2 htime, hmeta,
      check_eq_ok_iff.2 ⟨rfl, hnamed, hshort, hkeys⟩⟩

/-! ## Records of a given event -/

/-- The members have the fields of an event, in the producer's spelling or in the contract's, whatever else there is.
Metadata without entries may be left out. -/
structure Tells (members : List (String × Json)) (e : Event) : Prop where
  product : Under members "productId" "product_id" e.product.toJson
  kind : Under members "type" "event_type" e.kind.toJson
  time : valueOf? "timestamp" members = some (.word e.time)
  metadata : valueOf? "metadata" members = some (.ofTable e.metadata) ∨
    valueOf? "metadata" members = none ∧ e.metadata = .empty

/-- **A record with the fields of an event is parsed as the event is checked.** -/
theorem Tells.parse_eq_check {e : Event} (h : Tells members e) : parse (.object members) = e.check := by
  have hproduct := textOfEither?_eq_some_iff.2 h.product
  have hkind := textOfEither?_eq_some_iff.2 h.kind
  have htime : parseTime members = .ok e.time := by
    rw [parseTime, h.time, Json.word]
    simp only [Whole.word?_ofWord]
  have hmeta : parseMetadata members = .ok e.metadata := by
    rcases h.metadata with htable | ⟨habsent, hempty⟩
    · rw [parseMetadata, htable, Json.ofTable]
      simp only [Table.ofList_entries]
    · rw [parseMetadata, habsent, hempty]
  rw [parse, hproduct, hkind, htime, hmeta]
  simp only [EventKind.parse_symbol, bind, Except.bind]

theorem Tells.parse_iff {e : Event} (h : Tells members e) :
    parse (.object members) = .ok e ↔ ∃ f, e.check = .ok f := by
  rw [h.parse_eq_check]
  refine ⟨fun hcheck => ⟨e, hcheck⟩, fun ⟨f, hcheck⟩ => ?_⟩
  obtain ⟨rfl, -⟩ := check_eq_ok_iff.1 hcheck
  exact hcheck

theorem tells_toJson (e : Event) : ∃ members, e.toJson = .object members ∧ Tells members e :=
  ⟨_, rfl, .inl rfl, .inl rfl, rfl, .inl rfl⟩

/-! ## Records that the decoder reads -/

theorem product_of_decode {j : Json} {p : ProductId} (h : ProductId.decode j.toSource = .ok p) : j = p.toJson := by
  cases j with
  | string t => cases h; rfl
  | _ => cases h

theorem kind_of_decode {name : String} {k : EventKind} (h : EventKind.decode (Json.string name).toSource = .ok k) :
    name = k.symbol := by
  apply EventKind.valueOf?_names.1
  simp only [EventKind.decode, Json.toSource, Json.Decoder.variant, Json.Decoder.variant.pick] at h
  split at h
  · rename_i hname
    cases h
    exact hname
  · cases h

open Json.Decoder in
theorem word_of_word64 {j : Json} {t : UInt64} (h : word64 j.toSource = .ok t) : j = .word t := by
  cases j with
  | number n =>
    cases n with
    | whole w =>
      simp only [word64, Json.toSource, whole] at h
      split at h
      · rename_i hrange
        cases h
        have hvalue : ((UInt64.ofNat w.value.toNat).toNat : Int) = w.value := by
          rw [UInt64.toNat_ofNat', Nat.mod_eq_of_lt (by omega)]
          omega
        simp only [Json.word, Whole.ofWord, hvalue]
      · cases h
    | real d => cases h
  | _ => cases h

open Json in
theorem mapM_membersToSource_ordered {read : Option String × Source → Except Mismatch (String × Json)}
    (h : ∀ k (x : Json), x.Ordered → read (some k, x.toSource) = .ok (k, x))
    {entries : List (String × Json)} (hord : OrderedMembers entries) :
    (membersToSource entries).mapM read = .ok entries := by
  induction entries with
  | nil => rfl
  | cons entry rest ih =>
    obtain ⟨k, x⟩ := entry
    rw [OrderedMembers] at hord
    rw [membersToSource, List.mapM_cons, h k x hord.1, ih hord.2]
    rfl

open Json.Decoder in
theorem ofTable_of_table {j : Json} {m : Metadata} (hord : j.Ordered) (h : table value j.toSource = .ok m) :
    j = .ofTable m := by
  cases j with
  | object entries =>
    rw [Json.Ordered] at hord
    rw [Json.toSource, table, mapM_membersToSource_ordered ?_ hord.2] at h
    · have hm : Table.ofList entries = m := Except.ok.inj h
      rw [← hm, Table.ofList_entries ⟨entries, hord.1⟩, Json.ofTable]
    · intro k x hx
      simp only [value, Json.toJson?_toSource hx, Except.map]
  | _ => cases h

/-- **What the decoder reads as an event tells of it**, if the kind is written as a text. -/
theorem tells_of_decode {e : Event} {name : String} (hord : (Json.object members).Ordered)
    (htype : valueOf? "type" members = some (.string name))
    (h : Json.decode? decode (.object members) = some e) : Tells members e := by
  have hdecode : decode (Json.object members).toSource = .ok e := by
    unfold Json.decode? at h
    cases hread : decode (Json.object members).toSource with
    | error err => rw [hread] at h; cases h
    | ok f => rw [hread] at h; cases h; rfl
  obtain ⟨found, hfound, hdecode⟩ := bind_eq_ok_iff.1 hdecode
  obtain ⟨product, hproduct, hdecode⟩ := bind_eq_ok_iff.1 hdecode
  obtain ⟨kind, hkind, hdecode⟩ := bind_eq_ok_iff.1 hdecode
  obtain ⟨time, htime, hdecode⟩ := bind_eq_ok_iff.1 hdecode
  obtain ⟨metadata, hmeta, hdecode⟩ := bind_eq_ok_iff.1 hdecode
  cases hdecode
  obtain ⟨productJson, hproductAt, hproduct⟩ := Json.Form.member_of_need hfound rfl hproduct
  obtain ⟨kindJson, hkindAt, hkind⟩ := Json.Form.member_of_need hfound rfl hkind
  obtain ⟨timeJson, htimeAt, htime⟩ := Json.Form.member_of_need hfound rfl htime
  have hmeta := Json.Form.member_of_needOr hfound rfl hmeta
  refine ⟨.inl ?_, .inl ?_, ?_, ?_⟩
  · rw [hproductAt, product_of_decode hproduct]
  · rw [htype] at hkindAt ⊢
    cases hkindAt
    rw [kind_of_decode hkind]
    rfl
  · rw [htimeAt, word_of_word64 htime]
  · rcases hmeta with ⟨j, hat, hread⟩ | hnone
    · rw [Json.Ordered] at hord
      have hj : j.Ordered :=
        (orderedMembers_iff members).1 hord.2 j (List.mem_map_of_mem (mem_of_valueOf? hat))
      rw [hat, ofTable_of_table hj hread]
      exact .inl rfl
    · exact .inr hnone

/-- How a record is read, and how the records of an event are. -/
structure Reading (r : Json) (e : Event) : Prop where
  /-- A record is read as an event exactly if it is an object that denotes this event. -/
  grammar : parse r = .ok e ↔ ∃ members, r = .object members ∧ Denotes members e
  /-- The record of an event is read as the event, exactly if the event is good. -/
  own : parse e.toJson = .ok e ↔ ∃ f, e.check = .ok f
  /-- And so is every other record with its fields, in one spelling or the other. -/
  told : ∀ members, Tells members e → (parse (.object members) = .ok e ↔ ∃ f, e.check = .ok f)
  /-- What the decoder reads as a good event is read as the same event, if the kind is a text. -/
  decoded : r.Ordered → ∀ name, r.member? "type" = some (.string name) → Json.decode? decode r = some e →
    (∃ f, e.check = .ok f) → parse r = .ok e

/-- **Parsing accepts exactly the records that denote an event**, undoes the writing of good events, and agrees with
the decoder. -/
theorem reading_of_parse (r : Json) (e : Event) : Reading r e where
  grammar := parse_eq_ok_iff
  own := by
    obtain ⟨members, hmembers, htells⟩ := tells_toJson e
    rw [hmembers]
    exact htells.parse_iff
  told _ h := h.parse_iff
  decoded hord name htype hdecode hgood := by
    cases r with
    | object members => exact (tells_of_decode hord htype hdecode).parse_iff.2 hgood
    | _ => cases htype

/-- A record in the producer's spelling that both read, and one in the contract's with a number and no metadata. -/
theorem reading_of_parse_transfer :
    let e : Event := ⟨⟨"P-1"⟩, .transfer, 5, .empty⟩
    let r : Json := .object [("productId", .string "P-1"), ("timestamp", .word 5), ("type", .string "TRANSFER")]
    let stored : Json := .object [("event_id", .word 7), ("event_type", .string "TRANSFER"),
      ("product_id", .string "P-1"), ("timestamp", .word 5)]
    e.check = .ok e ∧ r.Ordered ∧ Json.decode? decode r = some e ∧ parse r = .ok e ∧ parse stored = .ok e := by
  intro e r stored
  have hcheck : e.check = .ok e := check_eq_ok_iff.2 ⟨rfl, by decide, by decide, nofun⟩
  have hord : r.Ordered :=
    ⟨show ["productId", "timestamp", "type"].Pairwise (· < ·) by decide, trivial, trivial, trivial, trivial⟩
  have hdecode : Json.decode? decode r = some e := by rfl
  have htells : Tells [("event_id", .word 7), ("event_type", .string "TRANSFER"), ("product_id", .string "P-1"),
      ("timestamp", .word 5)] e := ⟨.inr ⟨rfl, rfl⟩, .inr ⟨rfl, rfl⟩, rfl, .inr ⟨rfl, rfl⟩⟩
  exact ⟨hcheck, hord, hdecode, (reading_of_parse r e).decoded hord "TRANSFER" rfl hdecode ⟨e, hcheck⟩,
    ((reading_of_parse r e).told _ htells).2 ⟨e, hcheck⟩⟩

end Event

end SupplyTrail
