import SupplyTrail.Proofs.Conduct
import SupplyTrail.Proofs.Ledger.Growth
/-!
# Queries — what a client reads of the ledger's state
-/
namespace SupplyTrail.Rehearsal.Store

open Client (idArgs eventOf ticketsOf)

variable {s t : Store} {p : ProductId}

theorem read_product (s : Store) (c : Client) (p : ProductId) :
    s.read (c.call "get_product" (idArgs p)) = (valueOf? p.text s.products).elim (refuse 2) .ok := by
  have hid : textArg (idArgs p) "id" = p.text := rfl
  simp only [read, Client.call, hid]
  cases valueOf? p.text s.products with
  | none => rfl
  | some v => rfl

theorem read_ids (s : Store) (c : Client) (p : ProductId) :
    s.read (c.call "get_product_event_ids" (idArgs p)) =
      (valueOf? p.text s.eventIds).elim (refuse 2) fun ids => .ok (numbers ids) := by
  have hid : textArg (idArgs p) "id" = p.text := rfl
  simp only [read, Client.call, hid]
  cases valueOf? p.text s.eventIds with
  | none => rfl
  | some ids => rfl

theorem read_event (s : Store) (c : Client) (n : UInt64) :
    s.read (c.eventCall n) = s.events[n.toNat]?.elim (refuse 5) .ok := by
  have hmember : (Json.object [("event_id", Json.word n)]).member? "event_id" = some (.number (.whole (.ofWord n))) :=
    rfl
  simp only [read, Client.eventCall, Client.call, hmember, Whole.word?_ofWord, Option.bind_some]
  cases s.events[n.toNat]? with
  | none => rfl
  | some v => rfl

open Json Json.Decoder in
theorem list_numbers (ids : List Nat) : list word64 (numbers ids).toSource = .ok (ids.map UInt64.ofNat) :=
  mapM_itemsToSource (fun n => word64_word (UInt64.ofNat n)) ids

theorem Tidy.toNat_ofNat (h : s.Tidy) {id : String} {n : Nat} (hn : n ∈ s.listed id) : (UInt64.ofNat n).toNat = n := by
  have hlt := h.lt_of_listed hn
  have hfits := h.fits
  exact UInt64.toNat_ofNat_of_lt' (Nat.lt_of_lt_of_le hlt hfits)

theorem Tidy.listed_of_known (h : s.Tidy) {id : String} (hid : (valueOf? id s.products).isSome) :
    valueOf? id s.eventIds = some (s.listed id) := by
  obtain ⟨ids, hids⟩ := Option.isSome_iff_exists.1 ((h.known id).1 hid)
  rw [Store.listed, hids, Option.getD_some]

theorem eventOf_ok {n : UInt64} {v : Json} {e : Event} (h : eventOf p n (.ok v) = .ok e) :
    Event.parse v = .ok e ∧ e.product = p := by
  unfold eventOf at h
  dsimp only at h
  cases hparse : Event.parse v with
  | error err => rw [hparse] at h; cases h
  | ok event =>
    rw [hparse] at h
    dsimp only at h
    split at h
    · cases h
    · rename_i hproduct
      cases h
      exact ⟨rfl, Decidable.not_not.1 hproduct⟩

theorem eventOf_of_parse {n : UInt64} {v : Json} {e : Event} (hparse : Event.parse v = .ok e)
    (hproduct : e.product = p) :
    eventOf p n (.ok v) = .ok e := by
  unfold eventOf
  dsimp only
  rw [hparse]
  exact if_neg (Decidable.not_not.2 hproduct)

/-- **Events that were read one by one are those recorded for the product**, in the order of recording. -/
theorem Tidy.parse_trail (h : s.Tidy) {id : String} {events : List Event}
    (hread : List.Forall₂ (fun n e => ∃ v, s.events[n]? = some v ∧ Event.parse v = .ok e) (s.listed id) events) :
    (s.trail id).map Event.parse = events.map .ok := by
  have hparse : ∀ {ids : List Nat} {events : List Event},
      List.Forall₂ (fun n e => ∃ v, s.events[n]? = some v ∧ Event.parse v = .ok e) ids events →
      (ids.map (s.events[·]?)).map (Option.map Event.parse) = events.map fun e => some (.ok e) := by
    intro ids events hread
    induction hread with
    | nil => rfl
    | cons hv _ ih =>
      obtain ⟨v, hv, he⟩ := hv
      simp only [List.map_cons, hv, Option.map_some, he, ih]
  have hall := hparse hread
  rw [h.listed id, List.map_map] at hall
  have hsome : ((s.trail id).map Event.parse).map some = (events.map Except.ok).map some := by
    rw [List.map_map, List.map_map]
    exact hall
  exact (List.map_inj_right fun _ _ => Option.some.inj).1 hsome

theorem Tidy.mem_trail_of_listed (h : s.Tidy) {id : String} {n : Nat} {v : Json} (hn : n ∈ s.listed id)
    (hv : s.events[n]? = some v) : v ∈ s.trail id := by
  have hmem : s.events[n]? ∈ (s.listed id).map (s.events[·]?) := List.mem_map_of_mem hn
  rw [h.listed id, hv] at hmem
  obtain ⟨v', hv', heq⟩ := List.mem_map.1 hmem
  cases heq
  exact hv'

theorem Tidy.mem_of_trail (h : s.Tidy) {id : String} {events : List Event}
    (hread : (s.trail id).map Event.parse = events.map .ok) {n : Nat} {v : Json} (hn : n ∈ s.listed id)
    (hv : s.events[n]? = some v) : ∃ e ∈ events, Event.parse v = .ok e := by
  have hparse : Event.parse v ∈ (s.trail id).map Event.parse := List.mem_map_of_mem (h.mem_trail_of_listed hn hv)
  rw [hread] at hparse
  obtain ⟨e, he, heq⟩ := List.mem_map.1 hparse
  exact ⟨e, he, heq.symm⟩

theorem Tidy.isOf_of_listed (h : s.Tidy) {id : String} {n : Nat} {v : Json} (hn : n ∈ s.listed id)
    (hv : s.events[n]? = some v) : IsOf id v = true :=
  (List.mem_filter.1 (h.mem_trail_of_listed hn hv)).2

end SupplyTrail.Rehearsal.Store
