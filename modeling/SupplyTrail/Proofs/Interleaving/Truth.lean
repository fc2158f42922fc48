import SupplyTrail.Proofs.Interleaving.Ledger
/-!
# Truth — what operations have read of a shared ledger stays true

Events never change, so every reading that an operation has got, or that is on its way to it, is what the ledger has
now. A history that was read is therefore that of the moment at which the product's events were listed.
-/
namespace SupplyTrail.Interleaving

open Client Activity
open Rehearsal (Result Store)

variable {L : Regime} {clients : Nat → Client} {w w' : World Scene} {id : Nat} {τ τ' : Task Scene} {now : Scene}
  {d : Dialogue Scene} {c : Client} {p : ProductId}

/-- A reading of an event is what the ledger has, or a failure if queries may fail. -/
def Reads (L : Regime) (s : Store) (n : UInt64) (r : Reading) : Prop :=
  (∃ v, r = .ok v ∧ s.events[n.toNat]? = some v) ∨ L.failing ∧ ∃ failure, r = .error failure

theorem Reads.mono {s t : Store} (h : Store.Extends s t) {n : UInt64} {r : Reading} (hr : Reads L s n r) :
    Reads L t n r := by
  rcases hr with ⟨v, hr, hv⟩ | hr
  · exact .inl ⟨v, hr, h.event hv⟩
  · exact .inr hr

theorem reads_of_query {n : UInt64} {r : Reading} {s : Scene} (hn : n.toNat < s.store.events.length)
    (h : r = s.store.read (c.eventCall n) ∨ L.failing ∧ ∃ failure, r = .error failure) : Reads L s.store n r := by
  rcases h with rfl | h
  · have hv := List.getElem?_eq_getElem hn
    exact .inl ⟨_, by rw [Store.read_event, hv]; rfl, hv⟩
  · exact .inr h

variable {errands : List Errand}

/-- The queries that an operation has out are for events that are there, and all its readings are true. -/
structure Truthful (L : Regime) (c : Client) (now : Store) (d : Dialogue Scene) (errands : List Errand) : Prop where
  out : ∀ e ∈ errands, e.call = c.eventCall e.ticket.event ∧ e.ticket.event.toNat < now.events.length
  back : ∀ e ∈ errands, ∀ r, e.reading = some r → Reads L now e.ticket.event r
  heard : ∀ t r, Heard d t r → Reads L now t.event r

theorem truthful_nil (L : Regime) (c : Client) (now : Store) : Truthful L c now [] [] := by
  refine ⟨fun e he => (by cases he), fun e he => (by cases he), fun t r hr => ?_⟩
  cases hr with
  | atOnce htold => obtain ⟨m, hm⟩ := htold; cases hm
  | settled htold => obtain ⟨m, hm⟩ := htold; cases hm

theorem Truthful.mono {s t : Store} (h : Store.Extends s t) (hd : Truthful L c s d errands) :
    Truthful L c t d errands where
  out e he := ⟨(hd.out e he).1, Nat.lt_of_lt_of_le (hd.out e he).2 h.events.length_le⟩
  back e he r hr := (hd.back e he r hr).mono h
  heard t r hr := (hd.heard t r hr).mono h

theorem Truthful.answer {v v' : View Scene} (h : Truthful L c now.store d v.errands) (hlived : Lived L now d)
    {op : Operation} {q : Question} {a : q.Answer} (hwarrant : Warrant c op d q) (hv : v.around = now)
    (ha : Answered (ledger L) q v a v') : Truthful L c now.store (⟨q, a, now⟩ :: d) v'.errands := by
  have hthere : ∀ t url call, q = .away (.fetch t url call) →
      call = c.eventCall t.event ∧ t.event.toNat < now.store.events.length := by
    rintro t url call rfl
    obtain ⟨hcall, p, ids, hids, ht⟩ := hwarrant.fetched
    exact ⟨hcall, lt_of_ticket hlived hids ht⟩
  refine ⟨fun e he => ?_, fun e he r hr => ?_, fun t r hr => ?_⟩
  · rcases errands_cases ha with heq | ⟨t, url, call, hq, heq⟩
    · rw [heq] at he
      exact h.out e he
    · rw [heq] at he
      rcases List.mem_cons.1 he with rfl | he
      · exact hthere t url call hq
      · exact h.out e he
  · rcases errands_cases ha with heq | ⟨t, url, call, hq, heq⟩
    · rw [heq] at he
      exact h.back e he r hr
    · rw [heq] at he
      rcases List.mem_cons.1 he with rfl | he
      · cases hr
      · exact h.back e he r hr
  · cases hr with
    | @atOnce url call htold =>
      obtain ⟨m, hm⟩ := htold
      rcases List.mem_cons.1 hm with hm | hm
      · cases hm
        obtain ⟨hcall, hn⟩ := hthere t url call rfl
        obtain ⟨s, ⟨-, hread⟩, -⟩ := ha
        rw [hv, hcall] at hread
        exact reads_of_query hn hread
      · exact h.heard t r (.atOnce ⟨m, hm⟩)
    | @settled first others ht htold =>
      obtain ⟨m, hm⟩ := htold
      rcases List.mem_cons.1 hm with hm | hm
      · cases hm
        obtain ⟨⟨e, he, rfl, hreading⟩, -⟩ := ha
        exact h.back e he r hreading
      · exact h.heard t r (@Heard.settled _ _ _ _ _ _ ht ⟨m, hm⟩)

theorem Truthful.served (h : Truthful L c now.store d errands) {e : Errand} {r : Reading} (he : e ∈ errands)
    (hr : r = now.store.read e.call ∨ L.failing ∧ ∃ failure, r = .error failure) :
    Truthful L c now.store d ({ e with reading := some r } :: errands) := by
  obtain ⟨hcall, hn⟩ := h.out e he
  refine ⟨fun e' he' => ?_, fun e' he' r' hr' => ?_, h.heard⟩
  · rcases List.mem_cons.1 he' with rfl | he'
    · exact ⟨hcall, hn⟩
    · exact h.out e' he'
  · rcases List.mem_cons.1 he' with rfl | he'
    · cases hr'
      rw [hcall] at hr
      exact reads_of_query hn hr
    · exact h.back e' he' r' hr'

def AllTruthful (L : Regime) (clients : Nat → Client) (w : World Scene) : Prop :=
  ∀ id τ, w.tasks id = some τ → Truthful L (clients τ.member) w.around.store τ.told τ.errands

theorem AllTruthful.step (hconduct : AllConducted clients w) (hlived : AllSince (ledger L) Grown w)
    (h : AllTruthful L clients w) (hs : Step (ledger L) clients w w') : AllTruthful L clients w' := by
  have hgrown : Grown w.around w'.around := develops.step hs
  have hold : ∀ id τ, w.tasks id = some τ → Truthful L (clients τ.member) w'.around.store τ.told τ.errands :=
    fun id τ hτ => (h id τ hτ).mono hgrown
  intro i τ' hτ'
  cases hs with
  | @begin id member op hid =>
    exact tasks_update (P := fun τ => Truthful L (clients τ.member) w.around.store τ.told τ.errands) hold
      (truthful_nil L (clients member) w.around.store) hτ'
  | @answer id τ q next a v hτ hrest hturn ha =>
    refine tasks_update (P := fun τ => Truthful L (clients τ.member) v.around.store τ.told τ.errands) hold ?_ hτ'
    have htrue : Truthful L (clients τ.member) w.around.store τ.told (w.view τ).errands := h id τ hτ
    exact (htrue.answer (hlived id τ hτ) ((hconduct id τ hτ).warrant hrest) rfl ha).mono hgrown
  | @serve id τ e r s hτ he hr =>
    refine tasks_update (P := fun τ => Truthful L (clients τ.member) s.store τ.told τ.errands) hold ?_ hτ'
    have hsame : s = w.around := hr.1
    rw [hsame]
    exact (h id τ hτ).served he hr.2
  | other hturn hs => exact hold i τ' hτ'

/-- **What was read stays true.** -/
theorem allTruthful_of_steps {s : Scene} (h : Steps (ledger L) clients (.start s) w) : AllTruthful L clients w := by
  induction h with
  | refl => exact fun _ _ h => by cases h
  | tail hs₁ hs ih =>
    exact AllTruthful.step (allConducted_of_steps hs₁) (allSince_of_steps develops hs₁) ih hs

/-! ## Histories that were read -/

theorem forall₂_tickets {P : UInt64 → Event → Prop} {ids : List UInt64} {events : List Event}
    (h : List.Forall₂ (fun t e => P t.event e) (ticketsOf ids) events) : List.Forall₂ P ids events := by
  have hmap : (ticketsOf ids).map Ticket.event = ids := by
    rw [ticketsOf, List.map_map]
    exact List.zipIdx_map_fst 0 ids
  have hmapped : List.Forall₂ P ((ticketsOf ids).map Ticket.event) events := List.forall₂_map_left_iff.2 h
  rwa [hmap] at hmapped

/-- **The events that were read are those recorded for the product when they were listed**, as they were recorded. -/
theorem parse_trail_of_read (hlived : Lived L now d)
    (htrue : ∀ t r, Heard d t r → Reads L now.store t.event r) {ids : List UInt64} {events : List Event}
    (hids : IdsRead c p d ids) (hread : EventsRead p d (ticketsOf ids) events) :
    ∃ m : Scene, (⟨.away (c.idsQuery p), .ok (Store.numbers (m.store.listed p.text)), m⟩ : Turn Scene) ∈ d ∧
      (m.store.trail p.text).map Event.parse = events.map .ok ∧ (∀ e ∈ events, e.product = p) ∧ Grown m now := by
  obtain ⟨m, hm, -, rfl, hgrown⟩ := listed_of_idsRead hlived hids
  have hboth : List.Forall₂ (fun (n : UInt64) e => e.product = p ∧
      (n.toNat < m.store.events.length → ∃ v, m.store.events[n.toNat]? = some v ∧ Event.parse v = .ok e))
      ((m.store.listed p.text).map UInt64.ofNat) events := by
    refine forall₂_tickets (hread.imp fun t e he => ?_)
    obtain ⟨r, hheard, hitem⟩ := he
    rcases htrue t r hheard with ⟨v, rfl, hv⟩ | ⟨-, failure, rfl⟩
    · obtain ⟨hparse, hproduct⟩ := Store.eventOf_ok hitem
      refine ⟨hproduct, fun hn => ⟨v, ?_, hparse⟩⟩
      -- the events of that moment are still there, so the one that was read is the one that was there
      have hthere := hgrown.event (List.getElem?_eq_getElem hn)
      rw [hv] at hthere
      rw [List.getElem?_eq_getElem hn, Option.some.inj hthere]
    · cases hitem
  rw [List.forall₂_map_left_iff] at hboth
  have hproducts : ∀ e ∈ events, e.product = p := ((List.forall₂_and_left _ _).1 hboth.flip).1
  have hfits : ∀ n ∈ m.store.listed p.text, (UInt64.ofNat n).toNat = n ∧ n < m.store.events.length := fun n hn =>
    ⟨m.tidy.toNat_ofNat hn, m.tidy.lt_of_listed hn⟩
  refine ⟨m, hm, m.tidy.parse_trail ?_, hproducts, hgrown⟩
  refine ((List.forall₂_and_left _ _).2 ⟨hfits, hboth⟩).imp fun n e ⟨⟨hword, hn⟩, _, hevent⟩ => ?_
  rw [hword] at hevent
  exact hevent hn

end SupplyTrail.Interleaving
