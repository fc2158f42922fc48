import SupplyTrail.Proofs.Interleaving.Play
/-!
# Provenance — whose events a client delivers

What a client delivers of a product comes from two answers of the ledger.  An event that is listed is delivered only if
it says itself that it is the product's.  The registration is made from the product's record, and a record is taken as
it comes: whose it says it is, is looked at by nobody.
-/
namespace SupplyTrail

namespace Client

open Activity

variable {σ : Type} {c : Client} {op : Operation} {p : ProductId} {d : Dialogue σ}

/-- The events of products' trails in a value. -/
def delivered : Rehearsal.Value → List Event
  | .history h => h.events
  | .page page => page.events
  | .items items _ => items.filterMap Except.toOption
  | _ => []

/-- The product's record in a value. -/
def recordOf? : Rehearsal.Value → Option ProductRecord
  | .record r => some r
  | _ => none

/-! ## Listed events -/

theorem product_of_eventOf {number : UInt64} {r : Reading} {e : Event} (h : eventOf p number r = .ok e) :
    e.product = p := by
  unfold eventOf at h
  cases r with
  | error failure => cases h
  | ok value =>
    dsimp only at h
    cases hparse : Event.parse value with
    | error error =>
      rw [hparse] at h
      cases h
    | ok event =>
      rw [hparse] at h
      dsimp only at h
      by_cases hp : event.product = p
      · rw [if_neg (by simpa using hp)] at h
        cases h
        exact hp
      · rw [if_pos hp] at h
        cases h

theorem EventRead.product {t : Ticket} {e : Event} (h : EventRead p d t (.ok e)) : e.product = p := by
  obtain ⟨r, -, he⟩ := h
  exact product_of_eventOf he

theorem product_of_items {tickets : List Ticket} {items : List Item}
    (h : List.Forall₂ (EventRead p d) tickets items) {e : Event} (he : .ok e ∈ items) : e.product = p := by
  obtain ⟨t, hread⟩ := eventRead_of_items h he
  exact hread.product

/-- The events of a trail that was read: the registration of its record, and events of the product. -/
theorem TrailRead.events {h : History} (hread : TrailRead c p d h) : ∃ record, RecordRead c p d record ∧
    record.registerEvent ∈ h.events ∧ ∀ e ∈ h.events, e.product = p ∨ e = record.registerEvent := by
  obtain ⟨record, ids, events, hrec, -, hevents, rfl⟩ := hread
  refine ⟨record, hrec, ?_, fun e he => ?_⟩
  · rw [History.ofEvents, List.mem_mergeSort]
    exact List.mem_cons_self
  · rw [History.ofEvents, List.mem_mergeSort] at he
    rcases List.mem_cons.1 he with rfl | he
    · exact .inr rfl
    · have hitems : List.Forall₂ (EventRead p d) (ticketsOf ids) (events.map Except.ok) :=
        List.forall₂_map_right_iff.2 hevents
      exact .inl (product_of_items hitems (List.mem_map_of_mem he))

theorem mem_of_mem_page {h : History} {offset limit : Nat} {e : Event} (he : e ∈ (h.page offset limit).events) :
    e ∈ h.events := List.mem_of_mem_drop (List.mem_of_mem_take he)

/-! ## What reads deliver -/

/-- Where what an operation gives comes from. -/
inductive Yielded (c : Client) (d : Dialogue σ) : Operation → Rehearsal.Value → Prop
  | record {p : ProductId} {record : ProductRecord} (h : RecordRead c p d record) :
      Yielded c d (.getProduct p) (.record record)
  | history {p : ProductId} {h : History} (hread : HistoryRead c p d h) : Yielded c d (.getHistory p) (.history h)
  | page {p : ProductId} {offset limit : Nat} {h : History} (hread : HistoryRead c p d h) :
      Yielded c d (.getPage p offset limit) (.page (h.page offset limit))
  | items {p : ProductId} {count : Nat} {items : List Item} {ended : Bool} (h : Streamed c p d count items) :
      Yielded c d (.stream p count) (.items items ended)
  | registered {details : ProductDetails} : Yielded c d (.register details) (.product details.id)
  | appended {p : ProductId} {kind : EventKind} {metadata : Metadata} {e : Event} :
      Yielded c d (.append p kind metadata) (.event e)
  | flag {b : Bool} : Yielded c d .ping (.flag b)

theorem keeps_yielded (c : Client) (op : Operation) : Keeps (operating c op)
    (fun d' (r : Rehearsal.Result) => ∀ v, r = .ok v → Yielded c d' op v) (op.run c) ([] : Dialogue σ) := by
  cases op with
  | register details =>
    refine (keeps_run c (.register details)).mono fun d' r h v hv => ?_
    subst hv
    cases h with
    | registered h => exact .registered
    | other hop => simp at hop
  | append p kind metadata =>
    refine (keeps_run c (.append p kind metadata)).mono fun d' r h v hv => ?_
    subst hv
    cases h with
    | appended h => exact .appended
    | other hop => simp at hop
  | getProduct p =>
    refine keeps_ofClient (keeps_reading rfl keeps_getProduct) (fun d' record ⟨_, h⟩ v hv => ?_)
      fun d' e _ v hv => by cases hv
    cases hv
    exact .record h
  | getHistory p =>
    refine (keeps_run c (.getHistory p)).mono fun d' r h v hv => ?_
    subst hv
    cases h with
    | history hread => exact .history hread
    | other hop => simp at hop
  | getPage p offset limit =>
    refine (keeps_run c (.getPage p offset limit)).mono fun d' r h v hv => ?_
    subst hv
    cases h with
    | page hread => exact .page hread
    | other hop => simp at hop
  | stream p count =>
    exact Keeps.bind (keeps_reading rfl (keeps_stream count)) fun d' r ⟨h, _⟩ v hv => by cases hv; exact .items h
  | ping =>
    refine keeps_ofClient (x := c.ping) (M := fun _ _ => True) ?_ (fun _ b _ v hv => by cases hv; exact .flag)
      fun _ _ _ v hv => by cases hv
    exact Keeps.bindRun (M := fun _ _ => True) (keeps_away (.health rfl) fun _ _ => trivial) fun d' r _ =>
      (keeps_accept (fun _ line => .write (.note line)) none r).mono fun _ _ _ => trivial

/-- **What is delivered of a product comes from its record and from its own events.** -/
theorem Yielded.sources {v : Rehearsal.Value} (h : Yielded c d op v) (hop : op.readsOf = some p)
    (hsome : (∃ r, v = .record r) ∨ delivered v ≠ []) : ∃ record, RecordRead c p d record ∧
      (∀ r, v = .record r → r = record) ∧ (∀ e ∈ delivered v, e.product = p ∨ e = record.registerEvent) ∧
      ((op = .getHistory p ∨ ∃ count, op = .stream p count) → record.registerEvent ∈ delivered v) := by
  cases h with
  | registered => cases hop
  | flag => cases hop
  | appended =>
    rcases hsome with ⟨r, hr⟩ | hsome
    · cases hr
    · exact absurd rfl hsome
  | record h =>
    cases hop
    exact ⟨_, h, fun r hr => (by cases hr; rfl), fun e he => (by cases he), fun hop => by simp at hop⟩
  | history hread =>
    cases hop
    obtain ⟨record, hrec, hmem, hevents⟩ := hread.1.events
    exact ⟨record, hrec, fun r hr => (by cases hr), hevents, fun _ => hmem⟩
  | page hread =>
    cases hop
    obtain ⟨record, hrec, -, hevents⟩ := hread.1.events
    exact ⟨record, hrec, fun r hr => (by cases hr), fun e he => hevents e (mem_of_mem_page he),
      fun hop => by simp at hop⟩
  | items h =>
    cases hop
    cases h with
    | nothing =>
      rcases hsome with ⟨r, hr⟩ | hsome
      · cases hr
      · exact absurd rfl hsome
    | fault h =>
      rcases hsome with ⟨r, hr⟩ | hsome
      · cases hr
      · exact absurd rfl hsome
    | @trail count record ids items hrec hids hitems =>
      refine ⟨record, hrec, fun r hr => (by cases hr), fun e he => ?_, fun _ => List.mem_cons_self⟩
      rcases List.mem_cons.1 he with rfl | he
      · exact .inr rfl
      · obtain ⟨item, hitem, hok⟩ := List.mem_filterMap.1 he
        cases item with
        | error fault => cases hok
        | ok event =>
          cases hok
          exact .inl (product_of_items hitems hitem)

end Client

namespace Interleaving

open Client

variable {σ : Type} {S : Surroundings σ} {clients : Nat → Client} {w : World σ} {id : Nat} {τ : Task σ}
  {p : ProductId} {v : Rehearsal.Value}

/-- **Whose events a client delivers**, whatever the ledger answers.  A product's record is delivered as the ledger gave
it.  An event of another product is delivered only as the registration of a record that is another product's; and what
comes with the registration, a whole history or the items of a stream, has only events of the product exactly if the
record is the product's. -/
theorem provenance_of_read {s : σ} (h : Steps S clients (.start s) w) (hτ : w.tasks id = some τ)
    (hop : τ.operation.readsOf = some p) (hdone : τ.rest = .done (.ok v))
    (hsome : (∃ r, v = .record r) ∨ delivered v ≠ []) : ∃ record, RecordRead (clients τ.member) p τ.told record ∧
      (∀ r, v = .record r → r = record) ∧
      (∀ e ∈ delivered v, e.product ≠ p ↔ e = record.registerEvent ∧ record.id ≠ p) ∧
      ((τ.operation = .getHistory p ∨ ∃ count, τ.operation = .stream p count) →
        ((∀ e ∈ delivered v, e.product = p) ↔ record.id = p)) := by
  have hyielded := (keeping_of_steps (fun c op => keeps_yielded c op) h id τ hτ).ended hdone v rfl
  obtain ⟨record, hrec, hrecord, hevents, hwhole⟩ := hyielded.sources hop hsome
  have hforeign : ∀ e ∈ delivered v, e.product ≠ p ↔ e = record.registerEvent ∧ record.id ≠ p := fun e he => by
    constructor
    · intro hne
      obtain rfl := (hevents e he).resolve_left hne
      exact ⟨rfl, hne⟩
    · rintro ⟨rfl, hne⟩
      exact hne
  refine ⟨record, hrec, hrecord, hforeign, fun hop => ⟨fun hall => hall _ (hwhole hop), fun hown e he => ?_⟩⟩
  by_contra hne
  exact ((hforeign e he).1 hne).2 hown

/-! ## A ledger that answers with another product's record -/

namespace Foreign

def record : Json :=
  .object [("active", .bool true), ("created_at", .word 5), ("id", .string "Q"), ("name", .string "N"),
    ("origin", .object [("location", .string "L")]), ("owner", .string "GA")]

/-- Whatever product is asked for, the ledger gives one product's record and no events. -/
def answers : Script Unit := .steady none fun call => .ok (if call.function = "get_product" then record else .array [])

/-- A product is read, and then its history. -/
def deeds : List (Deed Unit) :=
  [.begin 0 0 (.getProduct ⟨"P"⟩), .go 0 4 answers, .begin 1 0 (.getHistory ⟨"P"⟩), .go 1 8 answers]

def world : World Unit := deeds.foldl (World.play fun _ => looseClient) (.start ())

theorem steps_world : Steps anyhow (fun _ => looseClient) (.start ()) world :=
  steps_of_playable deeds _ ⟨trivial, answers.sound_anyhow, trivial, answers.sound_anyhow, trivial⟩

theorem reads_world : (world.tasks 0).map (fun τ => τ.operation.readsOf) = some (some ⟨"P"⟩) ∧
    (world.tasks 1).map (fun τ => τ.operation.readsOf) = some (some ⟨"P"⟩) := by decide +kernel

theorem gave_record : ∃ τ r, world.tasks 0 = some τ ∧ τ.operation.readsOf = some ⟨"P"⟩ ∧
    τ.rest = .done (.ok (.record r)) ∧ r.id = ⟨"Q"⟩ := by
  have hgave : ((world.gave? 0).bind recordOf?).map ProductRecord.id = some ⟨"Q"⟩ := by decide +kernel
  obtain ⟨r, hr, hid⟩ := Option.map_eq_some_iff.1 hgave
  obtain ⟨v, hv, hrecord⟩ := Option.bind_eq_some_iff.1 hr
  obtain ⟨τ, hτ, hdone⟩ := done_of_gave? hv
  have hop : some τ.operation.readsOf = some (some ⟨"P"⟩) := by
    rw [← reads_world.1, hτ]
    rfl
  cases v with
  | record r' =>
    cases hrecord
    exact ⟨τ, r, hτ, Option.some.inj hop, hdone, hid⟩
  | _ => cases hrecord

theorem gave_history : ∃ τ v, world.tasks 1 = some τ ∧ τ.operation.readsOf = some ⟨"P"⟩ ∧ τ.rest = .done (.ok v) ∧
    ∃ e ∈ delivered v, e.product ≠ ⟨"P"⟩ := by
  have hgave : (world.gave? 1).map (fun v => (delivered v).map Event.product) = some [⟨"Q"⟩] := by decide +kernel
  obtain ⟨v, hv, hproducts⟩ := Option.map_eq_some_iff.1 hgave
  obtain ⟨τ, hτ, hdone⟩ := done_of_gave? hv
  have hop : some τ.operation.readsOf = some (some ⟨"P"⟩) := by
    rw [← reads_world.2, hτ]
    rfl
  have hmem : (⟨"Q"⟩ : ProductId) ∈ (delivered v).map Event.product := hproducts ▸ List.mem_singleton_self _
  obtain ⟨e, he, hq⟩ := List.mem_map.1 hmem
  refine ⟨τ, v, hτ, Option.some.inj hop, hdone, e, he, ?_⟩
  rw [hq]
  decide

end Foreign

/-- The general theorem at a history whose registration is another product's. -/
theorem provenance_of_read_foreign : ∃ τ v, Foreign.world.tasks 1 = some τ ∧ τ.operation.readsOf = some ⟨"P"⟩ ∧
    τ.rest = .done (.ok v) ∧ delivered v ≠ [] ∧ ∃ record, RecordRead looseClient ⟨"P"⟩ τ.told record ∧
      record.id ≠ ⟨"P"⟩ ∧ ∀ e ∈ delivered v, e.product ≠ ⟨"P"⟩ ↔ e = record.registerEvent := by
  obtain ⟨τ, v, hτ, hop, hdone, e, he, hne⟩ := Foreign.gave_history
  have hsome : delivered v ≠ [] := List.ne_nil_of_mem he
  obtain ⟨record, hrec, -, hforeign, -⟩ := provenance_of_read Foreign.steps_world hτ hop hdone (.inr hsome)
  have hid : record.id ≠ ⟨"P"⟩ := ((hforeign e he).1 hne).2
  exact ⟨τ, v, hτ, hop, hdone, hsome, record, hrec, hid, fun e he => (hforeign e he).trans (and_iff_left hid)⟩

/-- **A client can deliver what is another product's**: the record that it is given, and the registration that it makes
of it. -/
theorem not_all_delivered_own :
    (¬ ∀ (clients : Nat → Client) (w : World Unit) (id : Nat) (τ : Task Unit) (p : ProductId) (r : ProductRecord),
      Steps anyhow clients (.start ()) w → w.tasks id = some τ → τ.operation.readsOf = some p →
      τ.rest = .done (.ok (.record r)) → r.id = p) ∧
    (¬ ∀ (clients : Nat → Client) (w : World Unit) (id : Nat) (τ : Task Unit) (p : ProductId) (v : Rehearsal.Value),
      Steps anyhow clients (.start ()) w → w.tasks id = some τ → τ.operation.readsOf = some p →
      τ.rest = .done (.ok v) → ∀ e ∈ delivered v, e.product = p) := by
  constructor
  · intro hall
    obtain ⟨τ, r, hτ, hop, hdone, hid⟩ := Foreign.gave_record
    have hown := hall _ _ 0 τ ⟨"P"⟩ r Foreign.steps_world hτ hop hdone
    rw [hid] at hown
    exact absurd hown (by decide)
  · intro hall
    obtain ⟨τ, v, hτ, hop, hdone, e, he, hne⟩ := Foreign.gave_history
    exact hne (hall _ _ 1 τ ⟨"P"⟩ v Foreign.steps_world hτ hop hdone e he)

end Interleaving

end SupplyTrail
