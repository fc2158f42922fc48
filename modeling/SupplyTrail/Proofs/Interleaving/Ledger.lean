import SupplyTrail.Proofs.Interleaving.Progress
import SupplyTrail.Proofs.Ledger.Queries
import SupplyTrail.Proofs.Trail.Order
/-!
# Ledger — clients that share one ledger

The ledger applies what is submitted, at once or later, and may report as failed what it applied or will apply; what it
confirms was applied.  Queries read its state.  Every reading an operation has got is still true: events that were
recorded stay as they are.
-/
namespace SupplyTrail.Interleaving

open Client Activity
open Rehearsal (Result Store)

/-- The ledger around the clients: its state, and the calls of submissions that were reported as failed and may still be
applied. -/
structure Scene where
  store : Store
  tidy : store.Tidy
  late : List ContractCall

def Scene.empty : Scene := ⟨.empty, Store.tidy_empty, []⟩

/-- What kind of ledger it is. -/
structure Regime where
  /-- Operations run at the same time and not in turns. -/
  parallel : Prop
  /-- Queries may fail. -/
  failing : Prop
  /-- The ledger is written by others too. -/
  foreign : Prop
  /-- A submission may be reported as failed although it was applied, or will be. -/
  faulty : Prop
  /-- The call that the ledger finds in an envelope. -/
  opens : Envelope → Option ContractCall

/-- The call is that of the invocation with these bytes: the same function and the same arguments.  The bytes tell
doubles apart no further than their text does. -/
def Renders (payload : List UInt8) (call : ContractCall) : Prop :=
  ∃ i : Invocation, i.toBytes = payload ∧ call.function = i.call.function ∧ call.args.outline = i.call.args.outline

/-- What becomes of a submission. -/
inductive Submitted (L : Regime) (e : Envelope) (s : Scene) : Except LedgerFailure Receipt → Scene → Prop
  | confirmed {call : ContractCall} {value : Json} {receipt : Receipt} {s' : Scene} (hopen : L.opens e = some call)
      (happly : s.store.apply call = (.ok value, s'.store)) (hlate : s'.late = s.late) :
      Submitted L e s (.ok receipt) s'
  /-- Applied, and reported as failed. -/
  | unreported {call : ContractCall} {failure : LedgerFailure} {s' : Scene} (hopen : L.opens e = some call)
      (hstore : s'.store = (s.store.apply call).2) (hlate : s'.late = s.late) (hfaulty : L.faulty) :
      Submitted L e s (.error failure) s'
  /-- Reported as failed, and perhaps applied later. -/
  | pending {call : ContractCall} {failure : LedgerFailure} (hopen : L.opens e = some call) (hfaulty : L.faulty) :
      Submitted L e s (.error failure) { s with late := call :: s.late }
  | failed {failure : LedgerFailure} : Submitted L e s (.error failure) s

/-- A late call is applied. -/
def Overdue (s s' : Scene) : Prop :=
  ∃ call ∈ s.late, s'.store = (s.store.apply call).2 ∧ ∀ c ∈ s'.late, c ∈ s.late

/-- Clients that share a ledger.  The active network, the clock, the accounts and the nonces are anything. -/
def ledger (L : Regime) : Surroundings Scene where
  parallel := L.parallel
  own _ _ _ := True
  away
    | .sign _ _ payload, s, a, s' =>
      s' = s ∧ ∀ e, a = .ok e → ∀ call, L.opens e = some call → Renders payload call
    | .query _ call, s, a, s' => s' = s ∧ (a = s.store.read call ∨ L.failing ∧ ∃ failure, a = .error failure)
    | .submit _ e, s, a, s' => Submitted L e s a s'
    | .health _, s, _, s' => s' = s
    | .fetch _ _ _, s, _, s' => s' = s
    | .settle _ _, s, _, s' => s' = s
  other s s' := Overdue s s' ∨ L.foreign ∧ Store.Extends s.store s'.store ∧ s'.late = s.late

variable {L : Regime} {clients : Nat → Client} {w w' : World Scene} {id : Nat} {τ τ' : Task Scene}

theorem scene_cases {q : Question} {v v' : View Scene} {a : q.Answer} (h : Answered (ledger L) q v a v') :
    v'.around = v.around ∨ ∃ url e a', q = .away (.submit url e) ∧ Submitted L e v.around a' v'.around := by
  cases q with
  | own q => exact .inl (around_of_own h)
  | away q =>
    cases q with
    | submit url e =>
      obtain ⟨s, hs, rfl⟩ := h
      exact .inr ⟨url, e, a, rfl, hs⟩
    | sign account network payload =>
      obtain ⟨s, hs, rfl⟩ := h
      exact .inl hs.1
    | query url call =>
      obtain ⟨s, hs, rfl⟩ := h
      exact .inl hs.1
    | health url =>
      obtain ⟨s, hs, rfl⟩ := h
      exact .inl hs
    | fetch t url call =>
      cases a with
      | none => cases h; exact .inl rfl
      | some r =>
        obtain ⟨s, hs, rfl⟩ := h
        exact .inl hs.1
    | settle first others => exact .inl (congrArg View.around h.2)

/-! ## The ledger only grows -/

/-- Everything that was recorded is there as it was. -/
def Grown (s s' : Scene) : Prop := Store.Extends s.store s'.store

theorem grown_of_applied {s s' : Scene} {call : ContractCall} (h : s'.store = (s.store.apply call).2) : Grown s s' := by
  rw [Grown, h]
  exact (s.tidy.apply call).1

theorem grown_of_eq {s s' : Scene} (h : s' = s) : Grown s s' := by
  rw [h]
  exact .refl s.store

theorem develops : Develops (ledger L) Grown where
  refl s := .refl s.store
  trans h h' := Store.Extends.trans h h'
  away {q s a s'} h := by
    cases q with
    | sign account network payload => exact grown_of_eq h.1
    | query url call => exact grown_of_eq h.1
    | health url => exact grown_of_eq h
    | fetch t url call => exact grown_of_eq h
    | settle first others => exact grown_of_eq h
    | submit url e =>
      cases h with
      | confirmed hopen happly hlate => exact grown_of_applied (congrArg Prod.snd happly).symm
      | unreported hopen hstore hlate => exact grown_of_applied hstore
      | pending hopen => exact .refl s.store
      | failed => exact .refl s.store
  other {s s'} h := by
    rcases h with ⟨call, -, hstore, -⟩ | ⟨-, hext, -⟩
    · exact grown_of_applied hstore
    · exact hext

/-! ## What a turn says about the ledger -/

/-- All turns of a dialogue were answered by the ledger that there is now. -/
def Lived (L : Regime) (now : Scene) (d : Dialogue Scene) : Prop := ∀ t ∈ d, Since (ledger L) Grown now t

theorem lived_of_steps {s : Scene} (h : Steps (ledger L) clients (.start s) w) (hτ : w.tasks id = some τ) :
    Lived L w.around τ.told :=
  allSince_of_steps develops h id τ hτ

variable {now m : Scene} {d : Dialogue Scene} {c : Client} {op : Operation} {p : ProductId} {time : UInt64}
  {i : Invocation}
  {e : Envelope}

theorem query_of_since {url : String} {call : ContractCall} {a : Reading}
    (h : Since (ledger L) Grown now ⟨.away (.query url call), a, m⟩) :
    (a = m.store.read call ∨ L.failing ∧ ∃ failure, a = .error failure) ∧ Grown m now := by
  obtain ⟨v, v', hv, ⟨s, ⟨-, ha⟩, -⟩, hfirst, hthen⟩ := h
  have hm : v.around = m := hv
  rw [hm] at ha
  exact ⟨ha, Store.Extends.trans hfirst hthen⟩

theorem read_of_told (hquery : ¬ L.failing) (hlived : Lived L now d) {url : String} {call : ContractCall} {a : Reading}
    (htold : Told d (.away (.query url call)) a) :
    ∃ m : Scene, (⟨.away (.query url call), a, m⟩ : Turn Scene) ∈ d ∧ a = m.store.read call ∧ Grown m now := by
  obtain ⟨m, hm⟩ := htold
  obtain ⟨ha | ⟨hfail, -⟩, hgrown⟩ := query_of_since (hlived _ hm)
  · exact ⟨m, hm, ha, hgrown⟩
  · exact absurd hfail hquery

theorem sign_of_since {account : Account} {network : Network} {payload : List UInt8} {e : Envelope}
    {call : ContractCall}
    (h : Since (ledger L) Grown now ⟨.away (.sign account network payload), .ok e, m⟩) (hopen : L.opens e = some call) :
    Renders payload call := by
  obtain ⟨v, v', hv, ⟨s, ⟨-, ha⟩, -⟩, -⟩ := h
  exact ha e rfl call hopen

theorem call_of_signed {call : ContractCall} (hlived : Lived L now d) (h : Signed c op p time i e d)
    (hopen : L.opens e = some call) :
    call.function = i.call.function ∧ call.args.outline = i.call.args.outline := by
  cases h with
  | mk hinv =>
    obtain ⟨j, hbytes, hfunction, hargs⟩ := sign_of_since (hlived _ List.mem_cons_self) hopen
    obtain ⟨hfunction', hargs'⟩ := Invocation.call_of_toBytes hbytes
    exact ⟨hfunction.trans hfunction', hargs.trans hargs'⟩

theorem submit_of_since {url : String} {e : Envelope} {receipt : Receipt}
    (h : Since (ledger L) Grown now ⟨.away (.submit url e), .ok receipt, m⟩) :
    ∃ call value s', L.opens e = some call ∧ m.store.apply call = (.ok value, s') ∧ Store.Extends s' now.store := by
  obtain ⟨v, v', hv, ⟨s, hs, hv'⟩, -, hthen⟩ := h
  have hm : v.around = m := hv
  rw [hm] at hs
  cases hs with
  | @confirmed call value _ s' hopen happly hlate =>
    rw [hv'] at hthen
    exact ⟨call, value, s.store, hopen, happly, hthen⟩

/-- **What was confirmed was applied**: the ledger took some rendering of a call that was drafted before. -/
theorem applied_of_confirmed (hlived : Lived L now d) (h : Confirmed c op p time i d) :
    ∃ drafted d' t call value s', Drafted c op p time drafted d' ∧ d' <:+ d ∧ t ∈ d ∧
      call.function = drafted.function ∧ call.args.outline = drafted.args.outline ∧
      t.moment.store.apply call = (.ok value, s') ∧ Store.Extends s' now.store := by
  cases h with
  | @mk e receipt m d hsigned =>
    obtain ⟨call, value, s', hopen, happly, hext⟩ := submit_of_since (hlived _ List.mem_cons_self)
    obtain ⟨hfunction, hargs⟩ := call_of_signed (fun t ht => hlived t (List.mem_cons_of_mem _ ht)) hsigned hopen
    obtain ⟨d', hdraft, hd⟩ := hsigned.drafted
    exact ⟨i.call, d', _, call, value, s', hdraft, hd.trans (List.suffix_cons _ d), List.mem_cons_self, hfunction,
      hargs, happly, hext⟩

theorem registered_of_recordRead (h : Lived L now d) {record : ProductRecord} (hread : RecordRead c p d record) :
    now.store.Registered p record := by
  obtain ⟨value, ⟨m, hm⟩, hdecode⟩ := hread
  obtain ⟨ha, hgrown⟩ := query_of_since (h _ hm)
  rcases ha with ha | ⟨-, failure, ha⟩
  · rw [Store.read_product] at ha
    cases hvalue : valueOf? p.text m.store.products with
    | none => rw [hvalue] at ha; cases ha
    | some v =>
      rw [hvalue] at ha
      cases ha
      exact ⟨value, hgrown.products _ _ hvalue, hdecode⟩
  · cases ha

theorem listed_of_idsRead (h : Lived L now d) {ids : List UInt64} (hread : IdsRead c p d ids) :
    ∃ m : Scene, (⟨.away (c.idsQuery p), .ok (Store.numbers (m.store.listed p.text)), m⟩ : Turn Scene) ∈ d ∧
      (valueOf? p.text m.store.products).isSome ∧ ids = (m.store.listed p.text).map UInt64.ofNat ∧ Grown m now := by
  obtain ⟨value, ⟨m, hm⟩, hdecode⟩ := hread
  obtain ⟨ha, hgrown⟩ := query_of_since (h _ hm)
  rcases ha with ha | ⟨-, failure, ha⟩
  · rw [Store.read_ids] at ha
    cases hids : valueOf? p.text m.store.eventIds with
    | none => rw [hids] at ha; cases ha
    | some ids' =>
      rw [hids] at ha
      cases ha
      have hlisted : m.store.listed p.text = ids' := by rw [Store.listed, hids, Option.getD_some]
      rw [Store.list_numbers] at hdecode
      cases hdecode
      exact ⟨m, hlisted ▸ hm, (m.tidy.known _).2 (by rw [hids]; rfl), by rw [hlisted], hgrown⟩
  · cases ha

theorem lt_of_ticket (h : Lived L now d) {ids : List UInt64} (hread : IdsRead c p d ids) {t : Ticket}
    (ht : t ∈ ticketsOf ids) : t.event.toNat < now.store.events.length := by
  obtain ⟨m, -, -, rfl, hgrown⟩ := listed_of_idsRead h hread
  obtain ⟨⟨event, place⟩, hmem, rfl⟩ := List.mem_map.1 ht
  obtain ⟨n, hn, rfl⟩ := List.mem_map.1 (List.fst_mem_of_mem_zipIdx hmem)
  rw [m.tidy.toNat_ofNat hn]
  exact Nat.lt_of_lt_of_le (m.tidy.lt_of_listed hn) hgrown.events.length_le

end SupplyTrail.Interleaving
