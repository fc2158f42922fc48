import SupplyTrail.Proofs.Interleaving.Ledger
import SupplyTrail.Proofs.Interleaving.Play
import SupplyTrail.Proofs.Ledger.Drafts
/-!
# Memory — operations alone with the ledger in memory

The ledger in memory opens an envelope whose content is the hexadecimal text of an invocation, applies the invocation
at once and reports what came of it.  It is one of the ledgers that clients may share.  An operation that nothing
interrupts gets through with it.
-/
namespace SupplyTrail.Interleaving

open Client Activity
open Rehearsal (Store Result ofClient)

/-- The ledger in memory, for operations that run in turns: no query fails, and nobody else writes. -/
def inMemory : Regime where
  parallel := False
  failing := False
  foreign := False
  faulty := False
  opens e := (Store.invocation? e.content).map Invocation.call

theorem opens_inMemory (e : Envelope) : inMemory.opens e = (Store.invocation? e.content).map Invocation.call := rfl

theorem opens_of_plain {i : Invocation} (h : Plain i.call.args) (signer : String) :
    inMemory.opens ⟨signer, Text.encodeHex i.toBytes⟩ = some i.call := by
  rw [opens_inMemory, invocation?_of_plain h, Option.map_some]

/-- The rules for an operation alone with the ledger in memory. -/
abbrev withMemory : Rules questions (View Scene × Dialogue Scene) := alone (ledger inMemory)

variable {α : Type} {c : Client} {v : View Scene} {d : Dialogue Scene} {p : ProductId} {key : String} {time : UInt64}

/-- The invocation that a client with this account submits. -/
def invocationOf (c : Client) (call : ContractCall) (key : String) : Invocation :=
  .make call key c.endpoint.network 0

def envelopeOf (c : Client) (call : ContractCall) (key : String) : Envelope :=
  ⟨key, Text.encodeHex (invocationOf c call key).toBytes⟩

/-- The turns in which a call becomes an invocation and is signed. -/
def signing (c : Client) (call : ContractCall) (key : String) (m : Scene) : Dialogue Scene :=
  [⟨.away (.sign ⟨key⟩ c.endpoint.network (invocationOf c call key).toBytes), .ok (envelopeOf c call key), m⟩,
    ⟨.own .account, some ⟨key⟩, m⟩, ⟨.own .nonce, 0, m⟩, ⟨.own .account, some ⟨key⟩, m⟩]

/-! ## One question -/

theorem goes_own {q : Own} {a : q.Answer} {v' : View Scene} (h : Answered (ledger inMemory) (.own q) v a v') :
    Goes withMemory (own q) (v, d) (.done a) (v', ⟨.own q, a, v.around⟩ :: d) :=
  .ask a ⟨h, rfl⟩ .refl

theorem goes_connectedKey (key : String) :
    Goes withMemory connectedKey.run (v, d) (.done (.ok key)) (v, ⟨.own .account, some ⟨key⟩, v.around⟩ :: d) :=
  .bindRun (goes_own (a := some ⟨key⟩) ⟨trivial, rfl⟩) .refl

theorem goes_signature {call : ContractCall} (h : Plain call.args) (key : String) :
    Goes withMemory (signature c.endpoint.network (invocationOf c call key).toBytes) (v, d)
      (.done (.ok (envelopeOf c call key)))
      (v, ⟨.away (.sign ⟨key⟩ c.endpoint.network (invocationOf c call key).toBytes), .ok (envelopeOf c call key),
        v.around⟩ :: ⟨.own .account, some ⟨key⟩, v.around⟩ :: d) := by
  have hsound : ∀ e, (.ok (envelopeOf c call key) : Except WalletError Envelope) = .ok e → ∀ found,
      inMemory.opens e = some found → Renders (invocationOf c call key).toBytes found := by
    rintro e he found hfound
    cases he
    have hplain : Plain (invocationOf c call key).call.args := h
    rw [envelopeOf, opens_of_plain hplain] at hfound
    cases hfound
    exact ⟨_, rfl, rfl, rfl⟩
  refine .bind (goes_own (a := some ⟨key⟩) ⟨trivial, rfl⟩) ?_
  exact .ask _ ⟨⟨v.around, ⟨rfl, hsound⟩, rfl⟩, rfl⟩ .refl

/-- A submission comes to the point where its envelope is signed. -/
theorem goes_toSubmit {function : String} {args : Json} (h : Plain args) (product : ProductId) (key : String) :
    Goes withMemory (c.submit function args product).run (v, d)
      (.ask (.away (.submit c.endpoint.rpcUrl (envelopeOf c (c.call function args) key)))
        fun r => (c.accept (some product) r).run)
      (v, signing c (c.call function args) key v.around ++ d) := by
  refine .bindOp (goes_connectedKey key) ?_
  refine .bindRun (goes_own (a := (0 : UInt64)) ⟨trivial, rfl⟩) ?_
  exact .bindRun (goes_signature h key) .refl

theorem goes_confirmed {call : ContractCall} {next : Except LedgerFailure Receipt → Run α} {url : String} {value : Json}
    {s : Scene} (h : Plain call.args) (happly : v.around.store.apply call = (.ok value, s.store))
    (hlate : s.late = v.around.late) (receipt : Receipt) :
    Goes withMemory (.ask (.away (.submit url (envelopeOf c call key))) next) (v, d) (next (.ok receipt))
      ({ v with around := s }, ⟨.away (.submit url (envelopeOf c call key)), .ok receipt, v.around⟩ :: d) := by
  have hopen : inMemory.opens (envelopeOf c call key) = some call := by
    have hplain : Plain (invocationOf c call key).call.args := h
    exact opens_of_plain hplain key
  exact .ask (.ok receipt) ⟨⟨s, .confirmed hopen happly hlate, rfl⟩, rfl⟩ .refl

def submission (c : Client) (call : ContractCall) (key : String) (receipt : Receipt) (m : Scene) : Dialogue Scene :=
  ⟨.away (.submit c.endpoint.rpcUrl (envelopeOf c call key)), .ok receipt, m⟩ :: signing c call key m

theorem goes_submit {function : String} {args : Json} {value : Json} {s : Scene} (h : Plain args)
    (happly : v.around.store.apply (c.call function args) = (.ok value, s.store)) (hlate : s.late = v.around.late)
    (product : ProductId) (key : String) (receipt : Receipt) :
    Goes withMemory (c.submit function args product).run (v, d) (.done (.ok receipt))
      ({ v with around := s }, submission c (c.call function args) key receipt v.around ++ d) :=
  (goes_toSubmit h product key).trans (goes_confirmed h happly hlate receipt)

/-- The turn in which a client, if it is bound to its network, finds that one active. -/
def checking (c : Client) (m : Scene) : Dialogue Scene :=
  if c.isBound then [⟨.own .activeNetwork, c.endpoint.network, m⟩] else []

theorem goes_checkNetwork :
    Goes withMemory c.checkNetwork.run (v, d) (.done (.ok ())) (v, checking c v.around ++ d) := by
  unfold checkNetwork checking
  by_cases hbound : c.isBound = true
  · rw [if_pos hbound, if_pos hbound]
    refine .bindRun (goes_own (a := c.endpoint.network) ⟨trivial, rfl⟩) ?_
    rw [if_neg (not_not.2 rfl)]
    exact .refl
  · rw [if_neg hbound, if_neg hbound]
    exact .refl

theorem goes_checked {r : Except InputError α} {a : α} (h : r = .ok a) :
    Goes withMemory (checked r).run (v, d) (.done (.ok a)) (v, d) := by
  subst h
  exact .refl

def recording (p : ProductId) (time : UInt64) (line : LogLine) (m : Scene) : Dialogue Scene :=
  [⟨.own (.remember p time), (), m⟩, ⟨.own (.note line), (), m⟩]

theorem goes_recorded {line : String} {a : α} :
    Goes withMemory ((liftM (note .info line) : Op Unit) >>= fun _ =>
        (liftM (own (.remember p time)) : Op Unit) >>= fun _ => (pure a : Op α)).run (v, d)
      (.done (.ok a)) ({ v with known := Function.update v.known p (some time) },
        recording p time ⟨.info, line⟩ v.around ++ d) := by
  have hnote : Answered (ledger inMemory) (.own (.note ⟨.info, line⟩)) v () v := rfl
  have hremember : Answered (ledger inMemory) (.own (.remember p time)) v ()
    { v with known := Function.update v.known p (some time) } := rfl
  exact .bindRun (goes_own hnote) (.bindRun (goes_own hremember) .refl)

/-! ## Whole operations -/

/-- The dialogue in which an operation has drafted a registration. -/
def registerDraft (c : Client) (key : String) (time : UInt64) (m : Scene) : Dialogue Scene :=
  ⟨.own .account, some ⟨key⟩, m⟩ :: ⟨.own .clock, time, m⟩ :: checking c m

theorem goes_register {details : ProductDetails} {value : Json} {s : Scene}
    (hcheck : details.check = .ok ())
    (hevent : Event.check ⟨details.id, .register, time, details.registerMetadata⟩ =
      .ok ⟨details.id, .register, time, details.registerMetadata⟩)
    (happly : v.around.store.apply (c.call "register_product" (registerArgs details key time)) = (.ok value, s.store))
    (hlate : s.late = v.around.late) (receipt : Receipt) :
    Goes withMemory (c.register details).run (v, []) (.done (.ok details.id))
      ({ v with around := s, known := Function.update v.known details.id (some time) },
        recording details.id time ⟨.info, s!"Registered product {details.id.text} in transaction {receipt.hash}"⟩ s ++
          (submission c (c.call "register_product" (registerArgs details key time)) key receipt v.around ++
            registerDraft c key time v.around)) := by
  refine .bindOp goes_checkNetwork ?_
  rw [List.append_nil]
  refine .bindOp (goes_checked hcheck) ?_
  refine .bindRun (goes_own (a := time) ⟨trivial, rfl⟩) ?_
  refine .bindOp (goes_checked hevent) ?_
  refine .bindOp (goes_connectedKey key) ?_
  refine .bindOp (goes_submit (plain_registerArgs details key time) happly hlate details.id key receipt) ?_
  exact goes_recorded

/-- The dialogue in which an append has drafted its event, for a product that the client knows. -/
def appendDraft (c : Client) (p : ProductId) (key : String) (now last : UInt64) (m : Scene) : Dialogue Scene :=
  ⟨.own .clock, now, m⟩ :: ⟨.own (.lastSeen p), some last, m⟩ :: ⟨.own .account, some ⟨key⟩, m⟩ :: checking c m

theorem clock_of_appendDraft {call : ContractCall} {now last clock : UInt64} {m m' : Scene}
    (h : ⟨.own .clock, clock, m'⟩ ∈ signing c call key m ++ appendDraft c p key now last m) : clock = now := by
  have hmem : clock = now ∧ m' = m := by
    unfold signing appendDraft checking at h
    split at h <;> simpa using h
  exact hmem.1

theorem lastSeen_of_appendDraft {call : ContractCall} {now last : UInt64} {seen : Option UInt64} {m m' : Scene}
    (h : ⟨.own (.lastSeen p), seen, m'⟩ ∈ signing c call key m ++ appendDraft c p key now last m) :
    seen = some last := by
  have hmem : seen = some last ∧ m' = m := by
    unfold signing appendDraft checking at h
    split at h <;> simpa using h
  exact hmem.1

def appendCall (c : Client) (e : Event) (key : String) : ContractCall :=
  c.call "add_tracking_event" (appendArgs e key)

/-- What remains of an append after its submission was answered. -/
def afterSubmit (c : Client) (e : Event) (r : Except LedgerFailure Receipt) : Op Event := do
  let receipt ← c.accept (some e.product) r
  note .info s!"Appended {e.kind.symbol} to {e.product.text} in transaction {receipt.hash}"
  own (.remember e.product e.time)
  return e

theorem goes_append {kind : EventKind} {metadata : Metadata} {last : UInt64} (key : String) (now : UInt64)
    (hkind : kind ≠ .register)
    (hcheck : Event.check ⟨p, kind, 0, metadata⟩ = .ok ⟨p, kind, 0, metadata⟩) (hfaithful : Faithful metadata)
    (hlast : v.known p = some last) :
    Goes withMemory (c.append p kind metadata).run (v, [])
      (.ask (.away (.submit c.endpoint.rpcUrl (envelopeOf c (appendCall c ⟨p, kind, max now last, metadata⟩ key) key)))
        fun r => (afterSubmit c ⟨p, kind, max now last, metadata⟩ r).run)
      (v, signing c (appendCall c ⟨p, kind, max now last, metadata⟩ key) key v.around ++
        appendDraft c p key now last v.around) := by
  have hplain : Plain (appendArgs ⟨p, kind, max now last, metadata⟩ key) :=
    plain_appendArgs (e := ⟨p, kind, max now last, metadata⟩) hfaithful key
  refine .bindOp goes_checkNetwork ?_
  rw [if_neg hkind, List.append_nil]
  refine .bindOp (goes_checked hcheck) ?_
  refine .bindOp (goes_connectedKey key) ?_
  refine .bindOp (b := last) (.bindRun (goes_own (a := some last) ⟨hlast.symm, rfl⟩) .refl) ?_
  refine .bindRun (goes_own (a := now) ⟨trivial, rfl⟩) ?_
  exact Goes.before _ (goes_toSubmit hplain p key)

theorem goes_getProduct {value : Json} {record : ProductRecord}
    (hp : valueOf? p.text v.around.store.products = some value)
    (hdecode : ProductRecord.decode value.toSource = .ok record) :
    Goes withMemory (c.getProduct p).run (v, d) (.done (.ok record))
      (v, ⟨.away (c.recordQuery p), .ok value, v.around⟩ :: (checking c v.around ++ d)) := by
  have hread : .ok value = v.around.store.read (c.call "get_product" (idArgs p)) := by
    rw [Store.read_product, hp]
    rfl
  have hquery : ∀ d, Goes withMemory (c.query "get_product" (idArgs p) p).run (v, d) (.done (.ok value))
      (v, ⟨.away (c.recordQuery p), .ok value, v.around⟩ :: d) := fun d =>
    .bindRun (.ask (.ok value) ⟨⟨v.around, ⟨rfl, .inl hread⟩, rfl⟩, rfl⟩ .refl) .refl
  refine .bindOp goes_checkNetwork ?_
  refine .bindOp (hquery _) ?_
  rw [hdecode]
  exact .refl

/-- **The history of a product without events** comes to the query for its numbers, and from there to its end. -/
theorem exists_history {value : Json} {record : ProductRecord}
    (hp : valueOf? p.text v.around.store.products = some value)
    (hdecode : ProductRecord.decode value.toSource = .ok record) :
    ∃ next, Goes withMemory (c.getHistory p).run (v, []) (.ask (.away (c.idsQuery p)) next)
        (v, ⟨.away (c.recordQuery p), .ok value, v.around⟩ :: checking c v.around) ∧
      next (.ok (Store.numbers [])) =
        .ask (.own (.remember p record.createdAt)) fun _ => .done (.ok ⟨p, [record.registerEvent]⟩) := by
  have hhead : ∃ next, Goes withMemory (c.trailHead p).run (v, []) (.ask (.away (c.idsQuery p)) next)
      (v, ⟨.away (c.recordQuery p), .ok value, v.around⟩ :: checking c v.around) ∧
      next (.ok (Store.numbers [])) = .done (.ok (record.registerEvent, [])) := by
    have hproduct := goes_getProduct (c := c) (d := []) hp hdecode
    rw [List.append_nil] at hproduct
    exact ⟨_, .bindOp hproduct .refl, rfl⟩
  obtain ⟨next, hgoes, hnext⟩ := hhead
  have hconclude : (conclude p (.ofEvents p [record.registerEvent])).run =
      .ask (.own (.remember p record.createdAt)) fun _ => .done (.ok ⟨p, [record.registerEvent]⟩) := by
    rw [History.ofEvents_singleton]
    rfl
  rw [getHistory_eq]
  refine ⟨_, Goes.before _ hgoes, ?_⟩
  dsimp only
  rw [hnext]
  exact hconclude

/-- **A history read begins with the check of the network.** -/
theorem exists_getHistory_checked (c : Client) (p : ProductId) (v : View Scene) :
    ∃ y, Goes withMemory (c.getHistory p).run (v, []) y (v, checking c v.around) := by
  have hproduct : ∃ y, Goes withMemory (c.getProduct p).run (v, []) y (v, checking c v.around ++ []) :=
    ⟨_, .bindOp goes_checkNetwork .refl⟩
  obtain ⟨y, hy⟩ := hproduct
  rw [List.append_nil] at hy
  rw [getHistory_eq]
  exact ⟨_, Goes.before _ (Goes.before _ hy)⟩

theorem apply_registerCall {s : Store} {details : ProductDetails} (c : Client) (key : String) (time : UInt64)
    (hnew : valueOf? details.id.text s.products = none) :
    s.apply (c.call "register_product" (registerArgs details key time)) =
      (.ok (.string details.id.text), s.withProduct (c.call "register_product" (registerArgs details key time))) := by
  have hknown : ¬ (valueOf? details.id.text s.products).isSome := by
    rw [hnew]
    exact Bool.false_ne_true
  rw [Store.apply_register rfl]
  exact if_neg hknown

theorem apply_appendCall {s : Store} {event : Event} (c : Client) (key : String)
    (hknown : (valueOf? event.product.text s.products).isSome) :
    s.apply (appendCall c event key) =
      (.ok (.word (UInt64.ofNat s.events.length)), s.withEvent (appendCall c event key)) := by
  have hid : Store.appending (appendCall c event key) = event.product.text := rfl
  rw [Store.apply_append rfl, hid, if_pos hknown]

theorem fits_withEvent {s : Store} (h : s.events.length < UInt64.size) (call : ContractCall) :
    (s.withEvent call).Fits := by
  have hlength : (s.withEvent call).events.length = s.events.length + 1 := by
    rw [Store.withEvent, Store.record, List.length_append, List.length_singleton]
  rw [Store.Fits, hlength]
  exact h

theorem fits_first {s : Store} (h : s.events = []) (call : ContractCall) : (s.withEvent call).Fits :=
  fits_withEvent (by rw [h]; decide) call

/-- **An append whose submission is confirmed** comes to its end. -/
theorem goes_appended {kind : EventKind} {metadata : Metadata} {now last : UInt64} {value : Json} {s : Scene}
    (hkind : kind ≠ .register)
    (hcheck : Event.check ⟨p, kind, 0, metadata⟩ = .ok ⟨p, kind, 0, metadata⟩) (hfaithful : Faithful metadata)
    (hlast : v.known p = some last)
    (happly : v.around.store.apply (appendCall c ⟨p, kind, max now last, metadata⟩ key) = (.ok value, s.store))
    (hlate : s.late = v.around.late) (receipt : Receipt) :
    ∃ d', Goes withMemory (c.append p kind metadata).run (v, []) (.done (.ok ⟨p, kind, max now last, metadata⟩))
      ({ v with around := s, known := Function.update v.known p (some (max now last)) }, d') := by
  have hplain : Plain (appendCall c ⟨p, kind, max now last, metadata⟩ key).args :=
    plain_appendArgs (e := ⟨p, kind, max now last, metadata⟩) hfaithful key
  exact ⟨_, (goes_append key now hkind hcheck hfaithful hlast).trans
    ((goes_confirmed hplain happly hlate receipt).trans goes_recorded)⟩

/-! ## In a world -/

variable (clients : Nat → Client) {w : World Scene} {id member : Nat}

/-- **A registration of a new product goes through.** -/
theorem exists_registered (member : Nat) {details : ProductDetails} (key : String) (time : UInt64)
    (hcheck : details.check = .ok ())
    (hevent : Event.check ⟨details.id, .register, time, details.registerMetadata⟩ =
      .ok ⟨details.id, .register, time, details.registerMetadata⟩)
    (hnew : valueOf? details.id.text w.around.store.products = none) (hrun : w.running = none)
    (hid : w.tasks id = none) :
    ∃ w', Steps (ledger inMemory) clients w w' ∧ w'.running = none ∧
      w'.around.store = w.around.store.withProduct
        ((clients member).call "register_product" (registerArgs details key time)) ∧
      w'.known member = Function.update (w.known member) details.id (some time) ∧
      (∃ τ, w'.tasks id = some τ ∧ τ.member = member) ∧ ∀ i, i ≠ id → w'.tasks i = w.tasks i := by
  have htidy := Store.tidy_withProduct w.around.tidy
    (c := (clients member).call "register_product" (registerArgs details key time)) hnew
  have happly := apply_registerCall (clients member) key time hnew
  have hgoes := goes_register (v := ⟨w.around, w.known member, []⟩)
    (s := ⟨_, htidy, w.around.late⟩) hcheck hevent
    happly rfl ⟨"", none, none⟩
  have hbegun : Stands (w.begin clients id member (.register details)) id member _ _ _ := stands_begin hrun
  obtain ⟨w', hsteps, hstands, hothers⟩ := hbegun.goes (.bind (b := .ok details.id) hgoes .refl)
  refine ⟨w', .head (.begin member (.register details) hid) hsteps, hstands.free rfl, ?_, hstands.known,
    ⟨_, hstands.task, rfl⟩, fun i hi => ?_⟩
  · rw [hstands.around]
  · exact (hothers i hi).trans (Function.update_of_ne hi _ _)

theorem exists_remembered {op : Operation} {r : Result} (h : Stands w id member op
      (.ask (.own (.remember p time)) fun _ => .done r) (v, d)) :
    ∃ w', Step (ledger inMemory) clients w w' ∧ w'.running = none ∧
      Stands w' id member op (.done r) ({ v with known := Function.update v.known p (some time) },
        ⟨.own (.remember p time), (), v.around⟩ :: d) ∧ ∀ i, i ≠ id → w'.tasks i = w.tasks i := by
  have hremember : Answered (ledger inMemory) (.own (.remember p time)) v ()
    { v with known := Function.update v.known p (some time) } := rfl
  obtain ⟨w', hstep, hdone, -, hothers⟩ := h.answer (S := ledger inMemory) (a := ())
    (t := ({ v with known := Function.update v.known p (some time) }, ⟨.own (.remember p time), (), v.around⟩ :: d))
    ⟨hremember, rfl⟩
  exact ⟨w', hstep, hdone.free rfl, hdone, hothers⟩

/-- What remains of an append as an operation after its submission was answered. -/
def afterAppend (c : Client) (e : Event) (r : Except LedgerFailure Receipt) : Run Result :=
  ofClient .event (afterSubmit c e r)

/-- A confirmed append has only to remember its time once it is logged. -/
theorem goes_afterAppend {event : Event} (receipt : Receipt) :
    Goes withMemory (afterAppend c event (.ok receipt)) (v, d)
      (.ask (.own (.remember event.product event.time)) fun _ => .done (.ok (.event event)))
      (v, ⟨.own (.note ⟨.info,
        s!"Appended {event.kind.symbol} to {event.product.text} in transaction {receipt.hash}"⟩), (),
        v.around⟩ :: d) := by
  have hnote : Answered (ledger inMemory) (.own (.note ⟨.info,
    s!"Appended {event.kind.symbol} to {event.product.text} in transaction {receipt.hash}"⟩)) v () v := rfl
  exact .ask () ⟨hnote, rfl⟩ .refl

/-- **An append to a product that the client knows comes to its submission.** -/
theorem exists_submitting (id member : Nat) {kind : EventKind} {metadata : Metadata} {last : UInt64} (key : String)
    (now : UInt64) (hkind : kind ≠ .register)
    (hcheck : Event.check ⟨p, kind, 0, metadata⟩ = .ok ⟨p, kind, 0, metadata⟩) (hfaithful : Faithful metadata)
    (hlast : w.known member p = some last) (hrun : w.running = none) (hid : w.tasks id = none) :
    ∃ w', Steps (ledger inMemory) clients w w' ∧ w'.running = none ∧
      Stands w' id member (.append p kind metadata)
        (.ask (.away (.submit (clients member).endpoint.rpcUrl
            (envelopeOf (clients member) (appendCall (clients member) ⟨p, kind, max now last, metadata⟩ key) key)))
          (afterAppend (clients member) ⟨p, kind, max now last, metadata⟩))
        (⟨w.around, w.known member, []⟩,
          signing (clients member) (appendCall (clients member) ⟨p, kind, max now last, metadata⟩ key) key w.around ++
            appendDraft (clients member) p key now last w.around) ∧
      ∀ i, i ≠ id → w'.tasks i = w.tasks i := by
  have hgoes := goes_append (c := clients member) (v := ⟨w.around, w.known member, []⟩) key now hkind hcheck hfaithful
    hlast
  have hbegun : Stands (w.begin clients id member (.append p kind metadata)) id member _ _ _ := stands_begin hrun
  obtain ⟨w', hsteps, hstands, hothers⟩ := hbegun.goes (hgoes.before _)
  refine ⟨w', .head (.begin member (.append p kind metadata) hid) hsteps, hstands.free rfl, hstands, fun i hi => ?_⟩
  exact (hothers i hi).trans (Function.update_of_ne hi _ _)

/-- **An append whose product is registered is confirmed**, and returns in the step that remembers its time. -/
theorem exists_returned (event : Event) {url : String} (hfaithful : Faithful event.metadata)
    (hknown : (valueOf? event.product.text v.around.store.products).isSome)
    (hfits : (v.around.store.withEvent (appendCall c event key)).Fits) {op : Operation}
    (h : Stands w id member op (.ask (.away (.submit url (envelopeOf c (appendCall c event key) key)))
      (afterAppend c event)) (v, d)) :
    ∃ w₀ w₁ τ₀ τ₁, Steps (ledger inMemory) clients w w₀ ∧ Step (ledger inMemory) clients w₀ w₁ ∧ w₁.running = none ∧
      w₀.tasks id = some τ₀ ∧ (∀ r, τ₀.rest ≠ .done r) ∧
      w₁.tasks id = some τ₁ ∧ τ₁.member = member ∧ τ₁.operation = op ∧ τ₁.rest = .done (.ok (.event event)) ∧
      w₁.known member = Function.update v.known event.product (some event.time) ∧
      w₁.around.store = v.around.store.withEvent (appendCall c event key) ∧
      ∀ i, i ≠ id → w₁.tasks i = w.tasks i := by
  have hplain : Plain (appendCall c event key).args := plain_appendArgs hfaithful key
  have hid : Store.appending (appendCall c event key) = event.product.text := rfl
  have htidy := Store.tidy_withEvent v.around.tidy (c := appendCall c event key) (hid ▸ hknown) hfits
  have happly := apply_appendCall c key hknown
  have hconfirmed : Goes withMemory (.ask (.away (.submit url (envelopeOf c (appendCall c event key) key)))
    (afterAppend c event)) (v, d) _ _ :=
    goes_confirmed (s := ⟨_, htidy, v.around.late⟩) hplain happly rfl ⟨"", none, none⟩
  obtain ⟨w₀, h₀, hstands₀, hothers₀⟩ := h.goes (hconfirmed.trans (goes_afterAppend _))
  obtain ⟨w₁, hstep, hrun, hstands₁, hothers₁⟩ := exists_remembered clients hstands₀
  refine ⟨w₀, w₁, _, _, h₀, hstep, hrun, hstands₀.task, fun r hr => (by cases hr), hstands₁.task, rfl, rfl, rfl,
    hstands₁.known, ?_, fun i hi => (hothers₁ i hi).trans (hothers₀ i hi)⟩
  rw [hstands₁.around]

/-- **An append to a product that the client knows is recorded.** -/
theorem exists_recorded (id member : Nat) {kind : EventKind} {metadata : Metadata} {last : UInt64} (key : String)
    (now : UInt64) (hkind : kind ≠ .register)
    (hcheck : Event.check ⟨p, kind, 0, metadata⟩ = .ok ⟨p, kind, 0, metadata⟩) (hfaithful : Faithful metadata)
    (hlast : w.known member p = some last) (hthere : (valueOf? p.text w.around.store.products).isSome)
    (hroom : w.around.store.events.length < UInt64.size) (hrun : w.running = none) (hid : w.tasks id = none) :
    ∃ w', Steps (ledger inMemory) clients w w' ∧ w'.running = none ∧ w'.known member p = some (max now last) ∧
      w'.around.store = w.around.store.withEvent (appendCall (clients member) ⟨p, kind, max now last, metadata⟩ key) ∧
      ∀ i, i ≠ id → w'.tasks i = w.tasks i := by
  obtain ⟨w₁, h₁, -, hstands, hothers₁⟩ := exists_submitting clients id member key now hkind hcheck hfaithful hlast hrun
    hid
  obtain ⟨w₂, w₃, -, -, h₂, hstep, hrun₃, -, -, -, -, -, -, hknown, hstore, hothers₂⟩ := exists_returned clients
    ⟨p, kind, max now last, metadata⟩ hfaithful hthere (fits_withEvent hroom _) hstands
  refine ⟨w₃, (h₁.trans h₂).tail hstep, hrun₃, ?_, hstore, fun i hi => (hothers₂ i hi).trans (hothers₁ i hi)⟩
  rw [hknown]
  exact Function.update_self _ _ _

/-- The trail that an append leaves. -/
theorem parse_trail_appended {e : Event} (hcheck : Event.check e = .ok e) (c : Client) (key : String) (s : Store) :
    ((s.withEvent (appendCall c e key)).trail e.product.text).map Event.parse =
      (s.trail e.product.text).map Event.parse ++ [.ok e] := by
  have hid : Store.appending (appendCall c e key) = e.product.text := rfl
  have hargs : (appendCall c e key).args = appendArgs e key := rfl
  rw [Store.trail_withEvent, if_pos hid, hargs, List.map_append, List.map_singleton,
    parse_eventRecord_appendArgs hcheck]

/-- **The history of a product without events is read** up to the answer to its last query. -/
theorem exists_historyRead (id member : Nat) {value : Json} {record : ProductRecord}
    (hp : valueOf? p.text w.around.store.products = some value)
    (hdecode : ProductRecord.decode value.toSource = .ok record)
    (hids : valueOf? p.text w.around.store.eventIds = some []) (hrun : w.running = none) (hid : w.tasks id = none) :
    ∃ w', Steps (ledger inMemory) clients w w' ∧ w'.running = none ∧
      Stands w' id member (.getHistory p)
        (.ask (.own (.remember p record.createdAt)) fun _ => .done (.ok (.history ⟨p, [record.registerEvent]⟩)))
        (⟨w.around, w.known member, []⟩, ⟨.away ((clients member).idsQuery p), .ok (Store.numbers []), w.around⟩ ::
          ⟨.away ((clients member).recordQuery p), .ok value, w.around⟩ :: checking (clients member) w.around) ∧
      ∀ i, i ≠ id → w'.tasks i = w.tasks i := by
  obtain ⟨next, hgoes, hnext⟩ := exists_history (v := ⟨w.around, w.known member, []⟩) hp hdecode
  have hbegun : Stands (w.begin clients id member (.getHistory p)) id member _ _ _ := stands_begin hrun
  obtain ⟨w₁, hsteps, hstands, hothers⟩ := hbegun.goes (hgoes.before _)
  have hread : .ok (Store.numbers []) =
      w.around.store.read ((clients member).call "get_product_event_ids" (idArgs p)) := by
    rw [Store.read_ids, hids]
    rfl
  obtain ⟨w₂, hstep, hstands₂, hfree, hothers₂⟩ := hstands.answer (S := ledger inMemory)
    (a := (.ok (Store.numbers []) : Reading))
    (t := (⟨w.around, w.known member, []⟩, ⟨.away ((clients member).idsQuery p), .ok (Store.numbers []), w.around⟩ ::
      ⟨.away ((clients member).recordQuery p), .ok value, w.around⟩ :: checking (clients member) w.around))
    ⟨⟨w.around, ⟨rfl, .inl hread⟩, rfl⟩, rfl⟩
  rw [hnext] at hstands₂
  refine ⟨w₂, .head (.begin member (.getHistory p) hid) (hsteps.tail hstep), hfree rfl, hstands₂, fun i hi => ?_⟩
  exact ((hothers₂ i hi).trans (hothers i hi)).trans (Function.update_of_ne hi _ _)

/-- The event that an append leaves at a time. -/
def checkpoint (time : UInt64) : Event := ⟨⟨"P"⟩, .checkpoint, time, .empty⟩

theorem check_checkpoint : Event.check (checkpoint 0) = .ok (checkpoint 0) := by rfl

theorem faithful_empty : Faithful .empty :=
  ⟨fun _ h => (by cases h), fun _ h => (by cases h), fun _ h => (by cases h)⟩

/-- The ledger when one client has registered one product, at time 100. -/
theorem exists_product : ∃ w : World Scene, Steps (ledger inMemory) clients (.start .empty) w ∧
    w.running = none ∧
    valueOf? "P" w.around.store.products = some (Store.productRecord (registerArgs (.ofId ⟨"P"⟩) "GA" 100)) ∧
    valueOf? "P" w.around.store.eventIds = some [] ∧ w.around.store.events = [] ∧ w.known 0 ⟨"P"⟩ = some 100 ∧
    (∃ τ, w.tasks 0 = some τ ∧ τ.member = 0) ∧ ∀ i, i ≠ 0 → w.tasks i = none := by
  have hcheck : (ProductDetails.ofId ⟨"P"⟩).check = .ok () := by rfl
  have hevent : Event.check ⟨⟨"P"⟩, .register, 100, (ProductDetails.ofId ⟨"P"⟩).registerMetadata⟩ =
      .ok ⟨⟨"P"⟩, .register, 100, (ProductDetails.ofId ⟨"P"⟩).registerMetadata⟩ := by rfl
  have hid : (World.start Scene.empty).tasks 0 = none := rfl
  obtain ⟨w, hsteps, hrun, hstore, hknown, htask, hothers⟩ := exists_registered clients 0 "GA" 100 hcheck
    hevent rfl rfl hid
  refine ⟨w, hsteps, hrun, ?_, ?_, ?_, ?_, htask, hothers⟩
  · rw [hstore]
    exact Store.valueOf?_put_self _ _ _
  · rw [hstore]
    exact Store.valueOf?_put_self _ _ _
  · rw [hstore]
    rfl
  · rw [hknown]
    exact Function.update_self _ _ _

/-- The other event that an append leaves at a time. -/
def transfer (time : UInt64) : Event := ⟨⟨"P"⟩, .transfer, time, .empty⟩

/-- The ledger when one client has registered one product, at time 100, and has appended two events to it, the first of
them while its clock says 50. -/
theorem exists_trail : ∃ w₁ w₂ : World Scene, Steps (ledger inMemory) clients (.start .empty) w₁ ∧
    (valueOf? "P" w₁.around.store.products).isSome ∧ w₁.around.store.events = [] ∧ w₁.tasks 3 = none ∧
    Steps (ledger inMemory) clients w₁ w₂ ∧ w₂.running = none ∧ w₂.tasks 3 = none ∧
    w₂.around.store.Registered ⟨"P"⟩ ((ProductDetails.ofId ⟨"P"⟩).recorded "GA" 100) ∧
    (w₂.around.store.trail "P").map Event.parse = [checkpoint 100, transfer 100].map .ok := by
  obtain ⟨w₁, h₁, hrun₁, hvalue, -, hevents, hknown₁, -, hothers₁⟩ := exists_product clients
  have hthere₁ : (valueOf? "P" w₁.around.store.products).isSome := by
    rw [hvalue]
    rfl
  obtain ⟨w₂, h₂, hrun₂, hknown₂, hstore₂, hothers₂⟩ := exists_recorded (p := ⟨"P"⟩) clients 1 0 "GA" 50 (by decide)
    check_checkpoint faithful_empty hknown₁ hthere₁ (by rw [hevents]; decide) hrun₁ (hothers₁ 1 (by decide))
  have hproducts₂ : w₂.around.store.products = w₁.around.store.products := by
    rw [hstore₂]
    rfl
  have hlength₂ : w₂.around.store.events.length = 1 := by
    rw [hstore₂, Store.withEvent, Store.record, hevents]
    rfl
  have htransfer : Event.check (transfer 0) = .ok (transfer 0) := by rfl
  obtain ⟨w₃, h₃, hrun₃, -, hstore₃, hothers₃⟩ := exists_recorded (p := ⟨"P"⟩) clients 2 0 "GA" 100 (by decide)
    htransfer faithful_empty hknown₂ (by rw [hproducts₂]; exact hthere₁)
    (by rw [hlength₂]; decide) hrun₂ ((hothers₂ 2 (by decide)).trans (hothers₁ 2 (by decide)))
  have hproducts₃ : w₃.around.store.products = w₁.around.store.products := by
    rw [hstore₃]
    exact hproducts₂
  refine ⟨w₁, w₃, h₁, hthere₁, hevents, hothers₁ 3 (by decide), h₂.trans h₃, hrun₃,
    (hothers₃ 3 (by decide)).trans ((hothers₂ 3 (by decide)).trans (hothers₁ 3 (by decide))),
    ⟨_, by rw [hproducts₃]; exact hvalue, decode_productRecord rfl⟩, ?_⟩
  have hempty : w₁.around.store.trail "P" = [] := by
    rw [Store.trail, hevents]
    rfl
  rw [hstore₃]
  refine (parse_trail_appended (e := transfer 100) rfl _ _ _).trans ?_
  rw [hstore₂]
  refine (congrArg (· ++ _) (parse_trail_appended (e := checkpoint 100) rfl _ _ _)).trans ?_
  change ((w₁.around.store.trail "P").map Event.parse ++ _) ++ _ = _
  rw [hempty]
  rfl

end SupplyTrail.Interleaving
