import Mathlib.Data.List.Forall2
import SupplyTrail.Proofs.Keeps
import SupplyTrail.Rehearsal.Answer
/-!
# Conduct — what a client's operation asks, and on what grounds

An operation is known by its dialogue: the questions it asked, the answers it got and the moments at which they were
given.  The grounds of a question and of a result are facts about the dialogue alone, so they hold whatever the clock,
the wallet and the ledger answer and whatever else happens in between.
-/
namespace SupplyTrail.Client

/-- A question of an operation, the answer to it, and the state of the surroundings when the answer was given. -/
structure Turn (σ : Type) where
  question : Question
  answer : question.Answer
  moment : σ

/-- The turns of an operation so far, the latest first. -/
abbrev Dialogue (σ : Type) := List (Turn σ)

inductive Operation where
  | register (details : ProductDetails)
  | append (product : ProductId) (kind : EventKind) (metadata : Metadata)
  | getProduct (product : ProductId)
  | getHistory (product : ProductId)
  | getPage (product : ProductId) (offset limit : Nat)
  | stream (product : ProductId) (count : Nat)
  | ping

open Rehearsal (Result ofClient) in
/-- An operation of a client as an activity that ends in a result. -/
def Operation.run (c : Client) : Operation → Run Result
  | .register details => ofClient .product (c.register details)
  | .append product kind metadata => ofClient .event (c.append product kind metadata)
  | .getProduct product => ofClient .record (c.getProduct product)
  | .getHistory product => ofClient .history (c.getHistory product)
  | .getPage product offset limit => ofClient .page (c.getPage product offset limit)
  | .stream product count => do
    let (items, ended) ← c.stream product count
    return .ok (.items items ended)
  | .ping => ofClient .flag c.ping

variable {σ : Type}

/-- A question got this answer in a dialogue. -/
def Told (d : Dialogue σ) (q : Question) (a : q.Answer) : Prop := ∃ m, (⟨q, a, m⟩ : Turn σ) ∈ d

/-! ## Reading -/

/-- The failure of an operation whose call the ledger failed. -/
def failureOf (product : Option ProductId) : LedgerFailure → ClientError
  | .contract code _ =>
    match product with
    | some id => if code = productNotFound then .unknownProduct id else .submission (.contract code)
    | none => .submission (.contract code)
  | .remote error => .submission (.remote error)

/-- The item that the ledger's reading of a listed event gives. -/
def eventOf (product : ProductId) (number : UInt64) : Reading → Item
  | .error failure => .error (failureOf none failure)
  | .ok value =>
    match Event.parse value with
    | .error error => .error (.malformed (.event number error))
    | .ok event =>
      if event.product ≠ product then .error (.malformed (.foreignEvent number event.product product)) else .ok event

def recordQuery (c : Client) (product : ProductId) : Away :=
  .query c.endpoint.rpcUrl (c.call "get_product" (idArgs product))

/-- The question for the numbers of a product's events. -/
def idsQuery (c : Client) (product : ProductId) : Away :=
  .query c.endpoint.rpcUrl (c.call "get_product_event_ids" (idArgs product))

def eventQuery (c : Client) (t : Ticket) : Away := .fetch t c.endpoint.rpcUrl (c.eventCall t.event)

/-- The events of a list of numbers, by place. -/
def ticketsOf (ids : List UInt64) : List Ticket := ids.zipIdx.map fun (event, place) => ⟨place, event⟩

/-- The ledger's reading of a listed event has come back, at once or later. -/
inductive Heard (d : Dialogue σ) (t : Ticket) (r : Reading) : Prop
  | atOnce {url : String} {call : ContractCall} (h : Told d (.away (.fetch t url call)) (some r))
  | settled {first : Ticket} {others : List Ticket} {ht : t ∈ first :: others}
      (h : Told d (.away (.settle first others)) (⟨t, ht⟩, r))

/-- The query for a listed event is out. -/
def Sent (c : Client) (d : Dialogue σ) (t : Ticket) : Prop := Told d (.away (c.eventQuery t)) none

def RecordRead (c : Client) (p : ProductId) (d : Dialogue σ) (record : ProductRecord) : Prop :=
  ∃ value, Told d (.away (c.recordQuery p)) (.ok value) ∧ ProductRecord.decode value.toSource = .ok record

/-- The numbers of the product's events were read. -/
def IdsRead (c : Client) (p : ProductId) (d : Dialogue σ) (ids : List UInt64) : Prop :=
  ∃ value, Told d (.away (c.idsQuery p)) (.ok value) ∧
    Json.Decoder.list Json.Decoder.word64 value.toSource = .ok ids

def EventRead (p : ProductId) (d : Dialogue σ) (t : Ticket) (item : Item) : Prop :=
  ∃ r, Heard d t r ∧ eventOf p t.event r = item

/-- The events of a list were read, one for each number and in the same order. -/
def EventsRead (p : ProductId) (d : Dialogue σ) (tickets : List Ticket) (events : List Event) : Prop :=
  List.Forall₂ (fun t e => EventRead p d t (.ok e)) tickets events

/-- The product's trail was read in full: its record and every listed event. -/
def TrailRead (c : Client) (p : ProductId) (d : Dialogue σ) (h : History) : Prop :=
  ∃ record ids events, RecordRead c p d record ∧ IdsRead c p d ids ∧ EventsRead p d (ticketsOf ids) events ∧
    h = .ofEvents p (record.registerEvent :: events)

/-- The product's history was read: its trail, and the oldest event is a registration. -/
def HistoryRead (c : Client) (p : ProductId) (d : Dialogue σ) (h : History) : Prop :=
  TrailRead c p d h ∧ ∃ first, h.first? = some first ∧ first.kind = .register

/-- Why the reading of a product's trail failed. -/
inductive ReadFault (c : Client) (p : ProductId) (d : Dialogue σ) : ClientError → Prop
  | network {active : Network} (hbound : c.isBound = true) (h : Told d (.own .activeNetwork) active)
      (hne : active ≠ c.endpoint.network) : ReadFault c p d (.networkChanged c.endpoint.network active)
  | recordRefused {f : LedgerFailure} (h : Told d (.away (c.recordQuery p)) (.error f)) :
      ReadFault c p d (failureOf (some p) f)
  | recordMalformed {value : Json} {mismatch : Json.Mismatch} (h : Told d (.away (c.recordQuery p)) (.ok value))
      (hd : ProductRecord.decode value.toSource = .error mismatch) :
      ReadFault c p d (.malformed (.product p mismatch))
  | idsRefused {f : LedgerFailure} (h : Told d (.away (c.idsQuery p)) (.error f)) :
      ReadFault c p d (failureOf (some p) f)
  | idsMalformed {value : Json} {mismatch : Json.Mismatch} (h : Told d (.away (c.idsQuery p)) (.ok value))
      (hd : Json.Decoder.list Json.Decoder.word64 value.toSource = .error mismatch) :
      ReadFault c p d (.malformed (.eventIds p mismatch))
  | event {ids : List UInt64} {t : Ticket} {e : ClientError} (hids : IdsRead c p d ids) (ht : t ∈ ticketsOf ids)
      (h : EventRead p d t (.error e)) : ReadFault c p d e
  | unregistered {h : History} {first : Event} (hread : TrailRead c p d h) (hfirst : h.first? = some first)
      (hkind : first.kind ≠ .register) : ReadFault c p d (.malformed (.unregistered p))

/-- What the reading of a product's trail may ask.  Only a history that was read is remembered. -/
inductive MayRead (c : Client) (p : ProductId) (d : Dialogue σ) : Question → Prop
  | note (line : LogLine) : MayRead c p d (.own (.note line))
  | activeNetwork : MayRead c p d (.own .activeNetwork)
  | record : MayRead c p d (.away (c.recordQuery p))
  | ids : MayRead c p d (.away (c.idsQuery p))
  | event {ids : List UInt64} {t : Ticket} (hids : IdsRead c p d ids) (ht : t ∈ ticketsOf ids) :
      MayRead c p d (.away (c.eventQuery t))
  | settle {ids : List UInt64} {first : Ticket} {others : List Ticket} (hids : IdsRead c p d ids)
      (h : ∀ t ∈ first :: others, t ∈ ticketsOf ids ∧ Sent c d t) : MayRead c p d (.away (.settle first others))
  | remember {h : History} (hread : HistoryRead c p d h) : MayRead c p d (.own (.remember p h.lastTime))

/-! ## Writing -/

/-- The dialogue in which the network check passed: it asks for the active network only if the client is bound to its
own. -/
inductive NetworkChecked (c : Client) (d : Dialogue σ) : Dialogue σ → Prop
  | unbound (h : c.isBound = false) : NetworkChecked c d d
  | bound {m : σ} (h : c.isBound = true) : NetworkChecked c d (⟨.own .activeNetwork, c.endpoint.network, m⟩ :: d)

/-- The dialogue in which the network check refused: another network than the client's own was active. -/
inductive NetworkRefused (c : Client) (active : Network) (d : Dialogue σ) : Dialogue σ → Prop
  | mk {line : LogLine} {m n : σ} (hbound : c.isBound = true) (hne : active ≠ c.endpoint.network) :
      NetworkRefused c active d (⟨.own (.note line), (), n⟩ :: ⟨.own .activeNetwork, active, m⟩ :: d)

/-- The connected account that an append names as its actor, and the latest known time of its product: remembered, or
read from the product's history. -/
inductive SeenAt (c : Client) (p : ProductId) (actor : Account) (last : UInt64) : Dialogue σ → Prop
  | cached {m n : σ} {d : Dialogue σ} (hnet : NetworkChecked c [] d) :
      SeenAt c p actor last (⟨.own (.lastSeen p), some last, m⟩ :: ⟨.own .account, some actor, n⟩ :: d)
  | read {m n k : σ} {mid d : Dialogue σ} {h : History} (hnet : NetworkChecked c [] d) (hlast : h.lastTime = last)
      (hread : HistoryRead c p (mid ++ ⟨.own (.lastSeen p), none, n⟩ :: ⟨.own .account, some actor, k⟩ :: d) h) :
      SeenAt c p actor last (⟨.own (.remember p last), (), m⟩ ::
        (mid ++ ⟨.own (.lastSeen p), none, n⟩ :: ⟨.own .account, some actor, k⟩ :: d))

/-- The call that an operation has drafted: about which product, with which time, and in which dialogue. -/
inductive Drafted (c : Client) : Operation → ProductId → UInt64 → ContractCall → Dialogue σ → Prop
  | register {details : ProductDetails} {owner : Account} {time : UInt64} {m n : σ} {d : Dialogue σ}
      (hnet : NetworkChecked c [] d) (hcheck : details.check = .ok ())
      (hevent : Event.check ⟨details.id, .register, time, details.registerMetadata⟩ =
        .ok ⟨details.id, .register, time, details.registerMetadata⟩) :
      Drafted c (.register details) details.id time
        (c.call "register_product" (registerArgs details owner.publicKey time))
        (⟨.own .account, some owner, m⟩ :: ⟨.own .clock, time, n⟩ :: d)
  | append {p : ProductId} {kind : EventKind} {metadata : Metadata} {actor : Account} {now last : UInt64} {m : σ}
      {d : Dialogue σ} (hkind : kind ≠ .register)
      (hevent : Event.check ⟨p, kind, max now last, metadata⟩ = .ok ⟨p, kind, max now last, metadata⟩)
      (hseen : SeenAt c p actor last d) :
      Drafted c (.append p kind metadata) p (max now last)
        (c.call "add_tracking_event" (appendArgs ⟨p, kind, max now last, metadata⟩ actor.publicKey))
        (⟨.own .clock, now, m⟩ :: d)

/-- The dialogue in which a drafted call was made an invocation: the account that makes it, a nonce, and the account
that is to sign it. -/
inductive Invoked (c : Client) (op : Operation) (p : ProductId) (time : UInt64) :
    Invocation → Account → Dialogue σ → Prop
  | mk {call : ContractCall} {source signer : Account} {nonce : UInt64} {m n k : σ} {d : Dialogue σ}
      (hdraft : Drafted c op p time call d) :
      Invoked c op p time (.make call source.publicKey c.endpoint.network nonce) signer
        (⟨.own .account, some signer, m⟩ :: ⟨.own .nonce, nonce, n⟩ :: ⟨.own .account, some source, k⟩ :: d)

/-- The dialogue in which an invocation was signed. -/
inductive Signed (c : Client) (op : Operation) (p : ProductId) (time : UInt64) (i : Invocation) (e : Envelope) :
    Dialogue σ → Prop
  | mk {signer : Account} {m : σ} {d : Dialogue σ} (hinv : Invoked c op p time i signer d) :
      Signed c op p time i e (⟨.away (.sign signer c.endpoint.network i.toBytes), .ok e, m⟩ :: d)

/-- The dialogue in which the ledger confirmed a submission. -/
inductive Confirmed (c : Client) (op : Operation) (p : ProductId) (time : UInt64) (i : Invocation) :
    Dialogue σ → Prop
  | mk {e : Envelope} {receipt : Receipt} {m : σ} {d : Dialogue σ} (hsigned : Signed c op p time i e d) :
      Confirmed c op p time i (⟨.away (.submit c.endpoint.rpcUrl e), .ok receipt, m⟩ :: d)

/-- What an operation may ask in order to write.  A time is remembered only of a submission that was confirmed. -/
inductive MayWrite (c : Client) (op : Operation) : Dialogue σ → Question → Prop
  | note {d : Dialogue σ} (line : LogLine) : MayWrite c op d (.own (.note line))
  | activeNetwork {d : Dialogue σ} : MayWrite c op d (.own .activeNetwork)
  | clock {d : Dialogue σ} : MayWrite c op d (.own .clock)
  | account {d : Dialogue σ} : MayWrite c op d (.own .account)
  | nonce {d : Dialogue σ} : MayWrite c op d (.own .nonce)
  | lastSeen {d : Dialogue σ} (p : ProductId) : MayWrite c op d (.own (.lastSeen p))
  | sign {p : ProductId} {time : UInt64} {i : Invocation} {signer : Account} {d : Dialogue σ}
      (h : Invoked c op p time i signer d) : MayWrite c op d (.away (.sign signer c.endpoint.network i.toBytes))
  | submit {p : ProductId} {time : UInt64} {i : Invocation} {e : Envelope} {d : Dialogue σ}
      (h : Signed c op p time i e d) : MayWrite c op d (.away (.submit c.endpoint.rpcUrl e))
  | remember {p : ProductId} {time : UInt64} {i : Invocation} {line : LogLine} {m : σ} {d : Dialogue σ}
      (h : Confirmed c op p time i d) :
      MayWrite c op (⟨.own (.note line), (), m⟩ :: d) (.own (.remember p time))

/-! ## Whole operations -/

def Operation.readsOf : Operation → Option ProductId
  | .append product _ _ | .getProduct product | .getHistory product | .getPage product _ _ | .stream product _ =>
    some product
  | .register _ | .ping => none

/-- What an operation may ask after a dialogue. -/
inductive Warrant (c : Client) (op : Operation) (d : Dialogue σ) (q : Question) : Prop
  | read {p : ProductId} (hop : op.readsOf = some p) (h : MayRead c p d q)
  | write (h : MayWrite c op d q)
  | health (h : q = .away (.health c.endpoint.rpcUrl))

/-- The dialogue in which the time of a confirmed submission was remembered. -/
inductive Recorded (c : Client) (op : Operation) (p : ProductId) (time : UInt64) (i : Invocation) : Dialogue σ → Prop
  | mk {line : LogLine} {m n : σ} {d : Dialogue σ} (h : Confirmed c op p time i d) :
      Recorded c op p time i (⟨.own (.remember p time), (), m⟩ :: ⟨.own (.note line), (), n⟩ :: d)

open Rehearsal in
/-- What the dialogue of an operation says about its result. -/
inductive Upshot (c : Client) (d : Dialogue σ) : Operation → Result → Prop
  | registered {details : ProductDetails} {time : UInt64} {i : Invocation}
      (h : Recorded c (.register details) details.id time i d) :
      Upshot c d (.register details) (.ok (.product details.id))
  | appended {p : ProductId} {kind : EventKind} {metadata : Metadata} {time : UInt64} {i : Invocation}
      (h : Recorded c (.append p kind metadata) p time i d) :
      Upshot c d (.append p kind metadata) (.ok (.event ⟨p, kind, time, metadata⟩))
  | history {p : ProductId} {h : History} (hread : HistoryRead c p d h) :
      Upshot c d (.getHistory p) (.ok (.history h))
  | noHistory {p : ProductId} {e : ClientError} (hfault : ReadFault c p d e) :
      Upshot c d (.getHistory p) (.error (.client e))
  | page {p : ProductId} {offset limit : Nat} {h : History} (hread : HistoryRead c p d h) :
      Upshot c d (.getPage p offset limit) (.ok (.page (h.page offset limit)))
  | noPage {p : ProductId} {offset limit : Nat} {e : ClientError} (hfault : ReadFault c p d e) :
      Upshot c d (.getPage p offset limit) (.error (.client e))
  | refused {op : Operation} {e : ClientError} (hop : (∃ details, op = .register details) ∨
      ∃ p kind metadata, op = .append p kind metadata) : Upshot c d op (.error (.client e))
  | other {op : Operation} {r : Result} (hop : (∃ p, op = .getProduct p) ∨ (∃ p count, op = .stream p count) ∨
      op = .ping) : Upshot c d op r

end SupplyTrail.Client
