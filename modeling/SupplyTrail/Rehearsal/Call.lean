import SupplyTrail.Rehearsal.Session
/-!
# Calls

What a session can be asked to do for a caller.  A call runs as a task: it may end at once, or wait for the wallet or
the ledger and end in the course of a later step.
-/
namespace SupplyTrail.Rehearsal

inductive SignerCall where
  | connect (network : Network)
  | sign (account : Account) (network : Network) (payload : List UInt8)
  | disconnect

inductive NodeCall where
  | getHealth
  | getNetwork
  | getLatestLedger
  | simulate (transaction : String)
  | send (transaction : String)
  | getTransaction (hash : String)
  | confirm (hash : String)
  /-- Any method, with any result. -/
  | other (method : String) (params : Option Json)
  | query (call : ContractCall)
  | submit (envelope : Envelope)
  | health

inductive Call where
  | connect
  | disconnect
  | sign (network : Network) (payload : List UInt8)
  | ping (client : Nat)
  | register (client : Nat) (details : ProductDetails)
  | append (client : Nat) (product : ProductId) (kind : EventKind) (metadata : Metadata)
  | getProduct (client : Nat) (product : ProductId)
  | getHistory (client : Nat) (product : ProductId)
  | getPage (client : Nat) (product : ProductId) (offset limit : Nat)
  | stream (client : Nat) (product : ProductId) (count : Nat)
  | signer (call : SignerCall)
  | node (call : NodeCall)

/-- Have a signer do what a call says. -/
def SignerCall.run (url : String) : SignerCall → Http.Talk Result
  | .connect network => return wrap .account (← Signer.connect url network)
  | .sign account network payload => return wrap .envelope (← Signer.sign url account network payload)
  | .disconnect => return wrap (fun _ => .text "ok") (← Signer.disconnect url)
where
  wrap {α : Type} (f : α → Value) : Except WalletError α → Result
    | .ok a => .ok (f a)
    | .error e => .error (.wallet e)

/-- Have a node do what a call says. -/
def NodeCall.run (url : String) : NodeCall → Http.Talk Result
  | .getHealth => attempt .health (Rpc.getHealth url)
  | .getNetwork => attempt .networkInfo (Rpc.getNetwork url)
  | .getLatestLedger => attempt .latestLedger (Rpc.getLatestLedger url)
  | .simulate transaction => attempt .json (Rpc.simulate url transaction)
  | .send transaction => attempt .text (Rpc.send url transaction)
  | .getTransaction hash => attempt .transaction (Rpc.getTransaction url hash)
  | .confirm hash => attempt .transaction (Rpc.confirm url hash)
  | .other method params => attempt .json (Rpc.call url method params Json.Decoder.value)
  | .query call => return wrap .json (← Rpc.query url call)
  | .submit envelope => return wrap .receipt (← Rpc.submit url envelope.content)
  | .health => return wrap .flag (← Rpc.health url)
where
  attempt {α : Type} (f : α → Value) (x : Rpc.Attempt α) : Http.Talk Result := do
    match ← x.run with
    | .ok a => return .ok (f a)
    | .error e => return .error (.remote e)
  wrap {α : Type} (f : α → Value) : Except LedgerFailure α → Result
    | .ok a => .ok (f a)
    | .error e => .error (.ledger e)

namespace Session

def finish (s : Session) (id : Nat) (r : Result) : Session := s.setTask id (.finished r)

/-- Run an operation of a client as a task. -/
def operate {α : Type} (s : Session) (id client : Nat) (f : α → Value) (op : Client → Client.Op α) : Session :=
  match s.clients[client]? with
  | some m => drive id client (ofClient f (op m.client)) s
  | none => s.finish id (.error .unusable)

/-- Run a talk to the server as a task; there is none in a scripted session. -/
def converse (s : Session) (id : Nat) (talk : (signer node : String) → Http.Talk Result) : Session :=
  match s.outside with
  | .scripted => s.finish id (.error .unusable)
  | .server server signer node =>
    let (r, s) := s.talk server signer node (talk signer node)
    s.finish id r

/-- Take items of a product's trail as a task. -/
def takeStream (s : Session) (id client : Nat) (product : ProductId) (count : Nat) : Session :=
  match s.clients[client]? with
  | some m =>
    drive id client (do
      let (items, ended) ← m.client.stream product count
      return .ok (.items items ended)) s
  | none => s.finish id (.error .unusable)

/-- Have the connected account sign as a task. -/
def startSign (s : Session) (id : Nat) (network : Network) (payload : List UInt8) : Session :=
  drive id 0 (do
    match ← Client.signature network payload with
    | .ok envelope => return .ok (.envelope envelope)
    | .error e => return .error (.wallet e)) s

def start (s : Session) (id : Nat) : Call → Session
  | .connect => s.startConnect id
  | .disconnect => s.startDisconnect id
  | .sign network payload => s.startSign id network payload
  | .ping k => s.operate id k .flag fun c => c.ping
  | .register k details => s.operate id k .product fun c => c.register details
  | .append k product kind metadata => s.operate id k .event fun c => c.append product kind metadata
  | .getProduct k product => s.operate id k .record fun c => c.getProduct product
  | .getHistory k product => s.operate id k .history fun c => c.getHistory product
  | .getPage k product offset limit => s.operate id k .page fun c => c.getPage product offset limit
  | .stream k product count => s.takeStream id k product count
  | .signer call => s.converse id fun signer _ => call.run signer
  | .node call => s.converse id fun _ node => call.run node

end Session

end SupplyTrail.Rehearsal
