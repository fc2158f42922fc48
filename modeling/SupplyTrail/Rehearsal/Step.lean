import SupplyTrail.Rehearsal.Call
/-!
# Steps of a rehearsal

A rehearsal is a list of steps.  A step makes a call and waits for its result, starts a call as a named task, or sets
the scene: the clock, the script, the gates, the active network.  What the wallet and the ledger were asked is known
after each step.
-/
namespace SupplyTrail.Rehearsal

structure ClientOptions where
  contractId : String
  /-- Replaces the usual address. -/
  rpcUrl : Option String
  /-- Replaces the active network. -/
  network : Option Network
  isBound : Bool

inductive Step where
  | setClock (seconds : UInt64)
  | script (queue : String) (outcomes : List Outcome)
  | openGate (name : String)
  /-- Record an event and list it for a product. -/
  | record (product : String) (event : Json)
  /-- Put a product in place. -/
  | place (product : String) (value : Json)
  | newClient (options : ClientOptions)
  /-- Start a call as a named task; a call that cannot be made ends at once. -/
  | begin (name : String) (call : Option Call)
  | join (name : String)
  /-- The caller of a task stops waiting for it. -/
  | abandon (name : String)
  | endpoint (client : Nat)
  | snapshot
  | activeNetwork
  | setNetwork (network : Network)
  | watchWallet (name : String)
  | watchNetwork (name : String)
  | seeWallet (name : String)
  | seeNetwork (name : String)
  | call (call : Call)
  | unusable

namespace Session

def give (v : Value) : Answer := .result (.ok v)

/-- The answer to something that cannot be used. -/
def refuse : Answer := .result (.error .unusable)

/-- The endpoint of a new client: a server's own node if there is a server, or else the network's address. -/
def endpointFor (s : Session) (o : ClientOptions) : Except SettingError Endpoint :=
  let network := o.network.getD s.selector.active
  let usual := match s.outside with
    | .scripted => none
    | .server _ _ node => some node
  match o.rpcUrl.or usual with
  | some url => Endpoint.make o.contractId url network
  | none => Endpoint.onNetwork o.contractId network

def addClient (s : Session) (o : ClientOptions) : Except SettingError (Nat × Session) := do
  let endpoint ← s.endpointFor o
  return (s.clients.length, { s with clients := s.clients ++ [⟨⟨endpoint, o.isBound⟩, []⟩] })

def newTask (s : Session) : Nat × Session := (s.nextTask, { s with nextTask := s.nextTask + 1 })

def dropTask (s : Session) (id : Nat) : Session := { s with tasks := s.tasks.filter fun e => e.1 != id }

/-- The result of a task that has ended; the task is forgotten then. -/
def collect? (s : Session) (id : Nat) : Option (Result × Session) :=
  match s.task? id with
  | some (.finished r) => some (r, s.dropTask id)
  | some .broken | none => some (.error .unusable, s.dropTask id)
  | some (.waiting _ _ _) | some (.connecting _) | some .closing => none

def begin (s : Session) (name : String) (call : Option Call) : Session :=
  let (id, s) := s.newTask
  let s := { s with names := Store.put name id s.names }
  match call with
  | some call => s.start id call
  | none => s.finish id (.error .unusable)

def join (s : Session) (name : String) : Answer × Session :=
  match valueOf? name s.names with
  | none => (.result (.error .unusable), s)
  | some id =>
    match s.collect? id with
    | none => (.pending, s)
    | some (r, s) => (.joined r, { s with names := s.names.filter fun e => e.1 != name })

/-- The caller of a task is gone: an operation ends where it stands, a handshake goes on.  There must be such a task. -/
def abandon (s : Session) (name : String) : Answer × Session :=
  match valueOf? name s.names with
  | none => (refuse, s)
  | some id =>
    let s := match s.task? id with
      | some (.connecting attempt) => { s with manager := (s.manager.step (.leave attempt)).1 }
      | _ => s
    let s := s.dropTask id
    (give .nothing, { s with script := s.script.forget id, names := s.names.filter fun e => e.1 != name })

def perform (s : Session) (call : Call) : Answer × Session :=
  let (id, s) := s.newTask
  let s := s.start id call
  match s.collect? id with
  | some (r, s) => (.result r, s)
  | none => (.pending, s)

def setNetwork (s : Session) (network : Network) : Session :=
  { s.logAll (s.selector.changeLines network) with selector := s.selector.set network }

/-- Look at the wallet's connection for a watcher. -/
def seeWallet (s : Session) (name : String) : Answer × Session :=
  match valueOf? name s.walletWatchers with
  | none => (refuse, s)
  | some seen =>
    let now := s.manager.connection
    (give (.seenConnection (seen ≠ now) now), { s with walletWatchers := Store.put name now s.walletWatchers })

/-- Look at the active network for a watcher. -/
def seeNetwork (s : Session) (name : String) : Answer × Session :=
  match valueOf? name s.networkWatchers with
  | none => (refuse, s)
  | some seen =>
    let revision := s.selector.revision
    (give (.seenNetwork (seen ≠ revision) s.selector.active),
      { s with networkWatchers := Store.put name revision s.networkWatchers })

/-- One step: its answer, and the session after it. -/
def step (s : Session) : Step → Answer × Session
  | .setClock seconds => (give .nothing, { s with clock := seconds })
  | .script queue outcomes => (give .nothing, { s with script := s.script.add queue outcomes })
  | .openGate name => (give .nothing, s.openGate name)
  | .record product event => (give .nothing, { s with store := s.store.record product event })
  | .place product value => (give .nothing, { s with store := s.store.place product value })
  | .newClient options =>
    match s.addClient options with
    | .ok (index, s) => (give (.index index), s)
    | .error e => (.result (.error (.setting e)), s)
  | .begin name call => (give .nothing, s.begin name call)
  | .join name => s.join name
  | .abandon name => s.abandon name
  | .endpoint client =>
    match s.clients[client]? with
    | some m => (give (.endpoint m.client.endpoint), s)
    | none => (refuse, s)
  | .snapshot => (give (.snapshot s.manager.connection), s)
  | .activeNetwork => (give (.network s.selector.active), s)
  | .setNetwork network => (give (.network s.selector.active), s.setNetwork network)
  | .watchWallet name =>
    (give .nothing, { s with walletWatchers := Store.put name s.manager.connection s.walletWatchers })
  | .watchNetwork name =>
    (give .nothing, { s with networkWatchers := Store.put name s.selector.revision s.networkWatchers })
  | .seeWallet name => s.seeWallet name
  | .seeNetwork name => s.seeNetwork name
  | .call call => s.perform call
  | .unusable => (refuse, s)

/-- Hand out what was asked of the wallet and the ledger since the last time, in order. -/
def takeTraces (s : Session) : List Trace × Session := (s.traces.reverse, { s with traces := [] })

/-- Give the server a new list of replies. -/
def supply (s : Session) (replies : List (Option Http.Reply)) : Session :=
  match s.outside with
  | .scripted => s
  | .server server signer node => { s with outside := .server { server with replies := replies } signer node }

/-- Hand out the requests that the server got since the last time, in order, and the number of replies left. -/
def takeRequests (s : Session) : List Http.Request × Nat × Session :=
  match s.outside with
  | .scripted => ([], 0, s)
  | .server server signer node =>
    (server.requests.reverse, server.replies.length,
      { s with outside := .server { server with requests := [] } signer node })

end Session

end SupplyTrail.Rehearsal
