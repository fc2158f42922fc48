import SupplyTrail.Rehearsal.Answer
import SupplyTrail.Rehearsal.Script
import SupplyTrail.Rehearsal.Server
import SupplyTrail.Rehearsal.Store
import SupplyTrail.Rpc.Node
import SupplyTrail.Wallet.Journal
import SupplyTrail.Wallet.Signer
/-!
# Sessions

One process with its clock, its active network, its wallet and its clients, and the world outside: either a scripted
wallet and a ledger in memory, or one server for both.  Everything runs on one thread.  A task runs until it waits for
an answer that is not there yet; its further course is kept as the activity that the answer will be given to.
-/
namespace SupplyTrail.Rehearsal

open Client (Own Away)

/-- A client and what it remembers: the latest time of each product it has seen registered. -/
structure Member where
  client : Client
  known : List (ProductId × UInt64)

inductive Task where
  | finished (result : Result)
  /-- An operation of a client waits for an answer. -/
  | waiting (client : Nat) (question : Away) (next : question.Answer → Client.Run Result)
  /-- A connect waits for the handshake of its attempt. -/
  | connecting (attempt : Nat)
  /-- A disconnect waits for the wallet. -/
  | closing
  /-- An operation broke off. -/
  | broken

inductive Outside where
  | scripted
  /-- A server, and the addresses of the signer and the ledger's node on it. -/
  | server (server : Server) (signer node : String)

structure Session where
  clock : UInt64
  selector : Selector
  manager : Manager
  clients : List Member
  store : Store
  script : Script
  outside : Outside
  tasks : List (Nat × Task)
  nextTask : Nat
  /-- The tasks by name. -/
  names : List (String × Nat)
  walletWatchers : List (String × Connection)
  networkWatchers : List (String × Nat)
  /-- The calls that reached the wallet and the ledger, the latest first. -/
  traces : List Trace
  /-- What was logged, the latest first. -/
  journal : List LogLine
  nextNonce : UInt64

namespace Session

def initial (network : Network) (outside : Outside) : Session :=
  { clock := 1700000000, selector := ⟨network, 0⟩, manager := .initial, clients := [], store := .empty,
    script := .empty, outside, tasks := [], nextTask := 0, names := [], walletWatchers := [], networkWatchers := [],
    traces := [], journal := [], nextNonce := 0 }

def log (s : Session) (line : LogLine) : Session := { s with journal := line :: s.journal }

def logAll (s : Session) (lines : List LogLine) : Session := lines.foldl log s

def trace (s : Session) (t : Trace) : Session := { s with traces := t :: s.traces }

def setTask (s : Session) (id : Nat) (t : Task) : Session :=
  { s with tasks := (id, t) :: s.tasks.filter fun e => e.1 != id }

/-- A task comes to its end: nothing of it waits at a gate any more. -/
def conclude (s : Session) (id : Nat) (t : Task) : Session :=
  { s with script := s.script.forget id }.setTask id t

def task? (s : Session) (id : Nat) : Option Task := (s.tasks.find? fun e => e.1 == id).map (·.2)

def lastSeen (s : Session) (client : Nat) (product : ProductId) : Option UInt64 :=
  match s.clients[client]? with
  | some m => (m.known.find? fun e => e.1 == product).map (·.2)
  | none => none

/-- Have a client remember a product's latest time. -/
def remember (s : Session) (client : Nat) (product : ProductId) (time : UInt64) : Session :=
  { s with
    clients := s.clients.modify client fun m =>
      { m with known := (product, time) :: m.known.filter fun e => e.1 != product } }

/-- The process answers an operation of a client. -/
def answerOwn (client : Nat) : (q : Own) → Session → q.Answer × Session
  | .activeNetwork, s => (s.selector.active, s)
  | .clock, s => (s.clock, s)
  | .account, s => (s.manager.connection.account?, s)
  | .nonce, s => (s.nextNonce, { s with nextNonce := s.nextNonce + 1 })
  | .lastSeen product, s => (s.lastSeen client product, s)
  | .remember product time, s => ((), s.remember client product time)
  | .note line, s => ((), s.log line)

/-! ## The scripted wallet and ledger -/

/-- The key of the scripted wallet's own account. -/
def scriptedKey : String := "GABC"

def connectOutcome (o : Outcome) : Except WalletError Account :=
  match o.refusal with
  | some e => .error e
  | none => .ok ⟨if o.isStandard then scriptedKey else o.publicKey⟩

/-- The scripted wallet signs: the content of its envelope is the payload in hexadecimal. -/
def signOutcome (o : Outcome) (account : Account) (payload : List UInt8) : Except WalletError Envelope :=
  match o.refusal with
  | some e => .error e
  | none => .ok ⟨o.signer.getD account.publicKey, o.content.getD (Text.encodeHex payload)⟩

def queryOutcome (s : Session) (o : Outcome) (call : ContractCall) : Client.Reading :=
  if o.isStandard then s.store.read call
  else
    match o.failure with
    | some f => .error f
    | none => .ok o.value

def submitOutcome (s : Session) (o : Outcome) (envelope : Envelope) : Except LedgerFailure Receipt × Session :=
  if o.isStandard then
    let (r, store) := s.store.submit envelope
    (r, { s with store })
  else
    match o.failure with
    | some f => (.error f, s)
    | none => (.ok ⟨"tx", none, some o.value⟩, s)

def healthOutcome (o : Outcome) : Except LedgerFailure Bool :=
  if o.isStandard then .ok true
  else
    match o.failure with
    | some f => .error f
    | none => .ok (o.value = .bool true)

/-- The answer that an outcome gives to an operation's question, and the session after it.  A query of a history read is
answered with the reading; questions that wait for several have no outcome of their own. -/
def outcomeOf (s : Session) (o : Outcome) : (q : Away) → Option (q.Answer × Session)
  | .sign account _ payload => some (signOutcome o account payload, s)
  | .query _ call => some (s.queryOutcome o call, s)
  | .submit _ envelope => some (s.submitOutcome o envelope)
  | .health _ => some (healthOutcome o, s)
  | .fetch _ _ call => some (some (s.queryOutcome o call), s)
  | .settle _ _ => none

/-- The queue that a question takes its outcome from. -/
def queueOf : Away → String
  | .sign _ _ _ => "sign"
  | .query _ call | .fetch _ _ call => call.function
  | .submit _ _ => "submit"
  | .health _ => "health"
  | .settle _ _ => ""

def traceOf : Away → List Trace
  | .sign account network _ => [.walletSign account.publicKey network]
  | .query url call | .fetch _ url call => [.query url call]
  | .submit url envelope => [.submit url envelope]
  | .health url => [.health url]
  | .settle _ _ => []

/-! ## The server -/

/-- Talk to the server, if there is one. -/
def talk {α : Type} (s : Session) (server : Server) (signer node : String) (x : Http.Talk α) : α × Session :=
  let (a, server) := server.run x
  (a, { s with outside := .server { server with journal := [] } signer node, journal := server.journal ++ s.journal })

def serverAnswer (s : Session) (server : Server) (signer node : String) : (q : Away) → Option (q.Answer × Session)
  | .sign account network payload => some (s.talk server signer node (Signer.sign signer account network payload))
  | .query url call => some (s.talk server signer node (Rpc.query url call))
  | .submit url envelope => some (s.talk server signer node (Rpc.submit url envelope.content))
  | .health url => some (s.talk server signer node (Rpc.health url))
  | .fetch _ url call =>
    let (reading, s) := s.talk server signer node (Rpc.query url call)
    some (some reading, s)
  | .settle _ _ => none

/-! ## Operations -/

inductive Meeting (α : Type) where
  | answered (a : α)
  | later
  | broken

/-- Who waits when an operation's question has to. -/
def waiterOf (id : Nat) : Away → Waiter
  | .fetch ticket _ call => .fetch id ticket call
  | _ => .task id

/-- What stands for an answer that has to wait: nothing, but a query of a history read stays out. -/
def unanswered : (q : Away) → Meeting q.Answer
  | .fetch _ _ _ => .answered none
  | .sign _ _ _ | .query _ _ | .submit _ _ | .health _ | .settle _ _ => .later

def meet (s : Session) (id : Nat) (q : Away) : Meeting q.Answer × Session :=
  match s.outside with
  | .server server signer node =>
    match s.serverAnswer server signer node q with
    | some (a, s) => (.answered a, s)
    | none => (.later, s)
  | .scripted =>
    if queueOf q = "" then (.later, s)
    else
      let s := (traceOf q).foldl trace s
      let (found, script) := s.script.meet (queueOf q) (waiterOf id q)
      let s := { s with script }
      match found with
      | .later => (unanswered q, s)
      | .now o =>
        if o.breaks then (.broken, s)
        else
          match s.outcomeOf o q with
          | some (a, s) => (.answered a, s)
          | none => (.later, s)

/-- Run an operation of a client until it waits or ends. -/
def drive (id client : Nat) : Client.Run Result → Session → Session
  | .done r, s => s.conclude id (.finished r)
  | .ask (.own q) next, s =>
    let (a, s) := s.answerOwn client q
    drive id client (next a) s
  | .ask (.away q) next, s =>
    match s.meet id q with
    | (.answered a, s) => drive id client (next a) s
    | (.later, s) => s.setTask id (.waiting client q next)
    | (.broken, s) => s.conclude id .broken

/-- The answer to the one question of a task is there. -/
def resume (s : Session) (id : Nat) (o : Outcome) : Session :=
  match s.task? id with
  | some (.waiting client q next) =>
    if o.breaks then s.conclude id .broken
    else
      match s.outcomeOf o q with
      | some (a, s) => drive id client (next a) s
      | none => s
  | _ => s

/-- The answer to one of the queries of a history read is there. -/
def resumeFetch (s : Session) (id : Nat) (ticket : Client.Ticket) (call : ContractCall) (o : Outcome) : Session :=
  match s.task? id with
  | some (.waiting client (.settle first others) next) =>
    if o.breaks then s.conclude id .broken
    else if h : ticket ∈ first :: others then drive id client (next (⟨ticket, h⟩, s.queryOutcome o call)) s
    else s
  | _ => s

/-! ## Connecting and disconnecting -/

/-- The task that waits for the handshake of an attempt goes on if the handshake has ended. -/
def wake (s : Session) (attempt : Nat) : Session :=
  if (s.manager.running? attempt).isSome then s
  else
    match s.tasks.find? fun e => match e.2 with | .connecting a => a == attempt | _ => false with
    | some (id, _) => s.setTask id (.finished (.ok (.connection s.manager.connection)))
    | none => s

def breakOff (s : Session) (attempt : Nat) : Session :=
  { s with manager := (s.manager.step (.breakOff attempt)).1 }.wake attempt

/-- The wallet has answered the release of a session. -/
def sessionReleased (s : Session) (attempt : Nat) (o : Outcome) : Session :=
  if o.breaks then s.breakOff attempt
  else
    let s := s.logAll (Wallet.releaseFailureLines o.refusal)
    { s with manager := (s.manager.step (.released attempt)).1 }.wake attempt

/-- The wallet's answer to a disconnect as an outcome. -/
def asOutcome (r : Except WalletError Unit) : Outcome :=
  { Outcome.standard with refusal := match r with | .ok () => none | .error e => some e }

/-- Ask the wallet to release a session; the outcome if it is there at once. -/
def askDisconnect (s : Session) (waiter : Waiter) : Found × Session :=
  match s.outside with
  | .scripted =>
    let s := s.trace .walletDisconnect
    let (found, script) := s.script.meet "disconnect" waiter
    (found, { s with script })
  | .server server signer node =>
    let (r, s) := s.talk server signer node (Signer.disconnect signer)
    (.now (asOutcome r), s)

/-- The wallet's answer to an attempt is there. -/
def land (s : Session) (attempt : Nat) (r : Except WalletError Account) : Session :=
  let s := s.log (Wallet.answerLine r)
  let awaited := s.manager.connection.awaits attempt
  let (manager, requests) := s.manager.step (.answer attempt r)
  let s := { s with manager }
  let s := if awaited then s else s.log (Wallet.staleLine attempt)
  match requests with
  | [] => s.wake attempt
  | _ :: _ =>
    match s.askDisconnect (.release attempt) with
    | (.now o, s) => s.sessionReleased attempt o
    | (.later, s) => s

/-- The scripted wallet's outcome of an attempt takes effect. -/
def landOutcome (s : Session) (attempt : Nat) (o : Outcome) : Session :=
  if o.breaks then (s.log Wallet.breakLine).breakOff attempt
  else s.land attempt (connectOutcome o)

def shakeHands (s : Session) (attempt : Nat) (network : Network) : Session :=
  match s.outside with
  | .scripted =>
    let s := s.trace (.walletConnect network)
    let (found, script) := s.script.meet "connect" (.handshake attempt)
    let s := { s with script }
    match found with
    | .now o => s.landOutcome attempt o
    | .later => s
  | .server server signer node =>
    let (r, s) := s.talk server signer node (Signer.connect signer network)
    s.land attempt r

/-- What the wallet's side calls itself in the log. -/
def providerName : Outside → String
  | .scripted => "ScriptedWallet"
  | .server _ _ _ => Signer.name

def startConnect (s : Session) (id : Nat) : Session :=
  let network := s.selector.active
  let (manager, requests) := s.manager.step (.connect network)
  let s := { s with manager }
  match requests with
  | [] => s.setTask id (.finished (.ok (.connection manager.connection)))
  | _ :: _ =>
    let attempt := manager.connection.attempt
    let s := s.log (Wallet.startLine (providerName s.outside) network attempt)
    (s.setTask id (.connecting attempt)).shakeHands attempt network

def closed (s : Session) (id : Nat) (o : Outcome) : Session :=
  if o.breaks then s.conclude id .broken
  else
    let s := s.logAll (Wallet.closeLines o.refusal .connected)
    s.setTask id (.finished (.ok (.connection s.manager.connection)))

def startDisconnect (s : Session) (id : Nat) : Session :=
  let before := s.manager.connection.status
  let (manager, requests) := s.manager.step .disconnect
  let s := { s with manager }
  match requests with
  | [] =>
    (s.logAll (Wallet.closeLines none before)).setTask id (.finished (.ok (.connection manager.connection)))
  | _ :: _ =>
    match s.askDisconnect (.closing id) with
    | (.now o, s) => s.closed id o
    | (.later, s) => s.setTask id .closing

/-- A gate lets a waiter pass with its outcome. -/
def pass (s : Session) (waiter : Waiter) (o : Outcome) : Session :=
  match waiter with
  | .task id => s.resume id o
  | .fetch id ticket call => s.resumeFetch id ticket call o
  | .handshake attempt => s.landOutcome attempt o
  | .release attempt => s.sessionReleased attempt o
  | .closing id => s.closed id o

def openGate (s : Session) (name : String) : Session :=
  match s.script.openGate name with
  | (none, script) => { s with script }
  | (some (waiter, o), script) => { s with script }.pass waiter o

end Session

end SupplyTrail.Rehearsal
