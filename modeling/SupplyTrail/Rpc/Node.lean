import SupplyTrail.Http.Line
import SupplyTrail.Ledger.Call
import SupplyTrail.Ledger.Failure
/-!
# Talking to a ledger's node

Every call is one numbered request.  A reply counts only with a successful status and a body of the wanted shape; an
error object in it wins over a result.  A transaction is sent once, and only its state is polled: again and again
while it is not found and there is time, until it is found or a poll fails.
-/
namespace SupplyTrail.Rpc

open Http (Talk)

abbrev Attempt := ExceptT RpcError Talk

def readReply {α : Type} (d : Json.Decoder α) (reply : Option Http.Reply) : Except RpcError (Response α) :=
  match reply with
  | none => .error .http
  | some reply =>
    if !reply.isSuccess then .error (.reported reply.status s!"HTTP error: {Http.statusText reply.status}")
    else
      match reply.document?.map (Response.decode d) with
      | some (.ok response) => .ok response
      | _ => .error .http

/-- One call: its result, if the node reports no error and there is one. -/
def call {α : Type} (url method : String) (params : Option Json) (d : Json.Decoder α) : Attempt α := do
  let number ← Http.requestNumber
  let reply ← Http.post url (some (Request.toJson ⟨number, method, params⟩))
  let response ← readReply d reply
  if let some error := response.error then
    Http.note .error s!"RPC {method} failed: {error.message} ({Text.decimalInt error.code})"
    throw (.reported error.code error.message)
  match response.result with
  | some result => return result
  | none => throw .noData

def getHealth (url : String) : Attempt Health := call url "getHealth" none Health.decode

def getNetwork (url : String) : Attempt NetworkInfo := call url "getNetwork" none NetworkInfo.decode

def getLatestLedger (url : String) : Attempt LatestLedger := call url "getLatestLedger" none LatestLedger.decode

/-- Run a call without effect and take the value of its first result. -/
def simulate (url transaction : String) : Attempt Json := do
  let params := Json.object [("transaction", .string transaction)]
  let simulation ← call url "simulateTransaction" (some params) Simulation.decode
  if let some error := simulation.error then throw (.simulation error)
  match simulation.results with
  | value :: _ => return value
  | [] => throw .noData

/-- Send a signed transaction, once, and take its hash. -/
def send (url transaction : String) : Attempt String := do
  let params := Json.object [("transaction", .string transaction)]
  let sent ← call url "sendTransaction" (some params) Sent.decode
  if !sent.status.isAccepted then
    throw (.rejected sent.status (sent.errorResult.getD "no reason given"))
  Http.note .info s!"Transaction {sent.hash} accepted ({sent.status.title})"
  return sent.hash

def getTransaction (url hash : String) : Attempt Transaction :=
  call url "getTransaction" (some (.object [("hash", .string hash)])) Transaction.decode

/-- Poll a transaction until it is found, at most `more` times after the first, with a pause before each of them. -/
def poll (url hash : String) (earlier : Nat) : (more : Nat) → Attempt Transaction
  | 0 => do
    let transaction ← getTransaction url hash
    if transaction.status = .notFound then throw (.unconfirmed hash) else return transaction
  | more + 1 => do
    let transaction ← getTransaction url hash
    if transaction.status = .notFound then
      Http.pause earlier
      poll url hash (earlier + 1) more
    else return transaction

def confirm (url hash : String) : Attempt Transaction := do
  let patience ← Http.patience
  let transaction ← poll url hash 0 patience
  if transaction.status = .failed then throw (.failed hash (transaction.result.getD "no result"))
  Http.note .info s!"Transaction {hash} confirmed in ledger {Text.decimal (transaction.ledger.getD 0).toNat}"
  return transaction

/-- A failure of the node as the ledger's. -/
def asLedger {α : Type} (x : Attempt α) : Talk (Except LedgerFailure α) := do
  match ← x.run with
  | .ok a => return .ok a
  | .error e => return .error (.classify e)

/-- Answer a query of the contract by a simulation. -/
def query (url : String) (c : ContractCall) : Talk (Except LedgerFailure Json) :=
  asLedger (simulate url c.encode)

/-- Submit an envelope's content and wait until it is confirmed. -/
def submit (url : String) (content : String) : Talk (Except LedgerFailure Receipt) :=
  asLedger do
    let hash ← send url content
    let transaction ← confirm url hash
    return ⟨hash, transaction.ledger, transaction.returned⟩

def health (url : String) : Talk (Except LedgerFailure Bool) := do
  match ← (getHealth url).run with
  | .ok h => return .ok h.isHealthy
  | .error e => return .error (.remote e)

end SupplyTrail.Rpc
