import SupplyTrail.Json.Decoding
/-!
# Messages of the ledger's remote interface

Requests and responses follow JSON-RPC 2.0.  Responses are read leniently: members that are not known are skipped, and
most fields may be absent.
-/
namespace SupplyTrail.Rpc

open Json.Decoder

/-- A request with its number.  A request without parameters has no such member. -/
structure Request where
  id : UInt64
  method : String
  params : Option Json
  deriving DecidableEq

def Request.toJson (r : Request) : Json :=
  .object ([("jsonrpc", .string "2.0"), ("id", .word r.id), ("method", .string r.method)] ++
    match r.params with
    | some p => [("params", p)]
    | none => [])

/-- What a node reports instead of a result. -/
structure ErrorObject where
  code : Int
  message : String
  data : Option Json
  deriving DecidableEq

def ErrorObject.form : Json.Form := ⟨"error object", [.of .fault "code" signed64, .of .fault "message" text,
  .of .standard "data" (nullable value)]⟩

def ErrorObject.decode : Json.Decoder ErrorObject := fun s => do
  let found ← form.locate s
  return {
    code := ← Json.need found "code" signed64
    message := ← Json.need found "message" text
    data := ← Json.needOr none found "data" (nullable value) }

/-- A response: a result, an error, both or none. -/
structure Response (α : Type) where
  result : Option α
  error : Option ErrorObject

def Response.form {α : Type} (d : Json.Decoder α) : Json.Form := ⟨"response", [.of .nothing "result" (nullable d),
  .of .nothing "error" (nullable ErrorObject.decode)]⟩

def Response.decode {α : Type} (d : Json.Decoder α) : Json.Decoder (Response α) := fun s => do
  let found ← (form d).locate s
  return {
    result := ← Json.needOr none found "result" (nullable d)
    error := ← Json.needOr none found "error" (nullable ErrorObject.decode) }

structure Health where
  status : String
  latestLedger : Option UInt64
  deriving DecidableEq

def Health.isHealthy (h : Health) : Bool := h.status == "healthy"

def Health.decode : Json.Decoder Health := fun s => do
  let found ← (⟨"health", [.of .fault "status" text,
    .of .standard "latestLedger" (nullable word64)]⟩ : Json.Form).locate s
  return {
    status := ← Json.need found "status" text
    latestLedger := ← Json.needOr none found "latestLedger" (nullable word64) }

structure NetworkInfo where
  passphrase : String
  protocolVersion : Option UInt32
  friendbotUrl : Option String
  deriving DecidableEq

def NetworkInfo.decode : Json.Decoder NetworkInfo := fun s => do
  let found ← (⟨"network", [.of .fault "passphrase" text, .of .standard "protocolVersion" (nullable word32),
    .of .standard "friendbotUrl" (nullable text)]⟩ : Json.Form).locate s
  return {
    passphrase := ← Json.need found "passphrase" text
    protocolVersion := ← Json.needOr none found "protocolVersion" (nullable word32)
    friendbotUrl := ← Json.needOr none found "friendbotUrl" (nullable text) }

structure LatestLedger where
  id : String
  sequence : UInt64
  protocolVersion : UInt32
  deriving DecidableEq

def LatestLedger.decode : Json.Decoder LatestLedger := fun s => do
  let found ← (⟨"latest ledger", [.of .fault "id" text, .of .fault "sequence" word64,
    .of .fault "protocolVersion" word32]⟩ : Json.Form).locate s
  return {
    id := ← Json.need found "id" text
    sequence := ← Json.need found "sequence" word64
    protocolVersion := ← Json.need found "protocolVersion" word32 }

/-- What a node did with a transaction it was sent. -/
inductive SendStatus where
  | pending
  | duplicate
  | tryAgainLater
  | error
  deriving DecidableEq, Repr

namespace SendStatus

def names : List (String × SendStatus) :=
  [("PENDING", .pending), ("DUPLICATE", .duplicate), ("TRY_AGAIN_LATER", .tryAgainLater), ("ERROR", .error)]

def wireName : SendStatus → String
  | .pending => "PENDING"
  | .duplicate => "DUPLICATE"
  | .tryAgainLater => "TRY_AGAIN_LATER"
  | .error => "ERROR"

def title : SendStatus → String
  | .pending => "Pending"
  | .duplicate => "Duplicate"
  | .tryAgainLater => "TryAgainLater"
  | .error => "Error"

/-- The node took the transaction, now or before. -/
def isAccepted : SendStatus → Bool
  | .pending | .duplicate => true
  | .tryAgainLater | .error => false

end SendStatus

structure Sent where
  status : SendStatus
  hash : String
  latestLedger : Option UInt64
  errorResult : Option String
  deriving DecidableEq

def Sent.form : Json.Form := ⟨"sent transaction", [.of .fault "status" (variant SendStatus.names),
  .of .fault "hash" text, .of .standard "latestLedger" (nullable word64),
  .of .standard "errorResultXdr" (nullable text)]⟩

def Sent.decode : Json.Decoder Sent := fun s => do
  let found ← form.locate s
  return {
    status := ← Json.need found "status" (variant SendStatus.names)
    hash := ← Json.need found "hash" text
    latestLedger := ← Json.needOr none found "latestLedger" (nullable word64)
    errorResult := ← Json.needOr none found "errorResultXdr" (nullable text) }

inductive TransactionStatus where
  | success
  | failed
  | notFound
  deriving DecidableEq, Repr

namespace TransactionStatus

def names : List (String × TransactionStatus) :=
  [("SUCCESS", .success), ("FAILED", .failed), ("NOT_FOUND", .notFound)]

def wireName : TransactionStatus → String
  | .success => "SUCCESS"
  | .failed => "FAILED"
  | .notFound => "NOT_FOUND"

end TransactionStatus

structure Transaction where
  status : TransactionStatus
  ledger : Option UInt64
  createdAt : Option String
  returned : Option Json
  result : Option String
  deriving DecidableEq

def Transaction.form : Json.Form := ⟨"transaction", [.of .fault "status" (variant TransactionStatus.names),
  .of .standard "ledger" (nullable word64), .of .standard "createdAt" (nullable text),
  .of .standard "returnValue" (nullable value), .of .standard "resultXdr" (nullable text)]⟩

def Transaction.decode : Json.Decoder Transaction := fun s => do
  let found ← form.locate s
  return {
    status := ← Json.need found "status" (variant TransactionStatus.names)
    ledger := ← Json.needOr none found "ledger" (nullable word64)
    createdAt := ← Json.needOr none found "createdAt" (nullable text)
    returned := ← Json.needOr none found "returnValue" (nullable value)
    result := ← Json.needOr none found "resultXdr" (nullable text) }

/-- The outcome of a simulated call: one value for each function that ran, or an error. -/
structure Simulation where
  results : List Json
  error : Option String
  latestLedger : Option UInt64
  deriving DecidableEq

def resultForm : Json.Form := ⟨"simulation result", [.of .fault "retval" value]⟩

/-- One result of a simulation is a record with the value. -/
def decodeResult : Json.Decoder Json := fun s => do
  let found ← resultForm.locate s
  Json.need found "retval" value

def Simulation.form : Json.Form := ⟨"simulation", [.of .standard "results" (list decodeResult),
  .of .standard "error" (nullable text), .of .standard "latestLedger" (nullable word64)]⟩

def Simulation.decode : Json.Decoder Simulation := fun s => do
  let found ← form.locate s
  return {
    results := ← Json.needOr [] found "results" (list decodeResult)
    error := ← Json.needOr none found "error" (nullable text)
    latestLedger := ← Json.needOr none found "latestLedger" (nullable word64) }

end SupplyTrail.Rpc
