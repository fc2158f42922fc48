import SupplyTrail.Json.Decoding
import SupplyTrail.Json.Reader
import SupplyTrail.Network
import SupplyTrail.Text.Hex
/-!
# Contract calls and invocations

A call names a contract, one of its functions and the arguments.  An invocation binds a call to the account that makes
it and to a network, with a nonce that tells equal invocations apart; its JSON text is what the wallet signs.
-/
namespace SupplyTrail

structure ContractCall where
  contractId : String
  function : String
  args : Json
  deriving DecidableEq

namespace ContractCall

def toJson (c : ContractCall) : Json :=
  .object [("contractId", .string c.contractId), ("function", .string c.function), ("args", c.args)]

open Json.Decoder in
def form : Json.Form :=
  ⟨"call", [.of .fault "contractId" text, .of .fault "function" text, .of .fault "args" value]⟩

open Json.Decoder in
def decode : Json.Decoder ContractCall := fun s => do
  let found ← form.locate s
  return {
    contractId := ← Json.need found "contractId" text
    function := ← Json.need found "function" text
    args := ← Json.need found "args" value }

/-- The call as it is handed over for a simulation: the bytes of its text in hexadecimal. -/
def encode (c : ContractCall) : String := Text.encodeHex (Text.bytesOf c.toJson.render)

end ContractCall

/-- The text of a nonce: sixteen lower-case hexadecimal digits. -/
def nonceText (n : UInt64) : String := String.ofList (Text.hexPadded 16 n.toNat)

structure Invocation where
  call : ContractCall
  /-- The public key of the account that makes the call. -/
  source : String
  passphrase : String
  nonce : String
  deriving DecidableEq

namespace Invocation

/-- Bind a call to an account and a network. -/
def make (call : ContractCall) (source : String) (network : Network) (nonce : UInt64) : Invocation :=
  ⟨call, source, network.passphrase, nonceText nonce⟩

def toJson (i : Invocation) : Json :=
  .object [("call", i.call.toJson), ("source", .string i.source), ("networkPassphrase", .string i.passphrase),
    ("nonce", .string i.nonce)]

open Json.Decoder in
def form : Json.Form :=
  ⟨"invocation", [.of .fault "call" ContractCall.decode, .of .fault "source" text,
    .of .fault "networkPassphrase" text, .of .fault "nonce" text]⟩

open Json.Decoder in
def decode : Json.Decoder Invocation := fun s => do
  let found ← form.locate s
  return {
    call := ← Json.need found "call" ContractCall.decode
    source := ← Json.need found "source" text
    passphrase := ← Json.need found "networkPassphrase" text
    nonce := ← Json.need found "nonce" text }

def toBytes (i : Invocation) : List UInt8 := Text.bytesOf i.toJson.render

def ofBytes? (bytes : List UInt8) : Option Invocation := do
  let s ← Json.Source.ofBytes? bytes
  (decode s).toOption

end Invocation

/-- The outcome of a submission that was confirmed. -/
structure Receipt where
  hash : String
  ledger : Option UInt64
  returned : Option Json
  deriving DecidableEq

namespace Receipt

def toJson (r : Receipt) : Json :=
  .object [("txHash", .string r.hash), ("ledger", (r.ledger.map .word).getD .null),
    ("returnValue", r.returned.getD .null)]

open Json.Decoder in
def form : Json.Form :=
  ⟨"receipt", [.of .fault "txHash" text, .of .nothing "ledger" (nullable word64),
    .of .nothing "returnValue" (nullable value)]⟩

open Json.Decoder in
def decode : Json.Decoder Receipt := fun s => do
  let found ← form.locate s
  return {
    hash := ← Json.need found "txHash" text
    ledger := ← Json.needOr none found "ledger" (nullable word64)
    returned := ← Json.needOr none found "returnValue" (nullable value) }

end Receipt

end SupplyTrail
