import SupplyTrail.Network
import SupplyTrail.Text.Digits
/-!
# Settings

An endpoint says which contract a client talks to, where, and on which network; it is checked once, when it is made.
`Settings` holds what a process reads from its environment.  A blank variable counts as unset, and of several faults the
first one in the order network, contract, timeout is reported.
-/
namespace SupplyTrail

/-- A contract on a network, behind an endpoint. -/
structure Endpoint where
  contractId : String
  rpcUrl : String
  network : Network
  deriving DecidableEq, Repr

namespace Endpoint

/-- An endpoint needs a contract id that is not blank and a web address. -/
def make (contractId rpcUrl : String) (network : Network) : Except SettingError Endpoint :=
  if Text.isBlank contractId then .error (.missing "contract id")
  else if "https://".isPrefixOf rpcUrl || "http://".isPrefixOf rpcUrl then .ok ⟨contractId, rpcUrl, network⟩
  else .error (.invalid "rpc url" s!"{Text.quoted rpcUrl} is not an http(s) URL")

def onNetwork (contractId : String) (network : Network) : Except SettingError Endpoint :=
  make contractId network.rpcUrl network

def toJson (e : Endpoint) : Json :=
  .object [("contractId", .string e.contractId), ("rpcUrl", .string e.rpcUrl), ("network", e.network.toJson)]

open Json.Decoder in
def form : Json.Form :=
  ⟨"endpoint", [.of .fault "contractId" text, .of .fault "rpcUrl" text, .of .fault "network" Network.decode]⟩

open Json.Decoder in
/-- An endpoint in a document is taken as it stands. -/
def decode : Json.Decoder Endpoint := fun s => do
  let found ← form.locate s
  return {
    contractId := ← Json.need found "contractId" text
    rpcUrl := ← Json.need found "rpcUrl" text
    network := ← Json.need found "network" Network.decode }

end Endpoint

inductive WordFault where
  | invalidDigit
  | tooLarge
  deriving DecidableEq, Repr

def WordFault.message : WordFault → String
  | .invalidDigit => "invalid digit found in string"
  | .tooLarge => "number too large to fit in target type"

/-- Read digits onto a number below `bound`, up to the first fault. -/
def readWord (bound : Nat) : Nat → List Char → Except WordFault Nat
  | n, [] => .ok n
  | n, c :: cs =>
    if !Text.isDigit c then .error .invalidDigit
    else if bound ≤ 10 * n + Text.digitValue c then .error .tooLarge
    else readWord bound (10 * n + Text.digitValue c) cs

/-- Read an unsigned word of 64 bits: digits after an optional plus. -/
def parseWord (text : String) : Except WordFault Nat :=
  match text.toList with
  | [] | ['+'] => .error .invalidDigit
  | '+' :: cs => readWord UInt64.size 0 cs
  | cs => readWord UInt64.size 0 cs

structure Settings where
  network : Network
  contractId : String
  /-- Replaces the network's own address. -/
  rpcUrl : Option String
  signerUrl : String
  /-- Seconds until a request is given up. -/
  timeout : Nat
  deriving DecidableEq, Repr

namespace Settings

def networkKey : String := "CHAIN_LOGISTICS_NETWORK"
def contractKey : String := "CHAIN_LOGISTICS_CONTRACT_ID"
def rpcUrlKey : String := "CHAIN_LOGISTICS_RPC_URL"
def signerUrlKey : String := "CHAIN_LOGISTICS_SIGNER_URL"
def timeoutKey : String := "CHAIN_LOGISTICS_RPC_TIMEOUT_SECS"

def keys : List String := [networkKey, contractKey, rpcUrlKey, signerUrlKey, timeoutKey]

def standardSignerUrl : String := "http://localhost:7300"
def standardTimeout : Nat := 30

/-- The trimmed value of a key, if it is set and not blank. -/
def get? (lookup : String → Option String) (key : String) : Option String :=
  match lookup key with
  | none => none
  | some v => if Text.trim v = "" then none else some (Text.trim v)

/-- A timeout is a whole number of seconds, at least one. -/
def readTimeout : Option String → Except SettingError Nat
  | none => .ok standardTimeout
  | some raw =>
    match parseWord raw with
    | .error fault => .error (.invalid timeoutKey s!"{Text.quoted raw}: {fault.message}")
    | .ok 0 => .error (.invalid timeoutKey "must be at least 1")
    | .ok n => .ok n

def read (lookup : String → Option String) : Except SettingError Settings := do
  let network ← match get? lookup networkKey with
    | some name => Network.parse name
    | none => .ok Network.standard
  let contractId ← match get? lookup contractKey with
    | some id => .ok id
    | none => .error (.missing contractKey)
  let timeout ← readTimeout (get? lookup timeoutKey)
  return ⟨network, contractId, get? lookup rpcUrlKey, (get? lookup signerUrlKey).getD standardSignerUrl, timeout⟩

def endpoint (s : Settings) : Except SettingError Endpoint :=
  match s.rpcUrl with
  | some url => Endpoint.make s.contractId url s.network
  | none => Endpoint.onNetwork s.contractId s.network

end Settings

end SupplyTrail
