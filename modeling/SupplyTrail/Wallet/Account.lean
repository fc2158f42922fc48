import SupplyTrail.Http.Exchange
import SupplyTrail.Json.Decoding
/-!
# Accounts, envelopes and the wallet's failures
-/
namespace SupplyTrail

structure Account where
  publicKey : String
  deriving DecidableEq, Repr

namespace Account

def toJson (a : Account) : Json := .object [("publicKey", .string a.publicKey)]

open Json.Decoder in
def decode : Json.Decoder Account := fun s => do
  let found ← (⟨"account", [.of .fault "publicKey" text]⟩ : Json.Form).locate s
  return ⟨← Json.need found "publicKey" text⟩

end Account

/-- A signed payload, ready for submission, and who signed it. -/
structure Envelope where
  signer : String
  content : String
  deriving DecidableEq, Repr

namespace Envelope

def toJson (e : Envelope) : Json := .object [("signer", .string e.signer), ("envelope", .string e.content)]

open Json.Decoder in
def decode : Json.Decoder Envelope := fun s => do
  let found ← (⟨"envelope", [.of .fault "signer" text, .of .fault "envelope" text]⟩ : Json.Form).locate s
  return ⟨← Json.need found "signer" text, ← Json.need found "envelope" text⟩

end Envelope

/-- Why the wallet did not do what it was asked. -/
inductive WalletError where
  | notConnected
  | connection (detail : String)
  | signing (detail : String)
  | http
  deriving DecidableEq, Repr

def WalletError.message : WalletError → String
  | .notConnected => "Wallet is not connected"
  | .connection detail => s!"Wallet connection failed: {detail}"
  | .signing detail => s!"Signing rejected: {detail}"
  | .http => s!"Signer HTTP error: {Http.faultText}"

end SupplyTrail
