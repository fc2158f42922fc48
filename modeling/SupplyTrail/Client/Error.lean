import SupplyTrail.Ledger.Failure
import SupplyTrail.Network
import SupplyTrail.Trail.Event
import SupplyTrail.Wallet.Account
/-!
# Failures of client operations
-/
namespace SupplyTrail

inductive SubmissionFault where
  | signing (error : WalletError)
  | contract (code : Nat)
  | remote (error : RpcError)
  deriving DecidableEq, Repr

def SubmissionFault.message : SubmissionFault → String
  | .signing error => s!"signing failed: {error.message}"
  | .contract code => s!"{contractFaultName code} (contract error #{Text.decimal code})"
  | .remote error => error.message

/-- What is wrong with an answer of the ledger. -/
inductive AnswerFault where
  | product (id : ProductId) (mismatch : Json.Mismatch)
  | eventIds (id : ProductId) (mismatch : Json.Mismatch)
  | event (number : UInt64) (error : InputError)
  /-- An event that is listed for one product belongs to another. -/
  | foreignEvent (number : UInt64) (owner listed : ProductId)
  /-- The oldest event of a history is no registration. -/
  | unregistered (id : ProductId)
  deriving DecidableEq

def AnswerFault.message : AnswerFault → String
  | .product id mismatch => s!"product {id.text}: {mismatch.message}"
  | .eventIds id mismatch => s!"event ids of {id.text}: {mismatch.message}"
  | .event number error => s!"event {Text.decimal number.toNat}: {error.message}"
  | .foreignEvent number owner listed =>
    s!"event {Text.decimal number.toNat} belongs to {owner.text}, not {listed.text}"
  | .unregistered id => s!"history of {id.text} does not start with REGISTER"

inductive ClientError where
  | invalidInput (error : InputError)
  | notConnected
  | unknownProduct (id : ProductId)
  | submission (fault : SubmissionFault)
  | networkChanged (bound active : Network)
  | malformed (fault : AnswerFault)
  deriving DecidableEq

def ClientError.message : ClientError → String
  | .invalidInput error => s!"Invalid input: {error.message}"
  | .notConnected => "Wallet is not connected"
  | .unknownProduct id => s!"Unknown product: {id.text}"
  | .submission fault => s!"Submission failed: {fault.message}"
  | .networkChanged bound active => s!"Client is bound to {bound.name} but the active network is {active.name}"
  | .malformed fault => s!"Malformed ledger response: {fault.message}"

end SupplyTrail
