import SupplyTrail.Rpc.Error
import SupplyTrail.Text.Search
/-!
# Failures of the contract

The contract reports a fault by number.  Hosts carry the number inside a text, as in `HostError: Error(Contract, #2)`;
`contractCode?` finds it there, and a remote failure whose text carries one is a failure of the contract.
-/
namespace SupplyTrail

/-- The number for a product that is not registered. -/
def productNotFound : Nat := 2

def contractFaultName (code : Nat) : String :=
  if code = 1 then "product already exists"
  else if code = 2 then "product not found"
  else if code = 3 then "unauthorized"
  else if code = 4 then "invalid input"
  else if code = 5 then "event not found"
  else if 6 ≤ code ∧ code ≤ 9 then "invalid product field"
  else if 10 ≤ code ∧ code ≤ 14 then "product field too long"
  else if 15 ≤ code ∧ code ≤ 20 then "too many product attributes"
  else if code = 21 then "product deactivated"
  else "unknown contract error"

/-- What stands before a number of the contract. -/
def codeMarker : List Char := "Error(Contract, #".toList

/-- The number of the digits that a list begins with, if there are any and they fit in a word of 32 bits. -/
def leadingCode? (cs : List Char) : Option Nat :=
  let digits := cs.takeWhile Text.isDigit
  if digits = [] then none
  else if Text.ofDigits digits < UInt32.size then some (Text.ofDigits digits)
  else none

/-- The number that a text carries: the digits right after the first marker, if there are any and they fit in a word of
32 bits. -/
def contractCode? (message : String) : Option Nat :=
  (Text.afterFirst? codeMarker message.toList).bind leadingCode?

/-- Why the ledger did not answer. -/
inductive LedgerFailure where
  | contract (code : Nat) (message : String)
  | remote (error : RpcError)
  deriving DecidableEq, Repr

namespace LedgerFailure

def message : LedgerFailure → String
  | .contract code message => s!"Contract error #{Text.decimal code}: {message}"
  | .remote error => error.message

/-- The text of a remote failure that can carry a number of the contract. -/
def carrier? : RpcError → Option String
  | .simulation message => some message
  | .failed _ reason => some reason
  | .reported _ message => some message
  | _ => none

def classify (error : RpcError) : LedgerFailure :=
  match carrier? error with
  | none => .remote error
  | some message =>
    match contractCode? message with
    | some code => .contract code message
    | none => .remote error

end LedgerFailure

end SupplyTrail
