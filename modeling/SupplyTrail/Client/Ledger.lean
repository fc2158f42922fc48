import SupplyTrail.Client.Question
/-!
# Calls of a client

Every operation starts by checking that the client's network is still the active one.  Queries and submissions go to
the client's own endpoint, whatever becomes the active network later.  A failure for a product that the contract does
not know is told apart; every other failure says what went wrong and is logged.
-/
namespace SupplyTrail.Client

/-- Refuse to start on a network that is not the client's. -/
def checkNetwork (c : Client) : Op Unit := do
  if c.isBound then
    let active ← own .activeNetwork
    let bound := c.endpoint.network
    if active ≠ bound then
      note .warn s!"Rejecting call on client bound to {bound.name} while {active.name} is active"
      throw (.networkChanged bound active)

def connectedKey : Op String := do
  match ← own .account with
  | some account => return account.publicKey
  | none => throw .notConnected

/-- Fail as the ledger did, on behalf of a product if there is one. -/
def fail {α : Type} (c : Client) (product : Option ProductId) (failure : LedgerFailure) : Op α := do
  match failure, product with
  | .contract code message, some id =>
    if code = productNotFound then throw (.unknownProduct id)
    note .error s!"Contract rejected call: #{Text.decimal code} {message}"
    throw (.submission (.contract code))
  | .contract code message, none =>
    note .error s!"Contract rejected call: #{Text.decimal code} {message}"
    throw (.submission (.contract code))
  | .remote error, _ =>
    note .error s!"RPC call to {c.endpoint.rpcUrl} failed: {error.message}"
    throw (.submission (.remote error))

/-- The value of an answer, or its failure. -/
def accept {α : Type} (c : Client) (product : Option ProductId) : Except LedgerFailure α → Op α
  | .ok a => pure a
  | .error failure => c.fail product failure

def call (c : Client) (function : String) (args : Json) : ContractCall :=
  ⟨c.endpoint.contractId, function, args⟩

def query (c : Client) (function : String) (args : Json) (product : ProductId) : Op Json := do
  c.accept product (← away (.query c.endpoint.rpcUrl (c.call function args)))

def signature (network : Network) (payload : List UInt8) : Run (Except WalletError Envelope) := do
  match ← own .account with
  | some account => away (.sign account network payload)
  | none => return .error .notConnected

def submit (c : Client) (function : String) (args : Json) (product : ProductId) : Op Receipt := do
  let key ← connectedKey
  let nonce ← own .nonce
  let invocation := Invocation.make (c.call function args) key c.endpoint.network nonce
  match ← signature c.endpoint.network invocation.toBytes with
  | .error .notConnected => throw .notConnected
  | .error error => throw (.submission (.signing error))
  | .ok envelope => c.accept product (← away (.submit c.endpoint.rpcUrl envelope))

end SupplyTrail.Client
