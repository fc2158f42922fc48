import SupplyTrail.Client.Writing
import SupplyTrail.Wallet.Manager
/-!
# What the steps of a rehearsal answer
-/
namespace SupplyTrail.Rehearsal

inductive Failure where
  | client (e : ClientError)
  | wallet (e : WalletError)
  | remote (e : RpcError)
  | ledger (f : LedgerFailure)
  | setting (e : SettingError)
  /-- The step cannot be used as it stands. -/
  | unusable

inductive Value where
  | nothing
  | connection (c : Connection)
  /-- A connection with its status and account. -/
  | snapshot (c : Connection)
  | envelope (e : Envelope)
  | account (a : Account)
  | flag (b : Bool)
  | product (id : ProductId)
  | event (e : Event)
  | record (r : ProductRecord)
  | history (h : History)
  | page (p : HistoryPage)
  | items (items : List Client.Item) (ended : Bool)
  | network (n : Network)
  | index (n : Nat)
  | endpoint (e : Endpoint)
  /-- A connection, and whether it is new to the watcher. -/
  | seenConnection (isNew : Bool) (c : Connection)
  /-- The active network, and whether it is new to the watcher. -/
  | seenNetwork (isNew : Bool) (n : Network)
  | health (h : Rpc.Health)
  | networkInfo (n : Rpc.NetworkInfo)
  | latestLedger (l : Rpc.LatestLedger)
  | transaction (t : Rpc.Transaction)
  | text (s : String)
  | json (j : Json)
  | receipt (r : Receipt)

abbrev Result := Except Failure Value

/-- What a step answers: a result, or what became of a task. -/
inductive Answer where
  | result (r : Result)
  | pending
  | joined (r : Result)

/-- A call that reached the wallet or the ledger. -/
inductive Trace where
  | walletConnect (network : Network)
  | walletSign (publicKey : String) (network : Network)
  | walletDisconnect
  | query (url : String) (call : ContractCall)
  | submit (url : String) (envelope : Envelope)
  | health (url : String)

/-- An operation of a client as a step gives its result. -/
def ofClient {α : Type} (f : α → Value) (x : Client.Op α) : Client.Run Result := do
  match ← x.run with
  | .ok a => return .ok (f a)
  | .error e => return .error (.client e)

end SupplyTrail.Rehearsal
