import SupplyTrail.Http.Exchange
import SupplyTrail.Rpc.Message
/-!
# Failures of remote calls
-/
namespace SupplyTrail

inductive RpcError where
  /-- No reply, or a body that is no such response. -/
  | http
  /-- The node answered with an error, or with a status other than success. -/
  | reported (code : Int) (message : String)
  | noData
  | rejected (status : Rpc.SendStatus) (reason : String)
  | failed (hash reason : String)
  | simulation (message : String)
  /-- A transaction that was not confirmed in time. -/
  | unconfirmed (hash : String)
  deriving DecidableEq, Repr

def RpcError.message : RpcError → String
  | .http => s!"HTTP error: {Http.faultText}"
  | .reported code message => s!"RPC error {Text.decimalInt code}: {message}"
  | .noData => "No data returned"
  | .rejected status reason => s!"Transaction rejected ({status.title}): {reason}"
  | .failed hash reason => s!"Transaction {hash} failed: {reason}"
  | .simulation message => s!"Simulation failed: {message}"
  | .unconfirmed hash => s!"Transaction {hash} not confirmed in time"

end SupplyTrail
