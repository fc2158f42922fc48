import SupplyTrail.Text.Blank
import SupplyTrail.Wallet.Account
/-!
# The wallet's connection

A connection is in one of four phases and carries the number of the current attempt.  Only a connected phase has an
account and only a failed one has a message.  Starting an attempt and disconnecting both move to a new number, so the
outcome of an older attempt no longer fits and is dropped.
-/
namespace SupplyTrail

inductive Phase where
  | disconnected
  | connecting
  | connected (account : Account)
  | failed (message : String)
  deriving DecidableEq, Repr

/-- The phase without what it carries. -/
inductive WalletStatus where
  | disconnected
  | connecting
  | connected
  | error
  deriving DecidableEq, Repr

namespace WalletStatus

def name : WalletStatus → String
  | .disconnected => "disconnected"
  | .connecting => "connecting"
  | .connected => "connected"
  | .error => "error"

def names : List (String × WalletStatus) :=
  [("disconnected", .disconnected), ("connecting", .connecting), ("connected", .connected), ("error", .error)]

end WalletStatus

def Phase.status : Phase → WalletStatus
  | .disconnected => .disconnected
  | .connecting => .connecting
  | .connected _ => .connected
  | .failed _ => .error

structure Connection where
  attempt : Nat
  phase : Phase
  deriving DecidableEq, Repr

namespace Connection

def initial : Connection := ⟨0, .disconnected⟩

def status (c : Connection) : WalletStatus := c.phase.status

def account? (c : Connection) : Option Account :=
  match c.phase with
  | .connected a => some a
  | _ => none

def error? (c : Connection) : Option String :=
  match c.phase with
  | .failed m => some m
  | _ => none

/-- Nothing is under way and nothing is connected, so an attempt may start. -/
def isIdle (c : Connection) : Bool :=
  match c.phase with
  | .disconnected | .failed _ => true
  | .connecting | .connected _ => false

/-- The connection waits for the outcome of this attempt. -/
def awaits (c : Connection) (attempt : Nat) : Bool :=
  c.attempt == attempt && c.status == .connecting

/-- The connection with a new attempt under way. -/
def start (c : Connection) : Connection := ⟨c.attempt + 1, .connecting⟩

def close (c : Connection) : Connection := ⟨c.attempt + 1, .disconnected⟩

/-- The connection after the outcome of an attempt, which counts only if it is awaited. -/
def settle (c : Connection) (attempt : Nat) (phase : Phase) : Connection :=
  if c.awaits attempt then { c with phase := phase } else c

/-- What a wallet's answer to an attempt leads to. -/
def phaseOf : Except WalletError Account → Phase
  | .ok account =>
    if Text.isBlank account.publicKey then .failed "Wallet returned an empty public key" else .connected account
  | .error e => .failed e.message

end Connection

end SupplyTrail
