import SupplyTrail.Network
import SupplyTrail.Wallet.Connection
/-!
# Managing the wallet

The manager owns the connection and the handshakes that were started for it.  It is driven by moves: calls to connect
and disconnect, answers of the wallet, and callers that stop waiting.  Each move changes the state in one step and may
ask the wallet for something; the answer comes back as a later move, at any time and in any order, or never.

A handshake runs by itself.  Its caller may stop waiting, and the outcome still lands.  A handshake whose outcome is no
longer awaited and that opened a session releases the session itself.
-/
namespace SupplyTrail

/-- Where a handshake stands: the wallet is asked for an account, or for the release of the one it gave. -/
inductive Stage where
  | asking
  | releasing
  deriving DecidableEq, Repr

/-- A handshake that has not ended, by the number of its attempt. -/
structure Handshake where
  attempt : Nat
  stage : Stage
  /-- The caller of the connect that started it still waits. -/
  watched : Bool
  deriving DecidableEq, Repr

structure Manager where
  connection : Connection
  handshakes : List Handshake
  deriving DecidableEq, Repr

inductive Move where
  /-- A call to connect on a network. -/
  | connect (network : Network)
  /-- A call to disconnect. -/
  | disconnect
  /-- The wallet's answer to an attempt. -/
  | answer (attempt : Nat) (outcome : Except WalletError Account)
  /-- The handshake of an attempt breaks off without an answer. -/
  | breakOff (attempt : Nat)
  /-- The wallet's answer to the release of a session by a handshake. -/
  | released (attempt : Nat)
  /-- The caller that waits for an attempt stops waiting. -/
  | leave (attempt : Nat)

inductive WalletRequest where
  /-- An account on a network, for an attempt. -/
  | connect (attempt : Nat) (network : Network)
  /-- The release of the session of a superseded attempt. -/
  | release (attempt : Nat)
  /-- The release of the session that was connected. -/
  | disconnect
  deriving DecidableEq, Repr

namespace Manager

def initial : Manager := ⟨.initial, []⟩

/-- The unfinished handshake of an attempt, if it is at this stage. -/
def handshake? (m : Manager) (attempt : Nat) (stage : Stage) : Option Handshake :=
  m.handshakes.find? fun h => h.attempt == attempt && h.stage == stage

def running? (m : Manager) (attempt : Nat) : Option Handshake :=
  m.handshakes.find? fun h => h.attempt == attempt

def finish (m : Manager) (attempt : Nat) : Manager :=
  { m with handshakes := m.handshakes.filter fun h => h.attempt != attempt }

def update (m : Manager) (attempt : Nat) (f : Handshake → Handshake) : Manager :=
  { m with handshakes := m.handshakes.map fun h => if h.attempt = attempt then f h else h }

/-- A call to connect starts an attempt unless one is under way or has succeeded. -/
def connect (m : Manager) (network : Network) : Manager × List WalletRequest :=
  if m.connection.isIdle then
    let c := m.connection.start
    (⟨c, ⟨c.attempt, .asking, true⟩ :: m.handshakes⟩, [.connect c.attempt network])
  else (m, [])

/-- A call to disconnect takes effect at once; a session that was connected is released. -/
def disconnect (m : Manager) : Manager × List WalletRequest :=
  ({ m with connection := m.connection.close }, if m.connection.status = .connected then [.disconnect] else [])

/-- The wallet's answer lands if it is awaited.  A session that is not awaited any more is released. -/
def answer (m : Manager) (attempt : Nat) (outcome : Except WalletError Account) : Manager × List WalletRequest :=
  match m.handshake? attempt .asking with
  | none => (m, [])
  | some _ =>
    let phase := Connection.phaseOf outcome
    if m.connection.awaits attempt then
      ({ m.finish attempt with connection := m.connection.settle attempt phase }, [])
    else if phase.status = .connected then
      (m.update attempt fun h => { h with stage := .releasing }, [.release attempt])
    else (m.finish attempt, [])

/-- What is recorded of an attempt whose handshake broke off. -/
def brokenOff : Phase := .failed "Wallet handshake aborted"

/-- A handshake that breaks off leaves the record of it to the caller that waits for it. -/
def breakOff (m : Manager) (attempt : Nat) : Manager :=
  match m.running? attempt with
  | none => m
  | some h =>
    if h.watched then { m.finish attempt with connection := m.connection.settle attempt brokenOff }
    else m.finish attempt

/-- The release of a superseded session ends its handshake. -/
def released (m : Manager) (attempt : Nat) : Manager :=
  match m.handshake? attempt .releasing with
  | none => m
  | some _ => m.finish attempt

/-- A caller that stops waiting leaves the handshake running. -/
def leave (m : Manager) (attempt : Nat) : Manager :=
  m.update attempt fun h => { h with watched := false }

/-- One move: the state after it, and what the wallet is asked. -/
def step (m : Manager) : Move → Manager × List WalletRequest
  | .connect network => m.connect network
  | .disconnect => m.disconnect
  | .answer attempt outcome => m.answer attempt outcome
  | .breakOff attempt => (m.breakOff attempt, [])
  | .released attempt => (m.released attempt, [])
  | .leave attempt => (m.leave attempt, [])

end Manager

end SupplyTrail
