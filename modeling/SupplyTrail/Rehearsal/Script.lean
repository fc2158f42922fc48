import SupplyTrail.Client.Question
/-!
# Scripted outcomes and gates

What the wallet and the ledger of a rehearsal answer is scripted: each kind of call has a queue of outcomes, used once
each, and answers in the standard way when its queue is empty.  An outcome may have to wait at a gate before it takes
effect.  A gate lets the callers that wait at it pass in the order of their coming, one at each opening; opened while
nobody waits, it lets the next one pass, but never more than one.
-/
namespace SupplyTrail.Rehearsal

/-- A scripted outcome. -/
structure Outcome where
  /-- The gate to wait at. -/
  gate : Option String
  /-- The call breaks off. -/
  breaks : Bool
  /-- The call is answered in the standard way. -/
  isStandard : Bool
  refusal : Option WalletError
  failure : Option LedgerFailure
  /-- The public key that a connect gives. -/
  publicKey : String
  /-- Replaces the envelope's content. -/
  content : Option String
  /-- Replaces the envelope's signer. -/
  signer : Option String
  /-- The value that the ledger gives. -/
  value : Json

/-- The outcome of a call that nothing is scripted for. -/
def Outcome.standard : Outcome := ⟨none, false, true, none, none, "", none, none, .null⟩

/-- Who waits at a gate. -/
inductive Waiter where
  /-- The operation of a task, for the one answer it asked for. -/
  | task (id : Nat)
  /-- A query of a history read. -/
  | fetch (id : Nat) (ticket : Client.Ticket) (call : ContractCall)
  /-- A handshake that asked for an account. -/
  | handshake (attempt : Nat)
  /-- A handshake that releases its session. -/
  | release (attempt : Nat)
  /-- A disconnect. -/
  | closing (id : Nat)

/-- The waiter belongs to a task that can be abandoned. -/
def Waiter.isOf (id : Nat) : Waiter → Bool
  | .task i | .fetch i _ _ | .closing i => i == id
  | .handshake _ | .release _ => false

structure Gate where
  /-- The next caller need not wait. -/
  isOpen : Bool
  waiting : List (Waiter × Outcome)

structure Script where
  queues : List (String × List Outcome)
  gates : List (String × Gate)

/-- What a call finds: an outcome that takes effect now, or a gate to wait at. -/
inductive Found where
  | now (outcome : Outcome)
  | later

namespace Script

def empty : Script := ⟨[], []⟩

def gate (s : Script) (name : String) : Gate := (valueOf? name s.gates).getD ⟨false, []⟩

def setGate (s : Script) (name : String) (g : Gate) : Script :=
  { s with gates := (name, g) :: s.gates.filter fun e => e.1 != name }

def add (s : Script) (name : String) (outcomes : List Outcome) : Script :=
  let queue := (valueOf? name s.queues).getD []
  { s with queues := (name, queue ++ outcomes) :: s.queues.filter fun e => e.1 != name }

def take (s : Script) (name : String) : Outcome × Script :=
  match valueOf? name s.queues with
  | some (o :: rest) => (o, { s with queues := (name, rest) :: s.queues.filter fun e => e.1 != name })
  | _ => (.standard, s)

/-- A call takes its outcome at once and then passes its gate or waits at it. -/
def meet (s : Script) (name : String) (waiter : Waiter) : Found × Script :=
  let (outcome, s) := s.take name
  match outcome.gate with
  | none => (.now outcome, s)
  | some gateName =>
    let g := s.gate gateName
    if g.isOpen then (.now outcome, s.setGate gateName { g with isOpen := false })
    else (.later, s.setGate gateName { g with waiting := g.waiting ++ [(waiter, outcome)] })

/-- Open a gate: the first caller that waits passes, or else the next one to come. -/
def openGate (s : Script) (name : String) : Option (Waiter × Outcome) × Script :=
  let g := s.gate name
  match g.waiting with
  | first :: rest => (some first, s.setGate name { g with waiting := rest })
  | [] => (none, s.setGate name { g with isOpen := true })

def forget (s : Script) (id : Nat) : Script :=
  { s with gates := s.gates.map fun (name, g) => (name, { g with waiting := g.waiting.filter fun w => !w.1.isOf id }) }

end Script

end SupplyTrail.Rehearsal
