import SupplyTrail.Activity
import SupplyTrail.Client.Error
import SupplyTrail.Journal
import SupplyTrail.Ledger.Call
import SupplyTrail.Settings
/-!
# What a client's operation asks

An operation asks its own process and the world outside.  Its process answers at once and nothing else runs in between;
outside answers come later, and other work runs while the operation waits for one.

A history is read with several queries out at the same time.  Such a query is begun by `fetch`, whose answer is the
ledger's if it is there at once and nothing if the query stays out; `settle` waits for any of the queries that are out.
-/
namespace SupplyTrail

/-- A contract client: its endpoint, and whether it refuses to work once another network is the active one. -/
structure Client where
  endpoint : Endpoint
  isBound : Bool
  deriving DecidableEq, Repr

namespace Client

/-- One query of a history read: the place of the event in the ledger's list, and its number. -/
structure Ticket where
  place : Nat
  event : UInt64
  deriving DecidableEq, Repr

/-- Answered at once. -/
inductive Own where
  | activeNetwork
  /-- Seconds since 1970. -/
  | clock
  | account
  /-- A word no other invocation gets. -/
  | nonce
  /-- The latest event time this client knows of a product that it has seen registered. -/
  | lastSeen (product : ProductId)
  | remember (product : ProductId) (time : UInt64)
  | note (line : LogLine)

abbrev Own.Answer : Own → Type
  | .activeNetwork => Network
  | .clock => UInt64
  | .account => Option Account
  | .nonce => UInt64
  | .lastSeen _ => Option UInt64
  | .remember _ _ => Unit
  | .note _ => Unit

abbrev Reading := Except LedgerFailure Json

/-- Answered from outside. -/
inductive Away where
  | sign (account : Account) (network : Network) (payload : List UInt8)
  | query (url : String) (call : ContractCall)
  | submit (url : String) (envelope : Envelope)
  | health (url : String)
  | fetch (ticket : Ticket) (url : String) (call : ContractCall)
  | settle (first : Ticket) (others : List Ticket)

abbrev Away.Answer : Away → Type
  | .sign _ _ _ => Except WalletError Envelope
  | .query _ _ => Reading
  | .submit _ _ => Except LedgerFailure Receipt
  | .health _ => Except LedgerFailure Bool
  | .fetch _ _ _ => Option Reading
  | .settle first others => { t : Ticket // t ∈ first :: others } × Reading

inductive Question where
  | own (q : Own)
  | away (q : Away)

abbrev Question.Answer : Question → Type
  | .own q => q.Answer
  | .away q => q.Answer

abbrev questions : Signature := ⟨Question, Question.Answer⟩

abbrev Run := Activity questions

/-- A client's activity that ends in a value or an error. -/
abbrev Op := ExceptT ClientError Run

def own (q : Own) : Run q.Answer := .ask (Question.own q) .done

def away (q : Away) : Run q.Answer := .ask (Question.away q) .done

def note (level : Level) (text : String) : Run Unit := own (.note ⟨level, text⟩)

def checked {α : Type} : Except InputError α → Op α
  | .ok a => pure a
  | .error e => throw (.invalidInput e)

end Client

end SupplyTrail
