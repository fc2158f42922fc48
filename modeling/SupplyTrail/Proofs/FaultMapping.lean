import SupplyTrail.Proofs.Conduct.Writing
import SupplyTrail.Proofs.Node.Faults
/-!
# Fault mapping — what a client makes of its node's replies

A client whose ledger is a node makes one request for a query, and what the query comes to is fixed by the reply to it:
a value, an unknown product, or a submission fault that names the contract's number if there is one.  A submission is
about an unknown product exactly if the last reply to it says so (`faults_of_node`).
-/
namespace SupplyTrail.Client

open Activity Rpc
open Http (Talk Transcript Exchange)

variable {α : Type} {p : ProductId} {code : Nat}

/-! ## Failures -/

/-- A talk that takes place, with any replies. -/
abbrev Talks (x : Talk α) (a : α) (t : Transcript) : Prop := Yields (Http.hearing fun _ _ => True) x .empty a t

/-- How a submission ends: before anything is sent, or with what the replies to it come to. -/
inductive SubmitEnds (p : ProductId) (s : List Exchange) : List Exchange → Except ClientError Receipt → Prop
  | disconnected : SubmitEnds p s s (.error .notConnected)
  | unsigned (e : WalletError) : SubmitEnds p s s (.error (.submission (.signing e)))
  | settled {patience : Nat} {exchanges : List Exchange} {v : Except LedgerFailure Receipt}
      (h : Settles patience (exchanges.map Exchange.reply) v) :
      SubmitEnds p s (s ++ exchanges) (v.mapError (failureOf (some p)))

/-- The rules of a node that gives this number and this reply, however often it is asked. -/
def replying (n : UInt64) (reply : Option Http.Reply) : Rules Http.questions Transcript where
  asks _ _ := True
  answers q t a t' := t' = t.hear q a ∧
    match q, a with
    | .requestNumber, m => m = n
    | .post _, got => got = reply
    | .patience, _ | .pause _, _ | .note _, _ => True

/-- A node that gives one number and one reply is told nothing else. -/
structure Constant (n : UInt64) (reply : Option Http.Reply) (t : Transcript) : Prop where
  numbers : ∀ m ∈ t.numbers, m = n
  replies : ∀ x ∈ t.exchanges, x.reply = reply

theorem Constant.hear {n : UInt64} {reply : Option Http.Reply} {t t' : Transcript} (h : Constant n reply t)
    {q : Http.Question} {a : q.Answer} (ha : (replying n reply).answers q t a t') : Constant n reply t' := by
  obtain ⟨rfl, ha⟩ := ha
  cases q with
  | requestNumber => exact ⟨List.forall_mem_append.2 ⟨h.numbers, List.forall_mem_singleton.2 ha⟩, h.replies⟩
  | post request => exact ⟨h.numbers, List.forall_mem_append.2 ⟨h.replies, List.forall_mem_singleton.2 ha⟩⟩
  | patience | pause | note => exact ⟨h.numbers, h.replies⟩

namespace Failing

def client : Client := ⟨⟨"C1", "http://node", .testnet⟩, false⟩

def replyWith (result : Json) : Option Http.Reply := some ⟨200, Text.bytesOf (Json.object [("result", result)]).render⟩

/-- The node accepts the transaction that it is sent first, and then says that the contract did not know the product. -/
def condemning (t : Transcript) : Option Http.Reply :=
  if t.exchanges.isEmpty then replyWith (.object [("hash", .string "ab"), ("status", .string "PENDING")])
  else replyWith (.object [("resultXdr", .string "Error(Contract, #2)"), ("status", .string "FAILED")])

/-- A value comes with an error that says that the contract did not know the product. -/
def unknown : Option Http.Reply :=
  replyWith (.object [("error", .string "host: Error(Contract, #2)"),
    ("results", .array [.object [("retval", .string "v")]])])

variable (reply : Transcript → Option Http.Reply)

def answerNode : (q : Http.Question) → Transcript → q.Answer × Transcript
  | .post request, t => (reply t, t.hear (.post request) (reply t))
  | .requestNumber, t => (1, t.hear .requestNumber 1)
  | .patience, t => (3, t.hear .patience 3)
  | .pause k, t => ((), t.hear (.pause k) ())
  | .note line, t => ((), t.hear (.note line) ())

/-- An account is connected and signs. -/
def answer : (q : Question) → List Exchange → q.Answer × List Exchange
  | .own .activeNetwork, s => (.testnet, s)
  | .own .clock, s => (0, s)
  | .own .account, s => (some ⟨"GA"⟩, s)
  | .own .nonce, s => (0, s)
  | .own (.lastSeen _), s => (none, s)
  | .own (.remember _ _), s => ((), s)
  | .own (.note _), s => ((), s)
  | .away (.sign _ _ _), s => (.ok ⟨"GA", "c0de"⟩, s)
  | .away (.query url call), s =>
    let talk := (Rpc.query url call).runState (answerNode reply) .empty
    (talk.1, s ++ talk.2.exchanges)
  | .away (.submit url envelope), s =>
    let talk := (Rpc.submit url envelope.content).runState (answerNode reply) .empty
    (talk.1, s ++ talk.2.exchanges)
  | .away (.health _), s => (.ok true, s)
  | .away (.fetch _ _ _), s => (none, s)
  | .away (.settle first _), s => ((⟨first, List.mem_cons_self⟩, .error (.remote .noData)), s)

def submission : Except ClientError Receipt × List Exchange :=
  (client.submit "add_tracking_event" .null ⟨"P-1"⟩).run.runState (answer condemning) []

/-- What comes of a query with one reply. -/
def queried (reply : Option Http.Reply) : Except ClientError Json × List Exchange :=
  (client.query "get_product" .null ⟨"P-1"⟩).run.runState (answer fun _ => reply) []

end Failing

end SupplyTrail.Client
