import SupplyTrail.Http.Line
/-!
# A server with prepared replies

Each request takes the next reply, and what is left over can be counted.  A reply may be none, when the server closes
the connection; without any left it fails.  A server that does not listen gets no requests and gives no replies.
-/
namespace SupplyTrail.Rehearsal

structure Server where
  listening : Bool
  replies : List (Option Http.Reply)
  /-- The requests it got, the latest first. -/
  requests : List Http.Request
  nextNumber : UInt64
  /-- There is time to poll again. -/
  patient : Bool
  /-- What was logged, the latest first. -/
  journal : List LogLine

namespace Server

/-- What the server says when it has no reply left. -/
def exhausted : Http.Reply := ⟨500, []⟩

def post (s : Server) (request : Http.Request) : Option Http.Reply × Server :=
  if !s.listening then (none, s)
  else
    let s := { s with requests := request :: s.requests }
    match s.replies with
    | [] => (some exhausted, s)
    | reply :: rest => (reply, { s with replies := rest })

def answer : (q : Http.Question) → Server → q.Answer × Server
  | .post request, s => s.post request
  | .requestNumber, s => (s.nextNumber, { s with nextNumber := s.nextNumber + 1 })
  | .patience, s => (if s.patient then s.replies.length else 0, s)
  | .pause _, s => ((), s)
  | .note line, s => ((), { s with journal := line :: s.journal })

def run {α : Type} (s : Server) (talk : Http.Talk α) : α × Server := talk.runState answer s

end Server

end SupplyTrail.Rehearsal
