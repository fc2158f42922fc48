import SupplyTrail.Activity
import SupplyTrail.Http.Exchange
import SupplyTrail.Journal
/-!
# The line to a server

What an activity that talks to a server asks: a request to be posted, a number for a request, how often it may poll
again before its time is up, and a pause before it does.  How often is asked once, before the first poll; it stands
for the clock.
-/
namespace SupplyTrail.Http

inductive Question where
  | post (request : Request)
  /-- A number that no other request has. -/
  | requestNumber
  /-- How many more polls there is time for. -/
  | patience
  /-- A pause before polling again; how many pauses there were before it. -/
  | pause (earlier : Nat)
  | note (line : LogLine)

abbrev Question.Answer : Question → Type
  | .post _ => Option Reply
  | .requestNumber => UInt64
  | .patience => Nat
  | .pause _ => Unit
  | .note _ => Unit

abbrev questions : Signature := ⟨Question, Question.Answer⟩

abbrev Talk := Activity questions

/-- Post a body; nothing if there was no reply. -/
def post (url : String) (body : Option Json) : Talk (Option Reply) := .ask (Question.post ⟨url, body⟩) .done

def requestNumber : Talk UInt64 := .ask Question.requestNumber .done

def patience : Talk Nat := .ask Question.patience .done

def pause (earlier : Nat) : Talk Unit := .ask (Question.pause earlier) .done

def note (level : Level) (text : String) : Talk Unit := .ask (Question.note ⟨level, text⟩) .done

end SupplyTrail.Http
