import Std.Async.DNS
import Std.Async.TCP
import Std.Async.Timer
import Std.Time.DateTime.Timestamp
import SupplyTrail.Demo
import SupplyTrail.Http.Wire
/-!
# The program

Runs the demonstration with the process's environment and arguments, over plain-text connections.  The log goes to the
standard output.
-/
namespace SupplyTrail.Main

open Std.Async

/-- Seconds since 1970. -/
def clock : IO UInt64 := do
  return UInt64.ofNat (← Std.Time.Timestamp.now).toSecondsSinceUnixEpoch.val.toNat

def randomBytes (count : USize) : IO (List UInt8) := do
  return (← IO.getRandomBytes count).toList

/-- Everything that comes over a connection until it is closed. -/
partial def receive (socket : TCP.Socket.Client) (got : ByteArray) : Async ByteArray := do
  match ← socket.recv? 65536 with
  | some more => receive socket (got ++ more)
  | none => return got

/-- Send bytes to a host and take all that comes back. -/
def exchange (address : Http.Address) (bytes : ByteArray) : Async (Option ByteArray) := do
  let port := UInt16.ofNat address.port
  for place in ← DNS.getAddrInfo address.host "" (some .ipv4) do
    if let .v4 host := place then
      let socket ← TCP.Socket.Client.mk
      socket.connect (.v4 ⟨host, port⟩)
      socket.send bytes
      return some (← receive socket .empty)
  return none

/-- The reply to a request, if there is one within so many seconds. -/
def post (timeout : Nat) (request : Http.Request) : IO (Option Http.Reply) := do
  let some address := Http.Address.parse? request.url | return none
  let bytes := ByteArray.mk (request.bytes address).toArray
  let expire : Async (Option ByteArray) := do
    sleep (.ofNat (timeout * 1000))
    return none
  try
    let got ← (Async.race (exchange address bytes) expire).block
    return got.bind fun b => Http.Reply.ofBytes? b.toList
  catch _ => return none

/-- The pauses between polls, in milliseconds: each is half again as long as the one before it, up to five seconds, and
together they last about half a minute. -/
def pauses : List UInt32 := [500, 750, 1125, 1687, 2531, 3796, 5000, 5000, 5000, 5000]

def write (line : LogLine) : IO Unit := do
  IO.println s!"{Calendar.format (← clock)} {line.render}"

def answer (timeout : Nat) (numbers : IO.Ref UInt64) : (q : Demo.Question) → IO q.Answer
  | .clock => clock
  | .nonce => return UInt64.ofNat ((← randomBytes 8).foldl (fun n b => 256 * n + b.toNat) 0)
  | .productId => return ProductId.ofBytes (← randomBytes 16)
  | .line (.post request) => post timeout request
  | .line .requestNumber => numbers.modifyGet fun n => (n, n + 1)
  | .line .patience => return pauses.length
  | .line (.pause earlier) => IO.sleep (pauses.getD earlier 5000)
  | .line (.note line) => write line

end SupplyTrail.Main

def main (args : List String) : IO UInt32 := do
  let keys := SupplyTrail.Settings.keys
  let values ← keys.mapM fun key => return (key, ← IO.getEnv key)
  let lookup := fun key => (SupplyTrail.valueOf? key values).join
  let timeout := match SupplyTrail.Settings.read lookup with
    | .ok settings => settings.timeout
    | .error _ => SupplyTrail.Settings.standardTimeout
  let numbers ← IO.mkRef 1
  let finished ← (SupplyTrail.Demo.program lookup args).runIn (SupplyTrail.Main.answer timeout numbers)
  return if finished then 0 else 1
