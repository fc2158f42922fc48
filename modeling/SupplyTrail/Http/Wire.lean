import SupplyTrail.Http.Exchange
import SupplyTrail.Json.Printer
import SupplyTrail.Text.Blank
/-!
# Requests and replies on the wire

A request goes in plain text to the host of its address, over a connection of its own.  The reply's body ends where its
length says, or with the connection if it says none.  An address that asks for encryption has no plain-text form.
-/
namespace SupplyTrail.Http

/-- A host with a port, and a path on it. -/
structure Address where
  host : String
  port : Nat
  path : String
  deriving DecidableEq, Repr

namespace Address

def scheme : List Char := "http://".toList

/-- The port of an address that names none. -/
def standardPort : Nat := 80

/-- The port that the digits after a host stand for. -/
def readPort? (digits : List Char) : Option Nat :=
  if digits = [] then some standardPort
  else if digits.all Text.isDigit ∧ Text.ofDigits digits < UInt16.size then some (Text.ofDigits digits)
  else none

def parse? (url : String) : Option Address :=
  if scheme.isPrefixOf url.toList then
    let rest := url.toList.drop scheme.length
    let place := rest.takeWhile fun c => c != '/' && c != '?' && c != '#'
    let path := (rest.drop place.length).takeWhile (· != '#')
    let host := place.takeWhile (· != ':')
    match readPort? ((place.drop host.length).drop 1) with
    | some port =>
      if host = [] then none
      else some ⟨String.ofList host, port, String.ofList (if path.head? = some '/' then path else '/' :: path)⟩
    | none => none
  else none

end Address

/-- The end of a line of a message's head. -/
def lineEnd : String := "\r\n"

/-- The bytes of a request.  The connection is to be closed after the reply. -/
def Request.bytes (r : Request) (a : Address) : List UInt8 :=
  let body := match r.body with
    | some j => Text.bytesOf j.render
    | none => []
  let head := [s!"POST {a.path} HTTP/1.0", s!"host: {a.host}:{Text.decimal a.port}", "accept: */*"] ++
    (if r.body.isSome then ["content-type: application/json"] else []) ++
    [s!"content-length: {Text.decimal body.length}", "connection: close", "", ""]
  Text.bytesOf (lineEnd.intercalate head) ++ body

/-- The line of a message's head up to its end, and what follows. -/
def takeLine? : List UInt8 → Option (List UInt8 × List UInt8)
  | [] => none
  | 13 :: 10 :: rest => some ([], rest)
  | b :: rest => (takeLine? rest).map fun (line, after) => (b :: line, after)

theorem length_takeLine? {bytes line after : List UInt8} (h : takeLine? bytes = some (line, after)) :
    after.length < bytes.length := by
  induction bytes using takeLine?.induct generalizing line after with
  | case1 => simp [takeLine?] at h
  | case2 rest =>
    simp only [takeLine?, Option.some.injEq, Prod.mk.injEq] at h
    simp only [← h.2, List.length_cons]
    omega
  | case3 b rest _ ih =>
    simp only [takeLine?, Option.map_eq_some_iff, Prod.exists, Prod.mk.injEq] at h
    obtain ⟨line', after', hrest, -, rfl⟩ := h
    have := ih hrest
    simp only [List.length_cons]
    omega

/-- The lines of a message's head and the bytes of its body. -/
def takeHead? (bytes : List UInt8) : Option (List String × List UInt8) :=
  match _h : takeLine? bytes with
  | none => none
  | some ([], after) => some ([], after)
  | some (line, after) => (takeHead? after).map fun (lines, body) => (Text.lossyText line :: lines, body)
termination_by bytes.length
decreasing_by exact length_takeLine? _h

/-- The status in the first line of a reply. -/
def statusOf? (line : String) : Option Nat :=
  let digits := ((line.toList.dropWhile (· != ' ')).drop 1).takeWhile (· != ' ')
  if digits.length = 3 ∧ digits.all Text.isDigit ∧ "HTTP/1.".isPrefixOf line then some (Text.ofDigits digits) else none

/-- The length in a line of a reply's head, if it is the line that says it. -/
def lengthOf? (line : String) : Option Nat :=
  let name := line.toList.takeWhile (· != ':')
  let value := (Text.trim (String.ofList (line.toList.drop (name.length + 1)))).toList
  if name.map Char.toLower = "content-length".toList ∧ value ≠ [] ∧ value.all Text.isDigit then
    some (Text.ofDigits value)
  else none

/-- The reply in all the bytes of a connection. -/
def Reply.ofBytes? (bytes : List UInt8) : Option Reply :=
  match takeHead? bytes with
  | some (first :: fields, body) =>
    match statusOf? first, fields.findSome? lengthOf? with
    | some status, none => some ⟨status, body⟩
    | some status, some length => if length ≤ body.length then some ⟨status, body.take length⟩ else none
    | none, _ => none
  | _ => none

end SupplyTrail.Http
