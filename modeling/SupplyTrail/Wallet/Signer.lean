import SupplyTrail.Http.Line
import SupplyTrail.Network
import SupplyTrail.Text.Hex
import SupplyTrail.Wallet.Connection
/-!
# A remote signer

A signer is a service that holds accounts and signs with them, if its user agrees.  It is asked by posting to `connect`,
`sign` and `disconnect` under its address.  A reply that carries an error text is a refusal with that text whatever else
it says; without one it counts only if its status is a success and it has what was asked for.
-/
namespace SupplyTrail.Signer

open Http (Talk)

/-- What a signer is called in the log. -/
def name : String := "RemoteSignerProvider"

def trimSlashes (url : String) : String :=
  String.ofList (url.toList.reverse.dropWhile (· == '/')).reverse

/-- The address of one of the signer's services. -/
def address (url service : String) : String := s!"{trimSlashes url}/{service}"

/-- A reply of the signer: what it gives, or an error text. -/
structure Response where
  given : Option String
  error : Option String
  deriving DecidableEq

open Json.Decoder in
def Response.form (field : String) : Json.Form :=
  ⟨"response", [.of .nothing field (nullable text), .of .nothing "error" (nullable text)]⟩

open Json.Decoder in
/-- A response that carries what it gives under this name. -/
def Response.decode (field : String) : Json.Decoder Response := fun s => do
  let found ← (form field).locate s
  return ⟨← Json.needOr none found field (nullable text), ← Json.needOr none found "error" (nullable text)⟩

/-- What a reply gives under a name, refusals being reported as `refuse` says. -/
def readReply (field : String) (refuse : String → WalletError) (reply : Http.Reply) :
    Except WalletError (Option String) :=
  match reply.document?.map (Response.decode field) with
  | some (.ok response) =>
    match response.error with
    | some error => .error (refuse error)
    | none =>
      if reply.isSuccess then .ok response.given
      else .error (refuse s!"signer returned HTTP {Http.statusText reply.status}")
  | _ => .error .http

/-- The account of a reply to a request for one. -/
def readAccount (reply : Http.Reply) : Except WalletError Account :=
  match readReply "publicKey" .connection reply with
  | .error e => .error e
  | .ok given =>
    match given with
    | some key => if Text.isBlank key then .error (.connection "signer returned no public key") else .ok ⟨key⟩
    | none => .error (.connection "signer returned no public key")

/-- The envelope of a reply to a request for a signature. -/
def readEnvelope (account : Account) (reply : Http.Reply) : Except WalletError Envelope :=
  match readReply "signedEnvelope" .signing reply with
  | .error e => .error e
  | .ok (some content) => .ok ⟨account.publicKey, content⟩
  | .ok none => .error (.signing "signer returned no envelope")

def connect (url : String) (network : Network) : Talk (Except WalletError Account) := do
  let body := Json.object [("network", .string network.name), ("networkPassphrase", .string network.passphrase)]
  match ← Http.post (address url "connect") (some body) with
  | none => return .error (.connection s!"signer unreachable: {Http.faultText}")
  | some reply =>
    let outcome := readAccount reply
    if let .ok account := outcome then Http.note .info s!"Signer connected account {account.publicKey}"
    return outcome

/-- Ask for a signature of a payload on a network. -/
def sign (url : String) (account : Account) (network : Network) (payload : List UInt8) :
    Talk (Except WalletError Envelope) := do
  let body := Json.object [("publicKey", .string account.publicKey), ("networkPassphrase", .string network.passphrase),
    ("payload", .string (Text.encodeHex payload))]
  match ← Http.post (address url "sign") (some body) with
  | none => return .error .http
  | some reply => return readEnvelope account reply

/-- Release the session.  The signer's own complaints are only logged. -/
def disconnect (url : String) : Talk (Except WalletError Unit) := do
  match ← Http.post (address url "disconnect") none with
  | none => return .error .http
  | some reply =>
    if !reply.isSuccess then Http.note .warn s!"Signer disconnect returned HTTP {Http.statusText reply.status}"
    return .ok ()

end SupplyTrail.Signer
