import SupplyTrail.Calendar.Timestamp
import SupplyTrail.Client.Writing
import SupplyTrail.Rpc.Node
import SupplyTrail.Text.Abbreviation
import SupplyTrail.Wallet.Journal
import SupplyTrail.Wallet.Manager
import SupplyTrail.Wallet.Signer
/-!
# The demonstration

A walk through a product's trail: check the ledger's node, connect the wallet, register a product under a fresh id,
append a checkpoint, read the trail back and disconnect.  The walk ends at the first failure.  It makes one call at a
time, so every question is answered before the next one is asked; what it needs from outside are questions too.
-/
namespace SupplyTrail.Demo

open Client (Own Away)

inductive Question where
  /-- Seconds since 1970. -/
  | clock
  /-- A random word. -/
  | nonce
  /-- A product id that nobody else has. -/
  | productId
  | line (question : Http.Question)

abbrev Question.Answer : Question → Type
  | .clock => UInt64
  | .nonce => UInt64
  | .productId => ProductId
  | .line question => question.Answer

abbrev questions : Signature := ⟨Question, Question.Answer⟩

structure State where
  selector : Selector
  manager : Manager
  /-- The latest time of each product it has seen registered. -/
  known : List (ProductId × UInt64)

def State.initial : State := ⟨⟨.standard, 0⟩, .initial, []⟩

inductive Failure where
  | setting (error : SettingError)
  | client (error : ClientError)
  | notConnected (detail : String)
  deriving DecidableEq

def Failure.message : Failure → String
  | .setting error => error.message
  | .client error => error.message
  | .notConnected detail => s!"Wallet connection failed: {detail}"

abbrev Run := StateT State (Activity questions)

abbrev Walk := ExceptT Failure Run

def ask (q : Question) : Run q.Answer := fun p => .ask q fun a => .done (a, p)

def note (line : LogLine) : Run Unit := ask (.line (.note line))

def noteAll (lines : List LogLine) : Run Unit := lines.forM note

def orFail {ε α : Type} (f : ε → Failure) : Except ε α → Walk α
  | .ok a => pure a
  | .error e => throw (f e)

/-! ## Calls -/

def talk {α : Type} (x : Http.Talk α) : Run α := x.runIn fun q => ask (.line q)

def answerOwn : (q : Own) → Run q.Answer
  | .activeNetwork => return (← get).selector.active
  | .clock => ask .clock
  | .account => return (← get).manager.connection.account?
  | .nonce => ask .nonce
  | .lastSeen product => return ((← get).known.find? fun e => e.1 == product).map (·.2)
  | .remember product time =>
    modify fun p => { p with known := (product, time) :: p.known.filter fun e => e.1 != product }
  | .note line => note line

/-- The signer and the ledger's node answer a client.  A query is never left out, so none is waited for. -/
def answerAway (signer : String) : (q : Away) → Run q.Answer
  | .sign account network payload => talk (Signer.sign signer account network payload)
  | .query url call => talk (Rpc.query url call)
  | .submit url envelope => talk (Rpc.submit url envelope.content)
  | .health url => talk (Rpc.health url)
  | .fetch _ url call => return some (← talk (Rpc.query url call))
  | .settle first _ => return (⟨first, List.mem_cons_self⟩, .error (.remote .noData))

def answer (signer : String) : (q : Client.Question) → Run q.Answer
  | .own q => answerOwn q
  | .away q => answerAway signer q

def perform {α : Type} (signer : String) (op : Client.Op α) : Walk α := do
  let result ← (op.run.runIn (answer signer) : Run (Except ClientError α))
  orFail .client result

/-! ## The wallet -/

/-- Make a move of the wallet's manager; what the wallet is asked. -/
def move (m : Move) : Run (List WalletRequest) :=
  modifyGet fun p => ((p.manager.step m).2, { p with manager := (p.manager.step m).1 })

def connect (signer : String) : Run Connection := do
  let network := (← get).selector.active
  if !(← move (.connect network)).isEmpty then
    let attempt := (← get).manager.connection.attempt
    note (Wallet.startLine Signer.name network attempt)
    let outcome ← talk (Signer.connect signer network)
    note (Wallet.answerLine outcome)
    let _ ← move (.answer attempt outcome)
  return (← get).manager.connection

def disconnect (signer : String) : Run Unit := do
  let before := (← get).manager.connection.status
  let complaint ←
    if (← move .disconnect).isEmpty then pure none
    else
      match ← talk (Signer.disconnect signer) with
      | .ok () => pure none
      | .error e => pure (some e)
  noteAll (Wallet.closeLines complaint before)

def setNetwork (network : Network) : Run Unit := do
  noteAll ((← get).selector.changeLines network)
  modify fun p => { p with selector := p.selector.set network }

/-! ## The walk -/

/-- The product of the demonstration: a name, and where it comes from. -/
def product (id : ProductId) (name : String) : ProductDetails :=
  { ProductDetails.ofId id with name := name, origin := "Warehouse A", category := "demo" }

def standardName : String := "Demo product"

def checkpoint : Metadata := .ofList [("location", .string "Warehouse A")]

def eventText (e : Event) : String :=
  s!"{Calendar.format e.time} {e.kind.symbol} {(Json.ofTable e.metadata).render}"

def walk (lookup : String → Option String) (name : String) : Walk Unit := do
  let settings ← orFail .setting (Settings.read lookup)
  setNetwork settings.network
  note ⟨.info, s!"Using {settings.network.name} ({settings.network.passphrase})"⟩
  let endpoint ← orFail .setting settings.endpoint
  let client : Client := ⟨endpoint, true⟩
  note ⟨.info, s!"Created contract client for {endpoint.contractId}"⟩
  let signer := settings.signerUrl
  if !(← perform signer client.ping) then
    note ⟨.warn, s!"RPC endpoint {endpoint.rpcUrl} reports unhealthy"⟩
  match (← connect signer).phase with
  | .connected account => note ⟨.info, s!"Signing as {Text.abbreviate account.publicKey 4}"⟩
  | .failed message => throw (.notConnected message)
  | .disconnected | .connecting => throw (.notConnected "unknown error")
  let id ← perform signer (client.register (product (← ask .productId) name))
  let _ ← perform signer (client.append id .checkpoint checkpoint)
  let history ← perform signer (client.getHistory id)
  noteAll (history.events.map fun e => ⟨.info, eventText e⟩)
  disconnect signer

/-- The program: whether the walk went to its end, its failure being logged. -/
def program (lookup : String → Option String) (args : List String) : Activity questions Bool := do
  let (result, _) ← ((walk lookup (args.head?.getD standardName)).run).run .initial
  match result with
  | .ok () => return true
  | .error failure =>
    .ask (Question.line (.note ⟨.error, failure.message⟩)) fun _ => .done false

end SupplyTrail.Demo
