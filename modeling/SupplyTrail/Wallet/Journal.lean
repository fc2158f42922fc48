import SupplyTrail.Journal
import SupplyTrail.Network
import SupplyTrail.Wallet.Connection
/-!
# What is logged of the wallet
-/
namespace SupplyTrail.Wallet

/-- An attempt starts; `provider` is what the wallet's side calls itself. -/
def startLine (provider : String) (network : Network) (attempt : Nat) : LogLine :=
  ⟨.info, s!"Connecting wallet via {provider} on {network.name} (attempt {Text.decimal attempt})"⟩

def answerLine : Except WalletError Account → LogLine
  | .ok account =>
    if Text.isBlank account.publicKey then ⟨.error, "Wallet provider returned an empty public key"⟩
    else ⟨.info, s!"Wallet connected: {account.publicKey}"⟩
  | .error e => ⟨.error, s!"Wallet connection failed: {e.message}"⟩

/-- The answer is to an attempt that is not awaited any more. -/
def staleLine (attempt : Nat) : LogLine :=
  ⟨.warn, s!"Discarding result of superseded connection attempt {Text.decimal attempt}"⟩

/-- The wallet did not release the session of a superseded attempt. -/
def releaseFailureLines : Option WalletError → List LogLine
  | none => []
  | some e => [⟨.warn, s!"Releasing superseded wallet session failed: {e.message}"⟩]

def breakLine : LogLine := ⟨.error, "Wallet handshake task failed"⟩

/-- A call to disconnect ends: what the wallet complained of, and the status before the call. -/
def closeLines (complaint : Option WalletError) (before : WalletStatus) : List LogLine :=
  (match complaint with
    | none => []
    | some e => [⟨.warn, s!"Wallet provider disconnect failed: {e.message}"⟩]) ++
  [⟨.info, s!"Wallet disconnected (was {before.name})"⟩]

end SupplyTrail.Wallet
