import SupplyTrail.Journal
import SupplyTrail.Json.Decoding
import SupplyTrail.Text.Blank
import SupplyTrail.Text.Quoted
/-!
# Networks

The closed set of networks a ledger client can work on, each with its endpoints and the passphrase that envelopes signed
for it are bound to.  Names are read without regard to ASCII case and surrounding white space, and any other name is
refused where it enters.
-/
namespace SupplyTrail

inductive SettingError where
  | unknownNetwork (name : String)
  | missing (setting : String)
  | invalid (setting reason : String)
  deriving DecidableEq, Repr

def SettingError.message : SettingError → String
  | .unknownNetwork name => s!"Unknown network: {Text.quoted name} (expected testnet, mainnet or futurenet)"
  | .missing setting => s!"Missing required setting: {setting}"
  | .invalid setting reason => s!"Invalid value for {setting}: {reason}"

inductive Network where
  | testnet
  | mainnet
  | futurenet
  deriving DecidableEq, Repr, Inhabited

namespace Network

/-- Every network, in the order in which they are shown. -/
def all : List Network := [.testnet, .mainnet, .futurenet]

/-- The network that is used when nothing else is set. -/
def standard : Network := .testnet

def name : Network → String
  | .testnet => "testnet"
  | .mainnet => "mainnet"
  | .futurenet => "futurenet"

def horizonUrl : Network → String
  | .testnet => "https://horizon-testnet.stellar.org"
  | .mainnet => "https://horizon.stellar.org"
  | .futurenet => "https://horizon-futurenet.stellar.org"

def rpcUrl : Network → String
  | .testnet => "https://soroban-testnet.stellar.org"
  | .mainnet => "https://mainnet.sorobanrpc.com"
  | .futurenet => "https://rpc-futurenet.stellar.org"

/-- What an envelope for this network is bound to. -/
def passphrase : Network → String
  | .testnet => "Test SDF Network ; September 2015"
  | .mainnet => "Public Global Stellar Network ; September 2015"
  | .futurenet => "Test SDF Future Network ; October 2022"

def names : List (String × Network) :=
  [("testnet", .testnet), ("mainnet", .mainnet), ("futurenet", .futurenet)]

def toJson (n : Network) : Json := .string n.name

/-- A network in a document goes by its exact name. -/
def decode : Json.Decoder Network := .variant names

/-- Read a name in any ASCII case between white space; `public` is another name of the main network. -/
def parse (text : String) : Except SettingError Network :=
  match (Text.trim text).map Char.toLower with
  | "testnet" => .ok .testnet
  | "mainnet" | "public" => .ok .mainnet
  | "futurenet" => .ok .futurenet
  | _ => .error (.unknownNetwork text)

theorem passphrase_injective {a b : Network} (h : a.passphrase = b.passphrase) : a = b := by
  cases a <;> cases b <;> first | rfl | exact absurd h (by decide)

end Network

/-- The active network, and how often it has been set. -/
structure Selector where
  active : Network
  revision : Nat
  deriving DecidableEq, Repr

/-- Make a network the active one.  Setting the one that is active counts too. -/
def Selector.set (s : Selector) (network : Network) : Selector :=
  ⟨network, s.revision + 1⟩

/-- What is logged when a network becomes the active one: nothing if it is already. -/
def Selector.changeLines (s : Selector) (network : Network) : List LogLine :=
  if s.active = network then [] else [⟨.info, s!"Active network changed: {s.active.name} -> {network.name}"⟩]

end SupplyTrail
