import SupplyTrail.Proofs.Conduct.Binding
import SupplyTrail.Proofs.Identity
import SupplyTrail.Proofs.Interleaving.Course
import SupplyTrail.Proofs.Ledger.Arguments
/-!
# Signing — what is signed is what was asked

The wallet is given an account, a network and the text of an invocation.  However the wallet's connection changes while
operations run, the invocation names that account and that network and no other, calls the client's own contract, and
its arguments decode to what the operation was asked for (`asAsked_of_run`).  The account is asked for twice, once for
the invocation and once for the signature; the operation is not interrupted in between.
-/
namespace SupplyTrail

namespace Client

variable {σ : Type} {c : Client} {op : Operation} {p : ProductId} {d : Dialogue σ}

/-- A call decodes to what an operation was asked for: a registration to its details and the time of its registration,
an append to its event at that time. -/
inductive Decodes : Operation → UInt64 → ContractCall → Prop
  | register {details : ProductDetails} {time : UInt64} {call : ContractCall}
      (hfunction : call.function = "register_product") (hcheck : details.check = .ok ())
      (hargs : ProductDetails.decode call.args.toSource = .ok details) (htime : createdAt? call.args = some time) :
      Decodes (.register details) time call
  | append {product : ProductId} {kind : EventKind} {metadata : Metadata} {time : UInt64} {call : ContractCall}
      (hfunction : call.function = "add_tracking_event")
      (hcheck : Event.check ⟨product, kind, time, metadata⟩ = .ok ⟨product, kind, time, metadata⟩)
      (hargs : Event.parse call.args = .ok ⟨product, kind, time, metadata⟩) :
      Decodes (.append product kind metadata) time call

theorem Drafted.decodes {time : UInt64} {call : ContractCall} (h : Drafted c op p time call d) :
    Decodes op time call := by
  cases h with
  | register hnet hcheck hevent =>
    exact .register rfl hcheck (decode_registerArgs _ _ _) (createdAt?_registerArgs _ _ _)
  | append hkind hevent hseen => exact .append rfl hevent (parse_appendArgs hevent _)

/-- The metadata of an operation can be read back: an append's is without doubles and does not nest too deep. -/
def Operation.Readable : Operation → Prop
  | .append _ _ metadata => Faithful metadata
  | .register _ | .getProduct _ | .getHistory _ | .getPage _ _ _ | .stream _ _ | .ping => True

theorem Drafted.plain {time : UInt64} {call : ContractCall} (h : Drafted c op p time call d) (hop : op.Readable) :
    Plain call.args := by
  cases h with
  | register hnet hcheck hevent => exact plain_registerArgs _ _ _
  | @append product kind metadata actor now last m d hkind hevent hseen =>
    have hfaithful : Faithful metadata := hop
    exact plain_appendArgs hfaithful _

end Client

namespace Interleaving

open Client Activity
open Rehearsal (Result)

/-- The wallet is asked to sign what an operation of a client was asked for: an account and a network are handed over
with the text of this invocation. -/
structure AsAsked {σ : Type} (c : Client) (op : Operation) (d : Dialogue σ) (account : Account) (network : Network)
    (payload : List UInt8) (i : Invocation) : Prop where
  text : payload = i.toBytes ∧ Text.text? payload = some i.toJson.render
  source : i.source = account.publicKey
  own : network = c.endpoint.network
  /-- The invocation is bound to this network and to no other. -/
  passphrase : ∀ n : Network, n.passphrase = i.passphrase ↔ n = network
  contract : i.call.contractId = c.endpoint.contractId
  /-- The call was drafted at some time, and decodes to what was asked for at that time. -/
  decodes : ∃ p time d', d' <:+ d ∧ Drafted c op p time i.call d' ∧ Decodes op time i.call
  readBack : op.Readable → Invocation.ofBytes? payload = some i

theorem source_of_invoked {c : Client} {op : Operation} {p : ProductId} {time : UInt64} {i : Invocation}
    {signer : Account} {d : Dialogue Manager} (hinv : Invoked c op p time i signer d)
    (hhonest : ∀ t ∈ d, Honest wallet t) (hchain : d.IsChain SameMoment) : i.source = signer.publicKey := by
  cases hinv with
  | @mk call source _ nonce m n k d hdraft =>
    simp only [List.isChain_cons_cons] at hchain
    obtain ⟨hmn, hnk, -⟩ := hchain
    have hmk : m = k := (hmn rfl rfl).trans (hnk rfl rfl)
    have hsigner : accountKey m = some signer.publicKey := accountKey_of_honest (hhonest _ List.mem_cons_self)
    have hsource : accountKey k = some source.publicKey := accountKey_of_honest (hhonest _ (by simp))
    rw [← hmk, hsigner] at hsource
    exact (Option.some.inj hsource).symm

variable {clients : Nat → Client} {w : World Manager} {id : Nat} {τ : Task Manager}

/-- **What is signed is what was asked.**  However the wallet is connected and disconnected while operations run,
whenever an operation asks the wallet for a signature, it is for the text of an invocation of its own call by the
account that signs, on the client's network and contract. -/
theorem asAsked_of_run (h : Steps wallet clients (.start .initial) w) (hτ : w.tasks id = some τ)
    {d : Dialogue Manager} {account : Account} {network : Network} {payload : List UInt8}
    (hasks : τ.Asks d (.away (.sign account network payload))) :
    ∃ i, AsAsked (clients τ.member) τ.operation d account network payload i := by
  obtain ⟨p, time, i, rfl, rfl, hinv⟩ := (asks_of_steps keeps_run h hτ hasks).signing
  have hhonest : ∀ t ∈ d, Honest wallet t := fun t ht =>
    allHonest_of_steps h id τ hτ t (hasks.suffix.subset ht)
  have hchain : d.IsChain SameMoment :=
    ((inTurn_of_steps (fun h => h) wallet_quiet h).chain id τ hτ).suffix hasks.suffix
  have hsource := source_of_invoked hinv hhonest hchain
  obtain ⟨hcontract, hnetwork⟩ := hinv.owns
  obtain ⟨d', hdraft, hs⟩ := hinv.drafted
  refine ⟨i, ⟨rfl, Text.text?_bytesOf _⟩, hsource, rfl, fun n => ?_, hcontract,
    ⟨p, time, d', hs, hdraft, hdraft.decodes⟩, fun hop => (hdraft.plain hop).ofBytes?⟩
  rw [hnetwork]
  exact ⟨Network.passphrase_injective, congrArg Network.passphrase⟩

/-- What the wallet is asked to sign, by which account and for which network. -/
def signing? : Question → Option (Account × Network × List UInt8)
  | .away (.sign account network payload) => some (account, network, payload)
  | _ => none

theorem asks_of_signing? {t : Turn Manager} (ht : τ.told.head? = some t) {account : Account} {network : Network}
    {payload : List UInt8} (h : signing? t.question = some (account, network, payload)) :
    ∃ d, τ.Asks d (.away (.sign account network payload)) := by
  obtain ⟨d, hd⟩ : ∃ d, τ.told = t :: d := ⟨_, List.eq_cons_of_mem_head? ht⟩
  obtain ⟨q, a, m⟩ := t
  match q, a, hd with
  | .away (.sign _ _ _), a, hd =>
    cases h
    have hs : ⟨.away (.sign account network payload), a, m⟩ :: d <:+ τ.told := hd ▸ List.suffix_refl _
    exact ⟨d, .answered hs⟩
  | .own _, _, _ | .away (.query _ _), _, _ | .away (.submit _ _), _, _ | .away (.health _), _, _
  | .away (.fetch _ _ _), _, _ | .away (.settle _ _), _, _ => cases h

/-- The general theorem where the wallet is connected to another account while an append reads its product's history:
the new account signs, and the invocation is its own. -/
theorem asAsked_of_run_reconnect : ∃ τ d payload i, Reconnect.world.tasks 0 = some τ ∧
    τ.Asks d (.away (.sign ⟨"GB"⟩ .testnet payload)) ∧ i.source = "GB" ∧
    AsAsked looseClient τ.operation d ⟨"GB"⟩ .testnet payload i := by
  have hplay : ((Reconnect.world.tasks 0).bind fun τ => τ.told.head?.bind fun t => signing? t.question).map
      (fun asked => (asked.1, asked.2.1)) = some (⟨"GB"⟩, .testnet) := by decide +kernel
  obtain ⟨⟨account, network, payload⟩, hasked, hwho⟩ := Option.map_eq_some_iff.1 hplay
  cases hwho
  obtain ⟨τ, hτ, hasked⟩ := Option.bind_eq_some_iff.1 hasked
  obtain ⟨t, ht, hasked⟩ := Option.bind_eq_some_iff.1 hasked
  obtain ⟨d, hasks⟩ := asks_of_signing? ht hasked
  obtain ⟨i, hi⟩ := asAsked_of_run Reconnect.steps_world hτ hasks
  exact ⟨τ, d, payload, i, hτ, hasks, hi.source, hi⟩

end Interleaving

end SupplyTrail
