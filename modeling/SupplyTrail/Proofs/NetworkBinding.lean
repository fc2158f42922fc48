import SupplyTrail.Proofs.Conduct.Binding
import SupplyTrail.Proofs.Identity
import SupplyTrail.Proofs.Interleaving.Course
import SupplyTrail.Proofs.SingleShot
/-!
# Network binding — operations while the active network changes

Clients share one selector, and anybody sets it at any turn.  An operation starts with its first answer.  If another
network than its client's is active then, it asks nothing outside and fails for that; if the client's is active then,
it never fails for a changed network, and whatever the selector says later, all it asks outside goes to the client's own
node, contract and network (`networkBinding_of_run`).  Two facts carry this: every check of the network comes before
the first outside question, and until then an operation is not interrupted.
-/
namespace SupplyTrail.Interleaving

open Client Activity
open Rehearsal (Result)

variable {σ : Type} {S : Surroundings σ} {clients : Nat → Client} {w : World σ} {id : Nat} {τ : Task σ}

/-! ## Queries that are out -/

/-- A query that is out went to the client's own node and contract. -/
def Errand.Aimed (c : Client) (e : Errand) : Prop :=
  e.url = c.endpoint.rpcUrl ∧ e.call.contractId = c.endpoint.contractId

theorem errands_aimed_of_steps {s : σ} (h : Steps S clients (.start s) w) :
    ∀ id τ, w.tasks id = some τ → ∀ e ∈ τ.errands, e.Aimed (clients τ.member) := by
  induction h with
  | refl => exact fun i τ hτ => by cases hτ
  | @tail w₁ w₂ hs₁ hs ih =>
    intro i τ' hτ'
    cases hs with
    | begin member op hid =>
      have hnew : ∀ e ∈ (Task.begun clients member op : Task σ).errands, e.Aimed (clients member) := fun e he => by
        cases he
      exact tasks_update (P := fun τ => ∀ e ∈ τ.errands, e.Aimed (clients τ.member)) ih hnew hτ'
    | @answer id τ q next a v hτ hrest hturn ha =>
      refine tasks_update (P := fun τ => ∀ e ∈ τ.errands, e.Aimed (clients τ.member)) ih (fun e he => ?_) hτ'
      have he : e ∈ v.errands := he
      have hold := ih id τ hτ
      rcases errands_cases ha with hsame | ⟨t, url, call, rfl, hnew⟩
      · rw [hsame] at he
        exact hold e he
      · rw [hnew] at he
        rcases List.mem_cons.1 he with rfl | he
        · exact ((allConducted_of_steps hs₁ id τ hτ).warrant hrest).aimed.fetched
        · exact hold e he
    | @serve id τ e r s hτ he hr =>
      refine tasks_update (P := fun τ => ∀ e ∈ τ.errands, e.Aimed (clients τ.member)) ih (fun e' he' => ?_) hτ'
      rcases List.mem_cons.1 he' with rfl | he'
      · exact ih id τ hτ e he
      · exact ih id τ hτ e' he'
    | other hturn hs => exact ih i τ' hτ'

/-! ## The selector around the clients -/

/-- Clients and one selector, on one thread.  The active network is the selector's; the clock, the wallet and the ledger
answer anything, and the selector is set to any network at any turn. -/
def switching : Surroundings Selector where
  parallel := False
  own
    | .activeNetwork, s, a => a = s.active
    | _, _, _ => True
  away _ s _ s' := s' = s
  other s s' := ∃ network, s' = s.set network

theorem active_of_honest {a : Network} {s : Selector} (h : Honest switching ⟨.own .activeNetwork, a, s⟩) :
    a = s.active := by
  obtain ⟨v, w, hv, ha, -⟩ := h
  have hactive : a = v.around.active := ha
  rw [hactive, hv]

theorem isOwn_of_isIdle {q : Question} (h : q.isIdle = true) : IsOwn q = true := by
  cases q with
  | own q => rfl
  | away q => cases h

/-- **Until the first outside question an operation is not interrupted**: its turns are all of one moment. -/
theorem moment_of_idle {d : Dialogue σ} (hchain : d.IsChain SameMoment) (hidle : Idle d) {first : Turn σ}
    (hfirst : d.getLast? = some first) : ∀ t ∈ d, t.moment = first.moment := by
  induction d with
  | nil => exact fun t ht => by cases ht
  | cons u d ih =>
    intro t ht
    cases d with
    | nil =>
      obtain rfl := List.mem_singleton.1 ht
      cases hfirst
      rfl
    | cons v d =>
      obtain ⟨huv, hrest⟩ := List.isChain_cons_cons.1 hchain
      have hidle' : Idle (v :: d) := hidle.mono (List.suffix_cons _ _)
      rcases List.mem_cons.1 ht with rfl | ht
      · have hmoment := huv (isOwn_of_isIdle (hidle _ List.mem_cons_self))
          (isOwn_of_isIdle (hidle' _ List.mem_cons_self))
        exact hmoment.trans (ih hrest hidle' hfirst v List.mem_cons_self)
      · exact ih hrest hidle' hfirst t ht

/-- What was refused asks only its own process, and ends with the refusal once that is in the log. -/
theorem refused_task {c : Client} {active : Network} (h : Refused c τ.operation active τ.rest τ.told) :
    (∀ q ∈ τ.asked, q.isOwn = true) ∧ (τ.rest = .done (τ.operation.refusal c active) ∨
      τ.rest = .ask (.own (.note (c.warning active))) fun _ => .done (τ.operation.refusal c active)) := by
  unfold Task.asked
  generalize τ.rest = x at h ⊢
  generalize τ.told = d at h ⊢
  cases h with
  | noting => exact ⟨List.forall_mem_cons.2 ⟨rfl, List.forall_mem_singleton.2 rfl⟩, .inr rfl⟩
  | failed => exact ⟨List.forall_mem_cons.2 ⟨rfl, List.forall_mem_singleton.2 rfl⟩, .inl rfl⟩

/-- How an operation of a client keeps to the client's network. -/
structure Bound (c : Client) (τ : Task Selector) : Prop where
  /-- All it asks outside goes to the client's own node, contract and network. -/
  aimed : ∀ d q, τ.Asks d q → Aimed c d q
  errands : ∀ e ∈ τ.errands, e.Aimed c
  /-- If another network was active as it started, it asks nothing outside and fails for that. -/
  refused : ∀ s, τ.start? = some s → s.active ≠ c.endpoint.network → (∀ q ∈ τ.asked, q.isOwn = true) ∧
    (τ.rest = .done (τ.operation.refusal c s.active) ∨
      τ.rest = .ask (.own (.note (c.warning s.active))) fun _ => .done (τ.operation.refusal c s.active))
  /-- If its own was active as it started, it does not fail for another. -/
  steady : ∀ s, τ.start? = some s → s.active = c.endpoint.network →
    ∀ r, τ.rest = .done r → ∀ bound active, .networkChanged bound active ∉ failuresOf r

/-- **Operations are bound to the network they start on.**  Whatever else runs on the selector and however it moves: a
bound client's operation that starts while another network is active asks nothing outside and fails with both networks'
names, and one that starts while its own is active never fails so; all that an operation asks outside goes to its
client's own node, contract and network. -/
theorem networkBinding_of_run {s : Selector} {w : World Selector} {τ : Task Selector}
    (h : Steps switching clients (.start s) w) (hτ : w.tasks id = some τ) (hbound : (clients τ.member).isBound = true)
    (hop : τ.operation.checksNetwork = true) : Bound (clients τ.member) τ := by
  have hhonest := allHonest_of_steps h id τ hτ
  refine ⟨fun d q hasks => (asks_of_steps keeps_run h hτ hasks).aimed, errands_aimed_of_steps h id τ hτ,
    fun s hs hne => ?_, fun s hs heq r hrest bound active hmem => ?_⟩
  · obtain ⟨first, hfirst, rfl⟩ := Option.map_eq_some_iff.1 hs
    rcases refused_of_goes hbound hop (goes_of_steps h id τ hτ) with hnil | ⟨active, m, hlast, hrefused⟩
    · rw [hnil] at hfirst
      cases hfirst
    · rw [hlast] at hfirst
      cases hfirst
      obtain rfl : active = m.active := active_of_honest (hhonest _ (List.mem_of_getLast? hlast))
      exact refused_task (hrefused hne)
  · obtain ⟨first, hfirst, rfl⟩ := Option.map_eq_some_iff.1 hs
    have hidle : Idle τ.told := ((sparing_of_steps h hτ).exit hrest).early _ hmem rfl
    have hwarned : Keeping clients (fun _ _ => MaySend) (fun c _ d r => ∀ e ∈ failuresOf r, Warned c d (some e)) τ :=
      keeping_of_steps keeps_run_warned h id τ hτ
    obtain ⟨-, hne, m, hm⟩ := hwarned.ended hrest _ hmem bound active rfl
    -- the check that failed was made at the moment of the first answer
    have hchain := (inTurn_of_steps (fun h => h) (fun _ _ _ _ h => h) h).chain id τ hτ
    have hmoment : m = first.moment := moment_of_idle hchain hidle hfirst _ hm
    have hactive : active = m.active := active_of_honest (hhonest _ hm)
    rw [hmoment, heq] at hactive
    exact hne hactive

namespace Switched

/-- Two clients on one selector, each bound to its own network. -/
def members : Nat → Client
  | 0 => ⟨⟨"CTRACKING", Network.testnet.rpcUrl, .testnet⟩, true⟩
  | _ => ⟨⟨"CTRACKING", Network.mainnet.rpcUrl, .mainnet⟩, true⟩

/-- The ledger knows one product without events, and the active network is the selector's. -/
def answers : Script Selector where
  own
    | .activeNetwork, s => s.active
    | .clock, _ => 7
    | .account, _ => some ⟨"GA"⟩
    | .nonce, _ => 0
    | .lastSeen _, _ => none
    | .remember _ _, _ => ()
    | .note _, _ => ()
  away
    | .query _ call, s => (.ok (if call.function = "get_product" then Reconnect.record else .array []), s)
    | q, s => (((Script.steady none fun _ => .ok .null).away q s).1, s)

theorem answers_sound : answers.Sound switching where
  own q s := by cases q <;> trivial
  away q s := by cases q <;> rfl

def testnet : Selector := ⟨.testnet, 0⟩

/-- The selector is set to the main network while an append of the first client waits for its product's history.  Then
the first client registers a product, the second one reads, and the append goes on. -/
def deeds : List (Deed Selector) :=
  [.begin 0 0 (.append ⟨"P"⟩ .checkpoint .empty), .go 0 4 answers, .move (testnet.set .mainnet),
    .begin 1 0 (.register (.ofId ⟨"Q"⟩)), .go 1 9 answers, .begin 2 1 (.getProduct ⟨"P"⟩), .go 2 9 answers,
    .go 0 20 answers]

def world : World Selector := deeds.foldl (World.play members) (.start testnet)

theorem steps_world : Steps switching members (.start testnet) world :=
  steps_of_playable deeds _ ⟨trivial, answers_sound, ⟨.mainnet, rfl⟩, trivial, answers_sound, trivial, answers_sound,
    answers_sound, trivial⟩

end Switched

/-- The general theorem where the selector moves during an append: the append goes on and succeeds, and a registration
that starts after the move is refused. -/
theorem networkBinding_of_run_switched : ∃ τ₀ τ₁ v, Switched.world.tasks 0 = some τ₀ ∧
    Bound (Switched.members 0) τ₀ ∧ τ₀.start? = some ⟨.testnet, 0⟩ ∧ τ₀.rest = .done (.ok v) ∧
    Switched.world.around = ⟨.mainnet, 1⟩ ∧ Switched.world.tasks 1 = some τ₁ ∧ Bound (Switched.members 0) τ₁ ∧
    (∀ q ∈ τ₁.asked, q.isOwn = true) ∧ τ₁.rest = .done (.error (.client (.networkChanged .testnet .mainnet))) := by
  have hgave : (Switched.world.gave? 0).isSome = true := by decide +kernel
  obtain ⟨v, hv⟩ := Option.isSome_iff_exists.1 hgave
  obtain ⟨τ₀, hτ₀, hdone⟩ := done_of_gave? hv
  have hfirst : (Switched.world.tasks 0).map (fun τ => (τ.member, τ.operation.checksNetwork, τ.start?)) =
      some (0, true, some ⟨.testnet, 0⟩) := by decide +kernel
  have hsecond : (Switched.world.tasks 1).map (fun τ =>
      (τ.member, τ.operation.checksNetwork, τ.start?, τ.operation.writes, (pending? τ.rest).isNone)) =
      some (0, true, some ⟨.mainnet, 1⟩, true, true) := by decide +kernel
  rw [hτ₀] at hfirst
  obtain ⟨hmember₀, hchecks₀, hstart₀⟩ : τ₀.member = 0 ∧ τ₀.operation.checksNetwork = true ∧
      τ₀.start? = some ⟨.testnet, 0⟩ := by simpa using hfirst
  obtain ⟨τ₁, hτ₁, hsecond⟩ := Option.map_eq_some_iff.1 hsecond
  simp only [Prod.mk.injEq] at hsecond
  obtain ⟨hmember₁, hchecks₁, hstart₁, hwrites, hended⟩ := hsecond
  have hbound₀ := networkBinding_of_run Switched.steps_world hτ₀ (by rw [hmember₀]; rfl) hchecks₀
  have hbound₁ := networkBinding_of_run Switched.steps_world hτ₁ (by rw [hmember₁]; rfl) hchecks₁
  rw [hmember₀] at hbound₀
  rw [hmember₁] at hbound₁
  obtain ⟨hown, hrefused⟩ := hbound₁.refused _ hstart₁ (by decide)
  refine ⟨τ₀, τ₁, v, hτ₀, hbound₀, hstart₀, hdone, by decide +kernel, hτ₁, hbound₁, hown, ?_⟩
  rcases hrefused with hrest | hrest
  · rw [hrest]
    cases hop : τ₁.operation with
    | register details => rfl
    | append product kind metadata => rfl
    | getProduct | getHistory | getPage | stream | ping =>
      rw [hop] at hwrites
      cases hwrites
  · rw [hrest] at hended
    cases hended

end SupplyTrail.Interleaving
