import Mathlib.Data.List.Chain
import SupplyTrail.Proofs.Interleaving.Play
import SupplyTrail.Wallet.Manager
/-!
# Identity — whose name a submission carries

A submission names an account three times: in its arguments, as the source of its invocation and as the signer of its
envelope.  An operation asks for the connected account each time.  Operations run in turns, so questions with no
outside answer between them meet the same account; a history read before an append is the one place where the account
can change.
-/
namespace SupplyTrail.Interleaving

open Client

variable {σ : Type} {S : Surroundings σ} {clients : Nat → Client}

/-! ## Turns -/

def IsOwn : Question → Bool
  | .own _ => true
  | .away _ => false

/-- Two turns next to each other, the later one first, are of one moment if the process answered both. -/
def SameMoment (later earlier : Turn σ) : Prop :=
  IsOwn later.question = true → IsOwn earlier.question = true → later.moment = earlier.moment

/-- The invariant of operations that run in turns: an operation that was answered by its process and asks it again has
its turn, and nothing has changed since. -/
structure InTurn (w : World σ) : Prop where
  chain : ∀ id τ, w.tasks id = some τ → τ.told.IsChain SameMoment
  held : ∀ id τ t d, w.tasks id = some τ → τ.told = t :: d → IsOwn t.question = true → asksOwn τ.rest = true →
    w.running = some id ∧ t.moment = w.around

variable {w w' : World σ}

/-- **Turns are kept**: between two answers of its own process an operation is not interrupted. -/
theorem InTurn.step (hturns : ¬ S.parallel) (hquiet : ∀ q s a s', S.away q s a s' → s' = s) (h : InTurn w)
    (hs : Step S clients w w') : InTurn w' := by
  cases hs with
  | @begin id member op hid =>
    refine ⟨fun i τ' hτ' => ?_, fun i τ' t d hτ' htold => ?_⟩
    · exact tasks_update (P := fun τ => τ.told.IsChain SameMoment) h.chain .nil hτ'
    · rcases update_cases hτ' with ⟨rfl, rfl⟩ | ⟨hi, hτ'⟩
      · cases htold
      · exact h.held i τ' t d hτ' htold
  | @answer id τ q next a v hτ hrest hturn ha =>
    have haround : v.around = w.around :=
      around_of_answered (R := fun s s' => s' = s) (fun _ => rfl) (fun h => hquiet _ _ _ _ h) ha
    refine ⟨fun i τ' hτ' => ?_, fun i τ' t d hτ' htold hown hasks => ?_⟩
    · refine tasks_update (P := fun τ => τ.told.IsChain SameMoment) h.chain ?_ hτ'
      refine List.isChain_cons.2 ⟨fun t ht hq ht' => ?_, h.chain id τ hτ⟩
      obtain ⟨d, hd⟩ : ∃ d, τ.told = t :: d := ⟨_, List.eq_cons_of_mem_head? ht⟩
      refine (h.held id τ t d hτ hd ht' ?_).2.symm
      rw [hrest]
      cases q with
      | own q => rfl
      | away q => cases hq
    · rcases update_cases hτ' with ⟨rfl, rfl⟩ | ⟨hi, hτ'⟩
      · cases htold
        cases q with
        | away q => cases hown
        | own q => exact ⟨if_pos hasks, haround.symm⟩
      · obtain ⟨hrun, hmoment⟩ := h.held i τ' t d hτ' htold hown hasks
        refine ⟨?_, hmoment.trans haround.symm⟩
        cases q with
        | away q => exact hrun
        | own q =>
          -- the process answers nobody else while the operation holds its turn
          rcases hturn with hpar | hnone | hself
          · exact absurd hpar hturns
          · rw [hnone] at hrun; cases hrun
          · rw [hself] at hrun; exact absurd (Option.some.inj hrun).symm hi
  | @serve id τ e r s hτ he hr =>
    have hsame : s = w.around := hquiet _ _ _ _ hr
    refine ⟨fun i τ' hτ' => ?_, fun i τ' t d hτ' htold hown hasks => ?_⟩
    · have hserved : (τ.served e r).told.IsChain SameMoment := h.chain id τ hτ
      exact tasks_update (P := fun τ => τ.told.IsChain SameMoment) h.chain hserved hτ'
    · rcases update_cases hτ' with ⟨rfl, rfl⟩ | ⟨hi, hτ'⟩
      · exact hsame ▸ h.held i τ t d hτ htold hown hasks
      · exact hsame ▸ h.held i τ' t d hτ' htold hown hasks
  | @other s hturn hs =>
    refine ⟨h.chain, fun i τ' t d hτ' htold hown hasks => ?_⟩
    have hrun := (h.held i τ' t d hτ' htold hown hasks).1
    rcases hturn with hpar | hnone
    · exact absurd hpar hturns
    · rw [hnone] at hrun; cases hrun

theorem inTurn_of_steps (hturns : ¬ S.parallel) (hquiet : ∀ q s a s', S.away q s a s' → s' = s) {s : σ}
    (h : Steps S clients (.start s) w) : InTurn w := by
  induction h with
  | refl => exact ⟨fun i τ hτ => (by cases hτ), fun i τ t d hτ => (by cases hτ)⟩
  | tail _ hs ih => exact ih.step hturns hquiet hs

/-! ## The wallet around the clients -/

/-- Clients and one wallet, on one thread.  The account is the manager's; a signature is refused, or its envelope is
signed by the account it was asked of.  The ledger and the clock answer anything, and the manager makes any move at any
turn: calls to connect and disconnect, and whatever the wallet answers to a handshake. -/
def wallet : Surroundings Manager where
  parallel := False
  own
    | .account, m, a => a = m.connection.account?
    | _, _, _ => True
  away
    | .sign account _ _, m, a, m' => m' = m ∧ ∀ e, a = .ok e → e.signer = account.publicKey
    | _, m, _, m' => m' = m
  other m m' := ∃ move, m' = (m.step move).1

theorem wallet_quiet (q : Away) (m : Manager) (a : q.Answer) (m' : Manager) (h : wallet.away q m a m') : m' = m := by
  cases q with
  | sign account network payload => exact h.1
  | query url call => exact h
  | submit url e => exact h
  | health url => exact h
  | fetch t url call => exact h
  | settle first others => exact h

/-- The public key of the account that is connected. -/
def accountKey (m : Manager) : Option String := m.connection.account?.map Account.publicKey

/-- The moments at which an operation asked for the connected account, the latest first. -/
def accountAsks (d : Dialogue σ) : List σ :=
  d.filterMap fun t =>
    match t.question with
    | .own .account => some t.moment
    | _ => none

/-- The account named in the arguments of a call: the owner of a registration, the actor of an event. -/
def namedAccount (call : ContractCall) : Option Json :=
  call.args.member? (if call.function = "register_product" then "owner" else "actor")

/-- One account is named in the arguments, makes the invocation and signs its envelope. -/
def OneIdentity (i : Invocation) (e : Envelope) : Prop :=
  namedAccount i.call = some (.string i.source) ∧ i.source = e.signer

theorem namedAccount_register (c : Client) (details : ProductDetails) (owner : String) (time : UInt64) :
    namedAccount (c.call "register_product" (registerArgs details owner time)) = some (.string owner) := by
  simp [namedAccount, Client.call, registerArgs, Json.member?, valueOf?]

theorem namedAccount_append (c : Client) (e : Event) (actor : String) :
    namedAccount (c.call "add_tracking_event" (appendArgs e actor)) = some (.string actor) := by
  simp [namedAccount, Client.call, appendArgs, Json.member?, valueOf?]

theorem accountKey_of_honest {a : Account} {m : Manager} (h : Honest wallet ⟨.own .account, some a, m⟩) :
    accountKey m = some a.publicKey := by
  obtain ⟨v, w, hv, ha, -⟩ := h
  have hacc : some a = v.around.connection.account? := ha
  rw [show m = v.around from hv.symm, accountKey, ← hacc]
  rfl

theorem signer_of_honest {a : Account} {network : Network} {payload : List UInt8} {e : Envelope} {m : Manager}
    (h : Honest wallet ⟨.away (.sign a network payload), .ok e, m⟩) : e.signer = a.publicKey := by
  obtain ⟨v, w, -, s, ⟨-, hs⟩, -⟩ := h
  exact hs e rfl

theorem accountAsks_of_networkChecked {c : Client} {d : Dialogue σ} (h : NetworkChecked c [] d) :
    accountAsks d = [] := by
  cases h with
  | unbound h => rfl
  | bound h => rfl

/-- The operation is an append to a product of which the client remembered no time. -/
def HistoryWanted (op : Operation) (d : Dialogue σ) : Prop :=
  ∃ p kind metadata, op = .append p kind metadata ∧ Told d (.own (.lastSeen p)) none

/-- What a dialogue that drafted a call says about the account it names: it is the account connected when an account was
first asked for, and that was the moment of the latest turn unless a history had to be read. -/
theorem namedAccount_of_drafted {c : Client} {op : Operation} {p : ProductId} {time : UInt64} {call : ContractCall}
    {d : Dialogue Manager} (hdraft : Drafted c op p time call d) (hhonest : ∀ t ∈ d, Honest wallet t)
    (hchain : d.IsChain SameMoment) :
    ∃ first last d' key, (accountAsks d).getLast? = some first ∧ accountKey first = some key ∧
      namedAccount call = some (.string key) ∧ d = last :: d' ∧ IsOwn last.question = true ∧
      (first = last.moment ∨ HistoryWanted op d) := by
  cases hdraft with
  | @register details owner time m n d hnet hcheck hevent =>
    refine ⟨m, _, _, owner.publicKey, ?_, accountKey_of_honest (hhonest _ List.mem_cons_self),
      namedAccount_register _ _ _ _, rfl, rfl, .inl rfl⟩
    simp [accountAsks, show d.filterMap _ = [] from accountAsks_of_networkChecked hnet]
  | @append p kind metadata actor now last m d hkind hevent hseen =>
    cases hseen with
    | @cached n k d hnet =>
      refine ⟨k, _, _, actor.publicKey, ?_, accountKey_of_honest (hhonest _ (by simp)), namedAccount_append _ _ _, rfl,
        rfl, .inl ?_⟩
      · simp [accountAsks, show d.filterMap _ = [] from accountAsks_of_networkChecked hnet]
      · obtain ⟨h₁, h₂, -⟩ : m = n ∧ n = k ∧ _ := by simpa [SameMoment, IsOwn, List.isChain_cons_cons] using hchain
        rw [← h₂, ← h₁]
    | @read n k l mid d h hnet hlast hread =>
      refine ⟨l, _, _, actor.publicKey, ?_, accountKey_of_honest (hhonest _ (by simp)), namedAccount_append _ _ _, rfl,
        rfl, .inr ⟨p, kind, metadata, rfl, k, by simp⟩⟩
      simp [accountAsks, List.filterMap_append, List.getLast?_append,
        show d.filterMap _ = [] from accountAsks_of_networkChecked hnet]

theorem identity_of_signed {c : Client} {op : Operation} {p : ProductId} {time : UInt64} {i : Invocation} {e : Envelope}
    {d : Dialogue Manager} (hsigned : Signed c op p time i e d) (hhonest : ∀ t ∈ d, Honest wallet t)
    (hchain : d.IsChain SameMoment) :
    ∃ first last, i.source = e.signer ∧ (accountAsks d).getLast? = some first ∧ (accountAsks d).head? = some last ∧
      (OneIdentity i e ↔ accountKey first = accountKey last) ∧ (first = last ∨ HistoryWanted op d) := by
  cases hsigned with
  | @mk signer l d hinv =>
  cases hinv with
  | @mk call source _ nonce m n k d hdraft =>
  have hrest : d.IsChain SameMoment := by
    simp only [List.isChain_cons_cons] at hchain
    exact hchain.2.2.2.tail
  obtain ⟨first, turn, d', key, hfirst, hkey, hnamed, rfl, hown, hsame⟩ :=
    namedAccount_of_drafted hdraft (fun t ht => hhonest t (by simp [ht])) hrest
  simp only [List.isChain_cons_cons] at hchain
  obtain ⟨-, hmn, hnk, hkt, -⟩ := hchain
  have hsigner : e.signer = signer.publicKey := signer_of_honest (hhonest _ List.mem_cons_self)
  have hlast : accountKey m = some signer.publicKey := accountKey_of_honest (hhonest _ (by simp))
  have hsource : accountKey k = some source.publicKey := accountKey_of_honest (hhonest _ (by simp))
  have hmk : m = k := (hmn rfl rfl).trans (hnk rfl rfl)
  have hequal : source.publicKey = e.signer := by
    rw [← hmk, hlast] at hsource
    rw [hsigner, Option.some.inj hsource]
  have hasks : (accountAsks (turn :: d')).getLast? = some first := hfirst
  refine ⟨first, m, hequal, ?_, rfl, ?_, hsame.imp (fun hfirst => ?_) fun ⟨p, kind, metadata, hop, k', hk'⟩ => ?_⟩
  · change (m :: k :: accountAsks (turn :: d')).getLast? = some first
    rw [List.getLast?_cons, List.getLast?_cons, hasks]
    rfl
  · simp only [OneIdentity, Invocation.make, hnamed, Option.some.injEq, Json.string.injEq, hequal, and_true, hkey,
      hlast,
      hsigner]
  · rw [hfirst, hmk, ← show k = turn.moment from hkt rfl hown]
  · exact ⟨p, kind, metadata, hop, k', by simp only [List.mem_cons] at hk' ⊢; simp only [hk', or_true]⟩

variable {w : World Manager} {id : Nat} {τ : Task Manager} {url : String} {e : Envelope}
  {next : Except LedgerFailure Receipt → Run Rehearsal.Result}

/-- **What every submission carries.**  In any interleaving an envelope that is about to be submitted is the signature
of an invocation whose source is its signer.  The account named in the arguments is that of the first time the
operation asked for one, the source and the signer are that of the last time; so the three are one exactly if the same
account was connected at both moments.  The moments are the same except in an append that had to read its product's
history. -/
theorem identity_of_submission (h : Steps wallet clients (.start .initial) w) (hτ : w.tasks id = some τ)
    (hrest : τ.rest = .ask (.away (.submit url e)) next) :
    ∃ i first last, IsSignatureOf τ.told i e ∧ i.source = e.signer ∧ (accountAsks τ.told).getLast? = some first ∧
      (accountAsks τ.told).head? = some last ∧ (OneIdentity i e ↔ accountKey first = accountKey last) ∧
      (first = last ∨ HistoryWanted τ.operation τ.told) := by
  obtain ⟨p, time, i, hsigned⟩ := ((allConducted_of_steps h id τ hτ).warrant hrest).signed
  have hchain := (inTurn_of_steps (fun h => h) wallet_quiet h).chain id τ hτ
  obtain ⟨first, last, hid⟩ := identity_of_signed hsigned (allHonest_of_steps h id τ hτ) hchain
  exact ⟨i, first, last, isSignatureOf_of_signed hsigned, hid⟩

/-! ## A reconnect during a history read -/

/-- The envelope that an activity is about to submit. -/
def submitting? {α : Type} : Run α → Option Envelope
  | .ask (.away (.submit _ e)) _ => some e
  | _ => none

theorem exists_submit {x : Run Rehearsal.Result} (h : (submitting? x).isSome) :
    ∃ url e next, x = .ask (.away (.submit url e)) next := by
  unfold submitting? at h
  split at h
  · exact ⟨_, _, _, rfl⟩
  · cases h

namespace Reconnect

def first : Manager := ((Manager.initial.connect .testnet).1.answer 1 (.ok ⟨"GA"⟩)).1
def second : Manager := ((first.disconnect.1.connect .testnet).1.answer 3 (.ok ⟨"GB"⟩)).1

def record : Json :=
  .object [("active", .bool true), ("created_at", .word 5), ("id", .string "P"), ("name", .string "N"),
    ("origin", .object [("location", .string "L")]), ("owner", .string "GA")]

/-- The ledger knows one product without events, and the wallet signs with the account it is asked for. -/
def answers : Script Manager where
  own
    | .activeNetwork, _ => .testnet
    | .clock, _ => 7
    | .account, m => m.connection.account?
    | .nonce, _ => 0
    | .lastSeen _, _ => none
    | .remember _ _, _ => ()
    | .note _, _ => ()
  away
    | .sign account _ payload, m => (.ok ⟨account.publicKey, Text.encodeHex payload⟩, m)
    | .query _ call, m => (.ok (if call.function = "get_product" then record else .array []), m)
    | .submit _ _, m => (.ok ⟨"tx", none, none⟩, m)
    | .health _, m => (.ok true, m)
    | .fetch _ _ _, m => (none, m)
    | .settle t _, m => ((⟨t, List.mem_cons_self⟩, .ok .null), m)

theorem answers_sound : answers.Sound wallet where
  own q m := by cases q <;> trivial
  away q m := by
    cases q with
    | sign account network payload => exact ⟨rfl, fun e he => by cases he; rfl⟩
    | query url call => rfl
    | submit url e => rfl
    | health url => rfl
    | fetch t url call => rfl
    | settle t others => rfl

/-- An append reads the product's history; while the record is on its way the wallet is disconnected and connected to
another account. -/
def deeds : List (Deed Manager) :=
  [.move (Manager.initial.connect .testnet).1, .move first, .begin 0 0 (.append ⟨"P"⟩ .checkpoint .empty),
    .go 0 3 answers, .move first.disconnect.1, .move (first.disconnect.1.connect .testnet).1, .move second,
    .go 0 7 answers]

def world : World Manager := deeds.foldl (World.play fun _ => looseClient) (.start .initial)

theorem steps_world : Steps wallet (fun _ => looseClient) (.start .initial) world :=
  steps_of_playable deeds _
    ⟨⟨.connect .testnet, rfl⟩, ⟨.answer 1 (.ok ⟨"GA"⟩), rfl⟩, trivial, answers_sound, ⟨.disconnect, rfl⟩,
      ⟨.connect .testnet, rfl⟩, ⟨.answer 3 (.ok ⟨"GB"⟩), rfl⟩, answers_sound, trivial⟩

theorem submits_world : ∃ τ url e next, world.tasks 0 = some τ ∧ τ.rest = .ask (.away (.submit url e)) next ∧
    ∀ m n, (accountAsks τ.told).getLast? = some m → (accountAsks τ.told).head? = some n →
      accountKey m ≠ accountKey n := by
  have hplay : (world.tasks 0).map (fun τ => ((submitting? τ.rest).isSome, (accountAsks τ.told).map accountKey)) =
      some (true, [some "GB", some "GB", some "GA"]) := by decide +kernel
  obtain ⟨τ, hτ, hplay⟩ := Option.map_eq_some_iff.1 hplay
  simp only [Prod.mk.injEq] at hplay
  obtain ⟨hsubmit, hasks⟩ := hplay
  obtain ⟨url, e, next, hrest⟩ := exists_submit hsubmit
  refine ⟨τ, url, e, next, hτ, hrest, fun m n hm hn hkeys => ?_⟩
  have hfirst : ((accountAsks τ.told).map accountKey).getLast? = some (accountKey m) := by
    rw [List.getLast?_map, hm]
    rfl
  have hlast : ((accountAsks τ.told).map accountKey).head? = some (accountKey n) := by
    rw [List.head?_map, hn]
    rfl
  rw [hasks] at hfirst hlast
  rw [← Option.some.inj hfirst, ← Option.some.inj hlast] at hkeys
  exact absurd hkeys (by decide)

end Reconnect

/-- The general theorem at a run with a reconnect: the envelope's signer is the source, and the named account is not. -/
theorem identity_of_submission_reconnect : ∃ τ e i, Reconnect.world.tasks 0 = some τ ∧ IsSignatureOf τ.told i e ∧
    i.source = e.signer ∧ ¬ OneIdentity i e := by
  obtain ⟨τ, url, e, next, hτ, hrest, hdiffer⟩ := Reconnect.submits_world
  obtain ⟨i, m, n, hsig, hequal, hm, hn, hiff, -⟩ := identity_of_submission Reconnect.steps_world hτ hrest
  exact ⟨τ, e, i, hτ, hsig, hequal, fun hone => hdiffer m n hm hn (hiff.1 hone)⟩

/-- **An append can name one account and be made by another**: not every submission carries a single identity. -/
theorem not_all_oneIdentity : ¬ ∀ (clients : Nat → Client) (w : World Manager) (id : Nat) (τ : Task Manager)
    (url : String) (e : Envelope) (next : Except LedgerFailure Receipt → Run Rehearsal.Result) (i : Invocation),
    Steps wallet clients (.start .initial) w → w.tasks id = some τ → τ.rest = .ask (.away (.submit url e)) next →
    IsSignatureOf τ.told i e → OneIdentity i e := by
  intro hall
  obtain ⟨τ, url, e, next, hτ, hrest, hdiffer⟩ := Reconnect.submits_world
  have hsteps := Reconnect.steps_world
  obtain ⟨p, time, i, hsigned⟩ := ((allConducted_of_steps hsteps 0 τ hτ).warrant hrest).signed
  have hchain := (inTurn_of_steps (fun h => h) wallet_quiet hsteps).chain 0 τ hτ
  obtain ⟨m, n, -, hm, hn, hiff, -⟩ := identity_of_signed hsigned (allHonest_of_steps hsteps 0 τ hτ) hchain
  have hone := hall _ _ 0 τ url e next i hsteps hτ hrest (isSignatureOf_of_signed hsigned)
  exact hdiffer m n hm hn (hiff.1 hone)

end SupplyTrail.Interleaving
