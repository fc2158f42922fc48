import SupplyTrail.Proofs.Handshakes.Landing
import SupplyTrail.Proofs.Identity
import SupplyTrail.Proofs.Interleaving.Course
import SupplyTrail.Proofs.Signer.Replies
/-!
# Consent — nothing without the signer's consent

A wallet that has its accounts and signatures from a signer asks it by one request each.  However handshakes, calls of
the wallet and operations of its clients run beside each other, and whatever the signer replies, an account is connected
only on the grant of its key, and an envelope is submitted only on the grant of its text.  A refusal or a broken reply
ends an attempt in error.
-/
namespace SupplyTrail.Interleaving

open Client Activity
open Http (Reply Transcript)
open Relation (ReflTransGen)

/-- A wallet whose signer is a service, with the talks that they have had, the latest first. -/
structure Custody where
  wallet : Handshakes.World
  /-- The talks about accounts, by attempt. -/
  accounts : List (Nat × Transcript)
  /-- The talks about signatures. -/
  signatures : List Transcript

namespace Custody

def start (s : Selector) : Custody := ⟨.start s, [], []⟩

def connection (s : Custody) : Connection := s.wallet.manager.connection

/-- The wallet and its talks after the answer to an attempt that came of a talk. -/
def answered (s : Custody) (n : Nat) (outcome : Except WalletError Account) (t : Transcript)
    (left : Multiset Handshakes.Pending) : Custody where
  wallet :=
    ⟨s.wallet.manager, s.wallet.selector, .heard (.answer n outcome) ::ₘ left, .answered n outcome :: s.wallet.history⟩
  accounts := (n, t) :: s.accounts
  signatures := s.signatures

/-- The wallet and its talks after a talk about a signature. -/
def signed (s : Custody) (t : Transcript) : Custody := { s with signatures := t :: s.signatures }

/-- What happens to a wallet whose signer is at an address: it is answered by what comes of a talk with the signer, and
everything else happens as to any wallet. -/
inductive Step (url : String) : Custody → Custody → Prop
  | wallet {s : Custody} {w : Handshakes.World} (h : Handshakes.Step s.wallet w)
      (hquiet : ∀ n outcome, .answered n outcome ∈ w.history → .answered n outcome ∈ s.wallet.history) :
      Step url s { s with wallet := w }
  | answer {s : Custody} {n : Nat} {network : Network} {outcome : Except WalletError Account} {t : Transcript}
      (left : Multiset Handshakes.Pending) (hpending : s.wallet.pending = .asked (.connect n network) ::ₘ left)
      (htalk : Client.Talks (Signer.connect url network) outcome t) : Step url s (s.answered n outcome t left)

theorem answered_of_moved {w : Handshakes.World} {move : Move} {left : Multiset Handshakes.Pending} (n : Nat)
    (outcome : Except WalletError Account) (h : .answered n outcome ∈ (w.moved move left).history) :
    .answered n outcome ∈ w.history :=
  (List.mem_append.1 h).resolve_left fun hnew => by cases Handshakes.turns_of_mem_occurrences hnew

/-- **Only answers are the signer's**: whatever else happens to a wallet may happen to this one. -/
theorem step_of_wallet (url : String) {s : Custody} {w : Handshakes.World} (h : Handshakes.Step s.wallet w) :
    Step url s { s with wallet := w } ∨ ∃ n network outcome left,
      s.wallet.pending = .asked (.connect n network) ::ₘ left ∧ ∀ t, w = (s.answered n outcome t left).wallet := by
  cases h with
  | call hcall => exact .inl (.wallet (.call hcall) answered_of_moved)
  | act left hpending => exact .inl (.wallet (.act left hpending) answered_of_moved)
  | @advance p p' os left hpending hp =>
    cases hp with
    | answer n network outcome => exact .inr ⟨n, network, outcome, left, hpending, fun _ => rfl⟩
    | make r => exact .inl (.wallet (.advance left hpending (.make r)) (by simp))
    | release n => exact .inl (.wallet (.advance left hpending (.release n)) (by simp))
    | breakOff hn => exact .inl (.wallet (.advance left hpending (.breakOff hn)) (by simp))
  | disconnected left hpending => exact .inl (.wallet (.disconnected left hpending) fun _ _ h => h)
  | switch network => exact .inl (.wallet (.switch network) fun _ _ h => h)
  | sign network payload ha => exact .inl (.wallet (.sign network payload ha) (by simp))

end Custody

/-- Clients and a wallet whose signer is at an address, all at the same time.  The ledger, the clock, the nonces and the
active network are anything. -/
def custody (url : String) : Surroundings Custody where
  parallel := True
  own
    | .account, s, a => a = s.connection.account?
    | _, _, _ => True
  away
    | .sign account network payload, s, a, s' =>
      ∃ t, Client.Talks (Signer.sign url account network payload) a t ∧ s' = s.signed t
    | _, s, _, s' => s' = s
  other := Custody.Step url

variable {url : String} {selector : Selector} {s s' : Custody}

theorem away_custody_cases {q : Away} {a : q.Answer} (h : (custody url).away q s a s') :
    s' = s ∨ ∃ t, s' = s.signed t := by
  cases q with
  | sign account network payload =>
    obtain ⟨t, -, hs⟩ := h
    exact .inr ⟨t, hs⟩
  | query url call => exact .inl h
  | submit url e => exact .inl h
  | health url => exact .inl h
  | fetch t url call => exact .inl h
  | settle first others => exact .inl h

/-- A wallet and its talks develop as talks about signatures and what happens to the wallet lead. -/
theorem develops_custody {R : Custody → Custody → Prop} (hrefl : ∀ s, R s s)
    (htrans : ∀ {s t u}, R s t → R t u → R s u) (hsigned : ∀ s t, R s (s.signed t))
    (hstep : ∀ {s s'}, Custody.Step url s s' → R s s') : Develops (custody url) R where
  refl := hrefl
  trans := htrans
  away h := by
    rcases away_custody_cases h with rfl | ⟨t, rfl⟩
    · exact hrefl _
    · exact hsigned _ t
  other := hstep

theorem signatures_of_step (h : Custody.Step url s s') : s'.signatures = s.signatures := by
  cases h <;> rfl

theorem develops_signatures : Develops (custody url) fun s s' => s.signatures <:+ s'.signatures :=
  develops_custody (fun _ => List.suffix_refl _) (fun h h' => h.trans h') (fun _ _ => List.suffix_cons _ _)
    fun h => signatures_of_step h ▸ List.suffix_refl _

/-! ## Where the wallet's answers come from -/

open Signer in
/-- The wallet is where a run leads it, and its answers are what came of its talks about accounts. -/
structure Sourced (url : String) (selector : Selector) (s : Custody) : Prop where
  run : Handshakes.Steps (.start selector) s.wallet
  talked : ∀ n outcome, .answered n outcome ∈ s.wallet.history → ∃ network reply,
    (n, exchange (connectRequest url network) reply) ∈ s.accounts ∧ outcome = accountOf reply
  heard : ∀ n t, (n, t) ∈ s.accounts → ∃ network reply,
    t = exchange (connectRequest url network) reply ∧ .answered n (accountOf reply) ∈ s.wallet.history

theorem sourced_start : Sourced url selector (.start selector) :=
  ⟨.refl, fun _ _ h => (by cases h), fun _ _ h => (by cases h)⟩

theorem Sourced.step (h : Sourced url selector s) (hs : Custody.Step url s s') : Sourced url selector s' := by
  cases hs with
  | @wallet w hw hquiet =>
    refine ⟨h.run.tail hw, fun n outcome hmem => h.talked n outcome (hquiet n outcome hmem), fun n t hmem => ?_⟩
    obtain ⟨network, reply, ht, hanswered⟩ := h.heard n t hmem
    refine ⟨network, reply, ht, ?_⟩
    rcases Handshakes.history_of_step hw with hsame | ⟨o, hcons⟩
    · exact hsame ▸ hanswered
    · exact hcons ▸ List.mem_cons_of_mem o hanswered
  | @answer n network outcome t left hpending htalk =>
    obtain ⟨reply, rfl, rfl⟩ := Signer.talks_connect_iff.1 htalk
    refine ⟨h.run.tail (.advance left hpending (.answer n network _)), fun k outcome hmem => ?_, fun k t hmem => ?_⟩
    · rcases List.mem_cons.1 hmem with hnew | hold
      · cases hnew
        exact ⟨network, reply, List.mem_cons_self, rfl⟩
      · obtain ⟨network', reply', hlog, houtcome⟩ := h.talked k outcome hold
        exact ⟨network', reply', List.mem_cons_of_mem _ hlog, houtcome⟩
    · rcases List.mem_cons.1 hmem with hnew | hold
      · cases hnew
        exact ⟨network, reply, rfl, List.mem_cons_self⟩
      · obtain ⟨network', reply', ht, hanswered⟩ := h.heard k t hold
        exact ⟨network', reply', ht, List.mem_cons_of_mem _ hanswered⟩

variable {clients : Nat → Client} {w : World Custody}

/-- **Whatever runs, the wallet's answers come from its talks.** -/
theorem sourced_of_steps (h : Steps (custody url) clients (.start (.start selector)) w) :
    Sourced url selector w.around :=
  (develops_custody (R := fun s s' => Sourced url selector s → Sourced url selector s') (fun _ h => h)
    (fun h h' => h' ∘ h) (fun _ _ h => ⟨h.run, h.talked, h.heard⟩) fun hs h => h.step hs).steps h sourced_start

/-- What happens to the wallet alone happens in a world. -/
theorem steps_of_custody (h : ReflTransGen (Custody.Step url) s s') :
    Steps (custody url) clients (.start s) (.start s') := by
  induction h with
  | refl => exact .refl
  | tail _ hs ih => exact ih.tail (.other (.inl trivial) hs)

/-! ## Answers that are no account -/

/-- An attempt has failed with an error, or its handshake is about to record that. -/
inductive Fails (w : Handshakes.World) (e : WalletError) : Prop
  | failed (hstatus : w.manager.connection.status = .error) (herror : w.manager.connection.error? = some e.message)
  | failing {left : Multiset Handshakes.Pending} (hstatus : w.manager.connection.status = .connecting)
      (hpending : w.pending = .heard (.answer w.manager.connection.attempt (.error e)) ::ₘ left)
      (hnext : (w.moved (.answer w.manager.connection.attempt (.error e)) left).manager.connection =
        ⟨w.manager.connection.attempt, .failed e.message⟩)

/-- An answer that the current attempt waits for lands as it is acted on. -/
theorem connection_of_heard {m : Manager} {ps : Multiset Handshakes.Pending} {outcome : Except WalletError Account}
    (hsound : Handshakes.Sound m ps) (hphase : m.connection.phase = .connecting)
    (hp : .heard (.answer m.connection.attempt outcome) ∈ ps) :
    (m.step (.answer m.connection.attempt outcome)).1.connection =
      ⟨m.connection.attempt, Connection.phaseOf outcome⟩ := by
  have heffect := Handshakes.effect_answer (hsound.held _ hp)
  generalize m.step (.answer m.connection.attempt outcome) = after at heffect ⊢
  obtain ⟨m', requests⟩ := after
  cases heffect with
  | land hawaited => rfl
  | giveBack hstale hopens =>
    rw [Handshakes.awaits_of_phase hphase] at hstale
    cases hstale
  | drop hstale hopens =>
    rw [Handshakes.awaits_of_phase hphase] at hstale
    cases hstale

/-- **An error answers the current attempt**: there is no account, and the attempt has failed or is about to. -/
theorem fails_of_answered {w : Handshakes.World} {e : WalletError} (h : Handshakes.Steps (.start selector) w)
    (hanswered : .answered w.manager.connection.attempt (.error e) ∈ w.history) :
    w.manager.connection.account? = none ∧ Fails w e := by
  have hstation := (Handshakes.kept_placed.of_steps h).station
  have hmem := Handshakes.answered_mem_conclusions.2 hanswered
  generalize Handshakes.conclusions w.manager.connection.attempt w.history = concluded at hstation hmem
  cases hstation with
  | closed | asking => cases hmem
  | broken | recorded | lost => cases List.mem_singleton.1 hmem
  | answered hphase hp =>
    cases List.mem_singleton.1 hmem
    obtain ⟨left, hpending⟩ := Multiset.exists_cons_of_mem hp
    refine ⟨by rw [Connection.account?, hphase], .failing ?_ hpending ?_⟩
    · rw [Connection.status, hphase]
      rfl
    · exact connection_of_heard (Handshakes.sound_of_steps h) hphase hp
  | landed hphase hgone =>
    cases List.mem_singleton.1 hmem
    refine ⟨by rw [Connection.account?, hphase]; rfl, .failed ?_ ?_⟩
    · rw [Connection.status, hphase]
      rfl
    · rw [Connection.error?, hphase]
      rfl

/-! ## What the signer consented to -/

open Signer in
/-- An envelope came of the signer's grant: the wallet, connected to an account, asked the signer for its signature of
the payload of an invocation of the operation's own call, and the reply to that request granted the envelope's text. -/
inductive Obtained (url : String) (c : Client) (op : Operation) (now : Custody) (e : Envelope) :
    Dialogue Custody → Prop
  | mk {p : ProductId} {time : UInt64} {i : Invocation} {account : Account} {reply : Option Reply} {m n : Custody}
      {d : Dialogue Custody} (hinvoked : Invoked c op p time i account (⟨.own .account, some account, n⟩ :: d))
      (hconnected : n.connection.account? = some account) (hsigner : e.signer = account.publicKey)
      (hasked : exchange (signRequest url account.publicKey c.endpoint.network i.toBytes) reply :: m.signatures <:+
        now.signatures) (hgranted : Grants "signedEnvelope" reply e.content) :
      Obtained url c op now e (⟨.away (.sign account c.endpoint.network i.toBytes), .ok e, m⟩ ::
        ⟨.own .account, some account, n⟩ :: d)

theorem obtained_of_signed {c : Client} {op : Operation} {p : ProductId} {time : UInt64} {i : Invocation} {e : Envelope}
    {d : Dialogue Custody} {now : Custody} (hsigned : Signed c op p time i e d)
    (hsince : ∀ t ∈ d, Since (custody url) (fun s s' => s.signatures <:+ s'.signatures) now t) :
    Obtained url c op now e d := by
  cases hsigned with
  | @mk account m d hinv =>
    obtain ⟨v, v', hv, ⟨_, ⟨t, htalk, rfl⟩, rfl⟩, -, hthen⟩ := hsince _ List.mem_cons_self
    obtain rfl : v.around = m := hv
    obtain ⟨reply, rfl, houtcome⟩ := Signer.talks_sign_iff.1 htalk
    obtain ⟨hsigner, hgranted⟩ := Signer.envelopeOf_eq_ok_iff.1 houtcome.symm
    cases hinv with
    | @mk call source _ nonce n k l d hdraft =>
      obtain ⟨v₁, v₁', hv₁, ⟨haccount, -⟩, -⟩ := hsince ⟨.own .account, some account, n⟩ (by simp)
      have hconnected : some account = v₁.around.connection.account? := haccount
      rw [hv₁] at hconnected
      exact .mk (.mk hdraft) hconnected.symm hsigner hthen hgranted

open Signer in
/-- What a wallet and its clients do at the word of a signer. -/
structure Consented (url : String) (clients : Nat → Client) (w : World Custody) : Prop where
  /-- The signer is asked under its address, whose slashes at the end do not count. -/
  places : ∀ base, IsBase url base → ∀ network key payload,
    (connectRequest url network).url = base ++ "/connect" ∧ (signRequest url key network payload).url = base ++ "/sign"
  /-- Each talk about an account is one request and the reply to it, if there was one. -/
  asked : ∀ n t, (n, t) ∈ w.around.accounts → ∃ network reply, t = exchange (connectRequest url network) reply
  /-- An account is connected only if the reply to the current attempt granted its key, which is not blank. -/
  connected : ∀ account, w.around.connection.account? = some account → Text.trim account.publicKey ≠ "" ∧
    ∃ network reply, (w.around.connection.attempt, exchange (connectRequest url network) reply) ∈ w.around.accounts ∧
      Grants "publicKey" reply account.publicKey
  /-- Any other reply to the current attempt leaves it without an account and in error. -/
  declined : ∀ network reply,
    (w.around.connection.attempt, exchange (connectRequest url network) reply) ∈ w.around.accounts →
    (∀ key, Grants "publicKey" reply key → Text.trim key = "") → w.around.connection.account? = none ∧
      ∃ e, accountOf reply = .error e ∧ Fails w.around.wallet e
  /-- An envelope that an operation ever submitted came of the signer's grant. -/
  submitted : ∀ id τ d rpcUrl e, w.tasks id = some τ → τ.Asks d (.away (.submit rpcUrl e)) →
    Obtained url (clients τ.member) τ.operation w.around e d
  /-- A call to connect gives an account exactly if the reply to it grants the account's key, which is not blank. -/
  connects : ∀ network reply account,
    Client.Talks (Signer.connect url network) (.ok account) (exchange (connectRequest url network) reply) ↔
      Grants "publicKey" reply account.publicKey ∧ Text.trim account.publicKey ≠ ""
  /-- A call to sign gives an envelope exactly if the reply to it grants the envelope's text. -/
  signs : ∀ account network payload reply e,
    Client.Talks (Signer.sign url account network payload) (.ok e)
        (exchange (signRequest url account.publicKey network payload) reply) ↔
      e.signer = account.publicKey ∧ Grants "signedEnvelope" reply e.content
  /-- A reply with an error text fails a call to connect with that text, whatever else it says. -/
  connectRefused : ∀ network reply text, Refuses "publicKey" reply text → ∀ outcome,
    Client.Talks (Signer.connect url network) outcome (exchange (connectRequest url network) reply) ↔
      outcome = .error (.connection text)
  /-- It fails a call to sign with that text just so. -/
  signRefused : ∀ account network payload reply text, Refuses "signedEnvelope" reply text → ∀ outcome,
    Client.Talks (Signer.sign url account network payload) outcome
        (exchange (signRequest url account.publicKey network payload) reply) ↔
      outcome = .error (.signing text)

/-- **A signer that refuses or breaks is never taken for a willing one**, in any interleaving, whatever it replies. -/
theorem consented_of_steps (h : Steps (custody url) clients (.start (.start selector)) w) :
    Consented url clients w where
  places base hbase network key payload := by
    simp only [Signer.connectRequest, Signer.signRequest, Signer.address_of_base hbase, String.append_assoc]
    exact ⟨rfl, rfl⟩
  asked n t hmem := by
    obtain ⟨network, reply, ht, -⟩ := (sourced_of_steps h).heard n t hmem
    exact ⟨network, reply, ht⟩
  connected account haccount := by
    have hsourced := sourced_of_steps h
    obtain ⟨hblank, hsince⟩ := (Handshakes.kept_stands.of_steps hsourced.run).connected account
      (Handshakes.phase_of_account? haccount)
    obtain ⟨network, reply, hmem, houtcome⟩ := hsourced.talked _ _ ((List.takeWhile_sublist _).subset hsince)
    obtain ⟨hgranted, htrim⟩ := Signer.accountOf_eq_ok_iff.1 houtcome.symm
    exact ⟨htrim, network, reply, hmem, hgranted⟩
  declined network reply hmem hdeclined := by
    have hsourced := sourced_of_steps h
    obtain ⟨network', reply', ht, hanswered⟩ := hsourced.heard _ _ hmem
    cases houtcome : Signer.accountOf reply with
    | ok account =>
      obtain ⟨hgranted, htrim⟩ := Signer.accountOf_eq_ok_iff.1 houtcome
      exact absurd (hdeclined _ hgranted) htrim
    | error e =>
      obtain ⟨-, rfl⟩ := Signer.exchange_inj.1 ht
      rw [houtcome] at hanswered
      obtain ⟨hnone, hfails⟩ := fails_of_answered hsourced.run hanswered
      exact ⟨hnone, e, rfl, hfails⟩
  submitted id τ d rpcUrl e hτ hasks := by
    obtain ⟨p, time, i, hsigned⟩ := (asks_of_steps keeps_run h hτ hasks).signed
    exact obtained_of_signed hsigned fun t ht =>
      allSince_of_steps develops_signatures h id τ hτ t (hasks.suffix.subset ht)
  connects network reply account := by
    rw [Signer.talks_connect_exchange_iff, eq_comm, Signer.accountOf_eq_ok_iff]
  signs account network payload reply e := by
    rw [Signer.talks_sign_exchange_iff, eq_comm, Signer.envelopeOf_eq_ok_iff]
  connectRefused network reply text hrefuses outcome := by
    rw [Signer.talks_connect_exchange_iff, Signer.accountOf_of_refuses hrefuses]
  signRefused account network payload reply text hrefuses outcome := by
    rw [Signer.talks_sign_exchange_iff, Signer.envelopeOf_of_refuses hrefuses]

/-! ## A refusal, and a grant after it -/

theorem asks_of_submitting? {σ : Type} {τ : Task σ} {e : Envelope} (h : submitting? τ.rest = some e) :
    ∃ rpcUrl, τ.Asks τ.told (.away (.submit rpcUrl e)) := by
  unfold submitting? at h
  split at h
  · rename_i rpcUrl found next hrest
    cases h
    exact ⟨rpcUrl, .waiting hrest rfl⟩
  · cases h

namespace Granting

def signer : String := "http://signer"

def saying (status : Nat) (members : List (String × Json)) : Option Reply :=
  some ⟨status, Text.bytesOf (Json.object members).render⟩

/-- A refusal that gives a key nevertheless. -/
def refusal : Option Reply := saying 200 [("error", .string "denied"), ("publicKey", .string "GA")]

def grant : Option Reply := saying 200 [("publicKey", .string "GA")]

def signature : Option Reply := saying 200 [("signedEnvelope", .string "c0de")]

/-- A refusal that gives an envelope nevertheless. -/
def unsigned : Option Reply := saying 200 [("error", .string "not now"), ("signedEnvelope", .string "c0de")]

theorem refuses_unsigned : Signer.Refuses "signedEnvelope" unsigned "not now" := by
  have hbody : ∃ r, unsigned = some r ∧
      (r.document?.map (Signer.Response.decode "signedEnvelope")).bind Except.toOption =
        some ⟨some "c0de", some "not now"⟩ := ⟨_, rfl, by decide +kernel⟩
  obtain ⟨r, hr, hbody⟩ := hbody
  obtain ⟨x, hx, hresponse⟩ := Option.bind_eq_some_iff.1 hbody
  obtain ⟨document, hdocument, rfl⟩ := Option.map_eq_some_iff.1 hx
  have hdecode : Signer.Response.decode "signedEnvelope" document = .ok ⟨some "c0de", some "not now"⟩ := by
    cases hread : Signer.Response.decode "signedEnvelope" document with
    | error e =>
      rw [hread] at hresponse
      cases hresponse
    | ok response =>
      rw [hread] at hresponse
      cases hresponse
      rfl
  exact ⟨r, _, hr, document, hdocument, (Signer.Response.decode_eq_ok_iff (by decide)).1 hdecode⟩

theorem accountOf_refusal : Signer.accountOf refusal = .error (.connection "denied") := by decide +kernel

theorem accountOf_grant : Signer.accountOf grant = .ok ⟨"GA"⟩ := by decide +kernel

theorem not_granted_by_refusal (key : String) (h : Signer.Grants "publicKey" refusal key) : Text.trim key = "" := by
  by_contra hkey
  have haccount : Signer.accountOf refusal = .ok ⟨key⟩ := Signer.accountOf_eq_ok_iff.2 ⟨h, hkey⟩
  rw [accountOf_refusal] at haccount
  cases haccount

/-- The first attempt is refused. -/
def refused : Custody where
  wallet :=
    { manager := ⟨⟨1, Connection.phaseOf (.error (.connection "denied"))⟩, []⟩
      selector := ⟨.testnet, 0⟩
      pending := 0
      history := [.answered 1 (.error (.connection "denied")), .made (.connect 1 .testnet), .started 1] }
  accounts := [(1, Signer.exchange (Signer.connectRequest signer .testnet) refusal)]
  signatures := []

/-- The second attempt is granted. -/
def granted : Custody where
  wallet :=
    { manager := ⟨⟨2, .connected ⟨"GA"⟩⟩, []⟩
      selector := ⟨.testnet, 0⟩
      pending := 0
      history := [.answered 2 (.ok ⟨"GA"⟩), .made (.connect 2 .testnet), .started 2] ++ refused.wallet.history }
  accounts := (2, Signer.exchange (Signer.connectRequest signer .testnet) grant) :: refused.accounts
  signatures := []

theorem steps_refused : ReflTransGen (Custody.Step signer) (.start ⟨.testnet, 0⟩) refused :=
  .head (.wallet (.call .connect) Custody.answered_of_moved) <|
  .head (.wallet (.advance 0 rfl (.make (.connect 1 .testnet))) (by simp)) <|
  .head (.answer 0 rfl (Signer.talks_connect_exchange_iff.2 accountOf_refusal.symm)) <|
  .head (.wallet (.act 0 rfl) Custody.answered_of_moved) .refl

theorem steps_granted : ReflTransGen (Custody.Step signer) (.start ⟨.testnet, 0⟩) granted :=
  steps_refused.trans <|
  .head (.wallet (.call .connect) Custody.answered_of_moved) <|
  .head (.wallet (.advance 0 rfl (.make (.connect 2 .testnet))) (by simp)) <|
  .head (.answer 0 rfl (Signer.talks_connect_exchange_iff.2 accountOf_grant.symm)) <|
  .head (.wallet (.act 0 rfl) Custody.answered_of_moved) .refl

/-- The signer replies to a request for a signature, and the ledger accepts. -/
def answers (reply : Option Reply) : Script Custody where
  own
    | .activeNetwork, _ => .testnet
    | .clock, _ => 7
    | .account, s => s.connection.account?
    | .nonce, _ => 0
    | .lastSeen _, _ => none
    | .remember _ _, _ => ()
    | .note _, _ => ()
  away
    | .sign account network payload, s => (Signer.envelopeOf account reply,
        s.signed (Signer.exchange (Signer.signRequest signer account.publicKey network payload) reply))
    | .query _ _, s => (.ok .null, s)
    | .submit _ _, s => (.ok ⟨"tx", none, none⟩, s)
    | .health _, s => (.ok true, s)
    | .fetch _ _ _, s => (none, s)
    | .settle t _, s => ((⟨t, List.mem_cons_self⟩, .ok .null), s)

theorem answers_sound (reply : Option Reply) : (answers reply).Sound (custody signer) where
  own q s := by cases q <;> trivial
  away q s := by
    cases q with
    | sign account network payload => exact ⟨_, Signer.talks_sign_exchange_iff.2 rfl, rfl⟩
    | query url call => rfl
    | submit url e => rfl
    | health url => rfl
    | fetch t url call => rfl
    | settle t others => rfl

/-- A product is registered with the account that was granted, and the signer does not sign for another one. -/
def deeds : List (Deed Custody) :=
  [.begin 0 0 (.register (.ofId ⟨"P"⟩)), .go 0 6 (answers signature), .begin 1 0 (.register (.ofId ⟨"Q"⟩)),
    .go 1 12 (answers unsigned)]

def world : World Custody := deeds.foldl (World.play fun _ => looseClient) (.start granted)

theorem steps_world : Steps (custody signer) (fun _ => looseClient) (.start (.start ⟨.testnet, 0⟩)) world :=
  (steps_of_custody steps_granted).trans
    (steps_of_playable deeds _ ⟨trivial, answers_sound signature, trivial, answers_sound unsigned, trivial⟩)

def failed? : Run Rehearsal.Result → Option ClientError
  | .done (.error (.client e)) => some e
  | _ => none

theorem failed_world : (world.tasks 1).bind (fun τ => failed? τ.rest) =
    some (.submission (.signing (.signing "not now"))) := by decide +kernel

theorem submits_world : ∃ τ url e, world.tasks 0 = some τ ∧ τ.Asks τ.told (.away (.submit url e)) ∧
    e.content = "c0de" := by
  have hplay : ((world.tasks 0).bind fun τ => submitting? τ.rest).map Envelope.content = some "c0de" := by
    decide +kernel
  obtain ⟨e, hsubmit, hcontent⟩ := Option.map_eq_some_iff.1 hplay
  obtain ⟨τ, hτ, hsubmit⟩ := Option.bind_eq_some_iff.1 hsubmit
  obtain ⟨url, hasks⟩ := asks_of_submitting? hsubmit
  exact ⟨τ, url, e, hτ, hasks, hcontent⟩

end Granting

/-- The general theorem where the signer refuses a first attempt, grants a second one, signs a registration, and refuses
to sign another one with a reply that has an envelope too. -/
theorem consented_of_steps_granted : Granting.refused.connection.account? = none ∧
    (∃ e, Signer.accountOf Granting.refusal = .error e ∧ Fails Granting.refused.wallet e) ∧
    Granting.world.around.connection.account? = some ⟨"GA"⟩ ∧
    (∃ τ url e, Granting.world.tasks 0 = some τ ∧ τ.Asks τ.told (.away (.submit url e)) ∧ e.content = "c0de") ∧
    ((Granting.world.tasks 1).bind (fun τ => Granting.failed? τ.rest) =
        some (.submission (.signing (.signing "not now"))) ∧
      ∀ payload outcome, Client.Talks (Signer.sign Granting.signer ⟨"GA"⟩ .testnet payload) outcome
        (Signer.exchange (Signer.signRequest Granting.signer "GA" .testnet payload) Granting.unsigned) ↔
          outcome = .error (.signing "not now")) ∧
    (Signer.signRequest Granting.signer "GA" .testnet []).url = "http://signer/sign" ∧
    Consented Granting.signer (fun _ => looseClient) Granting.world := by
  have hrefused : Consented Granting.signer (fun _ => looseClient) (.start Granting.refused) :=
    consented_of_steps (steps_of_custody Granting.steps_refused)
  obtain ⟨hnone, hfails⟩ := hrefused.declined .testnet Granting.refusal List.mem_cons_self
    Granting.not_granted_by_refusal
  have hconsented : Consented Granting.signer (fun _ => looseClient) Granting.world :=
    consented_of_steps Granting.steps_world
  have hsigner : Signer.IsBase Granting.signer "http://signer" := ⟨⟨0, rfl⟩, by decide⟩
  exact ⟨hnone, hfails, by decide +kernel, Granting.submits_world,
    ⟨Granting.failed_world,
      fun payload => hconsented.signRefused ⟨"GA"⟩ .testnet payload _ _ Granting.refuses_unsigned⟩,
    (hconsented.places _ hsigner .testnet "GA" []).2, hconsented⟩

end SupplyTrail.Interleaving
