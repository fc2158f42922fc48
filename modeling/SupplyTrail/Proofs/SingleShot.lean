import SupplyTrail.Proofs.Conduct.Exits
import SupplyTrail.Proofs.Interleaving.Play
import SupplyTrail.Rehearsal.Call
/-!
# Single shot — one signature and one submission

Whatever else runs and whatever is answered, an operation asks the wallet for one signature at most and hands the ledger
one envelope at most, the one that the wallet gave it.  A fault that it finds before that leaves no trace outside, and
of several the first of network, input and wallet is reported.  The wallet's connection is only looked at.
-/
namespace SupplyTrail

namespace Client

variable {σ β : Type} {c : Client} {op : Operation} {d d' : Dialogue σ}

/-! ## The first answers -/

/-- The first answer of a kind. -/
def first? (f : Turn σ → Option β) (d : Dialogue σ) : Option β := (d.filterMap f).getLast?

def Turn.network? : Turn σ → Option Network
  | ⟨.own .activeNetwork, a, _⟩ => some a
  | _ => none

def Turn.account? : Turn σ → Option (Option Account)
  | ⟨.own .account, a, _⟩ => some a
  | _ => none

/-- The active network at the first check of the network. -/
def firstNetwork? (d : Dialogue σ) : Option Network := first? Turn.network? d

/-- The connected account, or none, at the first check of the wallet. -/
def firstAccount? (d : Dialogue σ) : Option (Option Account) := first? Turn.account? d

theorem first?_of_suffix {f : Turn σ → Option β} {b : β} (h : first? f d = some b) (hs : d <:+ d') :
    first? f d' = some b := by
  obtain ⟨l, rfl⟩ := hs
  unfold first? at h ⊢
  rw [List.filterMap_append, List.getLast?_append, h]
  rfl

/-- The fault of the network that the first check of it found. -/
def networkFault? (c : Client) (d : Dialogue σ) : Option ClientError :=
  if c.isBound then
    (firstNetwork? d).bind fun active =>
      if active = c.endpoint.network then none else some (.networkChanged c.endpoint.network active)
  else none

/-- The fault of the wallet that the first check of it found. -/
def walletFault? (d : Dialogue σ) : Option ClientError :=
  (firstAccount? d).bind fun account => if account = none then some .notConnected else none

/-- Of all the faults there are, the one of the network comes first, then that of the input, then that of the wallet. -/
def firstFault? (c : Client) (op : Operation) (d : Dialogue σ) : Option ClientError :=
  networkFault? c d <|> op.inputFault?.map .invalidInput <|> walletFault? d

theorem NetworkRefused.networkFault? {active : Network} (h : NetworkRefused c active [] d) :
    networkFault? c d = some (.networkChanged c.endpoint.network active) := by
  cases h with
  | mk hbound hne =>
    unfold Client.networkFault?
    rw [if_pos hbound]
    exact if_neg hne

theorem Opening.firstAccount? (h : Opening c d) : firstAccount? d = none := by
  cases h with
  | checked hnet => cases hnet <;> rfl
  | timed hnet => cases hnet <;> rfl

/-- A client that is bound has seen its own network active. -/
theorem Opening.firstNetwork? (h : Opening c d) (hbound : c.isBound = true) :
    firstNetwork? d = some c.endpoint.network := by
  cases h with
  | checked hnet =>
    cases hnet with
    | unbound h => rw [hbound] at h; cases h
    | bound h => rfl
  | timed hnet =>
    cases hnet with
    | unbound h => rw [hbound] at h; cases h
    | bound h => rfl

theorem Opening.networkFault? (h : Opening c d) (hs : d <:+ d') : networkFault? c d' = none := by
  unfold Client.networkFault?
  split
  · rename_i hbound
    rw [Client.firstNetwork?, first?_of_suffix (h.firstNetwork? hbound) hs]
    exact if_pos rfl
  · rfl

theorem firstAccount?_cons {account : Option Account} {m : σ} (h : firstAccount? d = none) :
    firstAccount? (⟨.own .account, account, m⟩ :: d) = some account := by
  have hnone : d.filterMap Turn.account? = [] := List.getLast?_eq_none_iff.1 h
  change (account :: d.filterMap Turn.account?).getLast? = some account
  rw [hnone]
  rfl

/-- **The first fault decides.** -/
theorem Decided.firstFault? {failure : Option ClientError} (h : Decided c op d failure) {e : ClientError}
    (hfault : firstFault? c op d = some e) : failure = some e ∧ Idle d := by
  unfold Client.firstFault? at hfault
  cases h with
  | network hrefused =>
    rw [hrefused.networkFault?] at hfault
    exact ⟨hfault, hrefused.idle idle_nil⟩
  | input hopen hinput =>
    rw [hopen.networkFault? (List.suffix_refl d), hinput] at hfault
    exact ⟨hfault, hopen.idle⟩
  | @wallet m d hopen hinput =>
    have hwallet : walletFault? (⟨.own .account, none, m⟩ :: d) = some .notConnected := by
      rw [walletFault?, firstAccount?_cons hopen.firstAccount?]
      rfl
    rw [hopen.networkFault? (List.suffix_cons _ d), hinput, hwallet] at hfault
    exact ⟨hfault, hopen.idle.cons rfl⟩
  | @cleared account m d' _ _ hopen hinput hd hsettled hearly =>
    have hwallet : walletFault? d = none := by
      rw [walletFault?, Client.firstAccount?, first?_of_suffix (firstAccount?_cons hopen.firstAccount?) hd]
      rfl
    rw [hopen.networkFault? ((List.suffix_cons _ d').trans hd), hinput, hwallet] at hfault
    cases hfault

/-- The network is checked before anything else, and the wallet if neither the network nor the input is at fault. -/
theorem Decided.checks {failure : Option ClientError} (h : Decided c op d failure) :
    (c.isBound = true → (firstNetwork? d).isSome) ∧
    (networkFault? c d = none → op.inputFault? = none → (firstAccount? d).isSome) := by
  cases h with
  | network hrefused =>
    refine ⟨fun _ => by cases hrefused; rfl, fun hnone => ?_⟩
    rw [hrefused.networkFault?] at hnone
    cases hnone
  | input hopen hinput =>
    refine ⟨fun hbound => by rw [hopen.firstNetwork? hbound]; rfl, fun _ hnone => ?_⟩
    rw [hinput] at hnone
    cases hnone
  | wallet hopen hinput =>
    refine ⟨fun hbound => ?_, fun _ _ => by rw [firstAccount?_cons hopen.firstAccount?]; rfl⟩
    rw [Client.firstNetwork?, first?_of_suffix (hopen.firstNetwork? hbound) (List.suffix_cons _ _)]
    rfl
  | cleared hopen hinput hd hsettled hearly =>
    refine ⟨fun hbound => ?_, fun _ _ => ?_⟩
    · rw [Client.firstNetwork?, first?_of_suffix (hopen.firstNetwork? hbound) ((List.suffix_cons _ _).trans hd)]
      rfl
    · rw [Client.firstAccount?, first?_of_suffix (firstAccount?_cons hopen.firstAccount?) hd]
      rfl

/-- No account at the first check of the wallet is the last thing that an operation is told. -/
theorem Decided.unconnected {failure : Option ClientError} (h : Decided c op d failure)
    (hnone : firstAccount? d = some none) :
    failure = some .notConnected ∧ Idle d ∧ ∃ t d₀, d = t :: d₀ ∧ firstAccount? d₀ = none := by
  cases h with
  | network hrefused => cases hrefused; cases hnone
  | input hopen hinput =>
    rw [hopen.firstAccount?] at hnone
    cases hnone
  | wallet hopen hinput => exact ⟨rfl, hopen.idle.cons rfl, _, _, rfl, hopen.firstAccount?⟩
  | cleared hopen hinput hd hsettled hearly =>
    rw [Client.firstAccount?, first?_of_suffix (firstAccount?_cons hopen.firstAccount?) hd] at hnone
    cases hnone

/-! ## Counting -/

/-- The wallet is asked for one signature at most, and the ledger is given one envelope at most. -/
def SentOnce (questions : List Question) : Prop :=
  questions.countP Question.isSign ≤ 1 ∧ questions.countP Question.isSubmit ≤ 1

theorem isSome_signature? (t : Turn σ) : t.signature?.isSome = t.question.isSign := by
  obtain ⟨q, a, m⟩ := t
  match q with
  | .own _ | .away (.query _ _) | .away (.sign _ _ _) | .away (.submit _ _) | .away (.health _)
  | .away (.fetch _ _ _) | .away (.settle _ _) => rfl

theorem isSome_submission? (t : Turn σ) : t.submission?.isSome = t.question.isSubmit := by
  obtain ⟨q, a, m⟩ := t
  match q with
  | .own _ | .away (.query _ _) | .away (.sign _ _ _) | .away (.submit _ _) | .away (.health _)
  | .away (.fetch _ _ _) | .away (.settle _ _) => rfl

theorem countP_isSign (d : Dialogue σ) : (d.map Turn.question).countP Question.isSign = (signatures d).length := by
  rw [signatures, List.length_filterMap_eq_countP, List.countP_map]
  exact List.countP_congr fun t _ => by rw [isSome_signature?]; rfl

theorem countP_isSubmit (d : Dialogue σ) : (d.map Turn.question).countP Question.isSubmit = (submissions d).length := by
  rw [submissions, List.length_filterMap_eq_countP, List.countP_map]
  exact List.countP_congr fun t _ => by rw [isSome_submission?]; rfl

theorem MaySend.sentOnce {q : Question} (h : MaySend d q) (hd : SentOnce (d.map Turn.question)) :
    SentOnce (q :: d.map Turn.question) := by
  unfold SentOnce
  rw [List.countP_cons, List.countP_cons]
  cases h with
  | own q => exact hd
  | @away q hcalm hfirst =>
    obtain ⟨hsign, hsubmit⟩ : (Question.away q).isSign = false ∧ (Question.away q).isSubmit = false := by
      simpa [Question.isCalm] using hcalm
    rw [hsign, hsubmit]
    exact hd
  | sign hunsent =>
    rw [countP_isSign, hunsent.signatures]
    exact ⟨Nat.le_refl 1, hd.2⟩
  | submit hsigned hfirst =>
    rw [countP_isSubmit, hfirst]
    exact ⟨hd.1, Nat.le_refl 1⟩

end Client

/-! ## In every run -/

namespace Interleaving

open Client Activity
open Rehearsal (Result)

variable {σ : Type} {S : Surroundings σ} {clients : Nat → Client} {w : World σ} {id : Nat} {τ : Task σ}

def pending? {α : Type} : Run α → Option Question
  | .done _ => none
  | .ask q _ => some q

/-- All that an operation has asked, the latest first: the question that waits for its answer too. -/
def Task.asked (τ : Task σ) : List Question := (pending? τ.rest).toList ++ τ.told.map Turn.question

/-- What an operation has done so far. -/
structure SingleShot (c : Client) (τ : Task σ) : Prop where
  /-- At most one signature and one submission are asked for. -/
  once : SentOnce τ.asked
  /-- What is submitted is what the wallet signed for this operation. -/
  signed : ∀ url e next, τ.rest = .ask (.away (.submit url e)) next → signatures τ.told = [.ok e]
  /-- Once the ledger has answered the submission nothing more is asked outside. -/
  last : ∀ q next, τ.rest = .ask (.away q) next → submissions τ.told = []
  /-- An operation that writes succeeds exactly if the ledger confirmed its submission. -/
  confirmed : τ.operation.writes = true → ∀ r, τ.rest = .done r →
    ((∃ v, r = .ok v) ↔ ∃ e receipt, submissions τ.told = [(e, .ok receipt)])
  /-- A refused network or input has left nothing outside and nothing remembered. -/
  early : ∀ r, τ.rest = .done r → ∀ e ∈ failuresOf r, e.isEarly = true → Idle τ.told
  /-- Nor has a wallet without an account. -/
  unconnected : τ.operation.writes = true → firstAccount? τ.told = some none →
    τ.rest = .done (.error (.client .notConnected)) ∧ Idle τ.told
  /-- The checks are made in order. -/
  checked : τ.operation.writes = true → ∀ r, τ.rest = .done r →
    (c.isBound = true → (firstNetwork? τ.told).isSome) ∧
    (networkFault? c τ.told = none → τ.operation.inputFault? = none → (firstAccount? τ.told).isSome)
  /-- The first fault is reported. -/
  reported : τ.operation.writes = true → ∀ r, τ.rest = .done r → ∀ e, firstFault? c τ.operation τ.told = some e →
    r = .error (.client e) ∧ Idle τ.told

/-- An operation's further course sends no more than it may and leads to one of its exits. -/
def Sparing (clients : Nat → Client) (τ : Task σ) : Prop :=
  Keeping clients (fun _ _ d q => MaySend d q ∧ SentOnce (d.map Turn.question))
    (fun c op d r => Exit c op d r ∧ SentOnce (d.map Turn.question)) τ

theorem sparing_of_steps {s : σ} (h : Steps S clients (.start s) w) (hτ : w.tasks id = some τ) : Sparing clients τ := by
  refine keeping_of_steps (fun c op => ?_) h id τ hτ
  have hnil : SentOnce [] := ⟨Nat.zero_le 1, Nat.zero_le 1⟩
  refine (keeps_run_exit c op).within (fun d : Dialogue σ => SentOnce (d.map Turn.question)) hnil ?_
  rintro q d a d' hq ⟨m, rfl⟩ hd
  exact hq.sentOnce hd

theorem Sparing.sentOnce (h : Sparing clients τ) : SentOnce τ.asked := by
  unfold Task.asked
  cases hrest : τ.rest with
  | done r => exact (Keeping.ended h hrest).2
  | ask q next =>
    obtain ⟨hsend, honce⟩ := Keeping.asked h hrest
    exact hsend.sentOnce honce

theorem Sparing.exit (h : Sparing clients τ) {r : Result} (hrest : τ.rest = .done r) :
    Exit (clients τ.member) τ.operation τ.told r :=
  (Keeping.ended h hrest).1

/-- Whoever finds no account at first is at the end. -/
theorem Sparing.unconnected (h : Sparing clients τ) (m : σ) (hop : τ.operation.writes = true)
    (hnone : firstAccount? τ.told = some none) :
    τ.rest = .done (.error (.client .notConnected)) ∧ Idle τ.told := by
  rcases Keeping.exists_end h m with ⟨r, hrest, hexit, -⟩ | ⟨t, d, r, hd, hexit, -⟩
  · obtain ⟨failure, hdecided, hr⟩ := hexit.decided hop
    obtain ⟨rfl, hidle, -⟩ := hdecided.unconnected hnone
    exact ⟨hrest.trans (congrArg _ hr), hidle⟩
  · -- an operation that had gone on would have been told something after that
    obtain ⟨failure, hdecided, -⟩ := hexit.decided hop
    obtain ⟨-, -, t', d₀, rfl, hfirst⟩ :=
      hdecided.unconnected (first?_of_suffix hnone ((List.suffix_cons t _).trans hd))
    have hs : τ.told <:+ d₀ := by
      rcases List.suffix_cons_iff.1 hd with heq | hs
      · exact (List.cons.inj heq).2 ▸ List.suffix_refl _
      · exact (List.suffix_cons t _).trans hs
    have hlater := first?_of_suffix hnone hs
    rw [show first? Turn.account? d₀ = none from hfirst] at hlater
    cases hlater

end Interleaving

namespace Rehearsal.Session

open Client (Own Away)

theorem manager_answerOwn (client : Nat) (q : Own) (s : Session) : (s.answerOwn client q).2.manager = s.manager := by
  cases q <;> rfl

theorem manager_traces (ts : List Trace) (s : Session) : (ts.foldl trace s).manager = s.manager := by
  induction ts generalizing s with
  | nil => rfl
  | cons t ts ih => exact ih _

theorem manager_outcomeOf {s s' : Session} {o : Outcome} {q : Away} {a : q.Answer}
    (h : s.outcomeOf o q = some (a, s')) : s'.manager = s.manager := by
  cases q with
  | submit url e =>
    obtain rfl : (s.submitOutcome o e).2 = s' := congrArg Prod.snd (Option.some.inj h)
    unfold submitOutcome
    split
    · rfl
    · split <;> rfl
  | settle first others => cases h
  | _ => cases h; rfl

theorem manager_serverAnswer {s s' : Session} {server : Server} {signer node : String} {q : Away} {a : q.Answer}
    (h : s.serverAnswer server signer node q = some (a, s')) : s'.manager = s.manager := by
  cases q with
  | settle first others => cases h
  | _ => cases h; rfl

theorem manager_meet (s : Session) (id : Nat) (q : Away) : (s.meet id q).2.manager = s.manager := by
  unfold meet
  split
  · split
    · rename_i h
      exact manager_serverAnswer h
    · rfl
  · split
    · rfl
    · dsimp only
      split
      · exact manager_traces _ _
      · split
        · exact manager_traces _ _
        · split
          · rename_i h
            exact (manager_outcomeOf h).trans (manager_traces _ _)
          · exact manager_traces _ _

/-- **An operation leaves the wallet's connection as it is**, whatever it asks. -/
theorem manager_drive (id client : Nat) (x : Client.Run Result) (s : Session) :
    (drive id client x s).manager = s.manager := by
  induction x generalizing s with
  | done r => rfl
  | ask q next ih =>
    cases q with
    | own q => exact (ih _ _).trans (manager_answerOwn client q s)
    | away q =>
      unfold drive
      have hmeet := manager_meet s id q
      split
      · rename_i a s' h
        rw [h] at hmeet
        exact (ih _ _).trans hmeet
      · rename_i s' h
        rw [h] at hmeet
        exact hmeet
      · rename_i s' h
        rw [h] at hmeet
        exact hmeet

theorem manager_resume (s : Session) (id : Nat) (o : Outcome) : (s.resume id o).manager = s.manager := by
  unfold resume
  split
  · split
    · rfl
    · split
      · rename_i h
        exact (manager_drive _ _ _ _).trans (manager_outcomeOf h)
      · rfl
  · rfl

theorem manager_resumeFetch (s : Session) (id : Nat) (t : Client.Ticket) (call : ContractCall) (o : Outcome) :
    (s.resumeFetch id t call o).manager = s.manager := by
  unfold resumeFetch
  split
  · split
    · rfl
    · split
      · exact manager_drive _ _ _ _
      · rfl
  · rfl

theorem manager_operate {α : Type} (s : Session) (id client : Nat) (f : α → Value) (op : Client → Client.Op α) :
    (s.operate id client f op).manager = s.manager := by
  unfold operate
  split
  · exact manager_drive _ _ _ _
  · rfl

theorem manager_start (s : Session) (id : Nat) {call : Call} (hconnect : call ≠ .connect)
    (hdisconnect : call ≠ .disconnect) : (s.start id call).manager = s.manager := by
  cases call with
  | connect => exact absurd rfl hconnect
  | disconnect => exact absurd rfl hdisconnect
  | sign network payload => exact manager_drive _ _ _ _
  | stream client product count =>
    unfold start takeStream
    dsimp only
    split
    · exact manager_drive _ _ _ _
    · rfl
  | signer call =>
    unfold start converse
    dsimp only
    split <;> rfl
  | node call =>
    unfold start converse
    dsimp only
    split <;> rfl
  | _ => exact manager_operate _ _ _ _ _

end Rehearsal.Session

namespace Interleaving

open Client Activity
open Rehearsal (Result)

variable {σ : Type} {S : Surroundings σ} {clients : Nat → Client} {w : World σ} {id : Nat} {τ : Task σ}

/-- **An operation is a single shot.**  Whatever else runs and whatever is answered, it asks for one signature and one
submission at most, the submission of the envelope that was signed for it; it succeeds if and only if the submission was
confirmed; its first fault is reported and leaves nothing behind.  No operation changes the wallet's connection. -/
theorem singleShot_of_run {s : σ} (h : Steps S clients (.start s) w) (hτ : w.tasks id = some τ) :
    SingleShot (clients τ.member) τ ∧
    ∀ s : Rehearsal.Session,
      (∀ id call, call ≠ .connect → call ≠ .disconnect → (s.start id call).manager = s.manager) ∧
      (∀ id o, (s.resume id o).manager = s.manager) ∧
      ∀ id ticket call o, (s.resumeFetch id ticket call o).manager = s.manager := by
  have hkeep := sparing_of_steps h hτ
  refine ⟨⟨hkeep.sentOnce, fun url e next hrest => ?_, fun q next hrest => ?_, fun hop r hrest => ?_,
    fun r hrest => (hkeep.exit hrest).early, hkeep.unconnected s, fun hop r hrest => ?_,
    fun hop r hrest e hfault => ?_⟩, fun s => ⟨?_, ?_, ?_⟩⟩
  · cases (Keeping.asked hkeep hrest).1 with
    | away hcalm hfirst => cases hcalm
    | submit hsigned hfirst => exact hsigned
  · cases (Keeping.asked hkeep hrest).1 with
    | away hcalm hfirst => exact hfirst
    | sign hunsent => exact hunsent.submissions
    | submit hsigned hfirst => exact hfirst
  · obtain ⟨failure, hdecided, hr⟩ := (hkeep.exit hrest).decided hop
    have hsettled := hdecided.settled
    cases failure with
    | none => exact ⟨fun _ => hsettled.1 rfl, fun _ => hr⟩
    | some e =>
      subst hr
      exact ⟨fun ⟨_, hv⟩ => (by cases hv), fun hconf => by cases hsettled.2 hconf⟩
  · obtain ⟨failure, hdecided, -⟩ := (hkeep.exit hrest).decided hop
    exact hdecided.checks
  · obtain ⟨failure, hdecided, hr⟩ := (hkeep.exit hrest).decided hop
    obtain ⟨rfl, hidle⟩ := hdecided.firstFault? hfault
    exact ⟨hr, hidle⟩
  · exact fun id call hconnect hdisconnect => s.manager_start id hconnect hdisconnect
  · exact s.manager_resume
  · exact s.manager_resumeFetch

namespace Registered

/-- An operation registers a product while an account is connected. -/
def deeds : List (Deed Unit) :=
  [.begin 0 0 (.register (.ofId ⟨"P"⟩)), .go 0 12 (.steady (some ⟨"GA"⟩) fun _ => .ok .null)]

def world : World Unit := deeds.foldl (World.play fun _ => looseClient) (.start ())

theorem steps_world : Steps anyhow (fun _ => looseClient) (.start ()) world :=
  steps_of_playable deeds _ ⟨trivial, Script.sound_anyhow _, trivial⟩

end Registered

/-- The general theorem at a registration that succeeds. -/
theorem singleShot_of_run_registered : ∃ τ v, Registered.world.tasks 0 = some τ ∧ τ.rest = .done (.ok v) ∧
    SingleShot looseClient τ ∧ ∃ e receipt, submissions τ.told = [(e, .ok receipt)] := by
  have hgave : (Registered.world.gave? 0).isSome = true := by decide +kernel
  obtain ⟨v, hv⟩ := Option.isSome_iff_exists.1 hgave
  obtain ⟨τ, hτ, hdone⟩ := done_of_gave? hv
  have hwrites : (Registered.world.tasks 0).map (·.operation.writes) = some true := by decide +kernel
  rw [hτ] at hwrites
  have hshot := (singleShot_of_run Registered.steps_world hτ).1
  have hconfirmed := (hshot.confirmed (Option.some.inj hwrites) _ hdone).1 ⟨v, rfl⟩
  exact ⟨τ, v, hτ, hdone, hshot, hconfirmed⟩

end Interleaving

end SupplyTrail
