import SupplyTrail.Proofs.Conduct.Early
import SupplyTrail.Proofs.Conduct.Writing
/-!
# Exits — where an operation that writes may end

An operation that writes checks the network, its input and the wallet, in this order, and the first check that fails is
its failure.  Past the checks the wallet is asked for one signature at most and the ledger gets at most one envelope,
the one that the wallet gave.  From then on what the ledger says is what the operation comes to.
-/
namespace SupplyTrail

/-- What an attempt failed for. -/
def failure? {ε α : Type} : Except ε α → Option ε
  | .ok _ => none
  | .error e => some e

theorem Event.failure?_check (e : Event) (time : UInt64) :
    failure? (Event.check { e with time }) = failure? (Event.check e) := by
  unfold Event.check
  cases e.product.check with
  | error err => rfl
  | ok _ =>
    cases checkMetadata e.metadata with
    | error err => rfl
    | ok _ => rfl

namespace Client

open Activity

variable {σ α : Type} {c : Client} {op : Operation} {p : ProductId} {asks : Dialogue σ → Question → Prop}
  {ends : Dialogue σ → α → Prop} {d d' : Dialogue σ}

/-! ## What was signed and submitted -/

/-- The wallet is to sign. -/
def Question.isSign : Question → Bool
  | .away (.sign _ _ _) => true
  | _ => false

/-- The ledger is to take an envelope. -/
def Question.isSubmit : Question → Bool
  | .away (.submit _ _) => true
  | _ => false

def Turn.signature? : Turn σ → Option (Except WalletError Envelope)
  | ⟨.away (.sign _ _ _), a, _⟩ => some a
  | _ => none

def Turn.submission? : Turn σ → Option (Envelope × Except LedgerFailure Receipt)
  | ⟨.away (.submit _ e), a, _⟩ => some (e, a)
  | _ => none

/-- What the wallet answered when it was to sign, the latest first. -/
def signatures (d : Dialogue σ) : List (Except WalletError Envelope) := d.filterMap Turn.signature?

/-- The envelopes that the ledger was given and what it answered, the latest first. -/
def submissions (d : Dialogue σ) : List (Envelope × Except LedgerFailure Receipt) := d.filterMap Turn.submission?

/-- A question for neither a signature nor a submission. -/
def Question.isCalm (q : Question) : Bool := !q.isSign && !q.isSubmit

theorem Question.isCalm_of_isIdle {q : Question} (h : q.isIdle = true) : q.isCalm = true := by
  cases q with
  | own q => rfl
  | away q => cases h

theorem signatures_cons_of_isCalm {t : Turn σ} (h : t.question.isCalm = true) : signatures (t :: d) = signatures d := by
  obtain ⟨q, a, m⟩ := t
  refine List.filterMap_cons_none ?_
  match q with
  | .away (.sign _ _ _) => cases h
  | .own _ | .away (.query _ _) | .away (.submit _ _) | .away (.health _) | .away (.fetch _ _ _)
  | .away (.settle _ _) => rfl

theorem submissions_cons_of_isCalm {t : Turn σ} (h : t.question.isCalm = true) :
    submissions (t :: d) = submissions d := by
  obtain ⟨q, a, m⟩ := t
  refine List.filterMap_cons_none ?_
  match q with
  | .away (.submit _ _) => cases h
  | .own _ | .away (.query _ _) | .away (.sign _ _ _) | .away (.health _) | .away (.fetch _ _ _)
  | .away (.settle _ _) => rfl

/-- Nothing was signed and nothing submitted. -/
structure Unsent (d : Dialogue σ) : Prop where
  signatures : signatures d = []
  submissions : submissions d = []

theorem unsent_nil : Unsent ([] : Dialogue σ) := ⟨rfl, rfl⟩

theorem Unsent.cons {t : Turn σ} (h : Unsent d) (ht : t.question.isCalm = true) : Unsent (t :: d) :=
  ⟨(signatures_cons_of_isCalm ht).trans h.signatures, (submissions_cons_of_isCalm ht).trans h.submissions⟩

theorem Idle.unsent (h : Idle d) : Unsent d := by
  induction d with
  | nil => exact unsent_nil
  | cons t d ih =>
    exact (ih (h.mono (List.suffix_cons t d))).cons (Question.isCalm_of_isIdle (h t List.mem_cons_self))

/-! ## One signature, one submission -/

/-- What an operation may ask: for one signature, with that signature for one submission, and nothing outside any more
once the submission is answered. -/
inductive MaySend (d : Dialogue σ) : Question → Prop
  | own (q : Own) : MaySend d (.own q)
  | away {q : Away} (hcalm : (Question.away q).isCalm = true) (h : submissions d = []) : MaySend d (.away q)
  | sign {account : Account} {network : Network} {payload : List UInt8} (h : Unsent d) :
      MaySend d (.away (.sign account network payload))
  | submit {url : String} {e : Envelope} (hsigned : signatures d = [.ok e]) (hfirst : submissions d = []) :
      MaySend d (.away (.submit url e))

theorem MaySend.of_isCalm {q : Question} (hq : q.isCalm = true) (h : submissions d = []) : MaySend d q := by
  cases q with
  | own q => exact .own q
  | away q => exact .away hq h

theorem MayRead.isCalm {q : Question} (h : MayRead c p d q) : q.isCalm = true := by
  cases h <;> rfl

/-- What asks for neither a signature nor a submission leaves what was sent as it is. -/
theorem keeps_sent {x : Run α} (h : Keeps (hearing asks) ends x d) (hcalm : ∀ d q, asks d q → q.isCalm = true) :
    Keeps (hearing fun d' q => asks d' q ∧ signatures d' = signatures d ∧ submissions d' = submissions d)
      (fun d' a => ends d' a ∧ signatures d' = signatures d ∧ submissions d' = submissions d) x d := by
  refine h.within (fun d' => signatures d' = signatures d ∧ submissions d' = submissions d) ⟨rfl, rfl⟩ ?_
  rintro q d₁ a d₂ hq ⟨m, rfl⟩ ⟨hsignatures, hsubmissions⟩
  have hq := hcalm d₁ q hq
  exact ⟨(signatures_cons_of_isCalm hq).trans hsignatures, (submissions_cons_of_isCalm hq).trans hsubmissions⟩

/-- Before a submission it may ask outside. -/
theorem keeps_unsent {x : Run α} (h : Keeps (hearing asks) ends x d) (hcalm : ∀ d q, asks d q → q.isCalm = true)
    (hd : Unsent d) : Keeps (hearing MaySend) (fun d' a => ends d' a ∧ Unsent d') x d := by
  refine Keeps.mono ((keeps_sent h hcalm).weaken (fun d' q ⟨hq, _, hsame⟩ => ?_) fun _ _ _ _ h => h)
    fun _ _ ⟨ha, hsig, hsub⟩ => ⟨ha, hsig.trans hd.signatures, hsub.trans hd.submissions⟩
  exact MaySend.of_isCalm (hcalm d' q hq) (hsame.trans hd.submissions)

/-- After a submission it may go on by itself. -/
theorem keeps_submissions {x : Run α} (h : Keeps (hearing fun _ q => q.isOwn = true) ends x d) :
    Keeps (hearing MaySend) (fun d' a => ends d' a ∧ submissions d' = submissions d) x d := by
  have hcalm : ∀ (d : Dialogue σ) (q : Question), q.isOwn = true → q.isCalm = true := fun _ q hq => by
    cases q with
    | own q => rfl
    | away q => cases hq
  refine Keeps.mono ((keeps_sent h hcalm).weaken (fun d' q ⟨hq, _⟩ => ?_) fun _ _ _ _ h => h)
    fun _ _ ⟨ha, _, hsub⟩ => ⟨ha, hsub⟩
  cases q with
  | own q => exact .own q
  | away q => cases hq

/-- A success is one confirmed submission, and a failure is none. -/
def Settled (d : Dialogue σ) (failure : Option ClientError) : Prop :=
  failure = none ↔ ∃ e receipt, submissions d = [(e, .ok receipt)]

theorem settled_failed (h : ∀ s ∈ submissions d, ∀ receipt, s.2 ≠ .ok receipt) (e : ClientError) :
    Settled d (some e) := by
  refine ⟨fun hnone => ?_, fun ⟨e', receipt, hone⟩ => ?_⟩
  · cases hnone
  · exact absurd rfl (h (e', .ok receipt) (hone ▸ List.mem_cons_self) receipt)

theorem settled_unsubmitted (h : submissions d = []) (e : ClientError) : Settled d (some e) :=
  settled_failed (fun s hs => by rw [h] at hs; cases hs) e

theorem Settled.of_calm {o : Option ClientError} (h : Settled d o) (hsame : submissions d' = submissions d) :
    Settled d' o := by
  unfold Settled
  rw [hsame]
  exact h

/-- The failure, if there is one, came of an answer from outside or of the wallet's connection. -/
def Late (failure : Option ClientError) : Prop := ∀ e, failure = some e → e.isEarly = false

theorem Late.some {e : ClientError} (h : e.isEarly = false) : Late (some e) := fun e' he => by cases he; exact h

/-- The signature of an invocation; the wallet is asked for it once. -/
theorem keeps_signature_once {payload : List UInt8} (hd : Unsent d) :
    Keeps (hearing MaySend)
      (fun d' r => d <:+ d' ∧ submissions d' = [] ∧ ∀ e, r = .ok e → signatures d' = [.ok e])
      (signature c.endpoint.network payload) d := by
  unfold signature
  refine Keeps.bind (M := fun d' a => ∃ m, d' = ⟨.own .account, a, m⟩ :: d)
    (keeps_own (.own _) fun _ m => ⟨m, rfl⟩) fun d' a ⟨m, hd'⟩ => ?_
  subst hd'
  have hunsent := hd.cons (t := ⟨.own .account, a, m⟩) rfl
  cases a with
  | none => exact ⟨List.suffix_cons _ _, hunsent.submissions, fun _ h => by cases h⟩
  | some account =>
    refine keeps_away (.sign hunsent) fun r m' => ⟨?_, hunsent.submissions, ?_⟩
    · exact (List.suffix_cons _ _).trans (List.suffix_cons _ _)
    · rintro e rfl
      exact congrArg (Except.ok e :: ·) hunsent.signatures

/-- **A call is submitted at most once**, with the envelope that was signed for it. -/
theorem keeps_submit_once {function : String} {args : Json} (hd : Unsent d) :
    Keeps (hearing MaySend)
      (fun d' (r : Except ClientError Receipt) => d <:+ d' ∧ Settled d' (failure? r) ∧ Late (failure? r))
      (c.submit function args p).run d := by
  unfold submit
  refine Keeps.bindOp (keeps_connectedKey (.own _)) (fun d₁ key ⟨m, account, _, h₁⟩ => ?_) fun d₁ e ⟨m, he, h₁⟩ => ?_
  swap
  · subst h₁ he
    have hd₁ := hd.cons (t := ⟨.own .account, none, m⟩) rfl
    exact ⟨List.suffix_cons _ _, settled_unsubmitted hd₁.submissions _, .some rfl⟩
  refine Keeps.bindRun (M := fun d₂ nonce => ∃ n, d₂ = ⟨.own .nonce, nonce, n⟩ :: d₁)
    (keeps_own (.own _) fun _ n => ⟨n, rfl⟩) fun d₂ nonce ⟨n, h₂⟩ => ?_
  subst h₁ h₂
  have hs₂ := (List.suffix_cons ⟨.own .account, some account, m⟩ d).trans
    (List.suffix_cons ⟨.own .nonce, nonce, n⟩ (⟨.own .account, some account, m⟩ :: d))
  refine Keeps.bindRun (keeps_signature_once ((hd.cons rfl).cons rfl)) fun d₃ r ⟨hs₃, hfirst, hsigned⟩ => ?_
  match r with
  | .error error =>
    cases error <;> exact ⟨hs₂.trans hs₃, settled_unsubmitted hfirst _, .some rfl⟩
  | .ok e =>
    refine Keeps.bindRun (M := fun d₄ r => ∃ m, d₄ = ⟨.away (.submit c.endpoint.rpcUrl e), r, m⟩ :: d₃)
      (keeps_away (.submit (hsigned e rfl) hfirst) fun _ m => ⟨m, rfl⟩) fun d₄ r ⟨m, h₄⟩ => ?_
    have hs₄ : d <:+ d₄ := h₄ ▸ (hs₂.trans hs₃).trans (List.suffix_cons _ _)
    have hsub : submissions d₄ = [(e, r)] := h₄ ▸ congrArg ((e, r) :: ·) hfirst
    cases r with
    | ok receipt => exact ⟨hs₄, ⟨fun _ => ⟨e, receipt, hsub⟩, fun _ => rfl⟩, fun _ h => by cases h⟩
    | error f =>
      have hfail : Keeps (hearing fun _ q => q.isOwn = true)
          (fun d' (r : Except ClientError Receipt) => d₄ <:+ d' ∧ r = .error (failureOf (some p) f))
          (c.fail (some p) f).run d₄ := keeps_fail (fun _ _ => rfl) (some p) f
      refine (keeps_submissions hfail).mono fun d₅ r ⟨⟨hs₅, hr⟩, hsame⟩ => ?_
      subst hr
      refine ⟨hs₄.trans hs₅, settled_failed ?_ _, .some (not_early_failureOf (some p) f)⟩
      rw [hsame, hsub]
      intro s hs receipt
      obtain rfl := List.mem_singleton.1 hs
      exact fun h => by cases h

/-! ## The checks that come first -/

/-- An operation that writes to the ledger. -/
def Operation.writes : Operation → Bool
  | .register _ | .append _ _ _ => true
  | .getProduct _ | .getHistory _ | .getPage _ _ _ | .stream _ _ | .ping => false

/-- What is wrong with the input of an operation that writes. -/
def Operation.inputFault? : Operation → Option InputError
  | .register details =>
    failure? details.check <|> failure? (Event.check ⟨details.id, .register, 0, details.registerMetadata⟩)
  | .append product kind metadata =>
    if kind = .register then some .registerNotAppendable else failure? (Event.check ⟨product, kind, 0, metadata⟩)
  | .getProduct _ | .getHistory _ | .getPage _ _ _ | .stream _ _ | .ping => none

/-- The network was checked, and the clock was read or not yet. -/
inductive Opening (c : Client) : Dialogue σ → Prop
  | checked {d : Dialogue σ} (h : NetworkChecked c [] d) : Opening c d
  | timed {time : UInt64} {m : σ} {d : Dialogue σ} (h : NetworkChecked c [] d) : Opening c (⟨.own .clock, time, m⟩ :: d)

theorem Opening.idle (h : Opening c d) : Idle d := by
  cases h with
  | checked hnet => exact hnet.idle idle_nil
  | timed hnet => exact (hnet.idle idle_nil).cons rfl

/-- What an operation that writes fails for, if it fails.  The checks are made in this order, and the first that does
not pass decides; past them the ledger's answer does. -/
inductive Decided (c : Client) (op : Operation) : Dialogue σ → Option ClientError → Prop
  | network {active : Network} {d : Dialogue σ} (h : NetworkRefused c active [] d) :
      Decided c op d (some (.networkChanged c.endpoint.network active))
  | input {e : InputError} {d : Dialogue σ} (hopen : Opening c d) (hinput : op.inputFault? = some e) :
      Decided c op d (some (.invalidInput e))
  | wallet {m : σ} {d : Dialogue σ} (hopen : Opening c d) (hinput : op.inputFault? = none) :
      Decided c op (⟨.own .account, none, m⟩ :: d) (some .notConnected)
  | cleared {account : Account} {m : σ} {d d' : Dialogue σ} {failure : Option ClientError} (hopen : Opening c d)
      (hinput : op.inputFault? = none) (hd : ⟨.own .account, some account, m⟩ :: d <:+ d')
      (hsettled : Settled d' failure) (hearly : ∀ e, failure = some e → e.isEarly = true → Idle d') :
      Decided c op d' failure

theorem keeps_checkNetwork_calm :
    Keeps (hearing MaySend)
      (fun d' (r : Except ClientError Unit) => d <:+ d' ∧
        match r with
        | .ok () => NetworkChecked c d d'
        | .error e => ∃ active, NetworkRefused c active d d' ∧ e = .networkChanged c.endpoint.network active)
      c.checkNetwork.run d :=
  keeps_checkNetwork (fun _ => .own _) fun _ _ => .own _

/-- What remains after a confirmation changes nothing about it. -/
theorem keeps_remembered {time : UInt64} {level : Level} {line : String} {a : α} :
    Keeps (hearing MaySend)
      (fun d' (r : Except ClientError α) => (d <:+ d' ∧ r = .ok a) ∧ submissions d' = submissions d)
      ((liftM (note level line) : Op Unit) >>= fun _ => (liftM (own (.remember p time)) : Op Unit) >>= fun _ =>
        (pure a : Op α)).run d := by
  refine keeps_submissions ?_
  refine Keeps.bindRun (M := fun d₁ _ => d <:+ d₁) (keeps_own rfl fun _ _ => List.suffix_cons _ _) fun d₁ _ h₁ => ?_
  refine Keeps.bindRun (M := fun d₂ _ => d <:+ d₂) (keeps_own rfl fun _ _ => h₁.trans (List.suffix_cons _ _))
    fun d₂ _ h₂ => ?_
  exact ⟨h₂, rfl⟩

theorem keeps_registeredTime_unsent (hd : Idle d) :
    Keeps (hearing MaySend)
      (fun d' (r : Except ClientError UInt64) =>
        d <:+ d' ∧ Unsent d' ∧ ∀ e, r = .error e → e.isEarly = true → Idle d')
      (c.registeredTime p).run d := by
  unfold registeredTime
  refine Keeps.bindRun (M := fun d' a => ∃ m, d' = ⟨.own (.lastSeen p), a, m⟩ :: d)
    (keeps_own (.own _) fun _ m => ⟨m, rfl⟩) fun d₁ a ⟨m, h₁⟩ => ?_
  have hd₁ : Idle d₁ := h₁ ▸ hd.cons rfl
  have hs₁ : d <:+ d₁ := h₁ ▸ List.suffix_cons _ _
  cases a with
  | some time => exact ⟨hs₁, hd₁.unsent, fun e he => by cases he⟩
  | none =>
    have hread := keeps_unsent (keeps_getHistory (c := c) (p := p)) (fun _ _ h => h.isCalm) hd₁.unsent
    refine Keeps.bindOp hread (fun d₂ h ⟨⟨hs₂, _⟩, hunsent⟩ => ⟨hs₁.trans hs₂, hunsent, fun e he => by cases he⟩)
      fun d₂ e ⟨⟨hs₂, hfailed⟩, hunsent⟩ => ⟨hs₁.trans hs₂, hunsent, fun e' he hearly => ?_⟩
    cases he
    exact hfailed.early hearly hd₁

theorem keeps_checked_fault (r : Except InputError α) :
    Keeps (hearing MaySend)
      (fun d' b => d' = d ∧
        match b with
        | .ok _ => failure? r = none
        | .error e => ∃ i, failure? r = some i ∧ e = .invalidInput i)
      (checked r).run d := by
  cases r with
  | ok a => exact ⟨rfl, rfl⟩
  | error i => exact ⟨rfl, i, rfl, rfl⟩

/-- Past the checks the submission decides, and after it nothing is sent any more. -/
theorem keeps_cleared {function : String} {args : Json} {time : UInt64} {level : Level} {line : Receipt → String}
    {account : Account} {m : σ} {a : α} (hopen : Opening c d) (hinput : op.inputFault? = none)
    (hd : ⟨.own .account, some account, m⟩ :: d <:+ d') (hunsent : Unsent d') :
    Keeps (hearing MaySend) (fun d'' (r : Except ClientError α) => Decided c op d'' (failure? r))
      ((c.submit function args p) >>= fun receipt => (liftM (note level (line receipt)) : Op Unit) >>= fun _ =>
        (liftM (own (.remember p time)) : Op Unit) >>= fun _ => (pure a : Op α)).run d' := by
  refine Keeps.bindOp (keeps_submit_once hunsent) (fun d₁ receipt ⟨hs₁, hsettled, _⟩ => ?_)
    fun d₁ e ⟨hs₁, hsettled, hlate⟩ => ?_
  · refine keeps_remembered.mono fun d₂ r ⟨⟨hs₂, hr⟩, hsame⟩ => ?_
    subst hr
    exact .cleared hopen hinput (hd.trans (hs₁.trans hs₂)) (hsettled.of_calm hsame) fun e he => by cases he
  · refine .cleared hopen hinput (hd.trans hs₁) hsettled fun e' he' hearly => ?_
    rw [hlate e' he'] at hearly
    cases hearly

theorem keeps_register_decided {details : ProductDetails} :
    Keeps (hearing MaySend)
      (fun d' (r : Except ClientError ProductId) => Decided c (.register details) d' (failure? r))
      (c.register details).run ([] : Dialogue σ) := by
  unfold register
  refine Keeps.bindOp keeps_checkNetwork_calm (fun d₁ _ ⟨_, hnet⟩ => ?_)
    fun d₁ e ⟨_, active, hrefused, he⟩ => he ▸ .network hrefused
  refine Keeps.bindOp (keeps_checked_fault details.check) (fun d₂ _ ⟨h₂, hcheck⟩ => ?_)
    fun d₂ e ⟨h₂, i, hcheck, he⟩ => ?_
  swap
  · subst h₂ he
    exact .input (.checked hnet) (by rw [Operation.inputFault?, hcheck]; rfl)
  refine Keeps.bindRun (M := fun d₃ time => ∃ n, d₃ = ⟨.own .clock, time, n⟩ :: d₂)
    (keeps_own (.own _) fun _ n => ⟨n, rfl⟩) fun d₃ time ⟨n, h₃⟩ => ?_
  have hopen : Opening c d₃ := by subst h₃ h₂; exact .timed hnet
  have hinput : (Operation.register details).inputFault? =
      failure? (Event.check ⟨details.id, .register, time, details.registerMetadata⟩) := by
    rw [Operation.inputFault?, hcheck]
    exact (Event.failure?_check ⟨details.id, .register, 0, details.registerMetadata⟩ time).symm
  refine Keeps.bindOp (keeps_checked_fault _) (fun d₄ event ⟨h₄, hevent⟩ => ?_) fun d₄ e ⟨h₄, i, hevent, he⟩ => ?_
  swap
  · subst h₄ he
    exact .input hopen (hinput.trans hevent)
  subst h₄
  refine Keeps.bindOp (keeps_connectedKey (.own _)) (fun d₅ key ⟨m, owner, _, h₅⟩ => ?_)
    fun d₅ e ⟨m, he, h₅⟩ => ?_
  · subst h₅
    exact keeps_cleared hopen (hinput.trans hevent) (List.suffix_refl _) (hopen.idle.cons rfl).unsent
  · subst he h₅
    exact .wallet hopen (hinput.trans hevent)

theorem keeps_append_decided {kind : EventKind} {metadata : Metadata} :
    Keeps (hearing MaySend)
      (fun d' (r : Except ClientError Event) => Decided c (.append p kind metadata) d' (failure? r))
      (c.append p kind metadata).run ([] : Dialogue σ) := by
  unfold append
  refine Keeps.bindOp keeps_checkNetwork_calm (fun d₁ _ ⟨_, hnet⟩ => ?_)
    fun d₁ e ⟨_, active, hrefused, he⟩ => he ▸ .network hrefused
  by_cases hkind : kind = .register
  · rw [if_pos hkind]
    exact .input (.checked hnet) (if_pos hkind)
  rw [if_neg hkind]
  have hinput : (Operation.append p kind metadata).inputFault? = failure? (Event.check ⟨p, kind, 0, metadata⟩) :=
    if_neg hkind
  refine Keeps.bindOp (keeps_checked_fault _) (fun d₂ draft ⟨h₂, hevent⟩ => ?_) fun d₂ e ⟨h₂, i, hevent, he⟩ => ?_
  swap
  · subst h₂ he
    exact .input (.checked hnet) (hinput.trans hevent)
  subst h₂
  refine Keeps.bindOp (keeps_connectedKey (.own _)) (fun d₃ key ⟨m, actor, _, h₃⟩ => ?_)
    fun d₃ e ⟨m, he, h₃⟩ => ?_
  swap
  · subst he h₃
    exact .wallet (.checked hnet) (hinput.trans hevent)
  have hidle : Idle d₃ := h₃ ▸ (hnet.idle idle_nil).cons rfl
  refine Keeps.bindOp (keeps_registeredTime_unsent hidle) (fun d₄ last ⟨hs₄, hunsent, _⟩ => ?_)
    fun d₄ e ⟨hs₄, hunsent, hearly⟩ => ?_
  · refine Keeps.bindRun (M := fun d₅ now => ∃ n, d₅ = ⟨.own .clock, now, n⟩ :: d₄)
      (keeps_own (.own _) fun _ n => ⟨n, rfl⟩) fun d₅ now ⟨n, h₅⟩ => ?_
    subst h₅
    exact keeps_cleared (.checked hnet) (hinput.trans hevent) (h₃ ▸ hs₄.trans (List.suffix_cons _ _)) (hunsent.cons rfl)
  · exact .cleared (.checked hnet) (hinput.trans hevent) (h₃ ▸ hs₄) (settled_unsubmitted hunsent.submissions e)
      fun e' he' => by cases he'; exact hearly e rfl

/-! ## Whole operations -/

theorem Decided.settled {failure : Option ClientError} (h : Decided c op d failure) : Settled d failure := by
  cases h with
  | network hrefused => exact settled_unsubmitted (hrefused.idle idle_nil).unsent.submissions _
  | input hopen hinput => exact settled_unsubmitted hopen.idle.unsent.submissions _
  | wallet hopen hinput => exact settled_unsubmitted (hopen.idle.unsent.cons rfl).submissions _
  | cleared hopen hinput hd hsettled hearly => exact hsettled

theorem Decided.early {e : ClientError} (h : Decided c op d (some e)) (hearly : e.isEarly = true) : Idle d := by
  cases h with
  | network hrefused => exact hrefused.idle idle_nil
  | input hopen hinput => exact hopen.idle
  | wallet hopen hinput => exact hopen.idle.cons rfl
  | cleared hopen hinput hd hsettled hidle => exact hidle e rfl hearly

open Rehearsal (Result ofClient)

/-- The failures in a result: the operation's own, or those among the items of a stream. -/
def failuresOf : Result → List ClientError
  | .error (.client e) => [e]
  | .ok (.items items _) => items.filterMap failure?
  | _ => []

/-- How an operation has ended after its dialogue. -/
structure Exit (c : Client) (op : Operation) (d : Dialogue σ) (r : Result) : Prop where
  decided : op.writes = true → ∃ failure, Decided c op d failure ∧
    match failure with
    | none => ∃ v, r = .ok v
    | some e => r = .error (.client e)
  early : ∀ e ∈ failuresOf r, e.isEarly = true → Idle d

theorem keeps_exit_of_decided {β : Type} {f : β → Rehearsal.Value} {x : Op β}
    (h : Keeps (hearing MaySend) (fun d' r => Decided c op d' (failure? r)) x.run d)
    (hf : ∀ b, failuresOf (.ok (f b)) = []) : Keeps (hearing MaySend) (Exit c op) (ofClient f x) d := by
  refine keeps_ofClient h (fun d' b hd => ⟨fun _ => ⟨none, hd, f b, rfl⟩, fun e he => ?_⟩)
    fun d' e hd => ⟨fun _ => ⟨some e, hd, rfl⟩, fun e' he' => ?_⟩
  · rw [hf b] at he
    cases he
  · obtain rfl := List.mem_singleton.1 he'
    exact hd.early

theorem keeps_exit_of_read {β : Type} {f : β → Rehearsal.Value} {x : Op β} (hop : op.writes = false)
    {ends : Dialogue σ → Except ClientError β → Prop} (h : Keeps (reading c p) ends x.run [])
    (hearly : ∀ d e, ends d (.error e) → e.isEarly = true → Idle d) (hf : ∀ b, failuresOf (.ok (f b)) = []) :
    Keeps (hearing MaySend) (Exit c op) (ofClient f x) ([] : Dialogue σ) := by
  have hread : ¬ op.writes = true := by rw [hop]; decide
  refine keeps_ofClient (keeps_unsent h (fun _ _ h => h.isCalm) unsent_nil)
    (fun d b _ => ⟨fun h => absurd h hread, fun e he => ?_⟩)
    fun d e ⟨hend, _⟩ => ⟨fun h => absurd h hread, fun e' he' => ?_⟩
  · rw [hf b] at he
    cases he
  · obtain rfl := List.mem_singleton.1 he'
    exact hearly d e' hend

/-- **What an operation sends and how it ends**, whatever is answered. -/
theorem keeps_run_exit (c : Client) (op : Operation) :
    Keeps (hearing MaySend) (Exit c op) (op.run c) ([] : Dialogue σ) := by
  cases op with
  | register details => exact keeps_exit_of_decided keeps_register_decided fun _ => rfl
  | append p kind metadata => exact keeps_exit_of_decided keeps_append_decided fun _ => rfl
  | getProduct p =>
    exact keeps_exit_of_read rfl keeps_getProduct (fun _ _ h hearly => h.2.early hearly idle_nil) fun _ => rfl
  | getHistory p =>
    exact keeps_exit_of_read rfl keeps_getHistory (fun _ _ h hearly => h.2.early hearly idle_nil) fun _ => rfl
  | getPage p offset limit =>
    exact keeps_exit_of_read rfl keeps_getPage (fun _ _ h hearly => h.early hearly idle_nil) fun _ => rfl
  | stream p count =>
    refine Keeps.bind (keeps_unsent (keeps_stream count) (fun _ _ h => h.isCalm) unsent_nil)
      fun d' r ⟨⟨_, hidle⟩, _⟩ => ⟨fun h => (by cases h), fun e he hearly => ?_⟩
    obtain ⟨item, hitem, hfail⟩ := List.mem_filterMap.1 he
    cases item with
    | ok event => cases hfail
    | error e' =>
      cases hfail
      exact hidle e hitem hearly idle_nil
  | ping =>
    refine keeps_ofClient (x := c.ping) (M := fun _ r => Late (failure? r)) ?_
      (fun _ _ _ => ⟨fun h => (by cases h), fun _ he => by cases he⟩)
      fun _ e hlate => ⟨fun h => (by cases h), fun e' he' => ?_⟩
    · refine Keeps.bindRun (M := fun _ _ => True) (keeps_away (.away rfl rfl) fun _ _ => trivial) fun d' r _ =>
        (keeps_accept (fun _ _ => .own _) none r).mono fun _ b ⟨_, hb⟩ => ?_
      subst hb
      cases r with
      | ok a => exact fun _ h => by cases h
      | error f => exact .some (not_early_failureOf none f)
    · obtain rfl := List.mem_singleton.1 he'
      rw [hlate e' rfl]
      exact fun h => by cases h

end Client

end SupplyTrail
