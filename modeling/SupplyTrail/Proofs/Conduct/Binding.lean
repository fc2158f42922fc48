import SupplyTrail.Proofs.Conduct.Exits
/-!
# Binding — an operation keeps to its client's network

What an operation sends goes to the client's own node, and what it calls or signs is for the client's own contract and
network.  A bound client looks at the active network before anything else: where another one is active, the operation
ends there (`Opens`).  A failure for a changed network always names a network that the operation was told of.
-/
namespace SupplyTrail.Client

open Activity
open Rehearsal (Result ofClient)

variable {σ α β : Type} {c : Client} {op : Operation} {p : ProductId} {d d' : Dialogue σ}

/-! ## Where questions go -/

/-- The invocation calls the client's own contract on the client's own network. -/
structure Owns (c : Client) (i : Invocation) : Prop where
  contract : i.call.contractId = c.endpoint.contractId
  network : i.passphrase = c.endpoint.network.passphrase

/-- What is asked after a dialogue goes to the client's own endpoint; what is submitted was just signed for it. -/
inductive Aimed (c : Client) : Dialogue σ → Question → Prop
  | own {d : Dialogue σ} (q : Own) : Aimed c d (.own q)
  | query {d : Dialogue σ} {call : ContractCall} (h : call.contractId = c.endpoint.contractId) :
      Aimed c d (.away (.query c.endpoint.rpcUrl call))
  | fetch {d : Dialogue σ} {t : Ticket} {call : ContractCall} (h : call.contractId = c.endpoint.contractId) :
      Aimed c d (.away (.fetch t c.endpoint.rpcUrl call))
  | settle {d : Dialogue σ} (first : Ticket) (others : List Ticket) : Aimed c d (.away (.settle first others))
  | health {d : Dialogue σ} : Aimed c d (.away (.health c.endpoint.rpcUrl))
  | sign {d : Dialogue σ} {account : Account} {i : Invocation} (h : Owns c i) :
      Aimed c d (.away (.sign account c.endpoint.network i.toBytes))
  | submit {d : Dialogue σ} {account : Account} {i : Invocation} {e : Envelope} {m : σ} (h : Owns c i) :
      Aimed c (⟨.away (.sign account c.endpoint.network i.toBytes), .ok e, m⟩ :: d)
        (.away (.submit c.endpoint.rpcUrl e))

theorem Aimed.fetched {t : Ticket} {url : String} {call : ContractCall} (h : Aimed c d (.away (.fetch t url call))) :
    url = c.endpoint.rpcUrl ∧ call.contractId = c.endpoint.contractId := by
  cases h with
  | fetch h => exact ⟨rfl, h⟩

theorem Drafted.contractId {time : UInt64} {call : ContractCall} (h : Drafted c op p time call d) :
    call.contractId = c.endpoint.contractId := by
  cases h with
  | register hnet hcheck hevent => rfl
  | append hkind hevent hseen => rfl

theorem Invoked.owns {time : UInt64} {i : Invocation} {signer : Account} (h : Invoked c op p time i signer d) :
    Owns c i := by
  cases h with
  | mk hdraft => exact ⟨hdraft.contractId, rfl⟩

/-- **Whatever an operation may ask goes to its client's own endpoint.** -/
theorem Warrant.aimed {q : Question} (h : Warrant c op d q) : Aimed c d q := by
  cases h with
  | health h =>
    subst h
    exact .health
  | read hop h =>
    cases h with
    | note line => exact .own _
    | activeNetwork => exact .own _
    | record => exact .query rfl
    | ids => exact .query rfl
    | event hids ht => exact .fetch rfl
    | settle hids hsent => exact .settle _ _
    | remember hread => exact .own _
  | write h =>
    cases h with
    | note line => exact .own _
    | activeNetwork => exact .own _
    | clock => exact .own _
    | account => exact .own _
    | nonce => exact .own _
    | lastSeen p => exact .own _
    | sign hinv => exact .sign hinv.owns
    | submit hsigned =>
      cases hsigned with
      | mk hinv => exact .submit hinv.owns
    | remember hconf => exact .own _

/-! ## The check that comes first -/

/-- An operation that looks at the active network first: every one but a ping and a stream of which nothing is taken. -/
def Operation.checksNetwork : Operation → Bool
  | .register _ | .append _ _ _ | .getProduct _ | .getHistory _ | .getPage _ _ _ => true
  | .stream _ count => count != 0
  | .ping => false

/-- How an operation fails that starts while another network is active.  A stream delivers its failure as an item. -/
def Operation.refusal (c : Client) (active : Network) : Operation → Result
  | .stream _ count => .ok (.items [.error (.networkChanged c.endpoint.network active)] (decide (count ≠ 1)))
  | .register _ | .append _ _ _ | .getProduct _ | .getHistory _ | .getPage _ _ _ | .ping =>
    .error (.client (.networkChanged c.endpoint.network active))

/-- What is logged when a call is refused for the active network. -/
def warning (c : Client) (active : Network) : LogLine :=
  ⟨.warn, s!"Rejecting call on client bound to {c.endpoint.network.name} while {active.name} is active"⟩

/-- An activity asks for the active network first.  If it is another than the client's, all that follows is a line in
the log and the refusal. -/
def Opens (c : Client) (refusal : Network → α) (x : Run α) : Prop :=
  ∃ rest, x = .ask (.own .activeNetwork) fun active =>
    if active ≠ c.endpoint.network then .ask (.own (.note (c.warning active))) fun _ => .done (refusal active) else rest

theorem Opens.bind {refusal : Network → α} {x : Run α} (h : Opens c refusal x) {f : α → Run β} {refusal' : Network → β}
    (hf : ∀ active, f (refusal active) = .done (refusal' active)) : Opens c refusal' (x >>= f) := by
  obtain ⟨rest, rfl⟩ := h
  refine ⟨rest >>= f, congrArg (Activity.ask (S := questions) (.own .activeNetwork)) (funext fun active => ?_)⟩
  by_cases hne : active ≠ c.endpoint.network
  · simp only [if_pos hne]
    exact congrArg (Activity.ask (S := questions) (.own (.note (c.warning active)))) (funext fun _ => hf active)
  · simp only [if_neg hne]
    rfl

/-- The refusal of an operation with an error. -/
abbrev refused {α : Type} (c : Client) (active : Network) : Except ClientError α :=
  .error (.networkChanged c.endpoint.network active)

theorem Opens.bindOp {x : Op α} (h : Opens c c.refused x.run) (f : α → Op β) : Opens c c.refused (x >>= f).run := by
  rw [ExceptT.run_bind]
  exact h.bind fun _ => rfl

theorem opens_checkNetwork (hbound : c.isBound = true) : Opens c c.refused c.checkNetwork.run := by
  refine ⟨.done (.ok ()), ?_⟩
  unfold checkNetwork
  rw [if_pos hbound]
  refine congrArg (Activity.ask (S := questions) (.own .activeNetwork)) (funext fun active => ?_)
  by_cases hne : active ≠ c.endpoint.network
  · simp only [andThen, Function.comp_apply, ExceptT.bindCont, if_pos hne]
    rfl
  · simp only [andThen, Function.comp_apply, ExceptT.bindCont, if_neg hne]
    rfl

theorem opens_getProduct (hbound : c.isBound = true) : Opens c c.refused (c.getProduct p).run :=
  (opens_checkNetwork hbound).bindOp _

theorem opens_trailHead (hbound : c.isBound = true) : Opens c c.refused (c.trailHead p).run :=
  (opens_getProduct hbound).bindOp _

theorem opens_getHistory (hbound : c.isBound = true) : Opens c c.refused (c.getHistory p).run :=
  (opens_trailHead hbound).bindOp _

theorem Opens.ofClient {x : Op α} (h : Opens c c.refused x.run) (f : α → Rehearsal.Value) :
    Opens c (fun active => .error (.client (.networkChanged c.endpoint.network active))) (ofClient f x) :=
  h.bind fun _ => rfl

/-- **A bound client's operation looks at the active network first.** -/
theorem opens_run (hbound : c.isBound = true) (hop : op.checksNetwork = true) :
    Opens c (fun active => op.refusal c active) (op.run c) := by
  cases op with
  | register details => exact ((opens_checkNetwork hbound).bindOp _).ofClient _
  | append product kind metadata => exact ((opens_checkNetwork hbound).bindOp _).ofClient _
  | getProduct product => exact (opens_getProduct hbound).ofClient _
  | getHistory product => exact (opens_getHistory hbound).ofClient _
  | getPage product offset limit => exact ((opens_getHistory hbound).bindOp _).ofClient _
  | stream product count =>
    cases count with
    | zero => cases hop
    | succ count =>
      have hstream : Opens c (fun active => ([.error (.networkChanged c.endpoint.network active)], decide (count ≠ 0)))
          (c.stream product (count + 1)) := (opens_trailHead hbound).bind fun _ => rfl
      refine hstream.bind fun active => ?_
      simp only [Operation.refusal, ne_eq, Nat.add_eq_right]
      rfl
  | ping => cases hop

/-- Where an operation stands that met another active network than its client's: the line in the log is due, or it has
failed. -/
inductive Refused (c : Client) (op : Operation) (active : Network) : Run Result → Dialogue σ → Prop
  | noting {m : σ} : Refused c op active (.ask (.own (.note (c.warning active))) fun _ => .done (op.refusal c active))
      [⟨.own .activeNetwork, active, m⟩]
  | failed {m n : σ} : Refused c op active (.done (op.refusal c active))
      [⟨.own (.note (c.warning active)), (), n⟩, ⟨.own .activeNetwork, active, m⟩]

/-- **What was told first decides**: an operation was told nothing yet, or its first answer was the active network and
it stands refused unless that is its client's. -/
theorem refused_of_goes (hbound : c.isBound = true) (hop : op.checksNetwork = true) {y : Run Result}
    (h : Goes (hearing fun _ _ => True) (op.run c) ([] : Dialogue σ) y d) :
    d = [] ∨ ∃ active m, d.getLast? = some ⟨.own .activeNetwork, active, m⟩ ∧
      (active ≠ c.endpoint.network → Refused c op active y d) := by
  obtain ⟨rest, hrun⟩ : Opens c (fun active => op.refusal c active) (op.run c) := opens_run hbound hop
  rw [hrun] at h
  cases h with
  | refl => exact .inl rfl
  | ask active hm h =>
    obtain ⟨m, rfl⟩ := hm
    refine .inr ⟨active, m, ?_, fun hne => ?_⟩
    · obtain ⟨l, rfl⟩ := suffix_of_goes h
      exact List.getLast?_concat
    · simp only [if_pos hne] at h
      cases h with
      | refl => exact .noting
      | ask _ hn h =>
        obtain ⟨n, rfl⟩ := hn
        cases h
        exact .failed

/-! ## What a changed network shows -/

/-- A failure for a changed network names the client's own network and another one, which the operation was told is the
active one. -/
def Warned (c : Client) (d : Dialogue σ) (failure : Option ClientError) : Prop :=
  ∀ bound active, failure = some (.networkChanged bound active) →
    bound = c.endpoint.network ∧ active ≠ c.endpoint.network ∧ Told d (.own .activeNetwork) active

theorem warned_none : Warned c d none := fun _ _ h => by cases h

theorem Late.warned {failure : Option ClientError} (h : Late failure) : Warned c d failure := fun _ _ he => by
  cases h _ he

theorem NetworkRefused.warned {active : Network} (h : NetworkRefused c active d d') :
    Warned c d' (some (.networkChanged c.endpoint.network active)) := by
  intro bound active' he
  cases he
  cases h with
  | mk hbound hne => exact ⟨rfl, hne, (told_head _ _ _ _).mono (List.suffix_cons _ _)⟩

theorem ReadFault.warned {e : ClientError} (h : ReadFault c p d e) : Warned c d (some e) := by
  cases h with
  | network hbound ht hne =>
    intro bound active he
    cases he
    exact ⟨rfl, hne, ht⟩
  | recordRefused ht => exact (Late.some (not_early_failureOf _ _)).warned
  | recordMalformed ht hd => exact (Late.some rfl).warned
  | idsRefused ht => exact (Late.some (not_early_failureOf _ _)).warned
  | idsMalformed ht hd => exact (Late.some rfl).warned
  | event hids ht he => exact (Late.some he.not_early).warned
  | unregistered hread hfirst hkind => exact (Late.some rfl).warned

theorem Streamed.warned {count : Nat} {items : List Item} {e : ClientError} (h : Streamed c p d count items)
    (he : .error e ∈ items) : Warned c d (some e) := by
  cases h with
  | nothing => cases he
  | fault hfault =>
    obtain rfl : e = _ := by simpa using he
    exact hfault.warned
  | trail hrec hids hitems =>
    obtain ⟨t, hread⟩ := eventRead_of_items hitems (by simpa using he : .error e ∈ _)
    exact (Late.some hread.not_early).warned

theorem warned_invalidInput (i : InputError) : Warned c d (some (.invalidInput i)) := fun _ _ h => by cases h

/-- A submission and what is remembered of it end without a changed network. -/
theorem keeps_sent_warned {function : String} {args : Json} {time : UInt64} {level : Level} {line : Receipt → String}
    {a : α} (hunsent : Unsent d) :
    Keeps (hearing MaySend) (fun d' (r : Except ClientError α) => Warned c d' (failure? r))
      ((c.submit function args p) >>= fun receipt => (liftM (note level (line receipt)) : Op Unit) >>= fun _ =>
        (liftM (own (.remember p time)) : Op Unit) >>= fun _ => (pure a : Op α)).run d := by
  refine Keeps.bindOp (keeps_submit_once hunsent) (fun d₁ receipt _ => ?_) fun d₁ e ⟨_, _, hlate⟩ => hlate.warned
  refine keeps_remembered.mono fun d₂ r ⟨⟨_, hr⟩, _⟩ => ?_
  subst hr
  exact warned_none

theorem keeps_register_warned {details : ProductDetails} :
    Keeps (hearing MaySend) (fun d' (r : Except ClientError ProductId) => Warned c d' (failure? r))
      (c.register details).run ([] : Dialogue σ) := by
  unfold register
  refine Keeps.bindOp keeps_checkNetwork_calm (fun d₁ _ ⟨_, hnet⟩ => ?_)
    fun d₁ e ⟨_, active, hrefused, he⟩ => he ▸ hrefused.warned
  refine Keeps.bindOp (keeps_checked_fault details.check) (fun d₂ _ ⟨h₂, _⟩ => ?_)
    fun d₂ e ⟨_, i, _, he⟩ => he ▸ warned_invalidInput i
  refine Keeps.bindRun (M := fun d₃ time => ∃ n, d₃ = ⟨.own .clock, time, n⟩ :: d₂)
    (keeps_own (.own _) fun _ n => ⟨n, rfl⟩) fun d₃ time ⟨n, h₃⟩ => ?_
  refine Keeps.bindOp (keeps_checked_fault _) (fun d₄ event ⟨h₄, _⟩ => ?_)
    fun d₄ e ⟨_, i, _, he⟩ => he ▸ warned_invalidInput i
  refine Keeps.bindOp (keeps_connectedKey (.own _)) (fun d₅ key ⟨m, owner, _, h₅⟩ => ?_)
    fun d₅ e ⟨m, he, _⟩ => he ▸ (Late.some rfl).warned
  subst h₅ h₄ h₃ h₂
  exact keeps_sent_warned (((hnet.idle idle_nil).cons rfl).cons rfl).unsent

theorem keeps_registeredTime_warned (hd : Idle d) :
    Keeps (hearing MaySend) (fun d' (r : Except ClientError UInt64) => Unsent d' ∧ Warned c d' (failure? r))
      (c.registeredTime p).run d := by
  unfold registeredTime
  refine Keeps.bindRun (M := fun d' a => ∃ m, d' = ⟨.own (.lastSeen p), a, m⟩ :: d)
    (keeps_own (.own _) fun _ m => ⟨m, rfl⟩) fun d₁ a ⟨m, h₁⟩ => ?_
  have hd₁ : Idle d₁ := h₁ ▸ hd.cons rfl
  cases a with
  | some time => exact ⟨hd₁.unsent, warned_none⟩
  | none =>
    exact Keeps.bindOp (keeps_unsent (keeps_getHistory (c := c) (p := p)) (fun _ _ h => h.isCalm) hd₁.unsent)
      (fun d₂ h ⟨_, hunsent⟩ => ⟨hunsent, warned_none⟩)
      fun d₂ e ⟨⟨_, hfailed⟩, hunsent⟩ => ⟨hunsent, hfailed.fault.warned⟩

theorem keeps_append_warned {kind : EventKind} {metadata : Metadata} :
    Keeps (hearing MaySend) (fun d' (r : Except ClientError Event) => Warned c d' (failure? r))
      (c.append p kind metadata).run ([] : Dialogue σ) := by
  unfold append
  refine Keeps.bindOp keeps_checkNetwork_calm (fun d₁ _ ⟨_, hnet⟩ => ?_)
    fun d₁ e ⟨_, active, hrefused, he⟩ => he ▸ hrefused.warned
  by_cases hkind : kind = .register
  · rw [if_pos hkind]
    exact warned_invalidInput _
  rw [if_neg hkind]
  refine Keeps.bindOp (keeps_checked_fault _) (fun d₂ draft ⟨h₂, _⟩ => ?_)
    fun d₂ e ⟨_, i, _, he⟩ => he ▸ warned_invalidInput i
  refine Keeps.bindOp (keeps_connectedKey (.own _)) (fun d₃ key ⟨m, actor, _, h₃⟩ => ?_)
    fun d₃ e ⟨m, he, _⟩ => he ▸ (Late.some rfl).warned
  have hidle : Idle d₃ := by
    subst h₃ h₂
    exact (hnet.idle idle_nil).cons rfl
  refine Keeps.bindOp (keeps_registeredTime_warned hidle) (fun d₄ last ⟨hunsent, _⟩ => ?_) fun d₄ e ⟨_, he⟩ => he
  refine Keeps.bindRun (M := fun d₅ now => ∃ n, d₅ = ⟨.own .clock, now, n⟩ :: d₄)
    (keeps_own (.own _) fun _ n => ⟨n, rfl⟩) fun d₅ now ⟨n, h₅⟩ => ?_
  subst h₅
  exact keeps_sent_warned (hunsent.cons rfl)

/-- The failures of an operation that reads are those of its activity. -/
theorem keeps_warned_of_read {f : β → Rehearsal.Value} {x : Op β} {ends : Dialogue σ → Except ClientError β → Prop}
    (h : Keeps (reading c p) ends x.run []) (hfault : ∀ d e, ends d (.error e) → ReadFault c p d e)
    (hf : ∀ b, failuresOf (.ok (f b)) = []) :
    Keeps (hearing MaySend) (fun d r => ∀ e ∈ failuresOf r, Warned c d (some e)) (ofClient f x) ([] : Dialogue σ) := by
  refine keeps_ofClient (keeps_unsent h (fun _ _ h => h.isCalm) unsent_nil) (fun d b _ e he => ?_)
    fun d e ⟨hend, _⟩ e' he' => ?_
  · rw [hf b] at he
    cases he
  · obtain rfl := List.mem_singleton.1 he'
    exact (hfault d e' hend).warned

/-- The failure of an operation that writes is that of its activity. -/
theorem keeps_warned_of_write {f : β → Rehearsal.Value} {x : Op β}
    (h : Keeps (hearing MaySend) (fun d' r => Warned c d' (failure? r)) x.run d)
    (hf : ∀ b, failuresOf (.ok (f b)) = []) :
    Keeps (hearing MaySend) (fun d r => ∀ e ∈ failuresOf r, Warned c d (some e)) (ofClient f x) d := by
  refine keeps_ofClient h (fun d b _ e he => ?_) fun d e hwarned e' he' => ?_
  · rw [hf b] at he
    cases he
  · obtain rfl := List.mem_singleton.1 he'
    exact hwarned

/-- **An operation fails for a changed network only if it was told of one.** -/
theorem keeps_run_warned (c : Client) (op : Operation) :
    Keeps (hearing MaySend) (fun d r => ∀ e ∈ failuresOf r, Warned c d (some e)) (op.run c) ([] : Dialogue σ) := by
  cases op with
  | register details => exact keeps_warned_of_write keeps_register_warned fun _ => rfl
  | append p kind metadata => exact keeps_warned_of_write keeps_append_warned fun _ => rfl
  | getProduct p => exact keeps_warned_of_read keeps_getProduct (fun _ _ h => h.2.fault) fun _ => rfl
  | getHistory p => exact keeps_warned_of_read keeps_getHistory (fun _ _ h => h.2.fault) fun _ => rfl
  | getPage p offset limit => exact keeps_warned_of_read keeps_getPage (fun _ _ h => h.fault) fun _ => rfl
  | stream p count =>
    refine Keeps.bind (keeps_unsent (keeps_stream count) (fun _ _ h => h.isCalm) unsent_nil)
      fun d' r ⟨⟨hstream, _⟩, _⟩ e he => ?_
    obtain ⟨item, hitem, hfail⟩ := List.mem_filterMap.1 he
    cases item with
    | ok event => cases hfail
    | error e' =>
      cases hfail
      exact hstream.warned hitem
  | ping =>
    refine keeps_warned_of_write ?_ fun _ => rfl
    refine Keeps.bindRun (M := fun _ _ => True) (keeps_away (.away rfl rfl) fun _ _ => trivial) fun d' r _ =>
      (keeps_accept (fun _ _ => .own _) none r).mono fun d'' b ⟨_, hb⟩ => ?_
    subst hb
    cases r with
    | ok a => exact warned_none
    | error f => exact (Late.some (not_early_failureOf none f)).warned

end SupplyTrail.Client
