import SupplyTrail.Proofs.Conduct.Reading
/-!
# Writing — the conduct of operations that write

An operation that writes submits at most one envelope, whose invocation was drafted and signed in its own dialogue, and
succeeds only if the ledger confirmed it.  `keeps_run` puts the conduct of all operations together.
-/
namespace SupplyTrail

/-- A checked event is the event that was checked, and its time plays no part. -/
theorem Event.check_ok {e f : Event} (h : Event.check e = .ok f) (time : UInt64) :
    f = e ∧ Event.check { e with time } = .ok { e with time } := by
  unfold Event.check at h ⊢
  cases hid : e.product.check with
  | error err => rw [hid] at h; cases h
  | ok _ =>
    cases hmeta : checkMetadata e.metadata with
    | error err => rw [hid, hmeta] at h; cases h
    | ok _ =>
      rw [hid, hmeta] at h
      cases h
      exact ⟨rfl, rfl⟩

namespace Client

open Activity

variable {σ α : Type} {c : Client} {op : Operation} {p : ProductId} {d d' : Dialogue σ}

abbrev operating (c : Client) (op : Operation) : Rules questions (Dialogue σ) := hearing (Warrant c op)

theorem keeps_reading {ends : Dialogue σ → α → Prop} {x : Run α} (hop : op.readsOf = some p)
    (h : Keeps (reading c p) ends x d) : Keeps (operating c op) ends x d :=
  h.weaken (fun _ _ hask => .read hop hask) fun _ _ _ _ h => h

theorem keeps_connectedKey {asks : Dialogue σ → Question → Prop} (hask : asks d (.own .account)) :
    Keeps (hearing asks)
      (fun d' (r : Except ClientError String) => ∃ m,
        match r with
        | .ok key => ∃ account, key = account.publicKey ∧ d' = ⟨.own .account, some account, m⟩ :: d
        | .error e => e = .notConnected ∧ d' = ⟨.own .account, none, m⟩ :: d)
      connectedKey.run d := by
  unfold connectedKey
  refine Keeps.bindRun (M := fun d' a => ∃ m, d' = ⟨.own .account, a, m⟩ :: d) (keeps_own hask fun _ m => ⟨m, rfl⟩)
    fun d' a ⟨m, hd'⟩ => ?_
  cases a with
  | none => exact ⟨m, rfl, hd'⟩
  | some account => exact ⟨m, account, rfl, hd'⟩

/-- The signature of an invocation that was drafted, by the account that is connected then. -/
theorem keeps_signature {time : UInt64} {call : ContractCall} {source : Account} {nonce : UInt64} {n k : σ}
    (hdraft : Drafted c op p time call d) :
    Keeps (operating c op)
      (fun d' r => ∀ e, r = .ok e →
        Signed c op p time (.make call source.publicKey c.endpoint.network nonce) e d')
      (signature c.endpoint.network (Invocation.make call source.publicKey c.endpoint.network nonce).toBytes)
      (⟨.own .nonce, nonce, n⟩ :: ⟨.own .account, some source, k⟩ :: d) := by
  unfold signature
  refine Keeps.bind
    (M := fun d' a => ∃ m, d' =
      ⟨.own .account, a, m⟩ :: ⟨.own .nonce, nonce, n⟩ :: ⟨.own .account, some source, k⟩ :: d)
    (keeps_own (.write .account) fun _ m => ⟨m, rfl⟩) fun d' a ⟨m, hd'⟩ => ?_
  cases a with
  | none => exact fun _ h => by cases h
  | some signer =>
    subst hd'
    have hinv : Invoked c op p time (.make call source.publicKey c.endpoint.network nonce) signer
        (⟨.own .account, some signer, m⟩ :: ⟨.own .nonce, nonce, n⟩ :: ⟨.own .account, some source, k⟩ :: d) :=
      .mk hdraft
    exact keeps_away (.write (.sign hinv)) fun a m' e ha => by subst ha; exact .mk hinv

/-- **A drafted call is submitted once**, and succeeds only if the ledger confirmed it. -/
theorem keeps_submit {time : UInt64} {function : String} {args : Json} {product : ProductId}
    (hdraft : Drafted c op p time (c.call function args) d) :
    Keeps (operating c op)
      (fun d' (r : Except ClientError Receipt) => ∀ receipt, r = .ok receipt → ∃ i, Confirmed c op p time i d')
      (c.submit function args product).run d := by
  unfold submit
  refine Keeps.bindOp (keeps_connectedKey (.write .account)) (fun d₁ key h₁ => ?_) fun _ _ _ _ h => by cases h
  obtain ⟨k, source, rfl, rfl⟩ := h₁
  refine Keeps.bindRun
    (M := fun d₂ nonce => ∃ n, d₂ = ⟨.own .nonce, nonce, n⟩ :: ⟨.own .account, some source, k⟩ :: d)
    (keeps_own (.write .nonce) fun _ n => ⟨n, rfl⟩) fun d₂ nonce ⟨n, h₂⟩ => ?_
  subst h₂
  refine Keeps.bindRun (keeps_signature hdraft) fun d₃ r h₃ => ?_
  match r with
  | .error error => cases error <;> exact fun _ h => by cases h
  | .ok e =>
    have hsigned := h₃ e rfl
    refine Keeps.bindRun (M := fun d₄ r => ∃ m, d₄ = ⟨.away (.submit c.endpoint.rpcUrl e), r, m⟩ :: d₃)
      (keeps_away (.write (.submit hsigned)) fun _ m => ⟨m, rfl⟩) fun d₄ r ⟨m, h₄⟩ => ?_
    cases r with
    | ok receipt => exact fun _ _ => h₄ ▸ ⟨_, Confirmed.mk hsigned⟩
    | error f =>
      exact (keeps_accept (fun _ line => .write (.note line)) (some product) (.error f)).mono
        fun _ _ ⟨_, hr⟩ _ h => by rw [h] at hr; cases hr

/-- What remains after the confirmation: a line in the log, and the time is remembered. -/
theorem keeps_recorded {time : UInt64} {i : Invocation} {line : String} {a : α}
    (h : Confirmed c op p time i d) :
    Keeps (operating c op) (fun d' (r : Except ClientError α) => r = .ok a ∧ Recorded c op p time i d')
      ((liftM (note .info line) : Op Unit) >>= fun _ => (liftM (own (.remember p time)) : Op Unit) >>= fun _ =>
        (pure a : Op α)).run d := by
  refine Keeps.bindRun (M := fun d₁ _ => ∃ n, d₁ = ⟨.own (.note ⟨.info, line⟩), (), n⟩ :: d)
    (keeps_own (.write (.note _)) fun _ n => ⟨n, rfl⟩) fun d₁ _ ⟨n, h₁⟩ => ?_
  subst h₁
  refine Keeps.bindRun
    (M := fun d₂ _ => ∃ m, d₂ = ⟨.own (.remember p time), (), m⟩ :: ⟨.own (.note ⟨.info, line⟩), (), n⟩ :: d)
    (keeps_own (.write (.remember h)) fun _ m => ⟨m, rfl⟩) fun d₂ _ ⟨m, h₂⟩ => ?_
  exact ⟨rfl, h₂ ▸ .mk h⟩

theorem keeps_checkNetwork_writing :
    Keeps (operating c op) (fun d' (r : Except ClientError Unit) => r = .ok () → NetworkChecked c d d')
      c.checkNetwork.run d :=
  (keeps_checkNetwork (fun _ => .write .activeNetwork) fun _ line => .write (.note line)).mono
    fun _ _ ⟨_, hr⟩ hok => by subst hok; exact hr

theorem keeps_checked {asks : Dialogue σ → Question → Prop} (r : Except InputError α) :
    Keeps (hearing asks) (fun d' b => d' = d ∧ b = r.mapError .invalidInput) (checked r).run d := by
  cases r with
  | ok a => exact ⟨rfl, rfl⟩
  | error e => exact ⟨rfl, rfl⟩

theorem mapError_eq_ok {ε ε' : Type} {f : ε → ε'} {r : Except ε α} {a : α} (h : .ok a = r.mapError f) : r = .ok a := by
  cases r with
  | ok b => simpa [Except.mapError, eq_comm] using h
  | error e => cases h

/-- **Registering**: a success was confirmed by the ledger, for the details that were checked. -/
theorem keeps_register {details : ProductDetails} :
    Keeps (operating c (.register details))
      (fun d' (r : Except ClientError ProductId) => ∀ id, r = .ok id → id = details.id ∧ ∃ time i,
        Recorded c (.register details) details.id time i d')
      (c.register details).run ([] : Dialogue σ) := by
  unfold register
  refine Keeps.bindOp keeps_checkNetwork_writing (fun d₁ _ hnet => ?_) fun _ _ _ _ h => by cases h
  refine Keeps.bindOp (keeps_checked details.check) (fun d₂ _ ⟨h₂, hcheck⟩ => ?_) fun _ _ _ _ h => by cases h
  refine Keeps.bindRun (M := fun d₃ time => ∃ n, d₃ = ⟨.own .clock, time, n⟩ :: d₂)
    (keeps_own (.write .clock) fun _ n => ⟨n, rfl⟩) fun d₃ time ⟨n, h₃⟩ => ?_
  refine Keeps.bindOp (keeps_checked _) (fun d₄ event ⟨h₄, hevent⟩ => ?_) fun _ _ _ _ h => by cases h
  obtain ⟨rfl, hgood⟩ := Event.check_ok (mapError_eq_ok hevent) time
  refine Keeps.bindOp (keeps_connectedKey (.write .account)) (fun d₅ key h₅ => ?_) fun _ _ _ _ h => by cases h
  obtain ⟨m, owner, rfl, rfl⟩ := h₅
  subst h₄ h₃ h₂
  have hdraft : Drafted c (.register details) details.id time
      (c.call "register_product" (registerArgs details owner.publicKey time))
      (⟨.own .account, some owner, m⟩ :: ⟨.own .clock, time, n⟩ :: d₂) :=
    .register (hnet rfl) (mapError_eq_ok hcheck) hgood
  refine Keeps.bindOp (keeps_submit hdraft) (fun d₆ receipt h₆ => ?_) fun _ _ _ _ h => by cases h
  obtain ⟨i, hconf⟩ := h₆ receipt rfl
  exact (keeps_recorded hconf).mono fun d' r ⟨hr, hrec⟩ id hid => by
    rw [hid] at hr
    cases hr
    exact ⟨rfl, time, i, hrec⟩

/-- The latest known time of a product, after its actor was settled. -/
theorem keeps_registeredTime {actor : Account} {m : σ} (hop : op.readsOf = some p) (hnet : NetworkChecked c [] d) :
    Keeps (operating c op)
      (fun d' (r : Except ClientError UInt64) => ∀ last, r = .ok last → SeenAt c p actor last d')
      (c.registeredTime p).run (⟨.own .account, some actor, m⟩ :: d) := by
  unfold registeredTime
  refine Keeps.bindRun
    (M := fun d' a => ∃ n, d' = ⟨.own (.lastSeen p), a, n⟩ :: ⟨.own .account, some actor, m⟩ :: d)
    (keeps_own (.write (.lastSeen p)) fun _ n => ⟨n, rfl⟩) fun d' a ⟨n, hd'⟩ => ?_
  subst hd'
  cases a with
  | some time => exact fun last h => by cases h; exact .cached hnet
  | none =>
    refine Keeps.bindOp (keeps_reading hop keeps_getHistory) (fun d'' h ⟨_, hread⟩ => ?_) fun _ _ _ _ h => by cases h
    obtain ⟨k, mid, rfl, hread⟩ := hread
    exact fun last hlast => by cases hlast; exact .read hnet rfl hread

/-- **Appending**: a success was confirmed by the ledger, and the event has the time that was drafted. -/
theorem keeps_append {kind : EventKind} {metadata : Metadata} :
    Keeps (operating c (.append p kind metadata))
      (fun d' (r : Except ClientError Event) => ∀ e, r = .ok e → ∃ time i, e = ⟨p, kind, time, metadata⟩ ∧
        Recorded c (.append p kind metadata) p time i d')
      (c.append p kind metadata).run ([] : Dialogue σ) := by
  unfold append
  refine Keeps.bindOp keeps_checkNetwork_writing (fun d₁ _ hnet => ?_) fun _ _ _ _ h => by cases h
  by_cases hkind : kind = .register
  · rw [if_pos hkind]
    exact fun _ h => by cases h
  rw [if_neg hkind]
  refine Keeps.bindOp (keeps_checked _) (fun d₂ draft ⟨h₂, hevent⟩ => ?_) fun _ _ _ _ h => by cases h
  refine Keeps.bindOp (keeps_connectedKey (.write .account)) (fun d₃ key h₃ => ?_) fun _ _ _ _ h => by cases h
  obtain ⟨m, actor, rfl, rfl⟩ := h₃
  subst h₂
  refine Keeps.bindOp (keeps_registeredTime rfl (hnet rfl)) (fun d₄ last h₄ => ?_) fun _ _ _ _ h => by cases h
  have hseen := h₄ last rfl
  refine Keeps.bindRun (M := fun d₅ now => ∃ n, d₅ = ⟨.own .clock, now, n⟩ :: d₄)
    (keeps_own (.write .clock) fun _ n => ⟨n, rfl⟩) fun d₅ now ⟨n, h₅⟩ => ?_
  subst h₅
  obtain ⟨rfl, hgood⟩ := Event.check_ok (mapError_eq_ok hevent) (max now last)
  have hdraft : Drafted c (.append p kind metadata) p (max now last)
      (c.call "add_tracking_event" (appendArgs ⟨p, kind, max now last, metadata⟩ actor.publicKey))
      (⟨.own .clock, now, n⟩ :: d₄) :=
    .append hkind hgood hseen
  refine Keeps.bindOp (keeps_submit hdraft) (fun d₆ receipt h₆ => ?_) fun _ _ _ _ h => by cases h
  obtain ⟨i, hconf⟩ := h₆ receipt rfl
  exact (keeps_recorded hconf).mono fun d' r ⟨hr, hrec⟩ e he => by
    rw [he] at hr
    cases hr
    exact ⟨max now last, i, rfl, hrec⟩

/-! ## All operations -/

open Rehearsal (Result ofClient) in
theorem keeps_ofClient {β τ : Type} {R : Rules questions τ} {f : β → Rehearsal.Value} {x : Op β}
    {M : τ → Except ClientError β → Prop} {ends : τ → Result → Prop} {s : τ} (h : Keeps R M x.run s)
    (hok : ∀ t b, M t (.ok b) → ends t (.ok (f b)))
    (herror : ∀ t e, M t (.error e) → ends t (.error (.client e))) : Keeps R ends (ofClient f x) s := by
  unfold ofClient
  refine Keeps.bind h fun t r hr => ?_
  match r with
  | .ok b => exact hok t b hr
  | .error e => exact herror t e hr

/-- **The conduct of a client's operation.**  Whatever its surroundings answer, each question has its grounds in the
dialogue before it, and the result has its grounds in the whole dialogue. -/
theorem keeps_run (c : Client) (op : Operation) :
    Keeps (operating c op) (fun d' r => Upshot c d' op r) (op.run c) ([] : Dialogue σ) := by
  cases op with
  | register details =>
    refine keeps_ofClient keeps_register (fun d' id h => ?_) fun d' e _ => .refused (.inl ⟨details, rfl⟩)
    obtain ⟨rfl, time, i, hrec⟩ := h id rfl
    exact .registered hrec
  | append p kind metadata =>
    refine keeps_ofClient keeps_append (fun d' e h => ?_) fun d' e _ => .refused (.inr ⟨p, kind, metadata, rfl⟩)
    obtain ⟨time, i, rfl, hrec⟩ := h e rfl
    exact .appended hrec
  | getProduct p =>
    exact keeps_ofClient (keeps_reading rfl keeps_getProduct) (fun _ _ _ => .other (.inl ⟨p, rfl⟩))
      fun _ _ _ => .other (.inl ⟨p, rfl⟩)
  | getHistory p =>
    refine keeps_ofClient (keeps_reading rfl keeps_getHistory) (fun d' h ⟨_, m, mid, hd', hread⟩ => ?_)
      fun d' e ⟨_, he⟩ => .noHistory he.fault
    exact .history (hread.mono (hd' ▸ List.suffix_cons _ _))
  | getPage p offset limit =>
    refine keeps_ofClient (keeps_reading rfl keeps_getPage) (fun d' page ⟨h, hpage, hread⟩ => ?_)
      fun d' e he => .noPage he.fault
    exact hpage ▸ .page hread
  | stream p count =>
    exact Keeps.bind (keeps_reading rfl (keeps_stream count)) fun _ _ _ => .other (.inr (.inl ⟨p, count, rfl⟩))
  | ping =>
    refine keeps_ofClient (x := c.ping) (M := fun _ _ => True) ?_ (fun _ _ _ => .other (.inr (.inr rfl)))
      fun _ _ _ => .other (.inr (.inr rfl))
    exact Keeps.bindRun (M := fun _ _ => True) (keeps_away (.health rfl) fun _ _ => trivial) fun d' r _ =>
      (keeps_accept (fun _ line => .write (.note line)) none r).mono fun _ _ _ => trivial

/-- What is to be signed was made an invocation of a drafted call, for the account that is to sign it. -/
theorem Warrant.signing {account : Account} {network : Network} {payload : List UInt8}
    (h : Warrant c op d (.away (.sign account network payload))) :
    ∃ p time i, payload = Invocation.toBytes i ∧ network = c.endpoint.network ∧ Invoked c op p time i account d := by
  cases h with
  | health h => cases h
  | read hop h => cases h
  | write h =>
    cases h with
    | sign h => exact ⟨_, _, _, rfl, rfl, h⟩

theorem Warrant.signed {url : String} {e : Envelope} (h : Warrant c op d (.away (.submit url e))) :
    ∃ p time i, Signed c op p time i e d := by
  cases h with
  | read hop h => cases h
  | health h => cases h
  | write h =>
    cases h with
    | submit h => exact ⟨_, _, _, h⟩

theorem Invoked.drafted {time : UInt64} {i : Invocation} {signer : Account} (h : Invoked c op p time i signer d) :
    ∃ d', Drafted c op p time i.call d' ∧ d' <:+ d := by
  cases h with
  | mk hdraft =>
    exact ⟨_, hdraft, (List.suffix_cons _ _).trans ((List.suffix_cons _ _).trans (List.suffix_cons _ _))⟩

theorem Signed.drafted {time : UInt64} {i : Invocation} {e : Envelope} (h : Signed c op p time i e d) :
    ∃ d', Drafted c op p time i.call d' ∧ d' <:+ d := by
  cases h with
  | mk hinv =>
    obtain ⟨d', hdraft, hs⟩ := hinv.drafted
    exact ⟨d', hdraft, hs.trans (List.suffix_cons _ _)⟩

theorem Warrant.sent {first : Ticket} {others : List Ticket} (h : Warrant c op d (.away (.settle first others))) :
    Sent c d first := by
  cases h with
  | health h => cases h
  | write h => cases h
  | read hop h =>
    cases h with
    | settle hids hsent => exact (hsent first List.mem_cons_self).2

theorem Warrant.fetched {t : Ticket} {url : String} {call : ContractCall}
    (h : Warrant c op d (.away (.fetch t url call))) :
    call = c.eventCall t.event ∧ ∃ p ids, IdsRead c p d ids ∧ t ∈ ticketsOf ids := by
  cases h with
  | health h => cases h
  | write h => cases h
  | read hop h =>
    cases h with
    | event hids ht => exact ⟨rfl, _, _, hids, ht⟩

end Client

end SupplyTrail
