import SupplyTrail.Proofs.Conduct.Once
import SupplyTrail.Proofs.Ledger.Envelope
/-!
# Evidence — what an operation was told of a registration

A product was registered if the ledger confirmed its registration, or if its history begins with one.  What an operation
was told of this it remembers before it asks outside again or ends; it remembers nothing else, and nothing of another
product.
-/
namespace SupplyTrail

namespace Client

open Activity

variable {σ α β : Type} {c : Client} {op : Operation} {p : ProductId} {d d' : Dialogue σ}

/-! ## Evidence -/

/-- The product that an operation may remember the time of. -/
def Operation.entryOf : Operation → Option ProductId
  | .register details => some details.id
  | .append product _ _ | .getHistory product | .getPage product _ _ => some product
  | .getProduct _ | .stream _ _ | .ping => none

/-- The product whose history an operation reads as a whole. -/
def Operation.historyOf : Operation → Option ProductId
  | .append product _ _ | .getHistory product | .getPage product _ _ => some product
  | .register _ | .getProduct _ | .stream _ _ | .ping => none

/-- An operation was told that a product is registered: the ledger confirmed its registration, or its history was read
and begins with one. -/
inductive Seen (c : Client) (p : ProductId) (d : Dialogue σ) : Operation → Prop
  | confirmed {details : ProductDetails} {url : String} {e : Envelope} {receipt : Receipt} (hid : details.id = p)
      (h : Told d (.away (.submit url e)) (.ok receipt)) : Seen c p d (.register details)
  | read {op : Operation} {t : History} (hop : op.historyOf = some p) (h : HistoryRead c p d t) : Seen c p d op

theorem Seen.mono (h : Seen c p d op) (hs : d <:+ d') : Seen c p d' op := by
  cases h with
  | confirmed hid ht => exact .confirmed hid (ht.mono hs)
  | read hop hread => exact .read hop (hread.mono hs)

/-- The client knew a time of the product when an operation looked, or was given one to remember. -/
def Known (p : ProductId) (d : Dialogue σ) : Prop :=
  (∃ t, Told d (.own (.remember p t)) ()) ∨ ∃ t, Told d (.own (.lastSeen p)) (some t)

theorem Known.mono (h : Known p d) (hs : d <:+ d') : Known p d' :=
  h.imp (fun ⟨t, ht⟩ => ⟨t, ht.mono hs⟩) fun ⟨t, ht⟩ => ⟨t, ht.mono hs⟩

theorem Known.of_cons {t : Turn σ} (h : Known p (t :: d)) : Known p [t] ∨ Known p d := by
  rcases h with ⟨time, m, hm⟩ | ⟨time, m, hm⟩
  · rcases List.mem_cons.1 hm with rfl | hm
    · exact .inl (.inl ⟨time, m, List.mem_singleton_self _⟩)
    · exact .inr (.inl ⟨time, m, hm⟩)
  · rcases List.mem_cons.1 hm with rfl | hm
    · exact .inl (.inr ⟨time, m, List.mem_singleton_self _⟩)
    · exact .inr (.inr ⟨time, m, hm⟩)

/-! ## What was read is remembered -/

/-- Whatever is asked outside, a history that was read is known. -/
def Enters (c : Client) (p : ProductId) (d : Dialogue σ) (q : Question) : Prop :=
  q.isOwn = true ∨ ∀ h, HistoryRead c p d h → Known p d

theorem keeps_known (x : Run α) (h : Known p d) : Keeps (hearing (Enters c p)) (fun d' _ => Known p d') x d := by
  induction x generalizing d with
  | done a => exact h
  | ask q next ih =>
    refine ⟨.inr fun _ _ => h, fun a d' ⟨m, hd'⟩ => ih a (h.mono ?_)⟩
    exact hd' ▸ List.suffix_cons _ _

/-- A success leaves the product known, and a failure leaves its history unread. -/
inductive Entered (c : Client) (p : ProductId) (d : Dialogue σ) : Except ClientError α → Prop
  | ok {a : α} (h : Known p d) : Entered c p d (.ok a)
  | error {e : ClientError} (h : ∀ t, ¬ HistoryRead c p d t) : Entered c p d (.error e)

theorem Entered.known {r : Except ClientError α} (h : Entered c p d r) {t : History} (hread : HistoryRead c p d t) :
    Known p d := by
  cases h with
  | ok hknown => exact hknown
  | error hnone => exact absurd hread (hnone t)

theorem Entered.of_ok {b : β} (h : Entered c p d (.ok b)) {a : α} : Entered c p d (.ok a) := by
  cases h with
  | ok hknown => exact .ok hknown

theorem Entered.of_error {e e' : ClientError} (h : Entered c p d (.error e : Except ClientError β)) :
    Entered c p d (.error e' : Except ClientError α) := by
  cases h with
  | error hnone => exact .error hnone

/-- **A history read remembers what it has read**, and a failed one has read nothing. -/
theorem keeps_getHistory_enters (hd : Idle d) :
    Keeps (hearing (Enters c p)) (fun d' (r : Except ClientError History) => Entered c p d' r)
      (c.getHistory p).run d := by
  have honce := (keeps_getHistory_anew (c := c) (p := p) hd).within Once hd.once fun q d a d' hq ⟨m, hd'⟩ hd =>
    hd' ▸ hd.answer hq a m
  have hall := keeps_and keeps_getHistory honce
  refine Keeps.mono (hall.weaken (fun d q ⟨hread, hnew, hd⟩ => ?_) fun _ _ _ _ h => h)
    fun d' r ⟨⟨_, hr⟩, _, hd'⟩ => ?_
  · cases q with
    | own q => exact .inl rfl
    | away q => exact .inr fun h hh => absurd hh (hread.not_historyRead hd hnew h)
  · match r with
    | .ok h =>
      obtain ⟨m, mid, rfl, -⟩ := hr
      exact .ok (.inl ⟨_, told_head _ _ m _⟩)
    | .error e => exact .error (hr.fault.not_historyRead hd' fun hearly => hr.early hearly hd)

theorem keeps_getPage_enters {offset limit : Nat} (hd : Idle d) :
    Keeps (hearing (Enters c p)) (fun d' (r : Except ClientError HistoryPage) => Entered c p d' r)
      (c.getPage p offset limit).run d := by
  unfold getPage
  exact Keeps.bindOp (keeps_getHistory_enters hd) (fun _ _ h => h.of_ok) fun _ _ h => h.of_error

theorem keeps_registeredTime_enters (hd : Idle d) :
    Keeps (hearing (Enters c p)) (fun d' (r : Except ClientError UInt64) => Entered c p d' r)
      (c.registeredTime p).run d := by
  unfold registeredTime
  refine Keeps.bindRun (M := fun d' a => ∃ m, d' = ⟨.own (.lastSeen p), a, m⟩ :: d)
    (keeps_own (.inl rfl) fun _ m => ⟨m, rfl⟩) fun d₁ a ⟨m, h₁⟩ => ?_
  subst h₁
  cases a with
  | some time => exact .ok (.inr ⟨time, told_head _ _ m d⟩)
  | none =>
    exact Keeps.bindOp (keeps_getHistory_enters (hd.cons rfl)) (fun _ _ h => h.of_ok) fun _ _ h => h.of_error

theorem keeps_append_enters {kind : EventKind} {metadata : Metadata} :
    Keeps (hearing (Enters c p)) (fun d' (_ : Except ClientError Event) => ∀ h, HistoryRead c p d' h → Known p d')
      (c.append p kind metadata).run ([] : Dialogue σ) := by
  have none_read : ∀ {d : Dialogue σ}, Idle d → ∀ h, HistoryRead c p d h → Known p d := fun hd h hread =>
    absurd hread (hd.not_historyRead h)
  unfold append
  refine Keeps.bindOp (keeps_checkNetwork (fun _ => .inl rfl) fun _ _ => .inl rfl) (fun d₁ _ ⟨_, hnet⟩ => ?_)
    fun d₁ e ⟨_, active, hrefused, _⟩ => none_read (hrefused.idle idle_nil)
  have hd₁ : Idle d₁ := hnet.idle idle_nil
  split
  · exact none_read hd₁
  refine Keeps.bindOp (keeps_checked _) (fun d₂ draft ⟨h₂, _⟩ => ?_) fun d₂ e ⟨h₂, _⟩ => none_read (h₂ ▸ hd₁)
  subst h₂
  refine Keeps.bindOp (keeps_connectedKey (.inl rfl)) (fun d₃ key ⟨m, actor, _, h₃⟩ => ?_)
    fun d₃ e ⟨m, _, h₃⟩ => none_read (h₃ ▸ hd₁.cons rfl)
  have hd₃ : Idle d₃ := h₃ ▸ hd₁.cons rfl
  refine Keeps.bindOp (keeps_registeredTime_enters hd₃) (fun d₄ last hentered => ?_)
    fun d₄ e hentered h hread => hentered.known hread
  cases hentered with
  | ok hknown => exact (keeps_known _ hknown).mono fun _ _ h _ _ => h

theorem keeps_trivial (x : Run α) (d : Dialogue σ) : Keeps (hearing fun _ _ => True) (fun _ _ => True) x d := by
  induction x generalizing d with
  | done a => trivial
  | ask q next ih => exact ⟨trivial, fun a d' _ => ih a d'⟩

theorem keeps_run_history (hop : op.historyOf = some p) :
    Keeps (hearing (Enters c p)) (fun d' _ => ∀ h, HistoryRead c p d' h → Known p d') (op.run c) ([] : Dialogue σ) := by
  cases op with
  | append p' kind metadata =>
    cases hop
    exact keeps_ofClient keeps_append_enters (fun _ _ h => h) fun _ _ h => h
  | getHistory p' =>
    cases hop
    exact keeps_ofClient (keeps_getHistory_enters idle_nil) (fun _ _ h _ hread => h.known hread)
      fun _ _ h _ hread => h.known hread
  | getPage p' offset limit =>
    cases hop
    exact keeps_ofClient (keeps_getPage_enters idle_nil) (fun _ _ h _ hread => h.known hread)
      fun _ _ h _ hread => h.known hread
  | _ => cases hop

/-- **A history that an operation has read is known to its client**, once the operation asks outside or has ended. -/
theorem keeps_run_enters (c : Client) (op : Operation) (p : ProductId) :
    Keeps (hearing fun d q => op.historyOf = some p → Enters c p d q)
      (fun d' _ => op.historyOf = some p → ∀ h, HistoryRead c p d' h → Known p d') (op.run c) ([] : Dialogue σ) := by
  by_cases hop : op.historyOf = some p
  · exact Keeps.mono ((keeps_run_history hop).weaken (fun _ _ hq _ => hq) fun _ _ _ _ h => h) fun _ _ h _ => h
  · exact Keeps.mono ((keeps_trivial _ _).weaken (fun _ _ _ h => absurd h hop) fun _ _ _ _ h => h)
      fun _ _ _ h => absurd h hop

/-! ## What is remembered -/

/-- An operation is to remember a time only if it has a product to remember. -/
def MayEnter (op : Operation) (q : Question) : Prop := q.isEntry = true → op.entryOf ≠ none

theorem keeps_run_entry (c : Client) (op : Operation) :
    Keeps (hearing fun _ q => MayEnter op q) (fun _ _ => True) (op.run c) ([] : Dialogue σ) := by
  have entering (hop : op.entryOf ≠ none) :
      Keeps (hearing fun _ q => MayEnter op q) (fun _ _ => True) (op.run c) ([] : Dialogue σ) :=
    (keeps_trivial _ _).weaken (fun _ _ _ _ => hop) fun _ _ _ _ h => h
  have scanned {β : Type} {x : Run β} {ends : Dialogue σ → β → Prop} {d : Dialogue σ}
      (h : Keeps (hearing Scans) ends x d) : Keeps (hearing fun _ q => MayEnter op q) ends x d :=
    h.weaken (fun _ _ hq hentry => by rw [hq.2] at hentry; cases hentry) fun _ _ _ _ h => h
  cases op with
  | getProduct p =>
    exact keeps_ofClient (scanned (keeps_getProduct_scans idle_nil)) (fun _ _ _ => trivial) fun _ _ _ => trivial
  | stream p count => exact Keeps.bind (scanned (keeps_stream_scans idle_nil count)) fun _ _ _ => trivial
  | ping =>
    refine keeps_ofClient (x := c.ping) (M := fun _ _ => True) ?_ (fun _ _ _ => trivial) fun _ _ _ => trivial
    refine Keeps.bindRun (M := fun _ _ => True) (keeps_away (fun h => by cases h) fun _ _ => trivial) fun d' r _ => ?_
    exact (keeps_accept (fun _ _ h => by cases h) none r).mono fun _ _ _ => trivial
  | _ => exact entering (by simp [Operation.entryOf])

/-- An operation takes a product for registered because it was told so itself, or because its client knew it. -/
def Grounded (c : Client) (p : ProductId) (d : Dialogue σ) (op : Operation) : Prop :=
  Seen c p d op ∨ ∃ last, Told d (.own (.lastSeen p)) (some last)

theorem Grounded.mono (h : Grounded c p d op) (hs : d <:+ d') : Grounded c p d' op :=
  h.imp (fun h => h.mono hs) fun ⟨last, h⟩ => ⟨last, h.mono hs⟩

theorem SeenAt.grounded {actor : Account} {last : UInt64} (h : SeenAt c p actor last d) (hop : op.historyOf = some p) :
    Grounded c p d op := by
  cases h with
  | @cached m n d hnet => exact .inr ⟨last, told_head _ _ m _⟩
  | read hnet hlast hread => exact .inl (.read hop (hread.mono (List.suffix_cons _ _)))

theorem Confirmed.drafted {time : UInt64} {i : Invocation} (h : Confirmed c op p time i d) :
    ∃ call d', Drafted c op p time call d' ∧ d' <:+ d ∧
      ∃ url e receipt, Told d (.away (.submit url e)) (.ok receipt) := by
  cases h with
  | @mk e receipt m d hsigned =>
    obtain ⟨d', hdraft, hs⟩ := hsigned.drafted
    exact ⟨_, d', hdraft, hs.trans (List.suffix_cons _ _), _, e, receipt, told_head _ _ m d⟩

theorem Recorded.known {time : UInt64} {i : Invocation} (h : Recorded c op p time i d) : Known p d := by
  cases h with
  | @mk line m n d h => exact .inl ⟨time, told_head _ _ m _⟩

/-- **What an operation remembers it has evidence of**: its own, or that of its client. -/
theorem Warrant.evidence {t : UInt64} (h : Warrant c op d (.own (.remember p t))) (hentry : op.entryOf ≠ none) :
    op.entryOf = some p ∧ Grounded c p d op := by
  cases h with
  | health h => cases h
  | @read p' hop h =>
    cases h with
    | remember hread =>
      have hown : op.entryOf = some p ∧ op.historyOf = some p := by
        cases op with
        | append _ _ _ => exact ⟨hop, hop⟩
        | getHistory _ => exact ⟨hop, hop⟩
        | getPage _ _ _ => exact ⟨hop, hop⟩
        | register _ => cases hop
        | ping => cases hop
        | getProduct _ => exact absurd rfl hentry
        | stream _ _ => exact absurd rfl hentry
      exact ⟨hown.1, .inl (.read hown.2 hread)⟩
  | write h =>
    cases h with
    | remember h =>
      obtain ⟨call, d', hdraft, hs, url, e, receipt, htold⟩ := h.drafted
      cases hdraft with
      | register hnet hcheck hevent => exact ⟨rfl, .inl (.confirmed rfl (htold.mono (List.suffix_cons _ _)))⟩
      | append hkind hevent hseen =>
        exact ⟨rfl, ((hseen.grounded rfl).mono ((List.suffix_cons _ _).trans hs)).mono (List.suffix_cons _ _)⟩

theorem Warrant.invoked {account : Account} {network : Network} {payload : List UInt8}
    (h : Warrant c op d (.away (.sign account network payload))) :
    ∃ p time j d', payload = Invocation.toBytes j ∧ Drafted c op p time j.call d' ∧ d' <:+ d := by
  obtain ⟨p, time, j, hbytes, -, hinv⟩ := h.signing
  obtain ⟨d', hdraft, hs⟩ := hinv.drafted
  exact ⟨p, time, j, d', hbytes, hdraft, hs⟩

/-- What the arguments of a call say of an event: which kind it is of, of which product, and what it carries. -/
structure Describes (args : Json) (e : Event) : Prop where
  kind : e.kind = .transfer ∧ args.member? "event_type" = some (.string "TRANSFER") ∨
    e.kind = .checkpoint ∧ args.member? "event_type" = some (.string "CHECKPOINT")
  product : args.member? "product_id" = some (.string e.product.text)
  metadata : args.member? "metadata" = some (.object e.metadata.entries)

theorem describes_appendArgs {e : Event} (hkind : e.kind = .transfer ∨ e.kind = .checkpoint) (actor : String) :
    Describes (appendArgs e actor) e where
  kind := by
    rcases hkind with hkind | hkind
    · exact .inl ⟨hkind, by simp [appendArgs, hkind, Json.member?, valueOf?, EventKind.symbol]⟩
    · exact .inr ⟨hkind, by simp [appendArgs, hkind, Json.member?, valueOf?, EventKind.symbol]⟩
  product := by simp [appendArgs, Json.member?, valueOf?, ProductId.toJson]
  metadata := by simp [appendArgs, Json.member?, valueOf?, Json.ofTable]

/-- **What is signed for an append was checked**, and the product is one that the client has evidence of. -/
theorem Warrant.appended {account : Account} {network : Network} {i : Invocation}
    (h : Warrant c op d (.away (.sign account network i.toBytes))) (hcall : i.call.function = "add_tracking_event") :
    ∃ (j : Invocation) (e : Event) (actor : String), i.toBytes = j.toBytes ∧
      j.call = c.call "add_tracking_event" (appendArgs e actor) ∧ op.entryOf = some e.product ∧
      (e.kind = .transfer ∨ e.kind = .checkpoint) ∧ Event.check e = .ok e ∧ Grounded c e.product d op := by
  obtain ⟨p, time, j, d', hbytes, hdraft, hs⟩ := h.invoked
  have hfunction : j.call.function = "add_tracking_event" := (Invocation.call_of_toBytes hbytes).1.symm.trans hcall
  generalize hj : j.call = call at hdraft hfunction
  cases hdraft with
  | register hnet hcheck hevent => exact absurd hfunction (by simp [call])
  | @append p kind metadata actor now last m d₀ hkind hevent hseen =>
    refine ⟨j, _, _, hbytes, hj, rfl, ?_, hevent, (hseen.grounded rfl).mono ((List.suffix_cons _ _).trans hs)⟩
    cases kind with
    | register => exact absurd rfl hkind
    | transfer => exact .inl rfl
    | checkpoint => exact .inr rfl

end Client

end SupplyTrail
