import SupplyTrail.Proofs.Conduct.Early
/-!
# Reading — the conduct of operations that read a trail

Whatever is answered, a history read asks only what it may, and its result is the history that its dialogue holds or a
fault that its dialogue shows.  The window of events in hand is the only loop.  `keeps_deliver_of` carries an invariant
through the work on it; the one for what was read is `InHand`.
-/
namespace SupplyTrail.Client

open Activity

variable {σ α : Type} {c : Client} {p : ProductId}

/-- A dialogue grows by one turn with each answer, whatever the answer is. -/
def hearing (asks : Dialogue σ → Question → Prop) : Rules questions (Dialogue σ) :=
  ⟨asks, fun q d a d' => ∃ m, d' = ⟨q, a, m⟩ :: d⟩

variable {asks : Dialogue σ → Question → Prop} {ends : Dialogue σ → α → Prop} {d d' : Dialogue σ}

theorem keeps_own {q : Own} (hask : asks d (.own q)) {ends : Dialogue σ → q.Answer → Prop}
    (h : ∀ a m, ends (⟨.own q, a, m⟩ :: d) a) : Keeps (hearing asks) ends (own q) d :=
  ⟨hask, fun a _ ⟨m, hm⟩ => hm ▸ h a m⟩

theorem keeps_away {q : Away} (hask : asks d (.away q)) {ends : Dialogue σ → q.Answer → Prop}
    (h : ∀ a m, ends (⟨.away q, a, m⟩ :: d) a) : Keeps (hearing asks) ends (away q) d :=
  ⟨hask, fun a _ ⟨m, hm⟩ => hm ▸ h a m⟩

theorem answerable (q : Question) : Nonempty q.Answer := by
  match q with
  | .own .activeNetwork => exact ⟨.testnet⟩
  | .own .clock | .own .nonce => exact ⟨0⟩
  | .own .account => exact ⟨none⟩
  | .own (.lastSeen _) => exact ⟨none⟩
  | .own (.remember _ _) | .own (.note _) => exact ⟨()⟩
  | .away (.sign _ _ _) => exact ⟨.error .notConnected⟩
  | .away (.query _ _) => exact ⟨.ok .null⟩
  | .away (.submit _ _) => exact ⟨.ok ⟨"", none, none⟩⟩
  | .away (.health _) => exact ⟨.ok true⟩
  | .away (.fetch _ _ _) => exact ⟨none⟩
  | .away (.settle first _) => exact ⟨⟨first, List.mem_cons_self⟩, .ok .null⟩

theorem suffix_of_goes {asks : Dialogue σ → Question → Prop} {x y : Run α} (h : Goes (hearing asks) x d y d') :
    d <:+ d' := by
  induction h with
  | refl => exact List.suffix_refl _
  | ask a hm _ ih =>
    obtain ⟨m, rfl⟩ := hm
    exact (List.suffix_cons _ _).trans ih

theorem keeps_and {asks' : Dialogue σ → Question → Prop} {ends' : Dialogue σ → α → Prop} {x : Run α}
    (h : Keeps (hearing asks) ends x d) (h' : Keeps (hearing asks') ends' x d) :
    Keeps (hearing fun d q => asks d q ∧ asks' d q) (fun d a => ends d a ∧ ends' d a) x d := by
  induction x generalizing d with
  | done a => exact ⟨h, h'⟩
  | ask q next ih => exact ⟨⟨h.1, h'.1⟩, fun a t hat => ih a (h.2 a t hat) (h'.2 a t hat)⟩

/-- What asks only its own process and remembers nothing goes on with an idle dialogue. -/
theorem keeps_idle {x : Run α} (hasks : ∀ d q, q.isIdle = true → asks d q)
    (h : Keeps (hearing fun _ q => q.isIdle = true) ends x d) :
    Keeps (hearing asks) (fun d' a => ends d' a ∧ ∃ l, d' = l ++ d ∧ Idle l) x d := by
  refine (h.frame (fun d' => ∃ l, d' = l ++ d ∧ Idle l) ⟨[], rfl, idle_nil⟩ ?_).weaken (fun d q hq => hasks d q hq)
    fun _ _ _ _ h => h
  rintro q d₁ a d₂ hq ⟨m, rfl⟩ ⟨l, rfl, hl⟩
  exact ⟨⟨q, a, m⟩ :: l, rfl, hl.cons hq⟩

/-! ## What was read stays read -/

theorem Told.mono (h : d <:+ d') {q : Question} {a : q.Answer} (ht : Told d q a) : Told d' q a := by
  obtain ⟨m, hm⟩ := ht
  exact ⟨m, h.subset hm⟩

theorem told_head (q : Question) (a : q.Answer) (m : σ) (d : Dialogue σ) : Told (⟨q, a, m⟩ :: d) q a :=
  ⟨m, List.mem_cons_self⟩

theorem Heard.mono (h : d <:+ d') {t : Ticket} {r : Reading} : Heard d t r → Heard d' t r
  | .atOnce ht => .atOnce (ht.mono h)
  | .settled ht => .settled (ht.mono h)

theorem RecordRead.mono (h : d <:+ d') {record : ProductRecord} (hr : RecordRead c p d record) :
    RecordRead c p d' record := by
  obtain ⟨v, hv, hd⟩ := hr
  exact ⟨v, hv.mono h, hd⟩

theorem IdsRead.mono (h : d <:+ d') {ids : List UInt64} (hr : IdsRead c p d ids) : IdsRead c p d' ids := by
  obtain ⟨v, hv, hd⟩ := hr
  exact ⟨v, hv.mono h, hd⟩

theorem EventRead.mono (h : d <:+ d') {t : Ticket} {item : Item} (hr : EventRead p d t item) :
    EventRead p d' t item := by
  obtain ⟨r, hr, he⟩ := hr
  exact ⟨r, hr.mono h, he⟩

theorem EventsRead.mono (h : d <:+ d') {ts : List Ticket} {es : List Event} (hr : EventsRead p d ts es) :
    EventsRead p d' ts es :=
  List.Forall₂.imp (fun _ _ he => he.mono h) hr

theorem eventRead_of_items {tickets : List Ticket} {items : List Item} (h : List.Forall₂ (EventRead p d) tickets items)
    {item : Item} (hi : item ∈ items) : ∃ t, EventRead p d t item := by
  induction h with
  | nil => cases hi
  | @cons t _ _ _ hread _ ih =>
    rcases List.mem_cons.1 hi with rfl | hi
    · exact ⟨t, hread⟩
    · exact ih hi

theorem TrailRead.mono (h : d <:+ d') {t : History} (hr : TrailRead c p d t) : TrailRead c p d' t := by
  obtain ⟨record, ids, es, hrec, hids, hes, ht⟩ := hr
  exact ⟨record, ids, es, hrec.mono h, hids.mono h, hes.mono h, ht⟩

theorem HistoryRead.mono (h : d <:+ d') {t : History} (hr : HistoryRead c p d t) : HistoryRead c p d' t :=
  ⟨hr.1.mono h, hr.2⟩

theorem ReadFault.mono (h : d <:+ d') {e : ClientError} (hf : ReadFault c p d e) : ReadFault c p d' e := by
  cases hf with
  | network hbound ht hne => exact .network hbound (ht.mono h) hne
  | recordRefused ht => exact .recordRefused (ht.mono h)
  | recordMalformed ht hd => exact .recordMalformed (ht.mono h) hd
  | idsRefused ht => exact .idsRefused (ht.mono h)
  | idsMalformed ht hd => exact .idsMalformed (ht.mono h) hd
  | event hids ht he => exact .event (hids.mono h) ht (he.mono h)
  | unregistered hread hfirst hkind => exact .unregistered (hread.mono h) hfirst hkind

/-! ## One call -/

abbrev reading (c : Client) (p : ProductId) : Rules questions (Dialogue σ) := hearing (MayRead c p)

/-- What the network check asks: which network is active, and, if that is not the client's own, a line of the log. -/
inductive NetworkAsks (c : Client) (d : Dialogue σ) : Dialogue σ → Question → Prop
  | active (hbound : c.isBound = true) : NetworkAsks c d d (.own .activeNetwork)
  | note {active : Network} {m : σ} (line : LogLine) (hbound : c.isBound = true) (hne : active ≠ c.endpoint.network) :
      NetworkAsks c d (⟨.own .activeNetwork, active, m⟩ :: d) (.own (.note line))

/-- The network check passes or refuses, and asks nothing else. -/
theorem keeps_checkNetwork_asks :
    Keeps (hearing (NetworkAsks c d))
      (fun d' (r : Except ClientError Unit) => d <:+ d' ∧
        match r with
        | .ok () => NetworkChecked c d d'
        | .error e => ∃ active, NetworkRefused c active d d' ∧ e = .networkChanged c.endpoint.network active)
      c.checkNetwork.run d := by
  unfold checkNetwork
  split
  · rename_i hbound
    refine Keeps.bindRun (M := fun d' a => ∃ m, d' = ⟨.own .activeNetwork, a, m⟩ :: d)
      (keeps_own (.active hbound) fun _ m => ⟨m, rfl⟩) fun d' active ⟨m, hd'⟩ => ?_
    subst hd'
    dsimp only
    split
    · rename_i hne
      refine Keeps.bindRun (M := fun d'' _ => ∃ line n, d'' = ⟨.own (.note line), (), n⟩ :: _)
        (keeps_own (.note _ hbound hne) fun _ n => ⟨_, n, rfl⟩) fun d'' _ ⟨line, n, hd''⟩ => ?_
      subst hd''
      exact ⟨(List.suffix_cons _ _).trans (List.suffix_cons _ _), active, .mk hbound hne, rfl⟩
    · rename_i heq
      obtain rfl : active = c.endpoint.network := Decidable.not_not.1 heq
      exact ⟨List.suffix_cons _ _, .bound hbound⟩
  · rename_i hunbound
    exact ⟨List.suffix_refl d, .unbound (by simpa using hunbound)⟩

/-- The network check in an operation that may ask for the active network and write to the log. -/
theorem keeps_checkNetwork (hask : ∀ d, asks d (.own .activeNetwork)) (hnote : ∀ d line, asks d (.own (.note line))) :
    Keeps (hearing asks)
      (fun d' (r : Except ClientError Unit) => d <:+ d' ∧
        match r with
        | .ok () => NetworkChecked c d d'
        | .error e => ∃ active, NetworkRefused c active d d' ∧ e = .networkChanged c.endpoint.network active)
      c.checkNetwork.run d := by
  refine keeps_checkNetwork_asks.weaken (fun d' q hq => ?_) fun _ _ _ _ h => h
  cases hq with
  | active => exact hask _
  | note line => exact hnote _ line

theorem keeps_fail (hnote : ∀ d line, asks d (.own (.note line))) (product : Option ProductId) (f : LedgerFailure) :
    Keeps (hearing asks) (fun d' (r : Except ClientError α) => d <:+ d' ∧ r = .error (failureOf product f))
      (c.fail product f).run d := by
  have logged : ∀ (line : LogLine) (e : ClientError), Keeps (hearing asks)
      (fun d' (r : Except ClientError α) => d <:+ d' ∧ r = .error e)
      ((liftM (own (.note line)) : Op Unit) >>= fun _ => (throw e : Op α)).run d := fun line e =>
    Keeps.bindRun (M := fun d' _ => d <:+ d') (keeps_own (hnote d line) fun _ _ => List.suffix_cons _ _)
      fun _ _ hs => ⟨hs, rfl⟩
  cases f with
  | remote error => cases product <;> exact logged _ _
  | contract code message =>
    cases product with
    | none => exact logged _ _
    | some id =>
      unfold fail failureOf
      dsimp only
      split
      · exact ⟨List.suffix_refl d, rfl⟩
      · exact logged _ _

theorem keeps_accept {β : Type} (hnote : ∀ d line, asks d (.own (.note line))) (product : Option ProductId)
    (r : Except LedgerFailure β) :
    Keeps (hearing asks) (fun d' b => d <:+ d' ∧ b = r.mapError (failureOf product)) (c.accept product r).run d := by
  cases r with
  | ok b => exact ⟨List.suffix_refl d, rfl⟩
  | error f => exact keeps_fail hnote product f

/-- A query about a product: the ledger's value, or its failure on behalf of the product. -/
theorem keeps_query {function : String} (hnote : ∀ d line, asks d (.own (.note line)))
    (hask : asks d (.away (.query c.endpoint.rpcUrl (c.call function (idArgs p))))) :
    Keeps (hearing asks)
      (fun d' b => d <:+ d' ∧
        match b with
        | .ok value => Told d' (.away (.query c.endpoint.rpcUrl (c.call function (idArgs p)))) (.ok value)
        | .error e => ∃ f, Told d' (.away (.query c.endpoint.rpcUrl (c.call function (idArgs p)))) (.error f) ∧
          e = failureOf (some p) f)
      (c.query function (idArgs p) p).run d := by
  refine Keeps.bindRun
    (M := fun d' r => d <:+ d' ∧ Told d' (.away (.query c.endpoint.rpcUrl (c.call function (idArgs p)))) r)
    (keeps_away hask fun r m => ⟨List.suffix_cons _ _, told_head _ r m d⟩) fun d₁ r ⟨h₁, hr⟩ => ?_
  refine (keeps_accept hnote (some p) r).mono fun d₂ b ⟨h₂, hb⟩ => ⟨h₁.trans h₂, ?_⟩
  subst hb
  cases r with
  | ok value => exact hr.mono h₂
  | error f => exact ⟨f, hr.mono h₂, rfl⟩

theorem keeps_readEvent (hnote : ∀ d line, asks d (.own (.note line))) (number : UInt64) (r : Reading) :
    Keeps (hearing asks) (fun d' item => d <:+ d' ∧ item = eventOf p number r) (c.readEvent p number r).run d := by
  refine Keeps.bindOp (M := fun d' b => d <:+ d' ∧ b = r.mapError (failureOf none)) (keeps_accept hnote none r)
    (fun d' value ⟨hs, hv⟩ => ?_) (fun d' e ⟨hs, he⟩ => ?_)
  · cases r with
    | error f => cases hv
    | ok v =>
      obtain rfl : value = v := by simpa [Except.mapError] using hv
      unfold eventOf
      dsimp only
      cases Event.parse value with
      | error error => exact ⟨hs, rfl⟩
      | ok event =>
        dsimp only
        split
        · exact Keeps.bindRun (M := fun d'' _ => d <:+ d'')
            (keeps_own (hnote d' _) fun _ _ => hs.trans (List.suffix_cons _ _)) fun _ _ hs => ⟨hs, rfl⟩
        · exact ⟨hs, rfl⟩
  · cases r with
    | error f => exact ⟨hs, by simpa [Except.mapError, eventOf] using he⟩
    | ok v => cases he

/-! ## The events in hand -/

/-- An event in hand is listed, its query is out if it says so, and its item is the one the ledger gave. -/
def Slot.Fits (c : Client) (p : ProductId) (ids : List UInt64) (d : Dialogue σ) (s : Slot) : Prop :=
  s.ticket ∈ ticketsOf ids ∧
    match s.progress with
    | .queued => True
    | .out => Sent c d s.ticket
    | .back item => EventRead p d s.ticket item

/-- The invariant of a window: the numbers were read and every event in hand fits. -/
structure InHand (c : Client) (p : ProductId) (ids : List UInt64) (d : Dialogue σ) (slots : List Slot) : Prop where
  read : IdsRead c p d ids
  fits : ∀ s ∈ slots, s.Fits c p ids d

variable {ids : List UInt64} {slots : List Slot}

theorem Slot.Fits.mono (h : d <:+ d') {s : Slot} (hs : s.Fits c p ids d) : s.Fits c p ids d' := by
  obtain ⟨t, progress⟩ := s
  cases progress with
  | queued => exact hs
  | out => exact ⟨hs.1, hs.2.mono h⟩
  | back item => exact ⟨hs.1, hs.2.mono h⟩

theorem InHand.mono (h : d <:+ d') (hs : InHand c p ids d slots) : InHand c p ids d' slots :=
  ⟨hs.read.mono h, fun s hm => (hs.fits s hm).mono h⟩

theorem inHand_cons {s : Slot} :
    InHand c p ids d (s :: slots) ↔ s.Fits c p ids d ∧ InHand c p ids d slots :=
  ⟨fun h => ⟨h.fits s (by simp), h.read, fun s' hs' => h.fits s' (by simp [hs'])⟩,
    fun ⟨hs, h⟩ => ⟨h.read, by simpa using ⟨hs, h.fits⟩⟩⟩

def eventsOf (slots : List Slot) : List Ticket := slots.map (·.ticket)

theorem eventsOf_markBegun (item : Option Item) (slots : List Slot) :
    eventsOf (markBegun item slots) = eventsOf slots := by
  induction slots with
  | nil => rfl
  | cons s rest ih =>
    simp only [markBegun]
    split
    · rfl
    · simpa [eventsOf] using ih

theorem eventsOf_markBack (t : Ticket) (item : Item) (slots : List Slot) :
    eventsOf (markBack t item slots) = eventsOf slots := by
  induction slots with
  | nil => rfl
  | cons s rest ih =>
    simp only [markBack]
    split
    · rfl
    · simpa [eventsOf] using ih

/-- What the begun query for an event leaves fits where the event stands. -/
def BegunFits (c : Client) (p : ProductId) (d : Dialogue σ) (t : Ticket) : Option Item → Prop
  | none => Sent c d t
  | some item => EventRead p d t item

theorem BegunFits.fits {t : Ticket} {item : Option Item} (ht : t ∈ ticketsOf ids) (h : BegunFits c p d t item) :
    Slot.Fits c p ids d ⟨t, begun item⟩ := by
  cases item with
  | none => exact ⟨ht, h⟩
  | some item => exact ⟨ht, h⟩

theorem InHand.markBegun {u : Ticket} {item : Option Item} (h : InHand c p ids d slots)
    (hu : firstQueued? slots = some u)
    (hitem : BegunFits c p d u item) : InHand c p ids d (markBegun item slots) := by
  induction slots with
  | nil => cases hu
  | cons s rest ih =>
    obtain ⟨hs, hrest⟩ := inHand_cons.1 h
    simp only [Client.markBegun, firstQueued?] at hu ⊢
    split
    · rename_i hq
      rw [if_pos hq] at hu
      obtain rfl : s.ticket = u := by simpa using hu
      exact inHand_cons.2 ⟨hitem.fits hs.1, hrest⟩
    · rename_i hq
      rw [if_neg hq] at hu
      exact inHand_cons.2 ⟨hs, ih hrest hu⟩

theorem InHand.markBack {t : Ticket} {item : Item} (h : InHand c p ids d slots) (hitem : EventRead p d t item) :
    InHand c p ids d (markBack t item slots) := by
  induction slots with
  | nil => exact h
  | cons s rest ih =>
    obtain ⟨hs, hrest⟩ := inHand_cons.1 h
    simp only [Client.markBack]
    split
    · rename_i hq
      obtain ⟨-, heq⟩ := Bool.and_eq_true_iff.1 hq
      obtain rfl : s.ticket = t := by simpa using heq
      exact inHand_cons.2 ⟨⟨hs.1, hitem⟩, hrest⟩
    · exact inHand_cons.2 ⟨hs, ih hrest⟩

theorem firstQueued?_mem {u : Ticket} (h : firstQueued? slots = some u) : u ∈ eventsOf slots := by
  induction slots with
  | nil => cases h
  | cons s rest ih =>
    simp only [firstQueued?] at h
    split at h
    · obtain rfl : s.ticket = u := by simpa using h
      simp [eventsOf]
    · exact List.mem_cons_of_mem _ (ih h)

theorem InHand.sent (h : InHand c p ids d slots) : ∀ t ∈ ticketsOut slots, t ∈ ticketsOf ids ∧ Sent c d t := by
  induction slots with
  | nil => exact fun t ht => by cases ht
  | cons s rest ih =>
    obtain ⟨hs, hrest⟩ := inHand_cons.1 h
    intro t ht
    simp only [ticketsOut] at ht
    split at ht
    · rename_i hout
      obtain ⟨ticket, progress⟩ := s
      cases progress with
      | queued => cases hout
      | back item => cases hout
      | out =>
        rcases List.mem_cons.1 ht with rfl | ht
        · exact ⟨hs.1, hs.2⟩
        · exact ih hrest t ht
    · exact ih hrest t ht

theorem InHand.listed (h : InHand c p ids d slots) {t : Ticket} (ht : t ∈ eventsOf slots) : t ∈ ticketsOf ids := by
  obtain ⟨s, hs, rfl⟩ := List.mem_map.1 ht
  exact (h.fits s hs).1

/-! ## The loops -/

theorem keeps_beginFetch {t : Ticket} (hids : IdsRead c p d ids) (ht : t ∈ ticketsOf ids) :
    Keeps (reading c p) (fun d' item => d <:+ d' ∧ BegunFits c p d' t item) (c.beginFetch p t) d := by
  unfold beginFetch
  refine Keeps.bind (M := fun d' r => d <:+ d' ∧ Told d' (.away (c.eventQuery t)) r)
    (keeps_away (.event hids ht) fun r m => ⟨List.suffix_cons _ _, told_head _ r m d⟩) fun d' r ⟨hs, hr⟩ => ?_
  cases r with
  | none => exact ⟨hs, hr⟩
  | some r =>
    refine Keeps.bind (keeps_readEvent (fun _ line => .note line) t.event r) fun d'' item ⟨hs', hitem⟩ => ?_
    exact ⟨hs.trans hs', r, (Heard.atOnce hr).mono hs', hitem.symm⟩

theorem keeps_awaitFetch {first : Ticket} {others : List Ticket} (hids : IdsRead c p d ids)
    (hsent : ∀ t ∈ first :: others, t ∈ ticketsOf ids ∧ Sent c d t) :
    Keeps (reading c p) (fun d' r => d <:+ d' ∧ EventRead p d' r.1.val r.2) (c.awaitFetch p first others) d := by
  unfold awaitFetch
  refine Keeps.bind (M := fun d' a => d <:+ d' ∧ Told d' (.away (.settle first others)) a)
    (keeps_away (.settle hids hsent) fun a m => ⟨List.suffix_cons _ _, told_head _ a m d⟩) fun d' a ⟨hs, ha⟩ => ?_
  refine Keeps.bind (keeps_readEvent (fun _ line => .note line) a.1.val.event a.2) fun d'' item ⟨hs', hitem⟩ => ?_
  have hheard : Heard d' a.1.val a.2 := @Heard.settled _ _ _ _ _ _ a.1.property ha
  exact ⟨hs.trans hs', a.2, hheard.mono hs', hitem.symm⟩

/-- **The work on the events in hand, by an invariant**: what is preserved as a query is begun, and as one comes back,
holds when the first event is there. -/
theorem keeps_deliver_of {τ : Type} {R : Rules questions τ} {ends : τ → Option (Item × List Slot) → Prop}
    (I : τ → List Slot → Prop)
    (hbegin : ∀ s slots t, I s slots → firstQueued? slots = some t →
      Keeps R (fun s' item => I s' (markBegun item slots)) (c.beginFetch p t) s)
    (hwait : ∀ s t rest, I s (⟨t, .out⟩ :: rest) →
      Keeps R (fun s' a => I s' (markBack a.1.val a.2 (⟨t, .out⟩ :: rest))) (c.awaitFetch p t (ticketsOut rest)) s)
    (hnone : ∀ s, I s [] → ends s none)
    (hsome : ∀ s t item rest, I s (⟨t, .back item⟩ :: rest) → ends s (some (item, rest)))
    (slots : List Slot) {s : τ} (h : I s slots) : Keeps R ends (c.deliver p slots) s := by
  induction slots using deliver.induct generalizing s with
  | case1 =>
    rw [deliver]
    exact hnone s h
  | case2 ticket item rest =>
    rw [deliver]
    exact hsome s ticket item rest h
  | case3 t rest ih =>
    rw [deliver]
    exact Keeps.bind (hbegin s _ t h rfl) fun s' item hitem => ih item hitem
  | case4 t rest u hu ih =>
    rw [deliver]
    split
    · rename_i u' hu'
      obtain rfl : u = u' := by simpa [hu] using hu'
      exact Keeps.bind (hbegin s _ u h hu) fun s' item hitem => ih item hitem
    · rename_i hn
      rw [hu] at hn
      cases hn
  | case5 t rest hqueued ih =>
    rw [deliver]
    split
    · rename_i u hu
      rw [hqueued] at hu
      cases hu
    · exact Keeps.bind (hwait s t rest h) fun s' a ha => ih a ha

/-- What the work on a window comes to: the item of its first event, and the others still in hand. -/
def Delivered (c : Client) (p : ProductId) (ids : List UInt64) (tickets : List Ticket) (d : Dialogue σ) :
    Option (Item × List Slot) → Prop
  | none => tickets = []
  | some (item, rest) =>
    ∃ t, tickets = t :: eventsOf rest ∧ EventRead p d t item ∧ InHand c p ids d rest

/-- **The first event in hand is delivered**, with the item the ledger gave for it. -/
theorem keeps_deliver (slots : List Slot) (h : InHand c p ids d slots) :
    Keeps (reading c p) (fun d' r => d <:+ d' ∧ Delivered c p ids (eventsOf slots) d' r) (c.deliver p slots) d := by
  refine keeps_deliver_of
    (fun d' slots' => d <:+ d' ∧ InHand c p ids d' slots' ∧ eventsOf slots' = eventsOf slots)
    (fun d₁ slots₁ t ⟨hd, hin, hsame⟩ ht => ?_) (fun d₁ t rest ⟨hd, hin, hsame⟩ => ?_) (fun d₁ ⟨hd, _, hsame⟩ => ?_)
    (fun d₁ t item rest ⟨hd, hin, hsame⟩ => ?_) slots ⟨List.suffix_refl d, h, rfl⟩
  · refine (keeps_beginFetch hin.read (hin.listed (firstQueued?_mem ht))).mono fun d₂ item ⟨hd', hitem⟩ => ?_
    exact ⟨hd.trans hd', (hin.mono hd').markBegun ht hitem, (eventsOf_markBegun item slots₁).trans hsame⟩
  · refine (keeps_awaitFetch hin.read hin.sent).mono fun d₂ a ⟨hd', ha⟩ => ?_
    exact ⟨hd.trans hd', (hin.mono hd').markBack ha, (eventsOf_markBack _ _ _).trans hsame⟩
  · exact ⟨hd, hsame.symm⟩
  · obtain ⟨hs, hrest⟩ := inHand_cons.1 hin
    exact ⟨hd, t, hsame.symm, hs.2, hrest⟩

/-- The events that a window has not delivered yet. -/
def Window.rest (w : Window) : List Ticket := eventsOf w.slots ++ w.waiting

/-- The invariant of a window with the events that wait: they are listed too. -/
structure Window.Fits (c : Client) (p : ProductId) (ids : List UInt64) (d : Dialogue σ) (w : Window) : Prop where
  inHand : InHand c p ids d w.slots
  listed : ∀ t ∈ w.waiting, t ∈ ticketsOf ids

theorem Window.Fits.mono (h : d <:+ d') {w : Window} (hw : w.Fits c p ids d) : w.Fits c p ids d' :=
  ⟨hw.inHand.mono h, hw.listed⟩

theorem Window.Fits.rest_listed {w : Window} (hw : w.Fits c p ids d) {t : Ticket} (ht : t ∈ w.rest) :
    t ∈ ticketsOf ids := by
  rcases List.mem_append.1 ht with ht | ht
  · exact hw.inHand.listed ht
  · exact hw.listed t ht

theorem Window.rest_refill (w : Window) : w.refill.rest = w.rest := by
  simp only [rest, refill, eventsOf, List.map_append, List.map_map, Function.comp_def, List.map_id', List.append_assoc,
    List.take_append_drop]

theorem Window.Fits.refill {w : Window} (hw : w.Fits c p ids d) : w.refill.Fits c p ids d := by
  refine ⟨⟨hw.inHand.read, fun s hs => ?_⟩, fun t ht => hw.listed t (List.mem_of_mem_drop ht)⟩
  rcases List.mem_append.1 hs with hs | hs
  · exact hw.inHand.fits s hs
  · obtain ⟨t, ht, rfl⟩ := List.mem_map.1 hs
    exact ⟨hw.listed t (List.mem_of_mem_take ht), trivial⟩

theorem Window.rest_eq_nil {w : Window} (h : eventsOf w.refill.slots = []) : w.rest = [] := by
  simp only [refill, eventsOf, List.map_eq_nil_iff, List.append_eq_nil_iff, List.take_eq_nil_iff] at h
  obtain ⟨hslots, hwaiting⟩ := h
  simp only [rest, eventsOf, hslots, List.map_nil, List.nil_append]
  rw [hslots] at hwaiting
  exact hwaiting.resolve_left (by decide)

theorem Window.fits_ofIds (hids : IdsRead c p d ids) : (Window.ofIds ids).Fits c p ids d :=
  ⟨⟨hids, fun _ hs => by cases hs⟩, fun _ ht => ht⟩

theorem Window.rest_ofIds (ids : List UInt64) : (Window.ofIds ids).rest = ticketsOf ids := rfl

/-- What the next item of a window is: that of the first event left, or none if none is left. -/
def Advanced (c : Client) (p : ProductId) (ids : List UInt64) (tickets : List Ticket) (d : Dialogue σ) :
    Option (Item × Window) → Prop
  | none => tickets = []
  | some (item, w) => ∃ t, tickets = t :: w.rest ∧ EventRead p d t item ∧ w.Fits c p ids d

theorem keeps_next {w : Window} (hw : w.Fits c p ids d) :
    Keeps (reading c p) (fun d' r => d <:+ d' ∧ Advanced c p ids w.rest d' r) (w.next c p) d := by
  unfold Window.next
  refine Keeps.bind (keeps_deliver w.refill.slots hw.refill.inHand) fun d' r ⟨hd, hr⟩ => ?_
  match r with
  | none => exact ⟨hd, Window.rest_eq_nil hr⟩
  | some (item, slots) =>
    obtain ⟨t, htickets, hitem, hslots⟩ := hr
    refine ⟨hd, t, ?_, hitem, hslots, hw.refill.listed⟩
    rw [← w.rest_refill, Window.rest, htickets, List.cons_append]
    rfl

/-- **Collecting events**: they are those of the first events left, or the fault of one of them. -/
theorem keeps_collect (n : Nat) {w : Window} (hw : w.Fits c p ids d) :
    Keeps (reading c p)
      (fun d' r => d <:+ d' ∧
        match r with
        | .ok es => EventsRead p d' (w.rest.take n) es
        | .error e => ∃ t ∈ ticketsOf ids, EventRead p d' t (.error e))
      (c.collect p n w).run d := by
  induction n generalizing w d with
  | zero => exact ⟨List.suffix_refl d, by rw [List.take_zero]; exact .nil⟩
  | succ n ih =>
    refine Keeps.bindRun (keeps_next hw) fun d' r ⟨hd, hr⟩ => ?_
    match r with
    | none =>
      refine ⟨hd, ?_⟩
      rw [show w.rest = [] from hr]
      exact .nil
    | some (.error e, w') =>
      obtain ⟨t, hrest, hitem, -⟩ := hr
      exact ⟨hd, t, hw.rest_listed (hrest ▸ List.mem_cons_self), hitem⟩
    | some (.ok event, w') =>
      obtain ⟨t, hrest, hitem, hw'⟩ := hr
      refine Keeps.bindOp (ih hw') (fun d'' es ⟨hd', hes⟩ => ⟨hd.trans hd', ?_⟩)
        fun d'' e ⟨hd', he⟩ => ⟨hd.trans hd', he⟩
      rw [hrest, List.take_succ_cons]
      exact .cons (hitem.mono hd') hes

theorem keeps_takeItems (n : Nat) {w : Window} (hw : w.Fits c p ids d) :
    Keeps (reading c p)
      (fun d' r => d <:+ d' ∧ List.Forall₂ (EventRead p d') (w.rest.take n) r.1) (c.takeItems p n w) d := by
  induction n generalizing w d with
  | zero => exact ⟨List.suffix_refl d, by rw [List.take_zero]; exact .nil⟩
  | succ n ih =>
    refine Keeps.bind (keeps_next hw) fun d' r ⟨hd, hr⟩ => ?_
    match r with
    | none =>
      refine ⟨hd, ?_⟩
      rw [show w.rest = [] from hr]
      exact .nil
    | some (item, w') =>
      obtain ⟨t, hrest, hitem, hw'⟩ := hr
      refine Keeps.bind (ih hw') fun d'' items ⟨hd', hitems⟩ => ⟨hd.trans hd', ?_⟩
      rw [hrest, List.take_succ_cons]
      exact .cons (hitem.mono hd') hitems

/-! ## Operations -/

theorem keeps_checkNetwork_reading :
    Keeps (reading c p) (fun d' (r : Except ClientError Unit) => d <:+ d' ∧ ∀ e, r = .error e → ReadFailed c p d d' e)
      c.checkNetwork.run d :=
  (keeps_checkNetwork (fun _ => .activeNetwork) fun _ line => .note line).mono
    fun d' r ⟨hs, hr⟩ => ⟨hs, fun e he => by
      subst he
      obtain ⟨active, ⟨hbound, hne⟩, rfl⟩ := hr
      exact ⟨.network hbound ((told_head (.own .activeNetwork) active _ d).mono (List.suffix_cons _ _)) hne,
        fun _ hd => (hd.cons rfl).cons rfl⟩⟩

theorem keeps_getProduct :
    Keeps (reading c p)
      (fun d' r => d <:+ d' ∧
        match r with
        | .ok record => RecordRead c p d' record
        | .error e => ReadFailed c p d d' e)
      (c.getProduct p).run d := by
  unfold getProduct
  refine Keeps.bindOp keeps_checkNetwork_reading (fun d₁ _ ⟨h₁, _⟩ => ?_)
    fun d₁ e ⟨h₁, he⟩ => ⟨h₁, he e rfl⟩
  refine Keeps.bindOp (keeps_query (fun _ line => .note line) .record) (fun d₂ value ⟨h₂, hv⟩ => ?_)
    fun d₂ e ⟨h₂, f, hf, he⟩ => ⟨h₁.trans h₂, he ▸ .late (.recordRefused hf) (not_early_failureOf _ f)⟩
  cases hdec : ProductRecord.decode value.toSource with
  | ok record => exact ⟨h₁.trans h₂, value, hv, hdec⟩
  | error mismatch => exact ⟨h₁.trans h₂, .late (.recordMalformed hv hdec) rfl⟩

theorem keeps_trailHead :
    Keeps (reading c p)
      (fun d' r => d <:+ d' ∧
        match r with
        | .ok (register, ids) =>
          ∃ record, RecordRead c p d' record ∧ register = record.registerEvent ∧ IdsRead c p d' ids
        | .error e => ReadFailed c p d d' e)
      (c.trailHead p).run d := by
  unfold trailHead
  refine Keeps.bindOp keeps_getProduct (fun d₁ record ⟨h₁, hrec⟩ => ?_) fun d₁ e ⟨h₁, he⟩ => ⟨h₁, he⟩
  refine Keeps.bindOp (keeps_query (fun _ line => .note line) .ids) (fun d₂ value ⟨h₂, hv⟩ => ?_)
    fun d₂ e ⟨h₂, f, hf, he⟩ => ⟨h₁.trans h₂, he ▸ .late (.idsRefused hf) (not_early_failureOf _ f)⟩
  cases hdec : Json.Decoder.list Json.Decoder.word64 value.toSource with
  | ok ids => exact ⟨h₁.trans h₂, record, hrec.mono h₂, rfl, value, hv, hdec⟩
  | error mismatch => exact ⟨h₁.trans h₂, .late (.idsMalformed hv hdec) rfl⟩

/-- What remains of a history read once its events are there. -/
def conclude (p : ProductId) (history : History) : Op History :=
  match history.first? with
  | none => throw (.unknownProduct p)
  | some first => do
    if first.kind ≠ .register then
      note .error s!"History of {p.text} starts with {first.kind.symbol} instead of REGISTER"
      throw (.malformed (.unregistered p))
    own (.remember p history.lastTime)
    return history

theorem getHistory_eq (c : Client) (p : ProductId) : c.getHistory p = (do
    let (register, ids) ← c.trailHead p
    let events ← c.collect p ids.length (.ofIds ids)
    conclude p (.ofEvents p (register :: events))) := rfl

theorem first?_ofEvents_cons (p : ProductId) (e : Event) (es : List Event) :
    ∃ first, (History.ofEvents p (e :: es)).first? = some first := by
  cases h : (History.ofEvents p (e :: es)).first? with
  | some first => exact ⟨first, rfl⟩
  | none =>
    have hlen := congrArg List.length (List.head?_eq_none_iff.1 h)
    simp [History.ofEvents] at hlen

/-- **Reading a history**: the history is remembered that the dialogue holds, or the dialogue shows the fault. -/
theorem keeps_getHistory :
    Keeps (reading c p)
      (fun d' r => d <:+ d' ∧
        match r with
        | .ok h => ∃ m mid, d' = ⟨.own (.remember p h.lastTime), (), m⟩ :: (mid ++ d) ∧ HistoryRead c p (mid ++ d) h
        | .error e => ReadFailed c p d d' e)
      (c.getHistory p).run d := by
  unfold getHistory
  refine Keeps.bindOp keeps_trailHead (fun d₁ head ⟨h₁, hhead⟩ => ?_) fun d₁ e ⟨h₁, he⟩ => ⟨h₁, he⟩
  obtain ⟨register, ids⟩ := head
  obtain ⟨record, hrec, rfl, hids⟩ := hhead
  refine Keeps.bindOp (keeps_collect ids.length (Window.fits_ofIds hids)) (fun d₂ es ⟨h₂, hes⟩ => ?_)
    fun d₂ e ⟨h₂, t, ht, he⟩ => ⟨h₁.trans h₂, .late (.event (hids.mono h₂) ht he) he.not_early⟩
  have hall : (Window.ofIds ids).rest.take ids.length = ticketsOf ids := by
    rw [Window.rest_ofIds, List.take_of_length_le (by simp [ticketsOf])]
  rw [hall] at hes
  obtain ⟨first, hfirst⟩ := first?_ofEvents_cons p record.registerEvent es
  have htrail : TrailRead c p d₂ (.ofEvents p (record.registerEvent :: es)) :=
    ⟨record, ids, es, hrec.mono h₂, hids.mono h₂, hes, rfl⟩
  dsimp only
  rw [hfirst]
  dsimp only
  split
  · rename_i hkind
    refine Keeps.bindRun (M := fun d₃ _ => d₂ <:+ d₃) (keeps_own (.note _) fun _ _ => List.suffix_cons _ _)
      fun d₃ _ h₃ => ⟨(h₁.trans h₂).trans h₃, .late (.unregistered (htrail.mono h₃) hfirst hkind) rfl⟩
  · rename_i hkind
    have hread : HistoryRead c p d₂ (.ofEvents p (record.registerEvent :: es)) :=
      ⟨htrail, first, hfirst, Decidable.not_not.1 hkind⟩
    obtain ⟨mid, hmid⟩ := h₁.trans h₂
    refine Keeps.bindRun
      (M := fun d₃ _ => ∃ m, d₃ =
        ⟨.own (.remember p (History.ofEvents p (record.registerEvent :: es)).lastTime), (), m⟩ :: d₂)
      (keeps_own (.remember hread) fun _ m => ⟨m, rfl⟩) fun d₃ _ ⟨m, hd₃⟩ => ?_
    subst hd₃
    exact ⟨(h₁.trans h₂).trans (List.suffix_cons _ _), m, mid, by rw [hmid], by rwa [hmid]⟩

theorem keeps_getPage {offset limit : Nat} :
    Keeps (reading c p)
      (fun d' r =>
        match r with
        | .ok page => ∃ h, page = h.page offset limit ∧ HistoryRead c p d' h
        | .error e => ReadFailed c p d d' e)
      (c.getPage p offset limit).run d := by
  unfold getPage
  refine Keeps.bindOp keeps_getHistory (fun d₁ h ⟨_, m, mid, hd₁, hread⟩ => ?_) fun d₁ e ⟨_, he⟩ => he
  exact ⟨h, rfl, hread.mono (hd₁ ▸ List.suffix_cons _ _)⟩

/-- What a stream gives: nothing if nothing is wanted, the fault that kept it from the trail, or the registration and
then the listed events in their order, each of them an event or the fault of one. -/
inductive Streamed (c : Client) (p : ProductId) (d : Dialogue σ) : Nat → List Item → Prop
  | nothing : Streamed c p d 0 []
  | fault {count : Nat} {e : ClientError} (h : ReadFault c p d e) : Streamed c p d (count + 1) [.error e]
  | trail {count : Nat} {record : ProductRecord} {ids : List UInt64} {items : List Item}
      (hrec : RecordRead c p d record) (hids : IdsRead c p d ids)
      (hitems : List.Forall₂ (EventRead p d) ((ticketsOf ids).take count) items) :
      Streamed c p d (count + 1) (.ok record.registerEvent :: items)

theorem keeps_stream (count : Nat) :
    Keeps (reading c p)
      (fun d' r => Streamed c p d' count r.1 ∧ ∀ e, .error e ∈ r.1 → e.isEarly = true → Idle d → Idle d')
      (c.stream p count) d := by
  cases count with
  | zero => exact ⟨.nothing, fun e he => by cases he⟩
  | succ count =>
    refine Keeps.bind keeps_trailHead fun d₁ r ⟨_, hr⟩ => ?_
    match r with
    | .error e =>
      refine ⟨.fault hr.fault, fun e' he' => ?_⟩
      obtain rfl : e' = e := by simpa using he'
      exact hr.early
    | .ok (register, ids) =>
      obtain ⟨record, hrec, rfl, hids⟩ := hr
      refine Keeps.bind (keeps_takeItems count (Window.fits_ofIds hids)) fun d₂ r ⟨h₂, hitems⟩ => ?_
      rw [Window.rest_ofIds] at hitems
      refine ⟨.trail (hrec.mono h₂) (hids.mono h₂) hitems, fun e he hearly => ?_⟩
      -- the faults of single events are answers from outside
      obtain ⟨t, hread⟩ := eventRead_of_items hitems (by simpa using he : .error e ∈ _)
      rw [hread.not_early] at hearly
      cases hearly

end SupplyTrail.Client
