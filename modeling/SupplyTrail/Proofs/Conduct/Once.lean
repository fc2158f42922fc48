import Mathlib.Data.List.Sigma
import SupplyTrail.Proofs.Conduct.Early
import SupplyTrail.Proofs.Conduct.Writing
/-!
# Once — a read asks for nothing twice

An operation that reads asks for the record, for the numbers and for each listed event once, so that what it was told
about them is all that it was told.  A trail that was read is therefore the only one, and a read that failed has read
none.  The invariant of the window is `Due`: no event that was heard is still to come, and none is to come twice.
-/
namespace SupplyTrail.Client

open Activity

variable {σ α : Type} {c : Client} {op : Operation} {p : ProductId} {d d' : Dialogue σ}

/-! ## What was told -/

def Turn.queried? : Turn σ → Option ((String × ContractCall) × Reading)
  | ⟨.away (.query url call), r, _⟩ => some ((url, call), r)
  | _ => none

def Turn.heard? : Turn σ → Option (Ticket × Reading)
  | ⟨.away (.fetch t _ _), some r, _⟩ => some (t, r)
  | ⟨.away (.settle _ _), (t, r), _⟩ => some (t.val, r)
  | _ => none

/-- The queries that were answered, with the answers, the latest first. -/
def queried (d : Dialogue σ) : List ((String × ContractCall) × Reading) := d.filterMap Turn.queried?

/-- The events that were heard of, with what was heard, the latest first. -/
def heard (d : Dialogue σ) : List (Ticket × Reading) := d.filterMap Turn.heard?

theorem mem_queried_of_told {url : String} {call : ContractCall} {r : Reading}
    (h : Told d (.away (.query url call)) r) : ((url, call), r) ∈ queried d := by
  obtain ⟨m, hm⟩ := h
  exact List.mem_filterMap.2 ⟨_, hm, rfl⟩

theorem mem_heard {t : Ticket} {r : Reading} (h : Heard d t r) : (t, r) ∈ heard d := by
  cases h with
  | atOnce h =>
    obtain ⟨m, hm⟩ := h
    exact List.mem_filterMap.2 ⟨_, hm, rfl⟩
  | settled h =>
    obtain ⟨m, hm⟩ := h
    exact List.mem_filterMap.2 ⟨_, hm, rfl⟩

theorem Idle.queried (h : Idle d) : queried d = [] :=
  List.filterMap_eq_nil_iff.2 fun ⟨q, a, m⟩ ht => by
    have hidle := h _ ht
    cases q with
    | own q => rfl
    | away q => cases hidle

theorem Idle.heard (h : Idle d) : heard d = [] :=
  List.filterMap_eq_nil_iff.2 fun ⟨q, a, m⟩ ht => by
    have hidle := h _ ht
    cases q with
    | own q => rfl
    | away q => cases hidle

/-- What was told about each query and each event was told once. -/
structure Once (d : Dialogue σ) : Prop where
  queries : ((queried d).map Prod.fst).Nodup
  events : ((heard d).map Prod.fst).Nodup

theorem Idle.once (h : Idle d) : Once d := ⟨h.queried ▸ List.nodup_nil, h.heard ▸ List.nodup_nil⟩

/-- What a read may ask: nothing that it was told before. -/
inductive Anew (d : Dialogue σ) : Question → Prop
  | own (q : Own) : Anew d (.own q)
  | query {url : String} {call : ContractCall} (h : (url, call) ∉ (queried d).map Prod.fst) :
      Anew d (.away (.query url call))
  | fetch {t : Ticket} {url : String} {call : ContractCall} (h : t ∉ (heard d).map Prod.fst) :
      Anew d (.away (.fetch t url call))
  | settle {first : Ticket} {others : List Ticket} (h : ∀ t ∈ first :: others, t ∉ (heard d).map Prod.fst) :
      Anew d (.away (.settle first others))

theorem Once.answer {q : Question} (h : Once d) (hq : Anew d q) (a : q.Answer) (m : σ) : Once (⟨q, a, m⟩ :: d) := by
  cases hq with
  | own q => exact ⟨h.queries, h.events⟩
  | query hnew => exact ⟨List.nodup_cons.2 ⟨hnew, h.queries⟩, h.events⟩
  | fetch hnew =>
    cases a with
    | none => exact ⟨h.queries, h.events⟩
    | some r => exact ⟨h.queries, List.nodup_cons.2 ⟨hnew, h.events⟩⟩
  | settle hnew => exact ⟨h.queries, List.nodup_cons.2 ⟨hnew _ a.1.property, h.events⟩⟩

theorem eq_of_mem_of_nodup {K V : Type} {entries : List (K × V)} (h : (entries.map Prod.fst).Nodup) {k : K} {v v' : V}
    (hv : (k, v) ∈ entries) (hv' : (k, v') ∈ entries) : v = v' :=
  congrArg Prod.snd (List.inj_on_of_nodup_map h hv hv' rfl)

/-! ## The window -/

/-- A question that enters a product's time. -/
def Question.isEntry : Question → Bool
  | .own (.remember _ _) => true
  | _ => false

/-- What a read may ask before it is complete: nothing a second time, and it enters nothing. -/
def Scans (d : Dialogue σ) (q : Question) : Prop := Anew d q ∧ q.isEntry = false

theorem Scans.of_isIdle {q : Question} (h : q.isIdle = true) : Scans d q := by
  cases q with
  | own q =>
    refine ⟨.own q, ?_⟩
    cases q with
    | remember p t => cases h
    | _ => rfl
  | away q => cases h

/-- None of the events was heard of, and none comes twice. -/
def Due (d : Dialogue σ) (tickets : List Ticket) : Prop := ((heard d).map Prod.fst ++ tickets).Nodup

theorem Due.perm {ts us : List Ticket} (h : Due d ts) (hperm : ts.Perm us) : Due d us :=
  (hperm.append_left _).nodup_iff.1 h

theorem Due.unheard {ts : List Ticket} (h : Due d ts) {t : Ticket} (ht : t ∈ ts) : t ∉ (heard d).map Prod.fst :=
  fun hmem => (List.disjoint_of_nodup_append h) hmem ht

theorem Due.hear {ts us : List Ticket} {t : Ticket} {r : Reading} (h : Due d ts) (hperm : ts.Perm (t :: us))
    (heq : heard d' = (t, r) :: heard d) : Due d' us := by
  unfold Due
  rw [heq]
  exact List.perm_middle.nodup_iff.1 (h.perm hperm)

/-- The events in hand that have not come back. -/
def dueOf : List Slot → List Ticket
  | [] => []
  | ⟨_, .back _⟩ :: rest => dueOf rest
  | ⟨t, .queued⟩ :: rest | ⟨t, .out⟩ :: rest => t :: dueOf rest

theorem dueOf_append (slots more : List Slot) : dueOf (slots ++ more) = dueOf slots ++ dueOf more := by
  induction slots with
  | nil => rfl
  | cons s rest ih =>
    obtain ⟨t, progress⟩ := s
    cases progress with
    | back item => exact ih
    | queued => exact congrArg (t :: ·) ih
    | out => exact congrArg (t :: ·) ih

theorem dueOf_queued (tickets : List Ticket) : dueOf (tickets.map fun t => ⟨t, .queued⟩) = tickets := by
  induction tickets with
  | nil => rfl
  | cons t rest ih => exact congrArg (t :: ·) ih

theorem dueOf_markBegun_none (slots : List Slot) : dueOf (markBegun none slots) = dueOf slots := by
  induction slots with
  | nil => rfl
  | cons s rest ih =>
    obtain ⟨t, progress⟩ := s
    cases progress with
    | back item => exact ih
    | queued => rfl
    | out => exact congrArg (t :: ·) ih

theorem dueOf_markBegun_some {slots : List Slot} {u : Ticket} (h : firstQueued? slots = some u) (item : Item) :
    (dueOf slots).Perm (u :: dueOf (markBegun (some item) slots)) := by
  induction slots with
  | nil => cases h
  | cons s rest ih =>
    obtain ⟨t, progress⟩ := s
    cases progress with
    | back item => exact ih h
    | queued =>
      obtain rfl : t = u := Option.some.inj h
      exact .refl _
    | out => exact ((ih h).cons t).trans (.swap u t _)

theorem dueOf_markBack {slots : List Slot} {t : Ticket} (h : t ∈ ticketsOut slots) (item : Item) :
    (dueOf slots).Perm (t :: dueOf (markBack t item slots)) := by
  induction slots with
  | nil => cases h
  | cons s rest ih =>
    obtain ⟨u, progress⟩ := s
    cases progress with
    | back item => exact ih h
    | queued => exact ((ih h).cons u).trans (.swap t u _)
    | out =>
      by_cases hu : u = t
      · subst hu
        have hback : markBack u item (⟨u, .out⟩ :: rest) = ⟨u, .back item⟩ :: rest := if_pos (by simp [Progress.isOut])
        rw [hback]
        exact .refl _
      · have hrest : t ∈ ticketsOut rest := (List.mem_cons.1 h).resolve_left fun he => hu he.symm
        have hback : markBack t item (⟨u, .out⟩ :: rest) = ⟨u, .out⟩ :: markBack t item rest :=
          if_neg (by simp [hu])
        rw [hback]
        exact ((ih hrest).cons u).trans (.swap t u _)

theorem ticketsOut_subset_dueOf (slots : List Slot) : ticketsOut slots ⊆ dueOf slots := by
  induction slots with
  | nil => exact fun _ h => h
  | cons s rest ih =>
    obtain ⟨t, progress⟩ := s
    cases progress with
    | back item => exact ih
    | queued => exact fun u hu => List.mem_cons_of_mem t (ih hu)
    | out => exact List.cons_subset_cons t ih

/-! ## Reading events -/

theorem Idle.heard_append {l : Dialogue σ} (h : Idle l) (d : Dialogue σ) : Client.heard (l ++ d) = Client.heard d := by
  rw [Client.heard, List.filterMap_append]
  exact congrArg (· ++ Client.heard d) h.heard

theorem Idle.queried_append {l : Dialogue σ} (h : Idle l) (d : Dialogue σ) :
    Client.queried (l ++ d) = Client.queried d := by
  rw [Client.queried, List.filterMap_append]
  exact congrArg (· ++ Client.queried d) h.queried

theorem keeps_readEvent_scans (number : UInt64) (r : Reading) :
    Keeps (hearing Scans) (fun d' (_ : Item) => heard d' = heard d) (c.readEvent p number r).run d :=
  (keeps_idle (fun _ _ h => .of_isIdle h) (keeps_readEvent (fun _ _ => rfl) number r)).mono
    fun _ _ ⟨_, _, hd, hl⟩ => hd ▸ hl.heard_append d

theorem keeps_beginFetch_scans {t : Ticket} {ts : List Ticket} (h : Due d ts) (ht : t ∈ ts) :
    Keeps (hearing Scans)
      (fun d' item =>
        match item with
        | none => Due d' ts
        | some _ => ∀ us, ts.Perm (t :: us) → Due d' us)
      (c.beginFetch p t) d := by
  unfold beginFetch
  refine Keeps.bind (M := fun d' r => ∃ m, d' = ⟨.away (.fetch t c.endpoint.rpcUrl (c.eventCall t.event)), r, m⟩ :: d)
    (keeps_away ⟨.fetch (h.unheard ht), rfl⟩ fun _ m => ⟨m, rfl⟩) fun d' r ⟨m, hd'⟩ => ?_
  subst hd'
  cases r with
  | none => exact h
  | some r =>
    refine Keeps.bind (keeps_readEvent_scans t.event r) fun d'' item hheard us hperm => ?_
    exact h.hear hperm hheard

theorem keeps_awaitFetch_scans {first : Ticket} {others ts : List Ticket} (h : Due d ts) (hsub : first :: others ⊆ ts) :
    Keeps (hearing Scans) (fun d' a => ∀ us, ts.Perm (a.1.val :: us) → Due d' us) (c.awaitFetch p first others) d := by
  unfold awaitFetch
  refine Keeps.bind (M := fun d' a => ∃ m, d' = ⟨.away (.settle first others), a, m⟩ :: d)
    (keeps_away ⟨.settle fun t ht => h.unheard (hsub ht), rfl⟩ fun _ m => ⟨m, rfl⟩) fun d' a ⟨m, hd'⟩ => ?_
  subst hd'
  refine Keeps.bind (keeps_readEvent_scans a.1.val.event a.2) fun d'' item hheard us hperm => ?_
  exact h.hear hperm hheard

/-- **Work on a window asks for each event once.** -/
theorem keeps_deliver_scans (later : List Ticket) (slots : List Slot) (h : Due d (dueOf slots ++ later)) :
    Keeps (hearing Scans)
      (fun d' r => ∀ item rest, r = some (item, rest) → Due d' (dueOf rest ++ later)) (c.deliver p slots) d := by
  refine keeps_deliver_of (fun d' slots' => Due d' (dueOf slots' ++ later)) (fun d₁ slots₁ u hdue hu => ?_)
    (fun d₁ t rest hdue => ?_) (fun d₁ _ item rest hr => (by cases hr)) (fun d₁ t item rest hdue => ?_) slots h
  · have hperm : ∀ item, (dueOf slots₁ ++ later).Perm (u :: (dueOf (markBegun (some item) slots₁) ++ later)) :=
      fun item => (dueOf_markBegun_some hu item).append_right later
    have hmem : u ∈ dueOf slots₁ ++ later := (hperm (.error .notConnected)).mem_iff.2 List.mem_cons_self
    refine (keeps_beginFetch_scans hdue hmem).mono fun d₂ item hitem => ?_
    cases item with
    | none =>
      rw [dueOf_markBegun_none]
      exact hitem
    | some item => exact hitem _ (hperm item)
  · have hsub : t :: ticketsOut rest ⊆ dueOf (⟨t, .out⟩ :: rest) ++ later :=
      List.subset_append_of_subset_left _ (ticketsOut_subset_dueOf (⟨t, .out⟩ :: rest))
    refine (keeps_awaitFetch_scans hdue hsub).mono fun d₂ a ha => ha _ ?_
    have hout : a.1.val ∈ ticketsOut (⟨t, .out⟩ :: rest) := a.1.property
    exact (dueOf_markBack hout a.2).append_right later
  · rintro _ _ ⟨⟩
    exact hdue

/-- The events that a window has not heard of yet. -/
def Window.due (w : Window) : List Ticket := dueOf w.slots ++ w.waiting

theorem Window.due_refill (w : Window) : w.refill.due = w.due := by
  simp only [due, refill, dueOf_append, dueOf_queued, List.append_assoc, List.take_append_drop]

theorem keeps_next_scans {w : Window} (h : Due d w.due) :
    Keeps (hearing Scans) (fun d' r => ∀ item w', r = some (item, w') → Due d' w'.due) (w.next c p) d := by
  rw [← w.due_refill] at h
  unfold Window.next
  refine Keeps.bind (keeps_deliver_scans w.refill.waiting w.refill.slots h) fun d' r hr => ?_
  match r with
  | none => exact fun _ _ h => by cases h
  | some (item, slots) => exact fun _ _ h => by cases h; exact hr item slots rfl

theorem keeps_collect_scans (n : Nat) {w : Window} (h : Due d w.due) :
    Keeps (hearing Scans) (fun _ _ => True) (c.collect p n w).run d := by
  induction n generalizing w d with
  | zero => trivial
  | succ n ih =>
    refine Keeps.bindRun (keeps_next_scans h) fun d' r hr => ?_
    match r with
    | none => trivial
    | some (.error e, w') => trivial
    | some (.ok event, w') =>
      exact Keeps.bindOp (ih (hr (.ok event) w' rfl)) (fun _ _ _ => trivial) fun _ _ _ => trivial

theorem keeps_takeItems_scans (n : Nat) {w : Window} (h : Due d w.due) :
    Keeps (hearing Scans) (fun _ _ => True) (c.takeItems p n w) d := by
  induction n generalizing w d with
  | zero => trivial
  | succ n ih =>
    refine Keeps.bind (keeps_next_scans h) fun d' r hr => ?_
    match r with
    | none => trivial
    | some (item, w') => exact Keeps.bind (ih (hr item w' rfl)) fun _ _ _ => trivial

/-! ## Reading a trail -/

/-- A query about a product that was not asked before adds itself to what was asked. -/
theorem keeps_query_scans {function : String}
    (h : (c.endpoint.rpcUrl, c.call function (idArgs p)) ∉ (queried d).map Prod.fst) :
    Keeps (hearing Scans)
      (fun d' (_ : Except ClientError Json) =>
        (queried d').map Prod.fst = (c.endpoint.rpcUrl, c.call function (idArgs p)) :: (queried d).map Prod.fst ∧
          heard d' = heard d)
      (c.query function (idArgs p) p).run d := by
  refine Keeps.bindRun (M := fun d' r => ∃ m, d' =
      ⟨.away (.query c.endpoint.rpcUrl (c.call function (idArgs p))), r, m⟩ :: d)
    (keeps_away ⟨.query h, rfl⟩ fun _ m => ⟨m, rfl⟩) fun d' r ⟨m, hd'⟩ => ?_
  refine (keeps_idle (fun _ _ h => .of_isIdle h) (keeps_accept (fun _ _ => rfl) (some p) r)).mono
    fun d'' _ ⟨_, l, hd'', hl⟩ => ?_
  subst hd''
  rw [hl.queried_append, hl.heard_append, hd']
  exact ⟨rfl, rfl⟩

theorem keeps_getProduct_scans (hd : Idle d) :
    Keeps (hearing Scans)
      (fun d' r => ∀ record, r = .ok record →
        (queried d').map Prod.fst = [(c.endpoint.rpcUrl, c.call "get_product" (idArgs p))] ∧ heard d' = [])
      (c.getProduct p).run d := by
  unfold getProduct
  refine Keeps.bindOp (keeps_idle (fun _ _ h => .of_isIdle h) (keeps_checkNetwork (fun _ => rfl) fun _ _ => rfl))
    (fun d₁ _ ⟨_, l, h₁, hl⟩ => ?_) fun _ _ _ _ h => by cases h
  have hqueried : queried d₁ = [] := by rw [h₁, hl.queried_append, hd.queried]
  have hheard : heard d₁ = [] := by rw [h₁, hl.heard_append, hd.heard]
  refine Keeps.bindOp (keeps_query_scans (by rw [hqueried]; exact List.not_mem_nil)) (fun d₂ value ⟨hq, hh⟩ => ?_)
    fun _ _ _ _ h => by cases h
  cases ProductRecord.decode value.toSource with
  | error mismatch => exact fun _ h => by cases h
  | ok record =>
    refine fun _ _ => ⟨?_, hh.trans hheard⟩
    rw [hq, hqueried]
    rfl

theorem keeps_trailHead_scans (hd : Idle d) :
    Keeps (hearing Scans) (fun d' r => ∀ head, r = .ok head → heard d' = []) (c.trailHead p).run d := by
  unfold trailHead
  refine Keeps.bindOp (keeps_getProduct_scans hd) (fun d₁ record h₁ => ?_) fun _ _ _ _ h => by cases h
  obtain ⟨hqueried, hheard⟩ := h₁ record rfl
  have hnew : (c.endpoint.rpcUrl, c.call "get_product_event_ids" (idArgs p)) ∉ (queried d₁).map Prod.fst := by
    rw [hqueried]
    simp [call]
  refine Keeps.bindOp (keeps_query_scans hnew) (fun d₂ value ⟨_, hh⟩ => ?_) fun _ _ _ _ h => by cases h
  cases Json.Decoder.list Json.Decoder.word64 value.toSource with
  | ok ids => exact fun _ _ => hh.trans hheard
  | error mismatch => exact fun _ _ => hh.trans hheard

theorem nodup_ticketsOf (ids : List UInt64) : (ticketsOf ids).Nodup := by
  refine List.Nodup.of_map Ticket.place ?_
  rw [ticketsOf, List.map_map]
  exact List.nodup_zipIdx_map_snd ids

theorem due_ofIds (h : heard d = []) (ids : List UInt64) : Due d (Window.ofIds ids).due := by
  unfold Due
  rw [h]
  exact nodup_ticketsOf ids

/-- **A history read asks for nothing twice.** -/
theorem keeps_getHistory_anew (hd : Idle d) : Keeps (hearing Anew) (fun _ _ => True) (c.getHistory p).run d := by
  have scanned : ∀ {β : Type} {x : Run β} {ends : Dialogue σ → β → Prop} {d : Dialogue σ},
      Keeps (hearing Scans) ends x d → Keeps (hearing Anew) ends x d := fun h =>
    h.weaken (fun _ _ hq => hq.1) fun _ _ _ _ h => h
  unfold getHistory
  refine Keeps.bindOp (scanned (keeps_trailHead_scans hd)) (fun d₁ head h₁ => ?_) fun _ _ _ => trivial
  refine Keeps.bindOp (scanned (keeps_collect_scans _ (due_ofIds (h₁ head rfl) head.2))) (fun d₂ es _ => ?_)
    fun _ _ _ => trivial
  dsimp only
  split
  · trivial
  · split
    · exact Keeps.bindRun (M := fun _ _ => True) (keeps_own (.own _) fun _ _ => trivial) fun _ _ _ => trivial
    · exact Keeps.bindRun (M := fun _ _ => True) (keeps_own (.own _) fun _ _ => trivial) fun _ _ _ => trivial

theorem keeps_stream_scans (hd : Idle d) (count : Nat) :
    Keeps (hearing Scans) (fun _ _ => True) (c.stream p count) d := by
  cases count with
  | zero => trivial
  | succ count =>
    refine Keeps.bind (keeps_trailHead_scans hd) fun d₁ r h₁ => ?_
    match r with
    | .error e => trivial
    | .ok (register, ids) =>
      exact Keeps.bind (keeps_takeItems_scans count (due_ofIds (h₁ _ rfl) ids)) fun _ _ _ => trivial

/-! ## What was read is all that was read -/

theorem RecordRead.unique (hd : Once d) {r r' : ProductRecord} (h : RecordRead c p d r) (h' : RecordRead c p d r') :
    r = r' := by
  obtain ⟨v, hv, hr⟩ := h
  obtain ⟨v', hv', hr'⟩ := h'
  cases eq_of_mem_of_nodup hd.queries (mem_queried_of_told hv) (mem_queried_of_told hv')
  rw [hr] at hr'
  exact Except.ok.inj hr'

theorem IdsRead.unique (hd : Once d) {ids ids' : List UInt64} (h : IdsRead c p d ids) (h' : IdsRead c p d ids') :
    ids = ids' := by
  obtain ⟨v, hv, hr⟩ := h
  obtain ⟨v', hv', hr'⟩ := h'
  cases eq_of_mem_of_nodup hd.queries (mem_queried_of_told hv) (mem_queried_of_told hv')
  rw [hr] at hr'
  exact Except.ok.inj hr'

theorem EventRead.unique (hd : Once d) {t : Ticket} {item item' : Item} (h : EventRead p d t item)
    (h' : EventRead p d t item') : item = item' := by
  obtain ⟨r, hr, he⟩ := h
  obtain ⟨r', hr', he'⟩ := h'
  obtain rfl := eq_of_mem_of_nodup hd.events (mem_heard hr) (mem_heard hr')
  exact he.symm.trans he'

theorem EventsRead.unique (hd : Once d) {ts : List Ticket} {es es' : List Event} (h : EventsRead p d ts es)
    (h' : EventsRead p d ts es') : es = es' := by
  induction h generalizing es' with
  | nil => cases h'; rfl
  | cons he _ ih =>
    cases h' with
    | cons he' h' => rw [Except.ok.inj (he.unique hd he'), ih h']

theorem EventsRead.read {ts : List Ticket} {es : List Event} (h : EventsRead p d ts es) {t : Ticket} (ht : t ∈ ts) :
    ∃ e, EventRead p d t (.ok e) := by
  induction h with
  | nil => cases ht
  | @cons _ e _ _ he _ ih =>
    rcases List.mem_cons.1 ht with rfl | ht
    · exact ⟨e, he⟩
    · exact ih ht

/-- **A trail that was read is the only one.** -/
theorem TrailRead.unique (hd : Once d) {h h' : History} (hread : TrailRead c p d h) (hread' : TrailRead c p d h') :
    h = h' := by
  obtain ⟨record, ids, es, hrec, hids, hes, rfl⟩ := hread
  obtain ⟨record', ids', es', hrec', hids', hes', rfl⟩ := hread'
  obtain rfl := hrec.unique hd hrec'
  obtain rfl := hids.unique hd hids'
  rw [hes.unique hd hes']

theorem Idle.not_historyRead (hd : Idle d) (h : History) : ¬ HistoryRead c p d h := by
  rintro ⟨⟨record, ids, es, ⟨v, hv, -⟩, -⟩, -⟩
  exact hd.not_told rfl _ hv

/-- **A read that failed has read no history.** -/
theorem ReadFault.not_historyRead (hd : Once d) {e : ClientError} (hf : ReadFault c p d e)
    (hearly : e.isEarly = true → Idle d) (h : History) : ¬ HistoryRead c p d h := by
  intro hread
  obtain ⟨⟨record, ids, es, ⟨v, hv, hrecord⟩, ⟨w, hw, hids⟩, hes, heq⟩, first, hfirst, hkind⟩ := id hread
  cases hf with
  | network hbound hnet hne => exact (hearly rfl).not_historyRead h hread
  | recordRefused hf => cases eq_of_mem_of_nodup hd.queries (mem_queried_of_told hv) (mem_queried_of_told hf)
  | recordMalformed hf hdec =>
    cases eq_of_mem_of_nodup hd.queries (mem_queried_of_told hv) (mem_queried_of_told hf)
    rw [hrecord] at hdec
    cases hdec
  | idsRefused hf => cases eq_of_mem_of_nodup hd.queries (mem_queried_of_told hw) (mem_queried_of_told hf)
  | idsMalformed hf hdec =>
    cases eq_of_mem_of_nodup hd.queries (mem_queried_of_told hw) (mem_queried_of_told hf)
    rw [hids] at hdec
    cases hdec
  | event hids' ht hfault =>
    obtain rfl := IdsRead.unique hd ⟨w, hw, hids⟩ hids'
    obtain ⟨event, hevent⟩ := hes.read ht
    cases hevent.unique hd hfault
  | unregistered hread' hfirst' hkind' =>
    obtain rfl := hread.1.unique hd hread'
    rw [hfirst] at hfirst'
    cases hfirst'
    exact hkind' hkind

/-- **As long as a read asks outside, it has read no history.** -/
theorem MayRead.not_historyRead {q : Away} (hd : Once d) (h : MayRead c p d (.away q)) (hnew : Anew d (.away q))
    (t : History) : ¬ HistoryRead c p d t := by
  rintro ⟨⟨record, ids, es, ⟨v, hv, -⟩, hids, hes, -⟩, -⟩
  have unheard : ∀ u ids', IdsRead c p d ids' → u ∈ ticketsOf ids' → u ∉ (heard d).map Prod.fst → False := by
    intro u ids' hids' hu hnew
    obtain rfl := hids.unique hd hids'
    obtain ⟨e, r, hr, -⟩ := hes.read hu
    exact hnew (List.mem_map_of_mem (mem_heard hr))
  cases h with
  | record =>
    cases hnew with
    | query hnew => exact hnew (List.mem_map_of_mem (mem_queried_of_told hv))
  | ids =>
    cases hnew with
    | query hnew =>
      obtain ⟨w, hw, -⟩ := hids
      exact hnew (List.mem_map_of_mem (mem_queried_of_told hw))
  | event hids' ht =>
    cases hnew with
    | fetch hnew => exact unheard _ _ hids' ht hnew
  | settle hids' hsent =>
    cases hnew with
    | settle hnew => exact unheard _ _ hids' (hsent _ List.mem_cons_self).1 (hnew _ List.mem_cons_self)

end SupplyTrail.Client
