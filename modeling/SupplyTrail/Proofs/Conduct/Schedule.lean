import SupplyTrail.Proofs.Conduct.Once
/-!
# Schedule — the queries for a list of events, in whatever order they come back

The outcome of each query is given, and it comes back at once or later, in any order (`given`).  Whatever the order
is, the queries are begun in the order of the list, no more than `width` of them ahead of the events that were
delivered, and the events are delivered in the order of the list.  The invariant of the window is `Held`: the events
that are past, those in hand whose queries were begun, those in hand that are queued and those that come later make up
the list.
-/
namespace SupplyTrail.Client

open Activity

variable {σ α : Type} {c : Client} {p : ProductId} {reply : Ticket → Reading} {d d' : Dialogue σ}
  {tickets past later : List Ticket} {begunFor : List Away} {slots : List Slot}

/-! ## Given outcomes -/

/-- An answer that gives the outcome of a query for an event: at once, or not yet, or to the wait for several. -/
def Replied (reply : Ticket → Reading) : (q : Question) → q.Answer → Prop
  | .away (.fetch t _ _), reading => reading = none ∨ reading = some (reply t)
  | .away (.settle _ _), answer => answer.2 = reply answer.1.val
  | _, _ => True

/-- The rules of an operation whose queries for events have given outcomes.  All else is answered anyhow. -/
def given (reply : Ticket → Reading) (asks : Dialogue σ → Question → Prop) : Rules questions (Dialogue σ) :=
  ⟨asks, fun q d a d' => (∃ m, d' = ⟨q, a, m⟩ :: d) ∧ Replied reply q a⟩

/-- The item that the outcome of the query for an event comes to. -/
def itemOf (p : ProductId) (reply : Ticket → Reading) (t : Ticket) : Item := eventOf p t.event (reply t)

def Question.isFetch : Question → Bool
  | .away (.fetch _ _ _) => true
  | _ => false

def Turn.started? : Turn σ → Option Away
  | ⟨.away (.fetch t url call), _, _⟩ => some (.fetch t url call)
  | _ => none

/-- The queries for events that were begun, the first one first. -/
def started (d : Dialogue σ) : List Away := (d.filterMap Turn.started?).reverse

theorem started_fetch (t : Ticket) (a : Option Reading) (m : σ) (d : Dialogue σ) :
    started (⟨.away (c.eventQuery t), a, m⟩ :: d) = started d ++ [c.eventQuery t] := by
  have hsome : Turn.started? (⟨.away (c.eventQuery t), a, m⟩ : Turn σ) = some (c.eventQuery t) := rfl
  rw [started, List.filterMap_cons_some hsome, List.reverse_cons]
  rfl

theorem started_cons {q : Question} (hq : q.isFetch = false) (a : q.Answer) (m : σ) (d : Dialogue σ) :
    started (⟨q, a, m⟩ :: d) = started d := by
  have hnone : Turn.started? (⟨q, a, m⟩ : Turn σ) = none := by
    cases q with
    | own q => rfl
    | away q =>
      cases q with
      | fetch t url call => cases hq
      | _ => rfl
  rw [started, List.filterMap_cons_none hnone]
  rfl

/-- What begins no query keeps the bounds on those that were begun. -/
theorem keeps_unfetched {B : List Away → Prop} {ends : Dialogue σ → α → Prop} {x : Run α}
    (h : Keeps (hearing fun _ q => q.isFetch = false) ends x d) (hB : B (started d)) :
    Keeps (given reply fun d _ => B (started d)) (fun d' a => ends d' a ∧ started d' = started d) x d := by
  refine (h.within (fun d' => started d' = started d) rfl ?_).weaken (fun d' q hq => ?_) fun _ _ _ _ ha => ha.1
  · rintro q d₁ a d₂ hq ⟨m, rfl⟩ hd₁
    rw [started_cons hq, hd₁]
  · change B (started d')
    rwa [hq.2]

theorem keeps_beginFetch_started {B : List Away → Prop} {t : Ticket} (hB : B (started d))
    (hnext : B (started d ++ [c.eventQuery t])) :
    Keeps (given reply fun d _ => B (started d))
      (fun d' item => started d' = started d ++ [c.eventQuery t] ∧ ∀ i, item = some i → i = itemOf p reply t)
      (c.beginFetch p t) d := by
  unfold beginFetch
  refine Keeps.bind (M := fun d' r => started d' = started d ++ [c.eventQuery t] ∧ (r = none ∨ r = some (reply t)))
    ⟨hB, fun r d' ⟨⟨m, hd'⟩, hr⟩ => ⟨hd' ▸ started_fetch t r m d, hr⟩⟩ ?_
  rintro d' _ ⟨hd', rfl | rfl⟩
  · exact ⟨hd', nofun⟩
  · refine Keeps.bind (keeps_unfetched (keeps_readEvent (fun _ _ => rfl) t.event (reply t)) (hd' ▸ hnext)) ?_
    rintro d'' item ⟨⟨-, hitem⟩, hd''⟩
    exact ⟨hd''.trans hd', fun i hi => by cases hi; exact hitem⟩

theorem keeps_awaitFetch_started {B : List Away → Prop} {first : Ticket} {others : List Ticket}
    (hB : B (started d)) :
    Keeps (given reply fun d _ => B (started d))
      (fun d' a => started d' = started d ∧ a.2 = itemOf p reply a.1.val) (c.awaitFetch p first others) d := by
  unfold awaitFetch
  refine Keeps.bind (M := fun d' a => started d' = started d ∧ a.2 = reply a.1.val)
    ⟨hB, fun a d' ⟨⟨m, hd'⟩, ha⟩ => ⟨hd' ▸ started_cons (q := .away (.settle first others)) rfl a m d, ha⟩⟩ ?_
  rintro d' ⟨t, r⟩ ⟨hd', hr⟩
  obtain rfl : r = reply t.val := hr
  refine Keeps.bind (keeps_unfetched (keeps_readEvent (fun _ _ => rfl) t.val.event _) (hd' ▸ hB)) ?_
  rintro d'' item ⟨⟨-, hitem⟩, hd''⟩
  exact ⟨hd''.trans hd', hitem⟩

/-! ## The window -/

def queuedSlot (t : Ticket) : Slot := ⟨t, .queued⟩

/-- The query for an event in hand was begun, and if it is back, then with its outcome. -/
def Slot.Begun (p : ProductId) (reply : Ticket → Reading) (s : Slot) : Prop :=
  match s.progress with
  | .queued => False
  | .out => True
  | .back item => item = itemOf p reply s.ticket

/-- Where the queries for a list of events stand, when those for some were begun: some events are past, the queries for
the first ones in hand were begun, the others in hand are queued, and the rest comes later. -/
structure Held (c : Client) (p : ProductId) (reply : Ticket → Reading) (tickets past : List Ticket)
    (begunFor : List Away) (slots : List Slot) (later : List Ticket) : Prop where
  room : slots.length ≤ width
  parts : ∃ front back, slots = front ++ back.map queuedSlot ∧ (∀ s ∈ front, s.Begun p reply) ∧
    tickets = past ++ (eventsOf front ++ (back ++ later)) ∧ begunFor = (past ++ eventsOf front).map c.eventQuery

/-- Queries were begun in the order of the list, and no more than there may be with so many events delivered. -/
structure InTime (c : Client) (tickets : List Ticket) (delivered : Nat) (begunFor : List Away) : Prop where
  order : begunFor <+: tickets.map c.eventQuery
  bound : begunFor.length ≤ delivered + 8

theorem eventsOf_append (slots more : List Slot) : eventsOf (slots ++ more) = eventsOf slots ++ eventsOf more :=
  List.map_append

theorem eventsOf_queued (back : List Ticket) : eventsOf (back.map queuedSlot) = back := by
  rw [eventsOf, List.map_map]
  exact List.map_id back

theorem Held.order (h : Held c p reply tickets past begunFor slots later) :
    tickets = past ++ (eventsOf slots ++ later) := by
  obtain ⟨front, back, rfl, -, rfl, -⟩ := h.parts
  rw [eventsOf_append, eventsOf_queued, List.append_assoc]

theorem Held.inTime (h : Held c p reply tickets past begunFor slots later) : InTime c tickets past.length begunFor := by
  have hroom := h.room
  obtain ⟨front, back, rfl, -, rfl, rfl⟩ := h.parts
  refine ⟨⟨(back ++ later).map c.eventQuery, by rw [← List.map_append, List.append_assoc]⟩, ?_⟩
  simp only [List.length_append, eventsOf, List.length_map, width] at hroom ⊢
  omega

theorem firstQueued?_append {front : List Slot} (hfront : ∀ s ∈ front, s.Begun p reply) (back : List Ticket) :
    firstQueued? (front ++ back.map queuedSlot) = back.head? := by
  induction front with
  | nil => cases back <;> rfl
  | cons s rest ih =>
    obtain ⟨hs, hrest⟩ := List.forall_mem_cons.1 hfront
    obtain ⟨t, progress⟩ := s
    cases progress with
    | queued => exact hs.elim
    | out | back item => exact ih hrest

theorem markBegun_append {front : List Slot} (hfront : ∀ s ∈ front, s.Begun p reply) (u : Ticket) (back : List Ticket)
    (item : Option Item) : markBegun item (front ++ (u :: back).map queuedSlot) =
      (front ++ [⟨u, begun item⟩]) ++ back.map queuedSlot := by
  induction front with
  | nil => rfl
  | cons s rest ih =>
    obtain ⟨hs, hrest⟩ := List.forall_mem_cons.1 hfront
    obtain ⟨t, progress⟩ := s
    cases progress with
    | queued => exact hs.elim
    | out | back item => exact congrArg (_ :: ·) (ih hrest)

theorem markBack_queued (t : Ticket) (item : Item) (back : List Ticket) :
    markBack t item (back.map queuedSlot) = back.map queuedSlot := by
  induction back with
  | nil => rfl
  | cons u rest ih => exact congrArg (_ :: ·) ih

theorem markBack_append (t : Ticket) (item : Item) (front : List Slot) (back : List Ticket) :
    markBack t item (front ++ back.map queuedSlot) = markBack t item front ++ back.map queuedSlot := by
  induction front with
  | nil => exact markBack_queued t item back
  | cons s rest ih =>
    rw [List.cons_append, markBack, markBack]
    split
    · rfl
    · rw [ih, List.cons_append]

theorem begun_markBack {front : List Slot} (hfront : ∀ s ∈ front, s.Begun p reply) {t : Ticket} {item : Item}
    (hitem : item = itemOf p reply t) : ∀ s ∈ markBack t item front, s.Begun p reply := by
  induction front with
  | nil => exact hfront
  | cons s rest ih =>
    obtain ⟨hs, hrest⟩ := List.forall_mem_cons.1 hfront
    rw [markBack]
    split
    · rename_i hmatch
      obtain rfl : s.ticket = t := by simpa using (Bool.and_eq_true_iff.1 hmatch).2
      exact List.forall_mem_cons.2 ⟨hitem, hrest⟩
    · exact List.forall_mem_cons.2 ⟨hs, ih hrest⟩

theorem length_eq_of_eventsOf {more : List Slot} (h : eventsOf more = eventsOf slots) : more.length = slots.length := by
  simpa [eventsOf] using congrArg List.length h

/-- The query for the first queued event is begun: it is the next one of the list. -/
theorem Held.begin (h : Held c p reply tickets past begunFor slots later) {u : Ticket}
    (hu : firstQueued? slots = some u) {item : Option Item} (hitem : ∀ i, item = some i → i = itemOf p reply u) :
    Held c p reply tickets past (begunFor ++ [c.eventQuery u]) (markBegun item slots) later := by
  refine ⟨Nat.le_trans (Nat.le_of_eq (length_eq_of_eventsOf (eventsOf_markBegun item slots))) h.room, ?_⟩
  obtain ⟨front, back, rfl, hfront, rfl, rfl⟩ := h.parts
  rw [firstQueued?_append hfront] at hu
  cases back with
  | nil => cases hu
  | cons v back =>
    obtain rfl : v = u := Option.some.inj hu
    have hbegun : Slot.Begun p reply ⟨v, begun item⟩ := by
      cases item with
      | none => trivial
      | some i => exact hitem i rfl
    refine ⟨front ++ [⟨v, begun item⟩], back, markBegun_append hfront v back item,
      List.forall_mem_append.2 ⟨hfront, List.forall_mem_singleton.2 hbegun⟩, ?_, ?_⟩
    · simp [eventsOf]
    · simp [eventsOf]

theorem Held.next (h : Held c p reply tickets past begunFor slots later) {u : Ticket}
    (hu : firstQueued? slots = some u) : InTime c tickets past.length (begunFor ++ [c.eventQuery u]) := by
  have hbegin : Held c p reply tickets past (begunFor ++ [c.eventQuery u]) (markBegun none slots) later :=
    h.begin hu nofun
  exact hbegin.inTime

theorem Held.back (h : Held c p reply tickets past begunFor slots later) {t : Ticket} {item : Item}
    (hitem : item = itemOf p reply t) : Held c p reply tickets past begunFor (markBack t item slots) later := by
  refine ⟨Nat.le_trans (Nat.le_of_eq (length_eq_of_eventsOf (eventsOf_markBack t item slots))) h.room, ?_⟩
  obtain ⟨front, back, rfl, hfront, horder, hbegun⟩ := h.parts
  exact ⟨markBack t item front, back, markBack_append t item front back, begun_markBack hfront hitem,
    by rwa [eventsOf_markBack], by rwa [eventsOf_markBack]⟩

/-- The first event in hand is back: it is the next one of the list, with its outcome. -/
theorem Held.deliver {t : Ticket} {item : Item} {rest : List Slot}
    (h : Held c p reply tickets past begunFor (⟨t, .back item⟩ :: rest) later) :
    item = itemOf p reply t ∧ Held c p reply tickets (past ++ [t]) begunFor rest later := by
  have hroom := h.room
  obtain ⟨front, back, hslots, hfront, rfl, rfl⟩ := h.parts
  cases front with
  | nil => cases back <;> cases hslots
  | cons s front =>
    obtain ⟨rfl, rfl⟩ := List.cons.inj hslots
    obtain ⟨hs, hfront⟩ := List.forall_mem_cons.1 hfront
    refine ⟨hs, Nat.le_of_succ_le hroom, front, back, rfl, hfront, ?_, ?_⟩
    · simp [eventsOf]
    · simp [eventsOf]

theorem Held.refill {w : Window} (h : Held c p reply tickets past begunFor w.slots w.waiting) :
    Held c p reply tickets past begunFor w.refill.slots w.refill.waiting := by
  have hroom := h.room
  obtain ⟨front, back, hslots, hfront, rfl, rfl⟩ := h.parts
  refine ⟨?_, front, back ++ w.waiting.take (width - w.slots.length), ?_, hfront, ?_, rfl⟩
  · simp only [Window.refill, List.length_append, List.length_map, List.length_take]
    omega
  · simp only [Window.refill, hslots, List.map_append, List.append_assoc]
    rfl
  · simp only [Window.refill, List.append_assoc, List.take_append_drop]

theorem held_ofIds (c : Client) (p : ProductId) (reply : Ticket → Reading) (ids : List UInt64) :
    Held c p reply (ticketsOf ids) [] [] (Window.ofIds ids).slots (Window.ofIds ids).waiting :=
  ⟨Nat.zero_le _, [], [], rfl, List.forall_mem_nil _, rfl, rfl⟩

/-- What work on a window delivers: nothing if no event is in hand, else the outcome for the first one, which then is
past. -/
def HandedOver (c : Client) (p : ProductId) (reply : Ticket → Reading) (tickets past inHand later : List Ticket)
    (d : Dialogue σ) : Option (Item × List Slot) → Prop
  | none => inHand = []
  | some (item, rest) => ∃ t, inHand = t :: eventsOf rest ∧ item = itemOf p reply t ∧
    Held c p reply tickets (past ++ [t]) (started d) rest later

/-- **Work on a window begins its queries in time** and delivers the outcome for its first event. -/
theorem keeps_deliver_held (slots : List Slot) (h : Held c p reply tickets past (started d) slots later) :
    Keeps (given reply fun d _ => InTime c tickets past.length (started d))
      (fun d' r => InTime c tickets past.length (started d') ∧
        HandedOver c p reply tickets past (eventsOf slots) later d' r)
      (c.deliver p slots) d := by
  refine keeps_deliver_of
    (fun d' slots' => Held c p reply tickets past (started d') slots' later ∧ eventsOf slots' = eventsOf slots)
    (fun d₁ slots₁ u ⟨hheld, hsame⟩ hu => ?_) (fun d₁ t rest ⟨hheld, hsame⟩ => ?_)
    (fun d₁ ⟨hheld, hsame⟩ => ?_) (fun d₁ t item rest ⟨hheld, hsame⟩ => ?_) slots ⟨h, rfl⟩
  · refine (keeps_beginFetch_started hheld.inTime (hheld.next hu)).mono fun d₂ item ⟨hd, hitem⟩ => ?_
    rw [hd]
    exact ⟨hheld.begin hu hitem, (eventsOf_markBegun item slots₁).trans hsame⟩
  · refine (keeps_awaitFetch_started hheld.inTime).mono fun d₂ a ⟨hd, ha⟩ => ?_
    rw [hd]
    exact ⟨hheld.back ha, (eventsOf_markBack _ _ _).trans hsame⟩
  · exact ⟨hheld.inTime, hsame.symm⟩
  · exact ⟨hheld.inTime, t, hsame.symm, hheld.deliver⟩

/-- The next item of a window: none if all events of the list are past, else the outcome for the next one, which then is
past too. -/
def Forwarded (c : Client) (p : ProductId) (reply : Ticket → Reading) (tickets past : List Ticket) (d : Dialogue σ) :
    Option (Item × Window) → Prop
  | none => past = tickets
  | some (item, w) => ∃ t, item = itemOf p reply t ∧
    Held c p reply tickets (past ++ [t]) (started d) w.slots w.waiting

theorem keeps_next_held {w : Window} (h : Held c p reply tickets past (started d) w.slots w.waiting) :
    Keeps (given reply fun d _ => InTime c tickets past.length (started d))
      (fun d' r => InTime c tickets past.length (started d') ∧ Forwarded c p reply tickets past d' r)
      (w.next c p) d := by
  unfold Window.next
  refine Keeps.bind (keeps_deliver_held w.refill.slots h.refill) fun d' r ⟨htime, hr⟩ => ?_
  match r with
  | none =>
    have hrest : eventsOf w.slots ++ w.waiting = [] := Window.rest_eq_nil hr
    have horder := h.order
    rw [hrest, List.append_nil] at horder
    exact ⟨htime, horder.symm⟩
  | some (item, slots) =>
    obtain ⟨t, -, hitem, hheld⟩ := hr
    exact ⟨htime, t, hitem, hheld⟩

/-! ## Around the window -/

/-- A trail's head is asked for before any of its events. -/
theorem keeps_trailHead_unfetched :
    Keeps (hearing fun _ q => q.isFetch = false) (fun _ _ => True) (c.trailHead p).run d := by
  unfold trailHead getProduct
  refine Keeps.bindOp (M := fun _ _ => True) ?_ (fun d₁ record _ => ?_) fun _ _ _ => trivial
  · refine Keeps.bindOp (keeps_checkNetwork (fun _ => rfl) fun _ _ => rfl) (fun d₁ _ _ => ?_) fun _ _ _ => trivial
    refine Keeps.bindOp (keeps_query (fun _ _ => rfl) rfl) (fun d₂ value _ => ?_) fun _ _ _ => trivial
    split <;> trivial
  · refine Keeps.bindOp (keeps_query (fun _ _ => rfl) rfl) (fun d₂ value _ => ?_) fun _ _ _ => trivial
    split <;> trivial

end SupplyTrail.Client
