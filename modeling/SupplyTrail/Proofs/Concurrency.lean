import SupplyTrail.Proofs.Conduct.Schedule
import SupplyTrail.Proofs.Trail.Order
/-!
# Concurrency — a history read with several queries out is the plain one

A trail is read with up to eight queries out, and they come back in any order.  Given what comes back for each event,
the events are delivered in the order of their list at every moment of the read (`Reaches`), and what the whole read
ends in is what it ends in when the events are fetched one by one (`historyInTurn`).
-/
namespace SupplyTrail.Client

open Activity

variable {σ α : Type} {c : Client} {p : ProductId} {reply : Ticket → Reading} {d d' : Dialogue σ}

/-! ## Moments of a read -/

/-- The rules of a read whose queries for events have given outcomes, and which may ask anything. -/
abbrev served (reply : Ticket → Reading) : Rules questions (Dialogue σ) := given reply fun _ _ => True

theorem suffix_of_served {x y : Run α} (h : Goes (served reply) x d y d') : d <:+ d' :=
  suffix_of_goes (h.mono (Q := hearing fun _ _ => True) fun _ _ _ _ ha => ha.1)

/-- Where the read of a trail is, for someone who takes its items one at a time. -/
inductive Stage where
  /-- The registration and the numbers of the events are asked for. -/
  | heading
  /-- No item is wanted. -/
  | resting (w : Window)
  /-- The next item is wanted. -/
  | pulling
  /-- There are no more items. -/
  | finished

/-- What the read of a trail may have delivered, where it may be then, and after which dialogue.  Items are taken one at
a time, for as long as they are wanted. -/
inductive Reaches (c : Client) (p : ProductId) (reply : Ticket → Reading) : List Item → Stage → Dialogue σ → Prop
  | heading {y : Run (Except ClientError (Event × List UInt64))} {d : Dialogue σ}
      (h : Goes (served reply) (c.trailHead p).run [] y d) : Reaches c p reply [] .heading d
  | headless {e : ClientError} {d : Dialogue σ}
      (h : Goes (served reply) (c.trailHead p).run [] (.done (.error e)) d) : Reaches c p reply [.error e] .finished d
  | headed {register : Event} {ids : List UInt64} {d : Dialogue σ}
      (h : Goes (served reply) (c.trailHead p).run [] (.done (.ok (register, ids))) d) :
      Reaches c p reply [.ok register] (.resting (.ofIds ids)) d
  | pulling {items : List Item} {w : Window} {y : Run (Option (Item × Window))} {d d' : Dialogue σ}
      (h : Reaches c p reply items (.resting w) d) (hnext : Goes (served reply) (w.next c p) d y d') :
      Reaches c p reply items .pulling d'
  | delivered {items : List Item} {w w' : Window} {item : Item} {d d' : Dialogue σ}
      (h : Reaches c p reply items (.resting w) d)
      (hnext : Goes (served reply) (w.next c p) d (.done (some (item, w'))) d') :
      Reaches c p reply (items ++ [item]) (.resting w') d'
  | ended {items : List Item} {w : Window} {d d' : Dialogue σ} (h : Reaches c p reply items (.resting w) d)
      (hnext : Goes (served reply) (w.next c p) d (.done none) d') : Reaches c p reply items .finished d'

/-- A moment of a read at which its items came in order and its queries were begun in time. -/
inductive Paced (c : Client) (p : ProductId) (reply : Ticket → Reading) : List Item → Stage → Dialogue σ → Prop
  /-- Nothing was delivered before the head of the trail is there, and no event was asked for. -/
  | heading {d : Dialogue σ} (hnone : started d = []) : Paced c p reply [] .heading d
  /-- Without a head there is its fault and nothing else. -/
  | headless {e : ClientError} {d : Dialogue σ} (hfault : ReadFault c p d e) (hnone : started d = []) :
      Paced c p reply [.error e] .finished d
  /-- The registration was delivered, and then the outcomes for the first events of the list in its order: for all of
  them once the read is over.  The queries were begun in the order of the list, each once, and no more than eight of
  them beyond the events that were delivered. -/
  | trail {record : ProductRecord} {ids : List UInt64} {past : List Ticket} {stage : Stage} {d : Dialogue σ}
      (hrecord : RecordRead c p d record) (hids : IdsRead c p d ids) (hpast : past <+: ticketsOf ids)
      (hover : stage = .finished → past = ticketsOf ids) (honce : (started d).Nodup)
      (hahead : InTime c (ticketsOf ids) past.length (started d)) :
      Paced c p reply (.ok record.registerEvent :: past.map (itemOf p reply)) stage d

/-- The invariant of a read: what is in hand while no item is wanted, and that queries were begun in time. -/
inductive Standing (c : Client) (p : ProductId) (reply : Ticket → Reading) : List Item → Stage → Dialogue σ → Prop
  | heading {d : Dialogue σ} (hnone : started d = []) : Standing c p reply [] .heading d
  | headless {e : ClientError} {d : Dialogue σ} (hfault : ReadFault c p d e) (hnone : started d = []) :
      Standing c p reply [.error e] .finished d
  | resting {record : ProductRecord} {ids : List UInt64} {past : List Ticket} {w : Window} {d : Dialogue σ}
      (hrecord : RecordRead c p d record) (hids : IdsRead c p d ids)
      (hheld : Held c p reply (ticketsOf ids) past (started d) w.slots w.waiting) :
      Standing c p reply (.ok record.registerEvent :: past.map (itemOf p reply)) (.resting w) d
  | pulling {record : ProductRecord} {ids : List UInt64} {past : List Ticket} {d : Dialogue σ}
      (hrecord : RecordRead c p d record) (hids : IdsRead c p d ids) (hpast : past <+: ticketsOf ids)
      (hahead : InTime c (ticketsOf ids) past.length (started d)) :
      Standing c p reply (.ok record.registerEvent :: past.map (itemOf p reply)) .pulling d
  | finished {record : ProductRecord} {ids : List UInt64} {d : Dialogue σ} (hrecord : RecordRead c p d record)
      (hids : IdsRead c p d ids) (hahead : InTime c (ticketsOf ids) (ticketsOf ids).length (started d)) :
      Standing c p reply (.ok record.registerEvent :: (ticketsOf ids).map (itemOf p reply)) .finished d

theorem Held.past_prefix {tickets past later : List Ticket} {begunFor : List Away} {slots : List Slot}
    (h : Held c p reply tickets past begunFor slots later) : past <+: tickets :=
  ⟨_, h.order.symm⟩

theorem eventQuery_injective (c : Client) : Function.Injective c.eventQuery := fun _ _ h => (Away.fetch.inj h).1

theorem InTime.nodup {ids : List UInt64} {n : Nat} {begunFor : List Away} (h : InTime c (ticketsOf ids) n begunFor) :
    begunFor.Nodup :=
  ((nodup_ticketsOf ids).map (eventQuery_injective c)).sublist h.order.sublist

theorem Standing.paced {items : List Item} {stage : Stage} (h : Standing c p reply items stage d) :
    Paced c p reply items stage d := by
  cases h with
  | heading hnone => exact .heading hnone
  | headless hfault hnone => exact .headless hfault hnone
  | resting hrecord hids hheld =>
    exact .trail hrecord hids hheld.past_prefix nofun hheld.inTime.nodup hheld.inTime
  | pulling hrecord hids hpast hahead => exact .trail hrecord hids hpast nofun hahead.nodup hahead
  | finished hrecord hids hahead => exact .trail hrecord hids (List.prefix_refl _) (fun _ => rfl) hahead.nodup hahead

theorem started_of_unfetched {ends : Dialogue σ → α → Prop} {x y : Run α}
    (h : Keeps (hearing fun _ q => q.isFetch = false) ends x d) (hgoes : Goes (served reply) x d y d') :
    started d' = started d :=
  (keeps_unfetched (B := (· = started d)) h rfl).at hgoes (fun _ _ _ _ ha => ha) (fun _ _ hask => hask)
    fun _ _ hends => hends.2

theorem started_of_head {y : Run (Except ClientError (Event × List UInt64))}
    (h : Goes (served reply) (c.trailHead p).run [] y d) : started d = [] :=
  started_of_unfetched keeps_trailHead_unfetched h

theorem standing_of_reaches {items : List Item} {stage : Stage} (h : Reaches c p reply items stage d) :
    Standing c p reply items stage d := by
  induction h with
  | heading h => exact .heading (started_of_head h)
  | headless h =>
    obtain ⟨-, hfault⟩ := keeps_trailHead.goes h fun _ _ _ _ ha => ha.1
    exact .headless hfault.fault (started_of_head h)
  | @headed register ids d h =>
    obtain ⟨-, record, hrecord, rfl, hids⟩ := keeps_trailHead.goes h fun _ _ _ _ ha => ha.1
    have hheld : Held c p reply (ticketsOf ids) [] (started d) (Window.ofIds ids).slots (Window.ofIds ids).waiting := by
      rw [started_of_head h]
      exact held_ofIds c p reply ids
    exact .resting hrecord hids hheld
  | @pulling items w y d d' h hnext ih =>
    cases ih with
    | resting hrecord hids hheld =>
      have hd := suffix_of_served hnext
      exact .pulling (hrecord.mono hd) (hids.mono hd) hheld.past_prefix ((keeps_next_held hheld).at hnext
        (fun _ _ _ _ ha => ha) (fun _ _ hask => hask) fun _ _ hends => hends.1)
  | @delivered items w w' item d d' h hnext ih =>
    cases ih with
    | resting hrecord hids hheld =>
      have hd := suffix_of_served hnext
      obtain ⟨-, t, rfl, hheld'⟩ := (keeps_next_held hheld).goes hnext fun _ _ _ _ ha => ha
      rw [List.cons_append, ← List.map_singleton, ← List.map_append]
      exact .resting (hrecord.mono hd) (hids.mono hd) hheld'
  | @ended items w d d' h hnext ih =>
    cases ih with
    | resting hrecord hids hheld =>
      have hd := suffix_of_served hnext
      obtain ⟨htime, rfl⟩ := (keeps_next_held hheld).goes hnext fun _ _ _ _ ha => ha
      exact .finished (hrecord.mono hd) (hids.mono hd) htime

/-- **At every moment of a read its items came in order and its queries were begun in time.** -/
theorem paced_of_reaches {items : List Item} {stage : Stage} (h : Reaches c p reply items stage d) :
    Paced c p reply items stage d :=
  (standing_of_reaches h).paced

/-! ## Operations -/

/-- What an activity that takes items has ended in: the items that came, as many as were wanted unless there are no
more. -/
def Taken (count : Nat) (items : List Item) (stage : Stage) : Run (List Item × Bool) → Prop
  | .ask _ _ => True
  | .done (result, ended) => result = items ∧ items.length ≤ count ∧ ended = decide (items.length < count) ∧
    (ended = true → stage = .finished)

theorem Reaches.of_takeItems {n : Nat} {items : List Item} {w : Window} {y : Run (List Item × Bool)}
    (h : Reaches c p reply items (.resting w) d) (hgoes : Goes (served reply) (c.takeItems p n w) d y d') :
    ∃ more stage, Reaches c p reply (items ++ more) stage d' ∧ Taken n more stage y := by
  induction n generalizing items w d y with
  | zero =>
    obtain ⟨rfl, rfl⟩ := hgoes.done_cases
    exact ⟨[], .resting w, by rwa [List.append_nil], rfl, Nat.le_refl 0, rfl, nofun⟩
  | succ n ih =>
    rcases Goes.of_bind hgoes with ⟨q, next, hnext, rfl⟩ | ⟨r, t, hnext, hrest⟩
    · exact ⟨[], .pulling, by rw [List.append_nil]; exact .pulling h hnext, trivial⟩
    · match r with
      | none =>
        obtain ⟨rfl, rfl⟩ := hrest.done_cases
        exact ⟨[], .finished, by rw [List.append_nil]; exact .ended h hnext, rfl, Nat.zero_le _, rfl, fun _ => rfl⟩
      | some (item, w') =>
        rcases Goes.of_bind hrest with ⟨q, next, hmore, rfl⟩ | ⟨⟨result, ended⟩, t', hmore, hlast⟩
        · obtain ⟨more, stage, hreach, -⟩ := ih (.delivered h hnext) hmore
          exact ⟨item :: more, stage, by rwa [List.append_assoc] at hreach, trivial⟩
        · obtain ⟨rfl, rfl⟩ := hlast.done_cases
          obtain ⟨more, stage, hreach, rfl, hle, rfl, hover⟩ := ih (.delivered h hnext) hmore
          exact ⟨item :: result, stage, by rwa [List.append_assoc] at hreach, rfl, Nat.succ_le_succ hle, by simp, hover⟩

/-- **A stream is a read**: at every moment it is where a read may be, and it ends in the items that came. -/
theorem reaches_of_stream {count : Nat} {y : Run (List Item × Bool)}
    (h : Goes (served reply) (c.stream p count) [] y d) :
    ∃ items stage, Reaches c p reply items stage d ∧ Taken count items stage y := by
  cases count with
  | zero =>
    obtain ⟨rfl, rfl⟩ := h.done_cases
    exact ⟨[], .heading, .heading .refl, rfl, Nat.le_refl 0, rfl, nofun⟩
  | succ count =>
    rcases Goes.of_bind h with ⟨q, next, hhead, rfl⟩ | ⟨r, t, hhead, hrest⟩
    · exact ⟨[], .heading, .heading hhead, trivial⟩
    · match r with
      | .error e =>
        obtain ⟨rfl, rfl⟩ := hrest.done_cases
        exact ⟨[.error e], .finished, .headless hhead, rfl, Nat.succ_le_succ (Nat.zero_le _),
          by simp [Nat.pos_iff_ne_zero], fun _ => rfl⟩
      | .ok (register, ids) =>
        rcases Goes.of_bind hrest with ⟨q, next, hmore, rfl⟩ | ⟨⟨result, ended⟩, t', hmore, hlast⟩
        · obtain ⟨more, stage, hreach, -⟩ := Reaches.of_takeItems (.headed hhead) hmore
          exact ⟨_, stage, hreach, trivial⟩
        · obtain ⟨rfl, rfl⟩ := hlast.done_cases
          obtain ⟨more, stage, hreach, rfl, hle, rfl, hover⟩ := Reaches.of_takeItems (.headed hhead) hmore
          exact ⟨_, stage, hreach, rfl, Nat.succ_le_succ hle, by simp, hover⟩

theorem Reaches.of_collect {n : Nat} {items : List Item} {w : Window} {y : Run (Except ClientError (List Event))}
    (h : Reaches c p reply items (.resting w) d) (hgoes : Goes (served reply) (c.collect p n w).run d y d') :
    ∃ items' stage, Reaches c p reply items' stage d' := by
  induction n generalizing items w d y with
  | zero =>
    obtain ⟨-, rfl⟩ := hgoes.done_cases
    exact ⟨items, .resting w, h⟩
  | succ n ih =>
    rcases Goes.of_bindRun hgoes with ⟨q, next, hnext, -⟩ | ⟨r, t, hnext, hrest⟩
    · exact ⟨items, .pulling, .pulling h hnext⟩
    · match r with
      | none =>
        obtain ⟨-, rfl⟩ := hrest.done_cases
        exact ⟨items, .finished, .ended h hnext⟩
      | some (.error e, w') =>
        obtain ⟨-, rfl⟩ := hrest.done_cases
        exact ⟨items ++ [.error e], .resting w', .delivered h hnext⟩
      | some (.ok event, w') =>
        rcases Goes.of_bindOp hrest with ⟨q, next, hmore, -⟩ | ⟨e, hmore, -⟩ | ⟨events, t', hmore, hlast⟩
        · exact ih (.delivered h hnext) hmore
        · exact ih (.delivered h hnext) hmore
        · obtain ⟨-, rfl⟩ := hlast.done_cases
          exact ih (.delivered h hnext) hmore

/-- Read a history, its listed events in the given way. -/
def historyWith (c : Client) (p : ProductId) (body : List UInt64 → Op (List Event)) : Op History := do
  let (register, ids) ← c.trailHead p
  let events ← body ids
  conclude p (.ofEvents p (register :: events))

theorem getHistory_eq_historyWith (c : Client) (p : ProductId) :
    c.getHistory p = c.historyWith p fun ids => c.collect p ids.length (.ofIds ids) :=
  getHistory_eq c p

/-- A history that begins with a registration, or why another one is refused. -/
def concluded (p : ProductId) (history : History) : Except ClientError History :=
  match history.first? with
  | none => .error (.unknownProduct p)
  | some first => if first.kind = .register then .ok history else .error (.malformed (.unregistered p))

theorem keeps_conclude (p : ProductId) (history : History) :
    Keeps (hearing fun _ q => q.isFetch = false) (fun _ r => r = concluded p history) (conclude p history).run d := by
  unfold conclude concluded
  cases history.first? with
  | none => exact rfl
  | some first =>
    dsimp only
    by_cases hkind : first.kind = .register
    · rw [if_pos hkind, if_neg (not_not.2 hkind)]
      exact Keeps.bindRun (M := fun _ _ => True) (keeps_own rfl fun _ _ => trivial) fun _ _ _ => rfl
    · rw [if_neg hkind, if_pos hkind]
      exact Keeps.bindRun (M := fun _ _ => True) (keeps_own rfl fun _ _ => trivial) fun _ _ _ => rfl

/-- **The read of a history is a read too**: at every moment it is where a read may be, but for what it asks its own
process at the end. -/
theorem reaches_of_getHistory {y : Run (Except ClientError History)}
    (h : Goes (served reply) (c.getHistory p).run [] y d) :
    ∃ items stage d₀, Reaches c p reply items stage d₀ ∧ d₀ <:+ d ∧ started d = started d₀ := by
  rw [getHistory_eq_historyWith] at h
  rcases Goes.of_bindOp h with ⟨q, next, hhead, -⟩ | ⟨e, hhead, -⟩ | ⟨⟨register, ids⟩, t, hhead, hrest⟩
  · exact ⟨[], .heading, d, .heading hhead, List.suffix_refl d, rfl⟩
  · exact ⟨[.error e], .finished, d, .headless hhead, List.suffix_refl d, rfl⟩
  · rcases Goes.of_bindOp hrest with ⟨q, next, hmore, -⟩ | ⟨e, hmore, -⟩ | ⟨events, t', hmore, hlast⟩
    · obtain ⟨items, stage, hreach⟩ := Reaches.of_collect (.headed hhead) hmore
      exact ⟨items, stage, d, hreach, List.suffix_refl d, rfl⟩
    · obtain ⟨items, stage, hreach⟩ := Reaches.of_collect (.headed hhead) hmore
      exact ⟨items, stage, d, hreach, List.suffix_refl d, rfl⟩
    · obtain ⟨items, stage, hreach⟩ := Reaches.of_collect (.headed hhead) hmore
      exact ⟨items, stage, t', hreach, suffix_of_served hlast, started_of_unfetched (keeps_conclude p _) hlast⟩

/-! ## One event at a time -/

/-- Fetch one event and wait for it. -/
def fetchAlone (c : Client) (p : ProductId) (t : Ticket) : Run Item := do
  match ← c.beginFetch p t with
  | some item => return item
  | none => return (← c.awaitFetch p t []).2

/-- Fetch events one by one, up to the first failure. -/
def fetchInTurn (c : Client) (p : ProductId) : List Ticket → Op (List Event)
  | [] => return []
  | t :: rest => do
    let event ← ExceptT.mk (c.fetchAlone p t)
    return event :: (← c.fetchInTurn p rest)

/-- The plain read of a history: one query at a time. -/
def historyInTurn (c : Client) (p : ProductId) : Op History :=
  c.historyWith p fun ids => c.fetchInTurn p (ticketsOf ids)

theorem keeps_fetchAlone (t : Ticket) :
    Keeps (served reply) (fun _ item => item = itemOf p reply t) (c.fetchAlone p t) d := by
  unfold fetchAlone
  refine Keeps.bind (keeps_beginFetch_started (B := fun _ => True) trivial trivial) fun d₁ r ⟨_, hr⟩ => ?_
  cases r with
  | some item => exact hr item rfl
  | none =>
    refine Keeps.bind (keeps_awaitFetch_started (B := fun _ => True) trivial) fun d₂ a ⟨_, ha⟩ => ?_
    obtain ⟨⟨u, hu⟩, item⟩ := a
    obtain rfl : u = t := List.mem_singleton.1 hu
    exact ha

/-- The events that come after one event, and it before them. -/
theorem keeps_cons {x : Op (List Event)} {rest : Except ClientError (List Event)} (event : Event)
    (h : Keeps (served reply) (fun _ r => r = rest) x.run d) :
    Keeps (served reply) (fun _ r => r = rest >>= fun events => pure (event :: events))
      (x >>= fun events => pure (event :: events)).run d := by
  refine Keeps.bindOp h (fun d₁ events hevents => ?_) fun d₁ e he => ?_
  · rw [← hevents]
    exact rfl
  · rw [← he]
    rfl

theorem keeps_fetchInTurn (tickets : List Ticket) :
    Keeps (served reply) (fun _ r => r = tickets.mapM (itemOf p reply)) (c.fetchInTurn p tickets).run d := by
  induction tickets generalizing d with
  | nil => exact rfl
  | cons t rest ih =>
    rw [fetchInTurn, List.mapM_cons]
    refine Keeps.bindOp (keeps_fetchAlone t) (fun d₁ event hevent => ?_) fun d₁ e he => ?_
    · rw [← hevent]
      exact keeps_cons event ih
    · rw [← he]
      rfl

/-- Collecting events comes to what fetching them one by one comes to. -/
theorem keeps_collect_held {tickets past : List Ticket} (n : Nat) {w : Window}
    (h : Held c p reply tickets past (started d) w.slots w.waiting) :
    Keeps (served reply) (fun _ r => r = (w.rest.take n).mapM (itemOf p reply)) (c.collect p n w).run d := by
  induction n generalizing past w d with
  | zero => exact rfl
  | succ n ih =>
    refine Keeps.bindRun ((keeps_next_held h).weaken (fun _ _ _ => trivial) fun _ _ _ _ ha => ha)
      fun d₁ r ⟨_, hr⟩ => ?_
    have horder : tickets = past ++ w.rest := h.order
    match r with
    | none =>
      obtain rfl : past = tickets := hr
      rw [List.self_eq_append_right.1 horder]
      exact rfl
    | some (item, w') =>
      obtain ⟨t, hitem, hheld⟩ := hr
      have hrest : w.rest = t :: w'.rest := by
        have hboth : past ++ w.rest = past ++ (t :: w'.rest) := by
          rw [← horder, hheld.order, List.append_assoc]
          rfl
        exact List.append_cancel_left hboth
      rw [hrest, List.take_succ_cons, List.mapM_cons, ← hitem]
      cases item with
      | error e => exact rfl
      | ok event => exact keeps_cons event (ih hheld)

/-! ## What a read comes to -/

/-- What the read of a history comes to after the head of the trail was asked for. -/
def historyOf (p : ProductId) (reply : Ticket → Reading) :
    Except ClientError (Event × List UInt64) → Except ClientError History
  | .error e => .error e
  | .ok (register, ids) => (ticketsOf ids).mapM (itemOf p reply) >>= fun events =>
    concluded p (.ofEvents p (register :: events))

theorem exists_answer [Inhabited σ] (reply : Ticket → Reading) (d : Dialogue σ) (q : Question) :
    ∃ a d', (served reply).answers q d a d' := by
  match q with
  | .away (.fetch t _ _) => exact ⟨some (reply t), _, ⟨default, rfl⟩, .inr rfl⟩
  | .away (.settle first _) => exact ⟨(⟨first, List.mem_cons_self⟩, reply first), _, ⟨default, rfl⟩, rfl⟩
  | .own q => exact ⟨(answerable (.own q)).some, _, ⟨default, rfl⟩, trivial⟩
  | .away (.sign a n x) => exact ⟨(answerable (.away (.sign a n x))).some, _, ⟨default, rfl⟩, trivial⟩
  | .away (.query u x) => exact ⟨(answerable (.away (.query u x))).some, _, ⟨default, rfl⟩, trivial⟩
  | .away (.submit u e) => exact ⟨(answerable (.away (.submit u e))).some, _, ⟨default, rfl⟩, trivial⟩
  | .away (.health u) => exact ⟨(answerable (.away (.health u))).some, _, ⟨default, rfl⟩, trivial⟩

theorem exists_goes_done [Inhabited σ] (reply : Ticket → Reading) (x : Run α) (d : Dialogue σ) :
    ∃ r d', Goes (served reply) x d (.done r) d' := by
  induction x generalizing d with
  | done r => exact ⟨r, d, .refl⟩
  | ask q next ih =>
    obtain ⟨a, d₁, ha⟩ := exists_answer reply d q
    obtain ⟨r, d₂, hgoes⟩ := ih a d₁
    exact ⟨r, d₂, .ask a ha hgoes⟩

theorem goes_done_iff [Inhabited σ] {x : Run α} {v : α} (h : Keeps (served reply) (fun _ r => r = v) x d) (r : α) :
    (∃ d', Goes (served reply) x d (.done r) d') ↔ r = v := by
  constructor
  · rintro ⟨d', hgoes⟩
    exact h.goes hgoes fun _ _ _ _ ha => ha
  · rintro rfl
    obtain ⟨r', d', hgoes⟩ := exists_goes_done reply x d
    obtain rfl : r' = r := h.goes hgoes fun _ _ _ _ ha => ha
    exact ⟨d', hgoes⟩

/-- **What a read may come to**: exactly what the head of the trail and the outcomes for its events determine, whatever
way the events are read that comes to the first failure of the list or to all of them. -/
theorem goes_historyWith_iff [Inhabited σ] {body : List UInt64 → Op (List Event)}
    (hbody : ∀ ids (d : Dialogue σ), started d = [] →
      Keeps (served reply) (fun _ r => r = (ticketsOf ids).mapM (itemOf p reply)) (body ids).run d)
    (r : Except ClientError History) :
    (∃ d : Dialogue σ, Goes (served reply) (c.historyWith p body).run [] (.done r) d) ↔
      ∃ head, ∃ d : Dialogue σ, Goes (served reply) (c.trailHead p).run [] (.done head) d ∧
        r = historyOf p reply head := by
  have hrest : ∀ register ids (d : Dialogue σ), started d = [] → Keeps (served reply)
      (fun _ r => r = historyOf p reply (.ok (register, ids)))
      (body ids >>= fun events => conclude p (.ofEvents p (register :: events))).run d := fun register ids d hd => by
    refine Keeps.bindOp (hbody ids d hd) (fun d' events hevents => ?_) fun d' e he => ?_
    · rw [historyOf, ← hevents]
      exact (keeps_conclude p _).weaken (fun _ _ _ => trivial) fun _ _ _ _ ha => ha.1
    · rw [historyOf, ← he]
      rfl
  constructor
  · rintro ⟨d, h⟩
    rcases Goes.of_bindOp h with ⟨_, _, _, _, hdone⟩ | ⟨e, hhead, hdone⟩ | ⟨⟨register, ids⟩, t, hhead, hgoes⟩
    · cases hdone
    · cases hdone
      exact ⟨.error e, d, hhead, rfl⟩
    · exact ⟨.ok (register, ids), t, hhead,
        (goes_done_iff (hrest register ids t (started_of_head hhead)) r).1 ⟨d, hgoes⟩⟩
  · rintro ⟨head, d, hhead, hr⟩
    match head with
    | .error e =>
      obtain rfl : r = .error e := hr
      exact ⟨d, Goes.bindOp_error hhead⟩
    | .ok (register, ids) =>
      obtain ⟨d', hgoes⟩ := (goes_done_iff (hrest register ids d (started_of_head hhead)) r).2 hr
      exact ⟨d', Goes.bindOp hhead hgoes⟩

/-- What the read of a history comes to, given what it was told of the trail's head and the outcomes for its events. -/
inductive ComesTo (p : ProductId) (reply : Ticket → Reading) :
    Except ClientError (Event × List UInt64) → Except ClientError History → Prop
  | headless {e : ClientError} : ComesTo p reply (.error e) (.error e)
  /-- The first event of the list that failed is the one whose error is reported. -/
  | failed {register : Event} {ids : List UInt64} {before after : List Ticket} {t : Ticket} {e : ClientError}
      (hids : ticketsOf ids = before ++ t :: after) (hbefore : ∀ u ∈ before, ∃ event, itemOf p reply u = .ok event)
      (ht : itemOf p reply t = .error e) : ComesTo p reply (.ok (register, ids)) (.error e)
  /-- Every event came, but the oldest one is no registration. -/
  | unregistered {register first : Event} {ids : List UInt64} {events later : List Event}
      (hevents : (ticketsOf ids).map (itemOf p reply) = events.map .ok)
      (hsorted : SortedByTime (register :: events) (first :: later)) (hkind : first.kind ≠ .register) :
      ComesTo p reply (.ok (register, ids)) (.error (.malformed (.unregistered p)))
  /-- Every event came: the history is the stable sort by time of the registration and the events. -/
  | history {register first : Event} {ids : List UInt64} {events later : List Event}
      (hevents : (ticketsOf ids).map (itemOf p reply) = events.map .ok)
      (hsorted : SortedByTime (register :: events) (first :: later)) (hkind : first.kind = .register) :
      ComesTo p reply (.ok (register, ids)) (.ok ⟨p, first :: later⟩)

section Lists

variable {β γ ε : Type} {f : β → Except ε γ}

theorem mapM_of_map_eq_ok {xs : List β} {ys : List γ} (h : xs.map f = ys.map .ok) : xs.mapM f = .ok ys := by
  induction xs generalizing ys with
  | nil =>
    obtain rfl : ys = [] := List.map_eq_nil_iff.1 h.symm
    rfl
  | cons x rest ih =>
    cases ys with
    | nil => cases h
    | cons y ys =>
      obtain ⟨hx, hrest⟩ := List.cons.inj h
      rw [List.mapM_cons, hx, ih hrest]
      rfl

theorem mapM_of_first_error {before after : List β} {x : β} {e : ε} (hbefore : ∀ u ∈ before, ∃ y, f u = .ok y)
    (hx : f x = .error e) : (before ++ x :: after).mapM f = .error e := by
  induction before with
  | nil =>
    rw [List.nil_append, List.mapM_cons, hx]
    rfl
  | cons u rest ih =>
    obtain ⟨⟨y, hy⟩, hrest⟩ := List.forall_mem_cons.1 hbefore
    rw [List.cons_append, List.mapM_cons, hy, ih hrest]
    rfl

/-- Either every value is there, or there is a first error. -/
theorem map_eq_ok_or_first_error (f : β → Except ε γ) (xs : List β) :
    (∃ ys : List γ, xs.map f = ys.map .ok) ∨
      ∃ before x after e, xs = before ++ x :: after ∧ (∀ u ∈ before, ∃ y, f u = .ok y) ∧ f x = .error e := by
  induction xs with
  | nil => exact .inl ⟨[], rfl⟩
  | cons x rest ih =>
    cases hx : f x with
    | error e => exact .inr ⟨[], x, rest, e, rfl, List.forall_mem_nil _, hx⟩
    | ok y =>
      rcases ih with ⟨ys, hys⟩ | ⟨before, u, after, e, rfl, hbefore, hu⟩
      · exact .inl ⟨y :: ys, by rw [List.map_cons, hx, hys, List.map_cons]⟩
      · exact .inr ⟨x :: before, u, after, e, rfl, List.forall_mem_cons.2 ⟨⟨y, hx⟩, hbefore⟩, hu⟩

end Lists

theorem concluded_of_sorted {events later : List Event} {first : Event} (h : SortedByTime events (first :: later)) :
    concluded p (.ofEvents p events) =
      if first.kind = .register then .ok ⟨p, first :: later⟩ else .error (.malformed (.unregistered p)) := by
  have hevents : (History.ofEvents p events).events = first :: later :=
    (History.sortedByTime_ofEvents p events).unique h
  have heq : History.ofEvents p events = ⟨p, first :: later⟩ := congrArg (History.mk p) hevents
  rw [concluded, heq]
  rfl

/-- The registration and the events have a stable sort, which begins with the oldest. -/
theorem exists_sortedByTime (e : Event) (events : List Event) :
    ∃ first later, SortedByTime (e :: events) (first :: later) := by
  have hsorted := History.sortedByTime_ofEvents e.product (e :: events)
  cases hevents : (History.ofEvents e.product (e :: events)).events with
  | nil =>
    rw [hevents] at hsorted
    cases hsorted.perm.length_eq
  | cons first later => exact ⟨first, later, hevents ▸ hsorted⟩

theorem comesTo_iff {head : Except ClientError (Event × List UInt64)} {r : Except ClientError History} :
    ComesTo p reply head r ↔ r = historyOf p reply head := by
  constructor
  · intro h
    cases h with
    | headless => rfl
    | failed hids hbefore ht =>
      rw [historyOf, hids, mapM_of_first_error hbefore ht]
      rfl
    | unregistered hevents hsorted hkind =>
      rw [historyOf, mapM_of_map_eq_ok hevents]
      exact ((concluded_of_sorted hsorted).trans (if_neg hkind)).symm
    | history hevents hsorted hkind =>
      rw [historyOf, mapM_of_map_eq_ok hevents]
      exact ((concluded_of_sorted hsorted).trans (if_pos hkind)).symm
  · rintro rfl
    match head with
    | .error e => exact .headless
    | .ok (register, ids) =>
      rcases map_eq_ok_or_first_error (itemOf p reply) (ticketsOf ids) with
        ⟨events, hevents⟩ | ⟨before, t, after, e, hids, hbefore, ht⟩
      · obtain ⟨first, later, hsorted⟩ := exists_sortedByTime register events
        have hconcluded : historyOf p reply (.ok (register, ids)) = concluded p (.ofEvents p (register :: events)) := by
          rw [historyOf, mapM_of_map_eq_ok hevents]
          rfl
        rw [hconcluded, concluded_of_sorted hsorted]
        split
        · rename_i hkind
          exact .history hevents hsorted hkind
        · rename_i hkind
          exact .unregistered hevents hsorted hkind
      · rw [historyOf, hids, mapM_of_first_error hbefore ht]
        exact .failed hids hbefore ht

/-- **What a read comes to does not depend on the order in which its queries come back.** -/
theorem ComesTo.unique {head : Except ClientError (Event × List UInt64)} {r r' : Except ClientError History}
    (h : ComesTo p reply head r) (h' : ComesTo p reply head r') : r = r' :=
  (comesTo_iff.1 h).trans (comesTo_iff.1 h').symm

/-- The event is the registration of the record: of its product, at the time at which it was created, with its custom
fields as texts. -/
structure Registers (record : ProductRecord) (register : Event) : Prop where
  kind : register.kind = .register
  product : register.product = record.id
  time : register.time = record.createdAt
  metadata : register.metadata = metadataOfTexts record.custom

theorem registers_registerEvent (record : ProductRecord) : Registers record record.registerEvent :=
  ⟨rfl, rfl, rfl, rfl⟩

theorem registers_of_head {register : Event} {ids : List UInt64}
    (h : Goes (served reply) (c.trailHead p).run [] (.done (.ok (register, ids))) d) :
    ∃ record, RecordRead c p d record ∧ Registers record register ∧ IdsRead c p d ids := by
  obtain ⟨-, record, hrecord, rfl, hids⟩ := keeps_trailHead.goes h fun _ _ _ _ ha => ha.1
  exact ⟨record, hrecord, registers_registerEvent record, hids⟩

/-- **What is delivered first is the registration of the record that was read.** -/
theorem registers_of_reaches {register : Event} {later : List Item} {stage : Stage}
    (h : Reaches c p reply (.ok register :: later) stage d) :
    ∃ record ids, RecordRead c p d record ∧ Registers record register ∧ IdsRead c p d ids := by
  cases paced_of_reaches h with
  | @trail record ids past _ _ hrecord hids hpast hover honce hahead =>
    exact ⟨record, ids, hrecord, registers_registerEvent record, hids⟩

/-- The read of a trail with several queries out, and the plain one: what holds of every list of events, whatever the
outcomes for them are and in whatever order they come back. -/
structure Agreement (σ : Type) (c : Client) (p : ProductId) (reply : Ticket → Reading) : Prop where
  /-- At every moment the items came in the order of the list and the queries were begun in time. -/
  paced : ∀ {items : List Item} {stage : Stage} {d : Dialogue σ}, Reaches c p reply items stage d →
    Paced c p reply items stage d
  /-- The first of them is the registration of the record that was read. -/
  registered : ∀ {register : Event} {later : List Item} {stage : Stage} {d : Dialogue σ},
    Reaches c p reply (.ok register :: later) stage d →
      ∃ record ids, RecordRead c p d record ∧ Registers record register ∧ IdsRead c p d ids
  /-- So is the head of the trail, and its list of numbers is the one that was read. -/
  head : ∀ {register : Event} {ids : List UInt64} {d : Dialogue σ},
    Goes (served reply) (c.trailHead p).run [] (.done (.ok (register, ids))) d →
      ∃ record, RecordRead c p d record ∧ Registers record register ∧ IdsRead c p d ids
  /-- A stream is at such a moment all the time, and ends in the items that came. -/
  streamed : ∀ {count : Nat} {y : Run (List Item × Bool)} {d : Dialogue σ},
    Goes (served reply) (c.stream p count) [] y d →
      ∃ items stage, Reaches c p reply items stage d ∧ Taken count items stage y
  /-- From there it can go on to its end. -/
  ends : ∀ {count : Nat} {y : Run (List Item × Bool)} {d : Dialogue σ},
    Goes (served reply) (c.stream p count) [] y d → ∃ r d', Goes (served reply) y d (.done r) d'
  /-- The read of a history is at such a moment all the time, but for what it asks its own process at its end. -/
  collected : ∀ {y : Run (Except ClientError History)} {d : Dialogue σ},
    Goes (served reply) (c.getHistory p).run [] y d →
      ∃ items stage d₀, Reaches c p reply items stage d₀ ∧ d₀ <:+ d ∧ started d = started d₀
  /-- After each head of the trail the read of a history can end, and only in what the head and the outcomes come to. -/
  outcome : ∀ r, (∃ d : Dialogue σ, Goes (served reply) (c.getHistory p).run [] (.done r) d) ↔
    ∃ head, ∃ d : Dialogue σ, Goes (served reply) (c.trailHead p).run [] (.done head) d ∧ ComesTo p reply head r
  /-- So it is with the plain read, which fetches the events one by one. -/
  inTurn : ∀ r, (∃ d : Dialogue σ, Goes (served reply) (c.historyInTurn p).run [] (.done r) d) ↔
    ∃ head, ∃ d : Dialogue σ, Goes (served reply) (c.trailHead p).run [] (.done head) d ∧ ComesTo p reply head r
  /-- That is one result. -/
  unique : ∀ {head : Except ClientError (Event × List UInt64)} {r r' : Except ClientError History},
    ComesTo p reply head r → ComesTo p reply head r' → r = r'

/-- **A history read with several queries out is the plain one.** -/
theorem agreement_of_replies (σ : Type) [Inhabited σ] (c : Client) (p : ProductId) (reply : Ticket → Reading) :
    Agreement σ c p reply where
  paced := paced_of_reaches
  registered := registers_of_reaches
  head := registers_of_head
  streamed := reaches_of_stream
  ends _ := exists_goes_done reply _ _
  collected := reaches_of_getHistory
  outcome r := by
    simp only [comesTo_iff]
    rw [getHistory_eq_historyWith]
    refine goes_historyWith_iff (fun ids d hd => ?_) r
    have hheld : Held c p reply (ticketsOf ids) [] (started d) (Window.ofIds ids).slots (Window.ofIds ids).waiting := by
      rw [hd]
      exact held_ofIds c p reply ids
    have hall : (Window.ofIds ids).rest.take ids.length = ticketsOf ids := by
      rw [Window.rest_ofIds, List.take_of_length_le (by simp [ticketsOf])]
    have hcollect := keeps_collect_held (c := c) ids.length hheld
    rwa [hall] at hcollect
  inTurn r := by
    simp only [comesTo_iff]
    exact goes_historyWith_iff (fun ids d _ => keeps_fetchInTurn (ticketsOf ids)) r
  unique := ComesTo.unique

end SupplyTrail.Client
