import SupplyTrail.Proofs.Completeness
import SupplyTrail.Proofs.Interleaving.Awaited
/-!
# Session — one client's operations, one after another, are an append-only log

A session is any number of awaited operations of one client on a ledger that nobody else writes to and that records
nothing of what it reports as failed.  The trail of a product is then a log: its registration and the events that the
appends to it returned, in the order of the calls.
-/
namespace SupplyTrail.Interleaving

open Client Activity
open Rehearsal (Result Store)

variable {L : Regime} {c : Client} {p : ProductId} {v v' v₀ : View Scene} {log more : List (Operation × Result)}
  {op : Operation} {r : Result}

/-- The metadata that an operation is to append holds no doubles. -/
def Exact : Operation → Prop
  | .append _ _ metadata => ∀ v ∈ metadata.values, v.NoReal
  | _ => True

/-- Awaited operations of one client, each begun with no query out, and what came of each. -/
inductive Session (L : Regime) (c : Client) (v₀ : View Scene) : View Scene → List (Operation × Result) → Prop
  | start : Session L c v₀ v₀ []
  | next {v : View Scene} {log : List (Operation × Result)} {op : Operation} {r : Result}
      {t : View Scene × Dialogue Scene}
      (h : Session L c v₀ v log) (hop : Exact op)
      (hy : Yields (awaited (ledger L)) (op.run c) ({ v with errands := [] }, []) r t) :
      Session L c v₀ t.1 (log ++ [(op, r)])

/-! ## The log -/

/-- The details with which a step of a session registered a product. -/
def registeredBy (p : ProductId) : Operation × Result → Option ProductDetails
  | (.register details, .ok _) => if details.id = p then some details else none
  | _ => none

/-- The event that a step of a session appended to a product's trail. -/
def appendedBy (p : ProductId) : Operation × Result → Option Event
  | (.append q _ _, .ok (.event e)) => if q = p then some e else none
  | _ => none

/-- The details with which a product was registered. -/
def registration? (p : ProductId) (log : List (Operation × Result)) : Option ProductDetails :=
  log.findSome? (registeredBy p)

/-- The events that the appends to a product returned, in the order of the calls. -/
def appended (p : ProductId) (log : List (Operation × Result)) : List Event := log.filterMap (appendedBy p)

theorem registration?_append (p : ProductId) (log more : List (Operation × Result)) :
    registration? p (log ++ more) = (registration? p log).or (registration? p more) :=
  List.findSome?_append

theorem appended_append (p : ProductId) (log more : List (Operation × Result)) :
    appended p (log ++ more) = appended p log ++ appended p more :=
  List.filterMap_append

theorem registration?_step (p : ProductId) (log : List (Operation × Result)) (x : Operation × Result) :
    registration? p (log ++ [x]) = (registration? p log).or (registeredBy p x) := by
  rw [registration?_append]
  cases h : registeredBy p x <;> simp [registration?, h]

theorem appended_step (p : ProductId) (log : List (Operation × Result)) (x : Operation × Result) :
    appended p (log ++ [x]) = appended p log ++ (appendedBy p x).toList := by
  rw [appended_append]
  cases h : appendedBy p x <;> simp [appended, h]

theorem unlogged (hresult : ¬ Writes op ∨ ∃ e, r = .error e) (p : ProductId) :
    registeredBy p (op, r) = none ∧ appendedBy p (op, r) = none := by
  rcases hresult with hreads | ⟨e, rfl⟩
  · cases op with
    | register details => exact absurd trivial hreads
    | append q kind metadata => exact absurd trivial hreads
    | _ => exact ⟨rfl, rfl⟩
  · cases op <;> exact ⟨rfl, rfl⟩

/-! ## The invariant -/

/-- The events of a product as the log has them, after the registration that its record stands for. -/
def entries (p : ProductId) (record : ProductRecord) (log : List (Operation × Result)) : List Event :=
  record.registerEvent :: appended p log

theorem entries_step (p : ProductId) (record : ProductRecord) (log : List (Operation × Result))
    (x : Operation × Result) :
    entries p record (log ++ [x]) = entries p record log ++ (appendedBy p x).toList := by
  rw [entries, appended_step, entries, List.cons_append]

/-- The invariant of a session: a product is registered exactly if the log says so, its recorded events are those that
the appends returned, they come in the order of their times, and no time that the client remembers is before any of
them. -/
structure Logged (v : View Scene) (log : List (Operation × Result)) : Prop where
  sound : v.around.store.Sound
  late : v.around.late = []
  unknown : ∀ p, registration? p log = none → valueOf? p.text v.around.store.products = none
  known : ∀ p details, registration? p log = some details →
    details.id = p ∧ ∃ owner time, v.around.store.Registered p (details.recorded owner time)
  trail : ∀ p, (v.around.store.trail p.text).map Event.parse = (appended p log).map .ok
  ordered : ∀ p record, v.around.store.Registered p record → (entries p record log).Pairwise fun a b => a.time ≤ b.time
  seen : ∀ p t, v.known p = some t →
    ∃ record, v.around.store.Registered p record ∧ ∀ e ∈ entries p record log, e.time ≤ t

theorem logged_start : Logged ⟨.empty, fun _ => none, []⟩ [] where
  sound := Store.sound_empty
  late := rfl
  unknown _ _ := rfl
  known _ _ h := by cases h
  trail _ := rfl
  ordered _ _ h := by
    obtain ⟨value, hvalue, -⟩ := h
    cases hvalue
  seen _ _ h := by cases h

/-- **The history that the state has is the log's.** -/
theorem Logged.history (h : Logged v log) {t : History} (ht : HistoryIn v.around.store p t) :
    ∃ record, v.around.store.Registered p record ∧ t = ⟨p, entries p record log⟩ := by
  obtain ⟨record, events, hrecord, htrail, rfl⟩ := ht
  rw [h.trail p] at htrail
  obtain rfl := map_ok_inj htrail
  refine ⟨record, hrecord, ?_⟩
  exact congrArg (History.mk p) (History.events_ofEvents (p := p) (h.ordered p record hrecord))

/-- The invariant at one product. -/
structure LoggedAt (p : ProductId) (v : View Scene) (log : List (Operation × Result)) : Prop where
  unknown : registration? p log = none → valueOf? p.text v.around.store.products = none
  known : ∀ details, registration? p log = some details →
    details.id = p ∧ ∃ owner time, v.around.store.Registered p (details.recorded owner time)
  trail : (v.around.store.trail p.text).map Event.parse = (appended p log).map .ok
  ordered : ∀ record, v.around.store.Registered p record → (entries p record log).Pairwise fun a b => a.time ≤ b.time
  seen : ∀ t, v.known p = some t → ∃ record, v.around.store.Registered p record ∧ ∀ e ∈ entries p record log, e.time ≤ t

theorem Logged.at (h : Logged v log) (p : ProductId) : LoggedAt p v log :=
  ⟨h.unknown p, h.known p, h.trail p, h.ordered p, h.seen p⟩

theorem logged_of_forall_at (hsound : v.around.store.Sound) (hlate : v.around.late = [])
    (h : ∀ p, LoggedAt p v log) : Logged v log :=
  ⟨hsound, hlate, fun p => (h p).unknown, fun p => (h p).known, fun p => (h p).trail, fun p => (h p).ordered,
    fun p => (h p).seen⟩

theorem LoggedAt.lastSeen (h : LoggedAt p v log) {last : UInt64} (hlast : LastSeen p v last) :
    ∃ record, v.around.store.Registered p record ∧ ∀ e ∈ entries p record log, e.time ≤ last := by
  rcases hlast with hknown | ⟨t, ht, rfl⟩
  · exact h.seen last hknown
  · obtain ⟨record, events, hrecord, htrail, rfl⟩ := ht
    rw [h.trail] at htrail
    obtain rfl := map_ok_inj htrail
    exact ⟨record, hrecord, fun e he => History.le_lastTime he⟩

/-- **A step that does not write to a product** keeps the invariant there, whatever of its trail the client has seen. -/
theorem LoggedAt.keep (h : LoggedAt p v log) {x : Operation × Result}
    (hsilent : registeredBy p x = none ∧ appendedBy p x = none)
    (hvalue : valueOf? p.text v'.around.store.products = valueOf? p.text v.around.store.products)
    (htrail : v'.around.store.trail p.text = v.around.store.trail p.text)
    (hseen : ∀ t, v'.known p = some t → LastSeen p v t) : LoggedAt p v' (log ++ [x]) := by
  have hregistration : registration? p (log ++ [x]) = registration? p log := by
    rw [registration?_step, hsilent.1, Option.or_none]
  have happended : appended p (log ++ [x]) = appended p log := by
    rw [appended_step, hsilent.2, Option.toList_none, List.append_nil]
  have hentries : ∀ record, entries p record (log ++ [x]) = entries p record log := by
    intro record
    rw [entries, happended, entries]
  have hregistered : ∀ record, v'.around.store.Registered p record ↔ v.around.store.Registered p record := by
    intro record
    rw [Store.Registered, hvalue, Store.Registered]
  constructor
  · rw [hregistration, hvalue]
    exact h.unknown
  · simp only [hregistration, hregistered]
    exact h.known
  · rw [htrail, happended]
    exact h.trail
  · simp only [hentries, hregistered]
    exact h.ordered
  · simp only [hentries, hregistered]
    exact fun t ht => h.lastSeen (hseen t ht)

/-! ## One operation -/

theorem Logged.idle (h : Logged v log) : Logged { v with errands := [] } log :=
  ⟨h.sound, h.late, h.unknown, h.known, h.trail, h.ordered, h.seen⟩

theorem ReadUp.lastSeen (hread : ReadUp p v v') (q : ProductId) {t : UInt64} (ht : v'.known q = some t) :
    LastSeen q v t := by
  by_cases hq : q = p
  · subst hq
    rcases hread.own with hown | ⟨history, hin, hown⟩
    · exact .inl (hown ▸ ht)
    · rw [ht] at hown
      exact .inr ⟨history, hin, (Option.some.inj hown).symm⟩
  · rw [hread.others q hq] at ht
    exact .inl ht

theorem Logged.read (h : Logged v log) (hread : ReadUp p v v') (hresult : ¬ Writes op ∨ ∃ e, r = .error e) :
    Logged v' (log ++ [(op, r)]) := by
  refine logged_of_forall_at ?_ ?_ fun q => ?_
  · rw [hread.around]
    exact h.sound
  · rw [hread.around]
    exact h.late
  · refine (h.at q).keep (unlogged hresult q) ?_ ?_ fun t ht => hread.lastSeen q ht
    · rw [hread.around]
    · rw [hread.around]

/-- A product that was registered just now has a log of its own. -/
theorem LoggedAt.first {details : ProductDetails} {owner : String} {time : UInt64}
    (hregistration : registration? details.id log = some details) (hempty : appended details.id log = [])
    (hregistered : v.around.store.Registered details.id (details.recorded owner time))
    (htrail : v.around.store.trail details.id.text = []) (hknown : v.known details.id = some time) :
    LoggedAt details.id v log := by
  have hentries : ∀ record, entries details.id record log = [record.registerEvent] := by
    intro record
    rw [entries, hempty]
  constructor
  · intro hnone
    rw [hregistration] at hnone
    cases hnone
  · intro found hfound
    rw [hregistration] at hfound
    cases hfound
    exact ⟨rfl, owner, time, hregistered⟩
  · rw [htrail, hempty]
    rfl
  · intro record hrecord
    rw [hentries]
    exact List.pairwise_singleton _ _
  · intro t ht
    rw [hknown] at ht
    cases ht
    refine ⟨_, hregistered, fun e he => ?_⟩
    rw [hentries, List.mem_singleton] at he
    rw [he]
    exact UInt64.le_refl time

theorem Applied.registered {details : ProductDetails} {owner : String} {time : UInt64}
    (h : Applied (registerArgs details owner time) "register_product" v v') :
    v'.around.store.Registered details.id (details.recorded owner time) := by
  obtain ⟨call, value, hfunction, hargs, happly, -⟩ := h
  obtain ⟨-, hwith⟩ := Store.apply_register_ok hfunction (congrArg Prod.fst happly)
  have hstore : v'.around.store = v.around.store.withProduct call := by rw [← hwith, happly]
  rw [hstore]
  exact Store.registered_withProduct hargs v.around.store

/-- **A registration** that was applied begins the log of its product. -/
theorem Logged.registered (h : Logged v log) {details : ProductDetails} {owner : String} {time : UInt64}
    (happlied : Applied (registerArgs details owner time) "register_product" v v')
    (hknown : v'.known = Function.update v.known details.id (some time)) :
    Logged v' (log ++ [(.register details, .ok (.product details.id))]) := by
  have hregistered := happlied.registered
  obtain ⟨call, value, hfunction, hargs, happly, hlate⟩ := happlied
  obtain ⟨hnew, hwith⟩ := Store.apply_register_ok hfunction (congrArg Prod.fst happly)
  have hid := Store.registering_of_drafted hargs
  have hstore : v'.around.store = v.around.store.withProduct call := by rw [← hwith, happly]
  have htrail : ∀ p : ProductId, v'.around.store.trail p.text = v.around.store.trail p.text := by
    intro p
    rw [hstore]
    rfl
  refine logged_of_forall_at ?_ ?_ fun p => ?_
  · rw [hstore, ← hwith]
    exact h.sound.apply v.around.tidy (.register hfunction hargs)
  · rw [hlate]
    exact h.late
  by_cases hp : p = details.id
  · subst hp
    have hnone : v.around.store.trail details.id.text = [] := v.around.tidy.trail_of_unknown (hid ▸ hnew)
    have hempty : appended details.id log = [] := by
      have hnothing := h.trail details.id
      rw [hnone] at hnothing
      exact List.map_eq_nil_iff.1 hnothing.symm
    have hunregistered : registration? details.id log = none := by
      cases hfound : registration? details.id log with
      | none => rfl
      | some found =>
        obtain ⟨-, owner', time', value', hvalue', -⟩ := h.known details.id found hfound
        rw [← hid, hnew] at hvalue'
        cases hvalue'
    refine LoggedAt.first ?_ ?_ hregistered ((htrail _).trans hnone) ?_
    · rw [registration?_step, hunregistered]
      exact if_pos rfl
    · rw [appended_step, hempty]
      rfl
    · rw [hknown, Function.update_self]
  · have hother : Store.registering call ≠ p.text := fun htext => hp (congrArg ProductId.mk (htext.symm.trans hid))
    refine (h.at p).keep ⟨if_neg (Ne.symm hp), rfl⟩ ?_ (htrail p) fun t ht => ?_
    · rw [hstore, Store.withProduct, Store.valueOf?_put_of_ne hother]
    · rw [hknown, Function.update_of_ne hp] at ht
      exact .inl ht

/-- One more event in a product's log, when none that is there is later. -/
theorem LoggedAt.extend (h : LoggedAt p v log) {x : Operation × Result} {e : Event} {record : ProductRecord}
    (hnone : registeredBy p x = none) (hsome : appendedBy p x = some e)
    (hproducts : v'.around.store.products = v.around.store.products)
    (htrail : (v'.around.store.trail p.text).map Event.parse =
      (v.around.store.trail p.text).map Event.parse ++ [.ok e])
    (hrecord : v.around.store.Registered p record) (hlater : ∀ b ∈ entries p record log, b.time ≤ e.time)
    (hknown : v'.known p = some e.time) : LoggedAt p v' (log ++ [x]) := by
  have hregistration : registration? p (log ++ [x]) = registration? p log := by
    rw [registration?_step, hnone, Option.or_none]
  have hentries : ∀ record', entries p record' (log ++ [x]) = entries p record' log ++ [e] := by
    intro record'
    rw [entries_step, hsome, Option.toList_some]
  have hregistered : ∀ record', v'.around.store.Registered p record' ↔ v.around.store.Registered p record' := by
    intro record'
    rw [Store.Registered, hproducts, Store.Registered]
  constructor
  · rw [hregistration, hproducts]
    exact h.unknown
  · simp only [hregistration, hregistered]
    exact h.known
  · rw [htrail, h.trail, appended_step, hsome, List.map_append]
    rfl
  · intro record' hrecord'
    rw [hregistered] at hrecord'
    cases hrecord.unique hrecord'
    rw [hentries]
    refine List.pairwise_append.2 ⟨h.ordered record hrecord, List.pairwise_singleton _ _, fun a ha b hb => ?_⟩
    cases List.mem_singleton.1 hb
    exact hlater a ha
  · intro t ht
    rw [hknown] at ht
    cases ht
    refine ⟨record, (hregistered record).2 hrecord, fun b hb => ?_⟩
    rw [hentries] at hb
    rcases List.mem_append.1 hb with hb | hb
    · exact hlater b hb
    · cases List.mem_singleton.1 hb
      exact UInt64.le_refl _

/-- **An append** that was applied is the last entry of its product's log. -/
theorem Logged.appended (h : Logged v log) {kind : EventKind} {metadata : Metadata} {actor : String}
    {last time : UInt64}
    (hexact : ∀ x ∈ metadata.values, x.NoReal) (hkind : kind ≠ .register)
    (hcheck : Event.check ⟨p, kind, time, metadata⟩ = .ok ⟨p, kind, time, metadata⟩) (hlast : LastSeen p v last)
    (htime : last ≤ time) (happlied : Applied (appendArgs ⟨p, kind, time, metadata⟩ actor) "add_tracking_event" v v')
    (hothers : ∀ q, q ≠ p → v'.known q = v.known q) (hknown : v'.known p = some time) :
    Logged v' (log ++ [(.append p kind metadata, .ok (.event ⟨p, kind, time, metadata⟩))]) := by
  obtain ⟨call, value, hfunction, hargs, happly, hlate⟩ := happlied
  obtain ⟨-, hwith⟩ := Store.apply_append_ok hfunction (congrArg Prod.fst happly)
  have hstore : v'.around.store = v.around.store.withEvent call := by rw [← hwith, happly]
  have hproducts : v'.around.store.products = v.around.store.products := by
    rw [hstore]
    rfl
  have hcall : call.args = appendArgs ⟨p, kind, time, metadata⟩ actor :=
    Json.eq_of_outline_eq (noReal_appendArgs (e := ⟨p, kind, time, metadata⟩) hexact actor) hargs
  have hid : Store.appending call = p.text := by
    rw [Store.appending, hcall]
    rfl
  obtain ⟨record, hrecord, hbefore⟩ := (h.at p).lastSeen hlast
  have hlater : ∀ e ∈ entries p record log, e.time ≤ time := fun e he => UInt64.le_trans (hbefore e he) htime
  refine logged_of_forall_at ?_ ?_ fun q => ?_
  · rw [hstore, ← hwith]
    exact h.sound.apply v.around.tidy (.append hfunction hargs hcheck hkind hrecord
      (hlater record.registerEvent List.mem_cons_self))
  · rw [hlate]
    exact h.late
  by_cases hq : q = p
  · subst hq
    refine (h.at q).extend rfl (if_pos rfl) hproducts ?_ hrecord hlater hknown
    rw [hstore, Store.trail_withEvent, if_pos hid, hcall, List.map_append, List.map_singleton,
      parse_eventRecord_appendArgs hcheck]
  · have htext : Store.appending call ≠ q.text := fun he => hq (congrArg ProductId.mk (he.symm.trans hid))
    refine (h.at q).keep ⟨rfl, if_neg (Ne.symm hq)⟩ ?_ ?_ fun t ht => .inl (hothers q hq ▸ ht)
    · rw [hproducts]
    · rw [hstore, Store.trail_withEvent, if_neg htext, List.append_nil]

/-- **One operation keeps the invariant.** -/
theorem Logged.effect (h : Logged v log) (hop : Exact op) (heff : Effect v v' op r) : Logged v' (log ++ [(op, r)]) := by
  cases heff with
  | registered happlied hknown => exact h.registered happlied hknown
  | appended hkind hcheck hlast htime happlied hothers hknown =>
    exact h.appended hop hkind hcheck hlast htime happlied hothers hknown
  | read hread hresult => exact h.read hread hresult

theorem Applied.extends {args : Json} {function : String} (h : Applied args function v v') :
    Store.Extends v.around.store v'.around.store := by
  obtain ⟨call, value, -, -, happly, -⟩ := h
  have hext := (v.around.tidy.apply call).1
  rw [happly] at hext
  exact hext

theorem Effect.extends (h : Effect v v' op r) : Store.Extends v.around.store v'.around.store := by
  cases h with
  | registered happlied hknown => exact happlied.extends
  | appended hkind hcheck hlast htime happlied hothers hknown => exact happlied.extends
  | read hread hresult =>
    rw [hread.around]
    exact .refl _

/-! ## Sessions -/

/-- **What is recorded stays** as it is, along a session. -/
theorem Session.extends (hexact : ¬ L.faulty) (h : Session L c v₀ v log) :
    Store.Extends v₀.around.store v.around.store := by
  induction h with
  | start => exact .refl _
  | next h hop hy ih => exact ih.trans ((keeps_run_awaited hexact _ rfl).yields hy).extends

/-- **The invariant holds along a session.** -/
theorem logged_of_session (hexact : ¬ L.faulty) (hv : Logged v₀ log) (h : Session L c v₀ v more) :
    Logged v (log ++ more) := by
  induction h with
  | start =>
    rw [List.append_nil]
    exact hv
  | next h hop hy ih =>
    rw [← List.append_assoc]
    exact ih.idle.effect hop ((keeps_run_awaited hexact _ rfl).yields hy)

/-- The dialogue of the step at which a session registered a product. -/
inductive RegisteredIn (L : Regime) (c : Client) (v₀ v : View Scene) (details : ProductDetails)
    (d : Dialogue Scene) : List (Operation × Result) → Prop
  | mk {before after : List (Operation × Result)} {v₁ v₂ : View Scene} (hbefore : Session L c v₀ v₁ before)
      (hy : Yields (awaited (ledger L)) ((Operation.register details).run c) ({ v₁ with errands := [] }, [])
        (.ok (.product details.id)) (v₂, d))
      (hafter : Session L c v₂ v after) :
      RegisteredIn L c v₀ v details d (before ++ (.register details, .ok (.product details.id)) :: after)

theorem Session.trans (h : Session L c v₀ v log) (h' : Session L c v v' more) : Session L c v₀ v' (log ++ more) := by
  induction h' with
  | start => rwa [List.append_nil]
  | next _ hop hy ih =>
    rw [← List.append_assoc]
    exact .next ih hop hy

theorem RegisteredIn.session {details : ProductDetails} {d : Dialogue Scene}
    (h : RegisteredIn L c v₀ v details d log) : Session L c v₀ v log := by
  obtain ⟨hbefore, hy, hafter⟩ := h
  rw [← List.singleton_append, ← List.append_assoc]
  have hexact : Exact (.register details) := trivial
  exact (Session.next hbefore hexact hy).trans hafter

/-! ## Sessions that take place -/

theorem yields_of_goes {σ α : Type} {S : Surroundings σ} {x : Run α} {s t : View σ × Dialogue σ} {a : α}
    (h : Goes (alone S) x s (.done a) t) : Yields (awaited S) x s a t := by
  generalize hy : (.done a : Run α) = y at h
  induction h with
  | refl =>
    subst hy
    exact ⟨rfl, rfl⟩
  | ask b hb _ ih => exact ⟨b, _, ⟨_, .refl, hb.1, hb.2⟩, ih hy⟩

theorem Session.goes (h : Session L c v₀ v log) (op : Operation) (r : Result) (hop : Exact op) {d : Dialogue Scene}
    (hgoes : Goes (alone (ledger L)) (op.run c) ({ v with errands := [] }, []) (.done r) (v', d)) :
    Session L c v₀ v' (log ++ [(op, r)]) :=
  .next h hop (yields_of_goes hgoes)

theorem exists_yields_register {details : ProductDetails} (key : String) (time : UInt64)
    (hcheck : details.check = .ok ())
    (hevent : Event.check ⟨details.id, .register, time, details.registerMetadata⟩ =
      .ok ⟨details.id, .register, time, details.registerMetadata⟩)
    (hnew : valueOf? details.id.text v.around.store.products = none) :
    ∃ v' d, Yields (awaited (ledger inMemory)) ((Operation.register details).run c) ({ v with errands := [] }, [])
        (.ok (.product details.id)) (v', d) ∧ Told d (.own .clock) time ∧
      v'.around.store = v.around.store.withProduct (c.call "register_product" (registerArgs details key time)) ∧
      v'.known details.id = some time := by
  have htidy := Store.tidy_withProduct v.around.tidy
    (c := c.call "register_product" (registerArgs details key time)) hnew
  have happly := apply_registerCall c key time hnew
  have hgoes := goes_register (v := { v with errands := [] })
    (s := ⟨_, htidy, v.around.late⟩) hcheck hevent happly
    rfl ⟨"", none, none⟩
  refine ⟨_, _, yields_of_goes (.bind (b := .ok details.id) hgoes .refl), ?_, rfl, Function.update_self _ _ _⟩
  exact ⟨v.around, List.mem_append_right _ (List.mem_append_right _ (.tail _ (.head _)))⟩

theorem Session.exists_appended (h : Session inMemory c v₀ v log) {kind : EventKind} {metadata : Metadata}
    {last : UInt64} (key : String) (now : UInt64) (hkind : kind ≠ .register)
    (hcheck : Event.check ⟨p, kind, 0, metadata⟩ = .ok ⟨p, kind, 0, metadata⟩) (hfaithful : Faithful metadata)
    (hlast : v.known p = some last) (hthere : (valueOf? p.text v.around.store.products).isSome)
    (hfits : (v.around.store.withEvent (appendCall c ⟨p, kind, max now last, metadata⟩ key)).Fits) :
    ∃ v', Session inMemory c v₀ v'
      (log ++ [(.append p kind metadata, .ok (.event ⟨p, kind, max now last, metadata⟩))]) := by
  have hknown : (valueOf? (⟨p, kind, max now last, metadata⟩ : Event).product.text v.around.store.products).isSome :=
    hthere
  have htidy := Store.tidy_withEvent v.around.tidy
    (c := appendCall c ⟨p, kind, max now last, metadata⟩ key) hthere hfits
  have happly := apply_appendCall c key hknown
  obtain ⟨d, hgoes⟩ := goes_appended (v := { v with errands := [] })
    (s := ⟨_, htidy, v.around.late⟩) hkind hcheck
    hfaithful hlast happly rfl ⟨"", none, none⟩
  exact ⟨_, h.goes (.append p kind metadata) _ hfaithful.noReal
    (.bind (b := .ok ⟨p, kind, max now last, metadata⟩) hgoes .refl)⟩

/-- A session: a product is registered when the clock says 100, and an event is appended when it says 50. -/
theorem exists_session : ∃ v d, Told d (.own .clock) 100 ∧
    RegisteredIn inMemory looseClient ⟨.empty, fun _ => none, []⟩ v (.ofId ⟨"P"⟩) d
      [(.register (.ofId ⟨"P"⟩), .ok (.product ⟨"P"⟩)),
        (.append ⟨"P"⟩ .checkpoint .empty, .ok (.event (checkpoint (max 50 100))))] := by
  have hcheck : (ProductDetails.ofId ⟨"P"⟩).check = .ok () := by rfl
  have hevent : Event.check ⟨⟨"P"⟩, .register, 100, (ProductDetails.ofId ⟨"P"⟩).registerMetadata⟩ =
      .ok ⟨⟨"P"⟩, .register, 100, (ProductDetails.ofId ⟨"P"⟩).registerMetadata⟩ := by rfl
  obtain ⟨v₁, d, hy, hclock, hstore, hlast⟩ := exists_yields_register (v := ⟨.empty, fun _ => none, []⟩) "GA" 100
    (c := looseClient) hcheck hevent rfl
  have hthere : (valueOf? "P" v₁.around.store.products).isSome := by
    rw [hstore]
    exact Option.isSome_iff_exists.2 ⟨_, Store.valueOf?_put_self _ _ _⟩
  have hevents : v₁.around.store.events = [] := by
    rw [hstore]
    rfl
  have h₁ : Session inMemory looseClient v₁ v₁ [] := .start
  obtain ⟨v, hafter⟩ := h₁.exists_appended "GA" 50 (by decide) check_checkpoint faithful_empty hlast hthere
    (fits_first hevents _)
  exact ⟨v, d, hclock, .mk .start hy hafter⟩

/-! ## Looking at the log -/

/-- The same ledger, but it answers every query, and the active network is the client's. -/
def calm (L : Regime) (c : Client) : Surroundings Scene :=
  { ledger { L with failing := False } with
    own := fun q _ a =>
      match q, a with
      | .activeNetwork, active => active = c.endpoint.network
      | _, _ => True }

theorem within_calm (L : Regime) (c : Client) : Within (calm L c) (ledger { L with failing := False }) where
  parallel := id
  own _ := trivial
  away h := h
  other h := h

theorem answering_calm (L : Regime) (c : Client) : Answering (calm L c) where
  own := (answering_still L c.endpoint.network).own
  away q s := by
    obtain ⟨a, s', ha⟩ := (answering_still { L with failing := False } c.endpoint.network).away q s
    exact ⟨a, s', (within_still _ _).away ha⟩

theorem arrived_of_calm (h : Arrived (calm L c) v v') : Arrived (ledger { L with failing := False }) v v' := by
  induction h with
  | refl => exact .refl
  | reading he hr _ ih => exact .reading he hr ih

/-- What is kept on the ledger is kept when it is calm, and then the network is not switched. -/
theorem keeps_calm {α : Type} {x : Run α} {ends : View Scene × Dialogue Scene → α → Prop}
    {s : View Scene × Dialogue Scene}
    (h : Keeps (awaited (ledger { L with failing := False })) ends x s) (hs : Unswitched c s.2) :
    Keeps (awaited (calm L c)) (fun t a => ends t a ∧ Unswitched c t.2) x s := by
  have hcalm : Keeps (awaited (calm L c)) ends x s := by
    refine h.weaken (fun _ _ hask => hask) ?_
    rintro q s a t ⟨u, harrived, hans, hd⟩
    exact ⟨u, arrived_of_calm harrived, (within_calm L c).answered hans, hd⟩
  refine hcalm.frame (fun t => Unswitched c t.2) hs ?_
  rintro q s a t - ⟨u, -, hans, hd⟩ hnet
  rw [hd]
  exact hnet.answer (fun _ _ ha => ha) hans _

/-- When the ledger is calm, a client that is asked for the history of a product in this state answers, and it answers
nothing else than this. -/
def Shows (L : Regime) (c : Client) (v : View Scene) (p : ProductId) (r : Result) : Prop :=
  (∃ t, Yields (awaited (calm L c)) ((Operation.getHistory p).run c) ({ v with errands := [] }, []) r t) ∧
    ∀ r' t, Yields (awaited (calm L c)) ((Operation.getHistory p).run c) ({ v with errands := [] }, []) r' t → r' = r

theorem shows_of_keeps
    (h : Keeps (awaited (calm L c)) (fun _ r' => r' = r) ((Operation.getHistory p).run c)
      ({ v with errands := [] }, [])) :
    Shows L c v p r := by
  refine ⟨?_, fun r' t hy => h.yields hy⟩
  obtain ⟨r', t, hy⟩ := h.exists_yields fun s q hq => (answering_calm L c).awaited hq
  rw [h.yields hy] at hy
  exact ⟨t, hy⟩

theorem keeps_getHistory_calm (hidle : v.errands = []) :
    Keeps (awaited (calm L c))
      (fun _ (t : Except ClientError History) =>
        match t with
        | .ok h => HistoryIn v.around.store p h
        | .error e => ∃ v' d, Browsed { L with failing := False } c p v v' d ∧ Unswitched c d ∧ ReadFault c p d e)
      (c.getHistory p).run (v, []) := by
  have hread := keeps_getHistory_browsed (L := { L with failing := False }) (c := c) (p := p)
    (s := ((v, []) : View Scene × Dialogue Scene)) hidle
  refine (keeps_calm hread fun active ⟨m, hm⟩ => by cases hm).mono fun t r ⟨⟨d, hd, hbrowsed, hr⟩, hnet⟩ => ?_
  rw [List.append_nil] at hd
  rw [hd] at hnet
  cases r with
  | ok h => exact hr
  | error e => exact ⟨t.1, d, hbrowsed, hnet, hr⟩

/-- **A registered product's history is its log.** -/
theorem Logged.shows (h : Logged v log) {record : ProductRecord} (hrecord : v.around.store.Registered p record) :
    Shows L c v p (.ok (.history ⟨p, entries p record log⟩)) := by
  refine shows_of_keeps (keeps_ofClient (keeps_getHistory_calm rfl) (fun t history hin => ?_) fun t e herror => ?_)
  · obtain ⟨record', hrecord', rfl⟩ := h.history hin
    rw [hrecord.unique hrecord']
  · obtain ⟨v', d, hbrowsed, hnet, hfault⟩ := herror
    have hclean : v.around.Clean := by
      refine ⟨h.sound, fun call hcall => ?_⟩
      rw [h.late] at hcall
      cases hcall
    have hknown : ∀ t ∈ d, (valueOf? p.text t.moment.store.products).isSome := by
      intro t ht
      obtain ⟨value, hvalue, -⟩ := hrecord
      rw [hbrowsed.moments t ht, hvalue]
      rfl
    exact absurd hfault (not_readFault not_false hclean hbrowsed.lived hbrowsed.truthful.heard hknown hnet)

theorem unknown_of_readFault {d : Dialogue Scene} {now : Scene} {error : ClientError} (hquery : ¬ L.failing)
    (hlived : Lived L now d) (hnew : valueOf? p.text now.store.products = none) (hmoments : ∀ t ∈ d, t.moment = now)
    (hnet : Unswitched c d) (h : ReadFault c p d error) : error = .unknownProduct p := by
  have hunregistered : ∀ record, ¬ RecordRead c p d record := by
    intro record hread
    obtain ⟨value, hvalue, -⟩ := registered_of_recordRead hlived hread
    rw [hnew] at hvalue
    cases hvalue
  have hunlisted : ∀ ids, ¬ IdsRead c p d ids := by
    intro ids hread
    obtain ⟨m, hm, hsome, -⟩ := listed_of_idsRead hlived hread
    rw [show m = now from hmoments _ hm, hnew] at hsome
    cases hsome
  cases h with
  | network hbound htold hne => exact absurd (hnet _ htold) hne
  | recordRefused htold =>
    obtain ⟨m, hm, ha, -⟩ := read_of_told hquery hlived htold
    rw [show m = now from hmoments _ hm, Store.read_product, hnew] at ha
    cases ha
    rfl
  | recordMalformed htold hdecode =>
    obtain ⟨m, hm, ha, -⟩ := read_of_told hquery hlived htold
    rw [show m = now from hmoments _ hm, Store.read_product, hnew] at ha
    cases ha
  | idsRefused htold =>
    obtain ⟨m, hm, ha, -⟩ := read_of_told hquery hlived htold
    rw [show m = now from hmoments _ hm, Store.read_ids, now.tidy.eventIds_of_unknown hnew] at ha
    cases ha
    rfl
  | idsMalformed htold hdecode =>
    obtain ⟨m, hm, ha, -⟩ := read_of_told hquery hlived htold
    rw [show m = now from hmoments _ hm, Store.read_ids, now.tidy.eventIds_of_unknown hnew] at ha
    cases ha
  | event hids ht hread => exact absurd hids (hunlisted _)
  | unregistered hread hfirst hkind =>
    obtain ⟨record, ids, events, hrecord, -⟩ := hread
    exact absurd hrecord (hunregistered record)

/-- **A product that was not registered has no history.** -/
theorem Logged.shows_unknown (h : Logged v log) (hp : registration? p log = none) :
    Shows L c v p (.error (.client (.unknownProduct p))) := by
  have hnew := h.unknown p hp
  refine shows_of_keeps (keeps_ofClient (keeps_getHistory_calm rfl) (fun t history hin => ?_) fun t e herror => ?_)
  · obtain ⟨record, events, ⟨value, hvalue, -⟩, -⟩ := hin
    change valueOf? p.text v.around.store.products = some value at hvalue
    rw [hnew] at hvalue
    cases hvalue
  · obtain ⟨v', d, hbrowsed, hnet, hfault⟩ := herror
    rw [unknown_of_readFault not_false hbrowsed.lived hnew hbrowsed.moments hnet hfault]

/-! ## The log -/

/-- The trail of a product as a log has it: its registration, with the custom fields as texts, and the events that the
appends returned. -/
def logged (p : ProductId) (details : ProductDetails) (time : UInt64) (log : List (Operation × Result)) : List Event :=
  ⟨p, .register, time, metadataOfTexts details.custom⟩ :: appended p log

theorem logged_prefix (p : ProductId) (details : ProductDetails) (time : UInt64)
    (log more : List (Operation × Result)) :
    logged p details time log <+: logged p details time (log ++ more) := by
  rw [logged, logged, appended_append]
  exact ⟨appended p more, rfl⟩

theorem registeredBy_eq_some {details : ProductDetails} (h : registeredBy p (op, r) = some details) :
    op = .register details ∧ ∃ b, r = .ok b := by
  unfold registeredBy at h
  split at h
  · obtain ⟨-, hfound⟩ := Option.ite_none_right_eq_some.1 h
    cases hfound
    rename_i heq
    cases heq
    exact ⟨rfl, _, rfl⟩
  · cases h

/-- **The step at which a session registered a product** is there if its log says that it did. -/
theorem exists_registeredIn (h : Session L c v₀ v log) {details : ProductDetails}
    (hdetails : registration? p log = some details) : ∃ d, RegisteredIn L c v₀ v details d log := by
  induction h with
  | start => cases hdetails
  | @next v log op r t h hop hy ih =>
    rw [registration?_step] at hdetails
    cases hlog : registration? p log with
    | some found =>
      rw [hlog] at hdetails
      cases hdetails
      obtain ⟨d, hbefore, hregister, hafter⟩ := ih hlog
      refine ⟨d, ?_⟩
      rw [List.append_assoc, List.cons_append]
      exact .mk hbefore hregister (.next hafter hop hy)
    | none =>
      rw [hlog, Option.none_or] at hdetails
      obtain ⟨rfl, b, rfl⟩ := registeredBy_eq_some hdetails
      cases (upshot_of_yields hy).1 with
      | registered hrecorded => exact ⟨t.2, .mk h hy .start⟩
      | other hkind => rcases hkind with ⟨_, hkind⟩ | ⟨_, _, hkind⟩ | hkind <;> cases hkind

/-- **A registration reads the clock once**, and what it says is the time that it remembers. -/
theorem clock_of_recorded {d : Dialogue Scene} {details : ProductDetails} {time : UInt64} {i : Invocation}
    (h : Recorded c (.register details) details.id time i d) (now : UInt64) :
    Told d (.own .clock) now ↔ now = time := by
  obtain ⟨hconfirmed⟩ := h
  obtain ⟨hsigned⟩ := hconfirmed
  obtain ⟨hinvoked⟩ := hsigned
  obtain ⟨hdraft⟩ := hinvoked
  cases hdraft with
  | register hnet => cases hnet <;> simp [Told]

/-- **The time of a registration is what the clock said at its step.** -/
theorem RegisteredIn.clock (hexact : ¬ L.faulty) {details : ProductDetails} {d : Dialogue Scene}
    (h : RegisteredIn L c v₀ v details d log) {owner : String} {time : UInt64}
    (hrecord : v.around.store.Registered details.id (details.recorded owner time)) (now : UInt64) :
    Told d (.own .clock) now ↔ now = time := by
  obtain ⟨hbefore, hy, hafter⟩ := h
  obtain ⟨hupshot, hlast⟩ := upshot_of_yields hy
  cases (keeps_run_awaited hexact _ rfl).yields hy with
  | @registered _ owner' time' happlied hknown =>
    have htime : time' = time := by
      have hsame := (happlied.registered.mono (hafter.extends hexact)).unique hrecord
      exact congrArg ProductRecord.createdAt hsame
    cases hupshot with
    | @registered _ told i hrecorded =>
      have htold : told = time' := by
        obtain ⟨hconfirmed⟩ := hrecorded
        have hremembered := hlast _ _ _ _ rfl
        rw [hknown, Function.update_self] at hremembered
        exact (Option.some.inj hremembered).symm
      rw [clock_of_recorded hrecorded now, htold, htime]
    | other hkind => rcases hkind with ⟨_, hkind⟩ | ⟨_, _, hkind⟩ | hkind <;> cases hkind
  | read hread hresult =>
    rcases hresult with hreads | ⟨e, he⟩
    · exact absurd trivial hreads
    · cases he

/-- **One session is an append-only log.**  After any operations of one client on a ledger that was empty and that
records nothing of what it reports as failed, the history of a product is its registration, at the time that the clock
said then, and then the events that the successful appends returned, in the order of the calls and of their times.
What comes later only adds to it.  A product that was not registered is unknown. -/
theorem history_of_session (hexact : ¬ L.faulty) (h : Session L c ⟨.empty, fun _ => none, []⟩ v log) (p : ProductId) :
    (registration? p log = none → Shows L c v p (.error (.client (.unknownProduct p)))) ∧
    ∀ details, registration? p log = some details → details.id = p ∧ ∃ time,
      (∃ d, RegisteredIn L c ⟨.empty, fun _ => none, []⟩ v details d log) ∧
      (∀ d, RegisteredIn L c ⟨.empty, fun _ => none, []⟩ v details d log →
        ∀ now, Told d (.own .clock) now ↔ now = time) ∧
      ∀ v' more, Session L c v v' more →
        Shows L c v' p (.ok (.history ⟨p, logged p details time (log ++ more)⟩)) ∧
        (logged p details time (log ++ more)).Pairwise (fun a b => a.time ≤ b.time) ∧
        logged p details time log <+: logged p details time (log ++ more) := by
  have hlogged := logged_of_session hexact logged_start h
  refine ⟨hlogged.shows_unknown, fun details hdetails => ?_⟩
  obtain ⟨rfl, owner, time, hrecord⟩ := hlogged.known p details hdetails
  refine ⟨rfl, time, exists_registeredIn h hdetails, fun d hd => hd.clock hexact hrecord, fun v' more hmore => ?_⟩
  have hlogged' := logged_of_session hexact hlogged hmore
  have hrecord' := hrecord.mono (hmore.extends hexact)
  exact ⟨hlogged'.shows hrecord', hlogged'.ordered _ _ hrecord', logged_prefix _ details time log more⟩

/-- The general theorem at that session. -/
theorem history_of_session_once : ∃ v log, Session inMemory looseClient ⟨.empty, fun _ => none, []⟩ v log ∧
    ¬ inMemory.faulty ∧ Shows inMemory looseClient v ⟨"P"⟩
      (.ok (.history ⟨⟨"P"⟩, [⟨⟨"P"⟩, .register, 100, .empty⟩, checkpoint 100]⟩)) := by
  obtain ⟨v, d, hclock, hv⟩ := exists_session
  obtain ⟨-, time, -, htime, hshows⟩ := (history_of_session not_false hv.session ⟨"P"⟩).2 (.ofId ⟨"P"⟩) rfl
  obtain rfl : 100 = time := (htime d hv 100).1 hclock
  exact ⟨v, _, hv.session, not_false, (hshows v [] .start).1⟩

end SupplyTrail.Interleaving
