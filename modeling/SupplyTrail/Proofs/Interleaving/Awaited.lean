import SupplyTrail.Proofs.Interleaving.Truth
/-!
# Awaited — what one operation does while nothing else happens

A caller that awaits each operation has one of them at a time: nothing changes but by its own questions.  What it
reads is the state of the ledger, what it fails to do changes nothing there, and what it does is one registration or
one event.
-/
namespace SupplyTrail.Interleaving

open Client Activity
open Rehearsal (Result Store ofClient)

variable {σ : Type}

/-- Readings come in for queries that are out. -/
inductive Arrived (S : Surroundings σ) : View σ → View σ → Prop
  | refl {v : View σ} : Arrived S v v
  | reading {v u : View σ} {e : Errand} {r : Reading} {s : σ} (he : e ∈ v.errands)
      (hr : S.away (.query e.url e.call) v.around r s)
      (h : Arrived S { v with around := s, errands := { e with reading := some r } :: v.errands } u) : Arrived S v u

/-- The rules for an operation that is awaited: its view and its dialogue.  It waits only for a query that is out. -/
def awaited (S : Surroundings σ) : Rules questions (View σ × Dialogue σ) where
  asks s q :=
    match q with
    | .away (.settle first _) => ∃ e ∈ s.1.errands, e.ticket = first
    | _ => True
  answers q s a t := ∃ u, Arrived S s.1 u ∧ Answered S q u a t.1 ∧ t.2 = ⟨q, a, u.around⟩ :: s.2

theorem Answering.awaited {S : Surroundings σ} (hS : Answering S) {s : View σ × Dialogue σ} {q : Question}
    (h : (awaited S).asks s q) : ∃ a t, (awaited S).answers q s a t := by
  have hence : ∀ {u : View σ} (a : q.Answer) (v' : View σ), Arrived S s.1 u → Answered S q u a v' →
      ∃ a t, (Interleaving.awaited S).answers q s a t := fun a v' hu ha => ⟨a, (v', _), _, hu, ha, rfl⟩
  cases q with
  | own q =>
    obtain ⟨a, v', ha⟩ := hS.answered q s.1
    exact hence a v' .refl ha
  | away q =>
    cases q with
    | sign account network payload =>
      obtain ⟨a, s', ha⟩ := hS.away (.sign account network payload) s.1.around
      exact hence a { s.1 with around := s' } .refl ⟨s', ha, rfl⟩
    | query url call =>
      obtain ⟨a, s', ha⟩ := hS.away (.query url call) s.1.around
      exact hence a { s.1 with around := s' } .refl ⟨s', ha, rfl⟩
    | submit url e =>
      obtain ⟨a, s', ha⟩ := hS.away (.submit url e) s.1.around
      exact hence a { s.1 with around := s' } .refl ⟨s', ha, rfl⟩
    | health url =>
      obtain ⟨a, s', ha⟩ := hS.away (.health url) s.1.around
      exact hence a { s.1 with around := s' } .refl ⟨s', ha, rfl⟩
    | fetch t url call => exact hence none { s.1 with errands := ⟨t, url, call, none⟩ :: s.1.errands } .refl rfl
    | settle first others =>
      -- the query that is waited for first gets its reading
      obtain ⟨e, he, hticket⟩ := h
      obtain ⟨r, s', hr⟩ := hS.away (.query e.url e.call) s.1.around
      exact hence (⟨first, List.mem_cons_self⟩, r) _ (.reading he hr .refl) ⟨⟨_, List.mem_cons_self, hticket, rfl⟩, rfl⟩

variable {L : Regime} {c : Client} {p : ProductId} {v v' u v₀ : View Scene} {d d₀ : Dialogue Scene} {α : Type}

/-! ## Reading -/

/-- The invariant of an operation that reads about a product: the ledger stays as it is, what was read is its state,
every query that was left out is there, and no time is remembered but that of a history that was read. -/
structure Browsed (L : Regime) (c : Client) (p : ProductId) (v₀ v : View Scene) (d : Dialogue Scene) : Prop where
  around : v.around = v₀.around
  moments : ∀ t ∈ d, t.moment = v₀.around
  lived : Lived L v₀.around d
  truthful : Truthful L c v₀.around.store d v.errands
  out : ∀ t url call, Told d (.away (.fetch t url call)) none → ∃ e ∈ v.errands, e.ticket = t
  others : ∀ q, q ≠ p → v.known q = v₀.known q
  own : v.known p = v₀.known p ∨ ∃ h, HistoryRead c p d h ∧ v.known p = some h.lastTime

theorem browsed_nil (h : v.errands = []) : Browsed L c p v v [] where
  around := rfl
  moments _ ht := by cases ht
  lived _ ht := by cases ht
  truthful := h ▸ truthful_nil L c v.around.store
  out := fun _ _ _ ⟨_, hm⟩ => by cases hm
  others _ _ := rfl
  own := .inl rfl

theorem Browsed.arrived (h : Browsed L c p v₀ v d) (ha : Arrived (ledger L) v u) : Browsed L c p v₀ u d := by
  induction ha with
  | refl => exact h
  | @reading v u e r s he hr _ ih =>
    refine ih ⟨hr.1.trans h.around, h.moments, h.lived, ?_, fun t url call htold => ?_, h.others, h.own⟩
    · rw [h.around] at hr
      exact h.truthful.served he hr.2
    · obtain ⟨e', he', ht⟩ := h.out t url call htold
      exact ⟨e', List.mem_cons_of_mem _ he', ht⟩

theorem Browsed.answer (h : Browsed L c p v₀ v d) {q : Question} {a : q.Answer} (hask : MayRead c p d q)
    (ha : Answered (ledger L) q v a v') : Browsed L c p v₀ v' (⟨q, a, v.around⟩ :: d) := by
  have haround : v'.around = v.around := by
    rcases scene_cases ha with heq | ⟨url, e, a', rfl, -⟩
    · exact heq
    · cases hask
  have hsince : Since (ledger L) Grown v₀.around ⟨q, a, v.around⟩ := by
    refine ⟨v, v', rfl, ha, ?_, ?_⟩
    · rw [haround]
      exact .refl _
    · rw [haround, h.around]
      exact .refl _
  refine ⟨haround.trans h.around, fun t ht => ?_, fun t ht => ?_, ?_, errand_of_told h.out ha, fun q' hq' => ?_, ?_⟩
  · rcases List.mem_cons.1 ht with rfl | ht
    · exact h.around
    · exact h.moments t ht
  · rcases List.mem_cons.1 ht with rfl | ht
    · exact hsince
    · exact h.lived t ht
  · have hwarrant : Warrant c (.getHistory p) d q := .read rfl hask
    rw [h.around]
    exact h.truthful.answer h.lived hwarrant h.around ha
  · rcases known_cases ha with heq | ⟨p', time, rfl, heq⟩
    · rw [heq]
      exact h.others q' hq'
    · cases hask
      rw [heq, Function.update_of_ne hq']
      exact h.others q' hq'
  · rcases known_cases ha with heq | ⟨p', time, rfl, heq⟩
    · rw [heq]
      exact h.own.imp_right fun ⟨t, hread, ht⟩ => ⟨t, hread.mono (List.suffix_cons _ _), ht⟩
    · cases hask with
      | @remember t hread =>
        refine .inr ⟨t, hread.mono (List.suffix_cons _ _), ?_⟩
        rw [heq, Function.update_self]

/-- **Reading while nothing else happens**: what an activity keeps that reads about a product, it keeps with what the
ledger's state has. -/
theorem keeps_browsed {x : Run α} {ends : Dialogue Scene → α → Prop} (h : Keeps (reading c p) ends x [])
    (hv : v.errands = []) (d : Dialogue Scene) :
    Keeps (awaited (ledger L)) (fun t a => ∃ d', t.2 = d' ++ d ∧ Browsed L c p v t.1 d' ∧ ends d' a) x (v, d) := by
  refine (h.simulate (fun d' (t : View Scene × Dialogue Scene) => t.2 = d' ++ d ∧ Browsed L c p v t.1 d')
    ⟨rfl, browsed_nil hv⟩ (fun d' t q hsim hask => ?_) (fun q d' t a t' hsim hask hans => ?_)).mono
    fun t a ⟨d', ⟨hd', hbrowsed⟩, hends⟩ => ⟨d', hd', hbrowsed, hends⟩
  · cases hask with
    | settle hids hsent => exact hsim.2.out _ _ _ (hsent _ List.mem_cons_self).2
    | _ => trivial
  · obtain ⟨u, harrived, hans, hd'⟩ := hans
    refine ⟨⟨q, a, u.around⟩ :: d', ⟨_, rfl⟩, ?_, (hsim.2.arrived harrived).answer hask hans⟩
    rw [hd', hsim.1, List.cons_append]

/-- The history that the ledger's state has for a product. -/
def HistoryIn (s : Store) (p : ProductId) (h : History) : Prop :=
  ∃ record events, s.Registered p record ∧ (s.trail p.text).map Event.parse = events.map .ok ∧
    h = .ofEvents p (record.registerEvent :: events)

theorem Browsed.historyIn (h : Browsed L c p v₀ v d) {t : History} (hread : HistoryRead c p d t) :
    HistoryIn v₀.around.store p t := by
  obtain ⟨⟨record, ids, events, hrecord, hids, hevents, rfl⟩, -⟩ := hread
  obtain ⟨m, hm, htrail, -, -⟩ := parse_trail_of_read h.lived h.truthful.heard hids hevents
  have hmoment : m = v₀.around := h.moments _ hm
  rw [hmoment] at htrail
  exact ⟨record, events, registered_of_recordRead h.lived hrecord, htrail, rfl⟩

/-- The ledger stays as it is, and so does what the client remembers, but for a product whose history it has read. -/
structure ReadUp (p : ProductId) (v v' : View Scene) : Prop where
  around : v'.around = v.around
  others : ∀ q, q ≠ p → v'.known q = v.known q
  own : v'.known p = v.known p ∨ ∃ h, HistoryIn v.around.store p h ∧ v'.known p = some h.lastTime

theorem Browsed.readUp (h : Browsed L c p v₀ v d) : ReadUp p v₀ v :=
  ⟨h.around, h.others, h.own.imp_right fun ⟨t, hread, ht⟩ => ⟨t, h.historyIn hread, ht⟩⟩

/-! ## Talking to the process -/

/-- Neither the ledger nor what the client remembers has changed, and no query was sent. -/
structure Alike (v v' : View Scene) : Prop where
  around : v'.around = v.around
  known : v'.known = v.known
  idle : v.errands = [] → v'.errands = []

theorem Alike.refl (v : View Scene) : Alike v v := ⟨rfl, rfl, id⟩

theorem Alike.trans (h : Alike v u) (h' : Alike u v') : Alike v v' :=
  ⟨h'.around.trans h.around, h'.known.trans h.known, fun hidle => h'.idle (h.idle hidle)⟩

theorem Alike.readUp (h : Alike v v') (p : ProductId) : ReadUp p v v' :=
  ⟨h.around, fun q _ => congrFun h.known q, .inl (congrFun h.known p)⟩

theorem Alike.thenRead (h : Alike v u) (h' : ReadUp p u v') : ReadUp p v v' := by
  refine ⟨h'.around.trans h.around, fun q hq => ?_, ?_⟩
  · rw [h'.others q hq, h.known]
  · have hown := h'.own
    rw [h.around, h.known] at hown
    exact hown

theorem ReadUp.alike (h : ReadUp p v u) (h' : Alike u v') : ReadUp p v v' := by
  refine ⟨h'.around.trans h.around, fun q hq => ?_, ?_⟩
  · rw [h'.known]
    exact h.others q hq
  · rw [h'.known]
    exact h.own

theorem Arrived.alike (h : Arrived (ledger L) v u) : Alike v u := by
  induction h with
  | refl => exact .refl _
  | reading he hr _ ih =>
    refine ⟨ih.around.trans hr.1, ih.known, fun hidle => ?_⟩
    rw [hidle] at he
    cases he

/-- The process is asked, and nothing is to be remembered. -/
def Talks : Question → Prop
  | .own (.remember _ _) | .away _ => False
  | .own _ => True

theorem alike_of_talk {q : Question} {a : q.Answer} (hq : Talks q) (h : Answered (ledger L) q v a v') : Alike v v' := by
  cases q with
  | away q => exact hq.elim
  | own q =>
    refine ⟨around_of_own h, ?_, fun hidle => ?_⟩
    · rcases known_cases h with heq | ⟨p, t, hremember, -⟩
      · exact heq
      · cases hremember
        exact hq.elim
    · rcases errands_cases h with heq | ⟨t, url, call, hfetch, -⟩
      · rw [heq, hidle]
      · cases hfetch

variable {s : View Scene × Dialogue Scene}

theorem keeps_alike {x : Run α} {ends : Dialogue Scene → α → Prop} (h : Keeps (hearing fun _ q => Talks q) ends x []) :
    Keeps (awaited (ledger L)) (fun t a => Alike s.1 t.1 ∧ ∃ d, ends d a) x s := by
  refine (h.simulate (fun _ (t : View Scene × Dialogue Scene) => Alike s.1 t.1) (.refl _) (fun d t q hsim hask => ?_)
    (fun q d t a t' hsim hask hans => ?_)).mono fun t a ⟨d, halike, hends⟩ => ⟨halike, d, hends⟩
  · cases q with
    | own q => trivial
    | away q => exact hask.elim
  · obtain ⟨u, harrived, hans, -⟩ := hans
    exact ⟨_, ⟨u.around, rfl⟩, hsim.trans (harrived.alike.trans (alike_of_talk hask hans))⟩

theorem keeps_ask {q : Own} (hq : Talks (.own q)) :
    Keeps (awaited (ledger L)) (fun t (_ : q.Answer) => Alike s.1 t.1) (own q) s := by
  have htalk : Keeps (hearing fun (_ : Dialogue Scene) q => Talks q) (fun _ _ => True) (own q) [] :=
    keeps_own hq fun _ _ => trivial
  exact (keeps_alike htalk).mono fun _ _ h => h.1

theorem keeps_connectedKey_awaited :
    Keeps (awaited (ledger L)) (fun t (_ : Except ClientError String) => Alike s.1 t.1) connectedKey.run s := by
  refine Keeps.bindRun (keeps_ask trivial) fun t account h => ?_
  cases account with
  | none => exact h
  | some account => exact h

theorem keeps_checkNetwork_awaited :
    Keeps (awaited (ledger L)) (fun t (_ : Except ClientError Unit) => Alike s.1 t.1) c.checkNetwork.run s :=
  (keeps_alike (keeps_checkNetwork (fun _ => trivial) fun _ _ => trivial)).mono
    fun _ _ h => h.1

theorem keeps_checked_awaited (r : Except InputError α) :
    Keeps (awaited (ledger L)) (fun t b => t = s ∧ b = r.mapError ClientError.invalidInput) (checked r).run s := by
  cases r with
  | ok a => exact ⟨rfl, rfl⟩
  | error e => exact ⟨rfl, rfl⟩

theorem keeps_accept_awaited (product : Option ProductId) (r : Except LedgerFailure α) :
    Keeps (awaited (ledger L)) (fun t b => Alike s.1 t.1 ∧ b = r.mapError (failureOf product))
      (c.accept product r).run s :=
  (keeps_alike (keeps_accept (fun _ _ => trivial) product r)).mono fun _ _ ⟨h, _, _, hb⟩ => ⟨h, hb⟩

/-! ## Writing -/

/-- What an answered submission has done to the ledger. -/
def Applied (args : Json) (function : String) (v v' : View Scene) : Prop :=
  ∃ call value, call.function = function ∧ call.args.outline = args.outline ∧
    v.around.store.apply call = (.ok value, v'.around.store) ∧ v'.around.late = v.around.late

theorem keeps_signature_awaited {payload : List UInt8} :
    Keeps (awaited (ledger L))
      (fun t (r : Except WalletError Envelope) => Alike s.1 t.1 ∧
        ∀ e, r = .ok e → ∀ call, L.opens e = some call → Renders payload call)
      (signature c.endpoint.network payload) s := by
  refine Keeps.bind (keeps_ask trivial) fun t account h => ?_
  cases account with
  | none => exact ⟨h, fun e he => by cases he⟩
  | some account =>
    refine ⟨trivial, fun a t' ⟨u, harrived, ⟨m, ⟨hm, hsound⟩, ht'⟩, _⟩ => ?_⟩
    refine ⟨h.trans (harrived.alike.trans ?_), hsound⟩
    rw [ht', hm]
    exact .refl u

/-- **One submission**: confirmed, it was applied; otherwise nothing has happened. -/
theorem keeps_submit_awaited (hexact : ¬ L.faulty) {function : String} {args : Json} {product : ProductId} :
    Keeps (awaited (ledger L))
      (fun t (r : Except ClientError Receipt) =>
        match r with
        | .ok _ => Applied args function s.1 t.1 ∧ t.1.known = s.1.known
        | .error _ => Alike s.1 t.1)
      (c.submit function args product).run s := by
  unfold submit
  refine Keeps.bindOp keeps_connectedKey_awaited (fun t₁ key h₁ => ?_) fun _ _ h => h
  refine Keeps.bindRun (keeps_ask trivial) fun t₂ nonce h₂ => ?_
  refine Keeps.bindRun keeps_signature_awaited fun t₃ r ⟨h₃, hsound⟩ => ?_
  have hbefore : Alike s.1 t₃.1 := (h₁.trans h₂).trans h₃
  match r with
  | .error error => cases error <;> exact hbefore
  | .ok e =>
    refine ⟨trivial, fun a t₄ ⟨u, harrived, ⟨m, hsubmitted, ht₄⟩, _⟩ => ?_⟩
    have hu : Alike s.1 u := hbefore.trans harrived.alike
    refine (keeps_accept_awaited (some product) a).mono fun t₅ b ⟨h₅, hb⟩ => ?_
    subst hb
    cases hsubmitted with
    | @confirmed call value receipt _ hopen happly hlate =>
      obtain ⟨i, hbytes, hfunction, hargs⟩ := hsound e rfl call hopen
      obtain ⟨hfunction', hargs'⟩ := Invocation.call_of_toBytes hbytes
      rw [hu.around] at happly hlate
      rw [ht₄] at h₅
      refine ⟨⟨call, value, hfunction.trans hfunction', hargs.trans hargs', ?_, ?_⟩, ?_⟩
      · rw [h₅.around]
        exact happly
      · rw [h₅.around]
        exact hlate
      · rw [h₅.known]
        exact hu.known
    | unreported hopen hstore hlate hfaulty => exact absurd hfaulty hexact
    | pending hopen hfaulty => exact absurd hfaulty hexact
    | failed =>
      rw [ht₄] at h₅
      exact hu.trans h₅

theorem Applied.of_alike {args : Json} {function : String} (h : Alike v₀ v) (happlied : Applied args function v u)
    (hu : v'.around = u.around) : Applied args function v₀ v' := by
  obtain ⟨call, value, hfunction, hargs, happly, hlate⟩ := happlied
  rw [h.around] at happly hlate
  rw [← hu] at happly hlate
  exact ⟨call, value, hfunction, hargs, happly, hlate⟩

variable {time : UInt64}

theorem keeps_answered {q : Own} {ends : View Scene × Dialogue Scene → q.Answer → Prop}
    (h : ∀ (a : q.Answer) t u, Alike s.1 u → Answered (ledger L) (.own q) u a t.1 → ends t a) :
    Keeps (awaited (ledger L)) ends (own q) s :=
  ⟨trivial, fun a t ⟨u, harrived, hans, _⟩ => h a t u harrived.alike hans⟩

theorem keeps_recorded_awaited {line : String} {a : α} :
    Keeps (awaited (ledger L))
      (fun t (r : Except ClientError α) => r = .ok a ∧ t.1.around = s.1.around ∧
        t.1.known = Function.update s.1.known p (some time))
      ((liftM (note .info line) : Op Unit) >>= fun _ => (liftM (own (.remember p time)) : Op Unit) >>= fun _ =>
        (pure a : Op α)).run s := by
  refine Keeps.bindRun (keeps_ask trivial) fun t₁ _ h₁ => ?_
  refine Keeps.bindRun (M := fun t _ => t.1.around = s.1.around ∧ t.1.known = Function.update s.1.known p (some time))
    (keeps_answered fun _ t u hu hans => ?_) fun t₂ _ h₂ => ⟨rfl, h₂⟩
  have hu := h₁.trans hu
  have ht : t.1 = { u with known := Function.update u.known p (some time) } := hans
  rw [ht]
  refine ⟨hu.around, ?_⟩
  rw [hu.known]

/-- **An awaited registration**: confirmed, it was applied; otherwise nothing has changed. -/
theorem keeps_register_awaited (hexact : ¬ L.faulty) {details : ProductDetails} :
    Keeps (awaited (ledger L))
      (fun t (r : Except ClientError ProductId) =>
        match r with
        | .ok id => id = details.id ∧ ∃ owner time,
          Applied (registerArgs details owner time) "register_product" s.1 t.1 ∧
          t.1.known = Function.update s.1.known details.id (some time)
        | .error _ => Alike s.1 t.1)
      (c.register details).run s := by
  unfold register
  refine Keeps.bindOp keeps_checkNetwork_awaited (fun t₁ _ h₁ => ?_) fun _ _ h => h
  refine Keeps.bindOp (keeps_checked_awaited details.check) (fun t₂ _ ⟨h₂, _⟩ => ?_) fun _ _ ⟨h, _⟩ => h ▸ h₁
  subst h₂
  refine Keeps.bindRun (keeps_ask trivial) fun t₃ time h₃ => ?_
  have h₁₃ := h₁.trans h₃
  refine Keeps.bindOp (keeps_checked_awaited _) (fun t₄ event ⟨h₄, hevent⟩ => ?_) fun _ _ ⟨h, _⟩ => h ▸ h₁₃
  subst h₄
  obtain ⟨rfl, -⟩ := Event.check_ok (mapError_eq_ok hevent) time
  refine Keeps.bindOp keeps_connectedKey_awaited (fun t₅ owner h₅ => ?_) fun _ _ h => h₁₃.trans h
  have h₁₅ := h₁₃.trans h₅
  refine Keeps.bindOp (keeps_submit_awaited hexact) (fun t₆ receipt ⟨happlied, hknown⟩ => ?_) fun _ _ h => h₁₅.trans h
  refine keeps_recorded_awaited.mono fun t₇ r ⟨hr, haround, hremembered⟩ => ?_
  subst hr
  refine ⟨rfl, owner, time, happlied.of_alike h₁₅ haround, ?_⟩
  rw [hremembered, hknown, h₁₅.known]

/-- The latest time of the product that the client can find: it remembers it, or reads it from the history. -/
def LastSeen (p : ProductId) (v : View Scene) (last : UInt64) : Prop :=
  v.known p = some last ∨ ∃ h, HistoryIn v.around.store p h ∧ h.lastTime = last

theorem keeps_getHistory_browsed (hidle : s.1.errands = []) :
    Keeps (awaited (ledger L))
      (fun t (r : Except ClientError History) => ∃ d, t.2 = d ++ s.2 ∧ Browsed L c p s.1 t.1 d ∧
        match r with
        | .ok h => HistoryIn s.1.around.store p h
        | .error e => ReadFault c p d e)
      (c.getHistory p).run s := by
  refine (keeps_browsed keeps_getHistory hidle s.2).mono fun t r ⟨d, hd, hbrowsed, _, hread⟩ => ⟨d, hd, hbrowsed, ?_⟩
  cases r with
  | error e => exact hread.fault
  | ok h =>
    obtain ⟨m, mid, rfl, hread⟩ := hread
    have hread' : HistoryRead c p (⟨.own (.remember p h.lastTime), (), m⟩ :: (mid ++ [])) h :=
      hread.mono (List.suffix_cons _ _)
    exact hbrowsed.historyIn hread'

theorem keeps_getHistory_awaited (hidle : s.1.errands = []) :
    Keeps (awaited (ledger L))
      (fun t (r : Except ClientError History) => ReadUp p s.1 t.1 ∧ ∀ h, r = .ok h → HistoryIn s.1.around.store p h)
      (c.getHistory p).run s := by
  refine (keeps_getHistory_browsed hidle).mono fun t r ⟨d, _, hbrowsed, hread⟩ => ⟨hbrowsed.readUp, ?_⟩
  rintro h rfl
  exact hread

theorem keeps_registeredTime_awaited (hidle : s.1.errands = []) :
    Keeps (awaited (ledger L))
      (fun t (r : Except ClientError UInt64) => ReadUp p s.1 t.1 ∧ ∀ last, r = .ok last → LastSeen p s.1 last)
      (c.registeredTime p).run s := by
  unfold registeredTime
  refine Keeps.bindRun (M := fun t (a : Option UInt64) => Alike s.1 t.1 ∧ a = s.1.known p)
    (keeps_answered fun a t u hu ⟨ha, ht⟩ => ?_) fun t a ⟨h, ha⟩ => ?_
  · rw [ht, ha, hu.known]
    exact ⟨hu, rfl⟩
  · cases a with
    | some time => exact ⟨h.readUp p, fun last hlast => by cases hlast; exact .inl ha.symm⟩
    | none =>
      refine Keeps.bindOp (keeps_getHistory_awaited (h.idle hidle)) (fun t' t'' ⟨hread, hhistory⟩ => ?_)
        fun t' e ⟨hread, _⟩ => ⟨h.thenRead hread, fun _ he => by cases he⟩
      refine ⟨h.thenRead hread, fun last hlast => ?_⟩
      cases hlast
      have hin := hhistory t'' rfl
      rw [h.around] at hin
      exact .inr ⟨t'', hin, rfl⟩

/-- **An awaited append**: confirmed, it was applied, with a time that is not before the latest one of the product
that the client could find; otherwise the ledger has not changed. -/
theorem keeps_append_awaited (hexact : ¬ L.faulty) {kind : EventKind} {metadata : Metadata} (hidle : s.1.errands = []) :
    Keeps (awaited (ledger L))
      (fun t (r : Except ClientError Event) =>
        match r with
        | .ok e => ∃ actor last time, e = ⟨p, kind, time, metadata⟩ ∧ kind ≠ .register ∧ Event.check e = .ok e ∧
          LastSeen p s.1 last ∧ last ≤ time ∧ Applied (appendArgs e actor) "add_tracking_event" s.1 t.1 ∧
          (∀ q, q ≠ p → t.1.known q = s.1.known q) ∧ t.1.known p = some time
        | .error _ => ReadUp p s.1 t.1)
      (c.append p kind metadata).run s := by
  unfold append
  refine Keeps.bindOp keeps_checkNetwork_awaited (fun t₁ _ h₁ => ?_) fun _ _ h => h.readUp p
  by_cases hkind : kind = .register
  · rw [if_pos hkind]
    exact h₁.readUp p
  rw [if_neg hkind]
  refine Keeps.bindOp (keeps_checked_awaited _) (fun t₂ draft ⟨h₂, hevent⟩ => ?_) fun _ _ ⟨h, _⟩ => (h ▸ h₁).readUp p
  subst h₂
  refine Keeps.bindOp keeps_connectedKey_awaited (fun t₃ actor h₃ => ?_) fun _ _ h => (h₁.trans h).readUp p
  have h₁₃ := h₁.trans h₃
  refine Keeps.bindOp (keeps_registeredTime_awaited (h₁₃.idle hidle)) (fun t₄ last ⟨h₄, hlast⟩ => ?_)
    fun _ _ ⟨h, _⟩ => h₁₃.thenRead h
  have hseen : LastSeen p s.1 last := by
    have hlast := hlast last rfl
    rw [LastSeen, h₁₃.around, h₁₃.known] at hlast
    exact hlast
  have h₁₄ := h₁₃.thenRead h₄
  refine Keeps.bindRun (keeps_ask trivial) fun t₅ now h₅ => ?_
  have h₁₅ := h₁₄.alike h₅
  obtain ⟨rfl, hgood⟩ := Event.check_ok (mapError_eq_ok hevent) (max now last)
  refine Keeps.bindOp (keeps_submit_awaited hexact) (fun t₆ receipt ⟨happlied, hknown⟩ => ?_) fun _ _ h => h₁₅.alike h
  refine keeps_recorded_awaited.mono fun t₇ r ⟨hr, haround, hremembered⟩ => ?_
  subst hr
  refine ⟨actor, last, max now last, rfl, hkind, hgood, hseen, time_le_max_right now last, ?_, fun q hq => ?_, ?_⟩
  · obtain ⟨call, value, hfunction, hargs, happly, hlate⟩ := happlied
    rw [h₁₅.around] at happly hlate
    rw [← haround] at happly hlate
    exact ⟨call, value, hfunction, hargs, happly, hlate⟩
  · rw [hremembered, hknown, Function.update_of_ne hq]
    exact h₁₅.others q hq
  · rw [hremembered, Function.update_self]

/-! ## Whole operations -/

/-- Operations that write. -/
def Writes : Operation → Prop
  | .register _ | .append _ _ _ => True
  | .getProduct _ | .getHistory _ | .getPage _ _ _ | .stream _ _ | .ping => False

open Rehearsal in
/-- What an awaited operation does to the ledger and to what the client remembers. -/
inductive Effect (v v' : View Scene) : Operation → Result → Prop
  | registered {details : ProductDetails} {owner : String} {time : UInt64}
      (happlied : Applied (registerArgs details owner time) "register_product" v v')
      (hknown : v'.known = Function.update v.known details.id (some time)) :
      Effect v v' (.register details) (.ok (.product details.id))
  | appended {p : ProductId} {kind : EventKind} {metadata : Metadata} {actor : String} {last time : UInt64}
      (hkind : kind ≠ .register) (hcheck : Event.check ⟨p, kind, time, metadata⟩ = .ok ⟨p, kind, time, metadata⟩)
      (hlast : LastSeen p v last) (htime : last ≤ time)
      (happlied : Applied (appendArgs ⟨p, kind, time, metadata⟩ actor) "add_tracking_event" v v')
      (hothers : ∀ q, q ≠ p → v'.known q = v.known q) (hknown : v'.known p = some time) :
      Effect v v' (.append p kind metadata) (.ok (.event ⟨p, kind, time, metadata⟩))
  | read {op : Operation} {r : Result} {p : ProductId} (hread : ReadUp p v v')
      (hresult : ¬ Writes op ∨ ∃ e, r = .error e) : Effect v v' op r

/-- **What an awaited operation does.** -/
theorem keeps_run_awaited (hexact : ¬ L.faulty) (op : Operation) (hidle : s.1.errands = []) :
    Keeps (awaited (ledger L)) (fun t r => Effect s.1 t.1 op r) (op.run c) s := by
  cases op with
  | register details =>
    refine keeps_ofClient (keeps_register_awaited hexact)
      (fun t id ⟨hid, owner, time, happlied, hknown⟩ => ?_) fun t e h => ?_
    · subst hid
      exact .registered happlied hknown
    · exact .read (h.readUp details.id) (.inr ⟨_, rfl⟩)
  | append p kind metadata =>
    refine keeps_ofClient (keeps_append_awaited hexact hidle) (fun t e h => ?_) fun t e h => .read h (.inr ⟨_, rfl⟩)
    obtain ⟨actor, last, time, rfl, hkind, hcheck, hlast, htime, happlied, hothers, hknown⟩ := h
    exact .appended hkind hcheck hlast htime happlied hothers hknown
  | getProduct p =>
    refine keeps_ofClient (keeps_browsed keeps_getProduct hidle s.2)
      (fun t b ⟨d, _, h, _⟩ => ?_) fun t e ⟨d, _, h, _⟩ => ?_
    · exact .read h.readUp (.inl id)
    · exact .read h.readUp (.inl id)
  | getHistory p =>
    refine keeps_ofClient (keeps_getHistory_awaited hidle) (fun t b h => ?_) fun t e h => ?_
    · exact .read h.1 (.inl id)
    · exact .read h.1 (.inl id)
  | getPage p offset limit =>
    refine keeps_ofClient (keeps_browsed keeps_getPage hidle s.2)
      (fun t b ⟨d, _, h, _⟩ => ?_) fun t e ⟨d, _, h, _⟩ => ?_
    · exact .read h.readUp (.inl id)
    · exact .read h.readUp (.inl id)
  | stream p count =>
    exact Keeps.bind (keeps_browsed (keeps_stream count) hidle s.2) fun t a ⟨d, _, h, _⟩ => .read h.readUp (.inl id)
  | ping =>
    refine keeps_ofClient (x := c.ping) (M := fun t _ => Alike s.1 t.1) ?_ (fun t b h => ?_) fun t e h => ?_
    · refine Keeps.bindRun (M := fun t _ => Alike s.1 t.1) ⟨trivial, fun a t ⟨u, harrived, ⟨m, hm, ht⟩, _⟩ => ?_⟩
        fun t r h => (keeps_accept_awaited none r).mono fun t' b h' => h.trans h'.1
      have hsame : m = u.around := hm
      change Alike s.1 t.1
      rw [ht, hsame]
      exact harrived.alike
    · exact .read (h.readUp default) (.inl id)
    · exact .read (h.readUp default) (.inl id)

/-! ## Its dialogue -/

/-- What was remembered last is known. -/
def Remembering (v : View σ) (d : Dialogue σ) : Prop :=
  ∀ p time m d', d = ⟨.own (.remember p time), (), m⟩ :: d' → v.known p = some time

theorem remembering_of_answered {S : Surroundings σ} {v v' : View σ} {q : Question} {a : q.Answer}
    (h : Answered S q v a v') (m : σ) (d : Dialogue σ) : Remembering v' (⟨q, a, m⟩ :: d) := by
  rintro p time m' d' heq
  cases heq
  have hv' : v' = { v with known := Function.update v.known p (some time) } := h
  rw [hv']
  exact Function.update_self _ _ _

/-- **An awaited operation conducts its dialogue like any other**, and what it remembered last is known at its end. -/
theorem upshot_of_yields {S : Surroundings σ} {v : View σ} {op : Operation} {r : Result}
    {t : View σ × Dialogue σ} (h : Yields (awaited S) (op.run c) (v, []) r t) :
    Upshot c t.2 op r ∧ Remembering t.1 t.2 := by
  refine (h.follow (R := operating c op) (fun d t => t.2 = d ∧ Remembering t.1 t.2) ⟨rfl, nofun⟩ ?_).elim
    fun d ⟨hy, hd, hlast⟩ => ⟨hd ▸ (keeps_run c op).yields hy, hlast⟩
  rintro q d s a t ⟨rfl, -⟩ ⟨u, -, hans, hd⟩
  exact ⟨t.2, ⟨u.around, hd⟩, rfl, hd ▸ remembering_of_answered hans _ _⟩

end SupplyTrail.Interleaving
