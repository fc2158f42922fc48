import SupplyTrail.Proofs.Interleaving.Memory
import SupplyTrail.Proofs.Interleaving.Still
import SupplyTrail.Proofs.Interleaving.Truth
/-!
# Completeness — a history is what the ledger has recorded

Clients that are the only ones to write to a ledger submit only what can be read again, and no event older than the
registration of its product.  So once a product is registered, reading its history does not fail: the history is the
registration and then everything recorded for the product when its events were listed.
-/
namespace SupplyTrail.Interleaving

open Client Activity
open Rehearsal (Result Store)

variable {L : Regime} {clients : Nat → Client} {w w' w₁ w₂ : World Scene} {id : Nat} {τ : Task Scene} {now : Scene}
  {d : Dialogue Scene} {c : Client} {op : Operation} {p : ProductId} {time : UInt64} {i : Invocation} {e : Envelope}

/-! ## No known time is older than the registration -/

/-- The product is registered, at this time or before. -/
def RegisteredBy (s : Store) (p : ProductId) (t : UInt64) : Prop :=
  ∃ record, s.Registered p record ∧ record.createdAt ≤ t

theorem RegisteredBy.mono {s t : Store} (h : Store.Extends s t) {time : UInt64} (hr : RegisteredBy s p time) :
    RegisteredBy t p time := by
  obtain ⟨record, hrecord, htime⟩ := hr
  exact ⟨record, hrecord.mono h, htime⟩

theorem registeredBy_of_historyRead (hlived : Lived L now d) {h : History} (hread : HistoryRead c p d h) :
    RegisteredBy now.store p h.lastTime := by
  obtain ⟨⟨record, ids, events, hrecord, -, -, rfl⟩, -⟩ := hread
  exact ⟨record, registered_of_recordRead hlived hrecord,
    History.le_lastTime (e := record.registerEvent) List.mem_cons_self⟩

/-- The times that an operation was told of are no older than the registration. -/
def SeenDated (now : Scene) (d : Dialogue Scene) : Prop :=
  ∀ p t, Told d (.own (.lastSeen p)) (some t) → RegisteredBy now.store p t

theorem registeredBy_of_seenAt {actor : Account} {last : UInt64} (hlived : Lived L now d) (hseen : SeenDated now d)
    (h : SeenAt c p actor last d) : RegisteredBy now.store p last := by
  cases h with
  | cached hnet => exact hseen p last (told_head _ _ _ _)
  | read hnet hlast hread =>
    rw [← hlast]
    exact registeredBy_of_historyRead (fun t ht => hlived t (List.mem_cons_of_mem _ ht)) hread

/-- A drafted call can be applied without harm, in any rendering. -/
theorem drawn_of_drafted {call found : ContractCall} (hlived : Lived L now d) (hseen : SeenDated now d)
    (h : Drafted c op p time call d) (hfunction : found.function = call.function)
    (hargs : found.args.outline = call.args.outline) : now.store.Drawn found := by
  cases h with
  | register hnet hcheck hevent => exact .register hfunction hargs
  | @append p kind metadata actor clock last m d hkind hevent hseenAt =>
    obtain ⟨record, hrecord, htime⟩ := registeredBy_of_seenAt (fun t ht => hlived t (List.mem_cons_of_mem _ ht))
      (fun q t ⟨m', hm'⟩ => hseen q t ⟨m', List.mem_cons_of_mem _ hm'⟩) hseenAt
    have hlater : record.createdAt ≤ max clock last := UInt64.le_trans htime (time_le_max_right clock last)
    exact .append hfunction hargs hevent hkind hrecord hlater

theorem drawn_of_signed {call : ContractCall} (hlived : Lived L now d) (hseen : SeenDated now d)
    (h : Signed c op p time i e d) (hopen : L.opens e = some call) : now.store.Drawn call := by
  obtain ⟨hfunction, hargs⟩ := call_of_signed hlived h hopen
  obtain ⟨d', hdraft, hd'⟩ := h.drafted
  have hlived' : Lived L now d' := fun t ht => hlived t (hd'.subset ht)
  have hseen' : SeenDated now d' := fun q t ht => hseen q t (ht.mono hd')
  exact drawn_of_drafted hlived' hseen' hdraft hfunction hargs

theorem registeredBy_of_confirmed (hlived : Lived L now d) (hseen : SeenDated now d) (h : Confirmed c op p time i d) :
    RegisteredBy now.store p time := by
  obtain ⟨drafted, d', t, call, value, s', hdraft, hd, -, hfunction, hargs, happly, hext⟩ :=
    applied_of_confirmed hlived h
  cases hdraft with
  | @register details owner time n k d'' hnet hcheck hevent =>
    -- the submission was confirmed, so it is the one that registered the product
    obtain ⟨-, hstore⟩ := Store.apply_register_ok hfunction (congrArg Prod.fst happly)
    have hs' : s' = t.moment.store.withProduct call := by rw [← hstore, happly]
    have hregistered := Store.registered_withProduct hargs t.moment.store
    rw [← hs'] at hregistered
    exact ⟨_, hregistered.mono hext, UInt64.le_refl time⟩
  | @append p kind metadata actor clock last m d'' hkind hevent hseenAt =>
    have hd'' : d'' <:+ d := (List.suffix_cons _ _).trans hd
    obtain ⟨record, hrecord, htime⟩ := registeredBy_of_seenAt (fun t ht => hlived t (hd''.subset ht))
      (fun q t ht => hseen q t (ht.mono hd'')) hseenAt
    exact ⟨record, hrecord, UInt64.le_trans htime (time_le_max_right clock last)⟩

/-! ## The ledger records only what can be read -/

/-- Everything recorded can be read, and so will be what is still to be applied. -/
structure Scene.Clean (s : Scene) : Prop where
  sound : s.store.Sound
  late : ∀ call ∈ s.late, s.store.Drawn call

/-- Applying a drafted call keeps a ledger clean, however much is left to be applied. -/
theorem Scene.Clean.applied {s s' : Scene} (h : s.Clean) {call : ContractCall} (hdrawn : s.store.Drawn call)
    (hstore : s'.store = (s.store.apply call).2) (hlate : ∀ c ∈ s'.late, c ∈ s.late) : s'.Clean := by
  have hgrown : Grown s s' := grown_of_applied hstore
  refine ⟨?_, fun c hc => (h.late c (hlate c hc)).mono hgrown⟩
  rw [hstore]
  exact h.sound.apply s.tidy hdrawn

theorem Scene.Clean.submitted {s s' : Scene} (h : s.Clean) {a : Except LedgerFailure Receipt}
    (hdrawn : ∀ call, L.opens e = some call → s.store.Drawn call) (hs : Submitted L e s a s') : s'.Clean := by
  cases hs with
  | confirmed hopen happly hlate =>
    exact h.applied (hdrawn _ hopen) (congrArg Prod.snd happly).symm fun c hc => hlate ▸ hc
  | unreported hopen hstore hlate => exact h.applied (hdrawn _ hopen) hstore fun c hc => hlate ▸ hc
  | failed => exact h
  | pending hopen =>
    refine ⟨h.sound, fun c hc => ?_⟩
    rcases List.mem_cons.1 hc with rfl | hc
    · exact hdrawn c hopen
    · exact h.late c hc

/-- The invariant of clients that have a ledger to themselves: the ledger is clean, and no time that a client remembers
or that an operation was told of is older than the registration of its product. -/
structure Dated (w : World Scene) : Prop where
  clean : w.around.Clean
  known : ∀ k p t, w.known k p = some t → RegisteredBy w.around.store p t
  seen : ∀ id τ, w.tasks id = some τ → SeenDated w.around τ.told

theorem registeredBy_of_remember (hlived : Lived L now d) (hseen : SeenDated now d)
    (h : Warrant c op d (.own (.remember p time))) : RegisteredBy now.store p time := by
  cases h with
  | health h => cases h
  | read hop h =>
    cases h with
    | remember hread => exact registeredBy_of_historyRead hlived hread
  | write h =>
    cases h with
    | @remember p time i line m d h =>
      exact registeredBy_of_confirmed (fun t ht => hlived t (List.mem_cons_of_mem _ ht))
        (fun q t ⟨m', hm'⟩ => hseen q t ⟨m', List.mem_cons_of_mem _ hm'⟩) h

theorem Dated.known_step (hconduct : AllConducted clients w) (hlived : AllSince (ledger L) Grown w) (h : Dated w)
    (hs : Step (ledger L) clients w w') (k : Nat) (p : ProductId) (t : UInt64) (ht : w'.known k p = some t) :
    RegisteredBy w'.around.store p t := by
  have hgrown : Grown w.around w'.around := develops.step hs
  rcases known_of_step hs k p with hsame | ⟨id, τ, time, next, v, hτ, -, hrest, -, hnew⟩
  · rw [hsame] at ht
    exact (h.known k p t ht).mono hgrown
  · rw [hnew] at ht
    cases ht
    have hwarrant := (hconduct id τ hτ).warrant hrest
    exact (registeredBy_of_remember (hlived id τ hτ) (h.seen id τ hτ) hwarrant).mono hgrown

theorem Dated.step (hown : ¬ L.foreign) (hconduct : AllConducted clients w) (hlived : AllSince (ledger L) Grown w)
    (h : Dated w) (hs : Step (ledger L) clients w w') : Dated w' := by
  have hgrown : Grown w.around w'.around := develops.step hs
  have hseen : ∀ id τ, w.tasks id = some τ → SeenDated w'.around τ.told := fun id τ hτ p t ht =>
    (h.seen id τ hτ p t ht).mono hgrown
  have hknown := h.known_step hconduct hlived hs
  cases hs with
  | @begin id member op hid =>
    refine ⟨h.clean, hknown, fun i τ' hτ' => ?_⟩
    have hnew : SeenDated w.around (Task.begun clients member op : Task Scene).told := fun p t ⟨m, hm⟩ => by cases hm
    exact tasks_update (P := fun τ => SeenDated w.around τ.told) hseen hnew hτ'
  | @answer id τ q next a v hτ hrest hturn ha =>
    refine ⟨?_, hknown, fun i τ' hτ' => ?_⟩
    · rcases scene_cases ha with heq | ⟨url, e, a', rfl, hs⟩
      · have hsame : (w.answer id τ q a v (next a)).around = w.around := heq
        rw [hsame]
        exact h.clean
      · obtain ⟨p, time, i, hsigned⟩ := ((hconduct id τ hτ).warrant hrest).signed
        exact h.clean.submitted (fun call hopen => drawn_of_signed (hlived id τ hτ) (h.seen id τ hτ) hsigned hopen) hs
    · refine tasks_update (P := fun τ => SeenDated v.around τ.told) hseen (fun p t ⟨m, hm⟩ => ?_) hτ'
      rcases List.mem_cons.1 hm with hm | hm
      · cases hm
        exact (h.known τ.member p t ha.1.symm).mono hgrown
      · exact hseen id τ hτ p t ⟨m, hm⟩
  | @serve id τ e r s hτ he hr =>
    have hsame : s = w.around := hr.1
    subst hsame
    refine ⟨h.clean, hknown, fun i τ' hτ' => ?_⟩
    have hserved : SeenDated w.around (τ.served e r).told := hseen id τ hτ
    exact tasks_update (P := fun τ => SeenDated w.around τ.told) hseen hserved hτ'
  | @other s hturn hs =>
    refine ⟨?_, hknown, hseen⟩
    rcases hs with ⟨call, hcall, hstore, hlate⟩ | ⟨hforeign, -⟩
    · exact h.clean.applied (h.clean.late call hcall) hstore hlate
    · exact absurd hforeign hown

/-- **Clients that have a ledger to themselves keep it clean.** -/
theorem dated_of_steps (hown : ¬ L.foreign) (h : Steps (ledger L) clients (.start .empty) w) : Dated w := by
  induction h with
  | refl =>
    refine ⟨⟨Store.sound_empty, fun _ hcall => (by cases hcall)⟩, fun _ _ _ ht => (by cases ht), fun _ _ hτ => ?_⟩
    cases hτ
  | tail hs₁ hs ih => exact ih.step hown (allConducted_of_steps hs₁) (allSince_of_steps develops hs₁) hs

/-! ## Reading a registered product -/

theorem createdAt_le_of_read (hclean : now.Clean) (hlived : Lived L now d)
    (htrue : ∀ t r, Heard d t r → Reads L now.store t.event r) {record : ProductRecord} {ids : List UInt64}
    {events : List Event} (hrecord : RecordRead c p d record) (hids : IdsRead c p d ids)
    (hread : EventsRead p d (ticketsOf ids) events) : ∀ e ∈ events, record.createdAt ≤ e.time := by
  intro e he
  obtain ⟨m, -, htrail, hproducts, hgrown⟩ := parse_trail_of_read hlived htrue hids hread
  have hmem : Except.ok e ∈ (m.store.trail p.text).map Event.parse := by
    rw [htrail]
    exact List.mem_map_of_mem he
  obtain ⟨v, hv, hparse⟩ := List.mem_map.1 hmem
  obtain ⟨e', record', hparse', -, -, hregistered, htime⟩ :=
    hclean.sound.event v (hgrown.events.subset (List.mem_filter.1 hv).1)
  rw [hparse] at hparse'
  cases hparse'
  rw [hproducts e he] at hregistered
  rw [(registered_of_recordRead hlived hrecord).unique hregistered]
  exact htime

/-- An event that was listed for the product is its own, and can be read. -/
theorem not_eventRead_error (hquery : ¬ L.failing) (hclean : now.Clean) (hlived : Lived L now d)
    (htrue : ∀ t r, Heard d t r → Reads L now.store t.event r) {ids : List UInt64} (hids : IdsRead c p d ids)
    {t : Ticket} (ht : t ∈ ticketsOf ids) {e : ClientError} : ¬ EventRead p d t (.error e) := by
  rintro ⟨r, hheard, hitem⟩
  obtain ⟨v, rfl, hv⟩ | ⟨hfail, -⟩ := htrue t r hheard
  · obtain ⟨m, -, -, rfl, hgrown⟩ := listed_of_idsRead hlived hids
    obtain ⟨⟨event, place⟩, hmem, rfl⟩ := List.mem_map.1 ht
    obtain ⟨n, hn, rfl⟩ := List.mem_map.1 (List.fst_mem_of_mem_zipIdx hmem)
    rw [m.tidy.toNat_ofNat hn] at hv
    have hthere := List.getElem?_eq_getElem (m.tidy.lt_of_listed hn)
    have hsame := hgrown.event hthere
    rw [hv] at hsame
    cases hsame
    have hof := m.tidy.isOf_of_listed hn hthere
    obtain ⟨e', record, hparse, -, hid, -, -⟩ := hclean.sound.event _ (List.mem_of_getElem? hv)
    have hproduct : e'.product = p := by
      rw [Store.IsOf, hid, beq_iff_eq] at hof
      exact congrArg ProductId.mk hof
    rw [Store.eventOf_of_parse hparse hproduct] at hitem
    cases hitem
  · exact hquery hfail

/-- **Nothing is wrong with a registered product's trail.** -/
theorem not_readFault (hquery : ¬ L.failing) (hclean : now.Clean) (hlived : Lived L now d)
    (htrue : ∀ t r, Heard d t r → Reads L now.store t.event r)
    (hknown : ∀ t ∈ d, (valueOf? p.text t.moment.store.products).isSome)
    (hnet : ∀ active, Told d (.own .activeNetwork) active → active = c.endpoint.network) {error : ClientError} :
    ¬ ReadFault c p d error := by
  intro hfault
  cases hfault with
  | network hbound htold hne => exact hne (hnet _ htold)
  | recordRefused htold =>
    obtain ⟨m, hm, ha, -⟩ := read_of_told hquery hlived htold
    obtain ⟨v, hv⟩ := Option.isSome_iff_exists.1 (hknown _ hm)
    rw [Store.read_product, hv] at ha
    cases ha
  | recordMalformed htold hdecode =>
    obtain ⟨m, hm, ha, hgrown⟩ := read_of_told hquery hlived htold
    obtain ⟨v, hv⟩ := Option.isSome_iff_exists.1 (hknown _ hm)
    rw [Store.read_product, hv] at ha
    cases ha
    obtain ⟨record, hrecord, -⟩ := hclean.sound.product _ _ (hgrown.products _ _ hv)
    rw [hdecode] at hrecord
    cases hrecord
  | idsRefused htold =>
    obtain ⟨m, hm, ha, -⟩ := read_of_told hquery hlived htold
    rw [Store.read_ids, m.tidy.listed_of_known (hknown _ hm)] at ha
    cases ha
  | idsMalformed htold hdecode =>
    obtain ⟨m, hm, ha, -⟩ := read_of_told hquery hlived htold
    rw [Store.read_ids, m.tidy.listed_of_known (hknown _ hm)] at ha
    cases ha
    rw [Store.list_numbers] at hdecode
    cases hdecode
  | event hids ht hread => exact not_eventRead_error hquery hclean hlived htrue hids ht hread
  | unregistered hread hfirst hkind =>
    obtain ⟨record, ids, events, hrecord, hids, hevents, rfl⟩ := hread
    have hhead := History.head?_ofEvents (p := p) (e := record.registerEvent)
      (createdAt_le_of_read hclean hlived htrue hrecord hids hevents)
    rw [hhead] at hfirst
    cases hfirst
    exact hkind rfl

/-- The result of reading a product's history in full: the stable sort by time of the registration that the product's
record stands for and the events recorded for the product when its events were listed.  The registration comes first. -/
def CompleteHistory (c : Client) (p : ProductId) (d : Dialogue Scene) (r : Result) : Prop :=
  ∃ (m : Scene) (record : ProductRecord) (events sorted : List Event),
    (⟨.away (c.idsQuery p), .ok (Store.numbers (m.store.listed p.text)), m⟩ : Turn Scene) ∈ d ∧
    m.store.Registered p record ∧ (m.store.trail p.text).map Event.parse = events.map .ok ∧
    SortedByTime (record.registerEvent :: events) sorted ∧ sorted.head? = some record.registerEvent ∧
    r = .ok (.history ⟨p, sorted⟩)

theorem known_of_grown {s s' : Scene} (h : Grown s s') (hp : (valueOf? p.text s.store.products).isSome) :
    (valueOf? p.text s'.store.products).isSome := by
  obtain ⟨v, hv⟩ := Option.isSome_iff_exists.1 hp
  rw [h.products _ _ hv]
  rfl

theorem completeHistory_of_read (hclean : now.Clean) (hlived : Lived L now d)
    (htrue : ∀ t r, Heard d t r → Reads L now.store t.event r)
    (hknown : ∀ t ∈ d, (valueOf? p.text t.moment.store.products).isSome) {h : History} (hread : HistoryRead c p d h) :
    CompleteHistory c p d (.ok (.history h)) := by
  obtain ⟨⟨record, ids, events, hrecord, hids, hevents, rfl⟩, -⟩ := hread
  obtain ⟨m, hm, htrail, -, hgrown⟩ := parse_trail_of_read hlived htrue hids hevents
  have hregistered : m.store.Registered p record := by
    obtain ⟨v, hv⟩ := Option.isSome_iff_exists.1 (hknown _ hm)
    obtain ⟨value, hvalue, hdecode⟩ := registered_of_recordRead hlived hrecord
    rw [hgrown.products _ _ hv] at hvalue
    cases hvalue
    exact ⟨v, hv, hdecode⟩
  exact ⟨m, record, events, _, hm, hregistered, htrail, History.sortedByTime_ofEvents p _,
    History.head?_ofEvents (createdAt_le_of_read hclean hlived htrue hrecord hids hevents), rfl⟩

/-- What an operation has that reads a history, once it has ended. -/
theorem completeHistory_of_done (hown : ¬ L.foreign) (hquery : ¬ L.failing)
    (h₁ : Steps (ledger L) clients (.start .empty) w₁) (hp : (valueOf? p.text w₁.around.store.products).isSome)
    (hid : w₁.tasks id = none) (h₂ : Steps (ledger L) clients w₁ w₂) (hτ : w₂.tasks id = some τ)
    (hop : τ.operation = .getHistory p) (hnet : Unswitched (clients τ.member) τ.told) {r : Result}
    (hdone : τ.rest = .done r) : CompleteHistory (clients τ.member) p τ.told r := by
  have h := h₁.trans h₂
  have hlived := lived_of_steps h hτ
  have htrue := (allTruthful_of_steps h id τ hτ).heard
  have hclean := (dated_of_steps hown h).clean
  have hknown : ∀ t ∈ τ.told, (valueOf? p.text t.moment.store.products).isSome := fun t ht =>
    known_of_grown (moments_of_steps develops hid h₂ τ hτ t ht) hp
  have hupshot := (allConducted_of_steps h id τ hτ).upshot hdone
  rw [hop] at hupshot
  cases hupshot with
  | history hread => exact completeHistory_of_read hclean hlived htrue hknown hread
  | noHistory hfault => exact absurd hfault (not_readFault hquery hclean hlived htrue hknown hnet)
  | refused hwrites => rcases hwrites with ⟨_, h⟩ | ⟨_, _, _, h⟩ <;> cases h
  | other hreads => rcases hreads with ⟨_, h⟩ | ⟨_, _, h⟩ | h <;> cases h

/-- **The history of a registered product is complete.**  On a ledger that only these clients write to and that answers
queries from its state, an operation that reads the history of a product that is registered when it begins, and whose
network check passes, has the complete history at its end; and it can always be brought to such an end. -/
theorem history_of_registered (hown : ¬ L.foreign) (hquery : ¬ L.failing)
    (h₁ : Steps (ledger L) clients (.start .empty) w₁) (hp : (valueOf? p.text w₁.around.store.products).isSome)
    (hid : w₁.tasks id = none) (h₂ : Steps (ledger L) clients w₁ w₂) (hτ : w₂.tasks id = some τ)
    (hop : τ.operation = .getHistory p)
    (hnet : ∀ active, Told τ.told (.own .activeNetwork) active → active = (clients τ.member).endpoint.network) :
    (∀ r, τ.rest = .done r → CompleteHistory (clients τ.member) p τ.told r) ∧
      ∃ w₃ τ₃ r, Steps (ledger L) clients w₂ w₃ ∧ w₃.tasks id = some τ₃ ∧ τ₃.rest = .done r ∧
        CompleteHistory (clients τ.member) p τ₃.told r := by
  refine ⟨fun r hdone => completeHistory_of_done hown hquery h₁ hp hid h₂ hτ hop hnet hdone, ?_⟩
  obtain ⟨w₃, τ₃, r, h₃, hτ₃, hdone, hlater, -, hnet₃⟩ := exists_done_unswitched (h₁.trans h₂) hτ hnet
  refine ⟨w₃, τ₃, r, h₃, hτ₃, hdone, ?_⟩
  rw [← hlater.member] at hnet₃ ⊢
  exact completeHistory_of_done hown hquery h₁ hp hid (h₂.trans h₃) hτ₃ (hlater.operation.trans hop) hnet₃ hdone

theorem map_ok_inj {xs ys : List Event} (h : xs.map (Except.ok (ε := InputError)) = ys.map .ok) : xs = ys :=
  (List.map_inj_right fun _ _ => Except.ok.inj).1 h

/-- **A history that was read while nothing was recorded** is the one that the ledger has. -/
theorem CompleteHistory.result {r : Result} (h : CompleteHistory c p d r) (hlived : Lived L now d)
    (hmoments : ∀ t ∈ d, Grown now t.moment) {record : ProductRecord} {events : List Event}
    (hrecord : now.store.Registered p record)
    (htrail : (now.store.trail p.text).map Event.parse = events.map .ok)
    (hordered : (record.registerEvent :: events).Pairwise fun a b => a.time ≤ b.time) :
    r = .ok (.history ⟨p, record.registerEvent :: events⟩) := by
  obtain ⟨m, record', events', sorted, hm, hrecord', htrail', hsorted, -, rfl⟩ := h
  obtain ⟨-, hnow⟩ := query_of_since (hlived _ hm)
  have hgrown : Grown now m := hmoments _ hm
  obtain rfl : record' = record := (hrecord'.mono hnow).unique hrecord
  obtain rfl : events' = events := by
    rw [Store.Extends.trail_eq hnow hgrown, htrail] at htrail'
    exact (map_ok_inj htrail').symm
  have hsame := hsorted.unique (History.sortedByTime_ofEvents p (record'.registerEvent :: events'))
  rw [hsame, History.events_ofEvents (p := p) hordered]

theorem unswitched_checking (c : Client) (m : Scene) : Unswitched c (checking c m) := by
  rintro active ⟨m', hm'⟩
  unfold checking at hm'
  split at hm'
  · cases List.mem_singleton.1 hm'
    rfl
  · cases hm'

/-- The general theorem at a run: a product is registered, two events of one time are appended, and then its history is
read by another client.  Both clients are bound to the active network. -/
theorem history_of_registered_once : ∃ (w₁ w₂ : World Scene) (τ : Task Scene) (r : Result),
    Steps (ledger inMemory) (fun _ => boundClient) (.start .empty) w₁ ∧ w₁.around.store.events = [] ∧
    Steps (ledger inMemory) (fun _ => boundClient) w₁ w₂ ∧ w₁.tasks 3 = none ∧ w₂.tasks 3 = some τ ∧
    τ.operation = .getHistory ⟨"P"⟩ ∧ τ.rest = .done r ∧ CompleteHistory boundClient ⟨"P"⟩ τ.told r ∧
    Told τ.told (.own .activeNetwork) .testnet ∧
    r = .ok (.history ⟨⟨"P"⟩, [⟨⟨"P"⟩, .register, 100, .empty⟩, checkpoint 100, transfer 100]⟩) := by
  obtain ⟨w₁, w₂, h₁, hp, hevents, hid₁, h₂, hrun, hid₂, hrecord, htrail⟩ := exists_trail fun _ => boundClient
  -- the other client's read finds its network active, and goes on to its end
  obtain ⟨y, hy⟩ := exists_getHistory_checked boundClient ⟨"P"⟩ ⟨w₂.around, w₂.known 1, []⟩
  have hbegun : Stands (w₂.begin (fun _ => boundClient) 3 1 (.getHistory ⟨"P"⟩)) 3 1 _ _ _ := stands_begin hrun
  obtain ⟨w₃, h₃, hstands, -⟩ := hbegun.goes (hy.before _)
  have hsteps₃ : Steps (ledger inMemory) (fun _ => boundClient) w₂ w₃ := .head (.begin 1 _ hid₂) h₃
  obtain ⟨w₄, τ, r, h₄, hτ, hdone, hlater, haround, hnet⟩ :=
    exists_done_unswitched (h₁.trans (h₂.trans hsteps₃)) hstands.task (unswitched_checking boundClient _)
  have hsteps := h₂.trans (hsteps₃.trans h₄)
  have hcomplete := (history_of_registered not_false not_false h₁ hp hid₁ hsteps hτ hlater.operation hnet).1 r hdone
  have hsame : w₄.around = w₂.around := haround.trans hstands.around
  refine ⟨w₁, w₄, τ, r, h₁, hevents, hsteps, hid₁, hτ, hlater.operation, hdone, hcomplete, ?_, ?_⟩
  · exact Told.mono hlater.told ⟨w₂.around, List.mem_cons_self⟩
  · refine hcomplete.result (lived_of_steps (h₁.trans hsteps) hτ) (fun t ht => ?_) (hsame ▸ hrecord) (hsame ▸ htrail)
      (by decide)
    rw [hsame]
    exact moments_of_steps develops hid₂ (hsteps₃.trans h₄) τ hτ t ht

end SupplyTrail.Interleaving
