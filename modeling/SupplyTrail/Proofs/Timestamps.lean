import SupplyTrail.Proofs.Interleaving.Memory
import SupplyTrail.Proofs.Interleaving.Truth
/-!
# Timestamps — how the times of one client's appends follow each other

An append submits the later of the clock and the latest time its client knows of the product.  After an append has
returned, its client knows its time, and whatever begins then reads no older time.  Only an operation that was already
under way can make the client forget: it remembers what it has read before.
-/
namespace SupplyTrail.Rehearsal.Store

variable {s t : Store} {p : ProductId} {time : UInt64}

/-- The product is registered, and an event of this time is recorded for it. -/
structure Holds (s : Store) (p : ProductId) (time : UInt64) : Prop where
  known : (valueOf? p.text s.products).isSome
  event : ∃ n ∈ s.listed p.text, ∃ v e, s.events[n]? = some v ∧ Event.parse v = .ok e ∧ e.time = time

theorem Extends.mem_listed (h : Extends s t) {id : String} {n : Nat} (hn : n ∈ s.listed id) : n ∈ t.listed id := by
  unfold listed at hn ⊢
  cases hids : valueOf? id s.eventIds with
  | none => rw [hids] at hn; cases hn
  | some ids =>
    rw [hids, Option.getD_some] at hn
    obtain ⟨more, hmore⟩ := h.eventIds id ids hids
    rw [hmore, Option.getD_some]
    exact List.mem_append_left _ hn

theorem Holds.mono (h : Extends s t) (hs : s.Holds p time) : t.Holds p time := by
  obtain ⟨hknown, n, hn, v, e, hv, hparse, htime⟩ := hs
  obtain ⟨record, hrecord⟩ := Option.isSome_iff_exists.1 hknown
  refine ⟨by rw [h.products _ _ hrecord]; rfl, n, h.mem_listed hn, v, e, h.event hv, hparse, htime⟩

open Client (appendArgs) in
theorem holds_of_append {c : ContractCall} {value : Json} {e : Event} {actor : String} {s' : Store}
    (hfunction : c.function = "add_tracking_event") (hargs : c.args.outline = (appendArgs e actor).outline)
    (hcheck : Event.check e = .ok e) (happly : s.apply c = (.ok value, s')) : s'.Holds e.product e.time := by
  obtain ⟨hknown, hstore⟩ := apply_append_ok hfunction (congrArg Prod.fst happly)
  rw [happly] at hstore
  obtain rfl : s' = s.withEvent c := hstore
  have hid : appending c = e.product.text := textArg_of_arg (Json.outline_eq_string (arg_outline hargs "product_id"))
  obtain ⟨m, -, hparse⟩ := parse_eventRecord_like hargs hcheck s.events.length
  refine ⟨hid ▸ hknown, s.events.length, ?_, _, _, List.getElem?_concat_length, hparse, rfl⟩
  rw [listed_withEvent, if_pos hid]
  exact List.mem_append_right _ (List.mem_singleton.2 rfl)

end SupplyTrail.Rehearsal.Store

namespace SupplyTrail.Interleaving

open Client Activity
open Rehearsal (Result Store)

variable {L : Regime} {clients : Nat → Client} {w w' w₀ w₁ w₂ : World Scene} {id : Nat} {τ : Task Scene} {s now : Scene}
  {d d' : Dialogue Scene} {c : Client} {op : Operation} {p : ProductId} {time bound : UInt64} {i : Invocation}
  {e : Envelope}

/-! ## What an operation finds that began later -/

/-- The dialogue of an operation that began in this state of the ledger or later, and was told of no time of the product
before the bound. -/
structure Fresh (L : Regime) (s now : Scene) (p : ProductId) (bound : UInt64) (d : Dialogue Scene) : Prop where
  lived : Lived L now d
  heard : ∀ t r, Heard d t r → Reads L now.store t.event r
  after : ∀ t ∈ d, Grown s t.moment
  seen : ∀ t, Told d (.own (.lastSeen p)) (some t) → bound ≤ t

theorem Fresh.mono (h : d' <:+ d) (hd : Fresh L s now p bound d) : Fresh L s now p bound d' where
  lived t ht := hd.lived t (h.subset ht)
  heard t r hr := hd.heard t r (hr.mono h)
  after t ht := hd.after t (h.subset ht)
  seen t ht := hd.seen t (ht.mono h)

theorem Fresh.le_lastTime (hd : Fresh L s now p bound d) (hs : s.store.Holds p bound) {h : History}
    (hread : HistoryRead c p d h) : bound ≤ h.lastTime := by
  obtain ⟨⟨record, ids, events, -, hids, hevents, rfl⟩, -⟩ := hread
  obtain ⟨m, hm, htrail, -, -⟩ := parse_trail_of_read hd.lived hd.heard hids hevents
  obtain ⟨-, n, hn, v, e, hv, hparse, rfl⟩ := hs.mono (hd.after _ hm)
  obtain ⟨e', he', hparse'⟩ := m.tidy.mem_of_trail htrail hn hv
  rw [hparse] at hparse'
  cases hparse'
  exact History.le_lastTime (List.mem_cons_of_mem _ he')

theorem Fresh.le_seenAt (hd : Fresh L s now p bound d) (hs : s.store.Holds p bound) {actor : Account} {last : UInt64}
    (h : SeenAt c p actor last d) : bound ≤ last := by
  cases h with
  | cached hnet => exact hd.seen last (told_head _ _ _ _)
  | read hnet hlast hread =>
    rw [← hlast]
    exact (hd.mono (List.suffix_cons _ _)).le_lastTime hs hread

/-- An operation that was confirmed since then was an append: the product was registered before. -/
theorem Fresh.le_confirmed (hd : Fresh L s now p bound d) (hs : s.store.Holds p bound)
    (h : Confirmed c op p time i d) : bound ≤ time := by
  obtain ⟨drafted, d', t, call, value, s', hdraft, hd', ht, hfunction, hargs, happly, -⟩ :=
    applied_of_confirmed hd.lived h
  cases hdraft with
  | @register details owner time n k d'' hnet hcheck hevent =>
    obtain ⟨hnew, -⟩ := Store.apply_register_ok hfunction (congrArg Prod.fst happly)
    have hknown := (hs.mono (hd.after t ht)).known
    rw [← Store.registering_of_drafted hargs, hnew] at hknown
    cases hknown
  | @append p kind metadata actor clock last m d'' hkind hevent hseen =>
    have hlast := (hd.mono ((List.suffix_cons _ _).trans hd')).le_seenAt hs hseen
    exact UInt64.le_trans hlast (time_le_max_right clock last)

theorem Fresh.le_remember (hd : Fresh L s now p bound d) (hs : s.store.Holds p bound)
    (h : Warrant c op d (.own (.remember p time))) : bound ≤ time := by
  cases h with
  | health h => cases h
  | read hop h =>
    cases h with
    | remember hread => exact hd.le_lastTime hs hread
  | write h =>
    cases h with
    | @remember p time i line m d h => exact (hd.mono (List.suffix_cons _ _)).le_confirmed hs h

/-! ## What the client knows -/

/-- An operation of the client that had begun before this world has since then remembered a time of the product before
the bound. -/
def Late (w₁ w : World Scene) (member : Nat) (p : ProductId) (bound : UInt64) : Prop :=
  ∃ (id : Nat) (τ₁ τ : Task Scene) (later : Dialogue Scene) (time : UInt64) (m : Scene), w₁.tasks id = some τ₁ ∧
    τ₁.member = member ∧ w.tasks id = some τ ∧ τ.told = later ++ τ₁.told ∧
    (⟨.own (.remember p time), (), m⟩ : Turn Scene) ∈ later ∧ time < bound

variable {member : Nat}

theorem Late.step (h : Late w₁ w member p bound) (hs : Step (ledger L) clients w w') : Late w₁ w' member p bound := by
  obtain ⟨id, τ₁, τ, later, time, m, hτ₁, hmember, hτ, htold, hmem, htime⟩ := h
  obtain ⟨τ', hτ', hlater⟩ := later_of_step hs hτ
  obtain ⟨more, hmore⟩ := hlater.told
  refine ⟨id, τ₁, τ', more ++ later, time, m, hτ₁, hmember, hτ', ?_, List.mem_append_right _ hmem, htime⟩
  rw [← hmore, htold, List.append_assoc]

/-- The invariant after an append has returned: the client knows no older time of the product, and has told none to an
operation that began since. -/
structure Remembered (w₁ w : World Scene) (member : Nat) (p : ProductId) (bound : UInt64) : Prop where
  known : ∃ t, w.known member p = some t ∧ bound ≤ t
  seen : ∀ id τ, w₁.tasks id = none → w.tasks id = some τ → τ.member = member →
    ∀ t, Told τ.told (.own (.lastSeen p)) (some t) → bound ≤ t

theorem fresh_of_steps {s₀ : Scene} (h₁ : Steps (ledger L) clients (.start s₀) w₁) (h : Steps (ledger L) clients w₁ w)
    (hkept : Remembered w₁ w member p bound) (hid : w₁.tasks id = none) (hτ : w.tasks id = some τ)
    (hmember : τ.member = member) : Fresh L w₁.around w.around p bound τ.told where
  lived := lived_of_steps (h₁.trans h) hτ
  heard := (allTruthful_of_steps (h₁.trans h) id τ hτ).heard
  after := moments_of_steps develops hid h τ hτ
  seen := hkept.seen id τ hid hτ hmember

theorem Remembered.known_step {s₀ : Scene} (h₁ : Steps (ledger L) clients (.start s₀) w₁)
    (hholds : w₁.around.store.Holds p bound) (h : Steps (ledger L) clients w₁ w)
    (hkept : Remembered w₁ w member p bound) (hs : Step (ledger L) clients w w') (hlate : ¬ Late w₁ w' member p bound) :
    ∃ t, w'.known member p = some t ∧ bound ≤ t := by
  rcases known_of_step hs member p with hsame | ⟨id, τ, time, next, v, hτ, rfl, hrest, rfl, ht⟩
  · rw [hsame]
    exact hkept.known
  · refine ⟨time, ht, ?_⟩
    cases hτ₁ : w₁.tasks id with
    | none =>
      have hfresh := fresh_of_steps h₁ h hkept hτ₁ hτ rfl
      exact hfresh.le_remember hholds ((allConducted_of_steps (h₁.trans h) id τ hτ).warrant hrest)
    | some τ₁ =>
      -- the operation had begun before, so an older time would make it late
      obtain ⟨τ', hτ', hlater⟩ := later_of_steps h hτ₁
      rw [hτ] at hτ'
      cases hτ'
      obtain ⟨more, hmore⟩ := hlater.told
      rw [← UInt64.not_lt]
      intro htime
      exact hlate ⟨id, τ₁, _, ⟨.own (.remember p time), (), w.around⟩ :: more, time, w.around, hτ₁,
        hlater.member.symm, Function.update_self _ _ _, congrArg (_ :: ·) hmore.symm, List.mem_cons_self, htime⟩

theorem Remembered.step {s₀ : Scene} (h₁ : Steps (ledger L) clients (.start s₀) w₁)
    (hholds : w₁.around.store.Holds p bound) (h : Steps (ledger L) clients w₁ w)
    (hkept : Remembered w₁ w member p bound) (hs : Step (ledger L) clients w w') (hlate : ¬ Late w₁ w' member p bound) :
    Remembered w₁ w' member p bound := by
  refine ⟨hkept.known_step h₁ hholds h hs hlate, fun i τ' hfresh hτ' hmember t ht => ?_⟩
  cases hs with
  | begin k op hid =>
    rcases update_cases hτ' with ⟨-, rfl⟩ | ⟨-, hτ'⟩
    · obtain ⟨m, hm⟩ := ht
      cases hm
    · exact hkept.seen i τ' hfresh hτ' hmember t ht
  | @answer id τ q next a v hτ hrest hturn ha =>
    rcases update_cases hτ' with ⟨rfl, rfl⟩ | ⟨-, hτ'⟩
    · obtain ⟨m, hm⟩ := ht
      rcases List.mem_cons.1 hm with hm | hm
      · cases hm
        obtain ⟨t', ht', hle⟩ := hkept.known
        have hasked : some t = w.known τ.member p := ha.1
        have hmember' : τ.member = member := hmember
        rw [hmember', ht'] at hasked
        cases hasked
        exact hle
      · exact hkept.seen i τ hfresh hτ hmember t ⟨m, hm⟩
    · exact hkept.seen i τ' hfresh hτ' hmember t ht
  | @serve id τ e r s hτ he hr =>
    rcases update_cases hτ' with ⟨rfl, rfl⟩ | ⟨-, hτ'⟩
    · exact hkept.seen i τ hfresh hτ hmember t ht
    · exact hkept.seen i τ' hfresh hτ' hmember t ht
  | other hturn hs => exact hkept.seen i τ' hfresh hτ' hmember t ht

/-- **What the client remembers is no older**, and neither is what it tells, unless an operation is late. -/
theorem remembered_of_steps {s₀ : Scene} (h₁ : Steps (ledger L) clients (.start s₀) w₁)
    (hholds : w₁.around.store.Holds p bound) (hknown : w₁.known member p = some bound)
    (h : Steps (ledger L) clients w₁ w)
    (hlate : ¬ Late w₁ w member p bound) : Remembered w₁ w member p bound := by
  induction h with
  | refl =>
    refine ⟨⟨bound, hknown, UInt64.le_refl bound⟩, fun id τ hfresh hτ => ?_⟩
    rw [hfresh] at hτ
    cases hτ
  | tail h hs ih => exact (ih fun hl => hlate (hl.step hs)).step h₁ hholds h hs hlate

/-! ## Appends -/

variable {kind kind' : EventKind} {metadata metadata' : Metadata}

theorem holds_of_confirmed (hlived : Lived L now d) (h : Confirmed c (.append p kind metadata) p time i d) :
    now.store.Holds p time := by
  obtain ⟨drafted, d', t, call, value, s', hdraft, -, -, hfunction, hargs, happly, hext⟩ :=
    applied_of_confirmed hlived h
  cases hdraft with
  | append hkind hevent hseen => exact (Store.holds_of_append hfunction hargs hevent happly).mono hext

/-- **When an append returns, its event is recorded and its client knows the event's time.** -/
theorem holds_of_returned {s₀ : Scene} {a : Nat} {τ₀ τ₁ : Task Scene} {event : Event}
    (h₀ : Steps (ledger L) clients (.start s₀) w₀) (hstep : Step (ledger L) clients w₀ w₁)
    (hτ₀ : w₀.tasks a = some τ₀) (hunfinished : ∀ r, τ₀.rest ≠ .done r) (hτ₁ : w₁.tasks a = some τ₁)
    (hop : τ₁.operation = .append p kind metadata) (hdone : τ₁.rest = .done (.ok (.event event))) :
    w₁.around.store.Holds p event.time ∧ w₁.known τ₁.member p = some event.time := by
  have hupshot := (allConducted_of_steps (h₀.tail hstep) a τ₁ hτ₁).upshot hdone
  have hlived := lived_of_steps (h₀.tail hstep) hτ₁
  obtain ⟨q, answer, v, ha, htold, hmember, hknown⟩ := answered_of_finished hstep hτ₀ hunfinished hτ₁ hdone
  rw [hop, htold] at hupshot
  rw [htold] at hlived
  rw [hmember, hknown]
  generalize τ₀.told = d₀ at hupshot hlived
  cases hupshot with
  | appended h =>
    cases h with
    | @mk line m n d h =>
      refine ⟨holds_of_confirmed (fun t ht => hlived t ?_) h, ?_⟩
      · exact List.mem_cons_of_mem _ (List.mem_cons_of_mem _ ht)
      · cases ha
        exact Function.update_self _ _ _
  | other h => rcases h with ⟨_, h⟩ | ⟨_, _, h⟩ | h <;> cases h

/-- The latest time of the product that the client knows: it was told of it, or has read it from the history. -/
def LastKnown (c : Client) (p : ProductId) (d : Dialogue Scene) (last : UInt64) : Prop :=
  Told d (.own (.lastSeen p)) (some last) ∨
    Told d (.own (.lastSeen p)) none ∧ ∃ h, HistoryRead c p d h ∧ h.lastTime = last

theorem LastKnown.mono (h : d <:+ d') {last : UInt64} (hl : LastKnown c p d last) : LastKnown c p d' last := by
  rcases hl with htold | ⟨htold, t, hread, hlast⟩
  · exact .inl (htold.mono h)
  · exact .inr ⟨htold.mono h, t, hread.mono h, hlast⟩

theorem lastKnown_of_seenAt {actor : Account} {last : UInt64} (h : SeenAt c p actor last d) : LastKnown c p d last := by
  cases h with
  | cached hnet => exact .inl (told_head _ _ _ _)
  | @read m n k mid d h hnet hlast hread =>
    refine .inr ⟨⟨n, ?_⟩, h, hread.mono (List.suffix_cons _ _), hlast⟩
    exact List.mem_cons_of_mem _ (List.mem_append_right _ List.mem_cons_self)

/-- **The time that an append submits after another one has returned.**  It is the later of the clock and the latest
time that the client knows of the product, so it is before the time of the append that has returned exactly if both
are.  The client knows an older time only if an operation that had begun before the return has made it remember one
since. -/
theorem timestamp_after_return {s₀ : Scene} {a b : Nat} {τ₀ τ₁ : Task Scene} {event : Event} {url : String}
    {next : Except LedgerFailure Receipt → Run Result} (h₀ : Steps (ledger L) clients (.start s₀) w₀)
    (hstep : Step (ledger L) clients w₀ w₁) (hτ₀ : w₀.tasks a = some τ₀) (hunfinished : ∀ r, τ₀.rest ≠ .done r)
    (hτ₁ : w₁.tasks a = some τ₁) (hop : τ₁.operation = .append p kind metadata)
    (hdone : τ₁.rest = .done (.ok (.event event))) (hb : w₁.tasks b = none) (h : Steps (ledger L) clients w₁ w₂)
    (hτ : w₂.tasks b = some τ) (hmember : τ.member = τ₁.member) (hop' : τ.operation = .append p kind' metadata')
    (hrest : τ.rest = .ask (.away (.submit url e)) next) :
    ∃ i actor clock last, IsSignatureOf τ.told i e ∧
      i.call = (clients τ.member).call "add_tracking_event" (appendArgs ⟨p, kind', max clock last, metadata'⟩ actor) ∧
      Told τ.told (.own .clock) clock ∧ LastKnown (clients τ.member) p τ.told last ∧
      (max clock last < event.time ↔ clock < event.time ∧ last < event.time) ∧
      (last < event.time → Late w₁ w₂ τ₁.member p event.time) := by
  have h₁ := h₀.tail hstep
  obtain ⟨hholds, hknown⟩ := holds_of_returned h₀ hstep hτ₀ hunfinished hτ₁ hop hdone
  obtain ⟨p', time, i, hsigned⟩ := ((allConducted_of_steps (h₁.trans h) b τ hτ).warrant hrest).signed
  rw [hop'] at hsigned
  obtain ⟨d, hdraft, hd⟩ := hsigned.drafted
  refine ⟨i, ?_⟩
  have hsig := isSignatureOf_of_signed hsigned
  generalize i.call = call at hdraft
  cases hdraft with
  | @append _ _ _ actor clock last m d hkind hevent hseen =>
    refine ⟨actor.publicKey, clock, last, hsig, rfl, (told_head _ _ _ _).mono hd,
      (lastKnown_of_seenAt hseen).mono ((List.suffix_cons _ _).trans hd), max_time_lt_iff, fun hlast => ?_⟩
    by_contra hlate
    have hfresh := fresh_of_steps h₁ h (remembered_of_steps h₁ hholds hknown h hlate) hb hτ hmember
    have hle := (hfresh.mono ((List.suffix_cons _ _).trans hd)).le_seenAt hholds hseen
    exact absurd hlast (UInt64.not_lt.2 hle)

/-! ## A history read that comes to its end too late -/

def OfOne (w : World Scene) (member : Nat) : Prop := ∀ id τ, w.tasks id = some τ → τ.member = member

theorem OfOne.next (h : OfOne w member) (hτ : w'.tasks id = some τ) (hmember : τ.member = member)
    (hothers : ∀ i, i ≠ id → w'.tasks i = w.tasks i) : OfOne w' member := by
  intro i τ' hτ'
  by_cases hi : i = id
  · subst hi
    rw [hτ] at hτ'
    cases hτ'
    exact hmember
  · rw [hothers i hi] at hτ'
    exact h i τ' hτ'

/-- A run of one client: an append returns with time 200 while a history read that has listed the events before it is
under way, the history read makes the client remember time 100, and another append, begun when the clock says 150,
submits. -/
structure Overtaken (w₀ w₁ w₂ : World Scene) (τ₀ τ₁ τ : Task Scene) (m : Scene) : Prop where
  before : Steps (ledger inMemory) (fun _ => looseClient) (.start .empty) w₀
  step : Step (ledger inMemory) (fun _ => looseClient) w₀ w₁
  pending : w₀.tasks 2 = some τ₀
  unfinished : ∀ r, τ₀.rest ≠ .done r
  returned : w₁.tasks 2 = some τ₁
  member : τ₁.member = 0
  operation : τ₁.operation = .append ⟨"P"⟩ .checkpoint .empty
  result : τ₁.rest = .done (.ok (.event (checkpoint (max 200 100))))
  fresh : w₁.tasks 3 = none
  after : Steps (ledger inMemory) (fun _ => looseClient) w₁ w₂
  sole : OfOne w₂ 0
  submits : w₂.tasks 3 = some τ
  stands : τ = ⟨0, .append ⟨"P"⟩ .checkpoint .empty,
    signing looseClient (appendCall looseClient (checkpoint (max 150 100)) "GA") "GA" m ++
      appendDraft looseClient ⟨"P"⟩ "GA" 150 100 m, [],
    .ask (.away (.submit looseClient.endpoint.rpcUrl
      (envelopeOf looseClient (appendCall looseClient (checkpoint (max 150 100)) "GA") "GA")))
      (afterAppend looseClient (checkpoint (max 150 100)))⟩

theorem exists_overtaken : ∃ w₀ w₁ w₂ τ₀ τ₁ τ m, Overtaken w₀ w₁ w₂ τ₀ τ₁ τ m := by
  obtain ⟨wp, hp, hrun, hvalue, hids, hevents, hknown, ⟨τp, hτp, hmember⟩, hnone⟩ := exists_product fun _ => looseClient
  have hsole : OfOne wp 0 := fun i τ hτ => by
    by_cases hi : i = 0
    · subst hi
      rw [hτp] at hτ
      cases hτ
      exact hmember
    · rw [hnone i hi] at hτ
      cases hτ
  -- the history read lists the events, and does not go on yet
  obtain ⟨wh, hh, hrunh, hstandsh, hothersh⟩ := exists_historyRead (p := ⟨"P"⟩) (fun _ => looseClient) 1 0 hvalue
    (decode_productRecord rfl) hids hrun (hnone 1 (by decide))
  have hsoleh := hsole.next hstandsh.task rfl hothersh
  have hknownh : wh.known 0 ⟨"P"⟩ = some 100 := (congrFun hstandsh.known _).trans hknown
  -- an append with time 200 returns
  obtain ⟨ws, hs, hruns, hstandss, hotherss⟩ := exists_submitting (p := ⟨"P"⟩) (fun _ => looseClient) 2 0 "GA" 200
    (by decide) check_checkpoint faithful_empty hknownh hrunh ((hothersh 2 (by decide)).trans (hnone 2 (by decide)))
  have hsoles := hsoleh.next hstandss.task rfl hotherss
  have hthere : (valueOf? "P" wh.around.store.products).isSome := by
    rw [hstandsh.around, hvalue]
    rfl
  have hfits := fits_first (hstandsh.around ▸ hevents : wh.around.store.events = [])
    (appendCall looseClient (checkpoint (max 200 100)) "GA")
  obtain ⟨w₀, w₁, τ₀, τ₁, h₀, hstep, hrun₁, hτ₀, hunfinished, hτ₁, hmember₁, hop₁, hdone₁, hknown₁, -, hothers₁⟩ :=
    exists_returned (v := ⟨wh.around, wh.known 0, []⟩) (fun _ => looseClient) (checkpoint (max 200 100)) faithful_empty
      hthere hfits hstandss
  have hsole₁ := hsoles.next hτ₁ hmember₁ hothers₁
  have hfresh : w₁.tasks 3 = none := (hothers₁ 3 (by decide)).trans ((hotherss 3 (by decide)).trans
    ((hothersh 3 (by decide)).trans (hnone 3 (by decide))))
  -- the history read goes on, with what it had listed
  have hstands₁ : Stands w₁ 1 0 (.getHistory ⟨"P"⟩) _ (⟨w₁.around, w₁.known 0, []⟩, _) :=
    ⟨(hothers₁ 1 (by decide)).trans ((hotherss 1 (by decide)).trans hstandsh.task), rfl, rfl, .inl hrun₁⟩
  obtain ⟨wl, hl, hrunl, hstandsl, hothersl⟩ := exists_remembered (fun _ => looseClient) hstands₁
  have hsolel := hsole₁.next hstandsl.task rfl hothersl
  have hknownl : wl.known 0 ⟨"P"⟩ = some 100 := by
    rw [hstandsl.known]
    rfl
  -- another append, while the clock says 150
  obtain ⟨w₂, h₂, -, hstands₂, hothers₂⟩ := exists_submitting (p := ⟨"P"⟩) (fun _ => looseClient) 3 0 "GA" 150
    (by decide) check_checkpoint faithful_empty hknownl hrunl ((hothersl 3 (by decide)).trans hfresh)
  have hsole₂ := hsolel.next hstands₂.task rfl hothers₂
  exact ⟨w₀, w₁, w₂, τ₀, τ₁, _, wl.around, {
    before := hp.trans (hh.trans (hs.trans h₀))
    step := hstep
    pending := hτ₀
    unfinished := hunfinished
    returned := hτ₁
    member := hmember₁
    operation := hop₁
    result := hdone₁
    fresh := hfresh
    after := .head hl h₂
    sole := hsole₂
    submits := hstands₂.task
    stands := rfl }⟩

/-- The general theorem at a run in which the history read comes late: the second append submits an older time, and the
history read is what made the client forget. -/
theorem timestamp_after_return_overtaken : ∃ (w₁ w₂ : World Scene) (τ : Task Scene) (e : Envelope) (i : Invocation)
    (time : UInt64), w₂.tasks 3 = some τ ∧ IsSignatureOf τ.told i e ∧
      i.call.args.member? "timestamp" = some (.word time) ∧ time < 200 ∧ Late w₁ w₂ 0 ⟨"P"⟩ 200 := by
  obtain ⟨w₀, w₁, w₂, τ₀, τ₁, τ, m, h⟩ := exists_overtaken
  obtain ⟨i, actor, clock, last, hsig, hcall, ⟨mc, hclock⟩, hlast, hiff, hlate⟩ :=
    timestamp_after_return h.before h.step
    h.pending h.unfinished h.returned h.operation h.result h.fresh h.after h.submits (by rw [h.stands, h.member])
    (by rw [h.stands]) (by rw [h.stands])
  rw [h.stands] at hclock hlast
  obtain rfl : clock = 150 := clock_of_appendDraft hclock
  obtain rfl : last = 100 := by
    rcases hlast with ⟨m', hm'⟩ | ⟨⟨m', hm'⟩, -⟩
    · exact Option.some.inj (lastSeen_of_appendDraft hm')
    · cases lastSeen_of_appendDraft hm'
  have hlater := hlate (by decide)
  rw [h.member] at hlater
  exact ⟨w₁, w₂, τ, _, i, max 150 100, h.submits, hsig, by rw [hcall]; rfl, by decide, hlater⟩

/-- **An append begun after another one has returned can submit an older time**, on a ledger that records what is
submitted and with one client only. -/
theorem not_all_timestamps_ordered : ¬ ∀ (clients : Nat → Client) (k : Nat) (w₁ w₂ : World Scene) (a b : Nat)
    (τ₁ τ : Task Scene) (p : ProductId) (kind kind' : EventKind) (metadata metadata' : Metadata) (event : Event)
    (url : String) (e : Envelope) (next : Except LedgerFailure Receipt → Run Result) (i : Invocation) (time : UInt64),
    Steps (ledger inMemory) clients (.start .empty) w₁ → w₁.tasks a = some τ₁ → τ₁.operation = .append p kind metadata →
    τ₁.rest = .done (.ok (.event event)) → w₁.tasks b = none → Steps (ledger inMemory) clients w₁ w₂ → OfOne w₂ k →
    w₂.tasks b = some τ → τ.operation = .append p kind' metadata' → τ.rest = .ask (.away (.submit url e)) next →
    IsSignatureOf τ.told i e → i.call.args.member? "timestamp" = some (.word time) → event.time ≤ time := by
  intro hall
  obtain ⟨w₀, w₁, w₂, τ₀, τ₁, τ, m, h⟩ := exists_overtaken
  have hle := hall _ 0 w₁ w₂ 2 3 τ₁ τ _ _ _ _ _ _ _ _ _
    (invocationOf looseClient (appendCall looseClient (checkpoint (max 150 100)) "GA") "GA") (max 150 100)
    (h.before.tail h.step) h.returned h.operation h.result h.fresh h.after h.sole h.submits (by rw [h.stands])
    (by rw [h.stands]) (by rw [h.stands]; exact ⟨_, _, _, _, rfl⟩) rfl
  exact absurd hle (by decide)

end SupplyTrail.Interleaving
