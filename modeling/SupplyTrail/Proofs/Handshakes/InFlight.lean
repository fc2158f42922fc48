import SupplyTrail.Proofs.Handshakes
/-!
# InFlight — requests for an account that are with the wallet

A call to connect starts a handshake only from an idle connection, but a call to disconnect makes the connection idle
while the handshake of the attempt that it interrupts goes on.  So several handshakes can be in flight.  At most one of
them is of the attempt that the connection awaits; each other one was interrupted by a call to disconnect.
-/
namespace SupplyTrail.Handshakes

/-- A call to disconnect found the connection waiting for this attempt. -/
def Superseded (history : List Occurrence) (n : Nat) : Prop := .closed ⟨n, .connecting⟩ ∈ history

instance (history : List Occurrence) : DecidablePred (Superseded history) := fun n =>
  inferInstanceAs (Decidable (.closed ⟨n, .connecting⟩ ∈ history))

variable {history os : List Occurrence} {c : Connection} {m m' : Manager} {requests : List WalletRequest}
  {p p' : Pending} {ps left : Multiset Pending} {n k : Nat}

theorem Superseded.mono (os : List Occurrence) (h : Superseded history n) : Superseded (os ++ history) n :=
  List.mem_append_right os h

theorem awaits_unique (h : c.awaits n = true) (h' : c.awaits k = true) : k = n :=
  (attempt_of_awaits h').symm.trans (attempt_of_awaits h)

theorem awaits_of_idle (h : c.isIdle = true) (n : Nat) : c.awaits n = false := by
  obtain ⟨attempt, phase⟩ := c
  cases phase with
  | connecting => cases h
  | connected a => cases h
  | disconnected => simp [Connection.awaits, Connection.status, Phase.status]
  | failed message => simp [Connection.awaits, Connection.status, Phase.status]

/-- A handshake that asks for an account is awaited or superseded, and one that releases its session is superseded. -/
structure Pursued (c : Connection) (ps : Multiset Pending) (history : List Occurrence) : Prop where
  closed_lt : ∀ found, .closed found ∈ history → found.attempt < c.attempt
  asking : ∀ p ∈ ps, ∀ n, p.attempt? = some n → p.stage? = some .asking → c.awaits n = true ∨ Superseded history n
  releasing : ∀ p ∈ ps, ∀ n, p.attempt? = some n → p.stage? = some .releasing → Superseded history n

theorem Pursued.not_superseded (h : Pursued c ps history) (hawaited : c.awaits n = true) : ¬ Superseded history n :=
  fun hn => absurd (h.closed_lt _ hn) (by rw [attempt_of_awaits hawaited]; exact Nat.lt_irrefl n)

theorem Pursued.tail (h : Pursued c (p ::ₘ left) history) : Pursued c left history where
  closed_lt := h.closed_lt
  asking q hq := h.asking q (Multiset.mem_cons_of_mem hq)
  releasing q hq := h.releasing q (Multiset.mem_cons_of_mem hq)

theorem Pursued.cons_none (h : Pursued c ps history) (hp : p.stage? = none) : Pursued c (p ::ₘ ps) history where
  closed_lt := h.closed_lt
  asking q hq n hn hs := by
    rcases Multiset.mem_cons.1 hq with rfl | hq
    · rw [hp] at hs; cases hs
    · exact h.asking q hq n hn hs
  releasing q hq n hn hs := by
    rcases Multiset.mem_cons.1 hq with rfl | hq
    · rw [hp] at hs; cases hs
    · exact h.releasing q hq n hn hs

theorem Pursued.begun (h : Pursued c ps history) (hidle : c.isIdle = true) (network : Network) :
    Pursued c.start (.due (.connect c.start.attempt network) ::ₘ ps) (.started c.start.attempt :: history) where
  closed_lt found hf := by
    rcases List.mem_cons.1 hf with hf | hf
    · cases hf
    · exact Nat.lt_succ_of_lt (h.closed_lt found hf)
  asking q hq n hn hs := by
    rcases Multiset.mem_cons.1 hq with rfl | hq
    · cases hn
      exact .inl (by simp [Connection.awaits, Connection.start, Connection.status, Phase.status])
    · refine .inr (Superseded.mono [_] ?_)
      exact (h.asking q hq n hn hs).resolve_left (by simp [awaits_of_idle hidle n])
  releasing q hq n hn hs := by
    rcases Multiset.mem_cons.1 hq with rfl | hq
    · cases hs
    · exact (h.releasing q hq n hn hs).mono [_]

theorem Pursued.closed (h : Pursued c ps history) : Pursued c.close ps (.closed c :: history) where
  closed_lt found hf := by
    rcases List.mem_cons.1 hf with hf | hf
    · cases hf
      exact Nat.lt_succ_self _
    · exact Nat.lt_succ_of_lt (h.closed_lt found hf)
  asking q hq n hn hs := by
    refine .inr ((h.asking q hq n hn hs).elim (fun hawaited => ?_) fun h => h.mono [_])
    rw [Superseded, ← attempt_of_awaits hawaited, ← phase_of_awaits hawaited]
    exact List.mem_cons_self
  releasing q hq n hn hs := (h.releasing q hq n hn hs).mono [_]

theorem Pursued.call {s : Selector} {move : Move} (h : Pursued m.connection ps history) (hcall : Call s move)
    (he : Effect m move m' requests) :
    Pursued m'.connection (dues requests + ps) (occurrences m move ++ history) := by
  cases hcall with
  | connect =>
    cases he with
    | start hidle =>
      rw [occurrences, if_pos hidle]
      exact h.begun hidle _
    | ignore hbusy =>
      rw [dues_nil, occurrences, if_neg (by simp [hbusy])]
      exact h
  | disconnect =>
    cases he with
    | hangUp ha => exact h.closed.cons_none rfl
    | close hstatus =>
      rw [dues_nil]
      exact h.closed
  | leave n =>
    cases he with
    | leave n => rwa [dues_nil]

/-- The outcome of the awaited attempt leaves no other attempt awaited than before. -/
theorem Pursued.settled {phase : Phase} (hsound : Sound m (p ::ₘ left)) (h : Pursued m.connection (p ::ₘ left) history)
    (hp : p.attempt? = some n) (hawaited : m.connection.awaits n = true) : Pursued ⟨n, phase⟩ left history where
  closed_lt found hf := attempt_of_awaits hawaited ▸ h.closed_lt found hf
  asking q hq k hk hs := by
    refine .inr ((h.tail.asking q hq k hk hs).resolve_left fun hk' => ?_)
    rw [awaits_unique hawaited hk'] at hk
    exact hsound.attempt_ne hp hq hk
  releasing q hq k hk hs := h.tail.releasing q hq k hk hs

theorem Pursued.act {report : Report} (hsound : Sound m (.heard report ::ₘ left))
    (h : Pursued m.connection (.heard report ::ₘ left) history) (he : Effect m report.move m' requests) :
    Pursued m'.connection (dues requests + left) (occurrences m report.move ++ history) := by
  rw [occurrences_report, List.nil_append]
  rcases he.report_cases with ⟨rfl, hawaited, phase, rfl⟩ | ⟨rfl, rfl⟩ | ⟨n, outcome, rfl, hstale, rfl, rfl⟩
  · rw [dues_nil]
    exact h.settled hsound rfl hawaited
  · rw [dues_nil]
    exact h.tail
  · have hn : Superseded history n :=
      (h.asking _ (Multiset.mem_cons_self _ _) n rfl rfl).resolve_left (by simp [hstale])
    refine ⟨h.closed_lt, fun q hq k hk hs => ?_, fun q hq k hk hs => ?_⟩
    · rcases Multiset.mem_cons.1 hq with rfl | hq
      · cases hs
      · exact h.tail.asking q hq k hk hs
    · rcases Multiset.mem_cons.1 hq with rfl | hq
      · cases hk
        exact hn
      · exact h.tail.releasing q hq k hk hs

theorem Pursued.note (os : List Occurrence) (h : Pursued c ps history) (hos : ∀ found, .closed found ∉ os) :
    Pursued c ps (os ++ history) where
  closed_lt found hf := h.closed_lt found ((List.mem_append.1 hf).resolve_left (hos found))
  asking q hq n hn hs := (h.asking q hq n hn hs).imp id (Superseded.mono os)
  releasing q hq n hn hs := (h.releasing q hq n hn hs).mono os

theorem Pursued.advance (h : Pursued c (p ::ₘ left) history) (hp : Advance p p' os) :
    Pursued c (p' ::ₘ left) (os ++ history) := by
  have hclosed : ∀ found, .closed found ∉ os := fun found => by cases hp <;> simp
  refine Pursued.note os ⟨h.closed_lt, fun q hq n hn hs => ?_, fun q hq n hn hs => ?_⟩ hclosed
  · rcases Multiset.mem_cons.1 hq with rfl | hq
    · exact h.asking p (Multiset.mem_cons_self _ _) n (hp.attempt_eq ▸ hn) (hp.stage_eq hs)
    · exact h.tail.asking q hq n hn hs
  · rcases Multiset.mem_cons.1 hq with rfl | hq
    · exact h.releasing p (Multiset.mem_cons_self _ _) n (hp.attempt_eq ▸ hn) (hp.stage_eq hs)
    · exact h.tail.releasing q hq n hn hs

theorem kept_pursued : Kept fun m ps history => Pursued m.connection ps history where
  start :=
    ⟨fun found hf => (by cases hf), fun p hp => absurd hp (Multiset.notMem_zero _),
      fun p hp => absurd hp (Multiset.notMem_zero _)⟩
  call _ h hcall he := h.call hcall he
  act hsound h he := h.act hsound he
  advance _ h hp := h.advance hp
  disconnected h := h.tail
  sign h := h.note [_] (by simp)

/-! ## Handshakes in flight -/

/-- A request for an account that the wallet has not answered. -/
def Pending.isOut : Pending → Bool
  | .asked (.connect _ _) => true
  | _ => false

/-- The attempts whose request for an account is with the wallet. -/
def World.inFlight (w : World) : Multiset Nat := (w.pending.filter fun p => p.isOut).filterMap Pending.attempt?

variable {w : World} {s : Selector}

theorem nodup_inFlight (h : Sound w.manager w.pending) : w.inFlight.Nodup :=
  Multiset.nodup_of_le (Multiset.filterMap_le_filterMap _ (Multiset.filter_le _ _)) h.apart

theorem awaits_or_superseded (h : Pursued w.manager.connection w.pending w.history) (hn : n ∈ w.inFlight) :
    w.manager.connection.awaits n = true ∨ Superseded w.history n := by
  obtain ⟨p, hp, hpn⟩ := (Multiset.mem_filterMap Pending.attempt? _).1 hn
  obtain ⟨hp, hout⟩ := Multiset.mem_filter.1 hp
  refine h.asking p hp n hpn ?_
  unfold Pending.isOut at hout
  split at hout
  · rfl
  · cases hout

/-- **How many handshakes are in flight.**  They are of different attempts.  One of them is of the awaited attempt
exactly if no call to disconnect has superseded it, so at most one is in flight beside the superseded ones.  At most one
is in flight altogether exactly if a superseded one is never in flight beside another. -/
theorem inFlight_of_steps (h : Steps (.start s) w) :
    w.inFlight.Nodup ∧
    (∀ n ∈ w.inFlight, w.manager.connection.awaits n = true ↔ ¬ Superseded w.history n) ∧
    w.inFlight.card ≤ w.inFlight.countP (Superseded w.history) + 1 ∧
    (w.inFlight.card ≤ 1 ↔ ∀ n ∈ w.inFlight, Superseded w.history n → w.inFlight = {n}) := by
  have hnodup := nodup_inFlight (sound_of_steps h)
  have hpursued := kept_pursued.of_steps h
  have hiff : ∀ n ∈ w.inFlight, w.manager.connection.awaits n = true ↔ ¬ Superseded w.history n := fun n hn =>
    ⟨hpursued.not_superseded, (awaits_or_superseded hpursued hn).resolve_right⟩
  have hcard : w.inFlight.card ≤ w.inFlight.countP (Superseded w.history) + 1 := by
    have hawaited : (w.inFlight.filter fun n => ¬ Superseded w.history n) ⊆ {w.manager.connection.attempt} := by
      intro n hn
      obtain ⟨hn, hnot⟩ := Multiset.mem_filter.1 hn
      exact Multiset.mem_singleton.2 (attempt_of_awaits ((hiff n hn).2 hnot)).symm
    have hone := Multiset.card_le_card ((Multiset.le_iff_subset (hnodup.filter _)).2 hawaited)
    rw [← Multiset.countP_eq_card_filter, Multiset.card_singleton] at hone
    rw [Multiset.card_eq_countP_add_countP (Superseded w.history)]
    exact Nat.add_le_add_left hone _
  refine ⟨hnodup, hiff, hcard, fun hone n hn _ => ?_, fun hall => ?_⟩
  · exact (Multiset.eq_of_le_of_card_le (Multiset.singleton_le.2 hn) (by simpa using hone)).symm
  · by_cases hsuperseded : ∃ n ∈ w.inFlight, Superseded w.history n
    · obtain ⟨n, hn, hs⟩ := hsuperseded
      rw [hall n hn hs, Multiset.card_singleton]
    · have hnone : w.inFlight.countP (Superseded w.history) = 0 :=
        Multiset.countP_eq_zero.2 fun n hn hs => hsuperseded ⟨n, hn, hs⟩
      rwa [hnone] at hcard

/-- The general theorem at a run in which a second attempt starts while the first is still in flight. -/
theorem inFlight_of_steps_overlap : Steps (.start ⟨.testnet, 0⟩) Overlap.asking ∧
    Overlap.asking.inFlight = {3, 1} ∧ Superseded Overlap.asking.history 1 ∧
    Overlap.asking.inFlight.card ≤ Overlap.asking.inFlight.countP (Superseded Overlap.asking.history) + 1 :=
  ⟨Overlap.steps_asking, rfl, by decide, (inFlight_of_steps Overlap.steps_asking).2.2.1⟩

/-- **Two handshakes can be in flight.** -/
theorem not_all_inFlight_le_one : ¬ ∀ (s : Selector) (w : World), Steps (.start s) w → w.inFlight.card ≤ 1 :=
  fun hall => absurd (hall _ _ Overlap.steps_asking) (by decide)

end SupplyTrail.Handshakes
