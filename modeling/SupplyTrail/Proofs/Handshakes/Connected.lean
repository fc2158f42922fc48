import Mathlib.Data.List.TakeWhile
import SupplyTrail.Proofs.Handshakes
/-!
# Connected — whose answer the connection shows

The history turns when a call to connect starts an attempt and when a call to disconnect closes the connection.  An
attempt that was started at the latest turn stands; nothing stands after a disconnect.  Any number of superseded
handshakes may answer late, but an answer lands only if it is the standing attempt's, so a connected account is always
the answer to the handshake of the latest attempt, and no disconnect has come since.
-/
namespace SupplyTrail.Handshakes

/-- What has happened since the latest turn, the latest first. -/
def sinceTurn (history : List Occurrence) : List Occurrence := history.takeWhile fun o => !o.turns

/-- The attempt that was started at the latest turn. -/
def standing? (history : List Occurrence) : Option Nat :=
  match history.dropWhile fun o => !o.turns with
  | .started n :: _ => some n
  | _ => none

variable {history os : List Occurrence} {n : Nat}

theorem sinceTurn_append (hos : ∀ o ∈ os, o.turns = false) : sinceTurn (os ++ history) = os ++ sinceTurn history :=
  List.takeWhile_append_of_pos fun o ho => by simp [hos o ho]

theorem standing?_append (hos : ∀ o ∈ os, o.turns = false) : standing? (os ++ history) = standing? history := by
  rw [standing?, List.dropWhile_append_of_pos fun o ho => by simp [hos o ho]]
  rfl

theorem history_of_standing (h : standing? history = some n) :
    ∃ earlier, history = sinceTurn history ++ .started n :: earlier := by
  unfold standing? at h
  split at h
  · rename_i k earlier hdrop
    cases h
    exact ⟨earlier, by rw [← hdrop]; exact List.takeWhile_append_dropWhile.symm⟩
  · cases h

theorem turns_of_mem_sinceTurn {o : Occurrence} (h : o ∈ sinceTurn history) : o.turns = false := by
  have := List.mem_takeWhile_imp h
  simpa using this

/-! ## The standing attempt -/

/-- The connection shows the standing attempt: it is closed if there is none, an answer to it that is yet to be acted on
has come since it was started, and so has the account that is connected. -/
structure Stands (c : Connection) (ps : Multiset Pending) (history : List Occurrence) : Prop where
  standing : standing? history = if c.status = .disconnected then none else some c.attempt
  heard : ∀ outcome, .heard (.answer c.attempt outcome) ∈ ps → .answered c.attempt outcome ∈ sinceTurn history
  connected : ∀ a, c.phase = .connected a →
    Text.isBlank a.publicKey = false ∧ .answered c.attempt (.ok a) ∈ sinceTurn history

variable {c : Connection} {m m' : Manager} {requests : List WalletRequest} {p p' : Pending}
  {ps ps' left : Multiset Pending}

/-- What does not turn the history keeps the standing attempt, when answers that come are recorded. -/
theorem Stands.keep (os : List Occurrence) (h : Stands c ps history) (hos : ∀ o ∈ os, o.turns = false)
    (hheard : ∀ outcome, .heard (.answer c.attempt outcome) ∈ ps' →
      .heard (.answer c.attempt outcome) ∈ ps ∨ .answered c.attempt outcome ∈ os) : Stands c ps' (os ++ history) where
  standing := by rw [standing?_append hos, h.standing]
  heard outcome hp := by
    rw [sinceTurn_append hos, List.mem_append]
    exact (hheard outcome hp).symm.imp id (h.heard outcome)
  connected a ha := by
    rw [sinceTurn_append hos, List.mem_append]
    exact ⟨(h.connected a ha).1, .inr (h.connected a ha).2⟩

theorem Stands.awaited (h : Stands c ps history) (hawaited : c.awaits n = true) : standing? history = some n := by
  rw [h.standing, if_neg, attempt_of_awaits hawaited]
  rw [Connection.status, phase_of_awaits hawaited]
  simp [Phase.status]

theorem Stands.standing_of_connected {a : Account} (h : Stands c ps history) (ha : c.phase = .connected a) :
    standing? history = some c.attempt := by
  rw [h.standing, if_neg]
  rw [Connection.status, ha]
  simp [Phase.status]

/-- The answer that gave the connected account is in the history, and nothing that turns the history came after it. -/
theorem Stands.history_of_connected {a : Account} (h : Stands c ps history) (ha : c.phase = .connected a) :
    ∃ later earlier, history = later ++ .answered c.attempt (.ok a) :: earlier ∧
      ∀ o ∈ history, o.turns = true → o ∈ earlier := by
  obtain ⟨start, hstart⟩ := history_of_standing (h.standing_of_connected ha)
  obtain ⟨later, since, hsince⟩ := List.append_of_mem (h.connected a ha).2
  refine ⟨later, since ++ .started c.attempt :: start, ?_, fun o ho hturns => ?_⟩
  · rw [← List.cons_append, ← List.append_assoc, ← hsince]
    exact hstart
  · rw [hstart] at ho
    rcases List.mem_append.1 ho with ho | ho
    · rw [turns_of_mem_sinceTurn ho] at hturns
      cases hturns
    · exact List.mem_append_right _ ho

theorem Stands.call {s : Selector} {move : Move} (hsound : Sound m ps) (h : Stands m.connection ps history)
    (hcall : Call s move) (he : Effect m move m' requests) :
    Stands m'.connection (dues requests + ps) (occurrences m move ++ history) := by
  have hnew : ∀ outcome, .heard (.answer (m.connection.attempt + 1) outcome) ∉ ps := fun outcome hp =>
    absurd (hsound.bounded _ hp _ rfl) (Nat.not_succ_le_self _)
  cases hcall with
  | connect =>
    cases he with
    | start hidle =>
      rw [dues_singleton, occurrences, if_pos hidle]
      refine ⟨rfl, fun outcome hp => ?_, fun a ha => by cases ha⟩
      rcases Multiset.mem_cons.1 hp with hp | hp
      · cases hp
      · exact absurd hp (hnew outcome)
    | ignore hbusy =>
      rw [dues_nil, occurrences, if_neg (by simp [hbusy])]
      exact h
  | disconnect =>
    have hclosed : ∀ rs, (∀ outcome, .heard (.answer (m.connection.attempt + 1) outcome) ∉ dues rs + ps) →
        Stands m.connection.close (dues rs + ps) (.closed m.connection :: history) := fun rs hrs =>
      ⟨rfl, fun outcome hp => absurd hp (hrs outcome), fun a ha => by cases ha⟩
    cases he with
    | hangUp ha =>
      refine hclosed _ fun outcome hp => ?_
      rcases Multiset.mem_cons.1 hp with hp | hp
      · cases hp
      · exact hnew outcome hp
    | close hstatus => exact hclosed _ fun outcome hp => hnew outcome (by simpa using hp)
  | leave n =>
    cases he with
    | leave n => rwa [dues_nil]

theorem Stands.act {report : Report} (h : Stands m.connection (.heard report ::ₘ left) history)
    (he : Effect m report.move m' requests) :
    Stands m'.connection (dues requests + left) (occurrences m report.move ++ history) := by
  have hrest : Stands m.connection left history :=
    h.keep [] (fun o ho => by cases ho) fun outcome hp => .inl (Multiset.mem_cons_of_mem hp)
  cases report with
  | answer n outcome =>
    cases he with
    | land hawaited =>
      have hn := attempt_of_awaits hawaited
      rw [dues_nil]
      have hheard : ∀ outcome', .heard (.answer n outcome') ∈ left → .answered n outcome' ∈ sinceTurn history :=
        fun outcome' hp => hn ▸ hrest.heard outcome' (hn.symm ▸ hp)
      cases hopens : opens outcome with
      | true =>
        obtain ⟨a, rfl, hblank, hphase⟩ := phaseOf_of_opens hopens
        rw [hphase]
        refine ⟨h.awaited hawaited, hheard, fun b hb => ?_⟩
        cases hb
        exact ⟨hblank, hn ▸ h.heard (.ok a) (hn.symm ▸ Multiset.mem_cons_self _ _)⟩
      | false =>
        obtain ⟨message, hphase⟩ := phaseOf_of_not_opens hopens
        rw [hphase]
        exact ⟨h.awaited hawaited, hheard, fun b hb => by cases hb⟩
    | giveBack hstale hopens =>
      refine hrest.keep [] (fun o ho => by cases ho) fun outcome' hp => .inl ?_
      rcases Multiset.mem_cons.1 hp with hp | hp
      · cases hp
      · exact hp
    | drop hstale hopens => rwa [dues_nil]
  | broke n =>
    cases he with
    | fail hrun hwatched hawaited =>
      have hn := attempt_of_awaits hawaited
      rw [dues_nil]
      refine ⟨h.awaited hawaited, fun outcome' hp => ?_, fun a ha => by cases ha⟩
      exact hn ▸ hrest.heard outcome' (hn.symm ▸ hp)
    | vanish hrun hlost => rwa [dues_nil]
  | released n =>
    cases he with
    | released n => rwa [dues_nil]

theorem Stands.advance (h : Stands c (p ::ₘ left) history) (hp : Advance p p' os) :
    Stands c (p' ::ₘ left) (os ++ history) := by
  refine h.keep os (fun o ho => ?_) fun outcome hmem => ?_
  · cases hp <;> simp only [List.mem_singleton, List.not_mem_nil] at ho <;> cases ho <;> rfl
  · rcases Multiset.mem_cons.1 hmem with rfl | hmem
    · cases hp
      exact .inr List.mem_cons_self
    · exact .inl (Multiset.mem_cons_of_mem hmem)

theorem kept_stands : Kept fun m ps history => Stands m.connection ps history where
  start := ⟨rfl, fun outcome hp => absurd hp (Multiset.notMem_zero _), fun a ha => by cases ha⟩
  call := Stands.call
  act _ h he := h.act he
  advance _ h hp := h.advance hp
  disconnected h := h.keep [] (fun o ho => by cases ho) fun outcome hp => .inl (Multiset.mem_cons_of_mem hp)
  sign h := h.keep [_] (fun o ho => by cases List.mem_singleton.1 ho; rfl) fun outcome hp => .inl hp

/-! ## One answer to each attempt -/

/-- The attempt for which this is a request for an account that has no answer yet. -/
def unanswered? : Pending → Option Nat
  | .due (.connect n _) | .asked (.connect n _) => some n
  | .due (.release _) | .due .disconnect | .asked (.release _) | .asked .disconnect | .heard _ => none

theorem attempt_of_unanswered (h : unanswered? p = some n) : p.attempt? = some n := by
  cases p with
  | due r => cases r <;> first | exact h | cases h
  | asked r => cases r <;> first | exact h | cases h
  | heard report => cases h

/-- No attempt has two answers, and what is not answered has none. -/
structure AnsweredOnce (c : Connection) (ps : Multiset Pending) (history : List Occurrence) : Prop where
  unheard : ∀ p ∈ ps, ∀ n, unanswered? p = some n → ∀ outcome, .answered n outcome ∉ history
  bounded : ∀ n outcome, .answered n outcome ∈ history → n ≤ c.attempt
  unique : ∀ n outcome outcome', .answered n outcome ∈ history → .answered n outcome' ∈ history → outcome = outcome'

/-- Where nothing is answered and nothing new is asked, no attempt gets another answer. -/
theorem AnsweredOnce.keep (os : List Occurrence) (h : AnsweredOnce c ps history)
    (hos : ∀ n outcome, .answered n outcome ∉ os)
    (hps : ∀ p' ∈ ps', ∀ n, unanswered? p' = some n → ∃ p ∈ ps, unanswered? p = some n) :
    AnsweredOnce c ps' (os ++ history) := by
  have hold : ∀ {n outcome}, .answered n outcome ∈ os ++ history → .answered n outcome ∈ history :=
    fun h => (List.mem_append.1 h).resolve_left (hos _ _)
  refine ⟨fun p' hp' n hn outcome ha => ?_, fun n outcome ha => ?_, fun n o o' ha ha' => ?_⟩
  · obtain ⟨p, hp, hpn⟩ := hps p' hp' n hn
    exact h.unheard p hp n hpn outcome (hold ha)
  · exact h.bounded n outcome (hold ha)
  · exact h.unique n o o' (hold ha) (hold ha')

theorem AnsweredOnce.moved {move : Move} (h : AnsweredOnce m.connection ps history) (he : Effect m move m' requests) :
    AnsweredOnce m'.connection (dues requests + ps) (occurrences m move ++ history) := by
  have hold : ∀ n outcome, .answered n outcome ∈ occurrences m move ++ history → .answered n outcome ∈ history :=
    fun n outcome ha => (List.mem_append.1 ha).resolve_left fun ha => by cases turns_of_mem_occurrences ha
  refine ⟨fun p hp n hn outcome ha => ?_, fun n outcome ha => ?_, fun n o o' ha ha' => ?_⟩
  · have ha := hold n outcome ha
    rcases Multiset.mem_add.1 hp with hp | hp
    · obtain ⟨r, hr, rfl⟩ := List.mem_map.1 (Multiset.mem_coe.1 hp)
      rcases he.request_cases hr with ⟨network, rfl⟩ | ⟨k, rfl⟩ | ⟨rfl, -⟩
      · -- a new attempt has a number that no answer has
        cases hn
        exact absurd (h.bounded _ outcome ha) (Nat.not_succ_le_self _)
      · cases hn
      · cases hn
    · exact h.unheard p hp n hn outcome ha
  · exact (h.bounded n outcome (hold n outcome ha)).trans he.attempt_le
  · exact h.unique n o o' (hold n o ha) (hold n o' ha')

theorem AnsweredOnce.tail (h : AnsweredOnce c (p ::ₘ left) history) : AnsweredOnce c left history :=
  h.keep [] (fun _ _ h => by cases h) fun q hq _ hn => ⟨q, Multiset.mem_cons_of_mem hq, hn⟩

theorem AnsweredOnce.advance (hsound : Sound m (p ::ₘ left)) (h : AnsweredOnce m.connection (p ::ₘ left) history)
    (hp : Advance p p' os) : AnsweredOnce m.connection (p' ::ₘ left) (os ++ history) := by
  have hkeep : (∀ n outcome, .answered n outcome ∉ os) → (∀ n, unanswered? p' = some n → unanswered? p = some n) →
      AnsweredOnce m.connection (p' ::ₘ left) (os ++ history) := fun hos hp' =>
    h.keep os hos fun q hq n hn => by
      rcases Multiset.mem_cons.1 hq with rfl | hq
      · exact ⟨p, Multiset.mem_cons_self _ _, hp' n hn⟩
      · exact ⟨q, Multiset.mem_cons_of_mem hq, hn⟩
  cases hp with
  | make r => exact hkeep (by simp) fun n hn => by cases r <;> exact hn
  | release n => exact hkeep (by simp) fun k hk => hk
  | breakOff hn => exact hkeep (by simp) fun k hk => by cases hk
  | answer n network outcome =>
    have hnone : ∀ o, .answered n o ∉ history := h.unheard _ (Multiset.mem_cons_self _ _) n rfl
    refine ⟨fun q hq k hk o ha => ?_, fun k o ha => ?_, fun k o o' ha ha' => ?_⟩
    · rcases Multiset.mem_cons.1 hq with rfl | hq
      · cases hk
      · rcases List.mem_cons.1 ha with ha | ha
        · cases ha
          exact absurd (attempt_of_unanswered hk) (hsound.attempt_ne rfl hq)
        · exact h.tail.unheard q hq k hk o ha
    · rcases List.mem_cons.1 ha with ha | ha
      · cases ha
        exact hsound.bounded _ (Multiset.mem_cons_self _ _) n rfl
      · exact h.bounded k o ha
    · rcases List.mem_cons.1 ha with ha | ha
      · cases ha
        rcases List.mem_cons.1 ha' with ha' | ha'
        · cases ha'; rfl
        · exact absurd ha' (hnone o')
      · rcases List.mem_cons.1 ha' with ha' | ha'
        · cases ha'; exact absurd ha (hnone o)
        · exact h.unique k o o' ha ha'

theorem kept_answeredOnce : Kept fun m ps history => AnsweredOnce m.connection ps history where
  start :=
    ⟨fun p hp => absurd hp (Multiset.notMem_zero _), fun n o ho => (by cases ho), fun n o o' ho => (by cases ho)⟩
  call _ h _ he := h.moved he
  act _ h he := h.tail.moved he
  advance hsound h hp := h.advance hsound hp
  disconnected h := h.tail
  sign h := h.keep [_] (by simp) fun p hp n hn => ⟨p, hp, hn⟩

/-! ## The connection -/

theorem phase_of_account? {c : Connection} {a : Account} (h : c.account? = some a) : c.phase = .connected a := by
  unfold Connection.account? at h
  split at h
  · rename_i b hphase
    cases h
    exact hphase
  · cases h

theorem isSome_account?_iff (c : Connection) : c.account?.isSome ↔ c.status = .connected := by
  obtain ⟨attempt, phase⟩ := c
  cases phase <;> simp [Connection.account?, Connection.status, Phase.status]

theorem isSome_error?_iff (c : Connection) : c.error?.isSome ↔ c.status = .error := by
  obtain ⟨attempt, phase⟩ := c
  cases phase <;> simp [Connection.error?, Connection.status, Phase.status]

variable {w : World} {s : Selector}

/-- **What the connection shows in every interleaving.**  There is an account exactly if it is connected and an error
text exactly if it has failed.  A connected account has a key that is more than white space and is the one answer of the
wallet to the handshake of the latest attempt, which has come since the attempt was started, and no call to disconnect
has. -/
theorem connection_of_steps (h : Steps (.start s) w) :
    (w.manager.connection.account?.isSome ↔ w.manager.connection.status = .connected) ∧
    (w.manager.connection.error?.isSome ↔ w.manager.connection.status = .error) ∧
    ∀ a, w.manager.connection.account? = some a → Text.trim a.publicKey ≠ "" ∧
      ∃ n later earlier, w.history = later ++ .started n :: earlier ∧ (∀ o ∈ later, o.turns = false) ∧
        .answered n (.ok a) ∈ later ∧ ∀ outcome, .answered n outcome ∈ w.history → outcome = .ok a := by
  refine ⟨isSome_account?_iff _, isSome_error?_iff _, fun a ha => ?_⟩
  have hphase := phase_of_account? ha
  have hstands := kept_stands.of_steps h
  obtain ⟨hblank, hanswered⟩ := hstands.connected a hphase
  obtain ⟨earlier, hhistory⟩ := history_of_standing (hstands.standing_of_connected hphase)
  have hmem : ∀ o ∈ sinceTurn w.history, o ∈ w.history := fun o ho => (List.takeWhile_sublist _).subset ho
  refine ⟨fun htrim => ?_, _, _, earlier, hhistory, fun o ho => turns_of_mem_sinceTurn ho, hanswered, fun o ho => ?_⟩
  · rw [(Text.isBlank_iff_trim_eq_empty _).2 htrim] at hblank
    cases hblank
  · exact (kept_answeredOnce.of_steps h).unique _ _ _ ho (hmem _ hanswered)

/-- The general theorem at a run in which the handshake of a superseded attempt has answered last. -/
theorem connection_of_steps_overlap : Steps (.start ⟨.testnet, 0⟩) Overlap.crossed ∧
    Overlap.crossed.manager.connection.account? = some ⟨"GB"⟩ ∧ Text.trim "GB" ≠ "" ∧
    ∃ n later earlier, Overlap.crossed.history = later ++ .started n :: earlier ∧ (∀ o ∈ later, o.turns = false) ∧
      .answered n (.ok ⟨"GB"⟩) ∈ later ∧
      ∀ outcome, .answered n outcome ∈ Overlap.crossed.history → outcome = .ok ⟨"GB"⟩ :=
  ⟨Overlap.steps_crossed, rfl, (connection_of_steps Overlap.steps_crossed).2.2 ⟨"GB"⟩ rfl⟩

end SupplyTrail.Handshakes
