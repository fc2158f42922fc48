import SupplyTrail.Proofs.Handshakes.Sessions
/-!
# Landing — what becomes of an attempt

The wallet answers an attempt or fails instead.  An answer lands by itself: the handshake records it, whether or not the
caller still waits.  That a handshake broke off is recorded by its caller alone.  If the caller has stopped waiting,
nobody records it, and the connection goes on waiting for an attempt that has no handshake any more.
-/
namespace SupplyTrail.Handshakes

/-- The wallet's part in the handshake of an attempt ends: it answers, or it fails instead. -/
def Occurrence.concludes (n : Nat) : Occurrence → Bool
  | .answered k _ | .broke k => k == n
  | .started _ | .closed _ | .made _ | .signing _ _ _ => false

/-- How the wallet's part in an attempt has ended so far, the latest first. -/
def conclusions (n : Nat) (history : List Occurrence) : List Occurrence := history.filter fun o => o.concludes n

/-- Nothing of an attempt is pending. -/
def Gone (ps : Multiset Pending) (n : Nat) : Prop := ∀ p ∈ ps, p.attempt? ≠ some n

variable {history os : List Occurrence} {c : Connection} {m m' : Manager} {requests : List WalletRequest}
  {p p' : Pending} {ps ps' left : Multiset Pending} {n k : Nat} {l : List Occurrence}

theorem conclusions_append (n : Nat) (os history : List Occurrence) :
    conclusions n (os ++ history) = conclusions n os ++ conclusions n history := List.filter_append ..

theorem conclusions_of_turns (n : Nat) (h : ∀ o ∈ os, o.turns = true) : conclusions n os = [] := by
  rw [conclusions, List.filter_eq_nil_iff]
  intro o ho
  have hturns := h o ho
  cases o with
  | started k => exact Bool.false_ne_true
  | closed found => exact Bool.false_ne_true
  | made r => cases hturns
  | answered k outcome => cases hturns
  | broke k => cases hturns
  | signing a network payload => cases hturns

theorem conclusions_moved (n : Nat) (m : Manager) (move : Move) (history : List Occurrence) :
    conclusions n (occurrences m move ++ history) = conclusions n history := by
  rw [conclusions_append, conclusions_of_turns n fun o ho => turns_of_mem_occurrences ho, List.nil_append]

theorem Advance.conclusions_eq (hp : Advance p p' os) (hn : p.attempt? ≠ some n) : conclusions n os = [] := by
  have hother : ∀ k, p.attempt? = some k → ¬ (k == n) = true := fun k hk h => by
    rw [beq_iff_eq] at h
    exact hn (h ▸ hk)
  cases hp with
  | make r => rfl
  | answer k network outcome => exact List.filter_eq_nil_iff.2 (by simpa [Occurrence.concludes] using hother k rfl)
  | release k => rfl
  | breakOff hk => exact List.filter_eq_nil_iff.2 (by simpa [Occurrence.concludes] using hother _ hk)

theorem answered_mem_conclusions {outcome : Except WalletError Account} :
    .answered n outcome ∈ conclusions n history ↔ .answered n outcome ∈ history := by
  simp [conclusions, Occurrence.concludes]

theorem broke_mem_conclusions : .broke n ∈ conclusions n history ↔ .broke n ∈ history := by
  simp [conclusions, Occurrence.concludes]

/-! ## Where the current attempt stands -/

/-- Where the current attempt stands: what the connection shows, what is pending of the attempt, and how the wallet's
part in it has ended. -/
inductive Station (c : Connection) (ps : Multiset Pending) : List Occurrence → Prop
  /-- A call to disconnect came last. -/
  | closed (hphase : c.phase = .disconnected) (hgone : Gone ps c.attempt) : Station c ps []
  /-- The wallet is asked, or about to be. -/
  | asking {p : Pending} (hphase : c.phase = .connecting) (hp : p ∈ ps) (hasks : unanswered? p = some c.attempt) :
      Station c ps []
  | answered {outcome : Except WalletError Account} (hphase : c.phase = .connecting)
      (hp : .heard (.answer c.attempt outcome) ∈ ps) : Station c ps [.answered c.attempt outcome]
  | landed {outcome : Except WalletError Account} (hphase : c.phase = Connection.phaseOf outcome)
      (hgone : Gone ps c.attempt) : Station c ps [.answered c.attempt outcome]
  | broken (hphase : c.phase = .connecting) (hp : .heard (.broke c.attempt) ∈ ps) : Station c ps [.broke c.attempt]
  /-- The caller has recorded that the handshake broke off. -/
  | recorded (hphase : c.phase = Manager.brokenOff) (hgone : Gone ps c.attempt) : Station c ps [.broke c.attempt]
  /-- The handshake broke off and nobody has recorded it. -/
  | lost (hphase : c.phase = .connecting) (hgone : Gone ps c.attempt) : Station c ps [.broke c.attempt]

theorem phaseOf_ne_connecting (outcome : Except WalletError Account) : Connection.phaseOf outcome ≠ .connecting := by
  cases hopens : opens outcome with
  | true =>
    obtain ⟨a, -, -, hphase⟩ := phaseOf_of_opens hopens
    simp [hphase]
  | false =>
    obtain ⟨message, hphase⟩ := phaseOf_of_not_opens hopens
    simp [hphase]

theorem status_eq_connecting_iff (c : Connection) : c.status = .connecting ↔ c.phase = .connecting := by
  obtain ⟨attempt, phase⟩ := c
  cases phase <;> simp [Connection.status, Phase.status]

theorem awaits_of_phase (h : c.phase = .connecting) : c.awaits c.attempt = true := by
  simp [Connection.awaits, Connection.status, Phase.status, h]

/-- Where the attempt stands depends on what is pending of it, and on nothing else that is pending. -/
theorem Station.congr (h : Station c ps l) (hps : ∀ p, p.attempt? = some c.attempt → (p ∈ ps' ↔ p ∈ ps)) :
    Station c ps' l := by
  have hgone : Gone ps c.attempt → Gone ps' c.attempt := fun hg p hp hn => hg p ((hps p hn).1 hp) hn
  cases h with
  | closed hphase hg => exact .closed hphase (hgone hg)
  | asking hphase hp hasks => exact .asking hphase ((hps _ (attempt_of_unanswered hasks)).2 hp) hasks
  | answered hphase hp => exact .answered hphase ((hps _ rfl).2 hp)
  | landed hphase hg => exact .landed hphase (hgone hg)
  | broken hphase hp => exact .broken hphase ((hps _ rfl).2 hp)
  | recorded hphase hg => exact .recorded hphase (hgone hg)
  | lost hphase hg => exact .lost hphase (hgone hg)

/-- What is pending of other attempts comes and goes. -/
theorem Station.swap (new : Multiset Pending) (h : Station c (p ::ₘ left) l) (hp : p.attempt? ≠ some c.attempt)
    (hnew : ∀ q ∈ new, q.attempt? ≠ some c.attempt) : Station c (new + left) l := by
  refine h.congr fun q hq => ?_
  rw [Multiset.mem_add, Multiset.mem_cons]
  constructor
  · rintro (hmem | hmem)
    · exact absurd hq (hnew q hmem)
    · exact .inr hmem
  · rintro (rfl | hmem)
    · exact absurd hq hp
    · exact .inr hmem

/-- What is pending of an attempt that has a handshake, and how the wallet's part in it has ended. -/
inductive Underway (n : Nat) (l : List Occurrence) : Pending → Prop
  | due {network : Network} (hl : l = []) : Underway n l (.due (.connect n network))
  | asked {network : Network} (hl : l = []) : Underway n l (.asked (.connect n network))
  | answered {outcome : Except WalletError Account} (hl : l = [.answered n outcome]) :
      Underway n l (.heard (.answer n outcome))
  | broken (hl : l = [.broke n]) : Underway n l (.heard (.broke n))

theorem underway_of_unanswered (h : unanswered? p = some n) : Underway n [] p := by
  cases p with
  | due r =>
    cases r with
    | connect k network => cases h; exact .due rfl
    | release k => cases h
    | disconnect => cases h
  | asked r =>
    cases r with
    | connect k network => cases h; exact .asked rfl
    | release k => cases h
    | disconnect => cases h
  | heard report => cases h

/-- **What is pending of the current attempt tells where it stands**, and the connection waits for it. -/
theorem Station.of_head (h : Station m.connection (p ::ₘ left) l) (hsound : Sound m (p ::ₘ left))
    (hp : p.attempt? = some m.connection.attempt) :
    m.connection.phase = .connecting ∧ Underway m.connection.attempt l p := by
  have hhead : p ∈ p ::ₘ left := Multiset.mem_cons_self _ _
  -- a handshake has one thing pending, so whatever is pending of the attempt is the head
  have hone : ∀ q ∈ p ::ₘ left, q.attempt? = some m.connection.attempt → q = p := fun q hq hn =>
    (Multiset.mem_cons.1 hq).resolve_right fun hleft => hsound.attempt_ne hp hleft hn
  cases h with
  | closed hphase hgone => exact absurd hp (hgone p hhead)
  | asking hphase hq hasks =>
    exact ⟨hphase, hone _ hq (attempt_of_unanswered hasks) ▸ underway_of_unanswered hasks⟩
  | answered hphase hq => exact ⟨hphase, hone _ hq rfl ▸ .answered rfl⟩
  | landed hphase hgone => exact absurd hp (hgone p hhead)
  | broken hphase hq => exact ⟨hphase, hone _ hq rfl ▸ .broken rfl⟩
  | recorded hphase hgone => exact absurd hp (hgone p hhead)
  | lost hphase hgone => exact absurd hp (hgone p hhead)

theorem Station.releases_other (h : Station m.connection (.heard (.released n) ::ₘ left) l)
    (hsound : Sound m (.heard (.released n) ::ₘ left)) : n ≠ m.connection.attempt := by
  rintro rfl
  cases (h.of_head hsound rfl).2

/-- The current attempt stands somewhere, and no later one has been concluded. -/
structure Placed (m : Manager) (ps : Multiset Pending) (history : List Occurrence) : Prop where
  station : Station m.connection ps (conclusions m.connection.attempt history)
  fresh : ∀ n, m.connection.attempt < n → conclusions n history = []

theorem Placed.call {s : Selector} {move : Move} (hsound : Sound m ps) (h : Placed m ps history)
    (hcall : Call s move) (he : Effect m move m' requests) :
    Placed m' (dues requests + ps) (occurrences m move ++ history) := by
  have hnone : conclusions (m.connection.attempt + 1) (occurrences m move ++ history) = [] := by
    rw [conclusions_moved]
    exact h.fresh _ (Nat.lt_succ_self _)
  have hfresh : ∀ n, m.connection.attempt + 1 < n → conclusions n (occurrences m move ++ history) = [] := fun n hn => by
    rw [conclusions_moved]
    exact h.fresh n (Nat.lt_of_succ_lt hn)
  have hgone : Gone ps (m.connection.attempt + 1) := fun p hp hn =>
    absurd (hsound.bounded p hp _ hn) (Nat.not_succ_le_self _)
  have hsame : Placed m ps (occurrences m move ++ history) :=
    ⟨by rw [conclusions_moved]; exact h.station, fun n hn => by rw [conclusions_moved]; exact h.fresh n hn⟩
  cases hcall with
  | connect =>
    cases he with
    | start hidle =>
      refine ⟨?_, hfresh⟩
      rw [show m.connection.start.attempt = m.connection.attempt + 1 from rfl, hnone]
      exact .asking rfl (Multiset.mem_cons_self _ _) rfl
    | ignore hbusy => rwa [dues_nil]
  | disconnect =>
    have hclosed : ∀ rs, Gone (dues rs + ps) (m.connection.attempt + 1) →
        Placed { m with connection := m.connection.close } (dues rs + ps)
          (occurrences m .disconnect ++ history) := fun rs hrs => by
      refine ⟨?_, hfresh⟩
      rw [show m.connection.close.attempt = m.connection.attempt + 1 from rfl, hnone]
      exact .closed rfl hrs
    cases he with
    | hangUp ha =>
      refine hclosed _ fun p hp => ?_
      rcases Multiset.mem_cons.1 hp with rfl | hp
      · exact fun h => by cases h
      · exact hgone p hp
    | close hstatus => exact hclosed _ (by rwa [dues_nil])
  | leave n =>
    cases he with
    | leave n =>
      rw [dues_nil]
      exact ⟨hsame.station, hsame.fresh⟩

theorem Placed.act {report : Report} (hsound : Sound m (.heard report ::ₘ left))
    (h : Placed m (.heard report ::ₘ left) history) (he : Effect m report.move m' requests) :
    Placed m' (dues requests + left) (occurrences m report.move ++ history) := by
  rw [occurrences_report, List.nil_append]
  have hgone : Gone left report.attempt := fun q hq => hsound.attempt_ne rfl hq
  have hother : report.attempt ≠ m.connection.attempt → ∀ new : Multiset Pending,
      (∀ q ∈ new, q.attempt? ≠ some m.connection.attempt) →
        Station m.connection (new + left) (conclusions m.connection.attempt history) :=
    fun hne new hnew => h.station.swap new (fun hn => hne (Option.some.inj hn)) hnew
  have hnone : ∀ q ∈ (0 : Multiset Pending), q.attempt? ≠ some m.connection.attempt := fun q hq =>
    absurd hq (Multiset.notMem_zero q)
  -- a report of the current attempt is awaited, so a stale one is of another
  have hcurrent : report.attempt = m.connection.attempt → m.connection.awaits report.attempt = true := fun heq =>
    heq ▸ awaits_of_phase (h.station.of_head hsound (congrArg some heq)).1
  have hstale : m.connection.awaits report.attempt = false → report.attempt ≠ m.connection.attempt := fun hno heq => by
    rw [hcurrent heq] at hno
    cases hno
  cases report with
  | answer n outcome =>
    cases he with
    | land hawaited =>
      obtain rfl := attempt_of_awaits hawaited
      cases (h.station.of_head hsound rfl).2 with
      | answered hl =>
        refine ⟨?_, h.fresh⟩
        rw [dues_nil, hl]
        exact .landed rfl hgone
    | giveBack hno hopens =>
      refine ⟨hother (hstale hno) _ fun q hq => ?_, h.fresh⟩
      obtain rfl := Multiset.mem_singleton.1 hq
      exact fun hn => hstale hno (Option.some.inj hn)
    | drop hno hopens => exact ⟨hother (hstale hno) 0 hnone, h.fresh⟩
  | broke n =>
    cases he with
    | fail hrun hwatched hawaited =>
      obtain rfl := attempt_of_awaits hawaited
      cases (h.station.of_head hsound rfl).2 with
      | broken hl =>
        refine ⟨?_, h.fresh⟩
        rw [dues_nil, hl]
        exact .recorded rfl hgone
    | vanish hrun hlost =>
      by_cases hn : n = m.connection.attempt
      · subst hn
        obtain ⟨hphase, hwhere⟩ := h.station.of_head hsound rfl
        cases hwhere with
        | broken hl =>
          refine ⟨?_, h.fresh⟩
          rw [dues_nil, show (m.finish m.connection.attempt).connection = m.connection from rfl, hl]
          exact .lost hphase hgone
      · exact ⟨hother hn 0 hnone, h.fresh⟩
  | released n =>
    cases he with
    | released n => exact ⟨hother (h.station.releases_other hsound) 0 hnone, h.fresh⟩

theorem Placed.advance (hsound : Sound m (p ::ₘ left)) (h : Placed m (p ::ₘ left) history) (hp : Advance p p' os) :
    Placed m (p' ::ₘ left) (os ++ history) := by
  refine ⟨?_, fun n hn => ?_⟩
  · rw [conclusions_append]
    by_cases hn : p.attempt? = some m.connection.attempt
    · obtain ⟨hphase, hwhere⟩ := h.station.of_head hsound hn
      have hhead : p' ∈ p' ::ₘ left := Multiset.mem_cons_self _ _
      cases hwhere with
      | due hl =>
        rw [hl]
        cases hp with
        | make r => exact .asking hphase hhead rfl
      | asked hl =>
        rw [hl, List.append_nil]
        cases hp with
        | answer n network outcome =>
          rw [conclusions, List.filter_cons_of_pos (by simp [Occurrence.concludes])]
          exact .answered hphase hhead
        | breakOff hk =>
          cases hk
          rw [conclusions, List.filter_cons_of_pos (by simp [Occurrence.concludes])]
          exact .broken hphase hhead
      | answered hl => cases hp
      | broken hl => cases hp
    · rw [hp.conclusions_eq hn, List.nil_append]
      refine h.station.swap {p'} hn fun q hq => ?_
      obtain rfl := Multiset.mem_singleton.1 hq
      rwa [hp.attempt_eq]
  · have hne : p.attempt? ≠ some n := fun hpn =>
      absurd (hsound.bounded p (Multiset.mem_cons_self _ _) n hpn) (Nat.not_le_of_lt hn)
    rw [conclusions_append, hp.conclusions_eq hne, h.fresh n hn]
    rfl

/-- The wallet has given the answer to the current attempt that is yet to be acted on. -/
theorem Placed.answered {report : Report} {outcome : Except WalletError Account}
    (h : Placed m (.heard report ::ₘ left) history) (hsound : Sound m (.heard report ::ₘ left))
    (hreport : report.move = .answer n outcome) (hn : m.connection.attempt = n) : .answered n outcome ∈ history := by
  subst hn
  cases report with
  | answer k outcome' =>
    cases hreport
    cases (h.station.of_head hsound rfl).2 with
    | answered hl => exact answered_mem_conclusions.1 (hl ▸ List.mem_singleton_self _)
  | broke k => cases hreport
  | released k => cases hreport

theorem kept_placed : Kept Placed where
  start := ⟨.closed rfl fun p hp => absurd hp (Multiset.notMem_zero p), fun _ _ => rfl⟩
  call := Placed.call
  act := Placed.act
  advance := Placed.advance
  disconnected h := by
    refine ⟨?_, h.fresh⟩
    simpa using h.station.swap 0 (fun hn => by cases hn) fun q hq => absurd hq (Multiset.notMem_zero q)
  sign h := ⟨h.station, h.fresh⟩

/-! ## One handshake to each attempt -/

/-- The attempts whose handshakes have not ended. -/
def attempts (m : Manager) : List Nat := m.handshakes.map fun h => h.attempt

theorem attempts_finish (m : Manager) (n : Nat) : attempts (m.finish n) = (attempts m).filter fun k => k != n := by
  unfold attempts Manager.finish
  rw [List.filter_map]
  rfl

theorem attempts_update (m : Manager) (n : Nat) {f : Handshake → Handshake} (hf : ∀ x, (f x).attempt = x.attempt) :
    attempts (m.update n f) = attempts m := by
  unfold attempts Manager.update
  rw [List.map_map]
  refine List.map_congr_left fun x _ => ?_
  simp only [Function.comp_apply]
  split
  · exact hf x
  · rfl

/-- No attempt has two handshakes, and those of the current attempt are awaited. -/
structure Numbered (m : Manager) : Prop where
  nodup : (attempts m).Nodup
  older : ∀ n ∈ attempts m, m.connection.awaits n = true ∨ n < m.connection.attempt

theorem Numbered.le (h : Numbered m) (hn : n ∈ attempts m) : n ≤ m.connection.attempt := by
  rcases h.older n hn with hawaited | hlt
  · exact Nat.le_of_eq (attempt_of_awaits hawaited).symm
  · exact Nat.le_of_lt hlt

theorem Numbered.update {f : Handshake → Handshake} (h : Numbered m) (n : Nat) (hf : ∀ x, (f x).attempt = x.attempt) :
    Numbered (m.update n f) :=
  ⟨by rw [attempts_update m n hf]; exact h.nodup, by rw [attempts_update m n hf]; exact h.older⟩

theorem Numbered.finish (h : Numbered m) (n : Nat) : Numbered (m.finish n) := by
  refine ⟨?_, fun k hk => ?_⟩
  · rw [attempts_finish]
    exact h.nodup.filter _
  · rw [attempts_finish] at hk
    exact h.older k (List.mem_filter.1 hk).1

/-- The outcome of the awaited attempt leaves only handshakes of earlier ones. -/
theorem Numbered.settled {phase : Phase} (h : Numbered m) (hawaited : m.connection.awaits n = true) :
    Numbered { m.finish n with connection := ⟨n, phase⟩ } := by
  refine ⟨(h.finish n).nodup, fun k hk => .inr ?_⟩
  have hk : k ∈ attempts (m.finish n) := hk
  rw [attempts_finish, List.mem_filter] at hk
  obtain ⟨hk, hne⟩ := hk
  rcases h.older k hk with hawaited' | hlt
  · exact absurd (awaits_unique hawaited hawaited') (by simpa using hne)
  · exact attempt_of_awaits hawaited ▸ hlt

theorem Numbered.moved {move : Move} (h : Numbered m) (he : Effect m move m' requests) : Numbered m' := by
  have hclosed : Numbered { m with connection := m.connection.close } :=
    ⟨h.nodup, fun n hn => .inr (Nat.lt_succ_of_le (h.le hn))⟩
  cases he with
  | start hidle =>
    refine ⟨List.nodup_cons.2 ⟨fun hn => ?_, h.nodup⟩, fun n hn => ?_⟩
    · exact absurd (h.le hn) (Nat.not_succ_le_self _)
    · rcases List.mem_cons.1 hn with rfl | hn
      · exact .inl (awaits_of_phase rfl)
      · exact .inr (Nat.lt_succ_of_le (h.le hn))
  | ignore hbusy => exact h
  | hangUp ha => exact hclosed
  | close hstatus => exact hclosed
  | leave n => exact h.update n fun _ => rfl
  | land hawaited => exact h.settled hawaited
  | @giveBack n outcome hstale hopens => exact h.update n fun _ => rfl
  | @drop n outcome hstale hopens => exact h.finish n
  | fail hrun hwatched hawaited => exact h.settled hawaited
  | @vanish n x hrun hlost => exact h.finish n
  | released n => exact h.finish n

theorem kept_numbered : Kept fun m _ _ => Numbered m where
  start := ⟨List.nodup_nil, fun _ hn => by cases hn⟩
  call _ h _ he := h.moved he
  act _ h he := h.moved he
  advance _ h _ := h
  disconnected h := h
  sign h := h

theorem Numbered.eq (h : Numbered m) {x y : Handshake} (hx : x ∈ m.handshakes) (hy : y ∈ m.handshakes)
    (heq : x.attempt = y.attempt) : x = y := List.inj_on_of_nodup_map h.nodup hx hy heq

/-! ## Callers that stop waiting -/

variable {w w' : World} {s : Selector} {earlier : List World}

/-- A handshake goes on and its caller has stopped waiting. -/
def World.Unattended (w : World) (n : Nat) : Prop := ∃ h ∈ w.manager.handshakes, h.attempt = n ∧ h.watched = false

/-- A world that is reached, and those that were there before it, the latest first. -/
inductive Run (s : Selector) : World → List World → Prop
  | start : Run s (.start s) []
  | step {w w' : World} {earlier : List World} (h : Run s w earlier) (hs : Step w w') : Run s w' (w :: earlier)

theorem Run.steps (h : Run s w earlier) : Steps (.start s) w := by
  induction h with
  | start => exact .refl
  | step _ hs ih => exact ih.tail hs

theorem exists_run (h : Steps (.start s) w) : ∃ earlier, Run s w earlier := by
  induction h with
  | refl => exact ⟨[], .start⟩
  | tail _ hs ih =>
    obtain ⟨earlier, h⟩ := ih
    exact ⟨_, .step h hs⟩

/-- The caller of an attempt does not wait for it: if it is the current one, it is still awaited or was answered. -/
structure Forsaken (m : Manager) (history : List Occurrence) (n : Nat) : Prop where
  unwatched : ∀ x ∈ m.handshakes, x.attempt = n → x.watched = false
  started : n ≤ m.connection.attempt
  landed : m.connection.attempt = n → m.connection.awaits n = true ∨ ∃ outcome, .answered n outcome ∈ history

theorem forsaken_of_unattended (hnumbered : Numbered w.manager) (h : w.Unattended n) :
    Forsaken w.manager w.history n := by
  obtain ⟨x, hx, rfl, hwatched⟩ := h
  have hmem : x.attempt ∈ attempts w.manager := List.mem_map_of_mem hx
  refine ⟨fun y hy heq => hnumbered.eq hy hx heq ▸ hwatched, hnumbered.le hmem, fun hcurrent => .inl ?_⟩
  exact (hnumbered.older _ hmem).resolve_right fun hlt => by omega

/-- A change of handshakes that watches none anew keeps an attempt forsaken. -/
theorem Forsaken.keep (os : List Occurrence) (h : Forsaken m history n) (hc : m'.connection = m.connection)
    (hx : ∀ x' ∈ m'.handshakes, ∃ x ∈ m.handshakes, x'.attempt = x.attempt ∧ (x.watched = false → x'.watched = false)) :
    Forsaken m' (os ++ history) n where
  unwatched x' hx' hn := by
    obtain ⟨x, hmem, hattempt, hwatched⟩ := hx x' hx'
    exact hwatched (h.unwatched x hmem (hattempt ▸ hn))
  started := hc ▸ h.started
  landed hn := by
    rw [hc] at hn ⊢
    exact (h.landed hn).imp id fun ⟨outcome, ha⟩ => ⟨outcome, List.mem_append_right _ ha⟩

theorem Forsaken.finish (k : Nat) (os : List Occurrence) (h : Forsaken m history n) :
    Forsaken (m.finish k) (os ++ history) n :=
  h.keep os rfl fun x hx => ⟨x, (List.mem_filter.1 hx).1, rfl, id⟩

theorem Forsaken.update {f : Handshake → Handshake} (k : Nat) (os : List Occurrence) (h : Forsaken m history n)
    (hattempt : ∀ x, (f x).attempt = x.attempt) (hwatched : ∀ x, x.watched = false → (f x).watched = false) :
    Forsaken (m.update k f) (os ++ history) n := by
  refine h.keep os rfl fun x' hx' => ?_
  obtain ⟨x, hx, rfl⟩ := List.mem_map.1 hx'
  by_cases hk : x.attempt = k
  · rw [if_pos hk]
    exact ⟨x, hx, hattempt x, hwatched x⟩
  · rw [if_neg hk]
    exact ⟨x, hx, rfl, id⟩

/-- The outcome of another attempt, or an answer to it, keeps an attempt forsaken. -/
theorem Forsaken.settled {phase : Phase} (os : List Occurrence) (h : Forsaken m history n)
    (hawaited : m.connection.awaits k = true) (hk : k = n → ∃ outcome, .answered n outcome ∈ os ++ history) :
    Forsaken { m.finish k with connection := ⟨k, phase⟩ } (os ++ history) n where
  unwatched := (h.finish k os).unwatched
  started := attempt_of_awaits hawaited ▸ h.started
  landed hn := .inr (hk hn)

theorem Forsaken.moved {move : Move} (h : Forsaken m history n) (he : Effect m move m' requests)
    (hheard : ∀ outcome, move = .answer n outcome → m.connection.attempt = n → .answered n outcome ∈ history) :
    Forsaken m' (occurrences m move ++ history) n := by
  have hclosed : ∀ os, Forsaken { m with connection := m.connection.close } (os ++ history) n := fun os =>
    ⟨h.unwatched, Nat.le_succ_of_le h.started, fun hn => absurd (hn ▸ h.started) (Nat.not_succ_le_self _)⟩
  cases he with
  | start hidle =>
    refine ⟨fun x hx hn => ?_, Nat.le_succ_of_le h.started, fun hn => ?_⟩
    · rcases List.mem_cons.1 hx with rfl | hx
      · exact absurd (hn ▸ h.started) (Nat.not_succ_le_self _)
      · exact h.unwatched x hx hn
    · exact absurd (hn ▸ h.started) (Nat.not_succ_le_self _)
  | ignore hbusy => exact h.keep _ rfl fun x hx => ⟨x, hx, rfl, id⟩
  | hangUp ha => exact hclosed _
  | close hstatus => exact hclosed _
  | leave k => exact h.update k _ (fun _ => rfl) fun _ _ => rfl
  | @land k outcome hawaited =>
    refine h.settled _ hawaited fun hk => ?_
    subst hk
    exact ⟨outcome, List.mem_append_right _ (hheard outcome rfl (attempt_of_awaits hawaited))⟩
  | @giveBack k outcome hstale hopens => exact h.update k _ (fun _ => rfl) fun _ hx => hx
  | @drop k outcome hstale hopens => exact h.finish k _
  | @fail k x hrun hwatched hawaited =>
    refine h.settled _ hawaited fun hk => ?_
    -- the caller that records the failure would be the one that has stopped waiting
    have hx : x.attempt = k := by simpa using List.find?_some hrun
    rw [h.unwatched x (List.mem_of_find?_eq_some hrun) (hx.trans hk)] at hwatched
    cases hwatched
  | @vanish k x hrun hlost => exact h.finish k _
  | released k => exact h.finish k _

theorem Forsaken.step (h : Forsaken w.manager w.history n) (hsound : Sound w.manager w.pending)
    (hplaced : Placed w.manager w.pending w.history) (hs : Step w w') : Forsaken w'.manager w'.history n := by
  have hsame : ∀ os, Forsaken w.manager (os ++ w.history) n := fun os => h.keep os rfl fun x hx => ⟨x, hx, rfl, id⟩
  cases hs with
  | call hcall => exact h.moved (effect_call hcall) fun outcome hm => by cases hcall <;> cases hm
  | @act report left hw =>
    rw [hw] at hsound hplaced
    refine h.moved (effect_report (hsound.held _ (Multiset.mem_cons_self _ _))) fun outcome hm hn => ?_
    exact hplaced.answered hsound hm hn
  | advance left hw hp => exact hsame _
  | disconnected left hw => exact h
  | switch network => exact h
  | sign network payload ha => exact hsame [_]

/-- **An attempt whose caller has stopped waiting stays forsaken** in the further course of a run. -/
theorem Run.forsaken (h : Run s w earlier) (hleft : ∃ v ∈ w :: earlier, v.Unattended n) :
    Forsaken w.manager w.history n := by
  have hnow : ∀ {v earlier}, Run s v earlier → v.Unattended n → Forsaken v.manager v.history n := fun hv hun =>
    forsaken_of_unattended (kept_numbered.of_steps hv.steps) hun
  obtain ⟨v, hv, hun⟩ := hleft
  induction h with
  | start =>
    obtain rfl := List.mem_singleton.1 hv
    exact hnow .start hun
  | step h hs ih =>
    rcases List.mem_cons.1 hv with rfl | hv
    · exact hnow (h.step hs) hun
    · exact (ih hv).step (sound_of_steps h.steps) (kept_placed.of_steps h.steps) hs

/-- A call leaves an attempt awaited, or starts it. -/
theorem Effect.awaits_of_call {move : Move} (he : Effect m move m' requests) (hcall : Call s move)
    (hawaited : m'.connection.awaits n = true) (hgone : Gone (dues requests) n) : m.connection.awaits n = true := by
  cases hcall with
  | connect =>
    cases he with
    | start hidle => exact absurd (congrArg some (attempt_of_awaits hawaited)) (hgone _ (Multiset.mem_singleton_self _))
    | ignore hbusy => exact hawaited
  | disconnect =>
    have hclosed : m.connection.close.awaits n = false := by
      simp [Connection.awaits, Connection.close, Connection.status, Phase.status]
    cases he with
    | hangUp ha => rw [hclosed] at hawaited; cases hawaited
    | close hstatus => rw [hclosed] at hawaited; cases hawaited
  | leave k =>
    cases he with
    | leave k => exact hawaited

/-- A report that leaves an attempt awaited is of another one, or its handshake broke off and its caller has stopped
waiting. -/
theorem Effect.awaits_of_report {report : Report} (he : Effect m report.move m' requests)
    (hawaited : m'.connection.awaits n = true) : m.connection.awaits n = true ∧
      (report.attempt ≠ n ∨ (report = .broke n ∧ ∃ h, m.running? n = some h ∧ h.watched = false) ∨
        report = .released n) := by
  have hsettled : ∀ {k : Nat} {phase : Phase}, phase ≠ .connecting → ¬ (⟨k, phase⟩ : Connection).awaits n = true :=
    fun hphase h => hphase (phase_of_awaits h)
  cases report with
  | answer k outcome =>
    have hother : m.connection.awaits n = true → m.connection.awaits k = false → k ≠ n := fun hn hk h => by
      rw [h, hn] at hk
      cases hk
    cases he with
    | land hk => exact absurd hawaited (hsettled (phaseOf_ne_connecting outcome))
    | giveBack hstale hopens => exact ⟨hawaited, .inl (hother hawaited hstale)⟩
    | drop hstale hopens => exact ⟨hawaited, .inl (hother hawaited hstale)⟩
  | broke k =>
    cases he with
    | fail hrun hwatched hk => exact absurd hawaited (hsettled fun h => by cases h)
    | @vanish k h hrun hlost =>
      refine ⟨hawaited, ?_⟩
      by_cases hk : k = n
      · subst hk
        refine .inr (.inl ⟨rfl, h, hrun, hlost.resolve_right fun hno => ?_⟩)
        have hstill : m.connection.awaits k = true := hawaited
        rw [hno] at hstill
        cases hstill
      · exact .inl hk
  | released k =>
    cases he with
    | released k =>
      refine ⟨hawaited, ?_⟩
      by_cases hk : k = n
      · exact .inr (.inr (congrArg Report.released hk))
      · exact .inl hk

/-- An awaited attempt of which nothing is pending was so before, or its caller had stopped waiting. -/
theorem gone_of_step (hsound : Sound w.manager w.pending) (hplaced : Placed w.manager w.pending w.history)
    (hs : Step w w') (hawaited : w'.manager.connection.awaits n = true) (hgone : Gone w'.pending n) :
    w.Unattended n ∨ (w.manager.connection.awaits n = true ∧ Gone w.pending n) := by
  cases hs with
  | @call move hcall =>
    refine .inr ⟨?_, fun p hp => hgone p (Multiset.mem_add.2 (.inr hp))⟩
    exact (effect_call hcall).awaits_of_call hcall hawaited fun p hp => hgone p (Multiset.mem_add.2 (.inl hp))
  | @act report left hw =>
    rw [hw] at hsound hplaced
    have he := effect_report (hsound.held _ (Multiset.mem_cons_self _ _))
    rcases he.awaits_of_report hawaited with ⟨hbefore, hother | ⟨rfl, x, hrun, hwatched⟩ | rfl⟩
    · refine .inr ⟨hbefore, fun q hq => ?_⟩
      rw [hw] at hq
      rcases Multiset.mem_cons.1 hq with rfl | hq
      · exact fun hn => hother (Option.some.inj hn)
      · exact hgone q (Multiset.mem_add.2 (.inr hq))
    · exact .inl ⟨x, List.mem_of_find?_eq_some hrun, by simpa using List.find?_some hrun, hwatched⟩
    · exact absurd (attempt_of_awaits hbefore).symm (hplaced.station.releases_other hsound)
  | @advance p p' os left hw hp =>
    refine .inr ⟨hawaited, fun q hq => ?_⟩
    rw [hw] at hq
    rcases Multiset.mem_cons.1 hq with rfl | hq
    · exact hp.attempt_eq ▸ hgone p' (Multiset.mem_cons_self _ _)
    · exact hgone q (Multiset.mem_cons_of_mem hq)
  | disconnected left hw =>
    refine .inr ⟨hawaited, fun q hq => ?_⟩
    rw [hw] at hq
    rcases Multiset.mem_cons.1 hq with rfl | hq
    · exact fun h => by cases h
    · exact hgone q hq
  | switch network => exact .inr ⟨hawaited, hgone⟩
  | sign network payload ha => exact .inr ⟨hawaited, hgone⟩

/-- **If nothing of an awaited attempt is pending, its caller had stopped waiting** while its handshake went on. -/
theorem Run.unattended (h : Run s w earlier) (hawaited : w.manager.connection.awaits n = true)
    (hgone : Gone w.pending n) : ∃ v ∈ w :: earlier, v.Unattended n := by
  induction h with
  | start => exact absurd (phase_of_awaits hawaited) fun h => by cases h
  | @step w w' earlier h hs ih =>
    rcases gone_of_step (sound_of_steps h.steps) (kept_placed.of_steps h.steps) hs hawaited hgone with
      hun | ⟨hbefore, hgone'⟩
    · exact ⟨w, by simp, hun⟩
    · obtain ⟨v, hv, hun⟩ := ih hbefore hgone'
      exact ⟨v, List.mem_cons_of_mem _ hv, hun⟩

/-! ## Attempts whose handshake has ended -/

/-- The handshake of an attempt has ended: of the attempt nothing is pending, or only that it broke off. -/
def World.Ended (w : World) (n : Nat) : Prop := ∀ p ∈ w.pending, p.attempt? = some n → p = .heard (.broke n)

/-- A handshake that broke off and is not recorded although no task can go on has nobody who waits for it. -/
theorem unattended_of_quiet (hsound : Sound w.manager w.pending) (hquiet : w.Quiet)
    (hp : .heard (.broke n) ∈ w.pending) : w.Unattended n := by
  obtain ⟨x, hx, hattempt, -⟩ := hsound.held _ hp n rfl
  have hrunning : (w.manager.running? n).isSome := by
    rw [Manager.running?, List.find?_isSome]
    exact ⟨x, hx, by simp [hattempt]⟩
  obtain ⟨y, hy⟩ := Option.isSome_iff_exists.1 hrunning
  exact ⟨y, List.mem_of_find?_eq_some hy, by simpa using List.find?_some hy, hquiet _ hp y hy⟩

/-- What has become of the current attempt once its handshake has ended and no task can go on: there was none, its
answer has landed, its failure was recorded, or nobody waited for it any more when it failed. -/
theorem Run.concluded (h : Run s w earlier) (hquiet : w.Quiet) (hended : w.Ended w.manager.connection.attempt) :
    let n := w.manager.connection.attempt
    (w.manager.connection.phase = .disconnected ∧ conclusions n w.history = []) ∨
    (∃ outcome, w.manager.connection.phase = Connection.phaseOf outcome ∧
      conclusions n w.history = [.answered n outcome]) ∨
    (w.manager.connection.phase = Manager.brokenOff ∧ conclusions n w.history = [.broke n]) ∨
    (w.manager.connection.phase = .connecting ∧ conclusions n w.history = [.broke n] ∧
      ∃ v ∈ w :: earlier, v.Unattended n) := by
  intro n
  have hstation := (kept_placed.of_steps h.steps).station
  generalize hl : conclusions w.manager.connection.attempt w.history = l at hstation
  cases hstation with
  | closed hphase hgone => exact .inl ⟨hphase, rfl⟩
  | asking hphase hp hasks =>
    rw [hended _ hp (attempt_of_unanswered hasks)] at hasks
    cases hasks
  | answered hphase hp => cases hended _ hp rfl
  | landed hphase hgone => exact .inr (.inl ⟨_, hphase, rfl⟩)
  | broken hphase hp =>
    exact .inr (.inr (.inr ⟨hphase, rfl, w, by simp, unattended_of_quiet (sound_of_steps h.steps) hquiet hp⟩))
  | recorded hphase hgone => exact .inr (.inr (.inl ⟨hphase, rfl⟩))
  | lost hphase hgone => exact .inr (.inr (.inr ⟨hphase, rfl, h.unattended (awaits_of_phase hphase) hgone⟩))

/-- **What becomes of an attempt.**  Once the handshake of the current attempt has ended and no task can go on, every
attempt that was not given up has had an answer or a failure of the wallet.  An answer has landed, whoever waited for
it.  A failure is recorded if the caller was waiting throughout; the connection goes on waiting for the attempt exactly
if the handshake broke off and its caller had stopped waiting. -/
theorem landing_of_run (h : Run s w earlier) (hquiet : w.Quiet) (hended : w.Ended w.manager.connection.attempt) :
    let n := w.manager.connection.attempt
    (w.manager.connection.status = .connecting ↔ .broke n ∈ w.history ∧ ∃ v ∈ w :: earlier, v.Unattended n) ∧
    (∀ outcome, .answered n outcome ∈ w.history → w.manager.connection.phase = Connection.phaseOf outcome) ∧
    (.broke n ∈ w.history → (∀ v ∈ w :: earlier, ¬ v.Unattended n) →
      w.manager.connection.phase = Manager.brokenOff) ∧
    (w.manager.connection.status ≠ .disconnected →
      (∃ outcome, .answered n outcome ∈ w.history) ∨ .broke n ∈ w.history) := by
  intro n
  have hforsaken : (∃ v ∈ w :: earlier, v.Unattended n) →
      w.manager.connection.awaits n = true ∨ ∃ outcome, .answered n outcome ∈ w.history := fun hun =>
    (h.forsaken hun).landed rfl
  simp only [← @broke_mem_conclusions w.history n, ← @answered_mem_conclusions w.history n] at hforsaken ⊢
  rw [status_eq_connecting_iff]
  rcases h.concluded hquiet hended with ⟨hphase, hl⟩ | ⟨outcome, hphase, hl⟩ | ⟨hphase, hl⟩ | ⟨hphase, hl, hun⟩
  · have hstatus : w.manager.connection.status = .disconnected := by rw [Connection.status, hphase]; rfl
    simp [n, hl, hphase, hstatus]
  · have hne := phaseOf_ne_connecting outcome
    refine ⟨⟨fun hconnecting => absurd (hphase ▸ hconnecting) hne, ?_⟩, ?_, ?_, ?_⟩
    · simp [n, hl]
    · simp [n, hl, hphase]
    · simp [n, hl]
    · simp [n, hl]
  · -- a caller that has stopped waiting records no failure
    have hwaited : ¬ ∃ v ∈ w :: earlier, v.Unattended n := fun hun => by
      rcases hforsaken hun with hawaited | ⟨outcome, ha⟩
      · rw [phase_of_awaits hawaited] at hphase
        cases hphase
      · rw [hl] at ha
        cases List.mem_singleton.1 ha
    refine ⟨⟨fun hconnecting => ?_, fun h => absurd h.2 hwaited⟩, ?_, fun _ _ => hphase, ?_⟩
    · rw [hphase] at hconnecting
      cases hconnecting
    · simp [n, hl]
    · simp [n, hl]
  · refine ⟨⟨fun _ => ⟨?_, hun⟩, fun _ => hphase⟩, ?_, fun _ hnone => ?_, ?_⟩
    · simp [n, hl]
    · simp [n, hl]
    · obtain ⟨v, hv, hv'⟩ := hun
      exact absurd hv' (hnone v hv)
    · simp [n, hl]

namespace Abandoned

/-- A caller has stopped waiting and the wallet is still asked. -/
def unattended : World where
  manager := ⟨⟨1, .connecting⟩, [⟨1, .asking, false⟩]⟩
  selector := ⟨.testnet, 0⟩
  pending := {.asked (.connect 1 .testnet)}
  history := [.made (.connect 1 .testnet), .started 1]

/-- The wallet has failed, and the handshake has ended. -/
def lost : World where
  manager := ⟨⟨1, .connecting⟩, []⟩
  selector := ⟨.testnet, 0⟩
  pending := 0
  history := .broke 1 :: unattended.history

theorem exists_run_unattended : ∃ earlier, Run ⟨.testnet, 0⟩ unattended earlier :=
  ⟨_, .step (.step (.step .start (.call .connect)) (.advance 0 rfl (.make (.connect 1 .testnet))))
    (.call (.leave 1))⟩

theorem exists_run_lost : ∃ earlier, Run ⟨.testnet, 0⟩ lost earlier ∧ unattended ∈ earlier := by
  obtain ⟨earlier, h⟩ := exists_run_unattended
  exact ⟨_, .step (.step h (.advance 0 rfl (.breakOff rfl))) (@Step.act _ (.broke 1) 0 rfl), by simp⟩

theorem quiet_lost : lost.Quiet := fun p hp => absurd hp (Multiset.notMem_zero p)

theorem ended_lost : lost.Ended 1 := fun p hp => absurd hp (Multiset.notMem_zero p)

end Abandoned

/-- The general theorem at a run in which the wallet fails after the caller has stopped waiting. -/
theorem landing_of_run_abandoned : ∃ earlier, Run ⟨.testnet, 0⟩ Abandoned.lost earlier ∧ Abandoned.lost.Quiet ∧
    Abandoned.lost.Ended 1 ∧ .broke 1 ∈ Abandoned.lost.history ∧ (∃ v ∈ Abandoned.lost :: earlier, v.Unattended 1) ∧
      Abandoned.lost.manager.connection.status = .connecting := by
  obtain ⟨earlier, h, hleft⟩ := Abandoned.exists_run_lost
  have hun : ∃ v ∈ Abandoned.lost :: earlier, v.Unattended 1 :=
    ⟨Abandoned.unattended, List.mem_cons_of_mem _ hleft, _, List.mem_singleton_self _, rfl, rfl⟩
  have hbroke : .broke 1 ∈ Abandoned.lost.history := List.mem_cons_self
  exact ⟨earlier, h, Abandoned.quiet_lost, Abandoned.ended_lost, hbroke, hun,
    (landing_of_run h Abandoned.quiet_lost Abandoned.ended_lost).1.2 ⟨hbroke, hun⟩⟩

/-- **An attempt can get lost**: the connection waits for an attempt whose handshake has ended. -/
theorem not_all_attempts_land : ¬ ∀ (s : Selector) (w : World), Steps (.start s) w → w.Quiet →
    w.Ended w.manager.connection.attempt → w.manager.connection.status ≠ .connecting := fun hall => by
  obtain ⟨earlier, h, -⟩ := Abandoned.exists_run_lost
  exact hall _ _ h.steps Abandoned.quiet_lost Abandoned.ended_lost rfl

end SupplyTrail.Handshakes
