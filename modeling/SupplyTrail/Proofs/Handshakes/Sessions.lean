import SupplyTrail.Proofs.Handshakes.Connected
import SupplyTrail.Proofs.Handshakes.InFlight
/-!
# Sessions — what the wallet has opened and been asked to release

The wallet opens a session when it answers with an account, and is asked to release one by a call to disconnect that
found an account connected or by a superseded handshake that was given one.  Every open session is connected, or some
task has it in hand; so when no task can go on by itself, the sessions opened and not released are one or none, as the
connection is connected or not.

A release names no session.  The handshake of a superseded attempt asks for it whenever its own answer comes, so it may
ask after a newer attempt has connected.
-/
namespace SupplyTrail.Handshakes

/-- An answer of the wallet opened a session. -/
def Occurrence.opens : Occurrence → Bool
  | .answered _ outcome => Handshakes.opens outcome
  | .started _ | .closed _ | .made _ | .broke _ | .signing _ _ _ => false

/-- The wallet was asked to release the session. -/
def Occurrence.releases : Occurrence → Bool
  | .made (.release _) | .made .disconnect => true
  | .made (.connect _ _) | .started _ | .closed _ | .answered _ _ | .broke _ | .signing _ _ _ => false

/-- How many sessions the wallet has opened. -/
def opened (history : List Occurrence) : Nat := history.countP Occurrence.opens

/-- How often the wallet was asked to release one. -/
def released (history : List Occurrence) : Nat := history.countP Occurrence.releases

/-- A task has an open session in hand: it has yet to act on the answer, or to ask for the release. -/
def Pending.holds : Pending → Bool
  | .heard (.answer _ outcome) => opens outcome
  | .due (.release _) | .due .disconnect => true
  | .heard (.broke _) | .heard (.released _) | .due (.connect _ _) | .asked _ => false

variable {history os : List Occurrence} {c : Connection} {m m' : Manager} {requests : List WalletRequest}
  {p p' : Pending} {ps left : Multiset Pending} {n k : Nat}

/-- How many sessions are in the hands of tasks. -/
def inHand (ps : Multiset Pending) : Nat := ps.countP fun p => p.holds

/-- How many sessions the connection shows. -/
def shown (c : Connection) : Nat := if c.status = .connected then 1 else 0

theorem inHand_cons (p : Pending) (ps : Multiset Pending) :
    inHand (p ::ₘ ps) = inHand ps + if p.holds then 1 else 0 := Multiset.countP_cons _ _ _

theorem shown_of_awaits (h : c.awaits n = true) : shown c = 0 := by
  rw [shown, Connection.status, phase_of_awaits h]
  rfl

theorem shown_of_idle (h : c.isIdle = true) : shown c = 0 := by
  obtain ⟨attempt, phase⟩ := c
  cases phase with
  | connecting => cases h
  | connected a => cases h
  | disconnected => rfl
  | failed message => rfl

theorem shown_phaseOf (n : Nat) (outcome : Except WalletError Account) :
    shown ⟨n, Connection.phaseOf outcome⟩ = if opens outcome then 1 else 0 := by
  cases hopens : opens outcome with
  | true =>
    obtain ⟨a, -, -, hphase⟩ := phaseOf_of_opens hopens
    rw [hphase]
    rfl
  | false =>
    obtain ⟨message, hphase⟩ := phaseOf_of_not_opens hopens
    rw [hphase]
    rfl

/-- A call takes the session that the connection shows in hand, or leaves it there. -/
theorem shown_of_call {s : Selector} {move : Move} (hcall : Call s move) (he : Effect m move m' requests) :
    shown m'.connection + inHand (dues requests + ps) = shown m.connection + inHand ps := by
  cases hcall with
  | connect =>
    cases he with
    | start hidle =>
      rw [dues_singleton, inHand_cons, shown_of_idle hidle]
      rfl
    | ignore hbusy => rw [dues_nil]
  | disconnect =>
    cases he with
    | @hangUp a ha =>
      have hshown : shown m.connection = 1 := by rw [shown, Connection.status, ha]; rfl
      rw [dues_singleton, inHand_cons, hshown, Nat.add_comm 1]
      exact Nat.zero_add _
    | close hstatus => rw [dues_nil, shown, shown, if_neg hstatus, if_neg (by exact fun h => by cases h)]
  | leave n =>
    cases he with
    | leave n => rw [dues_nil]; rfl

/-- A task that acts on a report has the session in hand shown or goes on having it in hand. -/
theorem shown_of_report {report : Report} (he : Effect m report.move m' requests) :
    shown m'.connection + inHand (dues requests + left) = shown m.connection + inHand (.heard report ::ₘ left) := by
  rw [inHand_cons]
  cases report with
  | answer n outcome =>
    rw [show (Pending.heard (.answer n outcome)).holds = opens outcome from rfl]
    cases he with
    | land hawaited =>
      rw [dues_nil, shown_of_awaits hawaited, shown_phaseOf, Nat.zero_add, Nat.add_comm]
    | giveBack hstale hopens =>
      rw [dues_singleton, inHand_cons, hopens]
      rfl
    | drop hstale hopens =>
      rw [dues_nil, hopens]
      rfl
  | broke n =>
    cases he with
    | fail hrun hwatched hawaited =>
      rw [dues_nil, shown_of_awaits hawaited]
      rfl
    | vanish hrun hlost => rw [dues_nil]; rfl
  | released n =>
    cases he with
    | released n => rw [dues_nil]; rfl

/-- Every open session is shown or in hand. -/
def Balanced (c : Connection) (ps : Multiset Pending) (history : List Occurrence) : Prop :=
  opened history = released history + (shown c + inHand ps)

theorem opened_append (os history : List Occurrence) : opened (os ++ history) = opened os + opened history :=
  List.countP_append

theorem released_append (os history : List Occurrence) : released (os ++ history) = released os + released history :=
  List.countP_append

theorem opened_of_turns (h : ∀ o ∈ os, o.turns = true) : opened os = 0 :=
  List.countP_eq_zero.2 fun o ho => by
    have := h o ho
    cases o <;> simp_all [Occurrence.turns, Occurrence.opens]

theorem released_of_turns (h : ∀ o ∈ os, o.turns = true) : released os = 0 :=
  List.countP_eq_zero.2 fun o ho => by
    have := h o ho
    cases o <;> simp_all [Occurrence.turns, Occurrence.releases]

theorem Balanced.moved {ps' : Multiset Pending} {move : Move} (h : Balanced m.connection ps history)
    (hshown : shown m'.connection + inHand ps' = shown m.connection + inHand ps) :
    Balanced m'.connection ps' (occurrences m move ++ history) := by
  have hturns : ∀ o ∈ occurrences m move, o.turns = true := fun o ho => turns_of_mem_occurrences ho
  rw [Balanced, opened_append, released_append, opened_of_turns hturns, released_of_turns hturns, hshown, Nat.zero_add,
    Nat.zero_add]
  exact h

theorem Balanced.advance (h : Balanced c (p ::ₘ left) history) (hp : Advance p p' os) :
    Balanced c (p' ::ₘ left) (os ++ history) := by
  have hgo : opened os + (if p.holds then 1 else 0) = released os + (if p'.holds then 1 else 0) := by
    cases hp with
    | make r => cases r <;> rfl
    | answer n network outcome =>
      rw [opened, List.countP_singleton]
      exact (Nat.zero_add _).symm
    | release n => rfl
    | breakOff hn => rfl
  unfold Balanced at h ⊢
  rw [opened_append, released_append, inHand_cons]
  rw [inHand_cons] at h
  omega

theorem kept_balanced : Kept fun m ps history => Balanced m.connection ps history where
  start := rfl
  call _ h hcall he := h.moved (shown_of_call hcall he)
  act _ h he := h.moved (shown_of_report he)
  advance _ h hp := h.advance hp
  disconnected {m left history} h := by
    rw [Balanced, inHand_cons] at h
    exact h
  sign h := h

/-! ## Sessions opened and released -/

variable {w w' : World} {s : Selector}

/-- Nobody is there to go on with what is pending before the wallet answers: the wallet has been asked, or a handshake
broke off and its caller has stopped waiting. -/
def Rests (m : Manager) : Pending → Prop
  | .asked _ => True
  | .heard (.broke n) => ∀ h, m.running? n = some h → h.watched = false
  | .due _ | .heard (.answer _ _) | .heard (.released _) => False

/-- No task can go on before the wallet answers. -/
def World.Quiet (w : World) : Prop := ∀ p ∈ w.pending, Rests w.manager p

theorem inHand_of_quiet (h : w.Quiet) : inHand w.pending = 0 :=
  Multiset.countP_eq_zero.2 fun p hp => by
    have hrests := h p hp
    cases p with
    | due r => cases hrests
    | asked r => exact Bool.false_ne_true
    | heard report =>
      cases report with
      | answer n outcome => cases hrests
      | broke n => exact Bool.false_ne_true
      | released n => cases hrests

/-- **Sessions are neither leaked nor released twice.**  When no task can go on before the wallet answers, the wallet
has opened one session more than it was asked to release if the connection is connected, and as many otherwise. -/
theorem sessions_of_quiet (h : Steps (.start s) w) (hquiet : w.Quiet) :
    opened w.history = released w.history + if w.manager.connection.status = .connected then 1 else 0 := by
  have hbalanced := kept_balanced.of_steps h
  rw [Balanced, inHand_of_quiet hquiet] at hbalanced
  exact hbalanced

/-- The general theorem at a run in which two sessions were opened and one of them was given back. -/
theorem sessions_of_quiet_overlap : Steps (.start ⟨.testnet, 0⟩) Overlap.crossed ∧ Overlap.crossed.Quiet ∧
    opened Overlap.crossed.history = 2 ∧ opened Overlap.crossed.history = released Overlap.crossed.history +
      if Overlap.crossed.manager.connection.status = .connected then 1 else 0 := by
  have hquiet : Overlap.crossed.Quiet := fun p hp => by cases Multiset.mem_singleton.1 hp; trivial
  exact ⟨Overlap.steps_crossed, hquiet, rfl, sessions_of_quiet Overlap.steps_crossed hquiet⟩

/-! ## Releases after the account was given -/

theorem history_of_moved (w : World) (move : Move) (left : Multiset Pending) :
    (w.moved move left).history = w.history ∨ ∃ o, (w.moved move left).history = o :: w.history := by
  rcases occurrences_cases w.manager move with hnone | ⟨o, -, hone⟩
  · exact .inl (congrArg (· ++ w.history) hnone)
  · exact .inr ⟨o, congrArg (· ++ w.history) hone⟩

theorem history_of_step (hs : Step w w') : w'.history = w.history ∨ ∃ o, w'.history = o :: w.history := by
  cases hs with
  | call hcall => exact history_of_moved _ _ _
  | act left hw => exact history_of_moved _ _ _
  | advance left hw hp => cases hp <;> first | exact .inl rfl | exact .inr ⟨_, rfl⟩
  | disconnected left hw => exact .inl rfl
  | switch network => exact .inl rfl
  | sign network payload ha => exact .inr ⟨_, rfl⟩

/-- At no time had the wallet been asked for more releases than it had opened sessions. -/
theorem released_le_opened (h : Steps (.start s) w) :
    ∀ older, older <:+ w.history → released older ≤ opened older := by
  induction h with
  | refl => exact fun older ho => by rw [List.suffix_nil.1 ho]; exact Nat.le_refl _
  | @tail w w' hs hstep ih =>
    intro older ho
    have hbalanced := kept_balanced.of_steps (hs.tail hstep)
    rcases history_of_step hstep with hsame | ⟨o, hcons⟩
    · exact ih older (hsame ▸ ho)
    · rw [hcons, List.suffix_cons_iff, ← hcons] at ho
      rcases ho with rfl | ho
      · rw [Balanced] at hbalanced
        omega
      · exact ih older ho

/-- A call to disconnect found an account connected. -/
def HungUp (history : List Occurrence) : Prop := ∃ n a, .closed ⟨n, .connected a⟩ ∈ history

theorem HungUp.mono (os : List Occurrence) (h : HungUp history) : HungUp (os ++ history) := by
  obtain ⟨n, a, h⟩ := h
  exact ⟨n, a, List.mem_append_right _ h⟩

/-- The wallet is asked for a release only by a superseded handshake, or by a call to disconnect that found an account
connected. -/
structure Warranted (ps : Multiset Pending) (history : List Occurrence) : Prop where
  release : ∀ n, .made (.release n) ∈ history → Superseded history n
  due : .due .disconnect ∈ ps → HungUp history
  made : .made .disconnect ∈ history → HungUp history

/-- What makes no request of the wallet keeps its requests warranted. -/
theorem Warranted.keep {ps' : Multiset Pending} (os : List Occurrence) (h : Warranted ps history)
    (hos : ∀ r, .made r ∉ os) (hdue : .due .disconnect ∈ ps' → .due .disconnect ∈ ps ∨ HungUp os) :
    Warranted ps' (os ++ history) where
  release n hn := (h.release n ((List.mem_append.1 hn).resolve_left (hos _))).mono os
  due hd := by
    rcases hdue hd with hd | ⟨n, a, hclosed⟩
    · exact (h.due hd).mono os
    · exact ⟨n, a, List.mem_append_left _ hclosed⟩
  made hm := (h.made ((List.mem_append.1 hm).resolve_left (hos _))).mono os

theorem Warranted.moved {move : Move} (h : Warranted ps history) (he : Effect m move m' requests) :
    Warranted (dues requests + ps) (occurrences m move ++ history) := by
  refine h.keep _ (fun r hr => by cases turns_of_mem_occurrences hr) fun hd => ?_
  rcases Multiset.mem_add.1 hd with hd | hd
  · obtain ⟨r, hr, hd⟩ := List.mem_map.1 (Multiset.mem_coe.1 hd)
    cases hd
    rcases he.request_cases hr with ⟨network, h⟩ | ⟨n, h⟩ | ⟨-, rfl, a, ha⟩
    · cases h
    · cases h
    · exact .inr ⟨m.connection.attempt, a, by rw [← ha]; exact List.mem_singleton_self _⟩
  · exact .inl hd

theorem Warranted.tail (h : Warranted (p ::ₘ left) history) : Warranted left history :=
  h.keep [] (fun _ hr => by cases hr) fun hd => .inl (Multiset.mem_cons_of_mem hd)

theorem Warranted.advance (hpursued : Pursued c (p ::ₘ left) history) (h : Warranted (p ::ₘ left) history)
    (hp : Advance p p' os) : Warranted (p' ::ₘ left) (os ++ history) := by
  have hdue : .due .disconnect ∈ p' ::ₘ left → .due .disconnect ∈ p ::ₘ left ∨ HungUp os := fun hd => by
    rcases Multiset.mem_cons.1 hd with rfl | hd
    · cases hp
    · exact .inl (Multiset.mem_cons_of_mem hd)
  cases hp with
  | make r =>
    have hself : Pending.due r ∈ Pending.due r ::ₘ left := Multiset.mem_cons_self _ _
    refine ⟨fun n hn => ?_, fun hd => ?_, fun hm => ?_⟩
    · rcases List.mem_cons.1 hn with hn | hn
      · cases hn
        exact (hpursued.releasing _ hself n rfl rfl).mono [_]
      · exact (h.release n hn).mono [_]
    · exact (h.due ((hdue hd).resolve_right fun ⟨n, a, hc⟩ => by cases List.mem_singleton.1 hc)).mono [_]
    · rcases List.mem_cons.1 hm with hm | hm
      · cases hm
        exact (h.due hself).mono [_]
      · exact (h.made hm).mono [_]
  | answer n network outcome => exact h.keep _ (by simp) hdue
  | release n => exact h.keep _ (by simp) hdue
  | breakOff hn => exact h.keep _ (by simp) hdue

theorem kept_warranted :
    Kept fun m ps history => Pursued m.connection ps history ∧ Warranted ps history where
  start :=
    ⟨kept_pursued.start, fun n hn => (by cases hn), fun hd => absurd hd (Multiset.notMem_zero _),
      fun hm => (by cases hm)⟩
  call hsound h hcall he := ⟨kept_pursued.call hsound h.1 hcall he, h.2.moved he⟩
  act hsound h he := ⟨kept_pursued.act hsound h.1 he, h.2.tail.moved he⟩
  advance hsound h hp := ⟨kept_pursued.advance hsound h.1 hp, h.2.advance h.1 hp⟩
  disconnected h := ⟨kept_pursued.disconnected h.1, h.2.tail⟩
  sign h := ⟨kept_pursued.sign h.1, h.2.keep [_] (by simp) .inl⟩

/-- The session of the connected account apart, every session is released or in the hands of a task. -/
theorem Balanced.beside_connected {a : Account} {later earlier : List Occurrence}
    (h : Balanced c ps (later ++ .answered n (.ok a) :: earlier)) (ha : c.phase = .connected a)
    (hblank : Text.isBlank a.publicKey = false) :
    opened later + opened earlier = released later + released earlier + inHand ps := by
  have hshown : shown c = 1 := by rw [shown, Connection.status, ha]; rfl
  have hopens : opened [.answered n (.ok a)] = 1 := by
    rw [opened, List.countP_singleton]
    simp [Occurrence.opens, opens, hblank]
  have hreleases : released [.answered n (.ok a)] = 0 := rfl
  rw [Balanced, hshown, opened_append, released_append, ← List.singleton_append, opened_append, released_append,
    hopens] at h
  omega

/-- **What is released after the connected account was given.**  A release after that is asked for by the handshake of
an earlier attempt, which a call to disconnect had superseded before, or by an earlier call to disconnect that found
another account connected.  There is none if every session that had been opened before had also been released before,
and no superseded handshake has been given an account since; and when no task can go on before the wallet answers,
there is none only then. -/
theorem releases_since_answer {a : Account} (h : Steps (.start s) w)
    (ha : w.manager.connection.account? = some a) :
    ∃ n later earlier, n = w.manager.connection.attempt ∧ w.history = later ++ .answered n (.ok a) :: earlier ∧
      (∀ k, .made (.release k) ∈ later → k < n ∧ Superseded earlier k) ∧
      (.made .disconnect ∈ later → HungUp earlier) ∧
      (opened earlier = released earlier ∧ opened later = 0 → released later = 0) ∧
      (w.Quiet → released later = 0 → opened earlier = released earlier ∧ opened later = 0) := by
  have hphase := phase_of_account? ha
  have hstands := kept_stands.of_steps h
  obtain ⟨hpursued, hwarranted⟩ := kept_warranted.of_steps h
  obtain ⟨later, earlier, hhistory, hturn⟩ := hstands.history_of_connected hphase
  have hlater : ∀ o ∈ later, o ∈ w.history := fun o ho => hhistory ▸ List.mem_append_left _ ho
  have hcount : opened later + opened earlier = released later + released earlier + inHand w.pending :=
    Balanced.beside_connected (hhistory ▸ kept_balanced.of_steps h) hphase (hstands.connected a hphase).1
  refine ⟨_, later, earlier, rfl, hhistory, fun k hk => ?_, fun hd => ?_, fun hnone => ?_, fun hquiet hnone => ?_⟩
  · have hsuperseded := hwarranted.release k (hlater _ hk)
    exact ⟨hpursued.closed_lt _ hsuperseded, hturn _ hsuperseded rfl⟩
  · obtain ⟨k, b, hclosed⟩ := hwarranted.made (hlater _ hd)
    exact ⟨k, b, hturn _ hclosed rfl⟩
  · omega
  · rw [inHand_of_quiet hquiet] at hcount
    have hle := released_le_opened h earlier (hhistory ▸ (List.suffix_cons _ _).trans (List.suffix_append _ _))
    omega

/-- The general theorem at a run in which the handshake of the first attempt releases its session after the second
attempt has connected. -/
theorem releases_since_answer_overlap : Steps (.start ⟨.testnet, 0⟩) Overlap.crossed ∧
    Overlap.crossed.manager.connection.account? = some ⟨"GB"⟩ ∧
    ∃ n later earlier, n = Overlap.crossed.manager.connection.attempt ∧
      Overlap.crossed.history = later ++ .answered n (.ok ⟨"GB"⟩) :: earlier ∧
      (∀ k, .made (.release k) ∈ later → k < n ∧ Superseded earlier k) ∧
      (.made .disconnect ∈ later → HungUp earlier) ∧
      (opened earlier = released earlier ∧ opened later = 0 → released later = 0) ∧
      (Overlap.crossed.Quiet → released later = 0 → opened earlier = released earlier ∧ opened later = 0) :=
  ⟨Overlap.steps_crossed, rfl, releases_since_answer Overlap.steps_crossed rfl⟩

/-- **A session that is connected can be released under the connection.** -/
theorem not_all_connected_unreleased : ¬ ∀ (s : Selector) (w : World) (a : Account) (later earlier : List Occurrence),
    Steps (.start s) w → w.manager.connection.account? = some a →
    w.history = later ++ .answered w.manager.connection.attempt (.ok a) :: earlier → released later = 0 := fun hall =>
  absurd (hall _ _ ⟨"GB"⟩ [.made (.release 1), .answered 1 (.ok ⟨"GA"⟩)] Overlap.asking.history
    Overlap.steps_crossed rfl rfl) (by decide)

end SupplyTrail.Handshakes
