import Mathlib.Data.Multiset.Count
import Mathlib.Data.Multiset.Filter
import Mathlib.Logic.Relation
import SupplyTrail.Wallet.Manager
/-!
# Handshakes — the wallet's manager among its tasks

Calls to connect and to disconnect and the handshakes that they start are tasks that run at the same time.  From one
look at the connection, or one request of the wallet, to the next of a task anything else may happen: a request that was
decided on is made later, an answer that has come is acted on later, and that a handshake broke off is noticed later, by
the caller that waits for it, if it still does.  A world holds the manager, what its tasks have pending and all that has
happened so far.  Whatever holds of every run of a world holds of every interleaving; what the manager does in one move
is the manager's own step throughout.
-/
namespace SupplyTrail.Handshakes

open Relation (ReflTransGen)

/-- What has been heard of a handshake and not yet been acted on. -/
inductive Report where
  /-- The wallet's answer to the request for an account. -/
  | answer (attempt : Nat) (outcome : Except WalletError Account)
  /-- The wallet failed instead of answering, which ends the handshake. -/
  | broke (attempt : Nat)
  /-- The session of a superseded attempt was released. -/
  | released (attempt : Nat)

namespace Report

def attempt : Report → Nat
  | .answer n _ | .broke n | .released n => n

/-- The move that a report leads to. -/
def move : Report → Move
  | .answer n outcome => .answer n outcome
  | .broke n => .breakOff n
  | .released n => .released n

end Report

/-- The handshake that makes a request. -/
def requester? : WalletRequest → Option Nat
  | .connect n _ | .release n => some n
  | .disconnect => none

/-- What a task has pending. -/
inductive Pending where
  /-- A request that it is about to make. -/
  | due (request : WalletRequest)
  /-- A request that the wallet has not answered. -/
  | asked (request : WalletRequest)
  /-- A report that it is about to act on. -/
  | heard (report : Report)

namespace Pending

/-- The attempt whose handshake has this pending. -/
def attempt? : Pending → Option Nat
  | .due r | .asked r => requester? r
  | .heard report => some report.attempt

/-- The stage of a handshake that has this pending, unless it can be any. -/
def stage? : Pending → Option Stage
  | .due (.connect _ _) | .asked (.connect _ _) | .heard (.answer _ _) => some .asking
  | .due (.release _) | .asked (.release _) | .heard (.released _) => some .releasing
  | .due .disconnect | .asked .disconnect | .heard (.broke _) => none

end Pending

/-- What happens to a wallet. -/
inductive Occurrence where
  /-- A call to connect that found the connection idle starts an attempt. -/
  | started (attempt : Nat)
  /-- A call to disconnect closes the connection that it found. -/
  | closed (found : Connection)
  /-- The wallet is asked. -/
  | made (request : WalletRequest)
  /-- The wallet answers the request for an account. -/
  | answered (attempt : Nat) (outcome : Except WalletError Account)
  /-- The wallet fails instead of answering a handshake. -/
  | broke (attempt : Nat)
  /-- The wallet is asked for a signature of an account. -/
  | signing (account : Account) (network : Network) (payload : List UInt8)
  deriving DecidableEq

/-- An attempt starts, or the connection is closed. -/
def Occurrence.turns : Occurrence → Bool
  | .started _ | .closed _ => true
  | .made _ | .answered _ _ | .broke _ | .signing _ _ _ => false

/-- What calls of the manager are recorded as. -/
def occurrences (m : Manager) : Move → List Occurrence
  | .connect _ => if m.connection.isIdle then [.started m.connection.start.attempt] else []
  | .disconnect => [.closed m.connection]
  | .answer _ _ | .breakOff _ | .released _ | .leave _ => []

/-- A move is recorded only if it turns the history. -/
theorem occurrences_cases (m : Manager) (move : Move) :
    occurrences m move = [] ∨ ∃ o, o.turns = true ∧ occurrences m move = [o] := by
  cases move with
  | connect network =>
    by_cases hidle : m.connection.isIdle = true
    · exact .inr ⟨.started m.connection.start.attempt, rfl, if_pos hidle⟩
    · exact .inl (if_neg hidle)
  | disconnect => exact .inr ⟨.closed m.connection, rfl, rfl⟩
  | answer n outcome => exact .inl rfl
  | breakOff n => exact .inl rfl
  | released n => exact .inl rfl
  | leave n => exact .inl rfl

theorem occurrences_report (m : Manager) (report : Report) : occurrences m report.move = [] := by
  cases report <;> rfl

theorem turns_of_mem_occurrences {m : Manager} {move : Move} {o : Occurrence} (h : o ∈ occurrences m move) :
    o.turns = true := by
  rcases occurrences_cases m move with hnone | ⟨o', hturns, hone⟩
  · rw [hnone] at h
    cases h
  · rw [hone] at h
    exact List.mem_singleton.1 h ▸ hturns

/-- The manager, the active network, what is pending, and all that has happened, the latest first. -/
structure World where
  manager : Manager
  selector : Selector
  pending : Multiset Pending
  history : List Occurrence

/-- The requests that a move has led to, as pending. -/
def dues (requests : List WalletRequest) : Multiset Pending := ↑(requests.map Pending.due)

@[simp] theorem dues_nil (ps : Multiset Pending) : dues [] + ps = ps := Multiset.zero_add ps

@[simp] theorem dues_singleton (r : WalletRequest) (ps : Multiset Pending) : dues [r] + ps = .due r ::ₘ ps := rfl

namespace World

def start (s : Selector) : World := ⟨.initial, s, 0, []⟩

/-- The world after a move of the manager, when these things are left pending beside it. -/
def moved (w : World) (move : Move) (left : Multiset Pending) : World where
  manager := (w.manager.step move).1
  selector := w.selector
  pending := dues (w.manager.step move).2 + left
  history := occurrences w.manager move ++ w.history

end World

/-- The moves that calls from outside make: a call to connect finds a network active. -/
inductive Call (s : Selector) : Move → Prop
  | connect : Call s (.connect s.active)
  | disconnect : Call s .disconnect
  /-- A caller stops waiting. -/
  | leave (attempt : Nat) : Call s (.leave attempt)

/-- How what is pending goes on without a move, and what is recorded of that. -/
inductive Advance : Pending → Pending → List Occurrence → Prop
  | make (r : WalletRequest) : Advance (.due r) (.asked r) [.made r]
  | answer (n : Nat) (network : Network) (outcome : Except WalletError Account) :
      Advance (.asked (.connect n network)) (.heard (.answer n outcome)) [.answered n outcome]
  | release (n : Nat) : Advance (.asked (.release n)) (.heard (.released n)) []
  | breakOff {r : WalletRequest} {n : Nat} (hn : requester? r = some n) :
      Advance (.asked r) (.heard (.broke n)) [.broke n]

/-- One step of a world. -/
inductive Step : World → World → Prop
  /-- A call to connect or to disconnect takes effect, or a caller stops waiting. -/
  | call {w : World} {move : Move} (h : Call w.selector move) : Step w (w.moved move w.pending)
  /-- A task acts on a report. -/
  | act {w : World} {report : Report} (left : Multiset Pending) (h : w.pending = .heard report ::ₘ left) :
      Step w (w.moved report.move left)
  /-- A task makes a request, or the wallet answers one of a handshake. -/
  | advance {w : World} {p p' : Pending} {os : List Occurrence} (left : Multiset Pending)
      (h : w.pending = p ::ₘ left) (hp : Advance p p' os) :
      Step w { w with pending := p' ::ₘ left, history := os ++ w.history }
  /-- The wallet answers a call to disconnect, which ends. -/
  | disconnected {w : World} (left : Multiset Pending) (h : w.pending = .asked .disconnect ::ₘ left) :
      Step w { w with pending := left }
  /-- The active network is switched. -/
  | switch {w : World} (network : Network) : Step w { w with selector := w.selector.set network }
  /-- The connected account is asked for a signature. -/
  | sign {w : World} {a : Account} (network : Network) (payload : List UInt8)
      (ha : w.manager.connection.account? = some a) :
      Step w { w with history := .signing a network payload :: w.history }

abbrev Steps : World → World → Prop := ReflTransGen Step

/-! ## What a move does -/

variable {m m' : Manager} {requests : List WalletRequest}

/-- The wallet's answer opens a session: it is an account whose key is not blank. -/
def opens : Except WalletError Account → Bool
  | .ok a => !Text.isBlank a.publicKey
  | .error _ => false

theorem phaseOf_of_opens {outcome : Except WalletError Account} (h : opens outcome = true) :
    ∃ a, outcome = .ok a ∧ Text.isBlank a.publicKey = false ∧ Connection.phaseOf outcome = .connected a := by
  cases outcome with
  | error e => cases h
  | ok a =>
    have hblank : Text.isBlank a.publicKey = false := by simpa [opens] using h
    exact ⟨a, rfl, hblank, if_neg (by simp [hblank])⟩

theorem phaseOf_of_not_opens {outcome : Except WalletError Account} (h : opens outcome = false) :
    ∃ message, Connection.phaseOf outcome = .failed message := by
  cases outcome with
  | error e => exact ⟨_, rfl⟩
  | ok a =>
    have hblank : Text.isBlank a.publicKey = true := by simpa [opens] using h
    exact ⟨_, if_pos hblank⟩

/-- What a move does to a manager whose handshakes are where the move expects them, and what it asks the wallet for. -/
inductive Effect (m : Manager) : Move → Manager → List WalletRequest → Prop
  | start {network : Network} (hidle : m.connection.isIdle = true) :
      Effect m (.connect network)
        ⟨m.connection.start, ⟨m.connection.start.attempt, .asking, true⟩ :: m.handshakes⟩
        [.connect m.connection.start.attempt network]
  | ignore {network : Network} (hbusy : m.connection.isIdle = false) : Effect m (.connect network) m []
  | hangUp {a : Account} (ha : m.connection.phase = .connected a) :
      Effect m .disconnect { m with connection := m.connection.close } [.disconnect]
  | close (hstatus : m.connection.status ≠ .connected) :
      Effect m .disconnect { m with connection := m.connection.close } []
  | leave (n : Nat) : Effect m (.leave n) (m.leave n) []
  /-- An answer that is awaited lands. -/
  | land {n : Nat} {outcome : Except WalletError Account} (hawaited : m.connection.awaits n = true) :
      Effect m (.answer n outcome) { m.finish n with connection := ⟨n, Connection.phaseOf outcome⟩ } []
  /-- A session that is not awaited any more is given back. -/
  | giveBack {n : Nat} {outcome : Except WalletError Account} (hstale : m.connection.awaits n = false)
      (hopens : opens outcome = true) :
      Effect m (.answer n outcome) (m.update n fun h => { h with stage := .releasing }) [.release n]
  | drop {n : Nat} {outcome : Except WalletError Account} (hstale : m.connection.awaits n = false)
      (hopens : opens outcome = false) : Effect m (.answer n outcome) (m.finish n) []
  /-- The caller that waits for a handshake records that it broke off. -/
  | fail {n : Nat} {h : Handshake} (hrun : m.running? n = some h) (hwatched : h.watched = true)
      (hawaited : m.connection.awaits n = true) :
      Effect m (.breakOff n) { m.finish n with connection := ⟨n, Manager.brokenOff⟩ } []
  /-- A handshake that broke off is superseded, or nobody waits for it. -/
  | vanish {n : Nat} {h : Handshake} (hrun : m.running? n = some h)
      (hlost : h.watched = false ∨ m.connection.awaits n = false) : Effect m (.breakOff n) (m.finish n) []
  | released (n : Nat) : Effect m (.released n) (m.finish n) []

/-- The manager has a handshake for what is pending, at the stage that goes with it. -/
def Held (m : Manager) (p : Pending) : Prop :=
  ∀ n, p.attempt? = some n → ∃ h ∈ m.handshakes, h.attempt = n ∧ ∀ stage, p.stage? = some stage → h.stage = stage

theorem attempt_of_awaits {c : Connection} {n : Nat} (h : c.awaits n = true) : c.attempt = n := by
  simp only [Connection.awaits, Bool.and_eq_true, beq_iff_eq] at h
  exact h.1

theorem phase_of_awaits {c : Connection} {n : Nat} (h : c.awaits n = true) : c.phase = .connecting := by
  obtain ⟨attempt, phase⟩ := c
  simp only [Connection.awaits, Connection.status, Bool.and_eq_true, beq_iff_eq] at h
  cases phase with
  | connecting => rfl
  | disconnected => cases h.2
  | connected a => cases h.2
  | failed message => cases h.2

theorem settle_of_awaits {c : Connection} {n : Nat} (h : c.awaits n = true) (phase : Phase) :
    c.settle n phase = ⟨n, phase⟩ := by
  rw [Connection.settle, if_pos h, attempt_of_awaits h]

theorem effect_connect (m : Manager) (network : Network) :
    Effect m (.connect network) (m.step (.connect network)).1 (m.step (.connect network)).2 := by
  simp only [Manager.step, Manager.connect]
  split
  · rename_i hidle
    exact .start hidle
  · rename_i hbusy
    exact .ignore (by simpa using hbusy)

theorem effect_disconnect (m : Manager) :
    Effect m .disconnect (m.step .disconnect).1 (m.step .disconnect).2 := by
  simp only [Manager.step, Manager.disconnect]
  split
  · rename_i hstatus
    cases hphase : m.connection.phase with
    | connected a => exact .hangUp hphase
    | disconnected => rw [Connection.status, hphase] at hstatus; cases hstatus
    | connecting => rw [Connection.status, hphase] at hstatus; cases hstatus
    | failed message => rw [Connection.status, hphase] at hstatus; cases hstatus
  · rename_i hstatus
    exact .close hstatus

theorem effect_call {s : Selector} {move : Move} (h : Call s move) :
    Effect m move (m.step move).1 (m.step move).2 := by
  cases h with
  | connect => exact effect_connect m s.active
  | disconnect => exact effect_disconnect m
  | leave n => exact .leave n

theorem effect_answer {n : Nat} {outcome : Except WalletError Account}
    (h : Held m (.heard (.answer n outcome))) :
    Effect m (.answer n outcome) (m.step (.answer n outcome)).1 (m.step (.answer n outcome)).2 := by
  obtain ⟨h, hmem, hattempt, hstage⟩ := h n rfl
  have hasking : (m.handshake? n .asking).isSome := by
    rw [Manager.handshake?, List.find?_isSome]
    exact ⟨h, hmem, by simp [hattempt, hstage .asking rfl]⟩
  obtain ⟨found, hfound⟩ := Option.isSome_iff_exists.1 hasking
  simp only [Manager.step, Manager.answer, hfound]
  cases hawaited : m.connection.awaits n with
  | true =>
    simp only [if_true, settle_of_awaits hawaited]
    exact .land hawaited
  | false =>
    simp only [Bool.false_eq_true, if_false]
    cases hopens : opens outcome with
    | true =>
      obtain ⟨a, -, -, hphase⟩ := phaseOf_of_opens hopens
      have hstatus : (Connection.phaseOf outcome).status = .connected := by rw [hphase]; rfl
      rw [if_pos hstatus]
      exact .giveBack hawaited hopens
    | false =>
      obtain ⟨message, hphase⟩ := phaseOf_of_not_opens hopens
      have hstatus : (Connection.phaseOf outcome).status ≠ .connected := by rw [hphase]; exact fun h => by cases h
      rw [if_neg hstatus]
      exact .drop hawaited hopens

theorem effect_breakOff {n : Nat} (h : Held m (.heard (.broke n))) :
    Effect m (.breakOff n) (m.step (.breakOff n)).1 (m.step (.breakOff n)).2 := by
  obtain ⟨h, hmem, hattempt, -⟩ := h n rfl
  have hrunning : (m.running? n).isSome := by
    rw [Manager.running?, List.find?_isSome]
    exact ⟨h, hmem, by simp [hattempt]⟩
  obtain ⟨found, hfound⟩ := Option.isSome_iff_exists.1 hrunning
  simp only [Manager.step, Manager.breakOff, hfound]
  cases hwatched : found.watched with
  | false => exact .vanish hfound (.inl hwatched)
  | true =>
    simp only [if_true]
    cases hawaited : m.connection.awaits n with
    | true =>
      rw [settle_of_awaits hawaited]
      exact .fail hfound hwatched hawaited
    | false =>
      rw [Connection.settle, if_neg (by simp [hawaited])]
      exact .vanish hfound (.inr hawaited)

theorem effect_released {n : Nat} (h : Held m (.heard (.released n))) :
    Effect m (.released n) (m.step (.released n)).1 (m.step (.released n)).2 := by
  obtain ⟨h, hmem, hattempt, hstage⟩ := h n rfl
  have hreleasing : (m.handshake? n .releasing).isSome := by
    rw [Manager.handshake?, List.find?_isSome]
    exact ⟨h, hmem, by simp [hattempt, hstage .releasing rfl]⟩
  obtain ⟨found, hfound⟩ := Option.isSome_iff_exists.1 hreleasing
  simp only [Manager.step, Manager.released, hfound]
  exact .released n

theorem effect_report {report : Report} (h : Held m (.heard report)) :
    Effect m report.move (m.step report.move).1 (m.step report.move).2 := by
  cases report with
  | answer n outcome => exact effect_answer h
  | broke n => exact effect_breakOff h
  | released n => exact effect_released h

/-- The wallet is asked for an account for a new attempt, for the release of a superseded session, or by a call to
disconnect for the release of the connected one. -/
theorem Effect.request_cases {move : Move} {r : WalletRequest} (h : Effect m move m' requests) (hr : r ∈ requests) :
    (∃ network, r = .connect m.connection.start.attempt network) ∨ (∃ n, r = .release n) ∨
      r = .disconnect ∧ move = .disconnect ∧ ∃ a, m.connection.phase = .connected a := by
  cases h with
  | @start network hidle => exact .inl ⟨network, List.mem_singleton.1 hr⟩
  | @giveBack n outcome hstale hopens => exact .inr (.inl ⟨n, List.mem_singleton.1 hr⟩)
  | @hangUp a ha => exact .inr (.inr ⟨List.mem_singleton.1 hr, rfl, a, ha⟩)
  | ignore hbusy => cases hr
  | close hstatus => cases hr
  | leave n => cases hr
  | land hawaited => cases hr
  | drop hstale hopens => cases hr
  | fail hrun hwatched hawaited => cases hr
  | vanish hrun hlost => cases hr
  | released n => cases hr

/-- To act on a report settles the awaited attempt, ends a handshake without that, or goes on to give a session back. -/
theorem Effect.report_cases {report : Report} (h : Effect m report.move m' requests) :
    (requests = [] ∧ m.connection.awaits report.attempt = true ∧
      ∃ phase, m' = { m.finish report.attempt with connection := ⟨report.attempt, phase⟩ }) ∨
    (requests = [] ∧ m' = m.finish report.attempt) ∨
    ∃ n outcome, report = .answer n outcome ∧ m.connection.awaits n = false ∧
      m' = m.update n (fun h => { h with stage := .releasing }) ∧ requests = [.release n] := by
  cases report with
  | answer n outcome =>
    cases h with
    | land hawaited => exact .inl ⟨rfl, hawaited, _, rfl⟩
    | drop hstale hopens => exact .inr (.inl ⟨rfl, rfl⟩)
    | giveBack hstale hopens => exact .inr (.inr ⟨n, outcome, rfl, hstale, rfl, rfl⟩)
  | broke n =>
    cases h with
    | fail hrun hwatched hawaited => exact .inl ⟨rfl, hawaited, _, rfl⟩
    | vanish hrun hlost => exact .inr (.inl ⟨rfl, rfl⟩)
  | released n =>
    cases h with
    | released n => exact .inr (.inl ⟨rfl, rfl⟩)

theorem Effect.attempt_le {move : Move} (h : Effect m move m' requests) :
    m.connection.attempt ≤ m'.connection.attempt := by
  cases h with
  | start hidle => exact Nat.le_succ _
  | hangUp ha => exact Nat.le_succ _
  | close hstatus => exact Nat.le_succ _
  | land hawaited => exact Nat.le_of_eq (attempt_of_awaits hawaited)
  | fail hrun hwatched hawaited => exact Nat.le_of_eq (attempt_of_awaits hawaited)
  | ignore hbusy => exact Nat.le_refl _
  | leave n => exact Nat.le_refl _
  | giveBack hstale hopens => exact Nat.le_refl _
  | drop hstale hopens => exact Nat.le_refl _
  | vanish hrun hlost => exact Nat.le_refl _
  | released n => exact Nat.le_refl _

/-! ## Every handshake has one thing pending -/

/-- What is pending belongs to handshakes that the manager has, each of them has one thing pending, and none is of an
attempt that is yet to come. -/
structure Sound (m : Manager) (ps : Multiset Pending) : Prop where
  held : ∀ p ∈ ps, Held m p
  apart : (ps.filterMap Pending.attempt?).Nodup
  bounded : ∀ p ∈ ps, ∀ n, p.attempt? = some n → n ≤ m.connection.attempt

variable {p p' : Pending} {ps left : Multiset Pending} {n : Nat}

theorem Held.finish (h : Held m p) (hne : p.attempt? ≠ some n) : Held (m.finish n) p := by
  intro k hk
  obtain ⟨x, hx, hattempt, hstage⟩ := h k hk
  refine ⟨x, List.mem_filter.2 ⟨hx, ?_⟩, hattempt, hstage⟩
  have : x.attempt ≠ n := fun hn => hne (by rw [hk, ← hattempt, hn])
  simpa using this

/-- A change of one handshake that keeps its attempt leaves what is pending for the others. -/
theorem Held.update {f : Handshake → Handshake} (h : Held m p) (hattempt : ∀ x, (f x).attempt = x.attempt)
    (hstage : p.attempt? = some n → ∀ x, (f x).stage = x.stage) : Held (m.update n f) p := by
  intro k hk
  obtain ⟨x, hx, hxk, hxstage⟩ := h k hk
  refine ⟨_, List.mem_map_of_mem hx, ?_, fun stage hs => ?_⟩
  · split
    · exact (hattempt x).trans hxk
    · exact hxk
  · split
    · rename_i hn
      exact (hstage (by rw [hk, ← hxk, hn]) x).trans (hxstage stage hs)
    · exact hxstage stage hs

theorem Held.begun {c : Connection} (h : Held m p) (x : Handshake) : Held ⟨c, x :: m.handshakes⟩ p := by
  intro k hk
  obtain ⟨y, hy, hyk⟩ := h k hk
  exact ⟨y, List.mem_cons_of_mem _ hy, hyk⟩

theorem Sound.attempt_ne (h : Sound m (p ::ₘ left)) (hn : p.attempt? = some n) (hp : p' ∈ left) :
    p'.attempt? ≠ some n := by
  have hapart := h.apart
  rw [Multiset.filterMap_cons_some _ _ _ hn, Multiset.nodup_cons] at hapart
  exact fun h' => hapart.1 ((Multiset.mem_filterMap Pending.attempt? _).2 ⟨p', hp, h'⟩)

theorem Sound.tail (h : Sound m (p ::ₘ left)) : Sound m left where
  held q hq := h.held q (Multiset.mem_cons_of_mem hq)
  apart := Multiset.nodup_of_le (Multiset.filterMap_le_filterMap _ (Multiset.le_cons_self _ _)) h.apart
  bounded q hq := h.bounded q (Multiset.mem_cons_of_mem hq)

/-- What is pending may go on as something else of the same handshake. -/
theorem Sound.replace (h : Sound m (p ::ₘ left)) (hattempt : p'.attempt? = p.attempt?)
    (hc : m'.connection = m.connection) (hp' : Held m' p') (hleft : ∀ q ∈ left, Held m' q) :
    Sound m' (p' ::ₘ left) where
  held := Multiset.forall_mem_cons.2 ⟨hp', hleft⟩
  apart := by
    have hapart := h.apart
    rw [Multiset.filterMap_cons] at hapart ⊢
    rwa [hattempt]
  bounded q hq k hk := by
    rw [hc]
    rcases Multiset.mem_cons.1 hq with rfl | hq
    · exact h.bounded p (Multiset.mem_cons_self _ _) k (hattempt ▸ hk)
    · exact h.bounded q (Multiset.mem_cons_of_mem hq) k hk

theorem Sound.cons_none (h : Sound m ps) (hp : p.attempt? = none) : Sound m (p ::ₘ ps) where
  held := Multiset.forall_mem_cons.2 ⟨fun k hk => (by rw [hp] at hk; cases hk), h.held⟩
  apart := by
    rw [Multiset.filterMap_cons_none _ _ hp]
    exact h.apart
  bounded q hq k hk := by
    rcases Multiset.mem_cons.1 hq with rfl | hq
    · rw [hp] at hk; cases hk
    · exact h.bounded q hq k hk

theorem Sound.finish {c : Connection} (h : Sound m (p ::ₘ left)) (hn : p.attempt? = some n)
    (hc : c.attempt = m.connection.attempt) : Sound { m.finish n with connection := c } left where
  held q hq := Held.finish (h.tail.held q hq) (h.attempt_ne hn hq)
  apart := h.tail.apart
  bounded q hq k hk := hc ▸ h.tail.bounded q hq k hk

theorem Sound.closed (h : Sound m ps) : Sound { m with connection := m.connection.close } ps where
  held q hq := h.held q hq
  apart := h.apart
  bounded q hq k hk := Nat.le_succ_of_le (h.bounded q hq k hk)

theorem Sound.begun (h : Sound m ps) (network : Network) :
    Sound ⟨m.connection.start, ⟨m.connection.start.attempt, .asking, true⟩ :: m.handshakes⟩
      (.due (.connect m.connection.start.attempt network) ::ₘ ps) where
  held q hq := by
    rcases Multiset.mem_cons.1 hq with rfl | hq
    · rintro k ⟨⟩
      exact ⟨_, List.mem_cons_self, rfl, fun stage hs => by cases hs; rfl⟩
    · exact (h.held q hq).begun _
  apart := by
    rw [Multiset.filterMap_cons_some _ _ _ (rfl : Pending.attempt? (.due _) = some m.connection.start.attempt),
      Multiset.nodup_cons]
    refine ⟨fun hmem => ?_, h.apart⟩
    obtain ⟨q, hq, hk⟩ := (Multiset.mem_filterMap Pending.attempt? _).1 hmem
    exact absurd (h.bounded q hq _ hk) (Nat.not_succ_le_self _)
  bounded q hq k hk := by
    rcases Multiset.mem_cons.1 hq with rfl | hq
    · cases hk
      exact Nat.le_refl _
    · exact Nat.le_succ_of_le (h.bounded q hq k hk)

theorem Sound.call {s : Selector} {move : Move} (h : Sound m ps) (hcall : Call s move)
    (he : Effect m move m' requests) : Sound m' (dues requests + ps) := by
  cases hcall with
  | connect =>
    cases he with
    | start hidle => exact h.begun _
    | ignore hbusy => simpa using h
  | disconnect =>
    cases he with
    | hangUp ha => exact h.closed.cons_none rfl
    | close hstatus => simpa using h.closed
  | leave n =>
    cases he with
    | leave n =>
      rw [dues_nil]
      exact ⟨fun q hq => (h.held q hq).update (fun _ => rfl) fun _ _ => rfl, h.apart, h.bounded⟩

theorem Sound.act {report : Report} (h : Sound m (.heard report ::ₘ left)) (he : Effect m report.move m' requests) :
    Sound m' (dues requests + left) := by
  rcases he.report_cases with ⟨rfl, hawaited, phase, rfl⟩ | ⟨rfl, rfl⟩ | ⟨n, outcome, rfl, -, rfl, rfl⟩
  · rw [dues_nil]
    exact h.finish rfl (attempt_of_awaits hawaited).symm
  · rw [dues_nil]
    exact h.finish rfl rfl
  · -- the handshake that gives its session back has been found, and goes on to its second stage
    obtain ⟨x, hx, hxn, -⟩ := h.held _ (Multiset.mem_cons_self _ _) n rfl
    refine h.replace rfl rfl ?_ fun q hq => ?_
    · rintro k ⟨⟩
      refine ⟨_, List.mem_map_of_mem hx, ?_, fun stage hs => ?_⟩
      · rw [if_pos hxn]
        exact hxn
      · rw [if_pos hxn]
        cases hs
        rfl
    · exact (h.tail.held q hq).update (fun _ => rfl) fun hq' => absurd hq' (h.attempt_ne rfl hq)

theorem Advance.attempt_eq {os : List Occurrence} (h : Advance p p' os) : p'.attempt? = p.attempt? := by
  cases h with
  | make r => rfl
  | answer n network outcome => rfl
  | release n => rfl
  | breakOff hn => exact hn.symm

theorem Advance.stage_eq {os : List Occurrence} {stage : Stage} (h : Advance p p' os) (hs : p'.stage? = some stage) :
    p.stage? = some stage := by
  cases h with
  | make r => cases r <;> exact hs
  | answer n network outcome => exact hs
  | release n => exact hs
  | breakOff hn => cases hs

theorem Sound.advance {os : List Occurrence} (h : Sound m (p ::ₘ left)) (hp : Advance p p' os) :
    Sound m (p' ::ₘ left) := by
  refine h.replace hp.attempt_eq rfl (fun k hk => ?_) h.tail.held
  obtain ⟨x, hx, hxk, hxstage⟩ := h.held p (Multiset.mem_cons_self _ _) k (hp.attempt_eq ▸ hk)
  exact ⟨x, hx, hxk, fun stage hs => hxstage stage (hp.stage_eq hs)⟩

variable {w w' : World} {s : Selector}

theorem Sound.step (h : Sound w.manager w.pending) (hs : Step w w') : Sound w'.manager w'.pending := by
  cases hs with
  | call hcall => exact h.call hcall (effect_call hcall)
  | act left hw =>
    rw [hw] at h
    exact h.act (effect_report (h.held _ (Multiset.mem_cons_self _ _)))
  | advance left hw hp =>
    rw [hw] at h
    exact h.advance hp
  | disconnected left hw =>
    rw [hw] at h
    exact h.tail
  | switch network => exact h
  | sign network payload ha => exact h

/-- **What is pending in a run belongs to the manager's handshakes**, one thing to each. -/
theorem sound_of_steps (h : Steps (.start s) w) : Sound w.manager w.pending := by
  induction h with
  | refl =>
    exact ⟨fun p hp => absurd hp (Multiset.notMem_zero p), Multiset.nodup_zero,
      fun p hp => absurd hp (Multiset.notMem_zero p)⟩
  | tail _ hs ih => exact ih.step hs

/-! ## What every step keeps -/

/-- A property of the manager, of what is pending and of what has happened that holds at the start and that every kind
of step keeps. -/
structure Kept (I : Manager → Multiset Pending → List Occurrence → Prop) : Prop where
  start : I .initial 0 []
  call : ∀ {s : Selector} {m m' : Manager} {move : Move} {requests : List WalletRequest} {ps : Multiset Pending}
    {history : List Occurrence}, Sound m ps → I m ps history → Call s move → Effect m move m' requests →
    I m' (dues requests + ps) (occurrences m move ++ history)
  act : ∀ {m m' : Manager} {report : Report} {requests : List WalletRequest} {left : Multiset Pending}
    {history : List Occurrence}, Sound m (.heard report ::ₘ left) → I m (.heard report ::ₘ left) history →
    Effect m report.move m' requests → I m' (dues requests + left) (occurrences m report.move ++ history)
  advance : ∀ {m : Manager} {p p' : Pending} {os : List Occurrence} {left : Multiset Pending}
    {history : List Occurrence}, Sound m (p ::ₘ left) → I m (p ::ₘ left) history → Advance p p' os →
    I m (p' ::ₘ left) (os ++ history)
  disconnected : ∀ {m : Manager} {left : Multiset Pending} {history : List Occurrence},
    I m (.asked .disconnect ::ₘ left) history → I m left history
  sign : ∀ {m : Manager} {ps : Multiset Pending} {history : List Occurrence} {a : Account} {network : Network}
    {payload : List UInt8}, I m ps history → I m ps (.signing a network payload :: history)

variable {I : Manager → Multiset Pending → List Occurrence → Prop}

theorem Kept.step (hI : Kept I) (hsound : Sound w.manager w.pending) (h : I w.manager w.pending w.history)
    (hs : Step w w') : I w'.manager w'.pending w'.history := by
  cases hs with
  | call hcall => exact hI.call hsound h hcall (effect_call hcall)
  | act left hw =>
    rw [hw] at h hsound
    exact hI.act hsound h (effect_report (hsound.held _ (Multiset.mem_cons_self _ _)))
  | advance left hw hp =>
    rw [hw] at h hsound
    exact hI.advance hsound h hp
  | disconnected left hw =>
    rw [hw] at h
    exact hI.disconnected h
  | switch network => exact h
  | sign network payload ha => exact hI.sign h

/-- **What every step keeps holds in every run.** -/
theorem Kept.of_steps (hI : Kept I) (h : Steps (.start s) w) : I w.manager w.pending w.history := by
  induction h with
  | refl => exact hI.start
  | tail hs hstep ih => exact hI.step (sound_of_steps hs) ih hstep

/-! ## Two attempts that overlap -/

namespace Overlap

/-- The wallet is asked for an account, disconnected before it answers, and asked again. -/
def asking : World where
  manager := ⟨⟨3, .connecting⟩, [⟨3, .asking, true⟩, ⟨1, .asking, true⟩]⟩
  selector := ⟨.testnet, 0⟩
  pending := {.asked (.connect 3 .testnet), .asked (.connect 1 .testnet)}
  history := [.made (.connect 3 .testnet), .started 3, .closed ⟨1, .connecting⟩, .made (.connect 1 .testnet),
    .started 1]

/-- The wallet has answered the second request first, and is asked to release the session of the other. -/
def crossed : World where
  manager := ⟨⟨3, .connected ⟨"GB"⟩⟩, [⟨1, .releasing, true⟩]⟩
  selector := ⟨.testnet, 0⟩
  pending := {.asked (.release 1)}
  history := [.made (.release 1), .answered 1 (.ok ⟨"GA"⟩), .answered 3 (.ok ⟨"GB"⟩)] ++ asking.history

theorem steps_asking : Steps (.start ⟨.testnet, 0⟩) asking :=
  .head (.call .connect) <|
  .head (.advance 0 rfl (.make (.connect 1 .testnet))) <|
  .head (.call .disconnect) <|
  .head (.call .connect) <|
  .single (.advance {.asked (.connect 1 .testnet)} rfl (.make (.connect 3 .testnet)))

theorem steps_crossed : Steps (.start ⟨.testnet, 0⟩) crossed :=
  steps_asking.trans <|
  .head (.advance {.asked (.connect 1 .testnet)} rfl (.answer 3 .testnet (.ok ⟨"GB"⟩))) <|
  .head (.act {.asked (.connect 1 .testnet)} rfl) <|
  .head (.advance 0 rfl (.answer 1 .testnet (.ok ⟨"GA"⟩))) <|
  .head (.act 0 rfl) <|
  .single (.advance 0 rfl (.make (.release 1)))

end Overlap

end SupplyTrail.Handshakes
