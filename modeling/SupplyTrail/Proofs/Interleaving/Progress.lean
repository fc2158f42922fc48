import SupplyTrail.Proofs.Interleaving
/-!
# Progress — no operation is ever stuck

Where every question has an answer, an operation that was begun can be brought to its end from wherever it stands.  Its
process answers once the operation whose turn it is has asked outside again, and a query that it waits for is out.  The
answers that bring it there may be chosen: those of surroundings that do only what the ones before might have done.
-/
namespace SupplyTrail.Interleaving

open Client Activity
open Rehearsal (Result)
open Relation (ReflTransGen)

variable {σ : Type} {S S' : Surroundings σ} {clients : Nat → Client} {w w' : World σ} {id : Nat} {τ τ' : Task σ}

/-! ## Surroundings that do less -/

/-- Whatever the first surroundings do the second might do. -/
structure Within (S' S : Surroundings σ) : Prop where
  parallel : S'.parallel → S.parallel
  own : ∀ {q s a}, S'.own q s a → S.own q s a
  away : ∀ {q s a s'}, S'.away q s a s' → S.away q s a s'
  other : ∀ {s s'}, S'.other s s' → S.other s s'

theorem Within.answered (h : Within S' S) {q : Question} {v v' : View σ} {a : q.Answer} (ha : Answered S' q v a v') :
    Answered S q v a v' := by
  cases q with
  | own q =>
    cases q with
    | lastSeen p => exact ha
    | remember p t => exact ha
    | note line => exact ha
    | activeNetwork => exact ⟨h.own ha.1, ha.2⟩
    | clock => exact ⟨h.own ha.1, ha.2⟩
    | account => exact ⟨h.own ha.1, ha.2⟩
    | nonce => exact ⟨h.own ha.1, ha.2⟩
  | away q =>
    cases q with
    | settle first others => exact ha
    | fetch t url call =>
      cases a with
      | none => exact ha
      | some r => exact ha.imp fun _ hs => ⟨h.away hs.1, hs.2⟩
    | sign account network payload => exact ha.imp fun _ hs => ⟨h.away hs.1, hs.2⟩
    | query url call => exact ha.imp fun _ hs => ⟨h.away hs.1, hs.2⟩
    | submit url e => exact ha.imp fun _ hs => ⟨h.away hs.1, hs.2⟩
    | health url => exact ha.imp fun _ hs => ⟨h.away hs.1, hs.2⟩

theorem Within.mayRun (h : Within S' S) {q : Question} (hturn : MayRun S' w id q) : MayRun S w id q := by
  cases q with
  | own q => exact hturn.imp_left h.parallel
  | away q => trivial

theorem Within.step (h : Within S' S) (hs : Step S' clients w w') : Step S clients w w' := by
  cases hs with
  | begin member op hid => exact .begin member op hid
  | answer hτ hrest hturn ha => exact .answer hτ hrest (h.mayRun hturn) (h.answered ha)
  | serve hτ he hr => exact .serve hτ he (h.away hr)
  | other hturn hs => exact .other (hturn.imp_left h.parallel) (h.other hs)

/-- **What happens in the first surroundings might happen in the second.** -/
theorem Within.steps (h : Within S' S) (hs : Steps S' clients w w') : Steps S clients w w' :=
  ReflTransGen.mono (fun _ _ => h.step) _ _ hs

/-! ## Answers -/

structure Answering (S : Surroundings σ) : Prop where
  own : ∀ q s, ∃ a, S.own q s a
  away : ∀ q s, ∃ a s', S.away q s a s'

/-! ## Turns end -/

/-- The operation whose turn it is asks its process. -/
def TurnUsed (w : World σ) : Prop := ∀ id, w.running = some id → ∃ τ, w.tasks id = some τ ∧ asksOwn τ.rest = true

theorem TurnUsed.step (h : TurnUsed w) (hs : Step S clients w w') : TurnUsed w' := by
  intro i hi
  cases hs with
  | @begin id member op hid =>
    obtain ⟨τ, hτ, hasks⟩ := h i hi
    have hne : i ≠ id := fun he => by rw [he, hid] at hτ; cases hτ
    exact ⟨τ, (Function.update_of_ne hne _ _).trans hτ, hasks⟩
  | @answer id τ q next a v hτ hrest hturn ha =>
    cases q with
    | own q =>
      change (if asksOwn (next a) then some id else none) = some i at hi
      split at hi
      · rename_i hasks
        cases hi
        exact ⟨_, Function.update_self _ _ _, hasks⟩
      · cases hi
    | away q =>
      obtain ⟨τ₁, hτ₁, hasks⟩ := h i hi
      have hne : i ≠ id := fun he => by
        rw [he, hτ] at hτ₁
        cases hτ₁
        rw [hrest] at hasks
        cases hasks
      exact ⟨τ₁, (Function.update_of_ne hne _ _).trans hτ₁, hasks⟩
  | @serve id τ e r s hτ he hr =>
    obtain ⟨τ₁, hτ₁, hasks⟩ := h i hi
    by_cases hne : i = id
    · subst hne
      rw [hτ] at hτ₁
      cases hτ₁
      exact ⟨_, Function.update_self _ _ _, hasks⟩
    · exact ⟨τ₁, (Function.update_of_ne hne _ _).trans hτ₁, hasks⟩
  | other hturn hs => exact h i hi

theorem turnUsed_of_steps {s : σ} (h : Steps S clients (.start s) w) : TurnUsed w := by
  induction h with
  | refl => exact fun _ h => by cases h
  | tail _ hs ih => exact ih.step hs

theorem Answering.answered (hS : Answering S) (q : Own) (v : View σ) : ∃ a v', Answered S (.own q) v a v' := by
  cases q with
  | lastSeen p => exact ⟨_, _, rfl, rfl⟩
  | remember p t => exact ⟨(), _, rfl⟩
  | note line => exact ⟨(), _, rfl⟩
  | activeNetwork =>
    obtain ⟨a, ha⟩ := hS.own .activeNetwork v.around
    exact ⟨a, _, ha, rfl⟩
  | clock =>
    obtain ⟨a, ha⟩ := hS.own .clock v.around
    exact ⟨a, _, ha, rfl⟩
  | account =>
    obtain ⟨a, ha⟩ := hS.own .account v.around
    exact ⟨a, _, ha, rfl⟩
  | nonce =>
    obtain ⟨a, ha⟩ := hS.own .nonce v.around
    exact ⟨a, _, ha, rfl⟩

/-- **A turn ends**: the operation that has it can be answered until it asks outside, and the others do not change. -/
theorem exists_free (hS : Answering S) : ∀ (x : Run Result) (w : World σ) (id : Nat) (τ : Task σ), TurnUsed w →
    w.running = some id → w.tasks id = some τ → τ.rest = x →
    ∃ w', Steps S clients w w' ∧ w'.running = none ∧ ∀ i, i ≠ id → w'.tasks i = w.tasks i := by
  intro x
  induction x with
  | done r =>
    intro w id τ hused hrun hτ hrest
    obtain ⟨τ', hτ', hasks⟩ := hused id hrun
    rw [hτ] at hτ'
    cases hτ'
    rw [hrest] at hasks
    cases hasks
  | ask q next ih =>
    intro w id τ hused hrun hτ hrest
    cases q with
    | away q =>
      obtain ⟨τ', hτ', hasks⟩ := hused id hrun
      rw [hτ] at hτ'
      cases hτ'
      rw [hrest] at hasks
      cases hasks
    | own q =>
      obtain ⟨a, v, ha⟩ := hS.answered q (w.view τ)
      have hstep : Step S clients w (w.answer id τ (.own q) a v (next a)) := .answer hτ hrest (.inr (.inr hrun)) ha
      have hothers : ∀ i, i ≠ id → (w.answer id τ (.own q) a v (next a)).tasks i = w.tasks i := fun i hi =>
        Function.update_of_ne hi _ _
      by_cases hasks : asksOwn (next a) = true
      · obtain ⟨w', hs, hfree, hsame⟩ := ih a (w.answer id τ (.own q) a v (next a)) id _ (hused.step hstep)
          (if_pos hasks)
          (Function.update_self _ _ _) rfl
        exact ⟨w', .head hstep hs, hfree, fun i hi => (hsame i hi).trans (hothers i hi)⟩
      · exact ⟨_, .single hstep, if_neg hasks, hothers⟩

/-! ## Queries are out -/

/-- Every query that an operation left out is among its errands. -/
def AllOut (w : World σ) : Prop := ∀ id τ, w.tasks id = some τ → ∀ t url call,
  Told τ.told (.away (.fetch t url call)) none → ∃ e ∈ τ.errands, e.ticket = t

theorem AllOut.step (h : AllOut w) (hs : Step S clients w w') : AllOut w' := by
  intro i τ' hτ' t url call htold
  cases hs with
  | begin member op hid =>
    rcases update_cases hτ' with ⟨-, rfl⟩ | ⟨-, hτ'⟩
    · obtain ⟨m, hm⟩ := htold
      cases hm
    · exact h i τ' hτ' t url call htold
  | @answer id τ q next a v hτ hrest hturn ha =>
    rcases update_cases hτ' with ⟨-, rfl⟩ | ⟨-, hτ'⟩
    · exact errand_of_told (h id τ hτ) ha t url call htold
    · exact h i τ' hτ' t url call htold
  | @serve id τ e r s hτ he hr =>
    rcases update_cases hτ' with ⟨-, rfl⟩ | ⟨-, hτ'⟩
    · obtain ⟨e', he', ht⟩ := h id τ hτ t url call htold
      exact ⟨e', List.mem_cons_of_mem _ he', ht⟩
    · exact h i τ' hτ' t url call htold
  | other hturn hs => exact h i τ' hτ' t url call htold

theorem allOut_of_steps {s : σ} (h : Steps S clients (.start s) w) : AllOut w := by
  induction h with
  | refl => exact fun _ _ h => by cases h
  | tail _ hs ih => exact ih.step hs

theorem exists_errand {s : σ} (h : Steps S clients (.start s) w) (hτ : w.tasks id = some τ) {first : Ticket}
    {others : List Ticket} {next : { t : Ticket // t ∈ first :: others } × Reading → Run Result}
    (hrest : τ.rest = .ask (.away (.settle first others)) next) : ∃ e ∈ τ.errands, e.ticket = first := by
  have hsent := ((allConducted_of_steps h id τ hτ).warrant hrest).sent
  exact allOut_of_steps h id τ hτ first _ _ hsent

/-! ## Operations end -/

/-- An operation that asks its own process is answered, if need be after the turn of another one. -/
theorem exists_answer_own (hS : Answering S') {s : σ} (h : Steps S clients (.start s) w) (hτ : w.tasks id = some τ)
    {q : Own} {next : q.Answer → Run Result} (hrest : τ.rest = .ask (.own q) next) :
    ∃ w' τ' a, Steps S' clients w w' ∧ w'.tasks id = some τ' ∧ τ'.rest = next a := by
  obtain ⟨w₁, hs₁, hturn, hτ₁⟩ : ∃ w₁, Steps S' clients w w₁ ∧ (w₁.running = none ∨ w₁.running = some id) ∧
      w₁.tasks id = some τ := by
    cases hrun : w.running with
    | none => exact ⟨w, .refl, .inl hrun, hτ⟩
    | some j =>
      by_cases hj : id = j
      · exact ⟨w, .refl, .inr (hj ▸ hrun), hτ⟩
      · -- another operation has the turn: it goes on until it asks outside
        obtain ⟨τ₁, hτ₁, -⟩ := turnUsed_of_steps h j hrun
        obtain ⟨w₁, hs₁, hfree, hsame⟩ := exists_free hS τ₁.rest w j τ₁ (turnUsed_of_steps h) hrun hτ₁ rfl
        exact ⟨w₁, hs₁, .inl hfree, (hsame id hj).trans hτ⟩
  obtain ⟨a, v, ha⟩ := hS.answered q (w₁.view τ)
  exact ⟨_, _, a, hs₁.tail (.answer hτ₁ hrest (.inr hturn) ha), Function.update_self _ _ _, rfl⟩

/-- An operation that asks outside is answered, if it waits for queries once the first of them has its reading. -/
theorem exists_answer_away (hS : Answering S') {s : σ} (h : Steps S clients (.start s) w) (hτ : w.tasks id = some τ)
    {q : Away} {next : q.Answer → Run Result} (hrest : τ.rest = .ask (.away q) next) :
    ∃ w' τ' a, Steps S' clients w w' ∧ w'.tasks id = some τ' ∧ τ'.rest = next a := by
  have answer : ∀ (a : q.Answer) (v : View σ), Answered S' (.away q) (w.view τ) a v →
      ∃ w' τ' a, Steps S' clients w w' ∧ w'.tasks id = some τ' ∧ τ'.rest = next a := fun a v ha =>
    ⟨_, _, a, .single (.answer hτ hrest trivial ha), Function.update_self _ _ _, rfl⟩
  cases q with
  | sign account network payload =>
    obtain ⟨a, s', ha⟩ := hS.away (.sign account network payload) w.around
    exact answer a { w.view τ with around := s' } ⟨s', ha, rfl⟩
  | query url call =>
    obtain ⟨a, s', ha⟩ := hS.away (.query url call) w.around
    exact answer a { w.view τ with around := s' } ⟨s', ha, rfl⟩
  | submit url e =>
    obtain ⟨a, s', ha⟩ := hS.away (.submit url e) w.around
    exact answer a { w.view τ with around := s' } ⟨s', ha, rfl⟩
  | health url =>
    obtain ⟨a, s', ha⟩ := hS.away (.health url) w.around
    exact answer a { w.view τ with around := s' } ⟨s', ha, rfl⟩
  | fetch t url call => exact answer none { w.view τ with errands := ⟨t, url, call, none⟩ :: τ.errands } rfl
  | settle first others =>
    obtain ⟨e, he, hticket⟩ := exists_errand h hτ hrest
    obtain ⟨r, s', hr⟩ := hS.away (.query e.url e.call) w.around
    have hserve : Step S' clients w (w.serve id τ e r s') := .serve hτ he hr
    have hτ₁ : (w.serve id τ e r s').tasks id = some (τ.served e r) := Function.update_self _ _ _
    have hanswer : Step S' clients (w.serve id τ e r s') ((w.serve id τ e r s').answer id (τ.served e r)
        (.away (.settle first others)) (⟨first, List.mem_cons_self⟩, r) _ (next (⟨first, List.mem_cons_self⟩, r))) :=
      .answer hτ₁ hrest trivial ⟨⟨_, List.mem_cons_self, hticket, rfl⟩, rfl⟩
    exact ⟨_, _, _, .head hserve (.single hanswer), Function.update_self _ _ _, rfl⟩

/-- **An operation can be brought to its end** from wherever it stands, with answers of surroundings that do less. -/
theorem exists_done (hS : Answering S') (hless : Within S' S) {s : σ} : ∀ (x : Run Result) (w : World σ) (τ : Task σ),
    Steps S clients (.start s) w → w.tasks id = some τ → τ.rest = x →
    ∃ w' τ' r, Steps S' clients w w' ∧ w'.tasks id = some τ' ∧ τ'.rest = .done r := by
  intro x
  induction x with
  | done r => exact fun w τ h hτ hrest => ⟨w, τ, r, .refl, hτ, hrest⟩
  | ask q next ih =>
    intro w τ h hτ hrest
    obtain ⟨w₁, τ₁, a, hs₁, hτ₁, hrest₁⟩ :
        ∃ w₁ τ₁ a, Steps S' clients w w₁ ∧ w₁.tasks id = some τ₁ ∧ τ₁.rest = next a := by
      cases q with
      | own q => exact exists_answer_own hS h hτ hrest
      | away q => exact exists_answer_away hS h hτ hrest
    obtain ⟨w', τ', r, hs, hτ', hdone⟩ := ih a w₁ τ₁ (h.trans (hless.steps hs₁)) hτ₁ hrest₁
    exact ⟨w', τ', r, hs₁.trans hs, hτ', hdone⟩

end SupplyTrail.Interleaving
