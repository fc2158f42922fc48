import SupplyTrail.Proofs.Interleaving
/-!
# Course — the questions of an operation in a run

An operation comes to where it is by its own course (`goes_of_steps`), and each question of its dialogue had its grounds
in the dialogue before it, not only the one that is waiting (`asks_of_steps`).
-/
namespace SupplyTrail.Interleaving

open Client Activity
open Rehearsal (Result)

variable {σ : Type} {S : Surroundings σ} {clients : Nat → Client} {w : World σ} {id : Nat} {τ : Task σ}

/-- An operation is where some answers lead it. -/
def Task.OnCourse (clients : Nat → Client) (τ : Task σ) : Prop :=
  Goes (hearing fun _ _ => True) (τ.operation.run (clients τ.member)) [] τ.rest τ.told

/-- **Operations stay on their course**, whatever runs beside them. -/
theorem goes_of_steps {s : σ} (h : Steps S clients (.start s) w) :
    ∀ id τ, w.tasks id = some τ → τ.OnCourse clients := by
  induction h with
  | refl => exact fun i τ hτ => by cases hτ
  | @tail w₁ w₂ _ hs ih =>
    intro i τ' hτ'
    cases hs with
    | begin member op hid =>
      have hbegun : (Task.begun clients member op : Task σ).OnCourse clients := .refl
      exact tasks_update ih hbegun hτ'
    | @answer id τ q next a v hτ hrest hturn ha =>
      have hgoes : τ.OnCourse clients := ih id τ hτ
      rw [Task.OnCourse, hrest] at hgoes
      have hnext : (τ.hear ⟨q, a, w₁.around⟩ v.errands (next a)).OnCourse clients :=
        hgoes.trans (.ask a ⟨w₁.around, rfl⟩ .refl)
      exact tasks_update ih hnext hτ'
    | @serve id τ e r s hτ he hr =>
      have hserved : (τ.served e r).OnCourse clients := ih id τ hτ
      exact tasks_update ih hserved hτ'
    | other hturn hs => exact ih i τ' hτ'

/-- The state of the surroundings as an operation started: as it got its first answer. -/
def Task.start? (τ : Task σ) : Option σ := τ.told.getLast?.map Turn.moment

/-- An operation asked a question after a dialogue: it was answered, or it waits for its answer. -/
inductive Task.Asks (τ : Task σ) (d : Dialogue σ) (q : Question) : Prop
  | waiting {next : q.Answer → Run Result} (hrest : τ.rest = .ask q next) (hd : d = τ.told)
  | answered {a : q.Answer} {m : σ} (h : ⟨q, a, m⟩ :: d <:+ τ.told)

theorem Task.Asks.suffix {d : Dialogue σ} {q : Question} (h : τ.Asks d q) : d <:+ τ.told := by
  cases h with
  | waiting hrest hd => exact hd ▸ List.suffix_refl _
  | answered h => exact (List.suffix_cons _ _).trans h

/-- Each question of a dialogue was asked as it may be asked. -/
def AllAsked (asks : Dialogue σ → Question → Prop) (d : Dialogue σ) : Prop :=
  ∀ t d', t :: d' <:+ d → asks d' t.question

theorem AllAsked.cons {asks : Dialogue σ → Question → Prop} {d : Dialogue σ} {t : Turn σ} (h : AllAsked asks d)
    (ht : asks d t.question) : AllAsked asks (t :: d) := by
  intro u d' hs
  rcases List.suffix_cons_iff.1 hs with heq | hs
  · obtain ⟨rfl, rfl⟩ := List.cons.inj heq
    exact ht
  · exact h u d' hs

variable {asks : Client → Operation → Dialogue σ → Question → Prop}
  {ends : Client → Operation → Dialogue σ → Result → Prop}

/-- **Every question an operation ever asked was asked as it may ask.** -/
theorem asks_of_steps (hrun : ∀ c op, Keeps (hearing (asks c op)) (ends c op) (op.run c) []) {s : σ}
    (h : Steps S clients (.start s) w) (hτ : w.tasks id = some τ) {d : Dialogue σ} {q : Question}
    (hasks : τ.Asks d q) : asks (clients τ.member) τ.operation d q := by
  have hkeep : Keeping clients (fun c op d q => asks c op d q ∧ AllAsked (asks c op) d)
      (fun c op d r => ends c op d r ∧ AllAsked (asks c op) d) τ := by
    refine keeping_of_steps (fun c op => ?_) h id τ hτ
    refine (hrun c op).within (AllAsked (asks c op)) (fun t d' hs => by cases List.suffix_nil.1 hs) ?_
    rintro q d a d' hask ⟨m, rfl⟩ hd
    exact hd.cons hask
  cases hasks with
  | waiting hrest hd => exact hd ▸ (hkeep.asked hrest).1
  | answered hs =>
    cases hrest : τ.rest with
    | done r => exact (hkeep.ended hrest).2 _ d hs
    | ask q' next => exact (hkeep.asked hrest).2 _ d hs

end SupplyTrail.Interleaving
