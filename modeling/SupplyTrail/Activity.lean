/-!
# Activities

An activity is a finite dialogue: it asks its surroundings one thing after another, each question chosen by the
answers before it, and ends in a value.  A `Signature` says what can be asked and what type of answer each question
has.  Nothing is said about when an answer comes, so one activity runs alone or among others, answered at once or
late.
-/
namespace SupplyTrail

/-- What can be asked, and the type of each answer. -/
structure Signature where
  Ask : Type
  Answer : Ask → Type

inductive Activity (S : Signature) (α : Type) where
  | done (value : α)
  | ask (question : S.Ask) (next : S.Answer question → Activity S α)

namespace Activity

variable {S : Signature} {α β γ : Type}

/-- Go on with another activity once the value is there. -/
def andThen : Activity S α → (α → Activity S β) → Activity S β
  | .done a, f => f a
  | .ask q next, f => .ask q fun answer => (next answer).andThen f

instance : Monad (Activity S) where
  pure := .done
  bind := andThen

def query (q : S.Ask) : Activity S (S.Answer q) := .ask q .done

theorem andThen_done (x : Activity S α) : x.andThen .done = x := by
  induction x with
  | done a => rfl
  | ask q next ih => simp only [andThen, ih]

theorem andThen_assoc (x : Activity S α) (f : α → Activity S β) (g : β → Activity S γ) :
    (x.andThen f).andThen g = x.andThen fun a => (f a).andThen g := by
  induction x with
  | done a => rfl
  | ask q next ih => simp only [andThen, ih]

instance : LawfulMonad (Activity S) :=
  LawfulMonad.mk' (Activity S) andThen_done (fun _ _ => rfl) andThen_assoc

/-- Answer every question from a state, in order. -/
def runState {σ : Type} (answer : (q : S.Ask) → σ → S.Answer q × σ) : Activity S α → σ → α × σ
  | .done a, s => (a, s)
  | .ask q next, s => (next (answer q s).1).runState answer (answer q s).2

/-- Answer every question by effects of a monad. -/
def runIn {m : Type → Type} [Monad m] (answer : (q : S.Ask) → m (S.Answer q)) : Activity S α → m α
  | .done a => pure a
  | .ask q next => do (next (← answer q)).runIn answer

end Activity

end SupplyTrail
