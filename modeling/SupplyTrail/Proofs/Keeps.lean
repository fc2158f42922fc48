import Mathlib.Logic.Function.Basic
import SupplyTrail.Activity
/-!
# Keeps — what holds along every dialogue of an activity

`Rules` say what may be asked in a state and how it may be answered.  An activity keeps them if it asks only what it
may, whatever the answers are, and ends as it should.  One rule for each way of building an activity; a simulation
carries what is kept from one kind of state to another.
-/
namespace SupplyTrail

/-- What may be asked in a state, and which answers lead to which states. -/
structure Rules (S : Signature) (σ : Type) where
  asks : σ → S.Ask → Prop
  answers : (q : S.Ask) → σ → S.Answer q → σ → Prop

namespace Activity

variable {S : Signature} {σ τ α β ε : Type}

/-- From a state on, an activity asks only what it may, and ends in a state and a value that fit. -/
def Keeps (R : Rules S σ) (ends : σ → α → Prop) : Activity S α → σ → Prop
  | .done a, s => ends s a
  | .ask q next, s => R.asks s q ∧ ∀ (a : S.Answer q) (t : σ), R.answers q s a t → Keeps R ends (next a) t

variable {R : Rules S σ} {ends ends' : σ → α → Prop}

theorem Keeps.mono {x : Activity S α} {s : σ} (h : Keeps R ends x s) (himp : ∀ t a, ends t a → ends' t a) :
    Keeps R ends' x s := by
  induction x generalizing s with
  | done a => exact himp s a h
  | ask q next ih => exact ⟨h.1, fun a t hat => ih a (h.2 a t hat)⟩

theorem Keeps.weaken {Q : Rules S σ} {x : Activity S α} {s : σ} (h : Keeps R ends x s)
    (hasks : ∀ t q, R.asks t q → Q.asks t q) (hans : ∀ q t a u, Q.answers q t a u → R.answers q t a u) :
    Keeps Q ends x s := by
  induction x generalizing s with
  | done a => exact h
  | ask q next ih => exact ⟨hasks s q h.1, fun a t hat => ih a (h.2 a t (hans q s a t hat))⟩

/-- **One activity after another**: the second starts wherever the first may end. -/
theorem Keeps.bind {x : Activity S β} {f : β → Activity S α} {M : σ → β → Prop} {s : σ} (h : Keeps R M x s)
    (hf : ∀ t b, M t b → Keeps R ends (f b) t) : Keeps R ends (x >>= f) s := by
  induction x generalizing s with
  | done b => exact hf s b h
  | ask q next ih => exact ⟨h.1, fun a t hat => ih a (h.2 a t hat)⟩

/-- A fact that every answer preserves holds at every question and at the end. -/
theorem Keeps.within {x : Activity S α} {s : σ} (I : σ → Prop) (h : Keeps R ends x s) (hI : I s)
    (step : ∀ q s a t, R.asks s q → R.answers q s a t → I s → I t) :
    Keeps ⟨fun s q => R.asks s q ∧ I s, R.answers⟩ (fun t a => ends t a ∧ I t) x s := by
  induction x generalizing s with
  | done a => exact ⟨h, hI⟩
  | ask q next ih => exact ⟨⟨h.1, hI⟩, fun a t hat => ih a (h.2 a t hat) (step q s a t h.1 hat hI)⟩

theorem Keeps.frame {x : Activity S α} {s : σ} (I : σ → Prop) (h : Keeps R ends x s) (hI : I s)
    (step : ∀ q s a t, R.asks s q → R.answers q s a t → I s → I t) : Keeps R (fun t a => ends t a ∧ I t) x s :=
  (h.within I hI step).weaken (fun _ _ hask => hask.1) fun _ _ _ _ hans => hans

/-- **Simulation**: what is kept over one kind of state is kept over another whose answers it follows. -/
theorem Keeps.simulate {Q : Rules S τ} {x : Activity S α} {s : σ} {t : τ} (sim : σ → τ → Prop) (h : Keeps R ends x s)
    (hs : sim s t) (hasks : ∀ s t q, sim s t → R.asks s q → Q.asks t q)
    (step : ∀ q s t a t', sim s t → R.asks s q → Q.answers q t a t' → ∃ s', R.answers q s a s' ∧ sim s' t') :
    Keeps Q (fun t a => ∃ s, sim s t ∧ ends s a) x t := by
  induction x generalizing s t with
  | done a => exact ⟨s, hs, h⟩
  | ask q next ih =>
    refine ⟨hasks s t q hs h.1, fun a t' hat => ?_⟩
    obtain ⟨s', hsa, hs'⟩ := step q s t a t' hs h.1 hat
    exact ih a (h.2 a s' hsa) hs'

/-! ## Activities that may fail -/

/-- **One fallible activity after another**: a failure of the first is the failure of both. -/
theorem Keeps.bindOp {x : ExceptT ε (Activity S) β} {f : β → ExceptT ε (Activity S) α} {ends : σ → Except ε α → Prop}
    {M : σ → Except ε β → Prop} {s : σ} (h : Keeps R M x.run s)
    (hok : ∀ t b, M t (.ok b) → Keeps R ends (f b).run t) (herror : ∀ t e, M t (.error e) → ends t (.error e)) :
    Keeps R ends (x >>= f).run s := by
  rw [ExceptT.run_bind]
  refine h.bind fun t b hb => ?_
  cases b with
  | ok b => exact hok t b hb
  | error e => exact herror t e hb

theorem Keeps.bindRun {x : Activity S β} {f : β → ExceptT ε (Activity S) α} {ends : σ → Except ε α → Prop}
    {M : σ → β → Prop} {s : σ} (h : Keeps R M x s) (hf : ∀ t b, M t b → Keeps R ends (f b).run t) :
    Keeps R ends ((liftM x : ExceptT ε (Activity S) β) >>= f).run s := by
  rw [show (liftM x : ExceptT ε (Activity S) β) = ExceptT.lift x from rfl, ExceptT.run_bind_lift]
  exact h.bind hf

/-! ## Dialogues that take place -/

/-- An activity may end in this value and this state. -/
def Yields (R : Rules S σ) : Activity S α → σ → α → σ → Prop
  | .done a, s, b, t => b = a ∧ t = s
  | .ask q next, s, b, t => ∃ (a : S.Answer q) (r : σ), R.answers q s a r ∧ Yields R (next a) r b t

theorem Keeps.yields {x : Activity S α} {s t : σ} {a : α} (h : Keeps R ends x s) (hy : Yields R x s a t) :
    ends t a := by
  induction x generalizing s with
  | done b => obtain ⟨rfl, rfl⟩ := hy; exact h
  | ask q next ih =>
    obtain ⟨b, r, hbr, hy⟩ := hy
    exact ih b (h.2 b r hbr) hy

theorem Yields.mono {Q : Rules S σ} {x : Activity S α} {s t : σ} {a : α} (h : Yields R x s a t)
    (hans : ∀ q s a t, R.answers q s a t → Q.answers q s a t) : Yields Q x s a t := by
  induction x generalizing s with
  | done b => exact h
  | ask q next ih =>
    obtain ⟨b, r, hbr, hy⟩ := h
    exact ⟨b, r, hans q s b r hbr, ih b hy⟩

/-- **A way to end is followed** over another kind of state in which each of its answers can be given. -/
theorem Yields.follow {Q : Rules S τ} {x : Activity S α} {s : σ} {t t' : τ} {a : α} (sim : σ → τ → Prop)
    (h : Yields Q x t a t') (hs : sim s t)
    (step : ∀ q s t a t', sim s t → Q.answers q t a t' → ∃ s', R.answers q s a s' ∧ sim s' t') :
    ∃ s', Yields R x s a s' ∧ sim s' t' := by
  induction x generalizing s t with
  | done b =>
    obtain ⟨rfl, rfl⟩ := h
    exact ⟨s, ⟨rfl, rfl⟩, hs⟩
  | ask q next ih =>
    obtain ⟨b, r, hbr, hy⟩ := h
    obtain ⟨s₁, hbs, hs₁⟩ := step q s t b r hs hbr
    obtain ⟨s', hy', hs'⟩ := ih b hy hs₁
    exact ⟨s', ⟨b, s₁, hbs, hy'⟩, hs'⟩

/-- **An activity comes to its end** if whatever it may ask is answered somehow. -/
theorem Keeps.exists_yields {x : Activity S α} {s : σ} (h : Keeps R ends x s)
    (hans : ∀ s q, R.asks s q → ∃ a t, R.answers q s a t) : ∃ a t, Yields R x s a t := by
  induction x generalizing s with
  | done a => exact ⟨a, s, rfl, rfl⟩
  | ask q next ih =>
    obtain ⟨b, r, hbr⟩ := hans s q h.1
    obtain ⟨a, t, hy⟩ := ih b (h.2 b r hbr)
    exact ⟨a, t, b, r, hbr, hy⟩

/-- An activity may come from here to there with some answers. -/
inductive Goes (R : Rules S σ) : Activity S α → σ → Activity S α → σ → Prop
  | refl {x : Activity S α} {s : σ} : Goes R x s x s
  | ask {q : S.Ask} {next : S.Answer q → Activity S α} {y : Activity S α} {s t u : σ} (a : S.Answer q)
      (h : R.answers q s a t) (hgoes : Goes R (next a) t y u) : Goes R (.ask q next) s y u

theorem Goes.trans {x y z : Activity S α} {s t u : σ} (h : Goes R x s y t) (h' : Goes R y t z u) : Goes R x s z u := by
  induction h with
  | refl => exact h'
  | ask a ha _ ih => exact .ask a ha (ih h')

theorem Goes.mono {Q : Rules S σ} {x y : Activity S α} {s t : σ} (h : Goes R x s y t)
    (hans : ∀ q s a t, R.answers q s a t → Q.answers q s a t) : Goes Q x s y t := by
  induction h with
  | refl => exact .refl
  | ask a ha _ ih => exact .ask a (hans _ _ a _ ha) ih

/-- An activity goes on as it does alone when another one follows. -/
theorem Goes.before {x y : Activity S β} (f : β → Activity S α) {s t : σ} (h : Goes R x s y t) :
    Goes R (x >>= f) s (y >>= f) t := by
  induction h with
  | refl => exact .refl
  | ask a ha _ ih => exact .ask a ha ih

theorem Goes.bind {x : Activity S β} {f : β → Activity S α} {b : β} {y : Activity S α} {s t u : σ}
    (h : Goes R x s (.done b) t) (hf : Goes R (f b) t y u) : Goes R (x >>= f) s y u :=
  (h.before f).trans hf

theorem Keeps.goes {Q : Rules S σ} {x y : Activity S α} {s t : σ} (h : Keeps R ends x s) (hgoes : Goes Q x s y t)
    (hans : ∀ q s a t, Q.answers q s a t → R.answers q s a t) : Keeps R ends y t := by
  induction hgoes with
  | refl => exact h
  | ask a ha _ ih => exact ih (h.2 a _ (hans _ _ a _ ha))

theorem Goes.bindOp {x : ExceptT ε (Activity S) β} {f : β → ExceptT ε (Activity S) α} {b : β}
    {y : Activity S (Except ε α)} {s t u : σ} (h : Goes R x.run s (.done (.ok b)) t) (hf : Goes R (f b).run t y u) :
    Goes R (x >>= f).run s y u := by
  rw [ExceptT.run_bind]
  exact h.bind hf

theorem Goes.bindOp_error {x : ExceptT ε (Activity S) β} {f : β → ExceptT ε (Activity S) α} {e : ε} {s t : σ}
    (h : Goes R x.run s (.done (.error e)) t) : Goes R (x >>= f).run s (.done (.error e)) t := by
  rw [ExceptT.run_bind]
  exact h.bind .refl

theorem Goes.bindRun {x : Activity S β} {f : β → ExceptT ε (Activity S) α} {b : β} {y : Activity S (Except ε α)}
    {s t u : σ} (h : Goes R x s (.done b) t) (hf : Goes R (f b).run t y u) :
    Goes R ((liftM x : ExceptT ε (Activity S) β) >>= f).run s y u := by
  rw [show (liftM x : ExceptT ε (Activity S) β) = ExceptT.lift x from rfl, ExceptT.run_bind_lift]
  exact h.bind hf

theorem Goes.done_cases {a : α} {y : Activity S α} {s t : σ} (h : Goes R (.done a) s y t) : y = .done a ∧ t = s := by
  cases h
  exact ⟨rfl, rfl⟩

/-- **Where one activity after another may be**: still in the first, which asks something, or in the second. -/
theorem Goes.of_bind {x : Activity S β} {f : β → Activity S α} {y : Activity S α} {s u : σ}
    (h : Goes R (x >>= f) s y u) :
    (∃ q next, Goes R x s (.ask q next) u ∧ y = .ask q fun a => next a >>= f) ∨
      ∃ b t, Goes R x s (.done b) t ∧ Goes R (f b) t y u := by
  induction x generalizing s with
  | done b => exact .inr ⟨b, s, .refl, h⟩
  | ask q next ih =>
    change Goes R (.ask q fun a => next a >>= f) s y u at h
    cases h with
    | refl => exact .inl ⟨q, next, .refl, rfl⟩
    | ask a ha h =>
      rcases ih a h with ⟨q', next', hx, hy⟩ | ⟨b, t, hx, hf⟩
      · exact .inl ⟨q', next', .ask a ha hx, hy⟩
      · exact .inr ⟨b, t, .ask a ha hx, hf⟩

theorem Goes.of_bindOp {x : ExceptT ε (Activity S) β} {f : β → ExceptT ε (Activity S) α} {y : Activity S (Except ε α)}
    {s u : σ} (h : Goes R (x >>= f).run s y u) :
    (∃ q next, Goes R x.run s (.ask q next) u ∧ ∃ next', y = .ask q next') ∨
      (∃ e, Goes R x.run s (.done (.error e)) u ∧ y = .done (.error e)) ∨
      ∃ b t, Goes R x.run s (.done (.ok b)) t ∧ Goes R (f b).run t y u := by
  rw [ExceptT.run_bind] at h
  rcases h.of_bind with ⟨q, next, hx, hy⟩ | ⟨b, t, hx, hf⟩
  · exact .inl ⟨q, next, hx, _, hy⟩
  · cases b with
    | error e =>
      obtain ⟨rfl, rfl⟩ := hf.done_cases
      exact .inr (.inl ⟨e, hx, rfl⟩)
    | ok b => exact .inr (.inr ⟨b, t, hx, hf⟩)

theorem Goes.of_bindRun {x : Activity S β} {f : β → ExceptT ε (Activity S) α} {y : Activity S (Except ε α)} {s u : σ}
    (h : Goes R ((liftM x : ExceptT ε (Activity S) β) >>= f).run s y u) :
    (∃ q next, Goes R x s (.ask q next) u ∧ ∃ next', y = .ask q next') ∨
      ∃ b t, Goes R x s (.done b) t ∧ Goes R (f b).run t y u := by
  rw [show (liftM x : ExceptT ε (Activity S) β) = ExceptT.lift x from rfl, ExceptT.run_bind_lift] at h
  rcases h.of_bind with ⟨q, next, hx, hy⟩ | ⟨b, t, hx, hf⟩
  · exact .inl ⟨q, next, hx, _, hy⟩
  · exact .inr ⟨b, t, hx, hf⟩

/-- What holds at every question and at the end holds wherever answers lead. -/
theorem Keeps.at {Q : Rules S σ} {I : σ → Prop} {x y : Activity S α} {s t : σ} (h : Keeps R ends x s)
    (hgoes : Goes Q x s y t) (hans : ∀ q s a t, Q.answers q s a t → R.answers q s a t)
    (hasks : ∀ s q, R.asks s q → I s) (hends : ∀ s a, ends s a → I s) : I t := by
  have hy := h.goes hgoes hans
  cases y with
  | done a => exact hends t a hy
  | ask q next => exact hasks t q hy.1

end Activity

/-! ## Activities that run as tasks -/

variable {γ : Type} {tasks : Nat → Option γ} {id i : Nat} {τ τ' : γ}

theorem update_cases (h : Function.update tasks id (some τ) i = some τ') :
    (i = id ∧ τ' = τ) ∨ (i ≠ id ∧ tasks i = some τ') := by
  by_cases hi : i = id
  · subst hi
    rw [Function.update_self] at h
    exact .inl ⟨rfl, (Option.some.inj h).symm⟩
  · rw [Function.update_of_ne hi] at h
    exact .inr ⟨hi, h⟩

theorem tasks_update {P : γ → Prop} (h : ∀ i τ', tasks i = some τ' → P τ') (hτ : P τ)
    (h' : Function.update tasks id (some τ) i = some τ') : P τ' := by
  rcases update_cases h' with ⟨-, rfl⟩ | ⟨-, h'⟩
  · exact hτ
  · exact h i τ' h'

end SupplyTrail
