import SupplyTrail.Proofs.Interleaving.Course
import SupplyTrail.Proofs.Product.Limits
import SupplyTrail.Proofs.SingleShot
/-!
# Registration — refused input is input that the details' own check refuses

A registration checks the details first and then the event that it makes of them, which cannot fail any more.  So past
the network check it is refused for its input exactly if the details are, whatever else happens while it runs.
-/
namespace SupplyTrail

namespace Client

open Activity

variable {σ α : Type} {c : Client} {d d' : Dialogue σ} {details : ProductDetails} {e : InputError}

/-- Refused details end a registration right after the network check. -/
theorem keeps_register_refused (hcheck : details.check = .error e) :
    Keeps (hearing (NetworkAsks c []))
      (fun d' (r : Except ClientError ProductId) =>
        r = .error (.invalidInput e) ∨ ∃ active, NetworkRefused c active [] d')
      (c.register details).run ([] : Dialogue σ) := by
  unfold register
  refine Keeps.bindOp keeps_checkNetwork_asks (fun d₁ _ _ => ?_)
    fun d₁ _ ⟨_, active, hrefused, _⟩ => .inr ⟨active, hrefused⟩
  rw [hcheck]
  exact .inl rfl

/-- Accepted details are never the fault of a registration. -/
theorem keeps_register_accepted (hcheck : details.check = .ok ()) :
    Keeps (hearing MaySend) (fun _ (r : Except ClientError ProductId) => ∀ e, r ≠ .error (.invalidInput e))
      (c.register details).run ([] : Dialogue σ) := by
  unfold register
  refine Keeps.bindOp keeps_checkNetwork_calm (fun d₁ _ ⟨_, hnet⟩ => ?_)
    fun d₁ _ ⟨_, active, _, he⟩ e h => by cases he; cases h
  have hd₁ : Idle d₁ := hnet.idle idle_nil
  rw [hcheck]
  refine Keeps.bindOp (keeps_checked (.ok ())) (fun d₂ _ ⟨h₂, _⟩ => ?_) fun d₂ _ ⟨_, he⟩ => by cases he
  refine Keeps.bindRun (M := fun d₃ time => ∃ n, d₃ = ⟨.own .clock, time, n⟩ :: d₂)
    (keeps_own (.own _) fun _ n => ⟨n, rfl⟩) fun d₃ time ⟨n, h₃⟩ => ?_
  subst h₂ h₃
  rw [ProductDetails.check_registerEvent hcheck time]
  refine Keeps.bindOp (keeps_checked (.ok _)) (fun d₄ event ⟨h₄, _⟩ => ?_) fun d₄ _ ⟨_, he⟩ => by cases he
  subst h₄
  refine Keeps.bindOp (keeps_connectedKey (.own _)) (fun d₅ owner ⟨m, account, _, h₅⟩ => ?_)
    fun d₅ _ ⟨_, he, _⟩ e h => by cases he; cases h
  subst h₅
  refine Keeps.bindOp (keeps_submit_once ((hd₁.cons rfl).cons rfl).unsent) (fun d₆ receipt _ => ?_)
    fun d₆ failure ⟨_, _, hlate⟩ e h => ?_
  · exact keeps_remembered.mono fun d₇ r ⟨⟨_, hr⟩, _⟩ e h => by cases hr.symm.trans h
  · cases h
    exact nomatch hlate _ rfl

open Rehearsal (Result)

theorem keeps_run_refused (hcheck : details.check = .error e) :
    Keeps (hearing (NetworkAsks c []))
      (fun d' (r : Result) => r = .error (.client (.invalidInput e)) ∨ ∃ active, NetworkRefused c active [] d')
      ((Operation.register details).run c) ([] : Dialogue σ) :=
  keeps_ofClient (keeps_register_refused hcheck) (fun _ _ h => h.imp_left nofun)
    fun _ _ h => h.imp_left fun he => by cases he; rfl

theorem keeps_run_accepted (hcheck : details.check = .ok ()) :
    Keeps (hearing MaySend) (fun _ (r : Result) => ∀ e, r ≠ .error (.client (.invalidInput e)))
      ((Operation.register details).run c) ([] : Dialogue σ) :=
  keeps_ofClient (keeps_register_accepted hcheck) (fun _ _ _ _ => nofun) fun _ _ hno e h => by cases h; exact hno e rfl

/-- The network check of an operation passed: its client is bound to no network, or its own was active. -/
def NetworkPassed (c : Client) (d : Dialogue σ) : Prop := c.isBound = true → firstNetwork? d = some c.endpoint.network

theorem NetworkAsks.not_passed {q : Question} (h : NetworkAsks c [] d q) : ¬ NetworkPassed c d := by
  intro hpassed
  cases h with
  | active hbound => cases hpassed hbound
  | note line hbound hne => exact hne (Option.some.inj (hpassed hbound))

theorem NetworkRefused.not_passed {active : Network} (h : NetworkRefused c active [] d) : ¬ NetworkPassed c d := by
  intro hpassed
  cases h with
  | mk hbound hne => exact hne (Option.some.inj (hpassed hbound))

end Client

namespace Interleaving

open Client

variable {σ : Type} {S : Surroundings σ} {clients : Nat → Client} {w : World σ} {id : Nat} {τ : Task σ}
  {d : ProductDetails}

/-- **A registration that passes its network check is refused for its input exactly if its details are refused**, and
for the same fault. -/
theorem invalidInput_iff_of_steps {s : σ} (h : Steps S clients (.start s) w) (hτ : w.tasks id = some τ)
    (hop : τ.operation = .register d) (hpassed : NetworkPassed (clients τ.member) τ.told) (e : InputError) :
    τ.rest = .done (.error (.client (.invalidInput e))) ↔ d.check = .error e := by
  have hcourse := goes_of_steps h id τ hτ
  rw [Task.OnCourse, hop] at hcourse
  cases hcheck : d.check with
  | ok =>
    have hends := (keeps_run_accepted hcheck).goes hcourse fun _ _ _ _ h => h
    constructor
    · intro hrest
      rw [hrest] at hends
      exact absurd rfl (hends e)
    · intro hok
      cases hok
  | error fault =>
    have hends := (keeps_run_refused hcheck).goes hcourse fun _ _ _ _ h => h
    cases hrest : τ.rest with
    | ask q next =>
      rw [hrest] at hends
      exact absurd hpassed hends.1.not_passed
    | done r =>
      rw [hrest] at hends
      rcases hends with rfl | ⟨active, hrefused⟩
      · simp [eq_comm]
      · exact absurd hpassed hrefused.not_passed

end Interleaving

/-- What comes of the check of details. -/
structure DetailsChecked (d : ProductDetails) : Prop where
  accepted : d.check = .ok () ↔ d.WithinLimits
  /-- Otherwise it is the fault of the first requirement that is broken. -/
  refused : ∀ e, d.check = .error e ↔ ∃ before r after, d.requirements = before ++ r :: after ∧
    (∀ r' ∈ before, ¬ r'.broken) ∧ r.broken ∧ r.fault = e
  /-- The event that registers the product passes its check at any time. -/
  event : d.check = .ok () → ∀ time, Event.check ⟨d.id, .register, time, d.registerMetadata⟩ =
    .ok ⟨d.id, .register, time, d.registerMetadata⟩
  /-- A registration whose network check passes, among any others, is refused for its input exactly if they are. -/
  registration : ∀ {σ : Type} {S : Interleaving.Surroundings σ} {clients : Nat → Client} {s : σ}
    {w : Interleaving.World σ} {id : Nat} {τ : Interleaving.Task σ}, Interleaving.Steps S clients (.start s) w →
    w.tasks id = some τ → τ.operation = .register d → Client.NetworkPassed (clients τ.member) τ.told →
    ∀ e, τ.rest = .done (.error (.client (.invalidInput e))) ↔ d.check = .error e

/-- **Details are accepted exactly if they are within every limit, and of others the first fault is reported**, by the
check and by a registration alike. -/
theorem detailsChecked (d : ProductDetails) : DetailsChecked d where
  accepted := ProductDetails.check_eq_ok_iff
  refused := fun _ => ProductDetails.check_eq_error_iff
  event := ProductDetails.check_registerEvent
  registration := Interleaving.invalidInput_iff_of_steps

end SupplyTrail
