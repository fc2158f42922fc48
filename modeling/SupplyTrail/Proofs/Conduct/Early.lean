import SupplyTrail.Proofs.Conduct
/-!
# Early — failures that come before anything is asked

A refused network and refused input are found by the own process alone.  An operation that fails for one of them has
asked nothing outside and remembered nothing; no answer from outside is ever turned into such a failure.
-/
namespace SupplyTrail

/-- A failure that the own process finds by itself: another network is active, or the input is refused. -/
def ClientError.isEarly : ClientError → Bool
  | .invalidInput _ | .networkChanged _ _ => true
  | .notConnected | .unknownProduct _ | .submission _ | .malformed _ => false

namespace Client

open Activity

variable {σ : Type} {c : Client} {p : ProductId} {d d' : Dialogue σ}

/-- A question for the own process. -/
def Question.isOwn : Question → Bool
  | .own _ => true
  | .away _ => false

/-- The own process answers, and nothing is remembered. -/
def Question.isIdle : Question → Bool
  | .away _ | .own (.remember _ _) => false
  | .own .activeNetwork | .own .clock | .own .account | .own .nonce | .own (.lastSeen _) | .own (.note _) => true

/-- Nothing was asked outside and nothing was remembered. -/
def Idle (d : Dialogue σ) : Prop := ∀ t ∈ d, t.question.isIdle = true

theorem idle_nil : Idle ([] : Dialogue σ) := fun _ ht => by cases ht

theorem Idle.cons {t : Turn σ} (h : Idle d) (ht : t.question.isIdle = true) : Idle (t :: d) := fun u hu => by
  rcases List.mem_cons.1 hu with rfl | hu
  · exact ht
  · exact h u hu

theorem Idle.mono (h : Idle d') (hs : d <:+ d') : Idle d := fun t ht => h t (hs.subset ht)

theorem Idle.not_told (h : Idle d) {q : Question} (hq : q.isIdle = false) (a : q.Answer) : ¬ Told d q a := by
  rintro ⟨m, hm⟩
  have hidle := h _ hm
  rw [hq] at hidle
  cases hidle

theorem NetworkChecked.idle (h : NetworkChecked c d d') (hd : Idle d) : Idle d' := by
  cases h with
  | unbound hbound => exact hd
  | bound hbound => exact hd.cons rfl

theorem NetworkRefused.idle {active : Network} (h : NetworkRefused c active d d') (hd : Idle d) : Idle d' := by
  cases h with
  | mk hbound hne => exact (hd.cons rfl).cons rfl

/-! ## Failures of answers from outside -/

theorem not_early_failureOf (product : Option ProductId) (f : LedgerFailure) :
    (failureOf product f).isEarly = false := by
  cases f with
  | remote error => cases product <;> rfl
  | contract code message =>
    cases product with
    | none => rfl
    | some id =>
      unfold failureOf
      dsimp only
      split <;> rfl

theorem not_early_eventOf {number : UInt64} {r : Reading} {e : ClientError} (h : eventOf p number r = .error e) :
    e.isEarly = false := by
  unfold eventOf at h
  cases r with
  | error f =>
    cases h
    exact not_early_failureOf none f
  | ok value =>
    dsimp only at h
    cases hparse : Event.parse value with
    | error error =>
      rw [hparse] at h
      cases h
      rfl
    | ok event =>
      rw [hparse] at h
      dsimp only at h
      split at h
      · cases h
        rfl
      · cases h

theorem EventRead.not_early {t : Ticket} {e : ClientError} (h : EventRead p d t (.error e)) : e.isEarly = false := by
  obtain ⟨r, -, he⟩ := h
  exact not_early_eventOf he

/-- A read has failed: its dialogue shows the fault, and an early one was found before anything was asked. -/
structure ReadFailed (c : Client) (p : ProductId) (d d' : Dialogue σ) (e : ClientError) : Prop where
  fault : ReadFault c p d' e
  early : e.isEarly = true → Idle d → Idle d'

theorem ReadFailed.late {e : ClientError} (h : ReadFault c p d' e) (he : e.isEarly = false) : ReadFailed c p d d' e :=
  ⟨h, fun hearly => by
    rw [he] at hearly
    cases hearly⟩

end Client

end SupplyTrail
