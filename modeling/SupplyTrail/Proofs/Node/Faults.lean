import SupplyTrail.Proofs.Node.Submitting
/-!
# Faults — which replies of a node carry a number of the contract

A number of the contract comes in the text of an error object, in the error of a simulation, or in the result of a
transaction that failed.  No other reply carries one: a status without success, a refusal and the end of the time are
never looked through.
-/
namespace SupplyTrail.Rpc

open Activity Http
open Json (Source Reads)

variable {α : Type} {R : Source → α → Prop} {reply : Option Http.Reply} {code : Nat}

theorem reads_simulation : Reads Simulation.decode Simulation.Denotes := fun _ _ => Simulation.decode_eq_ok_iff

def simulateRequest (url : String) (c : ContractCall) : UInt64 → Http.Request :=
  requestOf url "simulateTransaction" (some (.object [("transaction", .string c.encode)]))

/-- What the reply to a query comes to: the value of the first result, if the simulation tells of no error. -/
inductive Answers (reply : Option Http.Reply) : Except LedgerFailure Json → Prop
  | value {simulation : Simulation} {value : Json} (h : Returns Simulation.Denotes reply simulation)
      (herror : simulation.error = none) (hvalue : simulation.results.head? = some value) : Answers reply (.ok value)
  | empty {simulation : Simulation} (h : Returns Simulation.Denotes reply simulation)
      (herror : simulation.error = none) (hresults : simulation.results = []) :
      Answers reply (.error (.remote .noData))
  | coded {simulation : Simulation} {error : String} {code : Nat} (h : Returns Simulation.Denotes reply simulation)
      (herror : simulation.error = some error) (hcode : contractCode? error = some code) :
      Answers reply (.error (.contract code error))
  | failed {simulation : Simulation} {error : String} (h : Returns Simulation.Denotes reply simulation)
      (herror : simulation.error = some error) (hcode : contractCode? error = none) :
      Answers reply (.error (.remote (.simulation error)))
  | unanswered {f : LedgerFailure} (h : Fails Simulation.Denotes reply f) : Answers reply (.error f)

/-- What the reply to a simulation comes to. -/
def simulated (reply : Option Http.Reply) : Except RpcError Json :=
  match outcome Simulation.decode reply with
  | .error e => .error e
  | .ok simulation =>
    match simulation.error, simulation.results with
    | some error, _ => .error (.simulation error)
    | none, value :: _ => .ok value
    | none, [] => .error .noData

theorem classify_simulation (error : String) : LedgerFailure.classify (.simulation error) =
    match contractCode? error with
    | some code => .contract code error
    | none => .remote (.simulation error) :=
  classify_of_carrier rfl

theorem answers_simulated (reply : Option Http.Reply) : Answers reply ((simulated reply).mapError .classify) := by
  unfold simulated
  cases hout : outcome Simulation.decode reply with
  | error e => exact .unanswered ((fails_iff reads_simulation).2 ⟨e, hout, rfl⟩)
  | ok simulation =>
    have hreturns := (outcome_eq_ok_iff reads_simulation).1 hout
    obtain ⟨results, error, ledger⟩ := simulation
    cases error with
    | some error =>
      simp only [Except.mapError, classify_simulation]
      cases hcode : contractCode? error with
      | none => exact .failed hreturns rfl hcode
      | some code => exact .coded hreturns rfl hcode
    | none =>
      cases results with
      | nil => exact .empty hreturns rfl rfl
      | cons value _ => exact .value hreturns rfl rfl

/-- **A query comes to what its reply says**, and to nothing else. -/
theorem Answers.eq {v : Except LedgerFailure Json} (h : Answers reply v) :
    v = (simulated reply).mapError .classify := by
  unfold simulated
  cases h with
  | value h herror hvalue =>
    rw [(outcome_eq_ok_iff reads_simulation).2 h]
    obtain ⟨rest, hresults⟩ := List.head?_eq_some_iff.1 hvalue
    simp only [herror, hresults, Except.mapError]
  | empty h herror hresults =>
    rw [(outcome_eq_ok_iff reads_simulation).2 h]
    simp only [herror, hresults, Except.mapError]
    rfl
  | coded h herror hcode =>
    rw [(outcome_eq_ok_iff reads_simulation).2 h]
    simp only [herror, Except.mapError, classify_simulation, hcode]
  | failed h herror hcode =>
    rw [(outcome_eq_ok_iff reads_simulation).2 h]
    simp only [herror, Except.mapError, classify_simulation, hcode]
  | unanswered h =>
    obtain ⟨e, he, rfl⟩ := (fails_iff reads_simulation).1 h
    rw [he]
    rfl

theorem Answers.unique {v v' : Except LedgerFailure Json} (h : Answers reply v) (h' : Answers reply v') : v = v' :=
  h.eq.trans h'.eq.symm

/-- **A query is one call**, and comes to what its reply says. -/
theorem keeps_query {asks : Transcript → Http.Question → Prop} {t : Transcript} {url : String} {c : ContractCall}
    (h : MayCall asks t (simulateRequest url c)) :
    Keeps (hearing asks) (fun t' v => ∃ n reply, t' = t.exchanged (simulateRequest url c) n reply ∧ Answers reply v)
      (query url c) t := by
  refine keeps_asLedger (Keeps.bindOp (keeps_call Simulation.decode h) ?_ ?_)
  · rintro t' ⟨results, error, ledger⟩ ⟨n, reply, rfl, hout⟩
    have hanswers := answers_simulated reply
    rw [simulated, ← hout] at hanswers
    cases error with
    | some error => exact ⟨n, reply, rfl, hanswers⟩
    | none => cases results <;> exact ⟨n, reply, rfl, hanswers⟩
  · rintro t' e ⟨n, reply, rfl, hout⟩
    have hanswers := answers_simulated reply
    rw [simulated, ← hout] at hanswers
    exact ⟨n, reply, rfl, hanswers⟩

/-! ## Submissions -/

end SupplyTrail.Rpc
