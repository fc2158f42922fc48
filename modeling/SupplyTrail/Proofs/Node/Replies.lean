import SupplyTrail.Proofs.Ledger.Codes
import SupplyTrail.Proofs.Node.Messages
import SupplyTrail.Rpc.Node
/-!
# Replies — what the reply to a call says

A reply counts with a status from 200 to 299 and a body that denotes a response.  An error object in it wins over a
result, and its message may carry a number of the contract.  Every other reply is a failure without a number: the text
for a status without success has none in it (`contractCode?_statusText`).
-/
namespace SupplyTrail

theorem reasonPhrase_plain (status : Nat) : '#' ∉ (Http.reasonPhrase status).toList := by
  unfold Http.reasonPhrase Http.reasonPhrase?
  split <;> simp

/-- **What is said of a status without success carries no number.** -/
theorem contractCode?_statusText (status : Nat) :
    contractCode? s!"HTTP error: {Http.statusText status}" = none := by
  apply contractCode?_eq_none
  have hdigits : '#' ∉ Text.decimalChars status := fun h => by
    have hdigit := Text.isDigit_of_mem_decimalChars h
    revert hdigit
    decide
  have hphrase := reasonPhrase_plain status
  simp [toString, Http.statusText, Text.decimal, hdigits, hphrase]

theorem Http.Reply.isSuccess_iff (r : Http.Reply) : r.isSuccess = true ↔ 200 ≤ r.status ∧ r.status ≤ 299 := by
  simp [Http.Reply.isSuccess, Nat.lt_succ_iff]

namespace Rpc

open Json (Source Reads)

variable {α : Type} {R : Source → α → Prop} {d : Json.Decoder α} {reply : Option Http.Reply}

/-! ## Calls -/

/-- A reply with a status of success whose body is a response with a result that is read so, or with none. -/
def Decodes (R : Source → α → Prop) (reply : Option Http.Reply) (response : Response α) : Prop :=
  ∃ r document, reply = some r ∧ 200 ≤ r.status ∧ r.status ≤ 299 ∧ r.document? = some document ∧
    Response.Denotes R document response

/-- A reply that decodes, with no error object and with a result. -/
def Returns (R : Source → α → Prop) (reply : Option Http.Reply) (a : α) : Prop :=
  ∃ response, Decodes R reply response ∧ response.error = none ∧ response.result = some a

/-- A reply that decodes, with an error object, whatever its result is. -/
def Reports (R : Source → α → Prop) (reply : Option Http.Reply) (e : ErrorObject) : Prop :=
  ∃ response, Decodes R reply response ∧ response.error = some e

/-- How a call fails by the reply to it. -/
inductive Fails (R : Source → α → Prop) : Option Http.Reply → LedgerFailure → Prop
  | lost : Fails R none (.remote .http)
  | status {r : Http.Reply} (h : ¬ (200 ≤ r.status ∧ r.status ≤ 299)) :
      Fails R (some r) (.remote (.reported r.status s!"HTTP error: {Http.statusText r.status}"))
  | unread {r : Http.Reply} (hstatus : 200 ≤ r.status ∧ r.status ≤ 299)
      (h : ∀ response, ¬ Decodes R (some r) response) : Fails R (some r) (.remote .http)
  | empty {reply : Option Http.Reply} {response : Response α} (h : Decodes R reply response)
      (herror : response.error = none) (hresult : response.result = none) : Fails R reply (.remote .noData)
  | reported {reply : Option Http.Reply} {e : ErrorObject} (h : Reports R reply e)
      (hcode : contractCode? e.message = none) : Fails R reply (.remote (.reported e.code e.message))
  | coded {reply : Option Http.Reply} {e : ErrorObject} {code : Nat} (h : Reports R reply e)
      (hcode : contractCode? e.message = some code) : Fails R reply (.contract code e.message)

/-- What a reply to a call comes to. -/
def outcome (d : Json.Decoder α) (reply : Option Http.Reply) : Except RpcError α :=
  match readReply d reply with
  | .error e => .error e
  | .ok response =>
    match response.error, response.result with
    | some error, _ => .error (.reported error.code error.message)
    | none, some result => .ok result
    | none, none => .error .noData

theorem readReply_eq_ok_iff (hd : Reads d R) {response : Response α} :
    readReply d reply = .ok response ↔ Decodes R reply response := by
  simp only [Decodes, ← Response.decode_eq_ok_iff hd]
  cases reply with
  | none => simp [readReply]
  | some r =>
    unfold readReply
    by_cases hstatus : 200 ≤ r.status ∧ r.status ≤ 299
    · have hsuccess := r.isSuccess_iff.2 hstatus
      cases hdoc : r.document? with
      | none => simp [hsuccess, hdoc]
      | some document => cases hdecode : Response.decode d document <;> simp [hsuccess, hdoc, hdecode, hstatus]
    · have hsuccess : r.isSuccess = false := Bool.eq_false_iff.2 fun h => hstatus (r.isSuccess_iff.1 h)
      simp only [hsuccess, Bool.not_false, if_true, reduceCtorEq, false_iff]
      rintro ⟨_, _, hr, hleast, hmost, -⟩
      cases hr
      exact hstatus ⟨hleast, hmost⟩

/-- **A call returns a value exactly if its reply does.** -/
theorem outcome_eq_ok_iff (hd : Reads d R) {a : α} : outcome d reply = .ok a ↔ Returns R reply a := by
  simp only [Returns, ← readReply_eq_ok_iff hd]
  unfold outcome
  cases readReply d reply with
  | error e => simp
  | ok response =>
    obtain ⟨result, error⟩ := response
    cases error <;> cases result <;> simp

/-- Every reply to a call returns something, or it is a failure. -/
theorem returns_or_fails (R : Source → α → Prop) (reply : Option Http.Reply) :
    (∃ a, Returns R reply a) ∨ ∃ f, Fails R reply f := by
  by_cases h : ∃ response, Decodes R reply response
  · obtain ⟨⟨result, error⟩, h⟩ := h
    cases error with
    | some error =>
      have hreports : Reports R reply error := ⟨_, h, rfl⟩
      cases hcode : contractCode? error.message with
      | none => exact .inr ⟨_, .reported hreports hcode⟩
      | some code => exact .inr ⟨_, .coded hreports hcode⟩
    | none =>
      cases result with
      | none => exact .inr ⟨_, .empty h rfl rfl⟩
      | some a => exact .inl ⟨a, _, h, rfl, rfl⟩
  · rw [not_exists] at h
    cases reply with
    | none => exact .inr ⟨_, .lost⟩
    | some r =>
      by_cases hstatus : 200 ≤ r.status ∧ r.status ≤ 299
      · exact .inr ⟨_, .unread hstatus h⟩
      · exact .inr ⟨_, .status hstatus⟩

/-- A failure whose text can carry a number is the contract's, if it carries one. -/
theorem classify_of_carrier {e : RpcError} {message : String} (h : LedgerFailure.carrier? e = some message) :
    LedgerFailure.classify e =
      match contractCode? message with
      | some code => .contract code message
      | none => .remote e := by
  cases hcode : contractCode? message <;> simp [LedgerFailure.classify, h, hcode]

theorem outcome_of_reports (hd : Reads d R) {e : ErrorObject} (h : Reports R reply e) :
    outcome d reply = .error (.reported e.code e.message) := by
  obtain ⟨response, h, herror⟩ := h
  rw [outcome, (readReply_eq_ok_iff hd).2 h]
  simp only [herror]

theorem outcome_of_fails (hd : Reads d R) {f : LedgerFailure} (h : Fails R reply f) :
    ∃ e, outcome d reply = .error e ∧ LedgerFailure.classify e = f := by
  cases h with
  | lost => exact ⟨_, rfl, rfl⟩
  | @status r h =>
    have hsuccess : r.isSuccess = false := Bool.eq_false_iff.2 fun hs => h (r.isSuccess_iff.1 hs)
    refine ⟨.reported r.status _, by simp only [outcome, readReply, hsuccess, Bool.not_false, if_true]; rfl, ?_⟩
    rw [classify_of_carrier rfl, contractCode?_statusText]
  | @unread r hstatus h =>
    have hread : readReply d (some r) = .error .http := by
      cases hreply : readReply d (some r) with
      | ok response => exact absurd ((readReply_eq_ok_iff hd).1 hreply) (h response)
      | error e =>
        simp only [readReply, r.isSuccess_iff.2 hstatus, Bool.not_true, Bool.false_eq_true, if_false] at hreply
        split at hreply
        · cases hreply
        · exact hreply.symm
    exact ⟨.http, by rw [outcome, hread], rfl⟩
  | empty h herror hresult =>
    exact ⟨.noData, by rw [outcome, (readReply_eq_ok_iff hd).2 h]; simp [herror, hresult], rfl⟩
  | @reported _ e h hcode =>
    exact ⟨.reported e.code e.message, outcome_of_reports hd h, by rw [classify_of_carrier rfl, hcode]⟩
  | @coded _ e _ h hcode =>
    exact ⟨.reported e.code e.message, outcome_of_reports hd h, by rw [classify_of_carrier rfl, hcode]⟩

/-- **A call fails exactly as its reply does.** -/
theorem fails_iff (hd : Reads d R) {f : LedgerFailure} :
    Fails R reply f ↔ ∃ e, outcome d reply = .error e ∧ LedgerFailure.classify e = f := by
  refine ⟨outcome_of_fails hd, ?_⟩
  rintro ⟨e, he, rfl⟩
  rcases returns_or_fails R reply with ⟨a, ha⟩ | ⟨f, hf⟩
  · rw [(outcome_eq_ok_iff hd).2 ha] at he
    cases he
  · obtain ⟨e', he', rfl⟩ := outcome_of_fails hd hf
    rw [he] at he'
    cases he'
    exact hf

/-! ## What was sent -/

theorem reads_sent : Reads Sent.decode Sent.Denotes := fun _ _ => Sent.decode_eq_ok_iff

/-- What was sent is accepted under a hash: it is pending, or was sent before. -/
def Accepts (reply : Option Http.Reply) (hash : String) : Prop :=
  ∃ sent, Returns Sent.Denotes reply sent ∧ (sent.status = .pending ∨ sent.status = .duplicate) ∧ sent.hash = hash

/-- What was sent is refused: the call fails, or the node is busy or reports an error. -/
inductive Refuses (reply : Option Http.Reply) : LedgerFailure → Prop
  | failed {f : LedgerFailure} (h : Fails Sent.Denotes reply f) : Refuses reply f
  | rejected {sent : Sent} (h : Returns Sent.Denotes reply sent)
      (hstatus : sent.status = .tryAgainLater ∨ sent.status = .error) :
      Refuses reply (.remote (.rejected sent.status (sent.errorResult.getD "no reason given")))

/-- What the reply to a transaction that was sent comes to: its hash, if it was accepted. -/
def sentOutcome (reply : Option Http.Reply) : Except RpcError String :=
  match outcome Sent.decode reply with
  | .error e => .error e
  | .ok sent =>
    if sent.status.isAccepted then .ok sent.hash
    else .error (.rejected sent.status (sent.errorResult.getD "no reason given"))

theorem sentOutcome_eq_ok_iff {hash : String} :
    sentOutcome reply = .ok hash ↔ Accepts reply hash := by
  simp only [Accepts, ← outcome_eq_ok_iff reads_sent]
  unfold sentOutcome
  cases outcome Sent.decode reply with
  | error e => simp
  | ok sent => cases hstatus : sent.status <;> simp [hstatus, SendStatus.isAccepted]

theorem refuses_iff {f : LedgerFailure} :
    Refuses reply f ↔ ∃ e, sentOutcome reply = .error e ∧ LedgerFailure.classify e = f := by
  constructor
  · intro h
    cases h with
    | failed h =>
      obtain ⟨e, he, hf⟩ := (fails_iff reads_sent).1 h
      exact ⟨e, by rw [sentOutcome, he], hf⟩
    | @rejected sent h hstatus =>
      refine ⟨.rejected sent.status (sent.errorResult.getD "no reason given"), ?_, rfl⟩
      rw [sentOutcome, (outcome_eq_ok_iff reads_sent).2 h]
      rcases hstatus with hstatus | hstatus <;> simp [hstatus, SendStatus.isAccepted]
  · rintro ⟨e, he, rfl⟩
    unfold sentOutcome at he
    cases hout : outcome Sent.decode reply with
    | error e' =>
      rw [hout] at he
      cases he
      exact .failed ((fails_iff reads_sent).2 ⟨e, hout, rfl⟩)
    | ok sent =>
      have hreturns := (outcome_eq_ok_iff reads_sent).1 hout
      rw [hout] at he
      cases hstatus : sent.status with
      | pending | duplicate => simp [hstatus, SendStatus.isAccepted] at he
      | tryAgainLater | error =>
        simp only [hstatus, SendStatus.isAccepted, Bool.false_eq_true, if_false] at he
        cases he
        rw [← hstatus]
        exact .rejected hreturns (by simp [hstatus])

theorem Accepts.unique {hash hash' : String} (h : Accepts reply hash) (h' : Accepts reply hash') : hash = hash' := by
  have hsent := sentOutcome_eq_ok_iff.2 h
  rw [sentOutcome_eq_ok_iff.2 h'] at hsent
  exact (Except.ok.inj hsent).symm

theorem Refuses.unique {f f' : LedgerFailure} (h : Refuses reply f) (h' : Refuses reply f') : f = f' := by
  obtain ⟨e, he, rfl⟩ := refuses_iff.1 h
  obtain ⟨e', he', rfl⟩ := refuses_iff.1 h'
  rw [he] at he'
  cases he'
  rfl

theorem Accepts.not_refuses {hash : String} {f : LedgerFailure} (h : Accepts reply hash) : ¬ Refuses reply f := by
  intro hrefuses
  obtain ⟨e, he, -⟩ := refuses_iff.1 hrefuses
  rw [sentOutcome_eq_ok_iff.2 h] at he
  cases he

/-! ## What a poll says -/

theorem reads_transaction : Reads Transaction.decode Transaction.Denotes := fun _ _ => Transaction.decode_eq_ok_iff

/-- A poll did not find the transaction. -/
def NotFound (reply : Option Http.Reply) : Prop :=
  ∃ transaction, Returns Transaction.Denotes reply transaction ∧ transaction.status = .notFound

/-- What the reply to a poll says of the transaction with a hash: that it succeeded, that it failed, perhaps with a
number of the contract in its result, or why the poll itself failed. -/
inductive Judges (hash : String) (reply : Option Http.Reply) : Except LedgerFailure Receipt → Prop
  | success {transaction : Transaction} (h : Returns Transaction.Denotes reply transaction)
      (hstatus : transaction.status = .success) :
      Judges hash reply (.ok ⟨hash, transaction.ledger, transaction.returned⟩)
  | coded {transaction : Transaction} {result : String} {code : Nat} (h : Returns Transaction.Denotes reply transaction)
      (hstatus : transaction.status = .failed) (hresult : transaction.result = some result)
      (hcode : contractCode? result = some code) : Judges hash reply (.error (.contract code result))
  | failed {transaction : Transaction} (h : Returns Transaction.Denotes reply transaction)
      (hstatus : transaction.status = .failed)
      (hcode : ∀ result, transaction.result = some result → contractCode? result = none) :
      Judges hash reply (.error (.remote (.failed hash (transaction.result.getD "no result"))))
  | unanswered {f : LedgerFailure} (h : Fails Transaction.Denotes reply f) : Judges hash reply (.error f)

theorem notFound_iff : NotFound reply ↔
    ∃ transaction, outcome Transaction.decode reply = .ok transaction ∧ transaction.status = .notFound := by
  simp only [NotFound, ← outcome_eq_ok_iff reads_transaction]

/-- What the reply to a poll says of a transaction; nothing while it is not found. -/
def verdict? (hash : String) (reply : Option Http.Reply) : Option (Except RpcError Transaction) :=
  match outcome Transaction.decode reply with
  | .error e => some (.error e)
  | .ok transaction =>
    match transaction.status with
    | .notFound => none
    | .failed => some (.error (.failed hash (transaction.result.getD "no result")))
    | .success => some (.ok transaction)

theorem verdict?_eq_none_iff {hash : String} :
    verdict? hash reply = none ↔ NotFound reply := by
  rw [notFound_iff]
  unfold verdict?
  cases houtcome : outcome Transaction.decode reply with
  | error e => simp
  | ok transaction => cases hstatus : transaction.status <;> simp [hstatus]

theorem classify_failed (hash reason : String) : LedgerFailure.classify (.failed hash reason) =
    match contractCode? reason with
    | some code => .contract code reason
    | none => .remote (.failed hash reason) :=
  classify_of_carrier rfl

theorem judges_of_failed {hash : String} {transaction : Transaction} (h : Returns Transaction.Denotes reply transaction)
    (hstatus : transaction.status = .failed) :
    Judges hash reply (.error (.classify (.failed hash (transaction.result.getD "no result")))) := by
  rw [classify_failed]
  cases hcode : contractCode? (transaction.result.getD "no result") with
  | none =>
    refine .failed h hstatus fun result hresult => ?_
    rwa [hresult] at hcode
  | some code =>
    cases hresult : transaction.result with
    | none =>
      rw [hresult, Option.getD_none, contractCode?_eq_none (by decide)] at hcode
      cases hcode
    | some result =>
      rw [hresult] at hcode
      exact .coded h hstatus hresult hcode

/-- **What a reply says of a transaction** is its verdict, if it has one. -/
theorem judges_iff {hash : String} {v : Except LedgerFailure Receipt} :
    Judges hash reply v ↔ ∃ u, verdict? hash reply = some u ∧
      v = (u.map fun transaction => ⟨hash, transaction.ledger, transaction.returned⟩).mapError .classify := by
  constructor
  · intro h
    cases h with
    | @success transaction h hstatus =>
      refine ⟨.ok transaction, ?_, rfl⟩
      rw [verdict?, (outcome_eq_ok_iff reads_transaction).2 h]
      simp only [hstatus]
    | @coded transaction result code h hstatus hresult hcode =>
      refine ⟨.error (.failed hash result), ?_, ?_⟩
      · rw [verdict?, (outcome_eq_ok_iff reads_transaction).2 h]
        simp only [hstatus, hresult, Option.getD_some]
      · simp only [Except.map, Except.mapError, classify_failed, hcode]
    | @failed transaction h hstatus hcode =>
      refine ⟨.error (.failed hash (transaction.result.getD "no result")), ?_, ?_⟩
      · rw [verdict?, (outcome_eq_ok_iff reads_transaction).2 h]
        simp only [hstatus]
      · have hplain : contractCode? (transaction.result.getD "no result") = none := by
          cases hresult : transaction.result with
          | none => exact contractCode?_eq_none (by decide)
          | some result => exact hcode result hresult
        simp only [Except.map, Except.mapError, classify_failed, hplain]
    | unanswered h =>
      obtain ⟨e, he, rfl⟩ := (fails_iff reads_transaction).1 h
      exact ⟨.error e, by rw [verdict?, he], rfl⟩
  · rintro ⟨u, hu, rfl⟩
    unfold verdict? at hu
    cases hout : outcome Transaction.decode reply with
    | error e =>
      rw [hout] at hu
      cases hu
      exact .unanswered ((fails_iff reads_transaction).2 ⟨e, hout, rfl⟩)
    | ok transaction =>
      have hreturns := (outcome_eq_ok_iff reads_transaction).1 hout
      rw [hout] at hu
      cases hstatus : transaction.status with
      | notFound => simp [hstatus] at hu
      | success =>
        simp only [hstatus] at hu
        cases hu
        exact .success hreturns hstatus
      | failed =>
        simp only [hstatus] at hu
        cases hu
        exact judges_of_failed hreturns hstatus

theorem Judges.unique {hash : String} {v v' : Except LedgerFailure Receipt} (h : Judges hash reply v)
    (h' : Judges hash reply v') : v = v' := by
  obtain ⟨u, hu, rfl⟩ := judges_iff.1 h
  obtain ⟨u', hu', rfl⟩ := judges_iff.1 h'
  rw [hu] at hu'
  cases hu'
  rfl

theorem Judges.not_notFound {hash : String} {v : Except LedgerFailure Receipt} (h : Judges hash reply v) :
    ¬ NotFound reply := by
  intro hnone
  obtain ⟨u, hu, -⟩ := judges_iff.1 h
  rw [verdict?_eq_none_iff.2 hnone] at hu
  cases hu

end Rpc

end SupplyTrail
