import SupplyTrail.Proofs.Json.Records
import SupplyTrail.Rpc.Message
/-!
# Messages — which members of a node's documents are read, and as what

For each message there is a relation that says, member by member, which documents denote it, and its decoder reads
exactly these documents.  Members that the relation does not name are skipped.
-/
namespace SupplyTrail.Rpc

open Json (Source Record Has HasOr Reads reads_text reads_word64 reads_signed64 reads_value reads_variant need_eq_ok_iff
  needOr_eq_ok_iff holds_of_has holds_of_hasOr)
open Json.Source

variable {s : Source}

/-! ## Responses -/

structure ErrorObject.Members (members : List (String × Source)) (e : ErrorObject) : Prop where
  code : Has IsSigned members "code" e.code
  message : Has IsText members "message" e.message
  data : HasOr none (OrNull IsValue) members "data" e.data

def ErrorObject.Denotes (s : Source) (e : ErrorObject) : Prop :=
  ∃ members, Record ["code", "message", "data"] 2 s members ∧ ErrorObject.Members members e

theorem ErrorObject.decode_eq_ok_iff {e : ErrorObject} : ErrorObject.decode s = .ok e ↔ ErrorObject.Denotes s e := by
  refine Json.Form.locate_bind_eq_ok_iff (by decide) (fun found e => ?_) (fun hsame h => ?_) fun members e h => ?_
  · simp only [bind_eq_ok_iff, need_eq_ok_iff reads_signed64, need_eq_ok_iff reads_text,
      needOr_eq_ok_iff reads_value.nullable, pure, Except.pure, Except.ok.injEq]
    constructor
    · rintro ⟨code, hcode, message, hmessage, data, hdata, rfl⟩
      exact ⟨hcode, hmessage, hdata⟩
    · exact fun h => ⟨_, h.code, _, h.message, _, h.data, rfl⟩
  · exact ⟨h.code.congr (hsame _ (by decide)), h.message.congr (hsame _ (by decide)),
      h.data.congr (hsame _ (by decide))⟩
  · simp only [ErrorObject.form, List.forall_mem_cons]
    exact ⟨holds_of_has reads_signed64 h.code _, holds_of_has reads_text h.message _,
      holds_of_hasOr reads_value.nullable h.data (by decide), nofun⟩

/-- A response with a result that is read so. -/
structure Response.Members {α : Type} (R : Source → α → Prop) (members : List (String × Source))
    (response : Response α) : Prop where
  result : HasOr none (OrNull R) members "result" response.result
  error : HasOr none (OrNull ErrorObject.Denotes) members "error" response.error

def Response.Denotes {α : Type} (R : Source → α → Prop) (s : Source) (response : Response α) : Prop :=
  ∃ members, Record ["result", "error"] 2 s members ∧ Response.Members R members response

theorem Response.decode_eq_ok_iff {α : Type} {d : Json.Decoder α} {R : Source → α → Prop} (hd : Reads d R)
    {response : Response α} : Response.decode d s = .ok response ↔ Response.Denotes R s response := by
  have herror : Reads ErrorObject.decode ErrorObject.Denotes := fun _ _ => ErrorObject.decode_eq_ok_iff
  have hnames : (Response.form d).names = ["result", "error"] := rfl
  refine Json.Form.locate_bind_eq_ok_iff (by rw [hnames]; decide) (fun found r => ?_) (fun hsame h => ?_)
    fun members r h => ?_
  · simp only [bind_eq_ok_iff, needOr_eq_ok_iff hd.nullable, needOr_eq_ok_iff herror.nullable, pure, Except.pure,
      Except.ok.injEq]
    constructor
    · rintro ⟨result, hresult, error, herror, rfl⟩
      exact ⟨hresult, herror⟩
    · exact fun h => ⟨_, h.result, _, h.error, rfl⟩
  · exact ⟨h.result.congr (hsame _ (by simp [hnames])), h.error.congr (hsame _ (by simp [hnames]))⟩
  · simp only [Response.form, List.forall_mem_cons]
    exact ⟨holds_of_hasOr hd.nullable h.result (by decide), holds_of_hasOr herror.nullable h.error (by decide), nofun⟩

/-! ## What was sent -/

inductive SendStatus.Named : SendStatus → String → Prop
  | pending : Named .pending "PENDING"
  | duplicate : Named .duplicate "DUPLICATE"
  | tryAgainLater : Named .tryAgainLater "TRY_AGAIN_LATER"
  | error : Named .error "ERROR"

theorem SendStatus.valueOf?_names {name : String} {status : SendStatus} :
    valueOf? name SendStatus.names = some status ↔ status.Named name := by
  constructor
  · intro h
    have hmem := mem_of_valueOf? h
    simp only [SendStatus.names, List.mem_cons, Prod.mk.injEq, List.not_mem_nil, or_false] at hmem
    rcases hmem with ⟨rfl, rfl⟩ | ⟨rfl, rfl⟩ | ⟨rfl, rfl⟩ | ⟨rfl, rfl⟩
    exacts [.pending, .duplicate, .tryAgainLater, .error]
  · intro h
    cases h <;> rfl

/-- A document names a status. -/
def SendStatus.Denotes (s : Source) (status : SendStatus) : Prop := ∃ name, IsName s name ∧ status.Named name

theorem SendStatus.reads : Reads (Json.Decoder.variant SendStatus.names) SendStatus.Denotes := by
  intro s status
  simp only [reads_variant SendStatus.names s status, SendStatus.valueOf?_names, SendStatus.Denotes]

structure Sent.Members (members : List (String × Source)) (sent : Sent) : Prop where
  status : Has SendStatus.Denotes members "status" sent.status
  hash : Has IsText members "hash" sent.hash
  latestLedger : HasOr none (OrNull IsWord) members "latestLedger" sent.latestLedger
  errorResult : HasOr none (OrNull IsText) members "errorResultXdr" sent.errorResult

def Sent.Denotes (s : Source) (sent : Sent) : Prop :=
  ∃ members, Record ["status", "hash", "latestLedger", "errorResultXdr"] 2 s members ∧ Sent.Members members sent

theorem Sent.decode_eq_ok_iff {sent : Sent} : Sent.decode s = .ok sent ↔ Sent.Denotes s sent := by
  refine Json.Form.locate_bind_eq_ok_iff (by decide) (fun found r => ?_) (fun hsame h => ?_) fun members r h => ?_
  · simp only [bind_eq_ok_iff, need_eq_ok_iff SendStatus.reads, need_eq_ok_iff reads_text,
      needOr_eq_ok_iff reads_word64.nullable, needOr_eq_ok_iff reads_text.nullable, pure, Except.pure,
      Except.ok.injEq]
    constructor
    · rintro ⟨status, hstatus, hash, hhash, ledger, hledger, reason, hreason, rfl⟩
      exact ⟨hstatus, hhash, hledger, hreason⟩
    · exact fun h => ⟨_, h.status, _, h.hash, _, h.latestLedger, _, h.errorResult, rfl⟩
  · exact ⟨h.status.congr (hsame _ (by decide)), h.hash.congr (hsame _ (by decide)),
      h.latestLedger.congr (hsame _ (by decide)), h.errorResult.congr (hsame _ (by decide))⟩
  · simp only [Sent.form, List.forall_mem_cons]
    exact ⟨holds_of_has SendStatus.reads h.status _, holds_of_has reads_text h.hash _,
      holds_of_hasOr reads_word64.nullable h.latestLedger (by decide),
      holds_of_hasOr reads_text.nullable h.errorResult (by decide), nofun⟩

/-! ## Transactions -/

inductive TransactionStatus.Named : TransactionStatus → String → Prop
  | success : Named .success "SUCCESS"
  | failed : Named .failed "FAILED"
  | notFound : Named .notFound "NOT_FOUND"

theorem TransactionStatus.valueOf?_names {name : String} {status : TransactionStatus} :
    valueOf? name TransactionStatus.names = some status ↔ status.Named name := by
  constructor
  · intro h
    have hmem := mem_of_valueOf? h
    simp only [TransactionStatus.names, List.mem_cons, Prod.mk.injEq, List.not_mem_nil, or_false] at hmem
    rcases hmem with ⟨rfl, rfl⟩ | ⟨rfl, rfl⟩ | ⟨rfl, rfl⟩
    exacts [.success, .failed, .notFound]
  · intro h
    cases h <;> rfl

def TransactionStatus.Denotes (s : Source) (status : TransactionStatus) : Prop :=
  ∃ name, IsName s name ∧ status.Named name

theorem TransactionStatus.reads : Reads (Json.Decoder.variant TransactionStatus.names) TransactionStatus.Denotes := by
  intro s status
  simp only [reads_variant TransactionStatus.names s status, TransactionStatus.valueOf?_names,
    TransactionStatus.Denotes]

structure Transaction.Members (members : List (String × Source)) (transaction : Transaction) : Prop where
  status : Has TransactionStatus.Denotes members "status" transaction.status
  ledger : HasOr none (OrNull IsWord) members "ledger" transaction.ledger
  createdAt : HasOr none (OrNull IsText) members "createdAt" transaction.createdAt
  returned : HasOr none (OrNull IsValue) members "returnValue" transaction.returned
  result : HasOr none (OrNull IsText) members "resultXdr" transaction.result

def Transaction.Denotes (s : Source) (transaction : Transaction) : Prop :=
  ∃ members, Record ["status", "ledger", "createdAt", "returnValue", "resultXdr"] 1 s members ∧
    Transaction.Members members transaction

theorem Transaction.decode_eq_ok_iff {transaction : Transaction} :
    Transaction.decode s = .ok transaction ↔ Transaction.Denotes s transaction := by
  refine Json.Form.locate_bind_eq_ok_iff (by decide) (fun found r => ?_) (fun hsame h => ?_) fun members r h => ?_
  · simp only [bind_eq_ok_iff, need_eq_ok_iff TransactionStatus.reads, needOr_eq_ok_iff reads_word64.nullable,
      needOr_eq_ok_iff reads_text.nullable, needOr_eq_ok_iff reads_value.nullable, pure, Except.pure, Except.ok.injEq]
    constructor
    · rintro ⟨status, hstatus, ledger, hledger, created, hcreated, returned, hreturned, result, hresult, rfl⟩
      exact ⟨hstatus, hledger, hcreated, hreturned, hresult⟩
    · exact fun h => ⟨_, h.status, _, h.ledger, _, h.createdAt, _, h.returned, _, h.result, rfl⟩
  · exact ⟨h.status.congr (hsame _ (by decide)), h.ledger.congr (hsame _ (by decide)),
      h.createdAt.congr (hsame _ (by decide)), h.returned.congr (hsame _ (by decide)),
      h.result.congr (hsame _ (by decide))⟩
  · simp only [Transaction.form, List.forall_mem_cons]
    exact ⟨holds_of_has TransactionStatus.reads h.status _, holds_of_hasOr reads_word64.nullable h.ledger (by decide),
      holds_of_hasOr reads_text.nullable h.createdAt (by decide),
      holds_of_hasOr reads_value.nullable h.returned (by decide),
      holds_of_hasOr reads_text.nullable h.result (by decide), nofun⟩

/-! ## Simulations -/

/-- A document is one result of a simulation, with this value. -/
def IsResult (s : Source) (value : Json) : Prop :=
  ∃ members, Record ["retval"] 1 s members ∧ Has IsValue members "retval" value

theorem decodeResult_eq_ok_iff {value : Json} : decodeResult s = .ok value ↔ IsResult s value := by
  refine Json.Form.locate_bind_eq_ok_iff (by decide) (fun found v => need_eq_ok_iff reads_value)
    (fun hsame h => h.congr (hsame _ (by decide))) fun members v h => ?_
  exact List.forall_mem_singleton.2 (holds_of_has reads_value h _)

structure Simulation.Members (members : List (String × Source)) (simulation : Simulation) : Prop where
  results : HasOr [] (IsList IsResult) members "results" simulation.results
  error : HasOr none (OrNull IsText) members "error" simulation.error
  latestLedger : HasOr none (OrNull IsWord) members "latestLedger" simulation.latestLedger

def Simulation.Denotes (s : Source) (simulation : Simulation) : Prop :=
  ∃ members, Record ["results", "error", "latestLedger"] 0 s members ∧ Simulation.Members members simulation

theorem Simulation.decode_eq_ok_iff {simulation : Simulation} :
    Simulation.decode s = .ok simulation ↔ Simulation.Denotes s simulation := by
  have hresults : Reads (Json.Decoder.list decodeResult) (IsList IsResult) :=
    Reads.list fun _ _ => decodeResult_eq_ok_iff
  refine Json.Form.locate_bind_eq_ok_iff (by decide) (fun found r => ?_) (fun hsame h => ?_) fun members r h => ?_
  · simp only [bind_eq_ok_iff, needOr_eq_ok_iff hresults, needOr_eq_ok_iff reads_text.nullable,
      needOr_eq_ok_iff reads_word64.nullable, pure, Except.pure, Except.ok.injEq]
    constructor
    · rintro ⟨results, hresults, error, herror, ledger, hledger, rfl⟩
      exact ⟨hresults, herror, hledger⟩
    · exact fun h => ⟨_, h.results, _, h.error, _, h.latestLedger, rfl⟩
  · exact ⟨h.results.congr (hsame _ (by decide)), h.error.congr (hsame _ (by decide)),
      h.latestLedger.congr (hsame _ (by decide))⟩
  · simp only [Simulation.form, List.forall_mem_cons]
    exact ⟨holds_of_hasOr hresults h.results (by decide), holds_of_hasOr reads_text.nullable h.error (by decide),
      holds_of_hasOr reads_word64.nullable h.latestLedger (by decide), nofun⟩

end SupplyTrail.Rpc
