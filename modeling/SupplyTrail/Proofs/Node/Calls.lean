import SupplyTrail.Proofs.Keeps
import SupplyTrail.Proofs.Node.Replies
import SupplyTrail.Rehearsal.Call
/-!
# Calls — what a node is asked, and what its replies come to

A talk with a node is known by its transcript: the numbers it was given, its requests with their replies, and how often
it may poll again.  A call posts one request under a new number and ends with what the reply comes to.  Polling goes on
while a transaction is not found, and no longer than there is time.  Whatever a node is asked to do, each of its
requests carries a number that was given for it (`keeps_run_numbered`).
-/
namespace SupplyTrail.Http

structure Exchange where
  request : Request
  reply : Option Reply

structure Transcript where
  /-- The numbers that were given, in order. -/
  numbers : List UInt64
  /-- The requests and their replies, in order. -/
  exchanges : List Exchange
  /-- How often it may poll again after the first poll, once it knows. -/
  patience : Nat

namespace Transcript

def empty : Transcript := ⟨[], [], 0⟩

/-- The transcript after an answer.  Pauses and log lines leave no trace. -/
def hear (t : Transcript) : (q : Question) → q.Answer → Transcript
  | .post request, reply => { t with exchanges := t.exchanges ++ [⟨request, reply⟩] }
  | .requestNumber, n => { t with numbers := t.numbers ++ [n] }
  | .patience, n => { t with patience := n }
  | .pause _, _ => t
  | .note _, _ => t

/-- The transcript after one request, posted under a number. -/
def exchanged (t : Transcript) (request : UInt64 → Request) (n : UInt64) (reply : Option Reply) : Transcript :=
  (t.hear .requestNumber n).hear (.post (request n)) reply

def replies (t : Transcript) : List (Option Reply) := t.exchanges.map Exchange.reply

variable (t : Transcript) (request : UInt64 → Request) (n : UInt64) (reply : Option Reply)

@[simp] theorem numbers_exchanged : (t.exchanged request n reply).numbers = t.numbers ++ [n] := rfl

@[simp] theorem exchanges_exchanged :
    (t.exchanged request n reply).exchanges = t.exchanges ++ [⟨request n, reply⟩] := rfl

@[simp] theorem replies_exchanged : (t.exchanged request n reply).replies = t.replies ++ [reply] := by
  simp [replies]

@[simp] theorem patience_exchanged : (t.exchanged request n reply).patience = t.patience := rfl

end Transcript

/-- The rules of a talk that is answered anyhow. -/
def hearing (asks : Transcript → Question → Prop) : Rules questions Transcript where
  asks := asks
  answers q t a t' := t' = t.hear q a

/-- The number that a request carries. -/
def Request.number? (r : Request) : Option UInt64 :=
  match r.body.bind (Json.member? "id") with
  | some (.number (.whole w)) => w.word?
  | _ => none

end SupplyTrail.Http

namespace SupplyTrail.Rpc

open Activity Http
open Rehearsal (NodeCall Result)

variable {α : Type} {asks : Transcript → Question → Prop} {t : Transcript}

/-! ## One call -/

/-- The request of a call under a number: it posts the version, the number, the method and the params, if there are
any. -/
def requestOf (url method : String) : Option Json → UInt64 → Http.Request
  | some params, n => ⟨url, some (.object [("jsonrpc", .string "2.0"), ("id", .word n), ("method", .string method),
      ("params", params)])⟩
  | none, n => ⟨url, some (.object [("jsonrpc", .string "2.0"), ("id", .word n), ("method", .string method)])⟩

theorem requestOf_eq (url method : String) (params : Option Json) (n : UInt64) :
    requestOf url method params n = ⟨url, some (Request.toJson ⟨n, method, params⟩)⟩ := by
  cases params <;> rfl

@[simp] theorem number?_requestOf (url method : String) (params : Option Json) (n : UInt64) :
    (requestOf url method params n).number? = some n := by
  cases params <;> simp [requestOf, Http.Request.number?, Json.member?, valueOf?, Json.word, Whole.word?_ofWord]

/-- A request may be posted here: its number asked for, it posted under any number, and its reply noted. -/
structure MayCall (asks : Transcript → Question → Prop) (t : Transcript) (request : UInt64 → Http.Request) : Prop where
  number : asks t .requestNumber
  post (n : UInt64) : asks (t.hear .requestNumber n) (.post (request n))
  note (n : UInt64) (reply : Option Http.Reply) (line : LogLine) : asks (t.exchanged request n reply) (.note line)

/-- **One call**: it posts one request, under the number it was given, and ends with what the reply comes to. -/
theorem keeps_call {url method : String} {params : Option Json} (d : Json.Decoder α)
    (h : MayCall asks t (requestOf url method params)) :
    Keeps (hearing asks) (fun t' r => ∃ n reply, t' = t.exchanged (requestOf url method params) n reply ∧
      r = outcome d reply) (call url method params d).run t := by
  unfold call
  refine Keeps.bindRun (M := fun t' n => t' = t.hear .requestNumber n) ⟨h.number, fun n t' ht' => ht'⟩ ?_
  rintro t₁ n rfl
  refine Keeps.bindRun (M := fun t' reply => t' = t.exchanged (requestOf url method params) n reply)
    ⟨requestOf_eq url method params n ▸ h.post n, fun reply t' ht' => ?_⟩ ?_
  · exact requestOf_eq url method params n ▸ ht'
  rintro t₂ reply rfl
  cases hread : readReply d reply with
  | error e => exact ⟨n, reply, rfl, by rw [outcome, hread]⟩
  | ok response =>
    obtain ⟨result, error⟩ := response
    cases error with
    | some error =>
      -- what the node reports is noted first
      refine ⟨h.note n reply _, fun _ t' ht' => ⟨n, reply, ht', ?_⟩⟩
      rw [outcome, hread]
    | none =>
      cases result with
      | some result => exact ⟨n, reply, rfl, by rw [outcome, hread]⟩
      | none => exact ⟨n, reply, rfl, by rw [outcome, hread]⟩

/-! ## Sending and polling -/

def sendRequest (url transaction : String) : UInt64 → Http.Request :=
  requestOf url "sendTransaction" (some (.object [("transaction", .string transaction)]))

def pollRequest (url hash : String) : UInt64 → Http.Request :=
  requestOf url "getTransaction" (some (.object [("hash", .string hash)]))

/-- **Sending is one call**, whatever its reply is. -/
theorem keeps_send {url transaction : String} (h : MayCall asks t (sendRequest url transaction)) :
    Keeps (hearing asks) (fun t' r => ∃ n reply, t' = t.exchanged (sendRequest url transaction) n reply ∧
      r = sentOutcome reply) (send url transaction).run t := by
  refine Keeps.bindOp (keeps_call Sent.decode h) ?_ ?_
  · rintro t' sent ⟨n, reply, rfl, hout⟩
    cases hstatus : sent.status.isAccepted with
    | false =>
      exact ⟨n, reply, rfl, by rw [sentOutcome, ← hout]; simp [hstatus]⟩
    | true =>
      refine ⟨h.note n reply _, fun _ t' ht' => ⟨n, reply, ht', ?_⟩⟩
      rw [sentOutcome, ← hout]
      simp [hstatus]
  · rintro t' e ⟨n, reply, ht', hout⟩
    exact ⟨n, reply, ht', by rw [sentOutcome, ← hout]⟩

/-- A transaction may be polled: `I k` holds where `k` polls have not found it, and there is time for `last` more. -/
structure MayPoll (asks : Transcript → Question → Prop) (url hash : String) (last : Nat)
    (I : Nat → Transcript → Prop) : Prop where
  call {k : Nat} {t : Transcript} (h : I k t) : MayCall asks t (pollRequest url hash)
  pause {k : Nat} {t : Transcript} {n : UInt64} {reply : Option Http.Reply} (h : I k t) (hk : k < last)
    (hreply : NotFound reply) : asks (t.exchanged (pollRequest url hash) n reply) (.pause k)
  next {k : Nat} {t : Transcript} {n : UInt64} {reply : Option Http.Reply} (h : I k t) (hk : k < last)
    (hreply : NotFound reply) : I (k + 1) (t.exchanged (pollRequest url hash) n reply)

/-- **Polling goes on only while nothing is found and there is time.**  It ends with what the last poll's reply comes
to, or, if that did not find the transaction either, for want of time. -/
theorem keeps_poll {url hash : String} {last : Nat} {I : Nat → Transcript → Prop} (h : MayPoll asks url hash last I) :
    ∀ (more k : Nat) (t : Transcript), k + more = last → I k t →
      Keeps (hearing asks) (fun t' r => ∃ k t₀ n reply, I k t₀ ∧ k ≤ last ∧
        t' = t₀.exchanged (pollRequest url hash) n reply ∧
        (outcome Transaction.decode reply = r ∧ (∀ transaction, r = .ok transaction → transaction.status ≠ .notFound) ∨
          NotFound reply ∧ k = last ∧ r = .error (.unconfirmed hash))) (poll url hash k more).run t := by
  intro more
  induction more with
  | zero =>
    intro k t hk hI
    refine Keeps.bindOp (keeps_call Transaction.decode (h.call hI)) ?_ ?_
    · rintro t' transaction ⟨n, reply, rfl, hout⟩
      by_cases hstatus : transaction.status = .notFound
      · simp only [hstatus, if_true]
        have hreply : NotFound reply := notFound_iff.2 ⟨transaction, hout.symm, hstatus⟩
        exact ⟨k, t, n, reply, hI, by omega, rfl, .inr ⟨hreply, by omega, rfl⟩⟩
      · simp only [hstatus, if_false]
        exact ⟨k, t, n, reply, hI, by omega, rfl, .inl ⟨hout.symm, fun _ h => by cases h; exact hstatus⟩⟩
    · rintro t' e ⟨n, reply, rfl, hout⟩
      exact ⟨k, t, n, reply, hI, by omega, rfl, .inl ⟨hout.symm, fun _ h => by cases h⟩⟩
  | succ more ih =>
    intro k t hk hI
    refine Keeps.bindOp (keeps_call Transaction.decode (h.call hI)) ?_ ?_
    · rintro t' transaction ⟨n, reply, rfl, hout⟩
      by_cases hstatus : transaction.status = .notFound
      · simp only [hstatus, if_true]
        have hreply : NotFound reply := notFound_iff.2 ⟨transaction, hout.symm, hstatus⟩
        refine Keeps.bindRun (M := fun t' _ => t' = t.exchanged (pollRequest url hash) n reply)
          ⟨h.pause hI (by omega) hreply, fun _ t' ht' => ht'⟩ ?_
        rintro t' - rfl
        exact ih (k + 1) _ (by omega) (h.next hI (by omega) hreply)
      · simp only [hstatus, if_false]
        exact ⟨k, t, n, reply, hI, by omega, rfl, .inl ⟨hout.symm, fun _ h => by cases h; exact hstatus⟩⟩
    · rintro t' e ⟨n, reply, rfl, hout⟩
      exact ⟨k, t, n, reply, hI, by omega, rfl, .inl ⟨hout.symm, fun _ h => by cases h⟩⟩

/-- A transaction may be confirmed: it is asked how often there is time to poll again, and then it may be polled. -/
structure MayConfirm (asks : Transcript → Question → Prop) (url hash : String) (t : Transcript)
    (I : Nat → Nat → Transcript → Prop) : Prop where
  patience : asks t .patience
  first (last : Nat) : I last 0 (t.hear .patience last)
  poll (last : Nat) : MayPoll asks url hash last (I last)

/-- **A confirmation ends with what the last poll says**, or for want of time if it says nothing. -/
theorem keeps_confirm {url hash : String} {I : Nat → Nat → Transcript → Prop} (h : MayConfirm asks url hash t I) :
    Keeps (hearing asks) (fun t' r => ∃ last k t₀ n reply, I last k t₀ ∧ k ≤ last ∧
      t' = t₀.exchanged (pollRequest url hash) n reply ∧
      (verdict? hash reply = some r ∨ NotFound reply ∧ k = last ∧ r = .error (.unconfirmed hash)))
      (confirm url hash).run t := by
  refine Keeps.bindRun (M := fun t' last => t' = t.hear .patience last) ⟨h.patience, fun last t' ht' => ht'⟩ ?_
  rintro t₁ last rfl
  refine Keeps.bindOp (keeps_poll (h.poll last) last 0 _ (by omega) (h.first last)) ?_ ?_
  · rintro t' transaction ⟨k, t₀, n, reply, hI, hk, rfl, ⟨hout, hfound⟩ | ⟨-, -, hr⟩⟩
    · cases hstatus : transaction.status with
      | notFound => exact absurd hstatus (hfound transaction rfl)
      | failed =>
        simp only [if_true]
        exact ⟨last, k, t₀, n, reply, hI, hk, rfl, .inl (by rw [verdict?, hout]; simp [hstatus])⟩
      | success =>
        refine ⟨((h.poll last).call hI).note n reply _, fun _ t' ht' => ⟨last, k, t₀, n, reply, hI, hk, ht', .inl ?_⟩⟩
        rw [verdict?, hout]
        simp [hstatus]
    · cases hr
  · rintro t' e ⟨k, t₀, n, reply, hI, hk, rfl, ⟨hout, -⟩ | ⟨hreply, hlast, hr⟩⟩
    · exact ⟨last, k, t₀, n, reply, hI, hk, rfl, .inl (by rw [verdict?, hout])⟩
    · cases hr
      exact ⟨last, k, t₀, n, reply, hI, hk, rfl, .inr ⟨hreply, hlast, rfl⟩⟩

/-! ## Submitting -/

/-- How a submission may end: with the refusal of what was sent, with what the last poll says, or for want of time. -/
inductive SubmitEnds (url content : String) (t : Transcript) (I : String → Nat → Nat → Transcript → Prop) :
    Transcript → Except LedgerFailure Receipt → Prop
  | refused {n : UInt64} {reply : Option Http.Reply} {f : LedgerFailure} (hsent : Refuses reply f) :
    SubmitEnds url content t I (t.exchanged (sendRequest url content) n reply) (.error f)
  | found {hash : String} {last k : Nat} {t₀ : Transcript} {n : UInt64} {reply : Option Http.Reply}
    {v : Except LedgerFailure Receipt} (h : I hash last k t₀) (hk : k ≤ last) (hv : Judges hash reply v) :
    SubmitEnds url content t I (t₀.exchanged (pollRequest url hash) n reply) v
  | late {hash : String} {last : Nat} {t₀ : Transcript} {n : UInt64} {reply : Option Http.Reply}
    (h : I hash last last t₀) (hreply : NotFound reply) :
    SubmitEnds url content t I (t₀.exchanged (pollRequest url hash) n reply) (.error (.remote (.unconfirmed hash)))

theorem keeps_asLedger {ends : Transcript → Except LedgerFailure α → Prop} {x : Attempt α}
    (h : Keeps (hearing asks) (fun t' v => ends t' (v.mapError .classify)) x.run t) :
    Keeps (hearing asks) ends (asLedger x) t := by
  refine Keeps.bind h fun t' v hv => ?_
  cases v <;> exact hv

/-- **A submission sends once, and confirms only what was accepted.** -/
theorem keeps_submit {url content : String} {I : String → Nat → Nat → Transcript → Prop}
    (hsend : MayCall asks t (sendRequest url content))
    (hconfirm : ∀ n reply hash, Accepts reply hash →
      MayConfirm asks url hash (t.exchanged (sendRequest url content) n reply) (I hash)) :
    Keeps (hearing asks) (SubmitEnds url content t I) (submit url content) t := by
  refine keeps_asLedger (Keeps.bindOp (keeps_send hsend) ?_ ?_)
  · rintro t₁ hash ⟨n, reply, rfl, hsent⟩
    refine Keeps.bindOp (keeps_confirm (hconfirm n reply hash (sentOutcome_eq_ok_iff.1 hsent.symm))) ?_ ?_
    · rintro t' transaction ⟨last, k, t₀, n, reply, hI, hk, rfl, hv | ⟨-, -, hr⟩⟩
      · exact .found hI hk (judges_iff.2 ⟨_, hv, rfl⟩)
      · cases hr
    · rintro t' e ⟨last, k, t₀, n, reply, hI, hk, rfl, hv | ⟨hreply, rfl, hr⟩⟩
      · exact .found hI hk (judges_iff.2 ⟨_, hv, rfl⟩)
      · cases hr
        exact .late hI hreply
  · rintro t₁ e ⟨n, reply, rfl, hsent⟩
    exact .refused (refuses_iff.2 ⟨e, hsent.symm, rfl⟩)

/-! ## Numbers -/

/-- The requests so far carry the numbers that were given, each of them once. -/
def Numbered (t : Transcript) : Prop := t.numbers.map some = t.exchanges.map fun x => x.request.number?

/-- A request is posted under the number that was given for it, and nothing else is asked before that. -/
def AsksNumbered (t : Transcript) : Question → Prop
  | .post request =>
    ∃ n, request.number? = some n ∧ t.numbers.map some = (t.exchanges.map fun x => x.request.number?) ++ [some n]
  | .requestNumber | .patience | .pause _ | .note _ => Numbered t

theorem Numbered.exchanged {request : UInt64 → Http.Request} (h : Numbered t)
    (hrequest : ∀ n, (request n).number? = some n) (n : UInt64) (reply : Option Http.Reply) :
    Numbered (t.exchanged request n reply) := by
  unfold Numbered at h ⊢
  simp [h, hrequest]

theorem Numbered.mayCall (h : Numbered t) (url method : String) (params : Option Json) :
    MayCall AsksNumbered t (requestOf url method params) where
  number := h
  post n := by
    refine ⟨n, number?_requestOf url method params n, ?_⟩
    change (t.numbers ++ [n]).map some = _
    rw [List.map_append, h]
    rfl
  note n reply line := h.exchanged (number?_requestOf url method params) n reply

theorem Numbered.mayConfirm (h : Numbered t) (url hash : String) :
    MayConfirm AsksNumbered url hash t fun _ _ t => Numbered t where
  patience := h
  first _ := h
  poll _ := {
    call := fun h => h.mayCall url _ _
    pause := fun h _ _ => h.exchanged (number?_requestOf url _ _) _ _
    next := fun h _ _ => h.exchanged (number?_requestOf url _ _) _ _ }

/-- A talk keeps its requests numbered. -/
def KeepsNumbered {α : Type} (x : Talk α) : Prop :=
  ∀ t, Numbered t → Keeps (hearing AsksNumbered) (fun t' _ => Numbered t') x t

theorem KeepsNumbered.bind {α β : Type} {x : Talk β} {f : β → Talk α} (h : KeepsNumbered x)
    (hf : ∀ b, KeepsNumbered (f b)) : KeepsNumbered (x >>= f) :=
  fun t ht => (h t ht).bind fun t' b ht' => hf b t' ht'

theorem keepsNumbered_done {α : Type} (a : α) : KeepsNumbered (.done a) := fun _ ht => ht

theorem keepsNumbered_call (url method : String) (params : Option Json) (d : Json.Decoder α) :
    KeepsNumbered (call url method params d).run := by
  intro t ht
  refine (keeps_call d (ht.mayCall url method params)).mono ?_
  rintro t' - ⟨n, reply, rfl, -⟩
  exact ht.exchanged (number?_requestOf url method params) n reply

theorem keepsNumbered_simulate (url transaction : String) : KeepsNumbered (simulate url transaction).run := by
  intro t ht
  refine Keeps.bindOp (keepsNumbered_call url _ _ Simulation.decode t ht) ?_ fun t' e ht' => ht'
  rintro t' ⟨results, error, ledger⟩ ht'
  cases error with
  | some error => exact ht'
  | none => cases results <;> exact ht'

theorem keepsNumbered_send (url transaction : String) : KeepsNumbered (send url transaction).run := by
  intro t ht
  refine (keeps_send (ht.mayCall url _ _)).mono ?_
  rintro t' - ⟨n, reply, rfl, -⟩
  exact ht.exchanged (number?_requestOf url _ _) n reply

theorem keepsNumbered_confirm (url hash : String) : KeepsNumbered (confirm url hash).run := by
  intro t ht
  refine (keeps_confirm (ht.mayConfirm url hash)).mono ?_
  rintro t' - ⟨-, -, t₀, n, reply, ht₀, -, rfl, -⟩
  exact Numbered.exchanged ht₀ (number?_requestOf url _ _) n reply

theorem keepsNumbered_submit (url content : String) : KeepsNumbered (submit url content) := by
  intro t ht
  have hsent n reply : Numbered (t.exchanged (sendRequest url content) n reply) :=
    ht.exchanged (number?_requestOf url _ _) n reply
  refine (keeps_submit (ht.mayCall url _ _) fun n reply hash _ => (hsent n reply).mayConfirm url hash).mono ?_
  intro t' v hv
  cases hv with
  | refused => exact hsent _ _
  | found ht₀ => exact Numbered.exchanged ht₀ (number?_requestOf url _ _) _ _
  | late ht₀ => exact Numbered.exchanged ht₀ (number?_requestOf url _ _) _ _

/-- **Whatever a node is asked to do, its requests carry the numbers that were given for them.** -/
theorem keepsNumbered_run (url : String) (c : NodeCall) : KeepsNumbered (c.run url) := by
  have hattempt : ∀ {α : Type} (f : α → Rehearsal.Value) {x : Attempt α}, KeepsNumbered x.run →
      KeepsNumbered (NodeCall.run.attempt f x) :=
    fun f _ hx => hx.bind fun v => by cases v <;> exact keepsNumbered_done _
  cases c with
  | getHealth => exact hattempt _ (keepsNumbered_call _ _ _ _)
  | getNetwork => exact hattempt _ (keepsNumbered_call _ _ _ _)
  | getLatestLedger => exact hattempt _ (keepsNumbered_call _ _ _ _)
  | getTransaction hash => exact hattempt _ (keepsNumbered_call _ _ _ _)
  | other method params => exact hattempt _ (keepsNumbered_call _ _ _ _)
  | simulate transaction => exact hattempt _ (keepsNumbered_simulate url transaction)
  | send transaction => exact hattempt _ (keepsNumbered_send url transaction)
  | confirm hash => exact hattempt _ (keepsNumbered_confirm url hash)
  | query call =>
    have hquery : KeepsNumbered (query url call) :=
      (keepsNumbered_simulate url call.encode).bind fun v => by cases v <;> exact keepsNumbered_done _
    exact hquery.bind fun v => keepsNumbered_done _
  | submit envelope => exact (keepsNumbered_submit url envelope.content).bind fun v => keepsNumbered_done _
  | health =>
    have hhealth : KeepsNumbered (health url) :=
      (keepsNumbered_call url _ _ Health.decode).bind fun v => by cases v <;> exact keepsNumbered_done _
    exact hhealth.bind fun v => keepsNumbered_done _

end SupplyTrail.Rpc
