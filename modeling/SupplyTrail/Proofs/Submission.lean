import SupplyTrail.Proofs.Node.Line
import SupplyTrail.Proofs.Node.Submitting
/-!
# Submission — sent once, polled until it is settled, and never mixed up with another call

Whatever else a client asks of whatever node at the same time, a submission posts its transaction once, polls only what
was accepted and not yet found, and ends with what its own replies come to; its requests carry numbers that no other
request has (`submission_of_run`).
-/
namespace SupplyTrail.Node

open Activity Http Rpc
open Rehearsal (NodeCall Result)

variable {w : World} {id : Nat} {τ : Task} {content : String} {t : Transcript} {x : Talk Result} {r : Result}

/-- A talk only notes something before it ends with a result. -/
def Closes (r : Result) : Talk Result → Prop
  | .done r' => r' = r
  | .ask (.note _) next => Closes r (next ())
  | .ask (.post _) _ | .ask .requestNumber _ | .ask .patience _ | .ask (.pause _) _ => False

/-- A call has its result; at most some lines are still to be logged. -/
def Task.Ends (τ : Task) (r : Result) : Prop := Closes r τ.rest

theorem ends_of_closes {asks : Transcript → Question → Prop} {ends : Transcript → Result → Prop}
    (h : Keeps (hearing asks) ends x t) (hcloses : Closes r x) : ends t r := by
  induction x generalizing t with
  | done r' =>
    obtain rfl : r' = r := hcloses
    exact h
  | ask q next ih =>
    cases q with
    | note line => exact ih () (h.2 () t rfl) hcloses
    | post | requestNumber | patience | pause => exact hcloses.elim

theorem closes_of_keeps {asks : Transcript → Question → Prop} {ends : Transcript → Result → Prop}
    (h : Keeps (hearing asks) ends x t) (hasks : ∀ q, asks t q → ∃ line, q = .note line)
    (hends : ∀ r', ends t r' → r' = r) : Closes r x := by
  induction x with
  | done r' => exact hends r' h
  | ask q next ih =>
    obtain ⟨line, rfl⟩ := hasks q h.1
    exact ih () (h.2 () t rfl)

/-- What a submission gives. -/
def resultOf : Except LedgerFailure Receipt → Result
  | .ok receipt => .ok (.receipt receipt)
  | .error f => .error (.ledger f)

theorem resultOf_injective : Function.Injective resultOf := by
  intro v v' h
  cases v <;> cases v' <;> cases h <;> rfl

/-- After these exchanges a call posted this request: it has its reply, or it is still out. -/
inductive Task.Posts (τ : Task) (before : List Exchange) (request : Http.Request) : Prop
  | out {next : Option Reply → Talk Result} (hrest : τ.rest = .ask (.post request) next)
      (hbefore : before = τ.told.exchanges)
  | answered {reply : Option Reply} (h : before ++ [⟨request, reply⟩] <+: τ.told.exchanges)

/-- How a submission goes among the other calls of a client. -/
structure Submission (w : World) (id : Nat) (τ : Task) (content : String) : Prop where
  /-- It sends the transaction once, before anything else, and all its other requests are polls. -/
  sends : τ.requests = [] ∨ ∃ n polls, τ.requests = sendRequest τ.url content n :: polls ∧
    ∀ request ∈ polls, ∃ hash m, request = pollRequest τ.url hash m
  /-- It does not end before the transaction was sent. -/
  sent : ∀ r, τ.Ends r → τ.requests ≠ []
  /-- It polls only the hash under which the transaction was accepted, and again only after polls that did not find
  it. -/
  posts : ∀ before request, τ.Posts before request → MayPost τ.url content before request
  /-- If what was sent is refused, it posts nothing more and ends with that. -/
  refused : ∀ first f, τ.told.replies.head? = some first → Refuses first f →
    τ.told.replies = [first] ∧ τ.Ends (.error (.ledger f))
  /-- It has a result exactly when its replies settle one. -/
  ends_iff : ∀ r, τ.Ends r ↔ ∃ v, Settles τ.told.patience τ.told.replies v ∧ r = resultOf v
  /-- It succeeds exactly if what was sent is accepted, and the first poll that finds it comes in time and says that it
  succeeded. -/
  returned_iff : ∀ receipt, τ.Ends (.ok (.receipt receipt)) ↔
    ∃ first waits last transaction, τ.told.replies = first :: (waits ++ [last]) ∧
      Accepts first receipt.hash ∧ (∀ reply ∈ waits, NotFound reply) ∧ waits.length ≤ τ.told.patience ∧
      Returns Transaction.Denotes last transaction ∧ transaction.status = .success ∧
      receipt.ledger = transaction.ledger ∧ receipt.returned = transaction.returned
  /-- Whatever is answered, it comes to its end. -/
  completes : ∀ x : Script, ∃ n τ' r, ((World.go x id)^[n] w).tasks id = some τ' ∧ τ'.rest = .done r
  /-- Its requests are numbered, and no other request has one of their numbers. -/
  numbered : w.given ≤ UInt64.size → (τ.requests.map Http.Request.number?).Nodup ∧
    (∀ r ∈ τ.requests, r.number?.isSome) ∧
    ∀ id' τ', id' ≠ id → w.tasks id' = some τ' → ∀ r ∈ τ.requests, ∀ r' ∈ τ'.requests, r.number? ≠ r'.number?

/-- Each request so far was one that might be posted. -/
def Orderly (url content : String) (t : Transcript) : Prop :=
  ∀ before x, before ++ [x] <+: t.exchanges → MayPost url content before x.request

theorem Orderly.hear {url : String} {q : Question} {a : q.Answer} (h : Orderly url content t)
    (hasks : AsksSubmit url content t q) : Orderly url content (t.hear q a) := by
  cases q with
  | post request =>
    intro before x hx
    rcases List.prefix_concat_iff.1 hx with heq | hx
    · obtain ⟨rfl, hlast⟩ := List.append_inj' heq rfl
      obtain rfl := (List.cons.inj hlast).1
      exact hasks.2
    · exact h before x hx
  | requestNumber | patience | pause | note => exact h

theorem keeps_run_submit (url : String) (e : Envelope) :
    Keeps (hearing fun t q => AsksSubmit url e.content t q ∧ Orderly url e.content t)
      (fun t r => (∃ v, Settles t.patience t.replies v ∧ r = resultOf v) ∧ Orderly url e.content t)
      ((NodeCall.submit e).run url) .empty := by
  have hrun : Keeps (hearing (AsksSubmit url e.content))
      (fun t r => ∃ v, Settles t.patience t.replies v ∧ r = resultOf v) ((NodeCall.submit e).run url) .empty := by
    refine Keeps.bind (keeps_submit_settled url e.content) ?_
    rintro t v hv
    cases v <;> exact ⟨_, hv, rfl⟩
  refine hrun.within (Orderly url e.content) (fun before x hx => ?_) fun q t a t' hask ht' hI => ?_
  · exact absurd (List.prefix_nil.1 hx) (by simp)
  · obtain rfl : t' = t.hear q a := ht'
    exact hI.hear hask

theorem mayPost_of_posts {url : String} {ends : Transcript → Result → Prop} {before : List Exchange}
    {request : Http.Request}
    (h : Keeps (hearing fun t q => AsksSubmit url content t q ∧ Orderly url content t)
      (fun t r => ends t r ∧ Orderly url content t) τ.rest τ.told) (hposts : τ.Posts before request) :
    MayPost url content before request := by
  cases hposts with
  | out hrest hbefore =>
    rw [hrest] at h
    exact hbefore ▸ h.1.1.2
  | answered hx =>
    cases hrest : τ.rest with
    | done r =>
      rw [hrest] at h
      exact h.2 before _ hx
    | ask q next =>
      rw [hrest] at h
      exact h.1.2 before _ hx

/-- What posts only what a submission may sends once, and all its other requests are polls. -/
theorem sends_of_posts (hposts : ∀ before request, τ.Posts before request → MayPost τ.url content before request) :
    τ.requests = [] ∨ ∃ n polls, τ.requests = sendRequest τ.url content n :: polls ∧
      ∀ request ∈ polls, ∃ hash m, request = pollRequest τ.url hash m := by
  have hpending {request : Http.Request} (h : τ.pending? = some request) :
      MayPost τ.url content τ.told.exchanges request := by
    obtain ⟨next, hrest⟩ := Task.rest_of_pending? h
    exact hposts _ request (.out hrest rfl)
  unfold Task.requests
  cases hexchanges : τ.told.exchanges with
  | nil =>
    rw [hexchanges] at hpending
    cases hout : τ.pending? with
    | none => exact .inl rfl
    | some request =>
      obtain ⟨n, rfl⟩ := (hpending hout).first
      exact .inr ⟨n, [], rfl, List.forall_mem_nil _⟩
  | cons first rest =>
    rw [hexchanges] at hpending
    obtain ⟨n, hfirst⟩ := (hposts [] first.request (.answered ⟨rest, hexchanges.symm⟩)).first
    have hanswered : ∀ request ∈ rest.map Exchange.request, ∃ hash m, request = pollRequest τ.url hash m := by
      refine List.forall_mem_map.2 fun x hx => ?_
      obtain ⟨earlier, later, rfl⟩ := List.append_of_mem hx
      have hprefix : first :: earlier ++ [x] <+: τ.told.exchanges := ⟨later, by simp [hexchanges]⟩
      exact (hposts (first :: earlier) x.request (.answered hprefix)).later
    refine .inr ⟨n, _, congrArg (· :: _) hfirst, List.forall_mem_append.2 ⟨hanswered, fun request hrequest => ?_⟩⟩
    exact (hpending (Option.mem_toList.1 hrequest)).later

/-- What posts only what a submission may gets no other reply after a refusal. -/
theorem replies_of_refused (hposts : ∀ before request, τ.Posts before request → MayPost τ.url content before request)
    {first : Option Reply} {f : LedgerFailure} (hfirst : τ.told.replies.head? = some first)
    (hsent : Refuses first f) : τ.told.replies = [first] := by
  unfold Transcript.replies at hfirst ⊢
  cases hexchanges : τ.told.exchanges with
  | nil =>
    rw [hexchanges] at hfirst
    cases hfirst
  | cons x rest =>
    rw [hexchanges] at hfirst
    cases hfirst
    cases rest with
    | nil => rfl
    | cons y rest =>
      have hprefix : [x] ++ [y] <+: τ.told.exchanges := ⟨rest, hexchanges.symm⟩
      obtain ⟨hash, haccepted⟩ := (hposts [x] y.request (.answered hprefix)).accepted
      exact absurd hsent haccepted.not_refuses

/-- **What becomes of a submission.**  Whatever else a client asks meanwhile and whatever is answered: the transaction
is sent once, only what was accepted is polled, and again only when it was not found, the replies and the time settle
the result, and no other request of the client carries the number of one of its requests. -/
theorem submission_of_run {e : Envelope} (h : Steps .start w) (hτ : w.tasks id = some τ) (hcall : τ.call = .submit e) :
    Submission w id τ e.content := by
  have hkeep := keeps_of_steps h hτ (hcall ▸ keeps_run_submit τ.url e)
  have hposts : ∀ before request, τ.Posts before request → MayPost τ.url e.content before request :=
    fun _ _ => mayPost_of_posts hkeep
  have hends : ∀ r, τ.Ends r ↔ ∃ v, Settles τ.told.patience τ.told.replies v ∧ r = resultOf v := by
    intro r
    constructor
    · exact fun hcloses => (ends_of_closes hkeep hcloses).1
    · rintro ⟨v, hv, rfl⟩
      refine closes_of_keeps hkeep (fun q hasks => ?_) fun r' hr' => ?_
      · cases q with
        | note line => exact ⟨line, rfl⟩
        | post request => exact absurd hv (hasks.1.1 v)
        | requestNumber | patience | pause => exact absurd hv (hasks.1 v)
      · obtain ⟨⟨v', hv', rfl⟩, -⟩ := hr'
        rw [hv'.unique hv]
  refine ⟨sends_of_posts hposts, fun r hr => ?_, hposts, fun first f hfirst hsent => ?_, hends, fun receipt => ?_,
    fun x => exists_end x hτ, fun hgiven => distinct_of_steps h hgiven hτ⟩
  · obtain ⟨v, hv, -⟩ := (hends r).1 hr
    have hsome := hv.ne_nil
    rw [Transcript.replies, Ne, List.map_eq_nil_iff] at hsome
    simp [Task.requests, hsome]
  · have hreplies := replies_of_refused hposts hfirst hsent
    exact ⟨hreplies, (hends _).2 ⟨.error f, hreplies ▸ .refused hsent, rfl⟩⟩
  · rw [hends, ← settles_ok_iff]
    constructor
    · rintro ⟨v, hv, heq⟩
      cases v with
      | ok receipt' =>
        cases heq
        exact hv
      | error e => cases heq
    · exact fun hv => ⟨_, hv, rfl⟩

namespace Interleaved

def url : String := "http://node"

def saying (members : List (String × Json)) : Option Reply := some ⟨200, Text.bytesOf (Json.object members).render⟩

def replyWith (result : Json) : Option Reply := saying [("result", result)]

/-- The node accepts what is sent under the first number, is healthy, does not find the transaction at the first poll,
and then says that it succeeded. -/
def script : Script where
  reply _ request :=
    match request.number? with
    | some 1 => replyWith (.object [("hash", .string "ab"), ("status", .string "PENDING")])
    | some 2 => replyWith (.object [("status", .string "healthy")])
    | some 3 => replyWith (.object [("status", .string "NOT_FOUND")])
    | _ => replyWith (.object [("ledger", .word 7), ("status", .string "SUCCESS")])
  patience _ := 3

/-- The node refuses what is sent, with a reason. -/
def refusing : Script where
  reply _ _ :=
    replyWith (.object [("errorResultXdr", .string "full"), ("hash", .string "cd"),
      ("status", .string "TRY_AGAIN_LATER")])
  patience _ := 3

/-- The node has what is sent under the sixth number already, and reports a fault of the contract when it is polled. -/
def blaming : Script where
  reply _ request :=
    match request.number? with
    | some 6 => replyWith (.object [("hash", .string "ef"), ("status", .string "DUPLICATE")])
    | _ => saying [("error", .object [("code", .word 5), ("message", .string "Error(Contract, #2)")])]
  patience _ := 3

/-- A health check comes between the sending of the first transaction and its first poll. -/
def deeds : List Deed :=
  [.begin 0 url (.submit ⟨"GA", "c0de"⟩), .begin 1 url .getHealth, .go 0 2 script, .go 1 4 script, .go 0 20 script,
    .begin 2 url (.submit ⟨"GA", "0ff"⟩), .begin 3 url (.submit ⟨"GA", "bad"⟩), .go 2 20 refusing, .go 3 20 blaming]

def world : World := deeds.foldl World.play .start

/-- A submission that has come to an end. -/
structure Ended where
  envelope : Envelope
  result : Except LedgerFailure Receipt
  numbers : List (Option UInt64)
  deriving DecidableEq

def ended? (τ : Task) : Option Ended :=
  match τ.call, τ.rest with
  | .submit e, .done (.ok (.receipt receipt)) => some ⟨e, .ok receipt, τ.requests.map Http.Request.number?⟩
  | .submit e, .done (.error (.ledger f)) => some ⟨e, .error f, τ.requests.map Http.Request.number?⟩
  | _, _ => none

theorem exists_of_ended? {x : Ended} (h : (world.tasks id).bind ended? = some x) : ∃ τ, world.tasks id = some τ ∧
    τ.call = .submit x.envelope ∧ τ.Ends (resultOf x.result) ∧ τ.requests.map Http.Request.number? = x.numbers := by
  obtain ⟨τ, hτ, h⟩ := Option.bind_eq_some_iff.1 h
  unfold ended? at h
  split at h
  · rename_i hcall hrest
    cases h
    exact ⟨τ, hτ, hcall, by rw [Task.Ends, hrest]; rfl, rfl⟩
  · rename_i hcall hrest
    cases h
    exact ⟨τ, hτ, hcall, by rw [Task.Ends, hrest]; rfl, rfl⟩
  · cases h

/-- All four calls, looked at together. -/
theorem ended_world :
    (world.tasks 0).bind ended? = some ⟨⟨"GA", "c0de"⟩, .ok ⟨"ab", some 7, none⟩, [some 1, some 3, some 4]⟩ ∧
      (world.tasks 2).bind ended? =
        some ⟨⟨"GA", "0ff"⟩, .error (.remote (.rejected .tryAgainLater "full")), [some 5]⟩ ∧
      (world.tasks 3).bind ended? =
        some ⟨⟨"GA", "bad"⟩, .error (.contract 2 "Error(Contract, #2)"), [some 6, some 7]⟩ ∧
      (world.tasks 1).map (fun τ => τ.requests.map Http.Request.number?) = some [some 2] ∧
      world.given ≤ UInt64.size := by
  decide +kernel

end Interleaved

/-- The general theorem where a health check comes in between: the transaction is sent, polled twice and found, under
three numbers that are not the health check's.  A second one is refused and not polled, and a third one was sent before
and fails in the contract. -/
theorem submission_of_run_interleaved : (∃ τ τ', Interleaved.world.tasks 0 = some τ ∧
    Submission Interleaved.world 0 τ "c0de" ∧ τ.Ends (.ok (.receipt ⟨"ab", some 7, none⟩)) ∧
    τ.requests.map Http.Request.number? = [some 1, some 3, some 4] ∧ Interleaved.world.tasks 1 = some τ' ∧
    τ'.requests.map Http.Request.number? = [some 2] ∧
    ∀ r ∈ τ.requests, ∀ r' ∈ τ'.requests, r.number? ≠ r'.number?) ∧
    (∃ τ, Submission Interleaved.world 2 τ "0ff" ∧ τ.requests.map Http.Request.number? = [some 5] ∧
      Settles τ.told.patience τ.told.replies (.error (.remote (.rejected .tryAgainLater "full")))) ∧
    ∃ τ, Submission Interleaved.world 3 τ "bad" ∧ τ.requests.map Http.Request.number? = [some 6, some 7] ∧
      Settles τ.told.patience τ.told.replies (.error (.contract 2 "Error(Contract, #2)")) := by
  obtain ⟨hfound, hrefused, hblamed, hhealth, hgiven⟩ := Interleaved.ended_world
  have hsteps : Steps .start Interleaved.world := steps_foldl_play Interleaved.deeds .start
  refine ⟨?_, ?_, ?_⟩
  · obtain ⟨τ, hτ, hcall, hends, hnumbers⟩ := Interleaved.exists_of_ended? hfound
    obtain ⟨τ', hτ', hnumbers'⟩ := Option.map_eq_some_iff.1 hhealth
    have hsubmission := submission_of_run hsteps hτ hcall
    obtain ⟨-, -, hapart⟩ := hsubmission.numbered hgiven
    exact ⟨τ, τ', hτ, hsubmission, hends, hnumbers, hτ', hnumbers', hapart 1 τ' (by decide) hτ'⟩
  · obtain ⟨τ, hτ, hcall, hends, hnumbers⟩ := Interleaved.exists_of_ended? hrefused
    have hsubmission := submission_of_run hsteps hτ hcall
    obtain ⟨v, hv, heq⟩ := (hsubmission.ends_iff _).1 hends
    obtain rfl := resultOf_injective heq
    exact ⟨τ, hsubmission, hnumbers, hv⟩
  · obtain ⟨τ, hτ, hcall, hends, hnumbers⟩ := Interleaved.exists_of_ended? hblamed
    have hsubmission := submission_of_run hsteps hτ hcall
    obtain ⟨v, hv, heq⟩ := (hsubmission.ends_iff _).1 hends
    obtain rfl := resultOf_injective heq
    exact ⟨τ, hsubmission, hnumbers, hv⟩

end SupplyTrail.Node
