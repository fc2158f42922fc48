import SupplyTrail.Proofs.Node.Calls
/-!
# Submitting — what becomes of one transaction

A submission sends its transaction first and once.  If that is accepted, it polls the hash, again only after a poll that
did not find it, until a poll finds it or fails, or there is no more time.  So the replies, and how often there was time
to poll again, settle one result (`Settles`, `Settles.unique`), and a submission ends with it (`keeps_submit_settled`).
-/
namespace SupplyTrail.Rpc

open Activity Http

variable {url content hash : String} {t : Transcript}

/-! ## What the replies come to -/

/-- What a submission may post after these exchanges: first the transaction; then, once that is accepted under a hash,
polls of it, as long as no poll has found it. -/
inductive MayPost (url content : String) : List Exchange → Http.Request → Prop
  | send (n : UInt64) : MayPost url content [] (sendRequest url content n)
  | poll {first : Exchange} {waits : List Exchange} {hash : String} (n : UInt64)
      (hsent : Accepts first.reply hash) (hwaits : ∀ x ∈ waits, NotFound x.reply) :
      MayPost url content (first :: waits) (pollRequest url hash n)

theorem MayPost.first {request : Http.Request} (h : MayPost url content [] request) :
    ∃ n, request = sendRequest url content n := by
  cases h with
  | send n => exact ⟨n, rfl⟩

theorem MayPost.accepted {first : Exchange} {waits : List Exchange} {request : Http.Request}
    (h : MayPost url content (first :: waits) request) : ∃ hash, Accepts first.reply hash := by
  cases h with
  | poll _ hsent => exact ⟨_, hsent⟩

theorem MayPost.later {first : Exchange} {waits : List Exchange} {request : Http.Request}
    (h : MayPost url content (first :: waits) request) : ∃ hash n, request = pollRequest url hash n := by
  cases h with
  | poll n => exact ⟨_, n, rfl⟩

/-- What the replies to the polls of a transaction, in order, come to if there is time to poll so often again: what the
first poll says that found it or failed, or that the time is over. -/
inductive PollsSettle (patience : Nat) (hash : String) :
    List (Option Http.Reply) → Except LedgerFailure Receipt → Prop
  | found {waits : List (Option Http.Reply)} {last : Option Http.Reply} {v : Except LedgerFailure Receipt}
      (hwaits : ∀ reply ∈ waits, NotFound reply) (htime : waits.length ≤ patience)
      (hlast : Judges hash last v) : PollsSettle patience hash (waits ++ [last]) v
  | late {waits : List (Option Http.Reply)} (hwaits : ∀ reply ∈ waits, NotFound reply)
      (htime : waits.length = patience + 1) : PollsSettle patience hash waits (.error (.remote (.unconfirmed hash)))

/-- What the replies to a submission come to: the refusal of what was sent, or what the polls of it come to. -/
inductive Settles (patience : Nat) : List (Option Http.Reply) → Except LedgerFailure Receipt → Prop
  | refused {first : Option Http.Reply} {f : LedgerFailure} (hsent : Refuses first f) :
      Settles patience [first] (.error f)
  | polled {first : Option Http.Reply} {polls : List (Option Http.Reply)} {hash : String}
      {v : Except LedgerFailure Receipt} (hsent : Accepts first hash) (h : PollsSettle patience hash polls v) :
      Settles patience (first :: polls) v

variable {patience : Nat} {replies polls : List (Option Http.Reply)} {first : Option Http.Reply}
  {v v' : Except LedgerFailure Receipt}

theorem Settles.ne_nil (h : Settles patience replies v) : replies ≠ [] := by
  cases h with
  | refused => exact List.cons_ne_nil _ _
  | polled => exact List.cons_ne_nil _ _

/-- Polls that have not found the transaction settle nothing while there is time. -/
theorem not_pollsSettle (hpolls : ∀ reply ∈ polls, NotFound reply) (htime : polls.length ≤ patience) :
    ¬ PollsSettle patience hash polls v := by
  intro h
  cases h with
  | found _ _ hlast => exact hlast.not_notFound (hpolls _ (List.mem_append_right _ List.mem_cons_self))
  | late _ hlate => omega

theorem not_settles (hsent : Accepts first hash) (hpolls : ∀ reply ∈ polls, NotFound reply)
    (htime : polls.length ≤ patience) : ¬ Settles patience (first :: polls) v := by
  intro h
  cases h with
  | refused hrefused => exact hsent.not_refuses hrefused
  | polled _ h => exact not_pollsSettle hpolls htime h

/-- Polls settle what the last of them says, if it says something. -/
theorem PollsSettle.eq_of_judges {waits : List (Option Http.Reply)} {last : Option Http.Reply}
    (h : PollsSettle patience hash (waits ++ [last]) v) (hlast : Judges hash last v') : v = v' := by
  generalize hpolls : waits ++ [last] = polls at h
  cases h with
  | found _ _ hlast' =>
    obtain ⟨-, heq⟩ := List.append_inj' hpolls rfl
    cases heq
    exact hlast'.unique hlast
  | late hnone =>
    have hmem : last ∈ polls := hpolls ▸ List.mem_append_right _ List.mem_cons_self
    exact absurd (hnone last hmem) hlast.not_notFound

theorem PollsSettle.unique (h : PollsSettle patience hash polls v) (h' : PollsSettle patience hash polls v') :
    v = v' := by
  cases h with
  | found _ _ hlast => exact (h'.eq_of_judges hlast).symm
  | late hpolls =>
    cases h' with
    | found _ _ hlast =>
      exact absurd (hpolls _ (List.mem_append_right _ List.mem_cons_self)) hlast.not_notFound
    | late => rfl

/-- **The replies settle one result.** -/
theorem Settles.unique (h : Settles patience replies v) (h' : Settles patience replies v') : v = v' := by
  cases h with
  | refused hsent =>
    cases h' with
    | refused hsent' => rw [hsent.unique hsent']
    | polled hsent' => exact absurd hsent hsent'.not_refuses
  | polled hsent hpolls =>
    cases h' with
    | refused hsent' => exact absurd hsent' hsent.not_refuses
    | polled hsent' hpolls' =>
      obtain rfl := hsent.unique hsent'
      exact hpolls.unique hpolls'

/-- **A submission succeeds exactly if** what was sent is accepted, and the first poll that finds it comes in time and
says that it succeeded. -/
theorem settles_ok_iff {receipt : Receipt} : Settles patience replies (.ok receipt) ↔
    ∃ first waits last transaction, replies = first :: (waits ++ [last]) ∧ Accepts first receipt.hash ∧
      (∀ reply ∈ waits, NotFound reply) ∧ waits.length ≤ patience ∧
      Returns Transaction.Denotes last transaction ∧ transaction.status = .success ∧
      receipt.ledger = transaction.ledger ∧ receipt.returned = transaction.returned := by
  constructor
  · intro h
    cases h with
    | @polled first polls hash _ hsent h =>
      generalize hv : (Except.ok receipt : Except LedgerFailure Receipt) = v at h
      cases h with
      | @found waits last _ hwaits htime hlast =>
        subst hv
        cases hlast with
        | @success transaction h hstatus =>
          exact ⟨first, waits, last, transaction, rfl, hsent, hwaits, htime, h, hstatus, rfl, rfl⟩
      | late => cases hv
  · rintro ⟨first, waits, last, transaction, rfl, hsent, hwaits, htime, h, hstatus, hledger, hreturned⟩
    obtain ⟨hash, ledger, returned⟩ := receipt
    cases hledger
    cases hreturned
    exact .polled hsent (.found hwaits htime (.success h hstatus))

/-! ## The course of a submission -/

/-- The replies have not settled the submission. -/
def Open (t : Transcript) : Prop := ∀ v, ¬ Settles t.patience t.replies v

/-- What a submission may ask: once it is settled, only that something be noted. -/
def AsksSubmit (url content : String) (t : Transcript) : Question → Prop
  | .post request => Open t ∧ MayPost url content t.exchanges request
  | .requestNumber | .patience | .pause _ => Open t
  | .note _ => True

/-- A transaction was accepted under a hash, and so many polls have not found it, while there is time for `last`. -/
structure Waits (hash : String) (last k : Nat) (t : Transcript) : Prop where
  patience : t.patience = last
  within : k ≤ last
  exchanges : ∃ first waits, t.exchanges = first :: waits ∧ Accepts first.reply hash ∧
    (∀ x ∈ waits, NotFound x.reply) ∧ waits.length = k

variable {last k : Nat}

theorem Waits.replies_eq (h : Waits hash last k t) : ∃ first polls, t.replies = first :: polls ∧
    Accepts first hash ∧ (∀ reply ∈ polls, NotFound reply) ∧ polls.length = k := by
  obtain ⟨first, waits, hexchanges, hsent, hwaits, hk⟩ := h.exchanges
  refine ⟨first.reply, waits.map Exchange.reply, ?_, hsent, List.forall_mem_map.2 hwaits, by rw [List.length_map, hk]⟩
  rw [Transcript.replies, hexchanges]
  rfl

theorem Waits.isOpen (h : Waits hash last k t) : Open t := by
  obtain ⟨first, polls, hreplies, hsent, hpolls, hk⟩ := h.replies_eq
  intro v hv
  rw [hreplies, h.patience] at hv
  exact not_settles hsent hpolls (hk ▸ h.within) hv

theorem Waits.mayCall (h : Waits hash last k t) : MayCall (AsksSubmit url content) t (pollRequest url hash) := by
  obtain ⟨first, waits, hexchanges, hsent, hwaits, -⟩ := h.exchanges
  refine ⟨h.isOpen, fun n => ⟨h.isOpen, ?_⟩, fun n reply line => trivial⟩
  change MayPost url content t.exchanges _
  rw [hexchanges]
  exact .poll n hsent hwaits

theorem Waits.next {n : UInt64} {reply : Option Http.Reply} (h : Waits hash last k t) (hk : k < last)
    (hreply : NotFound reply) : Waits hash last (k + 1) (t.exchanged (pollRequest url hash) n reply) := by
  obtain ⟨first, waits, hexchanges, hsent, hwaits, hlength⟩ := h.exchanges
  refine ⟨h.patience, hk, first, waits ++ [⟨pollRequest url hash n, reply⟩], ?_, hsent, ?_, ?_⟩
  · rw [Transcript.exchanges_exchanged, hexchanges]
    rfl
  · exact List.forall_mem_append.2 ⟨hwaits, List.forall_mem_singleton.2 hreply⟩
  · simp [hlength]

theorem mayConfirm_of_sent {n : UInt64} {reply : Option Http.Reply} (hsent : Accepts reply hash) :
    MayConfirm (AsksSubmit url content) url hash (Transcript.empty.exchanged (sendRequest url content) n reply)
      (Waits hash) where
  patience := by
    have h : Waits hash 0 0 (Transcript.empty.exchanged (sendRequest url content) n reply) :=
      ⟨rfl, Nat.le_refl _, _, [], rfl, hsent, List.forall_mem_nil _, rfl⟩
    exact h.isOpen
  first last := ⟨rfl, Nat.zero_le _, _, [], rfl, hsent, List.forall_mem_nil _, rfl⟩
  poll last := {
    call := Waits.mayCall
    pause := fun h hk hreply => (h.next hk hreply).isOpen
    next := Waits.next }

theorem settles_of_submitEnds (h : SubmitEnds url content .empty Waits t v) : Settles t.patience t.replies v := by
  cases h with
  | refused hsent => exact .refused hsent
  | @found hash last k t₀ n reply v h _ hv =>
    obtain ⟨first, polls, hreplies, hsent, hpolls, rfl⟩ := h.replies_eq
    rw [Transcript.replies_exchanged, hreplies, Transcript.patience_exchanged, h.patience]
    exact .polled hsent (.found hpolls h.within hv)
  | @late hash last t₀ n reply h hreply =>
    obtain ⟨first, polls, hreplies, hsent, hpolls, hlength⟩ := h.replies_eq
    rw [Transcript.replies_exchanged, hreplies, Transcript.patience_exchanged, h.patience]
    refine .polled hsent (.late ?_ (by simp [hlength]))
    exact List.forall_mem_append.2 ⟨hpolls, List.forall_mem_singleton.2 hreply⟩

/-- **A submission posts what it may, and ends with what its replies come to.** -/
theorem keeps_submit_settled (url content : String) :
    Keeps (hearing (AsksSubmit url content)) (fun t v => Settles t.patience t.replies v) (submit url content)
      .empty := by
  have hopen : Open .empty := fun v h => by cases h
  have hsend : MayCall (AsksSubmit url content) .empty (sendRequest url content) :=
    ⟨hopen, fun n => ⟨hopen, .send n⟩, fun n reply line => trivial⟩
  exact (keeps_submit hsend fun n reply hash hsent => mayConfirm_of_sent hsent).mono fun t v => settles_of_submitEnds

end SupplyTrail.Rpc
