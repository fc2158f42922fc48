import SupplyTrail.Proofs.FaultMapping
import SupplyTrail.Wallet.Signer
/-!
# Replies — what a signer's replies come to

A signer is asked by one request, and the reply to it alone says what comes of that.  A reply grants a text if its
status is a success and its body decodes to that text without an error; it refuses with a text if its body decodes to
that error, whatever its status is and whatever else it gives.  Nothing but a grant yields an account or an envelope.
-/
namespace SupplyTrail.Signer

open Activity Http
open Client (Talks)
open Json (Source Record HasOr reads_text needOr_eq_ok_iff holds_of_hasOr)
open Json.Source

variable {field text url key : String} {network : Network} {account : Account} {payload : List UInt8}

/-! ## Replies -/

/-- The members of a response: what it gives under a name, and an error. -/
structure Response.Members (field : String) (members : List (String × Source)) (response : Response) : Prop where
  given : HasOr none (OrNull IsText) members field response.given
  error : HasOr none (OrNull IsText) members "error" response.error

def Response.Denotes (field : String) (s : Source) (response : Response) : Prop :=
  ∃ members, Record [field, "error"] 2 s members ∧ Response.Members field members response

theorem Response.decode_eq_ok_iff (hfield : field ≠ "error") {s : Source} {response : Response} :
    Response.decode field s = .ok response ↔ Response.Denotes field s response := by
  have hnames : (Response.form field).names = [field, "error"] := rfl
  refine Json.Form.locate_bind_eq_ok_iff (by simp [hnames, hfield]) (fun found r => ?_) (fun hsame h => ?_)
    fun members r h => ?_
  · simp only [bind_eq_ok_iff, needOr_eq_ok_iff reads_text.nullable, pure, Except.pure, Except.ok.injEq]
    constructor
    · rintro ⟨given, hgiven, error, herror, rfl⟩
      exact ⟨hgiven, herror⟩
    · exact fun h => ⟨_, h.given, _, h.error, rfl⟩
  · exact ⟨h.given.congr (hsame _ (by simp [hnames])), h.error.congr (hsame _ (by simp [hnames]))⟩
  · simp only [Response.form, List.forall_mem_cons]
    exact ⟨holds_of_hasOr reads_text.nullable h.given (by decide),
      holds_of_hasOr reads_text.nullable h.error (by decide), nofun⟩

/-- The body of a reply denotes a response of a signer. -/
def Decodes (field : String) (reply : Reply) (response : Response) : Prop :=
  ∃ document, reply.document? = some document ∧ Response.Denotes field document response

/-- A reply with a status of success whose body decodes to this text and no error. -/
def Grants (field : String) (reply : Option Reply) (text : String) : Prop :=
  ∃ r, reply = some r ∧ 200 ≤ r.status ∧ r.status ≤ 299 ∧ Decodes field r ⟨some text, none⟩

/-- A reply whose body decodes to this error, whatever its status is and whatever else it gives. -/
def Refuses (field : String) (reply : Option Reply) (text : String) : Prop :=
  ∃ r given, reply = some r ∧ Decodes field r ⟨given, some text⟩

variable {refuse : String → WalletError} {r : Reply} {reply : Option Reply}

theorem readReply_of_refuses (hfield : field ≠ "error") {given : Option String}
    (h : Decodes field r ⟨given, some text⟩) : readReply field refuse r = .error (refuse text) := by
  obtain ⟨document, hdocument, hdenotes⟩ := h
  simp only [readReply, hdocument, Option.map_some, (Response.decode_eq_ok_iff hfield).2 hdenotes]

theorem readReply_of_decodes (hfield : field ≠ "error") {given : Option String} (h : Decodes field r ⟨given, none⟩) :
    readReply field refuse r =
      if r.isSuccess then .ok given else .error (refuse s!"signer returned HTTP {Http.statusText r.status}") := by
  obtain ⟨document, hdocument, hdenotes⟩ := h
  simp only [readReply, hdocument, Option.map_some, (Response.decode_eq_ok_iff hfield).2 hdenotes]

theorem decodes_of_readReply (hfield : field ≠ "error") {given : Option String}
    (h : readReply field refuse r = .ok given) : ∃ response, Decodes field r response := by
  unfold readReply at h
  cases hdocument : r.document? with
  | none =>
    rw [hdocument] at h
    cases h
  | some document =>
    cases hdecode : Response.decode field document with
    | error e =>
      rw [hdocument, Option.map_some, hdecode] at h
      cases h
    | ok response => exact ⟨response, document, hdocument, (Response.decode_eq_ok_iff hfield).1 hdecode⟩

/-- **What a reply gives**: it gives something only with a status of success and without an error. -/
theorem readReply_eq_ok_iff (hfield : field ≠ "error") {given : Option String} :
    readReply field refuse r = .ok given ↔ 200 ≤ r.status ∧ r.status ≤ 299 ∧ Decodes field r ⟨given, none⟩ := by
  constructor
  · intro h
    obtain ⟨⟨found, error⟩, hdecodes⟩ := decodes_of_readReply hfield h
    cases error with
    | some error =>
      rw [readReply_of_refuses hfield hdecodes] at h
      cases h
    | none =>
      rw [readReply_of_decodes hfield hdecodes] at h
      by_cases hstatus : r.isSuccess = true
      · rw [if_pos hstatus] at h
        cases h
        obtain ⟨hleast, hmost⟩ := r.isSuccess_iff.1 hstatus
        exact ⟨hleast, hmost, hdecodes⟩
      · rw [if_neg hstatus] at h
        cases h
  · rintro ⟨hleast, hmost, hdecodes⟩
    rw [readReply_of_decodes hfield hdecodes]
    exact if_pos (r.isSuccess_iff.2 ⟨hleast, hmost⟩)

theorem grants_iff (hfield : field ≠ "error") (refuse : String → WalletError) :
    Grants field (some r) text ↔ readReply field refuse r = .ok (some text) := by
  rw [readReply_eq_ok_iff hfield]
  constructor
  · rintro ⟨_, hr, h⟩
    exact Option.some.inj hr ▸ h
  · exact fun h => ⟨r, rfl, h⟩

/-! ## Accounts and envelopes -/

/-- What comes of the reply to a request for an account. -/
def accountOf : Option Reply → Except WalletError Account
  | none => .error (.connection s!"signer unreachable: {faultText}")
  | some r => readAccount r

/-- What comes of the reply to a request for a signature. -/
def envelopeOf (account : Account) : Option Reply → Except WalletError Envelope
  | none => .error .http
  | some r => readEnvelope account r

/-- **An account is given by a reply that grants its key**, if there is more to the key than white space. -/
theorem accountOf_eq_ok_iff : accountOf reply = .ok account ↔
    Grants "publicKey" reply account.publicKey ∧ Text.trim account.publicKey ≠ "" := by
  cases reply with
  | none => exact ⟨nofun, fun ⟨⟨_, h, _⟩, _⟩ => nomatch h⟩
  | some r =>
    rw [grants_iff (by decide) .connection, Ne, ← Text.isBlank_iff_trim_eq_empty, accountOf, readAccount]
    cases hread : readReply "publicKey" .connection r with
    | error e => simp
    | ok given =>
      cases given with
      | none => simp
      | some key =>
        by_cases hblank : Text.isBlank key = true
        · simp only [if_pos hblank, Except.ok.injEq, Option.some.injEq, reduceCtorEq, false_iff]
          rintro ⟨rfl, hkey⟩
          exact hkey hblank
        · simp only [if_neg hblank, Except.ok.injEq, Option.some.injEq]
          constructor
          · rintro rfl
            exact ⟨rfl, hblank⟩
          · rintro ⟨rfl, -⟩
            rfl

/-- **An envelope is given by a reply that grants its text**, and is signed by the account that was asked. -/
theorem envelopeOf_eq_ok_iff {e : Envelope} : envelopeOf account reply = .ok e ↔
    e.signer = account.publicKey ∧ Grants "signedEnvelope" reply e.content := by
  cases reply with
  | none => exact ⟨nofun, fun ⟨_, _, h, _⟩ => nomatch h⟩
  | some r =>
    rw [grants_iff (by decide) .signing, envelopeOf, readEnvelope]
    cases hread : readReply "signedEnvelope" .signing r with
    | error e => simp
    | ok given =>
      cases given with
      | none => simp
      | some content =>
        obtain ⟨signer, found⟩ := e
        simp only [Except.ok.injEq, Envelope.mk.injEq, Option.some.injEq]
        exact and_congr_left fun _ => eq_comm

theorem accountOf_of_refuses (h : Refuses "publicKey" reply text) : accountOf reply = .error (.connection text) := by
  obtain ⟨r, given, rfl, hdecodes⟩ := h
  rw [accountOf, readAccount, readReply_of_refuses (by decide) hdecodes]

theorem envelopeOf_of_refuses (h : Refuses "signedEnvelope" reply text) :
    envelopeOf account reply = .error (.signing text) := by
  obtain ⟨r, given, rfl, hdecodes⟩ := h
  rw [envelopeOf, readEnvelope, readReply_of_refuses (by decide) hdecodes]

/-! ## Talks with a signer -/

/-- What an address begins with: the url without the slashes at its end. -/
structure IsBase (url base : String) : Prop where
  slashes : ∃ n, url.toList = base.toList ++ List.replicate n '/'
  bare : base.toList.getLast? ≠ some '/'

theorem address_of_base {base : String} (h : IsBase url base) (service : String) :
    address url service = base ++ "/" ++ service := by
  obtain ⟨⟨n, hurl⟩, hbare⟩ := h
  have hdrop : (base.toList.reverse).dropWhile (· == '/') = base.toList.reverse := by
    cases hlast : base.toList.reverse with
    | nil => rfl
    | cons c cs =>
      have hc : c ≠ '/' := by
        rintro rfl
        exact hbare (by rw [← List.head?_reverse, hlast]; rfl)
      simp [hc]
  have htrim : trimSlashes url = base := by
    rw [trimSlashes, hurl, List.reverse_append, List.reverse_replicate, List.dropWhile_append_of_pos (by simp), hdrop,
      List.reverse_reverse, String.ofList_toList]
  rw [address, htrim]
  rfl

/-- The request for an account on a network. -/
def connectRequest (url : String) (network : Network) : Request :=
  ⟨address url "connect",
    some (.object [("network", .string network.name), ("networkPassphrase", .string network.passphrase)])⟩

/-- The request for a signature of a payload by the account with this key. -/
def signRequest (url key : String) (network : Network) (payload : List UInt8) : Request :=
  ⟨address url "sign", some (.object [("publicKey", .string key), ("networkPassphrase", .string network.passphrase),
    ("payload", .string (Text.encodeHex payload))])⟩

/-- The transcript of a talk that is one request and the reply to it. -/
def exchange (request : Request) (reply : Option Reply) : Transcript := ⟨[], [⟨request, reply⟩], 0⟩

@[simp] theorem exchange_inj {request request' : Request} {reply reply' : Option Reply} :
    exchange request reply = exchange request' reply' ↔ request = request' ∧ reply = reply' := by
  simp [exchange]

/-- A talk that posts one request, and only leaves log lines after that, is one exchange. -/
theorem talks_post_iff {α : Type} (request : Request) {next : Option Reply → Talk α} {outcomeOf : Option Reply → α}
    (hnext : ∀ reply s a t, Yields (hearing fun _ _ => True) (next reply) s a t ↔ a = outcomeOf reply ∧ t = s)
    {a : α} {t : Transcript} : Talks (post request.url request.body >>= next) a t ↔
      ∃ reply, t = exchange request reply ∧ a = outcomeOf reply := by
  constructor
  · rintro ⟨reply, _, rfl, h⟩
    obtain ⟨rfl, rfl⟩ := (hnext reply _ a t).1 h
    exact ⟨reply, rfl, rfl⟩
  · rintro ⟨reply, rfl, rfl⟩
    exact ⟨reply, _, rfl, (hnext reply _ _ _).2 ⟨rfl, rfl⟩⟩

/-- **A call to connect is one exchange**: any reply ends it, and the reply alone says how. -/
theorem talks_connect_iff {outcome : Except WalletError Account} {t : Transcript} :
    Talks (connect url network) outcome t ↔
      ∃ reply, t = exchange (connectRequest url network) reply ∧ outcome = accountOf reply := by
  refine talks_post_iff (connectRequest url network) fun reply s a t => ?_
  cases reply with
  | none => exact Iff.rfl
  | some r =>
    dsimp only [accountOf]
    cases readAccount r with
    | error e => exact Iff.rfl
    | ok account =>
      -- the account is noted, and that leaves no trace
      constructor
      · rintro ⟨_, _, rfl, rfl, rfl⟩
        exact ⟨rfl, rfl⟩
      · rintro ⟨rfl, rfl⟩
        exact ⟨(), _, rfl, rfl, rfl⟩

theorem talks_connect_exchange_iff {outcome : Except WalletError Account} :
    Talks (connect url network) outcome (exchange (connectRequest url network) reply) ↔ outcome = accountOf reply := by
  simp [talks_connect_iff]

/-- **A call to sign is one exchange**: any reply ends it, and the reply alone says how. -/
theorem talks_sign_iff {outcome : Except WalletError Envelope} {t : Transcript} :
    Talks (sign url account network payload) outcome t ↔
      ∃ reply, t = exchange (signRequest url account.publicKey network payload) reply ∧
        outcome = envelopeOf account reply := by
  refine talks_post_iff (signRequest url account.publicKey network payload) fun reply s a t => ?_
  cases reply with
  | none => exact Iff.rfl
  | some r => exact Iff.rfl

theorem talks_sign_exchange_iff {outcome : Except WalletError Envelope} :
    Talks (sign url account network payload) outcome
        (exchange (signRequest url account.publicKey network payload) reply) ↔
      outcome = envelopeOf account reply := by
  simp [talks_sign_iff]

end SupplyTrail.Signer
