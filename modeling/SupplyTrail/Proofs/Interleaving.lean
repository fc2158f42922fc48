import Mathlib.Logic.Function.Basic
import Mathlib.Logic.Relation
import SupplyTrail.Proofs.Conduct.Writing
/-!
# Interleaving — many operations in one world

A world holds what surrounds the clients, what each client remembers, and the operations begun so far.  One step begins
an operation, answers one question of one operation, answers a query that a history read has out, or is a move of the
surroundings themselves.  Operations that share a thread run in turns: from one outside answer to the next outside
question an operation is not interrupted.  An operation that is never answered again was dropped by its caller.
-/
namespace SupplyTrail.Interleaving

open Client Activity
open Rehearsal (Result)
open Relation (ReflTransGen)

/-- How what surrounds the clients answers, and what else happens there. -/
structure Surroundings (σ : Type) where
  /-- Operations run at the same time and not in turns. -/
  parallel : Prop
  /-- What the process answers: active network, clock, connected account, nonces. -/
  own : (q : Own) → σ → q.Answer → Prop
  /-- What the wallet and the ledger answer. -/
  away : (q : Away) → σ → q.Answer → σ → Prop
  /-- What happens unasked. -/
  other : σ → σ → Prop

/-- A query of a history read that is out, and the ledger's reading once there is one. -/
structure Errand where
  ticket : Ticket
  url : String
  call : ContractCall
  reading : Option Reading

/-- What answers depend on and what they change. -/
structure View (σ : Type) where
  around : σ
  known : ProductId → Option UInt64
  errands : List Errand

/-- An answer to a question, and what is there after it.  What a client remembers is its own; a query of a history read
is answered at once or stays out, and one that is out is settled with a reading that has been made. -/
def Answered {σ : Type} (S : Surroundings σ) : (q : Question) → View σ → q.Answer → View σ → Prop
  | .own (.lastSeen p), v, a, w => a = v.known p ∧ w = v
  | .own (.remember p t), v, _, w => w = { v with known := Function.update v.known p (some t) }
  | .own .activeNetwork, v, a, w => S.own .activeNetwork v.around a ∧ w = v
  | .own .clock, v, a, w => S.own .clock v.around a ∧ w = v
  | .own .account, v, a, w => S.own .account v.around a ∧ w = v
  | .own .nonce, v, a, w => S.own .nonce v.around a ∧ w = v
  | .own (.note _), v, _, w => w = v
  | .away (.fetch t url call), v, none, w => w = { v with errands := ⟨t, url, call, none⟩ :: v.errands }
  | .away (.fetch _ url call), v, some r, w => ∃ s, S.away (.query url call) v.around r s ∧ w = { v with around := s }
  | .away (.settle _ _), v, (t, r), w => (∃ e ∈ v.errands, e.ticket = t ∧ e.reading = some r) ∧ w = v
  | .away (.sign account network payload), v, a, w =>
    ∃ s, S.away (.sign account network payload) v.around a s ∧ w = { v with around := s }
  | .away (.query url call), v, a, w => ∃ s, S.away (.query url call) v.around a s ∧ w = { v with around := s }
  | .away (.submit url e), v, a, w => ∃ s, S.away (.submit url e) v.around a s ∧ w = { v with around := s }
  | .away (.health url), v, a, w => ∃ s, S.away (.health url) v.around a s ∧ w = { v with around := s }

/-- An operation that was begun: whose it is, its dialogue so far, its queries that are out, and its further course. -/
structure Task (σ : Type) where
  member : Nat
  operation : Operation
  told : Dialogue σ
  errands : List Errand
  rest : Run Result

namespace Task

variable {σ : Type}

def begun (clients : Nat → Client) (member : Nat) (op : Operation) : Task σ :=
  ⟨member, op, [], [], op.run (clients member)⟩

/-- An operation after the answer to a question. -/
def hear (τ : Task σ) (turn : Turn σ) (errands : List Errand) (rest : Run Result) : Task σ :=
  ⟨τ.member, τ.operation, turn :: τ.told, errands, rest⟩

/-- An operation after one of its queries got its reading. -/
def served (τ : Task σ) (e : Errand) (r : Reading) : Task σ :=
  { τ with errands := { e with reading := some r } :: τ.errands }

end Task

structure World (σ : Type) where
  around : σ
  /-- What each client remembers. -/
  known : Nat → ProductId → Option UInt64
  tasks : Nat → Option (Task σ)
  /-- The operation whose turn it is. -/
  running : Option Nat

variable {σ : Type}

/-- The next question is for the own process. -/
def asksOwn {α : Type} : Run α → Bool
  | .ask (.own _) _ => true
  | .ask (.away _) _ | .done _ => false

namespace World

def start (s : σ) : World σ := ⟨s, fun _ _ => none, fun _ => none, none⟩

def view (w : World σ) (τ : Task σ) : View σ := ⟨w.around, w.known τ.member, τ.errands⟩

def begin (w : World σ) (clients : Nat → Client) (id member : Nat) (op : Operation) : World σ :=
  { w with tasks := Function.update w.tasks id (some (.begun clients member op)) }

/-- Whose turn it is after an answer: an operation that asks its own process goes on. -/
def turnAfter (w : World σ) (id : Nat) (q : Question) (rest : Run Result) : Option Nat :=
  match q with
  | .own _ => if asksOwn rest then some id else none
  | .away _ => w.running

/-- The world after a question of an operation was answered. -/
def answer (w : World σ) (id : Nat) (τ : Task σ) (q : Question) (a : q.Answer) (v : View σ) (rest : Run Result) :
    World σ where
  around := v.around
  known := Function.update w.known τ.member v.known
  tasks := Function.update w.tasks id (some (τ.hear ⟨q, a, w.around⟩ v.errands rest))
  running := w.turnAfter id q rest

/-- The world after a query that was out got its reading. -/
def serve (w : World σ) (id : Nat) (τ : Task σ) (e : Errand) (r : Reading) (s : σ) : World σ :=
  { w with around := s, tasks := Function.update w.tasks id (some (τ.served e r)) }

end World

def MayRun (S : Surroundings σ) (w : World σ) (id : Nat) : Question → Prop
  | .own _ => S.parallel ∨ w.running = none ∨ w.running = some id
  | .away _ => True

/-- One step of a world. -/
inductive Step (S : Surroundings σ) (clients : Nat → Client) : World σ → World σ → Prop
  | begin {w : World σ} {id : Nat} (member : Nat) (op : Operation) (hid : w.tasks id = none) :
      Step S clients w (w.begin clients id member op)
  | answer {w : World σ} {id : Nat} {τ : Task σ} {q : Question} {next : q.Answer → Run Result} {a : q.Answer}
      {v : View σ}
      (hτ : w.tasks id = some τ) (hrest : τ.rest = .ask q next) (hturn : MayRun S w id q)
      (ha : Answered S q (w.view τ) a v) : Step S clients w (w.answer id τ q a v (next a))
  | serve {w : World σ} {id : Nat} {τ : Task σ} {e : Errand} {r : Reading} {s : σ} (hτ : w.tasks id = some τ)
      (he : e ∈ τ.errands) (hr : S.away (.query e.url e.call) w.around r s) :
      Step S clients w (w.serve id τ e r s)
  | other {w : World σ} {s : σ} (hturn : S.parallel ∨ w.running = none) (hs : S.other w.around s) :
      Step S clients w { w with around := s }

abbrev Steps (S : Surroundings σ) (clients : Nat → Client) : World σ → World σ → Prop := ReflTransGen (Step S clients)

variable {S : Surroundings σ} {clients : Nat → Client} {w w' : World σ} {id : Nat} {τ τ' : Task σ}

/-! ## Every operation keeps its conduct -/

/-- An operation's further course keeps its conduct after its dialogue. -/
def Conducted (clients : Nat → Client) (τ : Task σ) : Prop :=
  Keeps (operating (clients τ.member) τ.operation) (fun d r => Upshot (clients τ.member) d τ.operation r) τ.rest τ.told

/-- All operations of a world keep their conduct. -/
def AllConducted (clients : Nat → Client) (w : World σ) : Prop := ∀ id τ, w.tasks id = some τ → Conducted clients τ

variable {asks : Client → Operation → Dialogue σ → Question → Prop}
  {ends : Client → Operation → Dialogue σ → Result → Prop}

/-- An operation's further course keeps some rules of its client and itself after its dialogue. -/
def Keeping (clients : Nat → Client) (asks : Client → Operation → Dialogue σ → Question → Prop)
    (ends : Client → Operation → Dialogue σ → Result → Prop) (τ : Task σ) : Prop :=
  Keeps (hearing (asks (clients τ.member) τ.operation)) (ends (clients τ.member) τ.operation) τ.rest τ.told

theorem Keeping.next {q : Question} {next : q.Answer → Run Result} (h : Keeping clients asks ends τ)
    (hrest : τ.rest = .ask q next) (a : q.Answer) (m : σ) (errands : List Errand) :
    Keeping clients asks ends (τ.hear ⟨q, a, m⟩ errands (next a)) := by
  unfold Keeping at h
  rw [hrest] at h
  exact h.2 a _ ⟨m, rfl⟩

theorem Keeping.asked {q : Question} {next : q.Answer → Run Result} (h : Keeping clients asks ends τ)
    (hrest : τ.rest = .ask q next) : asks (clients τ.member) τ.operation τ.told q := by
  unfold Keeping at h
  rw [hrest] at h
  exact h.1

theorem Keeping.ended {r : Result} (h : Keeping clients asks ends τ) (hrest : τ.rest = .done r) :
    ends (clients τ.member) τ.operation τ.told r := by
  unfold Keeping at h
  rw [hrest] at h
  exact h

theorem suffix_of_yields {asks : Dialogue σ → Question → Prop} {α : Type} {x : Run α} {d d' : Dialogue σ} {a : α}
    (h : Yields (hearing asks) x d a d') : d <:+ d' := by
  induction x generalizing d with
  | done b =>
    obtain ⟨-, rfl⟩ := h
    exact List.suffix_refl _
  | ask q next ih =>
    obtain ⟨b, d₁, ⟨m, rfl⟩, hy⟩ := h
    exact (List.suffix_cons _ _).trans (ih b hy)

/-- **An operation can always be brought to its end**: it has ended, or some further answers end it. -/
theorem Keeping.exists_end (h : Keeping clients asks ends τ) (m : σ) :
    (∃ r, τ.rest = .done r ∧ ends (clients τ.member) τ.operation τ.told r) ∨
      ∃ t d r, t :: τ.told <:+ d ∧ ends (clients τ.member) τ.operation d r := by
  cases hrest : τ.rest with
  | done r => exact .inl ⟨r, rfl, h.ended hrest⟩
  | ask q next =>
    obtain ⟨a⟩ := answerable q
    have hnext := h.next hrest a m []
    obtain ⟨r, d, hy⟩ := hnext.exists_yields fun d q _ => ⟨(answerable q).some, _, m, rfl⟩
    exact .inr ⟨_, d, r, suffix_of_yields hy, hnext.yields hy⟩

theorem keeping_of_step (hrun : ∀ c op, Keeps (hearing (asks c op)) (ends c op) (op.run c) [])
    (h : ∀ id τ, w.tasks id = some τ → Keeping clients asks ends τ) (hs : Step S clients w w') :
    ∀ id τ, w'.tasks id = some τ → Keeping clients asks ends τ := by
  intro i τ' hτ'
  cases hs with
  | begin member op hid =>
    have hbegun : Keeping clients asks ends (.begun clients member op : Task σ) := hrun (clients member) op
    exact tasks_update h hbegun hτ'
  | answer hτ hrest hturn ha => exact tasks_update h ((h _ _ hτ).next hrest _ _ _) hτ'
  | @serve id τ e r s hτ he hr =>
    have hserved : Keeping clients asks ends (τ.served e r) := h id τ hτ
    exact tasks_update h hserved hτ'
  | other hturn hs => exact h i τ' hτ'

/-- **What every operation keeps by itself it keeps in every run.** -/
theorem keeping_of_steps (hrun : ∀ c op, Keeps (hearing (asks c op)) (ends c op) (op.run c) []) {s : σ}
    (h : Steps S clients (.start s) w) : ∀ id τ, w.tasks id = some τ → Keeping clients asks ends τ := by
  induction h with
  | refl => exact fun i τ h => by cases h
  | tail _ hs ih => exact keeping_of_step hrun ih hs

/-- **Every operation of a run keeps its conduct.** -/
theorem allConducted_of_steps {s : σ} (h : Steps S clients (.start s) w) : AllConducted clients w :=
  keeping_of_steps (fun c op => keeps_run c op) h

theorem conducted_iff :
    Conducted clients τ ↔ Keeping clients (fun c op => Warrant c op) (fun c op d r => Upshot c d op r) τ := Iff.rfl

theorem Conducted.warrant {q : Question} {next : q.Answer → Run Result} (h : Conducted clients τ)
    (hrest : τ.rest = .ask q next) : Warrant (clients τ.member) τ.operation τ.told q :=
  (conducted_iff.1 h).asked hrest

theorem Conducted.upshot {r : Result} (h : Conducted clients τ) (hrest : τ.rest = .done r) :
    Upshot (clients τ.member) τ.told τ.operation r :=
  (conducted_iff.1 h).ended hrest

/-- The envelope is the signature of an invocation, the latest that was asked for. -/
def IsSignatureOf (d : Dialogue σ) (i : Invocation) (e : Envelope) : Prop :=
  ∃ signer network m d', d = ⟨.away (.sign signer network i.toBytes), .ok e, m⟩ :: d'

theorem isSignatureOf_of_signed {c : Client} {op : Operation} {p : ProductId} {time : UInt64} {i : Invocation}
    {e : Envelope} {d : Dialogue σ} (h : Signed c op p time i e d) : IsSignatureOf d i e := by
  obtain ⟨hinv⟩ := h
  exact ⟨_, _, _, _, rfl⟩

/-! ## What surrounds the clients develops -/

/-- Whatever happens takes the surroundings from one state to a state that it is related to. -/
structure Develops (S : Surroundings σ) (R : σ → σ → Prop) : Prop where
  refl : ∀ s, R s s
  trans : ∀ {s t u}, R s t → R t u → R s u
  away : ∀ {q s a s'}, S.away q s a s' → R s s'
  other : ∀ {s s'}, S.other s s' → R s s'

variable {R : σ → σ → Prop}

theorem around_of_own {q : Own} {v v' : View σ} {a : q.Answer} (h : Answered S (.own q) v a v') :
    v'.around = v.around := by
  cases q with
  | activeNetwork => exact congrArg View.around h.2
  | clock => exact congrArg View.around h.2
  | account => exact congrArg View.around h.2
  | nonce => exact congrArg View.around h.2
  | lastSeen p => exact congrArg View.around h.2
  | remember p t => cases h; rfl
  | note line => cases h; rfl

theorem errands_cases {q : Question} {v v' : View σ} {a : q.Answer} (h : Answered S q v a v') :
    v'.errands = v.errands ∨
      ∃ t url call, q = .away (.fetch t url call) ∧ v'.errands = ⟨t, url, call, none⟩ :: v.errands := by
  cases q with
  | own q =>
    cases q with
    | remember p t => cases h; exact .inl rfl
    | note line => cases h; exact .inl rfl
    | activeNetwork => exact .inl (congrArg View.errands h.2)
    | clock => exact .inl (congrArg View.errands h.2)
    | account => exact .inl (congrArg View.errands h.2)
    | nonce => exact .inl (congrArg View.errands h.2)
    | lastSeen p => exact .inl (congrArg View.errands h.2)
  | away q =>
    cases q with
    | fetch t url call =>
      cases a with
      | none => cases h; exact .inr ⟨t, url, call, rfl, rfl⟩
      | some r =>
        obtain ⟨s, -, rfl⟩ := h
        exact .inl rfl
    | settle first others => exact .inl (congrArg View.errands h.2)
    | sign account network payload =>
      obtain ⟨s, -, rfl⟩ := h
      exact .inl rfl
    | query url call =>
      obtain ⟨s, -, rfl⟩ := h
      exact .inl rfl
    | submit url e =>
      obtain ⟨s, -, rfl⟩ := h
      exact .inl rfl
    | health url =>
      obtain ⟨s, -, rfl⟩ := h
      exact .inl rfl

theorem known_cases {q : Question} {v v' : View σ} {a : q.Answer} (h : Answered S q v a v') :
    v'.known = v.known ∨ ∃ p t, q = .own (.remember p t) ∧ v'.known = Function.update v.known p (some t) := by
  cases q with
  | own q =>
    cases q with
    | remember p t => cases h; exact .inr ⟨p, t, rfl, rfl⟩
    | note line => cases h; exact .inl rfl
    | activeNetwork => exact .inl (congrArg View.known h.2)
    | clock => exact .inl (congrArg View.known h.2)
    | account => exact .inl (congrArg View.known h.2)
    | nonce => exact .inl (congrArg View.known h.2)
    | lastSeen p => exact .inl (congrArg View.known h.2)
  | away q =>
    cases q with
    | fetch t url call =>
      cases a with
      | none => cases h; exact .inl rfl
      | some r =>
        obtain ⟨s, -, rfl⟩ := h
        exact .inl rfl
    | settle first others => exact .inl (congrArg View.known h.2)
    | sign account network payload =>
      obtain ⟨s, -, rfl⟩ := h
      exact .inl rfl
    | query url call =>
      obtain ⟨s, -, rfl⟩ := h
      exact .inl rfl
    | submit url e =>
      obtain ⟨s, -, rfl⟩ := h
      exact .inl rfl
    | health url =>
      obtain ⟨s, -, rfl⟩ := h
      exact .inl rfl

/-- What a client knows changes only as one of its operations remembers another time. -/
theorem known_of_step (hs : Step S clients w w') (k : Nat) (p : ProductId) : w'.known k p = w.known k p ∨
    ∃ id τ t next v, w.tasks id = some τ ∧ τ.member = k ∧ τ.rest = .ask (.own (.remember p t)) next ∧
      w' = w.answer id τ (.own (.remember p t)) () v (next ()) ∧ w'.known k p = some t := by
  cases hs with
  | begin member op hid => exact .inl rfl
  | serve hτ he hr => exact .inl rfl
  | other hturn hs => exact .inl rfl
  | @answer id τ q next a v hτ hrest hturn ha =>
    by_cases hk : k = τ.member
    · subst hk
      have hknown : (w.answer id τ q a v (next a)).known τ.member = v.known := Function.update_self _ _ _
      rw [hknown]
      rcases known_cases ha with hsame | ⟨p', t, rfl, hv⟩
      · exact .inl (congrFun hsame p)
      · rw [hv]
        by_cases hp : p = p'
        · subst hp
          exact .inr ⟨id, τ, t, next, v, hτ, rfl, hrest, rfl, Function.update_self _ _ _⟩
        · exact .inl (Function.update_of_ne hp _ _)
    · exact .inl (congrFun (Function.update_of_ne hk _ _) p)

theorem errands_of_answered {q : Question} {v v' : View σ} {a : q.Answer} (h : Answered S q v a v') :
    v.errands <:+ v'.errands := by
  rcases errands_cases h with heq | ⟨t, url, call, -, heq⟩
  · exact heq ▸ List.suffix_refl _
  · exact heq ▸ List.suffix_cons _ _

/-- Where every query that was left out is among the errands, it still is after one more turn. -/
theorem errand_of_told {d : Dialogue σ} {v v' : View σ}
    (h : ∀ t url call, Told d (.away (.fetch t url call)) none → ∃ e ∈ v.errands, e.ticket = t) {q : Question}
    {a : q.Answer} (ha : Answered S q v a v') {m : σ} (t : Ticket) (url : String) (call : ContractCall)
    (htold : Told (⟨q, a, m⟩ :: d) (.away (.fetch t url call)) none) : ∃ e ∈ v'.errands, e.ticket = t := by
  obtain ⟨m', hm⟩ := htold
  have hkept : v.errands <:+ v'.errands := errands_of_answered ha
  rcases List.mem_cons.1 hm with hm | hm
  · cases hm
    cases ha
    exact ⟨_, List.mem_cons_self, rfl⟩
  · obtain ⟨e, he, ht⟩ := h t url call ⟨m', hm⟩
    exact ⟨e, hkept.subset he, ht⟩

/-- An answer changes what is around no further than the answers from outside do. -/
theorem around_of_answered (hrefl : ∀ s, R s s) (haway : ∀ {q s a s'}, S.away q s a s' → R s s') {q : Question}
    {v v' : View σ} {a : q.Answer} (h : Answered S q v a v') : R v.around v'.around := by
  cases q with
  | own q => rw [around_of_own h]; exact hrefl _
  | away q =>
    cases q with
    | sign account network payload =>
      obtain ⟨s, hs, rfl⟩ := h
      exact haway hs
    | query url call =>
      obtain ⟨s, hs, rfl⟩ := h
      exact haway hs
    | submit url e =>
      obtain ⟨s, hs, rfl⟩ := h
      exact haway hs
    | health url =>
      obtain ⟨s, hs, rfl⟩ := h
      exact haway hs
    | fetch t url call =>
      cases a with
      | none => cases h; exact hrefl _
      | some r =>
        obtain ⟨s, hs, rfl⟩ := h
        exact haway hs
    | settle first others => rw [h.2]; exact hrefl _

theorem Develops.step (hR : Develops S R) (hs : Step S clients w w') : R w.around w'.around := by
  cases hs with
  | begin member op hid => exact hR.refl _
  | answer hτ hrest hturn ha => exact around_of_answered hR.refl hR.away ha
  | serve hτ he hr => exact hR.away hr
  | other hturn hs => exact hR.other hs

theorem Develops.steps (hR : Develops S R) (hs : Steps S clients w w') : R w.around w'.around := by
  induction hs with
  | refl => exact hR.refl _
  | tail _ hs ih => exact hR.trans ih (hR.step hs)

/-- The surroundings gave the answer of a turn at its moment, and have developed since to what they are now. -/
def Since (S : Surroundings σ) (R : σ → σ → Prop) (now : σ) (t : Turn σ) : Prop :=
  ∃ v v', v.around = t.moment ∧ Answered S t.question v t.answer v' ∧ R t.moment v'.around ∧ R v'.around now

/-- All answers in a world were given by the surroundings. -/
def AllSince (S : Surroundings σ) (R : σ → σ → Prop) (w : World σ) : Prop :=
  ∀ id τ, w.tasks id = some τ → ∀ t ∈ τ.told, Since S R w.around t

theorem Since.later (hR : Develops S R) {now now' : σ} {t : Turn σ} (h : Since S R now t) (hnow : R now now') :
    Since S R now' t := by
  obtain ⟨v, v', hv, ha, hfirst, hthen⟩ := h
  exact ⟨v, v', hv, ha, hfirst, hR.trans hthen hnow⟩

theorem AllSince.step (hR : Develops S R) (h : AllSince S R w) (hs : Step S clients w w') : AllSince S R w' := by
  have hnow := hR.step hs
  have hold : ∀ id τ, w.tasks id = some τ → ∀ t ∈ τ.told, Since S R w'.around t := fun id τ hτ t ht =>
    (h id τ hτ t ht).later hR hnow
  intro i τ' hτ'
  cases hs with
  | begin member op hid =>
    have hnew : ∀ t ∈ (Task.begun clients member op : Task σ).told, Since S R w.around t := fun t ht => by cases ht
    exact tasks_update hold hnew hτ'
  | @answer id τ q next a v hτ hrest hturn ha =>
    refine tasks_update hold (fun t ht => ?_) hτ'
    rcases List.mem_cons.1 ht with rfl | ht
    · exact ⟨w.view τ, v, rfl, ha, hnow, hR.refl _⟩
    · exact hold id τ hτ t ht
  | @serve id τ e r s hτ he hr =>
    have hserved : ∀ t ∈ (τ.served e r).told, Since S R s t := hold id τ hτ
    exact tasks_update hold hserved hτ'
  | other hturn hs => exact hold i τ' hτ'

/-- **Every answer was given by the surroundings**, and they have only developed since. -/
theorem allSince_of_steps (hR : Develops S R) {s : σ} (h : Steps S clients (.start s) w) : AllSince S R w := by
  induction h with
  | refl => exact fun i τ h => by cases h
  | tail _ hs ih => exact ih.step hR hs

/-- The surroundings could give the answer of a turn at its moment. -/
def Honest (S : Surroundings σ) (t : Turn σ) : Prop :=
  ∃ v w, v.around = t.moment ∧ Answered S t.question v t.answer w

theorem allHonest_of_steps {s : σ} (h : Steps S clients (.start s) w) :
    ∀ id τ, w.tasks id = some τ → ∀ t ∈ τ.told, Honest S t := by
  have hR : Develops S fun _ _ => True := ⟨fun _ => trivial, fun _ _ => trivial, fun _ => trivial, fun _ => trivial⟩
  intro id τ hτ t ht
  obtain ⟨v, v', hv, ha, -⟩ := allSince_of_steps hR h id τ hτ t ht
  exact ⟨v, v', hv, ha⟩

/-- An operation that began later got all its answers later. -/
theorem moments_of_steps (hR : Develops S R) (hid : w.tasks id = none) (hs : Steps S clients w w') :
    ∀ τ, w'.tasks id = some τ → ∀ t ∈ τ.told, R w.around t.moment := by
  induction hs with
  | refl => exact fun τ hτ => by rw [hid] at hτ; cases hτ
  | @tail w₁ w₂ hs₁ hs ih =>
    have hnow := hR.steps hs₁
    intro τ' hτ'
    cases hs with
    | begin member op hid =>
      rcases update_cases hτ' with ⟨rfl, rfl⟩ | ⟨-, hτ'⟩
      · exact fun t ht => by cases ht
      · exact ih τ' hτ'
    | @answer i τ q next a v hτ hrest hturn ha =>
      rcases update_cases hτ' with ⟨rfl, rfl⟩ | ⟨-, hτ'⟩
      · intro t ht
        rcases List.mem_cons.1 ht with rfl | ht
        · exact hnow
        · exact ih τ hτ t ht
      · exact ih τ' hτ'
    | @serve i τ e r s hτ he hr =>
      rcases update_cases hτ' with ⟨rfl, rfl⟩ | ⟨-, hτ'⟩
      · exact ih τ hτ
      · exact ih τ' hτ'
    | other hturn hs => exact ih τ' hτ'

/-! ## An operation goes on from where it was -/

structure Later (τ τ' : Task σ) : Prop where
  member : τ'.member = τ.member
  operation : τ'.operation = τ.operation
  told : τ.told <:+ τ'.told

theorem Later.refl (τ : Task σ) : Later τ τ := ⟨rfl, rfl, List.suffix_refl _⟩

theorem Later.trans {τ₁ τ₂ τ₃ : Task σ} (h : Later τ₁ τ₂) (h' : Later τ₂ τ₃) : Later τ₁ τ₃ :=
  ⟨h'.member.trans h.member, h'.operation.trans h.operation, h.told.trans h'.told⟩

theorem later_update {tasks : Nat → Option (Task σ)} {i : Nat} {τ₁ τ₂ : Task σ} (h₁ : tasks id = some τ₁)
    (h : Later τ₁ τ₂) (hτ : tasks i = some τ) : ∃ τ', Function.update tasks id (some τ₂) i = some τ' ∧ Later τ τ' := by
  by_cases hi : i = id
  · subst hi
    rw [h₁] at hτ
    cases hτ
    exact ⟨τ₂, Function.update_self _ _ _, h⟩
  · exact ⟨τ, by rw [Function.update_of_ne hi, hτ], .refl τ⟩

theorem later_of_step (hs : Step S clients w w') (hτ : w.tasks id = some τ) :
    ∃ τ', w'.tasks id = some τ' ∧ Later τ τ' := by
  cases hs with
  | begin member op hid =>
    have hne : id ≠ _ := fun h => by rw [h, hid] at hτ; cases hτ
    exact ⟨τ, (Function.update_of_ne hne _ _).trans hτ, .refl τ⟩
  | answer h hrest hturn ha => exact later_update h ⟨rfl, rfl, List.suffix_cons _ _⟩ hτ
  | @serve i τ₁ e r s h he hr =>
    have hl : Later τ₁ (τ₁.served e r) := ⟨rfl, rfl, List.suffix_refl _⟩
    exact later_update h hl hτ
  | other hturn hs => exact ⟨τ, hτ, .refl τ⟩

/-- **An operation that was begun stays**, and its dialogue only grows. -/
theorem later_of_steps (hs : Steps S clients w w') (hτ : w.tasks id = some τ) :
    ∃ τ', w'.tasks id = some τ' ∧ Later τ τ' := by
  induction hs with
  | refl => exact ⟨τ, hτ, .refl τ⟩
  | tail _ hs ih =>
    obtain ⟨τ₁, h₁, hl₁⟩ := ih
    obtain ⟨τ₂, h₂, hl₂⟩ := later_of_step hs h₁
    exact ⟨τ₂, h₂, hl₁.trans hl₂⟩

/-- **An operation ends with an answer**: the step in which it gets its result is the answer to its last question. -/
theorem answered_of_finished {r : Result} (hs : Step S clients w w') (hτ : w.tasks id = some τ)
    (hunfinished : ∀ r, τ.rest ≠ .done r) (hτ' : w'.tasks id = some τ') (hdone : τ'.rest = .done r) :
    ∃ (q : Question) (a : q.Answer) (v : View σ), Answered S q (w.view τ) a v ∧
      τ'.told = ⟨q, a, w.around⟩ :: τ.told ∧ τ'.member = τ.member ∧ w'.known τ.member = v.known := by
  have hsame : τ' ≠ τ := fun h => hunfinished r (h ▸ hdone)
  cases hs with
  | begin member op hid =>
    rcases update_cases hτ' with ⟨rfl, -⟩ | ⟨-, hτ'⟩
    · rw [hτ] at hid
      cases hid
    · rw [hτ] at hτ'
      exact absurd (Option.some.inj hτ').symm hsame
  | @answer i τ₁ q next a v hτ₁ hrest hturn ha =>
    rcases update_cases hτ' with ⟨rfl, rfl⟩ | ⟨-, hτ'⟩
    · rw [hτ] at hτ₁
      cases hτ₁
      exact ⟨q, a, v, ha, rfl, rfl, Function.update_self _ _ _⟩
    · rw [hτ] at hτ'
      exact absurd (Option.some.inj hτ').symm hsame
  | @serve i τ₁ e r' s hτ₁ he hr =>
    rcases update_cases hτ' with ⟨rfl, rfl⟩ | ⟨-, hτ'⟩
    · rw [hτ] at hτ₁
      cases hτ₁
      exact absurd hdone (hunfinished r)
    · rw [hτ] at hτ'
      exact absurd (Option.some.inj hτ').symm hsame
  | other hturn hs =>
    rw [hτ] at hτ'
    exact absurd (Option.some.inj hτ').symm hsame

end SupplyTrail.Interleaving
