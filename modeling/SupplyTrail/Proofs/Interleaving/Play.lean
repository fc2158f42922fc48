import SupplyTrail.Proofs.Interleaving
/-!
# Play — runs that are computed

A script fixes every answer of the surroundings.  Playing it answers one question of one operation at a time, so that a
run of a world is a value; what is played is a run.
-/
namespace SupplyTrail.Interleaving

open Client Activity
open Rehearsal (Result)

/-- A client that works whatever the active network is. -/
def looseClient : Client := ⟨⟨"CTRACKING", Network.testnet.rpcUrl, .testnet⟩, false⟩

/-- A client that works only while its network is the active one. -/
def boundClient : Client := { looseClient with isBound := true }

/-- Fixed answers of the process, the wallet and the ledger. -/
structure Script (σ : Type) where
  own : (q : Own) → σ → q.Answer
  away : (q : Away) → σ → q.Answer × σ

variable {σ : Type}

/-- Surroundings that give any answer at any time. -/
def anyhow : Surroundings σ := ⟨False, fun _ _ _ => True, fun _ _ _ _ => True, fun _ _ => True⟩

/-- The answers are such as the surroundings give. -/
structure Script.Sound (S : Surroundings σ) (x : Script σ) : Prop where
  own : ∀ q s, S.own q s (x.own q s)
  away : ∀ q s, S.away q s (x.away q s).1 (x.away q s).2

/-- Answers that are always the same: a connected account or none, and what the ledger says to a query.  The wallet signs
and the ledger accepts. -/
def Script.steady (account : Option Account) (query : ContractCall → Reading) : Script σ where
  own
    | .activeNetwork, _ => .testnet
    | .clock, _ => 7
    | .account, _ => account
    | .nonce, _ => 0
    | .lastSeen _, _ => none
    | .remember _ _, _ => ()
    | .note _, _ => ()
  away
    | .sign account _ payload, s => (.ok ⟨account.publicKey, Text.encodeHex payload⟩, s)
    | .query _ call, s => (query call, s)
    | .submit _ _, s => (.ok ⟨"tx", none, none⟩, s)
    | .health _, s => (.ok true, s)
    | .fetch _ _ _, s => (none, s)
    | .settle t _, s => ((⟨t, List.mem_cons_self⟩, .ok .null), s)

theorem Script.sound_anyhow (x : Script σ) : x.Sound anyhow := ⟨fun _ _ => trivial, fun _ _ => trivial⟩

/-- The answer to a question, if there is one: a query of a history read is answered at once, so that none is out. -/
def Script.reply (x : Script σ) : (q : Question) → View σ → Option (q.Answer × View σ)
  | .own (.lastSeen p), v => some (v.known p, v)
  | .own (.remember p t), v => some ((), { v with known := Function.update v.known p (some t) })
  | .own .activeNetwork, v => some (x.own .activeNetwork v.around, v)
  | .own .clock, v => some (x.own .clock v.around, v)
  | .own .account, v => some (x.own .account v.around, v)
  | .own .nonce, v => some (x.own .nonce v.around, v)
  | .own (.note _), v => some ((), v)
  | .away (.fetch _ url call), v =>
    some (some (x.away (.query url call) v.around).1, { v with around := (x.away (.query url call) v.around).2 })
  | .away (.settle _ _), _ => none
  | .away (.sign account network payload), v =>
    some ((x.away (.sign account network payload) v.around).1,
      { v with around := (x.away (.sign account network payload) v.around).2 })
  | .away (.query url call), v =>
    some ((x.away (.query url call) v.around).1, { v with around := (x.away (.query url call) v.around).2 })
  | .away (.submit url e), v =>
    some ((x.away (.submit url e) v.around).1, { v with around := (x.away (.submit url e) v.around).2 })
  | .away (.health url), v =>
    some ((x.away (.health url) v.around).1, { v with around := (x.away (.health url) v.around).2 })

theorem Script.answered {S : Surroundings σ} {x : Script σ} (hx : x.Sound S) {q : Question} {v v' : View σ}
    {a : q.Answer} (h : x.reply q v = some (a, v')) : Answered S q v a v' := by
  cases q with
  | own q =>
    cases q with
    | lastSeen p => cases h; exact ⟨rfl, rfl⟩
    | remember p t => cases h; exact rfl
    | activeNetwork => cases h; exact ⟨hx.own _ _, rfl⟩
    | clock => cases h; exact ⟨hx.own _ _, rfl⟩
    | account => cases h; exact ⟨hx.own _ _, rfl⟩
    | nonce => cases h; exact ⟨hx.own _ _, rfl⟩
    | note line => cases h; exact rfl
  | away q =>
    cases q with
    | fetch t url call => cases h; exact ⟨_, hx.away _ _, rfl⟩
    | settle first others => cases h
    | sign account network payload => cases h; exact ⟨_, hx.away _ _, rfl⟩
    | query url call => cases h; exact ⟨_, hx.away _ _, rfl⟩
    | submit url e => cases h; exact ⟨_, hx.away _ _, rfl⟩
    | health url => cases h; exact ⟨_, hx.away _ _, rfl⟩

def World.isFree (w : World σ) (id : Nat) : Bool := w.running == none || w.running == some id

/-- Answer the next question of an operation, if there is one and it is nobody else's turn. -/
def World.go (x : Script σ) (w : World σ) (id : Nat) : World σ :=
  match w.tasks id with
  | none => w
  | some τ =>
    match τ.rest with
    | .done _ => w
    | .ask q next =>
      if w.isFree id then
        match x.reply q (w.view τ) with
        | some (a, v) => w.answer id τ q a v (next a)
        | none => w
      else w

def World.goOn (x : Script σ) (id : Nat) : Nat → World σ → World σ
  | 0, w => w
  | n + 1, w => World.goOn x id n (w.go x id)

/-- What is played: an operation begins, an operation gets answers from a script, or the surroundings move. -/
inductive Deed (σ : Type) where
  | begin (id member : Nat) (op : Operation)
  | go (id count : Nat) (x : Script σ)
  | move (s : σ)

/-- The world after a deed; nothing changes if it cannot be done. -/
def World.play (clients : Nat → Client) (w : World σ) : Deed σ → World σ
  | .begin id member op => if (w.tasks id).isNone then w.begin clients id member op else w
  | .go id count x => w.goOn x id count
  | .move s => if w.running = none then { w with around := s } else w

def Deed.Sound (S : Surroundings σ) (s : σ) : Deed σ → Prop
  | .begin _ _ _ => True
  | .go _ _ x => x.Sound S
  | .move s' => S.other s s'

/-- Deeds are done one after another, each of them one of the surroundings where it is done. -/
def Playable (S : Surroundings σ) (clients : Nat → Client) : World σ → List (Deed σ) → Prop
  | _, [] => True
  | w, d :: ds => d.Sound S w.around ∧ Playable S clients (w.play clients d) ds

variable {S : Surroundings σ} {clients : Nat → Client}

theorem steps_go {x : Script σ} (hx : x.Sound S) (w : World σ) (id : Nat) : Steps S clients w (w.go x id) := by
  unfold World.go
  split
  · exact .refl
  · rename_i τ hτ
    split
    · exact .refl
    · rename_i q next hrest
      split
      · rename_i hfree
        split
        · rename_i a v hreply
          have hturn : MayRun S w id q := by
            cases q with
            | own q =>
              rcases Bool.or_eq_true_iff.1 hfree with hnone | hself
              · exact .inr (.inl (by simpa using hnone))
              · exact .inr (.inr (by simpa using hself))
            | away q => trivial
          exact .single (.answer hτ hrest hturn (Script.answered hx hreply))
        · exact .refl
      · exact .refl

theorem steps_goOn {x : Script σ} (hx : x.Sound S) (id : Nat) :
    ∀ (n : Nat) (w : World σ), Steps S clients w (w.goOn x id n)
  | 0, _ => .refl
  | n + 1, w => (steps_go hx w id).trans (steps_goOn hx id n _)

theorem steps_play {w : World σ} {d : Deed σ} (h : d.Sound S w.around) : Steps S clients w (w.play clients d) := by
  cases d with
  | begin id member op =>
    simp only [World.play]
    split
    · rename_i hnone
      exact .single (.begin member op (Option.isNone_iff_eq_none.1 hnone))
    · exact .refl
  | go id count x => exact steps_goOn h id count w
  | move s =>
    simp only [World.play]
    split
    · rename_i hfree
      exact .single (.other (.inr hfree) h)
    · exact .refl

/-- **What is played is a run.** -/
theorem steps_of_playable : ∀ (ds : List (Deed σ)) (w : World σ), Playable S clients w ds →
    Steps S clients w (ds.foldl (World.play clients) w)
  | [], _, _ => .refl
  | _ :: ds, _, h => (steps_play h.1).trans (steps_of_playable ds _ h.2)

/-- What an operation of a world has given. -/
def World.gave? (w : World σ) (id : Nat) : Option Rehearsal.Value :=
  match (w.tasks id).map Task.rest with
  | some (.done (.ok v)) => some v
  | _ => none

theorem done_of_gave? {w : World σ} {id : Nat} {v : Rehearsal.Value} (h : w.gave? id = some v) :
    ∃ τ, w.tasks id = some τ ∧ τ.rest = .done (.ok v) := by
  unfold World.gave? at h
  split at h
  · rename_i v' hrest
    cases h
    exact Option.map_eq_some_iff.1 hrest
  · cases h

/-! ## One operation at a time -/

/-- The rules for an operation that nothing interrupts: its view and its dialogue. -/
def alone (S : Surroundings σ) : Rules questions (View σ × Dialogue σ) where
  asks _ _ := True
  answers q s a t := Answered S q s.1 a t.1 ∧ t.2 = ⟨q, a, s.1.around⟩ :: s.2

/-- Where an operation stands in a world, with nobody else having the turn. -/
structure Stands (w : World σ) (id member : Nat) (op : Operation) (rest : Run Result) (s : View σ × Dialogue σ) :
    Prop where
  task : w.tasks id = some ⟨member, op, s.2, s.1.errands, rest⟩
  around : w.around = s.1.around
  known : w.known member = s.1.known
  turn : w.running = none ∨ w.running = some id ∧ asksOwn rest = true

theorem stands_begin {w : World σ} {id member : Nat} {op : Operation} (hrun : w.running = none) :
    Stands (w.begin clients id member op) id member op (op.run (clients member)) (⟨w.around, w.known member, []⟩, []) :=
  ⟨Function.update_self _ _ _, rfl, rfl, .inl hrun⟩

theorem Stands.free {w : World σ} {id member : Nat} {op : Operation} {rest : Run Result} {s : View σ × Dialogue σ}
    (h : Stands w id member op rest s) (hasks : asksOwn rest = false) : w.running = none := by
  rcases h.turn with hrun | ⟨-, hown⟩
  · exact hrun
  · rw [hasks] at hown
    cases hown

/-- An operation gets one answer, and the others stay where they are. -/
theorem Stands.answer {id member : Nat} {op : Operation} {q : Question} {next : q.Answer → Run Result} {a : q.Answer}
    {w : World σ} {s t : View σ × Dialogue σ} (h : Stands w id member op (.ask q next) s)
    (ha : (alone S).answers q s a t) :
    ∃ w', Step S clients w w' ∧ Stands w' id member op (next a) t ∧
      (asksOwn (.ask q next) = false → w'.running = none) ∧
      ∀ i, i ≠ id → w'.tasks i = w.tasks i := by
  obtain ⟨ha, htold⟩ := ha
  have hview : w.view ⟨member, op, s.2, s.1.errands, .ask q next⟩ = s.1 := by
    rw [World.view, h.around, h.known]
  have hturn : MayRun S w id q := by
    cases q with
    | own q => exact h.turn.elim (fun h => .inr (.inl h)) fun h => .inr (.inr h.1)
    | away q => trivial
  have hstep : Step S clients w (w.answer id ⟨member, op, s.2, s.1.errands, .ask q next⟩ q a t.1 (next a)) :=
    .answer h.task rfl hturn (by rw [hview]; exact ha)
  refine ⟨_, hstep, ⟨(Function.update_self _ _ _).trans ?_, rfl, Function.update_self _ _ _, ?_⟩, fun hasks => ?_,
    fun i hi => Function.update_of_ne hi _ _⟩
  · rw [Task.hear, htold, h.around]
  · cases q with
    | own q =>
      change (if asksOwn (next a) then some id else none) = none ∨ _
      by_cases hasks : asksOwn (next a) = true
      · exact .inr ⟨if_pos hasks, hasks⟩
      · exact .inl (if_neg hasks)
    | away q => exact .inl (h.free rfl)
  · cases q with
    | own q => cases hasks
    | away q => exact h.free rfl

/-- **What an operation may do alone it may do in a world**, and the others stay where they are. -/
theorem Stands.goes {id member : Nat} {op : Operation} {x y : Run Result} {s t : View σ × Dialogue σ}
    (h : Goes (alone S) x s y t) : ∀ {w : World σ}, Stands w id member op x s →
    ∃ w', Steps S clients w w' ∧ Stands w' id member op y t ∧ ∀ i, i ≠ id → w'.tasks i = w.tasks i := by
  induction h with
  | refl => exact fun {w} hw => ⟨w, .refl, hw, fun _ _ => rfl⟩
  | ask a ha _ ih =>
    intro w hw
    obtain ⟨w₁, hstep, hw₁, -, hothers₁⟩ := hw.answer ha
    obtain ⟨w₂, hsteps, hw₂, hothers₂⟩ := ih hw₁
    exact ⟨w₂, .head hstep hsteps, hw₂, fun i hi => (hothers₂ i hi).trans (hothers₁ i hi)⟩

end SupplyTrail.Interleaving
