import Mathlib.Logic.Function.Iterate
import Mathlib.Logic.Relation
import SupplyTrail.Proofs.Node.Calls
/-!
# The line to the nodes — many calls of one client

All calls of a client share one counter: each request takes the next number, and whatever else a call asks is answered
anyhow.  One step begins a call or answers one question of one call, so that calls interleave in every way.  The counter
is a word that wraps around; while no more numbers are given than there are words, no two requests carry the same
(`Fresh`, `distinct_of_steps`).
-/
namespace SupplyTrail.Node

open Activity Http Rpc
open Rehearsal (NodeCall Result)
open Relation (ReflTransGen)

/-- A call that was begun: what it is, its transcript, and its further course. -/
structure Task where
  url : String
  call : NodeCall
  told : Transcript
  rest : Talk Result

def Task.begun (url : String) (call : NodeCall) : Task := ⟨url, call, .empty, call.run url⟩

/-- A call after the answer to a question. -/
def Task.hear (τ : Task) (q : Question) (a : q.Answer) (rest : Talk Result) : Task :=
  ⟨τ.url, τ.call, τ.told.hear q a, rest⟩

structure World where
  /-- The number for the next request. -/
  next : UInt64
  /-- How many numbers were given. -/
  given : Nat
  tasks : Nat → Option Task

namespace World

def start : World := ⟨1, 0, fun _ => none⟩

def begin (w : World) (id : Nat) (url : String) (call : NodeCall) : World :=
  { w with tasks := Function.update w.tasks id (some (.begun url call)) }

/-- The counter goes on when a number is given. -/
def pass (w : World) : Question → World
  | .requestNumber => { w with next := w.next + 1, given := w.given + 1 }
  | .post _ | .patience | .pause _ | .note _ => w

/-- The world after a question of a call was answered. -/
def answer (w : World) (id : Nat) (τ : Task) (q : Question) (a : q.Answer) (rest : Talk Result) : World :=
  { w.pass q with tasks := Function.update w.tasks id (some (τ.hear q a rest)) }

/-- The number of a request is the next one, and everything else is answered anyhow. -/
def Gives (w : World) : (q : Question) → q.Answer → Prop
  | .requestNumber, n => n = w.next
  | .post _, _ | .patience, _ | .pause _, _ | .note _, _ => True

/-- The numbers that a call was given. -/
def numbersOf (w : World) (id : Nat) : List UInt64 :=
  match w.tasks id with
  | some τ => τ.told.numbers
  | none => []

end World

/-- One step of a world. -/
inductive Step : World → World → Prop
  | begin {w : World} {id : Nat} (url : String) (call : NodeCall) (hid : w.tasks id = none) :
      Step w (w.begin id url call)
  | answer {w : World} {id : Nat} {τ : Task} {q : Question} {next : q.Answer → Talk Result} {a : q.Answer}
      (hτ : w.tasks id = some τ) (hrest : τ.rest = .ask q next) (ha : w.Gives q a) :
      Step w (w.answer id τ q a (next a))

abbrev Steps : World → World → Prop := ReflTransGen Step

variable {w w' : World} {id : Nat} {τ : Task}

/-- A call is where some answers lead it. -/
def Task.OnCourse (τ : Task) : Prop := Goes (hearing fun _ _ => True) (τ.call.run τ.url) .empty τ.rest τ.told

/-- **Calls stay on their course**, whatever runs beside them. -/
theorem goes_of_steps (h : Steps .start w) : ∀ id τ, w.tasks id = some τ → τ.OnCourse := by
  induction h with
  | refl => exact fun i τ hτ => by cases hτ
  | tail _ hs ih =>
    intro i τ' hτ'
    cases hs with
    | begin url call hid =>
      have hbegun : (Task.begun url call).OnCourse := .refl
      exact tasks_update ih hbegun hτ'
    | @answer id τ q next a hτ hrest ha =>
      have hgoes : τ.OnCourse := ih id τ hτ
      rw [Task.OnCourse, hrest] at hgoes
      have hnext : (τ.hear q a (next a)).OnCourse := hgoes.trans (.ask a rfl .refl)
      exact tasks_update ih hnext hτ'

/-- **What a call keeps by itself it keeps among others.** -/
theorem keeps_of_steps {asks : Transcript → Question → Prop} {ends : Transcript → Result → Prop}
    (h : Steps .start w) (hτ : w.tasks id = some τ) (hrun : Keeps (hearing asks) ends (τ.call.run τ.url) .empty) :
    Keeps (hearing asks) ends τ.rest τ.told :=
  hrun.goes (goes_of_steps h id τ hτ) fun _ _ _ _ h => h

/-! ## The numbers of requests -/

/-- **What a step does to the numbers**: nothing, or one call takes the next one. -/
theorem numbers_of_step (hs : Step w w') :
    (w'.next = w.next ∧ w'.given = w.given ∧ w'.numbersOf = w.numbersOf) ∨
      ∃ id, w'.next = w.next + 1 ∧ w'.given = w.given + 1 ∧
        w'.numbersOf = Function.update w.numbersOf id (w.numbersOf id ++ [w.next]) := by
  cases hs with
  | @begin id url call hid =>
    refine .inl ⟨rfl, rfl, funext fun i => ?_⟩
    by_cases hi : i = id
    · subst hi
      simp [World.numbersOf, World.begin, hid, Task.begun, Transcript.empty]
    · simp [World.numbersOf, World.begin, hi]
  | @answer id τ q next a hτ hrest ha =>
    have hother : ∀ i, i ≠ id → (w.answer id τ q a (next a)).numbersOf i = w.numbersOf i := fun i hi => by
      simp [World.numbersOf, World.answer, hi]
    have hself : (w.answer id τ q a (next a)).numbersOf id = (τ.told.hear q a).numbers := by
      simp [World.numbersOf, World.answer, Task.hear]
    have hbefore : w.numbersOf id = τ.told.numbers := by simp [World.numbersOf, hτ]
    cases q with
    | requestNumber =>
      refine .inr ⟨id, rfl, rfl, funext fun i => ?_⟩
      by_cases hi : i = id
      · subst hi
        obtain rfl : a = w.next := ha
        rw [hself, Function.update_self, hbefore]
        rfl
      · rw [hother i hi, Function.update_of_ne hi]
    | post | patience | pause | note =>
      refine .inl ⟨rfl, rfl, funext fun i => ?_⟩
      by_cases hi : i = id
      · subst hi
        rw [hself, hbefore]
        rfl
      · exact hother i hi

theorem given_of_steps (h : Steps w w') : w.given ≤ w'.given := by
  induction h with
  | refl => exact Nat.le_refl _
  | tail _ hs ih => rcases numbers_of_step hs with ⟨-, hgiven, -⟩ | ⟨-, -, hgiven, -⟩ <;> omega

/-- The numbers given so far are the first ones, and none was given twice. -/
structure Fresh (w : World) : Prop where
  next : w.next = UInt64.ofNat (w.given + 1)
  given : ∀ i, ∀ n ∈ w.numbersOf i, ∃ k < w.given, n = UInt64.ofNat (k + 1)
  nodup : ∀ i, (w.numbersOf i).Nodup
  apart : ∀ i j, i ≠ j → ∀ n ∈ w.numbersOf i, n ∉ w.numbersOf j

theorem Fresh.new (h : Fresh w) (hbound : w.given < UInt64.size) (i : Nat) : w.next ∉ w.numbersOf i := by
  intro hmem
  obtain ⟨k, hk, hn⟩ := h.given i _ hmem
  rw [h.next] at hn
  have hnat := congrArg UInt64.toNat hn
  simp only [UInt64.toNat_ofNat'] at hnat
  unfold UInt64.size at hbound
  omega

theorem Fresh.step (h : Fresh w) (hs : Step w w') (hbound : w'.given ≤ UInt64.size) : Fresh w' := by
  rcases numbers_of_step hs with ⟨hnext, hgiven, hnumbers⟩ | ⟨id, hnext, hgiven, hnumbers⟩
  · exact ⟨by rw [hnext, hgiven, h.next], by rw [hgiven, hnumbers]; exact h.given, by rw [hnumbers]; exact h.nodup,
      by rw [hnumbers]; exact h.apart⟩
  · have hnew := h.new (by omega)
    have hid : w'.numbersOf id = w.numbersOf id ++ [w.next] := by rw [hnumbers, Function.update_self]
    have hother : ∀ i, i ≠ id → w'.numbersOf i = w.numbersOf i := fun i hi => by
      rw [hnumbers, Function.update_of_ne hi]
    have hmem : ∀ i, ∀ n ∈ w'.numbersOf i, n ∈ w.numbersOf i ∨ i = id ∧ n = w.next := fun i n hn => by
      by_cases hi : i = id
      · subst hi
        rw [hid] at hn
        exact (List.mem_append.1 hn).imp_right fun hn => ⟨rfl, List.mem_singleton.1 hn⟩
      · exact .inl (hother i hi ▸ hn)
    refine ⟨?_, fun i n hn => ?_, fun i => ?_, fun i j hij n hi hj => ?_⟩
    · rw [hnext, hgiven, h.next, UInt64.ofNat_add (w.given + 1) 1]
      rfl
    · rcases hmem i n hn with hn | ⟨-, rfl⟩
      · obtain ⟨k, hk, hn⟩ := h.given i n hn
        exact ⟨k, by omega, hn⟩
      · exact ⟨w.given, by omega, h.next⟩
    · by_cases hi : i = id
      · rw [hi, hid]
        refine List.nodup_append.2 ⟨h.nodup id, by simp, fun n hn m hm heq => ?_⟩
        rw [heq, List.mem_singleton.1 hm] at hn
        exact hnew id hn
      · rw [hother i hi]
        exact h.nodup i
    · rcases hmem i n hi with hi | ⟨rfl, rfl⟩
      · rcases hmem j n hj with hj | ⟨-, rfl⟩
        · exact h.apart i j hij n hi hj
        · exact hnew i hi
      · rcases hmem j _ hj with hj | ⟨rfl, -⟩
        · exact hnew j hj
        · exact hij rfl

/-- **No number is given twice** in a run that gives no more than there are words. -/
theorem fresh_of_steps (h : Steps .start w) (hbound : w.given ≤ UInt64.size) : Fresh w := by
  induction h with
  | refl =>
    have hnone : ∀ i, World.start.numbersOf i = [] := fun i => rfl
    refine ⟨rfl, fun i n hn => ?_, fun i => ?_, fun i j _ n hn => ?_⟩
    · rw [hnone] at hn
      cases hn
    · rw [hnone]
      exact List.nodup_nil
    · rw [hnone] at hn
      cases hn
  | tail hs₁ hs ih =>
    have hle := given_of_steps (.single hs)
    exact (ih (by omega)).step hs hbound

/-- The request of a call that is out. -/
def Task.pending? (τ : Task) : Option Http.Request :=
  match τ.rest with
  | .ask (.post request) _ => some request
  | .ask _ _ | .done _ => none

theorem Task.rest_of_pending? {request : Http.Request} (h : τ.pending? = some request) :
    ∃ next, τ.rest = .ask (.post request) next := by
  unfold Task.pending? at h
  split at h
  · rename_i next hrest
    cases h
    exact ⟨next, hrest⟩
  · cases h
  · cases h

/-- The requests of a call, in order, the one that is out included. -/
def Task.requests (τ : Task) : List Http.Request := τ.told.exchanges.map Exchange.request ++ τ.pending?.toList

/-- A call's requests carry the numbers it was given, each of them once. -/
theorem numbers_of_requests (h : Steps .start w) (hτ : w.tasks id = some τ) :
    τ.requests.map Http.Request.number? <+: (w.numbersOf id).map some := by
  have hkeep := keeps_of_steps h hτ (keepsNumbered_run τ.url τ.call .empty rfl)
  have hnumbers : w.numbersOf id = τ.told.numbers := by rw [World.numbersOf, hτ]
  have heven (ht : Numbered τ.told) :
      (τ.told.exchanges.map Exchange.request ++ []).map Http.Request.number? <+: τ.told.numbers.map some := by
    rw [List.append_nil, List.map_map, show τ.told.numbers.map some = _ from ht]
    exact List.prefix_rfl
  rw [hnumbers, Task.requests, Task.pending?]
  cases hrest : τ.rest with
  | done r =>
    rw [hrest] at hkeep
    exact heven hkeep
  | ask q next =>
    rw [hrest] at hkeep
    have hasks := hkeep.1
    cases q with
    | post request =>
      obtain ⟨n, hn, hgiven⟩ := hasks
      rw [hgiven]
      simp [hn, Function.comp_def]
    | requestNumber | patience | pause | note => exact heven hasks

/-- **No two requests of a client carry the same number**, whatever calls they belong to and however they interleave. -/
theorem distinct_of_steps (h : Steps .start w) (hbound : w.given ≤ UInt64.size) (hτ : w.tasks id = some τ) :
    (τ.requests.map Http.Request.number?).Nodup ∧ (∀ r ∈ τ.requests, r.number?.isSome) ∧
      ∀ id' τ', id' ≠ id → w.tasks id' = some τ' → ∀ r ∈ τ.requests, ∀ r' ∈ τ'.requests, r.number? ≠ r'.number? := by
  have hfresh := fresh_of_steps h hbound
  have hnumber {i : Nat} {τ : Task} (hτ : w.tasks i = some τ) {r : Http.Request} (hr : r ∈ τ.requests) :
      ∃ n ∈ w.numbersOf i, r.number? = some n := by
    have hmem := (numbers_of_requests h hτ).subset (List.mem_map_of_mem hr)
    obtain ⟨n, hn, heq⟩ := List.mem_map.1 hmem
    exact ⟨n, hn, heq.symm⟩
  refine ⟨?_, fun r hr => ?_, fun id' τ' hne hτ' r hr r' hr' heq => ?_⟩
  · have hgiven : ((w.numbersOf id).map some).Nodup :=
      List.Pairwise.map some (fun _ _ hne heq => hne (Option.some.inj heq)) (hfresh.nodup id)
    exact (numbers_of_requests h hτ).sublist.nodup hgiven
  · obtain ⟨n, -, hn⟩ := hnumber hτ hr
    rw [hn]
    rfl
  · obtain ⟨n, hn, hrn⟩ := hnumber hτ hr
    obtain ⟨n', hn', hrn'⟩ := hnumber hτ' hr'
    rw [hrn, hrn'] at heq
    cases heq
    exact hfresh.apart id id' hne.symm n hn hn'

/-! ## Runs that are computed -/

/-- How a world is answered: the replies of the nodes, and how often a call may poll again. -/
structure Script where
  reply : World → Http.Request → Option Reply
  patience : World → Nat

def Script.give (x : Script) (w : World) : (q : Question) → q.Answer
  | .post request => x.reply w request
  | .requestNumber => w.next
  | .patience => x.patience w
  | .pause _ => ()
  | .note _ => ()

/-- Answer the next question of a call, if it has one. -/
def World.go (x : Script) (id : Nat) (w : World) : World :=
  match w.tasks id with
  | none => w
  | some τ =>
    match τ.rest with
    | .done _ => w
    | .ask q next => w.answer id τ q (x.give w q) (next (x.give w q))

theorem gives_give (x : Script) (w : World) (q : Question) : w.Gives q (x.give w q) := by
  cases q with
  | requestNumber => rfl
  | post | patience | pause | note => trivial

theorem steps_go (x : Script) (id : Nat) (w : World) : Steps w (w.go x id) := by
  unfold World.go
  split
  · exact .refl
  · rename_i τ hτ
    split
    · exact .refl
    · rename_i q next hrest
      exact .single (.answer hτ hrest (gives_give x w q))

theorem steps_goOn (x : Script) (id : Nat) : ∀ (n : Nat) (w : World), Steps w ((World.go x id)^[n] w)
  | 0, _ => .refl
  | n + 1, w => (steps_go x id w).trans (steps_goOn x id n _)

/-- **Every call comes to its end**, whatever its questions are answered. -/
theorem exists_end (x : Script) (hτ : w.tasks id = some τ) :
    ∃ n τ' r, ((World.go x id)^[n] w).tasks id = some τ' ∧ τ'.rest = .done r := by
  obtain ⟨url, call, told, rest⟩ := τ
  induction rest generalizing w told with
  | done r => exact ⟨0, _, r, hτ, rfl⟩
  | ask q next ih =>
    have hgo : w.go x id = w.answer id ⟨url, call, told, .ask q next⟩ q (x.give w q) (next (x.give w q)) := by
      rw [World.go, hτ]
    obtain ⟨n, τ', r, hτ', hr⟩ := ih (x.give w q) (w := w.go x id) (told.hear q (x.give w q))
      (by rw [hgo]; exact Function.update_self _ _ _)
    exact ⟨n + 1, τ', r, hτ', hr⟩

/-- What is played: a call begins, or a call gets answers. -/
inductive Deed where
  | begin (id : Nat) (url : String) (call : NodeCall)
  | go (id count : Nat) (x : Script)

/-- The world after a deed; nothing changes if it cannot be done. -/
def World.play (w : World) : Deed → World
  | .begin id url call => if (w.tasks id).isNone then w.begin id url call else w
  | .go id count x => (World.go x id)^[count] w

theorem steps_play (w : World) (d : Deed) : Steps w (w.play d) := by
  cases d with
  | begin id url call =>
    simp only [World.play]
    split
    · rename_i hnone
      exact .single (.begin url call (Option.isNone_iff_eq_none.1 hnone))
    · exact .refl
  | go id count x => exact steps_goOn x id count w

/-- **What is played is a run.** -/
theorem steps_foldl_play : ∀ (ds : List Deed) (w : World), Steps w (ds.foldl World.play w)
  | [], _ => .refl
  | d :: ds, w => (steps_play w d).trans (steps_foldl_play ds _)

end SupplyTrail.Node
