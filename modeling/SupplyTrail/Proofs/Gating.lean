import SupplyTrail.Proofs.Conduct.Evidence
import SupplyTrail.Proofs.SingleShot
/-!
# Gating — events are appended to products that were seen registered

A client remembers of a product the latest time that it knows.  It remembers one exactly of the products that it has
evidence of: the ledger confirmed its registration, or it read a history that begins with a registration.  The wallet is
asked to sign an event only for such a product.
-/
namespace SupplyTrail.Interleaving

open Client Activity
open Rehearsal (Result)

variable {σ : Type} {S : Surroundings σ} {clients : Nat → Client} {w w' : World σ} {id k : Nat} {τ : Task σ}
  {p : ProductId}

/-- A client has evidence that a product is registered: one of its operations was told. -/
def Evidence (clients : Nat → Client) (w : World σ) (k : Nat) (p : ProductId) : Prop :=
  ∃ id τ, w.tasks id = some τ ∧ τ.member = k ∧ Seen (clients k) p τ.told τ.operation

theorem Evidence.step (h : Evidence clients w k p) (hs : Step S clients w w') : Evidence clients w' k p := by
  obtain ⟨id, τ, hτ, rfl, hseen⟩ := h
  obtain ⟨τ', hτ', hlater⟩ := later_of_step hs hτ
  exact ⟨id, τ', hτ', hlater.member, hlater.operation ▸ hseen.mono hlater.told⟩

/-- **Entries stay.** -/
theorem isSome_known_of_step (hs : Step S clients w w') (h : (w.known k p).isSome) : (w'.known k p).isSome := by
  rcases known_of_step hs k p with hsame | ⟨_, _, t, _, _, _, _, _, _, ht⟩
  · rw [hsame]
    exact h
  · rw [ht]
    rfl

theorem isSome_known_of_answered {q : Question} {v v' : View σ} {a : q.Answer} {m : σ} (h : Answered S q v a v')
    (hknown : Known p [⟨q, a, m⟩]) : (v'.known p).isSome := by
  rcases hknown with ⟨t, m', hm⟩ | ⟨t, m', hm⟩
  · cases List.mem_singleton.1 hm
    cases h
    exact Option.isSome_iff_exists.2 ⟨t, Function.update_self _ _ _⟩
  · cases List.mem_singleton.1 hm
    obtain ⟨ht, rfl⟩ := h
    rw [← ht]
    rfl

/-- What an operation was told that its client knew, the client still knows. -/
theorem isSome_known_of_steps {s : σ} (h : Steps S clients (.start s) w) : ∀ id τ p, w.tasks id = some τ →
    Known p τ.told → (w.known τ.member p).isSome := by
  induction h with
  | refl => exact fun _ _ _ hτ => by cases hτ
  | @tail w w' _ hs ih =>
    have hold : ∀ id τ, w.tasks id = some τ → ∀ p, Known p τ.told → (w'.known τ.member p).isSome :=
      fun id τ hτ p hknown => isSome_known_of_step hs (ih id τ p hτ hknown)
    intro i τ' p hτ' hknown
    cases hs with
    | begin member op hid =>
      rcases update_cases hτ' with ⟨-, rfl⟩ | ⟨-, hτ'⟩
      · rcases hknown with ⟨t, m, hm⟩ | ⟨t, m, hm⟩ <;> cases hm
      · exact hold i τ' hτ' p hknown
    | @answer id τ q next a v hτ hrest hturn ha =>
      rcases update_cases hτ' with ⟨-, rfl⟩ | ⟨-, hτ'⟩
      · rcases hknown.of_cons with hknown | hknown
        · have hv : (w.answer id τ q a v (next a)).known τ.member = v.known := Function.update_self _ _ _
          exact (congrFun hv p).symm ▸ isSome_known_of_answered ha hknown
        · exact hold id τ hτ p hknown
      · exact hold i τ' hτ' p hknown
    | @serve id τ e r s hτ he hr =>
      rcases update_cases hτ' with ⟨-, rfl⟩ | ⟨-, hτ'⟩
      · exact hold id τ hτ p hknown
      · exact hold i τ' hτ' p hknown
    | other hturn hs => exact hold i τ' hτ' p hknown

theorem mayEnter_of_steps {s : σ} (h : Steps S clients (.start s) w) (hτ : w.tasks id = some τ) {t : UInt64}
    {next : Unit → Run Result} (hrest : τ.rest = .ask (.own (.remember p t)) next) : τ.operation.entryOf ≠ none :=
  (keeping_of_steps (fun c op => keeps_run_entry c op) h id τ hτ).asked hrest rfl

/-- **What a client knows it has evidence of.** -/
theorem evidence_of_known {s : σ} (h : Steps S clients (.start s) w) :
    ∀ k p, (w.known k p).isSome → Evidence clients w k p := by
  induction h with
  | refl => exact fun _ _ h => by cases h
  | @tail w w' hrun hs ih =>
    intro k p hknown
    rcases known_of_step hs k p with hsame | ⟨id, τ, t, next, v, hτ, rfl, hrest, -⟩
    · rw [hsame] at hknown
      exact (ih k p hknown).step hs
    · have hwarrant := (allConducted_of_steps hrun id τ hτ).warrant hrest
      rcases (hwarrant.evidence (mayEnter_of_steps hrun hτ hrest)).2 with hseen | ⟨last, hlast⟩
      · exact Evidence.step ⟨id, τ, hτ, rfl, hseen⟩ hs
      · exact (ih _ p (isSome_known_of_steps hrun id τ p hτ (.inr ⟨last, hlast⟩))).step hs

theorem evidence_of_grounded {s : σ} (h : Steps S clients (.start s) w) (hτ : w.tasks id = some τ)
    (hgrounded : Grounded (clients τ.member) p τ.told τ.operation) : Evidence clients w τ.member p := by
  rcases hgrounded with hseen | ⟨last, hlast⟩
  · exact ⟨id, τ, hτ, rfl, hseen⟩
  · exact evidence_of_known h _ p (isSome_known_of_steps h id τ p hτ (.inr ⟨last, hlast⟩))

theorem enters_of_steps {s : σ} (h : Steps S clients (.start s) w) (hτ : w.tasks id = some τ)
    (hop : τ.operation.historyOf = some p) {t : History} (hread : HistoryRead (clients τ.member) p τ.told t)
    (hrest : asksOwn τ.rest = false) : Known p τ.told := by
  have hkeep := keeping_of_steps (fun c op => keeps_run_enters c op p) h id τ hτ
  cases hcase : τ.rest with
  | done r => exact hkeep.ended hcase hop t hread
  | ask q next =>
    rcases hkeep.asked hcase hop with hown | hknown
    · rw [hcase] at hrest
      cases q with
      | own q => cases hrest
      | away q => cases hown
    · exact hknown t hread

theorem registered_of_steps {s : σ} (h : Steps S clients (.start s) w) (hτ : w.tasks id = some τ)
    {details : ProductDetails} (hop : τ.operation = .register details) {url : String} {e : Envelope} {receipt : Receipt}
    (htold : Told τ.told (.away (.submit url e)) (.ok receipt)) (hrest : asksOwn τ.rest = false) :
    Known details.id τ.told := by
  have hmem : (e, .ok receipt) ∈ submissions τ.told := by
    obtain ⟨m, hm⟩ := htold
    exact List.mem_filterMap.2 ⟨_, hm, rfl⟩
  have hkeep := sparing_of_steps h hτ
  cases hcase : τ.rest with
  | ask q next =>
    -- an operation whose submission was answered asks nothing outside any more
    have hfirst : submissions τ.told = [] := by
      cases (Keeping.asked hkeep hcase).1 with
      | own q => rw [hcase] at hrest; cases hrest
      | away hcalm hfirst => exact hfirst
      | sign hunsent => exact hunsent.submissions
      | submit hsigned hfirst => exact hfirst
    rw [hfirst] at hmem
    cases hmem
  | done r =>
    have honce : (submissions τ.told).length ≤ 1 := countP_isSubmit τ.told ▸ (Keeping.ended hkeep hcase).2.2
    have hone : submissions τ.told = [(e, .ok receipt)] := by
      obtain ⟨s, hs⟩ := List.length_eq_one_iff.1 (Nat.le_antisymm honce (List.length_pos_of_mem hmem))
      rw [hs] at hmem ⊢
      rw [List.mem_singleton.1 hmem]
    obtain ⟨failure, hdecided, hr⟩ := (hkeep.exit hcase).decided (by rw [hop]; rfl)
    obtain rfl := hdecided.settled.2 ⟨e, receipt, hone⟩
    obtain ⟨v, rfl⟩ := hr
    have hupshot := (allConducted_of_steps h id τ hτ).upshot hcase
    rw [hop] at hupshot
    cases hupshot with
    | registered hrecorded => exact hrecorded.known
    | other hkind => rcases hkind with ⟨_, hkind⟩ | ⟨_, _, hkind⟩ | hkind <;> cases hkind

/-- **What an operation has evidence of its client knows**, once the operation asks outside or has ended. -/
theorem known_of_seen {s : σ} (h : Steps S clients (.start s) w) (hτ : w.tasks id = some τ)
    (hseen : Seen (clients τ.member) p τ.told τ.operation) (hrest : asksOwn τ.rest = false) : Known p τ.told := by
  generalize hop : τ.operation = op at hseen
  cases hseen with
  | confirmed hid htold => exact hid ▸ registered_of_steps h hτ hop htold hrest
  | read hhistory hread => exact enters_of_steps h hτ (hop ▸ hhistory) hread hrest

/-- What holds in a world of what its clients append and of what they know. -/
structure Gated (S : Surroundings σ) (clients : Nat → Client) (w : World σ) : Prop where
  /-- An event that the wallet is to sign was checked, and its product is one that the client has evidence of. -/
  signed : ∀ id τ account network (i : Invocation) next, w.tasks id = some τ →
    τ.rest = .ask (.away (.sign account network i.toBytes)) next → i.call.function = "add_tracking_event" →
    ∃ (j : Invocation) (e : Event) (actor : String), i.toBytes = j.toBytes ∧
      j.call = (clients τ.member).call "add_tracking_event" (appendArgs e actor) ∧
      (e.kind = .transfer ∨ e.kind = .checkpoint) ∧ Describes j.call.args e ∧ Event.check e = .ok e ∧
      Evidence clients w τ.member e.product
  /-- What a client knows it has evidence of. -/
  backed : ∀ k p, (w.known k p).isSome → Evidence clients w k p
  /-- What an operation has evidence of its client knows, once the operation has gone on as far as it can by itself. -/
  entered : ∀ id τ p, w.tasks id = some τ → asksOwn τ.rest = false →
    Seen (clients τ.member) p τ.told τ.operation → (w.known τ.member p).isSome
  /-- So the products that a client knows are those that it has evidence of, when all its operations have done so. -/
  known_iff : ∀ k, (∀ id τ, w.tasks id = some τ → τ.member = k → asksOwn τ.rest = false) →
    ∀ p, (w.known k p).isSome ↔ Evidence clients w k p
  /-- Entries stay. -/
  kept : ∀ w', Steps S clients w w' → ∀ k p, (w.known k p).isSome → (w'.known k p).isSome
  /-- An entry is changed only by an operation on its product. -/
  own : ∀ w', Step S clients w w' → ∀ k p, w'.known k p ≠ w.known k p →
    ∃ id τ t next, w.tasks id = some τ ∧ τ.member = k ∧ τ.rest = .ask (.own (.remember p t)) next ∧
      w'.known k p = some t ∧ τ.operation.entryOf = some p

/-- **Appends are gated.**  Whatever else runs and whatever is answered, the wallet is asked to sign an event only if
the event was checked and the client has evidence that its product is registered; and the products that a client knows
are those that it has such evidence of. -/
theorem gated_of_run {s : σ} (h : Steps S clients (.start s) w) : Gated S clients w := by
  have entered : ∀ id τ p, w.tasks id = some τ → asksOwn τ.rest = false →
      Seen (clients τ.member) p τ.told τ.operation → (w.known τ.member p).isSome := fun id τ p hτ hrest hseen =>
    isSome_known_of_steps h id τ p hτ (known_of_seen h hτ hseen hrest)
  refine ⟨fun id τ account network i next hτ hrest hcall => ?_, evidence_of_known h, entered, fun k hidle p => ?_,
    fun w' hs k p hknown => ?_, fun w' hs k p hne => ?_⟩
  · have hwarrant := (allConducted_of_steps h id τ hτ).warrant hrest
    obtain ⟨j, e, actor, hbytes, hj, -, hkind, hcheck, hgrounded⟩ := hwarrant.appended hcall
    have hdescribes : Describes j.call.args e := hj ▸ describes_appendArgs hkind actor
    exact ⟨j, e, actor, hbytes, hj, hkind, hdescribes, hcheck, evidence_of_grounded h hτ hgrounded⟩
  · refine ⟨evidence_of_known h k p, fun ⟨id, τ, hτ, hk, hseen⟩ => ?_⟩
    subst hk
    exact entered id τ p hτ (hidle id τ hτ rfl) hseen
  · induction hs with
    | refl => exact hknown
    | tail _ hs ih => exact isSome_known_of_step hs ih
  · obtain ⟨id, τ, t, next, v, hτ, hk, hrest, -, ht⟩ := (known_of_step hs k p).resolve_left hne
    have hwarrant := (allConducted_of_steps h id τ hτ).warrant hrest
    exact ⟨id, τ, t, next, hτ, hk, hrest, ht, (hwarrant.evidence (mayEnter_of_steps h hτ hrest)).1⟩

namespace Appending

/-- A product is registered, and an event is about to be signed for it. -/
def deeds : List (Deed Unit) :=
  [.begin 0 0 (.register (.ofId ⟨"P"⟩)), .go 0 12 (.steady (some ⟨"GA"⟩) fun _ => .ok .null),
    .begin 1 0 (.append ⟨"P"⟩ .checkpoint .empty), .go 1 6 (.steady (some ⟨"GA"⟩) fun _ => .ok .null)]

def world : World Unit := deeds.foldl (World.play fun _ => looseClient) (.start ())

theorem steps_world : Steps anyhow (fun _ => looseClient) (.start ()) world :=
  steps_of_playable deeds _ ⟨trivial, Script.sound_anyhow _, trivial, Script.sound_anyhow _, trivial⟩

theorem signing_world : ((world.tasks 1).bind fun τ => pending? τ.rest).map Question.isSign = some true := by
  decide +kernel

theorem operation_world : (world.tasks 1).map Task.operation = some (.append ⟨"P"⟩ .checkpoint .empty) := by rfl

end Appending

/-- The general theorem where an event is about to be signed. -/
theorem gated_of_run_appending : ∃ τ account network i next, Appending.world.tasks 1 = some τ ∧
    τ.rest = .ask (.away (.sign account network (Invocation.toBytes i))) next ∧
    i.call.function = "add_tracking_event" ∧ Gated anyhow (fun _ => looseClient) Appending.world ∧
    (Appending.world.known 0 ⟨"P"⟩).isSome := by
  have hknown : (Appending.world.known 0 ⟨"P"⟩).isSome := by decide +kernel
  obtain ⟨q, hq, hsign⟩ := Option.map_eq_some_iff.1 Appending.signing_world
  obtain ⟨τ, hτ, hpending⟩ := Option.bind_eq_some_iff.1 hq
  have hop : some τ.operation = some (.append ⟨"P"⟩ .checkpoint .empty) := by
    rw [← Appending.operation_world, hτ]
    rfl
  cases hrest : τ.rest with
  | done r =>
    rw [hrest] at hpending
    cases hpending
  | ask q' next =>
    obtain rfl : q' = q := by
      rw [hrest] at hpending
      exact Option.some.inj hpending
    match q' with
    | .away (.sign account network payload) =>
      have hwarrant := (allConducted_of_steps Appending.steps_world 1 τ hτ).warrant hrest
      obtain ⟨p, time, i, d', rfl, hdraft, -⟩ := hwarrant.invoked
      have hcall : i.call.function = "add_tracking_event" := by
        rw [Option.some.inj hop] at hdraft
        generalize i.call = call at hdraft
        cases hdraft with
        | append hkind hevent hseen => rfl
      exact ⟨τ, account, network, i, next, hτ, hrest, hcall, gated_of_run Appending.steps_world, hknown⟩

end SupplyTrail.Interleaving
