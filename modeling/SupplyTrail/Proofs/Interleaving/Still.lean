import SupplyTrail.Proofs.Interleaving.Ledger
/-!
# Still — a ledger that stands still

From any moment on a ledger may stand still: it answers queries from its state, signs and applies nothing more, and the
active network stays the same.  An operation comes to its end there too, and finds the ledger at its end as it was.
-/
namespace SupplyTrail.Interleaving

open Client Activity
open Rehearsal (Result)

variable {L : Regime} {clients : Nat → Client} {w w' : World Scene} {id : Nat} {τ τ' : Task Scene} {c : Client}
  {network : Network}

/-- The ledger standing still while this network is active. -/
def still (L : Regime) (network : Network) : Surroundings Scene where
  parallel := L.parallel
  own q _ a :=
    match q, a with
    | .activeNetwork, active => active = network
    | _, _ => True
  away
    | .sign _ _ _, s, a, s' => s' = s ∧ ∃ error, a = .error error
    | .query _ call, s, a, s' => s' = s ∧ a = s.store.read call
    | .submit _ _, s, a, s' => s' = s ∧ ∃ failure, a = .error failure
    | .health _, s, _, s' => s' = s
    | .fetch _ _ _, s, _, s' => s' = s
    | .settle _ _, s, _, s' => s' = s
  other _ _ := False

/-- **A ledger may stand still.** -/
theorem within_still (L : Regime) (network : Network) : Within (still L network) (ledger L) where
  parallel := id
  own _ := trivial
  away {q s a s'} h := by
    cases q with
    | sign account network payload =>
      obtain ⟨rfl, error, rfl⟩ := h
      exact ⟨rfl, fun e he => by cases he⟩
    | query url call => exact ⟨h.1, .inl h.2⟩
    | submit url e =>
      obtain ⟨rfl, failure, rfl⟩ := h
      exact .failed
    | health url => exact h
    | fetch t url call => exact h
    | settle first others => exact h
  other h := h.elim

theorem answering_still (L : Regime) (network : Network) : Answering (still L network) where
  own q s := by
    cases q with
    | activeNetwork => exact ⟨network, rfl⟩
    | clock => exact ⟨0, trivial⟩
    | account => exact ⟨none, trivial⟩
    | nonce => exact ⟨0, trivial⟩
    | lastSeen p => exact ⟨none, trivial⟩
    | remember p t => exact ⟨(), trivial⟩
    | note line => exact ⟨(), trivial⟩
  away q s := by
    cases q with
    | sign account network payload => exact ⟨.error .notConnected, s, rfl, _, rfl⟩
    | query url call => exact ⟨_, s, rfl, rfl⟩
    | submit url e => exact ⟨.error (.remote .noData), s, rfl, _, rfl⟩
    | health url => exact ⟨.ok true, s, rfl⟩
    | fetch t url call => exact ⟨none, s, rfl⟩
    | settle first others => exact ⟨(⟨first, List.mem_cons_self⟩, .ok .null), s, rfl⟩

theorem develops_still : Develops (still L network) fun s s' => s' = s where
  refl _ := rfl
  trans h h' := h'.trans h
  away {q s a s'} h := by
    cases q with
    | sign account network payload => exact h.1
    | query url call => exact h.1
    | submit url e => exact h.1
    | health url => exact h
    | fetch t url call => exact h
    | settle first others => exact h
  other h := h.elim

/-! ## The active network -/

/-- The active network was never another than the client's. -/
def Unswitched (c : Client) (d : Dialogue Scene) : Prop :=
  ∀ active, Told d (.own .activeNetwork) active → active = c.endpoint.network

theorem unswitched_nil (c : Client) : Unswitched c [] := by
  rintro active ⟨m, hm⟩
  cases hm

variable {S : Surroundings Scene}

theorem Unswitched.answer {d : Dialogue Scene} (h : Unswitched c d)
    (hS : ∀ s a, S.own .activeNetwork s a → a = c.endpoint.network) {q : Question} {v v' : View Scene} {a : q.Answer}
    (ha : Answered S q v a v') (m : Scene) : Unswitched c (⟨q, a, m⟩ :: d) := by
  rintro active ⟨m', hm'⟩
  rcases List.mem_cons.1 hm' with heq | hm'
  · cases heq
    exact hS _ _ ha.1
  · exact h active ⟨m', hm'⟩

/-- **Where the network is not switched** no operation is told of another. -/
theorem unswitched_of_steps (hS : ∀ s a, S.own .activeNetwork s a → a = c.endpoint.network)
    (hs : Steps S clients w w') (h : ∀ τ, w.tasks id = some τ → Unswitched c τ.told) :
    ∀ τ, w'.tasks id = some τ → Unswitched c τ.told := by
  induction hs with
  | refl => exact h
  | tail _ hs ih =>
    intro τ' hτ'
    cases hs with
    | begin member op hid =>
      rcases update_cases hτ' with ⟨-, rfl⟩ | ⟨-, hτ'⟩
      · exact unswitched_nil c
      · exact ih τ' hτ'
    | answer hτ hrest hturn ha =>
      rcases update_cases hτ' with ⟨rfl, rfl⟩ | ⟨-, hτ'⟩
      · exact (ih _ hτ).answer hS ha _
      · exact ih τ' hτ'
    | @serve id τ e r s hτ he hr =>
      rcases update_cases hτ' with ⟨rfl, rfl⟩ | ⟨-, hτ'⟩
      · have hserved : Unswitched c τ.told := ih τ hτ
        exact hserved
      · exact ih τ' hτ'
    | other hturn hs => exact ih τ' hτ'

/-- **An operation can be brought to its end without a switch of the network**, and with the ledger as it is. -/
theorem exists_done_unswitched {s : Scene} (h : Steps (ledger L) clients (.start s) w) (hτ : w.tasks id = some τ)
    (hnet : Unswitched c τ.told) :
    ∃ w' τ' r, Steps (ledger L) clients w w' ∧ w'.tasks id = some τ' ∧ τ'.rest = .done r ∧ Later τ τ' ∧
      w'.around = w.around ∧ Unswitched c τ'.told := by
  have hless := within_still L c.endpoint.network
  obtain ⟨w', τ', r, hs, hτ', hdone⟩ := exists_done (answering_still L c.endpoint.network) hless τ.rest w τ h hτ rfl
  obtain ⟨τ₁, hτ₁, hlater⟩ := later_of_steps hs hτ
  obtain rfl : τ₁ = τ' := Option.some.inj (hτ₁.symm.trans hτ')
  have hnet' : ∀ τ, w'.tasks id = some τ → Unswitched c τ.told := by
    refine unswitched_of_steps (fun _ _ ha => ha) hs fun τ₂ hτ₂ => ?_
    obtain rfl : τ = τ₂ := Option.some.inj (hτ.symm.trans hτ₂)
    exact hnet
  exact ⟨w', τ₁, r, hless.steps hs, hτ', hdone, hlater, develops_still.steps hs, hnet' τ₁ hτ'⟩

end SupplyTrail.Interleaving
