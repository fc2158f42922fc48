/-!
# Checks — what a chain of checks accepts, and which fault it reports

Checks are made one after the other until one fails.  A list of requirements is such a chain: it is met as a whole
exactly if every requirement is, and otherwise the fault of the first one that is broken is reported
(`enforce_eq_error_iff`).
-/
namespace SupplyTrail

variable {ε α β : Type} {e : ε}

theorem bind_eq_ok_iff {x : Except ε α} {f : α → Except ε β} {b : β} :
    x >>= f = .ok b ↔ ∃ a, x = .ok a ∧ f a = .ok b := by
  cases x with
  | error e => exact ⟨nofun, nofun⟩
  | ok a => exact ⟨fun h => ⟨a, rfl, h⟩, fun ⟨_, ha, h⟩ => by cases ha; exact h⟩

theorem bind_eq_error_iff {x : Except ε α} {f : α → Except ε β} :
    x >>= f = .error e ↔ x = .error e ∨ ∃ a, x = .ok a ∧ f a = .error e := by
  cases x with
  | error e' =>
    refine ⟨fun h => .inl (by cases h; rfl), ?_⟩
    rintro (h | ⟨_, ha, -⟩)
    · cases h
      rfl
    · cases ha
  | ok a =>
    refine ⟨fun h => .inr ⟨a, rfl, h⟩, ?_⟩
    rintro (h | ⟨_, ha, h⟩)
    · cases h
    · cases ha
      exact h

/-! ## Lists of requirements -/

/-- A requirement: whether it is broken, and the fault that is reported then. -/
structure Requirement (ε : Type) where
  broken : Prop
  fault : ε
  [decidable : Decidable broken]

attribute [instance] Requirement.decidable

/-- Check one requirement after the other, up to the first that is broken. -/
def enforce : List (Requirement ε) → Except ε Unit
  | [] => .ok ()
  | r :: rs => if r.broken then .error r.fault else enforce rs

theorem enforce_append (rs rs' : List (Requirement ε)) :
    enforce (rs ++ rs') = enforce rs >>= fun _ => enforce rs' := by
  induction rs with
  | nil => rfl
  | cons r rs ih =>
    rw [List.cons_append, enforce, enforce]
    split
    · rfl
    · exact ih

theorem enforce_eq_ok_iff {rs : List (Requirement ε)} : enforce rs = .ok () ↔ ∀ r ∈ rs, ¬ r.broken := by
  induction rs with
  | nil => exact ⟨fun _ => nofun, fun _ => rfl⟩
  | cons r rs ih =>
    rw [enforce]
    split
    · next h => exact ⟨nofun, fun hall => absurd h (hall r List.mem_cons_self)⟩
    · next h => rw [ih, List.forall_mem_cons]; exact ⟨fun hall => ⟨h, hall⟩, And.right⟩

/-- **The fault that is reported is that of the first requirement that is broken.** -/
theorem enforce_eq_error_iff {rs : List (Requirement ε)} : enforce rs = .error e ↔
    ∃ before r after, rs = before ++ r :: after ∧ (∀ r' ∈ before, ¬ r'.broken) ∧ r.broken ∧ r.fault = e := by
  constructor
  · intro h
    induction rs with
    | nil => cases h
    | cons r rs ih =>
      rw [enforce] at h
      split at h
      · next hbroken => cases h; exact ⟨[], r, rs, rfl, nofun, hbroken, rfl⟩
      · next hmet =>
        obtain ⟨before, r', after, rfl, hbefore, hbroken⟩ := ih h
        exact ⟨r :: before, r', after, rfl, List.forall_mem_cons.2 ⟨hmet, hbefore⟩, hbroken⟩
  · rintro ⟨before, r, after, rfl, hbefore, hbroken, rfl⟩
    rw [enforce_append, enforce_eq_ok_iff.2 hbefore]
    exact if_pos hbroken

end SupplyTrail
