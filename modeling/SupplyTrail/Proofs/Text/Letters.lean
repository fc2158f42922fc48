import Mathlib.Data.List.Forall2
/-!
# Letters — texts that are equal up to the case of ASCII letters

Two letters are the same up to case if one is the capital of the other; every other character is the same as itself
only.  Texts agree in capitals exactly if they are the same up to case (`map_toUpper_eq_iff`), and so they do in small
letters (`map_toLower_eq_iff`).
-/
namespace SupplyTrail.Text

/-- One of the letters `A` to `Z`, and the same letter in small. -/
def IsCapitalOf (capital small : Char) : Prop :=
  'A'.toNat ≤ capital.toNat ∧ capital.toNat ≤ 'Z'.toNat ∧ small.toNat = capital.toNat + 32

/-- The same character, or the same ASCII letter in two cases. -/
def SameLetter (c d : Char) : Prop := c = d ∨ IsCapitalOf c d ∨ IsCapitalOf d c

/-- Equal up to the case of ASCII letters. -/
def SameLetters (s t : String) : Prop := List.Forall₂ SameLetter s.toList t.toList

theorem toNat_toUpper (c : Char) :
    c.toUpper.toNat = if 97 ≤ c.toNat ∧ c.toNat ≤ 122 then c.toNat - 32 else c.toNat := by
  have hrange : ('a'.val ≤ c.val ∧ c.val ≤ 'z'.val) ↔ 97 ≤ c.toNat ∧ c.toNat ≤ 122 := by
    rw [UInt32.le_iff_toNat_le, UInt32.le_iff_toNat_le]
    rfl
  unfold Char.toUpper
  split
  · rename_i hlower
    rw [if_pos (hrange.1 hlower)]
    obtain ⟨hleast, hmost⟩ := hrange.1 hlower
    change (c.val + ('A'.val - 'a'.val)).toNat = c.val.toNat - 32
    change 97 ≤ c.val.toNat at hleast
    change c.val.toNat ≤ 122 at hmost
    rw [UInt32.toNat_add, show ('A'.val - 'a'.val).toNat = 2 ^ 32 - 32 from rfl]
    omega
  · rename_i hother
    rw [if_neg (mt hrange.2 hother)]

theorem toUpper_eq_iff {c d : Char} : c.toUpper = d.toUpper ↔ SameLetter c d := by
  rw [← Char.toNat_inj, toNat_toUpper, toNat_toUpper, SameLetter, ← Char.toNat_inj]
  simp only [IsCapitalOf, Char.reduceToNat]
  split <;> split <;> omega

theorem toNat_toLower (c : Char) :
    c.toLower.toNat = if 65 ≤ c.toNat ∧ c.toNat ≤ 90 then c.toNat + 32 else c.toNat := by
  have hrange : (c.val ≥ 'A'.val ∧ c.val ≤ 'Z'.val) ↔ 65 ≤ c.toNat ∧ c.toNat ≤ 90 := by
    rw [ge_iff_le, UInt32.le_iff_toNat_le, UInt32.le_iff_toNat_le]
    rfl
  unfold Char.toLower
  split
  · rename_i hupper
    rw [if_pos (hrange.1 hupper)]
    obtain ⟨hleast, hmost⟩ := hrange.1 hupper
    change (c.val + ('a'.val - 'A'.val)).toNat = c.val.toNat + 32
    change c.val.toNat ≤ 90 at hmost
    rw [UInt32.toNat_add, show ('a'.val - 'A'.val).toNat = 32 from rfl]
    omega
  · rename_i hother
    rw [if_neg (mt hrange.2 hother)]

theorem toLower_eq_iff {c d : Char} : c.toLower = d.toLower ↔ SameLetter c d := by
  rw [← Char.toNat_inj, toNat_toLower, toNat_toLower, SameLetter, ← Char.toNat_inj]
  simp only [IsCapitalOf, Char.reduceToNat]
  split <;> split <;> omega

theorem map_eq_map_iff {f : Char → Char} (hf : ∀ c d, f c = f d ↔ SameLetter c d) {s t : String} :
    s.map f = t.map f ↔ SameLetters s t := by
  rw [← String.toList_inj, String.toList_map, String.toList_map, ← List.forall₂_eq_eq_eq, List.forall₂_map_left_iff,
    List.forall₂_map_right_iff]
  exact ⟨List.Forall₂.imp fun c d h => (hf c d).1 h, List.Forall₂.imp fun c d h => (hf c d).2 h⟩

theorem map_toUpper_eq_iff {s t : String} : s.map Char.toUpper = t.map Char.toUpper ↔ SameLetters s t :=
  map_eq_map_iff fun _ _ => toUpper_eq_iff

theorem map_toLower_eq_iff {s t : String} : s.map Char.toLower = t.map Char.toLower ↔ SameLetters s t :=
  map_eq_map_iff fun _ _ => toLower_eq_iff

end SupplyTrail.Text
