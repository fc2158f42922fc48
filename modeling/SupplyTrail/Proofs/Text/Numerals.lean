import Mathlib.Data.List.Induction
import Mathlib.Data.List.TakeWhile
import Mathlib.Data.Nat.Digits.Defs
import SupplyTrail.Text.Digits
/-!
# Numerals — runs of digits and the numbers that they are

A numeral is a run of ASCII digits that is not empty; its number is the one that the digits make in base ten, leading
zeros or not.  The reader `ofDigits` gives that number, and the written form of a number is a numeral for it.
-/
namespace SupplyTrail.Text

variable {digits rest : List Char} {n : Nat}

/-- A run of ASCII digits, the most significant first, that is `n` in base ten. -/
structure Numeral (digits : List Char) (n : Nat) : Prop where
  nonempty : digits ≠ []
  digit : ∀ c ∈ digits, isDigit c = true
  value : Nat.ofDigits 10 (digits.reverse.map digitValue) = n

theorem ofDigits_eq (cs : List Char) : ofDigits cs = Nat.ofDigits 10 (cs.reverse.map digitValue) := by
  induction cs using List.reverseRecOn with
  | nil => rfl
  | append_singleton cs c ih =>
    rw [ofDigits_append_singleton, ih, List.reverse_append, List.reverse_singleton, List.singleton_append,
      List.map_cons, Nat.ofDigits_cons, Nat.add_comm]

theorem numeral_iff : Numeral digits n ↔ digits ≠ [] ∧ (∀ c ∈ digits, isDigit c = true) ∧ ofDigits digits = n := by
  rw [ofDigits_eq]
  exact ⟨fun h => ⟨h.nonempty, h.digit, h.value⟩, fun ⟨h, hdigit, hvalue⟩ => ⟨h, hdigit, hvalue⟩⟩

theorem decimalChars_ne_nil (n : Nat) : decimalChars n ≠ [] := by
  rw [decimalChars]
  split <;> simp

theorem numeral_decimalChars (n : Nat) : Numeral (decimalChars n) n :=
  numeral_iff.2 ⟨decimalChars_ne_nil n, fun _ => isDigit_of_mem_decimalChars, ofDigits_decimalChars n⟩

theorem numeral_takeWhile {cs : List Char} (h : cs.takeWhile isDigit ≠ []) :
    Numeral (cs.takeWhile isDigit) (ofDigits (cs.takeWhile isDigit)) :=
  numeral_iff.2 ⟨h, fun _ => List.mem_takeWhile_imp, rfl⟩

theorem takeWhile_isDigit_append (hdigits : ∀ c ∈ digits, isDigit c = true)
    (hrest : ∀ c ∈ rest.head?, isDigit c = false) : (digits ++ rest).takeWhile isDigit = digits := by
  rw [List.takeWhile_append_of_pos hdigits]
  cases rest with
  | nil => rw [List.takeWhile_nil, List.append_nil]
  | cons c rest => rw [List.takeWhile_cons_of_neg (by simp [hrest c rfl]), List.append_nil]

theorem head?_dropWhile_isDigit (cs : List Char) : ∀ c ∈ (cs.dropWhile isDigit).head?, isDigit c = false := by
  intro c hc
  have := List.head?_dropWhile_not isDigit cs
  rw [Option.mem_def.1 hc] at this
  simpa using this

end SupplyTrail.Text
