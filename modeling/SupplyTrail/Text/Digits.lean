/-!
# Decimal digits

Natural numbers as ASCII digits, most significant first, and back.
-/
namespace SupplyTrail.Text

def digitChar (n : Nat) : Char := Char.ofNat (48 + n)

def isDigit (c : Char) : Bool := '0' ≤ c && c ≤ '9'

def digitValue (c : Char) : Nat := c.toNat - 48

/-- The digits of a number without leading zeros; zero is one digit. -/
def decimalChars (n : Nat) : List Char :=
  if n < 10 then [digitChar n] else decimalChars (n / 10) ++ [digitChar (n % 10)]

/-- The lowest `width` digits of a number. -/
def decimalPadded : Nat → Nat → List Char
  | 0, _ => []
  | width + 1, n => decimalPadded width (n / 10) ++ [digitChar (n % 10)]

/-- The number that a run of digits stands for. -/
def ofDigits (cs : List Char) : Nat :=
  cs.foldl (fun n c => 10 * n + digitValue c) 0

def decimal (n : Nat) : String := String.ofList (decimalChars n)

/-- A whole number as text, with a sign only when it is negative. -/
def decimalInt (n : Int) : String :=
  if n < 0 then String.ofList ('-' :: decimalChars n.natAbs) else decimal n.natAbs

theorem digitValue_digitChar : ∀ n, n < 10 → digitValue (digitChar n) = n ∧ isDigit (digitChar n) = true := by
  decide

theorem ofDigits_append_singleton (cs : List Char) (c : Char) :
    ofDigits (cs ++ [c]) = 10 * ofDigits cs + digitValue c := by
  simp [ofDigits, List.foldl_append]

/-- Reading the digits of a number gives the number. -/
theorem ofDigits_decimalChars (n : Nat) : ofDigits (decimalChars n) = n := by
  induction n using Nat.strongRecOn with
  | ind n ih =>
    rw [decimalChars]
    split
    · next h => simp [ofDigits, (digitValue_digitChar n h).1]
    · next h =>
      rw [ofDigits_append_singleton, ih (n / 10) (by omega), (digitValue_digitChar (n % 10) (by omega)).1]
      omega

theorem isDigit_of_mem_decimalChars {n : Nat} {c : Char} (h : c ∈ decimalChars n) : isDigit c = true := by
  induction n using Nat.strongRecOn with
  | ind n ih =>
    rw [decimalChars] at h
    split at h
    · next hn =>
      simp only [List.mem_singleton] at h
      exact h ▸ (digitValue_digitChar n hn).2
    · next hn =>
      rcases List.mem_append.1 h with h | h
      · exact ih (n / 10) (by omega) h
      · simp only [List.mem_singleton] at h
        exact h ▸ (digitValue_digitChar (n % 10) (by omega)).2

end SupplyTrail.Text
