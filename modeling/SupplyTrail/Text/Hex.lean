/-!
# Hexadecimal text

Bytes as pairs of digits.  Writing uses lower case; reading takes both cases and refuses a half pair or a character that
is no digit.
-/
namespace SupplyTrail.Text

/-- The digit of a value below sixteen, in lower case. -/
def hexDigit (n : Nat) : Char :=
  if n < 10 then Char.ofNat (48 + n) else Char.ofNat (87 + n)

/-- The value of a digit in either case. -/
def hexValue (c : Char) : Option Nat :=
  if '0' ≤ c ∧ c ≤ '9' then some (c.toNat - 48)
  else if 'a' ≤ c ∧ c ≤ 'f' then some (c.toNat - 87)
  else if 'A' ≤ c ∧ c ≤ 'F' then some (c.toNat - 55)
  else none

/-- The digits of a value with the most significant first and no leading zero; `0` is one digit. -/
def hexDigits (n : Nat) : List Char :=
  if n < 16 then [hexDigit n] else hexDigits (n / 16) ++ [hexDigit (n % 16)]

/-- A value as exactly `width` digits, its lowest ones. -/
def hexPadded : Nat → Nat → List Char
  | 0, _ => []
  | width + 1, n => hexPadded width (n / 16) ++ [hexDigit (n % 16)]

def hexOfBytes : List UInt8 → List Char
  | [] => []
  | b :: bs => hexDigit (b.toNat / 16) :: hexDigit (b.toNat % 16) :: hexOfBytes bs

def bytesOfHex? : List Char → Option (List UInt8)
  | [] => some []
  | [_] => none
  | h :: l :: cs =>
    match hexValue h, hexValue l, bytesOfHex? cs with
    | some x, some y, some bs => some (UInt8.ofNat (16 * x + y) :: bs)
    | _, _, _ => none

/-- Two lower-case digits for each byte. -/
def encodeHex (bytes : List UInt8) : String :=
  String.ofList (hexOfBytes bytes)

/-- The bytes a text of digit pairs stands for. -/
def decodeHex? (s : String) : Option (List UInt8) :=
  bytesOfHex? s.toList

end SupplyTrail.Text
