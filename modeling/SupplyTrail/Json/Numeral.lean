import SupplyTrail.Json.Value
import SupplyTrail.Text.Digits
/-!
# Numerals

What a written number stands for.  Without a point and an exponent it is a whole number while it fits in 64 bits;
minus zero and what does not fit are doubles.  A double is computed from the leading digits that fit in an unsigned
word: that word is rounded to a double, and one multiplication or division by a power of ten, itself rounded, scales
it.  The result can differ from the double nearest to the numeral in the last bit, and a numeral beyond the doubles
has no value.
-/
namespace SupplyTrail.Json

open Decimal (Double)

/-- A number as it is written: sign, digits before the point, digits after it, and a signed exponent. -/
structure Numeral where
  negative : Bool
  integer : List Char
  fraction : Option (List Char)
  exponent : Option (Bool × List Char)

namespace Numeral

def maxWord : Nat := 18446744073709551615

/-- Take digits into a word while it stays one: the word, how many were taken, and the digits that were not. -/
def takeDigits : Nat → Nat → List Char → Nat × Nat × List Char
  | word, count, [] => (word, count, [])
  | word, count, c :: cs =>
    let next := word * 10 + Text.digitValue c
    if next ≤ maxWord then takeDigits next (count + 1) cs else (word, count, c :: cs)

/-- Ten to the power of `n`, rounded, for `n` up to 308. -/
def powerOfTen (n : Nat) : Double := ⟨UInt64.ofNat (Double.roundQuotient (Decimal.tenTo n) 1)⟩

/-- A magnitude divided by ten to the power of `n`.  Beyond 308 the division is made in parts, each one rounded; three
of them leave nothing of any word. -/
def scaleDown : Nat → Double → Nat → Double
  | 0, d, n => (d.over? (powerOfTen (min n 308))).getD d
  | parts + 1, d, n =>
    if n ≤ 308 ∨ d.isZero then (d.over? (powerOfTen (min n 308))).getD d
    else scaleDown parts ((d.over? (powerOfTen 308)).getD d) (n - 308)

/-- The double of a word and a power of ten, if it is finite. -/
def scaled? (word : Nat) (exponent : Int) : Option Double := do
  let d ← Double.ofQuotient? word 1
  if exponent < 0 then return scaleDown 3 d exponent.natAbs
  else if word = 0 then return d
  else if 308 < exponent then none
  else d.times? (powerOfTen exponent.toNat)

/-- The greatest exponent that is read exactly. -/
def maxExponent : Nat := 2147483647

/-- The exponent kept within the bounds of a signed word of 32 bits. -/
def clampExponent (e : Int) : Int := max (-2147483648) (min e 2147483647)

/-- The double of a word, the power of ten it is to be scaled by, and a written exponent. -/
def withExponent? (word : Nat) (start : Int) : Option (Bool × List Char) → Option Double
  | none => scaled? word start
  | some (down, ds) =>
    let e := Text.ofDigits ds
    if maxExponent < e then (if word ≠ 0 ∧ ¬ down then none else some ⟨0⟩)
    else scaled? word (clampExponent (if down then start - e else start + e))

/-- The double a numeral stands for, without its sign. -/
def magnitude? (n : Numeral) : Option Double :=
  let (word, _, rest) := takeDigits 0 0 n.integer
  let dropped : Int := rest.length
  match n.fraction with
  | none => withExponent? word dropped n.exponent
  | some ds =>
    let (word, count, _) := takeDigits word 0 ds
    withExponent? word (dropped - count) n.exponent

/-- The value of a numeral, if it has one. -/
def value? (n : Numeral) : Option Number :=
  let real := n.magnitude?.map fun d => .real (d.withSign n.negative)
  match n.fraction, n.exponent with
  | none, none =>
    let whole : Int := Text.ofDigits n.integer
    if n.negative then (if whole = 0 then real else ((Whole.ofInt? (-whole)).map .whole).or real)
    else ((Whole.ofInt? whole).map .whole).or real
  | _, _ => real

end Numeral

end SupplyTrail.Json
