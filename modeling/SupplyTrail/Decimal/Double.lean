/-!
# Binary doubles

A finite IEEE 754 double is kept as its 64 bits.  Its magnitude is `m · 2 ^ q` for a whole number `m` below `2 ^ 53`, so
it is an exact quotient of two whole numbers; rounding, multiplication and division work on such quotients and need no
machine arithmetic.
-/
namespace SupplyTrail.Decimal

def twoTo (n : Nat) : Nat := Nat.pow 2 n

def tenTo (n : Nat) : Nat := Nat.pow 10 n

/-- A finite double, by its bits: sign, eleven bits of exponent, fifty-two bits of fraction. -/
structure Double where
  bits : UInt64
  deriving DecidableEq, Repr

namespace Double

def magnitudeBits (d : Double) : Nat := d.bits.toNat % twoTo 63

def isNegative (d : Double) : Bool := twoTo 63 ≤ d.bits.toNat

def isZero (d : Double) : Bool := d.magnitudeBits == 0

/-- The whole number `m` of the magnitude `m · 2 ^ q`. -/
def significand (d : Double) : Nat :=
  let fraction := d.magnitudeBits % twoTo 52
  if d.magnitudeBits < twoTo 52 then fraction else fraction + twoTo 52

/-- The exponent `q` of the magnitude `m · 2 ^ q`, counted from the smallest one: `q + 1074`. -/
def scale (d : Double) : Nat := d.magnitudeBits / twoTo 52 - 1

/-- The double of a sign and magnitude bits. -/
def ofMagnitude (negative : Bool) (magnitude : Nat) : Double :=
  ⟨UInt64.ofNat (magnitude + if negative then twoTo 63 else 0)⟩

/-- The magnitude as a quotient: numerator and denominator. -/
def quotient (d : Double) : Nat × Nat :=
  (d.significand * twoTo d.scale, twoTo 1074)

/-- The magnitude bits of infinity; finite doubles are below it. -/
def infinityBits : Nat := 2047 * twoTo 52

/-- The magnitude bits of the double nearest to `num / den`, a tie going to the even significand.  The result is at
least `infinityBits` exactly when the quotient rounds beyond the finite range. -/
def roundQuotient (num den : Nat) : Nat :=
  if num = 0 ∨ den = 0 then 0
  else
    -- `scale` is the one at which the significand has fifty-three bits, or the smallest one
    let scale := (num.log2 + 1074) - (den.log2 + 53)
    let n := num * twoTo 1074
    let d := den * twoTo scale
    let (scale, d) := if d * twoTo 53 ≤ n then (scale + 1, 2 * d) else (scale, d)
    let m := n / d
    let rest := n % d
    let m := if d < 2 * rest ∨ (d = 2 * rest ∧ m % 2 = 1) then m + 1 else m
    scale * twoTo 52 + m

/-- The nearest double of a quotient, if that is finite. -/
def ofQuotient? (num den : Nat) : Option Double :=
  let magnitude := roundQuotient num den
  if magnitude < infinityBits then some (ofMagnitude false magnitude) else none

/-- The product of two magnitudes, rounded, if that is finite. -/
def times? (a b : Double) : Option Double :=
  ofQuotient? (a.quotient.1 * b.quotient.1) (a.quotient.2 * b.quotient.2)

/-- The quotient of two magnitudes, rounded, if that is finite. -/
def over? (a b : Double) : Option Double :=
  ofQuotient? (a.quotient.1 * b.quotient.2) (a.quotient.2 * b.quotient.1)

def withSign (negative : Bool) (d : Double) : Double :=
  ofMagnitude negative d.magnitudeBits

end Double

end SupplyTrail.Decimal
