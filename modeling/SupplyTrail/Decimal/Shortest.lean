import SupplyTrail.Decimal.Double
import SupplyTrail.Text.Digits
/-!
# The shortest decimal of a double

Of all decimals that round to a double, the one with the fewest digits is taken, and of those the one nearest to the
double; an exact tie goes to the even last digit.  For one digit, two, and so on, the two neighbours of the double on
the grid of that many digits are tried; seventeen digits always suffice.
-/
namespace SupplyTrail.Decimal

/-- The decimal `digits · 10 ^ exponent`. -/
structure Scientific where
  digits : Nat
  exponent : Int
  deriving DecidableEq, Repr

/-- The same decimal without trailing zeros among its digits; `fuel` bounds how many are dropped. -/
def dropZeros : Nat → Scientific → Scientific
  | 0, s => s
  | fuel + 1, s => if s.digits ≠ 0 ∧ s.digits % 10 = 0 then dropZeros fuel ⟨s.digits / 10, s.exponent + 1⟩ else s

/-- `num / den` is at least ten to the power of `e`. -/
def atLeastPower (num den : Nat) (e : Int) : Bool :=
  if 0 ≤ e then den * tenTo e.toNat ≤ num else den ≤ num * tenTo (-e).toNat

/-- The exponent of the leading digit of `num / den`: from an estimate `e` not above it, one step up at a time. -/
def leadingExponent (num den : Nat) : Nat → Int → Int
  | 0, e => e
  | fuel + 1, e => if atLeastPower num den (e + 1) then leadingExponent num den fuel (e + 1) else e

/-- What rounds to a double, in quarters of its unit: the ends of the interval around `four · m`, and whether they
belong to it. -/
structure Rounding where
  low : Nat
  value : Nat
  high : Nat
  closed : Bool

/-- The interval of a magnitude.  Below a power of two the next double is half as far away. -/
def roundingOf (d : Double) : Rounding :=
  let m := d.significand
  let below := if m = twoTo 52 ∧ 0 < d.scale then 1 else 2
  ⟨4 * m - below, 4 * m, 4 * m + 2, m % 2 == 0⟩

/-- The whole number `x` of grid units `unitNum / unitDen` rounds to the double; both sides are in quarters of the
double's unit. -/
def Rounding.admits (r : Rounding) (x unitNum unitDen : Nat) : Bool :=
  let y := x * unitNum
  if r.closed then r.low * unitDen ≤ y && y ≤ r.high * unitDen else r.low * unitDen < y && y < r.high * unitDen

/-- The best decimal with units of ten to the power of `p`, if one rounds to the double. -/
def onGrid? (d : Double) (p : Int) : Option Scientific :=
  let r := roundingOf d
  -- one grid unit in quarters of the double's unit is `unitNum / unitDen`
  let ten := if 0 ≤ p then (tenTo p.toNat, 1) else (1, tenTo (-p).toNat)
  let unitNum := ten.1 * twoTo 1076
  let unitDen := ten.2 * twoTo d.scale
  let floor := r.value * unitDen / unitNum
  let rest := r.value * unitDen % unitNum
  let ceil := floor + 1
  let nearest := if 2 * rest < unitNum ∨ (2 * rest = unitNum ∧ floor % 2 = 0) then (floor, ceil) else (ceil, floor)
  if r.admits nearest.1 unitNum unitDen then some ⟨nearest.1, p⟩
  else if r.admits nearest.2 unitNum unitDen then some ⟨nearest.2, p⟩
  else none

/-- The first grid with a hit, from `count` digits on; `more` says how many further ones are tried. -/
def firstGrid (d : Double) (lead : Int) : Nat → Nat → Scientific
  | 0, _ => ⟨0, 0⟩
  | more + 1, count =>
    match onGrid? d (lead - count) with
    | some s => s
    | none => firstGrid d lead more (count + 1)

/-- The shortest decimal that rounds to the magnitude of a double. -/
def shortest (d : Double) : Scientific :=
  if d.isZero then ⟨0, 0⟩
  else
    let (num, den) := d.quotient
    -- 0.30103 is just above the decimal logarithm of two
    let binary : Int := (num.log2 : Int) - den.log2
    let guess : Int := binary * 30103 / 100000 - 2
    let lead := leadingExponent num den 8 guess
    dropZeros 20 (firstGrid d lead 18 0)

/-- The digits of a decimal, most significant first. -/
def Scientific.text (s : Scientific) : List Char := Text.decimalChars s.digits

/-- The decimal written without an exponent, with at least one digit on each side of the point. -/
def Scientific.positional (s : Scientific) : List Char :=
  let ds := s.text
  let point : Int := ds.length + s.exponent
  if 0 ≤ s.exponent then ds ++ List.replicate s.exponent.toNat '0' ++ ['.', '0']
  else if 0 < point then ds.take point.toNat ++ '.' :: ds.drop point.toNat
  else '0' :: '.' :: (List.replicate (-point).toNat '0' ++ ds)

/-- The decimal written as one digit, the others after a point, and a signed exponent. -/
def Scientific.withExponent (s : Scientific) : List Char :=
  let ds := s.text
  let lead : Int := ds.length + s.exponent - 1
  let sign := if lead < 0 then '-' else '+'
  let tail := match ds.drop 1 with
    | [] => []
    | rest => '.' :: rest
  ds.take 1 ++ tail ++ 'e' :: sign :: Text.decimalChars lead.natAbs

/-- A double in short form: without an exponent while the leading digit stands from five places after the point to
sixteen before it, with one otherwise. -/
def shortText (d : Double) : List Char :=
  let s := shortest d
  let point : Int := s.text.length + s.exponent
  let body := if d.isZero then ['0', '.', '0']
    else if -4 ≤ point ∧ point ≤ 16 then s.positional
    else s.withExponent
  if d.isNegative then '-' :: body else body

end SupplyTrail.Decimal
