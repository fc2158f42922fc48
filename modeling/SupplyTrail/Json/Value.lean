import SupplyTrail.Decimal.Double
import SupplyTrail.Table
/-!
# JSON values

A number is a whole number that fits in 64 bits, signed or not, or a double; the two kinds are never mixed up.  The
members of an object are kept in the order in which they are to be written.  A value built from parts (`Json.ofMembers`,
`Json.ofTable`) has its members in key order, each key once; a message with fields of its own lists them in its own
order.
-/
namespace SupplyTrail

open Decimal (Double)

/-- A whole number from `-2 ^ 63` up to `2 ^ 64 - 1`. -/
structure Whole where
  value : Int
  least : -9223372036854775808 ≤ value
  most : value < 18446744073709551616
  deriving DecidableEq

namespace Whole

/-- The whole number, if it is in range. -/
def ofInt? (n : Int) : Option Whole :=
  if h : -9223372036854775808 ≤ n ∧ n < 18446744073709551616 then some ⟨n, h.1, h.2⟩ else none

def ofWord (n : UInt64) : Whole :=
  ⟨n.toNat, by omega, by have := n.toNat_lt; omega⟩

/-- The number as an unsigned word, if it is not negative. -/
def word? (w : Whole) : Option UInt64 :=
  if 0 ≤ w.value then some (UInt64.ofNat w.value.toNat) else none

theorem word?_ofWord (n : UInt64) : (ofWord n).word? = some n := by
  simp [word?, ofWord]

end Whole

inductive Number where
  | whole (n : Whole)
  | real (d : Double)
  deriving DecidableEq

inductive Json where
  | null
  | bool (b : Bool)
  | number (n : Number)
  | string (s : String)
  | array (items : List Json)
  | object (members : List (String × Json))
  deriving Inhabited

namespace Json

mutual

/-- Equality of values, members in order. -/
def decEq : (a b : Json) → Decidable (a = b)
  | .null, .null => isTrue rfl
  | .bool a, .bool b => decidable_of_iff (a = b) (by simp)
  | .number a, .number b => decidable_of_iff (a = b) (by simp)
  | .string a, .string b => decidable_of_iff (a = b) (by simp)
  | .array a, .array b =>
    match decEqItems a b with
    | isTrue h => isTrue (h ▸ rfl)
    | isFalse h => isFalse fun e => h (by injection e)
  | .object a, .object b =>
    match decEqMembers a b with
    | isTrue h => isTrue (h ▸ rfl)
    | isFalse h => isFalse fun e => h (by injection e)
  | .null, .bool _ | .null, .number _ | .null, .string _ | .null, .array _ | .null, .object _
  | .bool _, .null | .bool _, .number _ | .bool _, .string _ | .bool _, .array _ | .bool _, .object _
  | .number _, .null | .number _, .bool _ | .number _, .string _ | .number _, .array _ | .number _, .object _
  | .string _, .null | .string _, .bool _ | .string _, .number _ | .string _, .array _ | .string _, .object _
  | .array _, .null | .array _, .bool _ | .array _, .number _ | .array _, .string _ | .array _, .object _
  | .object _, .null | .object _, .bool _ | .object _, .number _ | .object _, .string _ | .object _, .array _ =>
    isFalse nofun

def decEqItems : (a b : List Json) → Decidable (a = b)
  | [], [] => isTrue rfl
  | [], _ :: _ | _ :: _, [] => isFalse nofun
  | x :: xs, y :: ys =>
    match decEq x y, decEqItems xs ys with
    | isTrue hx, isTrue hxs => isTrue (hx ▸ hxs ▸ rfl)
    | isFalse hx, _ => isFalse fun e => hx (by injection e)
    | _, isFalse hxs => isFalse fun e => hxs (by injection e)

def decEqMembers : (a b : List (String × Json)) → Decidable (a = b)
  | [], [] => isTrue rfl
  | [], _ :: _ | _ :: _, [] => isFalse nofun
  | (k, x) :: xs, (l, y) :: ys =>
    match decEq x y, decEqMembers xs ys, instDecidableEqString k l with
    | isTrue hx, isTrue hxs, isTrue hk => isTrue (by rw [hx, hxs, hk])
    | isFalse hx, _, _ => isFalse fun e => hx (by injection e with e; injection e)
    | _, isFalse hxs, _ => isFalse fun e => hxs (by injection e)
    | _, _, isFalse hk => isFalse fun e => hk (by injection e with e; injection e)

end

instance : DecidableEq Json := decEq

def word (n : UInt64) : Json := .number (.whole (.ofWord n))

def ofTable (t : Table Json) : Json := .object t.entries

/-- An object of pairs, in key order; of equal keys the last one stays. -/
def ofMembers (members : List (String × Json)) : Json := ofTable (Table.ofList members)

def orNull : Option String → Json
  | none => .null
  | some s => .string s

/-- The value of a member, if this is an object that has it. -/
def member? (key : String) : Json → Option Json
  | .object members => valueOf? key members
  | _ => none

mutual

/-- How deep arrays and objects nest. -/
def depth : Json → Nat
  | .array items => depthItems items + 1
  | .object members => depthMembers members + 1
  | .null | .bool _ | .number _ | .string _ => 0

def depthItems : List Json → Nat
  | [] => 0
  | x :: xs => max x.depth (depthItems xs)

def depthMembers : List (String × Json) → Nat
  | [] => 0
  | (_, x) :: xs => max x.depth (depthMembers xs)

end

end Json

end SupplyTrail
