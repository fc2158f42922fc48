import SupplyTrail.Decimal.Shortest
import SupplyTrail.Json.Value
import SupplyTrail.Text.Digits
import SupplyTrail.Text.Hex
/-!
# Compact JSON text

No blanks anywhere.  In a string only the quote, the backslash and the control characters below U+0020 are escaped, the
common ones in short form; every other character stands as itself.  A double is written so that it shows as one: it
always has a point or an exponent.
-/
namespace SupplyTrail.Json

def escapeChar (c : Char) : List Char :=
  if c = '"' then ['\\', '"']
  else if c = '\\' then ['\\', '\\']
  else if c = '\x08' then ['\\', 'b']
  else if c = '\x0c' then ['\\', 'f']
  else if c = '\n' then ['\\', 'n']
  else if c = '\r' then ['\\', 'r']
  else if c = '\t' then ['\\', 't']
  else if c.toNat < 0x20 then '\\' :: 'u' :: Text.hexPadded 4 c.toNat
  else [c]

def stringChars (s : String) : List Char :=
  '"' :: (s.toList.flatMap escapeChar ++ ['"'])

def wholeChars (n : Int) : List Char :=
  if n < 0 then '-' :: Text.decimalChars n.natAbs else Text.decimalChars n.natAbs

def numberChars : Number → List Char
  | .whole n => wholeChars n.value
  | .real d => Decimal.shortText d

mutual

def chars : Json → List Char
  | .null => ['n', 'u', 'l', 'l']
  | .bool true => ['t', 'r', 'u', 'e']
  | .bool false => ['f', 'a', 'l', 's', 'e']
  | .number n => numberChars n
  | .string s => stringChars s
  | .array [] => ['[', ']']
  | .array (x :: xs) => '[' :: (x.chars ++ itemsChars xs)
  | .object [] => ['\x7b', '\x7d']
  | .object ((k, x) :: xs) => '\x7b' :: (stringChars k ++ ':' :: (x.chars ++ membersChars xs))

/-- The items after the first one, and the bracket. -/
def itemsChars : List Json → List Char
  | [] => [']']
  | x :: xs => ',' :: (x.chars ++ itemsChars xs)

/-- The members after the first one, and the brace. -/
def membersChars : List (String × Json) → List Char
  | [] => ['\x7d']
  | (k, x) :: xs => ',' :: (stringChars k ++ ':' :: (x.chars ++ membersChars xs))

end

def render (j : Json) : String := String.ofList j.chars

end SupplyTrail.Json
