import SupplyTrail.Json.Numeral
import SupplyTrail.Json.Source
import SupplyTrail.Text.Hex
import SupplyTrail.Text.Utf8
/-!
# Reading JSON text

A text is read into a document or refused.  Refused is what breaks the grammar anywhere: a raw control character in a
string, an unknown escape, a leading zero, a trailing comma, anything but blanks after the document.  What keeps to
the grammar and still stands for no value becomes `Source.unreadable`: a string with a lone surrogate or lost bytes, a
number beyond the doubles, and an array or object with `room` others around it already.

The readers take the rest of the text and give back what they leave of it.  Those of values, items and members call each
other; the first argument bounds the calls, and one call per glyph is always enough.
-/
namespace SupplyTrail.Json.Reader

open Text (Glyph)

/-- The four blanks of the format. -/
def isBlank (g : Glyph) : Bool :=
  g == some ' ' || g == some '\n' || g == some '\r' || g == some '\t'

def skipBlanks (input : List Glyph) : List Glyph :=
  input.dropWhile isBlank

/-- The rest of the text after a word, if it starts with it. -/
def expect (word : List Char) (input : List Glyph) : Option (List Glyph) :=
  match word, input with
  | [], rest => some rest
  | c :: cs, some d :: rest => if c = d then expect cs rest else none
  | _ :: _, _ => none

def hex4? (a b c d : Glyph) : Option Nat := do
  let w ← Text.hexValue (← a)
  let x ← Text.hexValue (← b)
  let y ← Text.hexValue (← c)
  let z ← Text.hexValue (← d)
  return ((w * 16 + x) * 16 + y) * 16 + z

def shortEscape? : Char → Option Char
  | '"' => some '"'
  | '\\' => some '\\'
  | '/' => some '/'
  | 'b' => some '\x08'
  | 'f' => some '\x0c'
  | 'n' => some '\n'
  | 'r' => some '\r'
  | 't' => some '\t'
  | _ => none

def isHighSurrogate (n : Nat) : Bool := 0xD800 ≤ n && n ≤ 0xDBFF

def isLowSurrogate (n : Nat) : Bool := 0xDC00 ≤ n && n ≤ 0xDFFF

/-- A part of a string as it is written: a character (raw or by a short escape), a numeric escape, or lost bytes. -/
inductive Piece where
  | char (c : Char)
  | escape (n : Nat)
  | lost

/-- Put a piece in front of those that were read. -/
def piece (p : Piece) (r : List Piece × List Glyph) : List Piece × List Glyph :=
  (p :: r.1, r.2)

/-- The pieces of a string up to its closing quote, and the text after it. -/
def readString : List Glyph → Option (List Piece × List Glyph)
  | [] => none
  | none :: rest => (readString rest).map (piece .lost)
  | some '"' :: rest => some ([], rest)
  | some '\\' :: some 'u' :: a :: b :: c :: d :: rest =>
    match hex4? a b c d with
    | none => none
    | some n => (readString rest).map (piece (.escape n))
  | some '\\' :: some e :: rest =>
    match shortEscape? e with
    | none => none
    | some c => (readString rest).map (piece (.char c))
  | some '\\' :: _ => none
  | some c :: rest => if c.toNat < 0x20 then none else (readString rest).map (piece (.char c))

/-- The characters of the pieces, if they are text: nothing is lost, and numeric escapes of surrogates stand in pairs, a
high one before a low one. -/
def joinPieces : List Piece → Option (List Char)
  | [] => some []
  | .lost :: _ => none
  | .char c :: rest => (joinPieces rest).map (c :: ·)
  | .escape high :: .escape low :: rest =>
    if isHighSurrogate high then
      if isLowSurrogate low then
        (joinPieces rest).map (Char.ofNat ((high - 0xD800) * 0x400 + (low - 0xDC00) + 0x10000) :: ·)
      else none
    else if isLowSurrogate high then none
    else (joinPieces (.escape low :: rest)).map (Char.ofNat high :: ·)
  | .escape n :: rest =>
    if isHighSurrogate n || isLowSurrogate n then none else (joinPieces rest).map (Char.ofNat n :: ·)

/-- The text of a string, if its pieces are text. -/
def textOf? (pieces : List Piece) : Option String :=
  (joinPieces pieces).map String.ofList

/-- The leading digits of the text and what follows them. -/
def readDigits : List Glyph → List Char × List Glyph
  | some c :: rest => if Text.isDigit c then (c :: (readDigits rest).1, (readDigits rest).2) else ([], some c :: rest)
  | rest => ([], rest)

/-- The digits before the point: a zero alone, or digits that start with another one. -/
def readInteger (input : List Glyph) : Option (List Char × List Glyph) :=
  match readDigits input with
  | ([], _) => none
  | ('0' :: _ :: _, _) => none
  | r => some r

/-- A point and the digits after it, of which there is at least one. -/
def readFraction (input : List Glyph) : Option (Option (List Char) × List Glyph) :=
  match input with
  | some '.' :: rest =>
    match readDigits rest with
    | ([], _) => none
    | (ds, rest) => some (some ds, rest)
  | _ => some (none, input)

/-- The sign of an exponent: whether it is negative, and the text after it. -/
def readSign : List Glyph → Bool × List Glyph
  | some '+' :: rest => (false, rest)
  | some '-' :: rest => (true, rest)
  | rest => (false, rest)

def readExponent (input : List Glyph) : Option (Option (Bool × List Char) × List Glyph) :=
  match input with
  | some c :: rest =>
    if c = 'e' ∨ c = 'E' then
      match readDigits (readSign rest).2 with
      | ([], _) => none
      | (ds, rest2) => some (some ((readSign rest).1, ds), rest2)
    else some (none, input)
  | _ => some (none, input)

def readNumber (negative : Bool) (input : List Glyph) : Option (Source × List Glyph) := do
  let (integer, rest) ← readInteger input
  let (fraction, rest) ← readFraction rest
  let (exponent, rest) ← readExponent rest
  match Numeral.value? ⟨negative, integer, fraction, exponent⟩ with
  | some n => return (.number n, rest)
  | none => return (.unreadable, rest)

/-- An array or object, if there is room for it. -/
def within (room : Nat) (s : Source) : Source :=
  if room = 0 then .unreadable else s

mutual

def readValue : Nat → Nat → List Glyph → Option (Source × List Glyph)
  | 0, _, _ => none
  | calls + 1, room, input =>
    match skipBlanks input with
    | some 'n' :: rest => (expect ['u', 'l', 'l'] rest).map (Source.null, ·)
    | some 't' :: rest => (expect ['r', 'u', 'e'] rest).map (Source.bool true, ·)
    | some 'f' :: rest => (expect ['a', 'l', 's', 'e'] rest).map (Source.bool false, ·)
    | some '"' :: rest =>
      (readString rest).map fun r => ((textOf? r.1).elim .unreadable .string, r.2)
    | some '-' :: rest => readNumber true rest
    | some '[' :: rest =>
      match skipBlanks rest with
      | some ']' :: rest => some (within room (.array []), rest)
      | _ => do
        let (x, rest) ← readValue calls (room - 1) rest
        let (xs, rest) ← readItems calls (room - 1) rest
        return (within room (.array (x :: xs)), rest)
    | some '\x7b' :: rest =>
      match skipBlanks rest with
      | some '\x7d' :: rest => some (within room (.object []), rest)
      | _ => do
        let (x, rest) ← readMember calls (room - 1) rest
        let (xs, rest) ← readMembers calls (room - 1) rest
        return (within room (.object (x :: xs)), rest)
    | rest => readNumber false rest

/-- The items after the first one, up to the bracket. -/
def readItems : Nat → Nat → List Glyph → Option (List Source × List Glyph)
  | 0, _, _ => none
  | calls + 1, room, input =>
    match skipBlanks input with
    | some ']' :: rest => some ([], rest)
    | some ',' :: rest => do
      let (x, rest) ← readValue calls room rest
      let (xs, rest) ← readItems calls room rest
      return (x :: xs, rest)
    | _ => none

def readMember : Nat → Nat → List Glyph → Option ((Option String × Source) × List Glyph)
  | 0, _, _ => none
  | calls + 1, room, input =>
    match skipBlanks input with
    | some '"' :: rest =>
      match readString rest with
      | none => none
      | some (key, rest) =>
        match skipBlanks rest with
        | some ':' :: rest => do
          let (x, rest) ← readValue calls room rest
          return ((textOf? key, x), rest)
        | _ => none
    | _ => none

/-- The members after the first one, up to the brace. -/
def readMembers : Nat → Nat → List Glyph → Option (List (Option String × Source) × List Glyph)
  | 0, _, _ => none
  | calls + 1, room, input =>
    match skipBlanks input with
    | some '\x7d' :: rest => some ([], rest)
    | some ',' :: rest => do
      let (x, rest) ← readMember calls room rest
      let (xs, rest) ← readMembers calls room rest
      return (x :: xs, rest)
    | _ => none

end

/-- The document a text holds, with nothing but blanks around it. -/
def readGlyphs (room : Nat) (input : List Glyph) : Option Source :=
  match readValue (input.length + 1) room input with
  | some (s, rest) => if (skipBlanks rest).isEmpty then some s else none
  | none => none

end Reader

/-- How many arrays and objects may nest in a text. -/
def maxDepth : Nat := 127

def Source.ofBytes? (bytes : List UInt8) : Option Source :=
  Reader.readGlyphs maxDepth (Text.glyphs bytes)

def Source.ofText? (s : String) : Option Source :=
  Reader.readGlyphs maxDepth (s.toList.map some)

/-- The value that a text holds, however deep it nests. -/
def ofText? (s : String) : Option Json :=
  (Reader.readGlyphs s.length (s.toList.map some)).bind Source.toJson?

end SupplyTrail.Json
