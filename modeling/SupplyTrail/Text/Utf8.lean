/-!
# Reading UTF-8

Bytes are read into glyphs: a character, or nothing where the bytes form none.  Where a sequence breaks off, the part
that could still have become a character counts as one lost glyph and reading starts again at the byte that broke it, so
an ASCII byte is always read as its character whatever stands before it.

Text that is well formed as a whole is read by the core library; the machine below is for text that is not.
-/
namespace SupplyTrail.Text

/-- A character that was read, or nothing where the bytes form none. -/
abbrev Glyph := Option Char

/-- A character in the making: its value so far, the continuation bytes still owed and the bounds of the next one. -/
structure Pending where
  value : Nat
  owed : Nat
  least : Nat
  most : Nat

/-- What a first byte begins: a whole character, a longer sequence, or nothing. -/
inductive Lead where
  | whole (c : Char)
  | longer (p : Pending)
  | none

/-- The first byte of a sequence.  The bounds on the second byte leave only shortest forms, no surrogate and nothing
beyond U+10FFFF. -/
def lead (b : UInt8) : Lead :=
  let n := b.toNat
  if n < 0x80 then .whole (Char.ofNat n)
  else if 0xC2 ≤ n ∧ n ≤ 0xDF then .longer ⟨n - 0xC0, 1, 0x80, 0xBF⟩
  else if 0xE0 ≤ n ∧ n ≤ 0xEF then
    .longer ⟨n - 0xE0, 2, if n = 0xE0 then 0xA0 else 0x80, if n = 0xED then 0x9F else 0xBF⟩
  else if 0xF0 ≤ n ∧ n ≤ 0xF4 then
    .longer ⟨n - 0xF0, 3, if n = 0xF0 then 0x90 else 0x80, if n = 0xF4 then 0x8F else 0xBF⟩
  else .none

/-- The glyphs of a run of bytes that follows a sequence in the making, if there is one. -/
def glyphsFrom : Option Pending → List UInt8 → List Glyph
  | none, [] => []
  | some _, [] => [none]
  | none, b :: rest => begin b rest
  | some p, b :: rest =>
    let n := b.toNat
    if p.least ≤ n ∧ n ≤ p.most then
      let value := p.value * 64 + (n - 0x80)
      if p.owed ≤ 1 then some (Char.ofNat value) :: glyphsFrom none rest
      else glyphsFrom (some ⟨value, p.owed - 1, 0x80, 0xBF⟩) rest
    else none :: begin b rest
where
  /-- A byte that starts a sequence, and the bytes after it. -/
  begin (b : UInt8) (rest : List UInt8) : List Glyph :=
    match lead b with
    | .whole c => some c :: glyphsFrom none rest
    | .longer p => glyphsFrom (some p) rest
    | .none => none :: glyphsFrom none rest

def bytesOf (s : String) : List UInt8 :=
  s.toUTF8.data.toList

/-- The text of bytes that are well formed as a whole. -/
def text? (bytes : List UInt8) : Option String :=
  String.fromUTF8? ⟨bytes.toArray⟩

def glyphs (bytes : List UInt8) : List Glyph :=
  match text? bytes with
  | some s => s.toList.map some
  | none => glyphsFrom none bytes

/-- The text with a replacement character for each lost glyph. -/
def lossyText (bytes : List UInt8) : String :=
  String.ofList ((glyphs bytes).map fun g => g.getD '\ufffd')

theorem text?_bytesOf (s : String) : text? (bytesOf s) = some s := by
  simp only [text?, bytesOf, Array.toArray_toList]
  exact dif_pos s.isValidUTF8

theorem glyphs_bytesOf (s : String) : glyphs (bytesOf s) = s.toList.map some := by
  simp only [glyphs, text?_bytesOf]

end SupplyTrail.Text
