import SupplyTrail.Text.Quoted
/-!
# Text for a terminal

A terminal obeys some control characters instead of showing them.  Those that can ring, erase, recolour or move the
cursor are written out before a text is shown: the bell, the backspace, the form feed, the escape character, delete, and
all of U+0080 to U+009F.  Everything else stays, tabs and line ends included.
-/
namespace SupplyTrail.Text

/-- The single-byte controls that are written out. -/
def obeyedControls : List Char := ['\x07', '\x08', '\x0c', '\x1b', '\x7f']

/-- A value below 256 as two digits in lower-case hexadecimal. -/
def byteEscape (c : Char) : List Char := '\\' :: 'x' :: hexPadded 2 c.toNat

/-- One character as a terminal may be given it. -/
def tameChar (c : Char) : List Char :=
  if c ∈ obeyedControls then byteEscape c
  else if 0x80 ≤ c.toNat ∧ c.toNat ≤ 0x9F then scalarEscape c
  else [c]

/-- The text with the controls that a terminal obeys written out. -/
def tame (s : String) : String := String.ofList (s.toList.flatMap tameChar)

end SupplyTrail.Text
