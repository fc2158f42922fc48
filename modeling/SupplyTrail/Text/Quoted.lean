import SupplyTrail.Text.Hex
import SupplyTrail.Text.Printable
/-!
# Quoted text

A text between double quotes, as messages show a setting's value.  The quote, the backslash and the four common control
characters have short escapes.  What would not show by itself (an unprintable character, or one that joins the character
before it) is written as its scalar value in braces, so the quoted form is unambiguous on any screen.
-/
namespace SupplyTrail.Text

/-- The scalar value in lower-case hexadecimal between braces. -/
def scalarEscape (c : Char) : List Char :=
  '\\' :: 'u' :: '\x7b' :: (hexDigits c.toNat ++ ['\x7d'])

def quoteChar (c : Char) : List Char :=
  if c = '\x00' then ['\\', '0']
  else if c = '\t' then ['\\', 't']
  else if c = '\r' then ['\\', 'r']
  else if c = '\n' then ['\\', 'n']
  else if c = '\\' ∨ c = '"' then ['\\', c]
  else if isCombining c || !isPrintable c then scalarEscape c
  else [c]

def quoted (s : String) : String :=
  String.ofList ('"' :: (s.toList.flatMap quoteChar ++ ['"']))

end SupplyTrail.Text
