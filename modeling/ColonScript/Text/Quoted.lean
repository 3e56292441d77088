import ColonScript.Text.Extender
import ColonScript.Text.Printable

/-!
# Quoted text

A text is shown between double quotes.  Quotes, backslashes, the common controls and NUL have
two-character escapes; a character that is not printable, or that would attach to the one
before it, is shown by its code point in braces.
-/

namespace ColonScript
namespace Text

/-- The code point of a character in lower-case hexadecimal without padding. -/
def hexDigits (c : Char) : List Char :=
  Nat.toDigits 16 c.toNat

/-- The way one character is shown inside quotes. -/
def escape (c : Char) : List Char :=
  if c = '\x00' then ['\\', '0']
  else if c = '\t' then ['\\', 't']
  else if c = '\r' then ['\\', 'r']
  else if c = '\n' then ['\\', 'n']
  else if c = '\\' || c = '"' then ['\\', c]
  else if isExtender c || !isPrintable c then
    ['\\', 'u', '\x7b'] ++ hexDigits c ++ ['\x7d']
  else [c]

/-- A text between double quotes, with escapes. -/
def quoted (s : String) : String :=
  String.ofList ('"' :: s.toList.flatMap escape ++ ['"'])

end Text
end ColonScript
