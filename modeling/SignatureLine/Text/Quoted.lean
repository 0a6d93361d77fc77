import SignatureLine.Text.Digits
import SignatureLine.Text.Printable

/-!
# Quoted texts

The form in which a message shows a text that was met in place of something else: between double
quotes, with escapes for what would not be seen.
-/

namespace SignatureLine.Text

/-- One character of a quoted text. -/
def escapeForQuote (c : Char) : Text :=
  if c = '\x00' then ['\\', '0']
  else if c = '\t' then ['\\', 't']
  else if c = '\r' then ['\\', 'r']
  else if c = '\n' then ['\\', 'n']
  else if c = '"' then ['\\', '"']
  else if c = '\\' then ['\\', '\\']
  else if isPrintable c then [c]
  else ['\\', 'u', '\x7b'] ++ hex c.toNat ++ ['\x7d']

/-- The text between double quotes. Only the double quote and the backslash, of the visible
characters, are escaped. -/
def quoted (s : Text) : Text :=
  '"' :: s.flatMap escapeForQuote ++ ['"']

end SignatureLine.Text
