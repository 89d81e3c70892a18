import Reputation.Text.Numeral
import Reputation.Text.Printable
/-!
Text quoted for messages: between double quotes, with the quote, the backslash and all that does
not print on its own escaped. Apostrophes stand as they are.
-/
namespace Reputation.Text

/-- Four characters have escapes of their own; code points are written in hexadecimal. -/
def escapeChar (c : Char) : List Char :=
  if c = '\x00' then ['\\', '0']
  else if c = '\t' then ['\\', 't']
  else if c = '\r' then ['\\', 'r']
  else if c = '\n' then ['\\', 'n']
  else if c = '"' || c = '\\' then ['\\', c]
  else if isExtending c || !isPrintable c then
    ['\\', 'u', '\x7b'] ++ shortDigits 16 c.toNat c.toNat ++ ['\x7d']
  else [c]

def quoted (s : String) : String :=
  String.ofList ('"' :: (s.toList.flatMap escapeChar ++ ['"']))

end Reputation.Text
