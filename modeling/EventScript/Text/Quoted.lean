import EventScript.Text.Printable

/-!
# Quoted texts

A text is shown in double quotes on one line. The quote, the backslash and the usual control
characters are escaped with a backslash and a letter; any other character that is not printable is
shown by its code.
-/

namespace EventScript.Text

/-- How a character is shown between double quotes. -/
def shown (c : Char) : List Char :=
  if c = '"' then ['\\', '"']
  else if c = '\\' then ['\\', '\\']
  else if c = '\n' then ['\\', 'n']
  else if c = '\r' then ['\\', 'r']
  else if c = '\t' then ['\\', 't']
  else if c = '\x00' then ['\\', '0']
  else if isPrintable c then [c]
  else ['\\', 'u', '\x7b'] ++ Nat.toDigits 16 c.toNat ++ ['\x7d']

/-- A text between double quotes. -/
def quoted (s : String) : String :=
  String.ofList ('"' :: (s.toList.flatMap shown ++ ['"']))

end EventScript.Text
