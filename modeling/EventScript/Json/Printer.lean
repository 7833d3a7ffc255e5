import EventScript.Json.Basic

/-!
# Writing documents

`Json.render` writes a value without blanks. Inside a text a quote, a backslash and the control
characters below the blank are escaped; everything else stands as it is.
-/

namespace EventScript.Json

/-- A hexadecimal digit. -/
def hexDigit (n : Nat) : Char :=
  if n < 10 then Char.ofNat (n + 48) else Char.ofNat (n + 87)

/-- How a character stands inside a text. -/
def escape (c : Char) : List Char :=
  if c = '"' then ['\\', '"']
  else if c = '\\' then ['\\', '\\']
  else if c = '\n' then ['\\', 'n']
  else if c = '\r' then ['\\', 'r']
  else if c = '\t' then ['\\', 't']
  else if c = '\x08' then ['\\', 'b']
  else if c = '\x0c' then ['\\', 'f']
  else if c.toNat < 32 then
    ['\\', 'u', '0', '0', hexDigit (c.toNat / 16), hexDigit (c.toNat % 16)]
  else [c]

/-- A text in quotes, in front of `rest`. -/
def writeText (s : String) (rest : List Char) : List Char :=
  '"' :: (s.toList.flatMap escape ++ '"' :: rest)

/-- An integer, in front of `rest`. -/
def writeInt (z : Int) (rest : List Char) : List Char :=
  if z < 0 then '-' :: (Nat.toDigits 10 z.natAbs ++ rest)
  else Nat.toDigits 10 z.natAbs ++ rest

mutual

/-- A value, in front of `rest`. -/
def write : Json → List Char → List Char
  | null, rest => 'n' :: 'u' :: 'l' :: 'l' :: rest
  | bool true, rest => 't' :: 'r' :: 'u' :: 'e' :: rest
  | bool false, rest => 'f' :: 'a' :: 'l' :: 's' :: 'e' :: rest
  | int z, rest => writeInt z rest
  | text s, rest => writeText s rest
  | arr xs, rest => '[' :: writeItems xs (']' :: rest)
  | obj ms, rest => '{' :: writeMembers ms ('}' :: rest)
  | unreadable, rest => '0' :: '.' :: '5' :: rest

/-- The items of an array, with commas between them. -/
def writeItems : List Json → List Char → List Char
  | [], rest => rest
  | [x], rest => write x rest
  | x :: xs, rest => write x (',' :: writeItems xs rest)

/-- The members of an object, with commas between them. -/
def writeMembers : List (String × Json) → List Char → List Char
  | [], rest => rest
  | [(k, x)], rest => writeText k (':' :: write x rest)
  | (k, x) :: ms, rest => writeText k (':' :: write x (',' :: writeMembers ms rest))

end

/-- A value as a document. -/
def render (j : Json) : String := String.ofList (write j [])

end EventScript.Json
