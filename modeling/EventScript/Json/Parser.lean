import EventScript.Json.Basic

/-!
# Reading documents

`Json.parse` accepts one value with blanks around it and nothing else: no comment, no comma
before a closing bracket, no digit after a leading zero, no control character inside a text.

The functions take the rest of the document as a list of characters and give back what they leave.
`value`, `elements` and `members` call each other; their first argument bounds the number of calls
that may be open, and each of them that calls another has read a character or hands over to
`value`, so twice the length of the document is enough.
-/

namespace EventScript.Json

/-- The four blanks that may stand between tokens. -/
def isBlank (c : Char) : Bool :=
  c = ' ' || c = '\t' || c = '\n' || c = '\r'

/-- Drops leading blanks. -/
def skipBlanks : List Char → List Char
  | [] => []
  | c :: r => if isBlank c then skipBlanks r else c :: r

/-! ## Numbers -/

def isDigit (c : Char) : Bool := '0' ≤ c && c ≤ '9'

def digitValue (c : Char) : Nat := c.toNat - '0'.toNat

/-- The leading digits and what follows them. -/
def spanDigits : List Char → List Char × List Char
  | [] => ([], [])
  | c :: r => if isDigit c then (c :: (spanDigits r).1, (spanDigits r).2) else ([], c :: r)

/-- The number that a row of digits writes. -/
def ofDigits (ds : List Char) : Nat :=
  ds.foldl (fun n c => 10 * n + digitValue c) 0

/-- A fraction after the digits of a number; the flag tells whether there was one. -/
def fraction : List Char → Option (Bool × List Char)
  | '.' :: r => match spanDigits r with
    | ([], _) => none
    | (_, r) => some (true, r)
  | r => some (false, r)

/-- An exponent after a number; the flag tells whether there was one. -/
def exponent : List Char → Option (Bool × List Char)
  | [] => some (false, [])
  | c :: r =>
    if c = 'e' || c = 'E' then
      let r := match r with
        | '+' :: r => r
        | '-' :: r => r
        | r => r
      match spanDigits r with
      | ([], _) => none
      | (_, r) => some (true, r)
    else some (false, c :: r)

/-- A number without its sign; digits after a leading zero are refused. -/
def unsigned (negative : Bool) (s : List Char) : Option (Json × List Char) :=
  match spanDigits s with
  | ([], _) => none
  | (d :: ds, r) =>
    if d = '0' && ds ≠ [] then none
    else do
      let (hasFraction, r) ← fraction r
      let (hasExponent, r) ← exponent r
      let n := ofDigits (d :: ds)
      if hasFraction || hasExponent || (negative && n = 0) then some (unreadable, r)
      else some (int (if negative then -(n : Int) else n), r)

def number : List Char → Option (Json × List Char)
  | '-' :: r => unsigned true r
  | r => unsigned false r

/-! ## Texts -/

/-- The value of a hexadecimal digit. -/
def hexValue (c : Char) : Option Nat :=
  if isDigit c then some (digitValue c)
  else if 'a' ≤ c && c ≤ 'f' then some (c.toNat - 'a'.toNat + 10)
  else if 'A' ≤ c && c ≤ 'F' then some (c.toNat - 'A'.toNat + 10)
  else none

/-- The code that four hexadecimal digits write. -/
def hexCode (a b c d : Char) : Option Nat := do
  let a ← hexValue a
  let b ← hexValue b
  let c ← hexValue c
  let d ← hexValue d
  some (((a * 16 + b) * 16 + c) * 16 + d)

/-- The character that a one-letter escape stands for. -/
def escapeValue : Char → Option Char
  | '"' => some '"'
  | '\\' => some '\\'
  | '/' => some '/'
  | 'b' => some '\x08'
  | 'f' => some '\x0c'
  | 'n' => some '\n'
  | 'r' => some '\r'
  | 't' => some '\t'
  | _ => none

/-- The codes of a text up to its closing quote. -/
def codes : List Char → Option (List Nat × List Char)
  | [] => none
  | '"' :: r => some ([], r)
  | '\\' :: 'u' :: a :: b :: c :: d :: r => do
    let n ← hexCode a b c d
    let (ns, r) ← codes r
    some (n :: ns, r)
  | '\\' :: e :: r => do
    let c ← escapeValue e
    let (ns, r) ← codes r
    some (c.toNat :: ns, r)
  | c :: r =>
    if c.toNat < 32 || c = '\\' then none
    else do
      let (ns, r) ← codes r
      some (c.toNat :: ns, r)

/-- Whether a code is the first half of a surrogate pair. -/
def isHigh (n : Nat) : Bool := 0xD800 ≤ n && n ≤ 0xDBFF

/-- Whether a code is the second half of a surrogate pair. -/
def isLow (n : Nat) : Bool := 0xDC00 ≤ n && n ≤ 0xDFFF

/-- The text of a row of codes, unless a half of a pair stands alone. -/
def join : List Nat → Option (List Char)
  | [] => some []
  | n :: r =>
    if isHigh n then
      match r with
      | [] => none
      | m :: r =>
        if isLow m then
          (join r).map (Char.ofNat (0x10000 + (n - 0xD800) * 0x400 + (m - 0xDC00)) :: ·)
        else none
    else if isLow n then none
    else (join r).map (Char.ofNat n :: ·)

/-- A text after its opening quote; `none` inside the pair if it is no text. -/
def quoted (s : List Char) : Option (Option String × List Char) := do
  let (ns, r) ← codes s
  some ((join ns).map String.ofList, r)

/-! ## Values -/

/-- The object of the members read, unless one of the keys is no text. -/
def ofMembers (ms : List (Option String × Json)) : Json :=
  match ms.mapM (fun m => m.1.map (·, m.2)) with
  | some ms => obj ms
  | none => unreadable

mutual

/-- One value at the head. -/
def value : Nat → List Char → Option (Json × List Char)
  | 0, _ => none
  | _ + 1, 'n' :: 'u' :: 'l' :: 'l' :: r => some (null, r)
  | _ + 1, 't' :: 'r' :: 'u' :: 'e' :: r => some (bool true, r)
  | _ + 1, 'f' :: 'a' :: 'l' :: 's' :: 'e' :: r => some (bool false, r)
  | _ + 1, '"' :: r => do
    let (t, r) ← quoted r
    some (match t with | some t => text t | none => unreadable, r)
  | n + 1, '[' :: r => match skipBlanks r with
    | ']' :: r => some (arr [], r)
    | r => do
      let (xs, r) ← elements n r
      some (arr xs, r)
  | n + 1, '{' :: r => match skipBlanks r with
    | '}' :: r => some (obj [], r)
    | r => do
      let (ms, r) ← members n r
      some (ofMembers ms, r)
  | _ + 1, r => number r

/-- The items of an array that is not empty, up to its closing bracket. -/
def elements : Nat → List Char → Option (List Json × List Char)
  | 0, _ => none
  | n + 1, s => do
    let (x, r) ← value n (skipBlanks s)
    match skipBlanks r with
    | ',' :: r => do
      let (xs, r) ← elements n r
      some (x :: xs, r)
    | ']' :: r => some ([x], r)
    | _ => none

/-- The members of an object that is not empty, up to its closing brace. -/
def members : Nat → List Char → Option (List (Option String × Json) × List Char)
  | 0, _ => none
  | n + 1, s => match skipBlanks s with
    | '"' :: r => do
      let (key, r) ← quoted r
      match skipBlanks r with
      | ':' :: r => do
        let (x, r) ← value n (skipBlanks r)
        match skipBlanks r with
        | ',' :: r => do
          let (ms, r) ← members n r
          some ((key, x) :: ms, r)
        | '}' :: r => some ([(key, x)], r)
        | _ => none
      | _ => none
    | _ => none

end

/-- The value that a document writes. -/
def parse (s : String) : Option Json :=
  let cs := s.toList
  match value (2 * cs.length + 2) (skipBlanks cs) with
  | some (j, r) => if skipBlanks r = [] then some j else none
  | none => none

end EventScript.Json
