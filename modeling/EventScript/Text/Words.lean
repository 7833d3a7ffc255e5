import EventScript.Checked

/-!
# Words and numbers on a line

What the player types is cut at blanks, and a word is a number when it is an optional sign and
decimal digits within the range of script numbers.
-/

namespace EventScript.Text

/-- The blanks of all scripts: tabulators, line and page ends, and every kind of space. -/
def isBlank (c : Char) : Bool :=
  let n := c.toNat
  (9 ≤ n && n ≤ 13) || n = 0x20 || n = 0x85 || n = 0xA0 || n = 0x1680 ||
    (0x2000 ≤ n && n ≤ 0x200A) || n = 0x2028 || n = 0x2029 || n = 0x202F || n = 0x205F ||
    n = 0x3000

/-- The line without the blanks at its ends. -/
def trim (s : String) : String :=
  String.ofList ((s.toList.dropWhile isBlank).reverse.dropWhile isBlank).reverse

/-- The words of a row of characters; `word` holds the letters of the open word, last one first. -/
def cut : List Char → List Char → List String
  | [], word => if word = [] then [] else [String.ofList word.reverse]
  | c :: r, word =>
    if isBlank c then
      if word = [] then cut r [] else String.ofList word.reverse :: cut r []
    else cut r (c :: word)

/-- The words between the blanks of a line. -/
def words (s : String) : List String := cut s.toList []

/-- The number that decimal digits write, if there is at least one and no other character. -/
def digits? (ds : List Char) : Option Nat :=
  if ds ≠ [] && ds.all (fun c => '0' ≤ c && c ≤ '9') then
    some (ds.foldl (fun n c => 10 * n + (c.toNat - 48)) 0)
  else none

/-- The integer that a word writes. -/
def integer? (s : String) : Option Int :=
  match s.toList with
  | '-' :: ds => (digits? ds).map fun n => -(n : Int)
  | '+' :: ds => (digits? ds).map fun n => (n : Int)
  | ds => (digits? ds).map fun n => (n : Int)

/-- The integer of fixed width that a word writes. -/
def number? {α : Type} [FixedWidth α] (s : String) : Option α :=
  (integer? s).bind FixedWidth.ofInt?

/-- A text brought to a width with blanks in front. -/
def alignRight (width : Nat) (s : String) : String :=
  String.ofList (List.replicate (width - s.length) ' ' ++ s.toList)

end EventScript.Text
