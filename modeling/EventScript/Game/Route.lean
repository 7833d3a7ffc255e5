import EventScript.Checked

/-!
# Move routes

A route is a list of steps that a character is forced to take. Events store it as plain numbers.

* `Route.decode` reads the stored numbers. An integer is stored in groups of seven bits, the
  highest group first, and every group but the last is marked. A text is stored as its length and
  one number per character.
* `Route.encode` writes the numbers that `decode` reads.
-/

namespace EventScript

/-- One step of a route: 0 to 3 go up, right, down and left, 12 to 15 turn there, 23 waits, 32 and
33 turn a switch on and off, 34 changes the sprite, 35 plays a sound. -/
structure RouteStep where
  code : Number
  text : String := ""
  a : Number := 0
  b : Number := 0
  c : Number := 0
  deriving DecidableEq

/-- Steps to take, once or over and over. -/
structure Route where
  commands : List RouteStep := []
  repeats : Bool := false
  skippable : Bool := false
  deriving DecidableEq

namespace Route

/-! ## Reading -/

/-- Reads the groups of an integer onto the groups before them. A missing end is forgiven. -/
def readGroups (value : UInt32) : List Number → UInt32 × List Number
  | [] => (value, [])
  | x :: r =>
    let value := (value <<< 7) ||| (x.toUInt32 &&& 0x7F)
    if x.toUInt32 &&& 0x80 = 0 then (value, r) else readGroups value r

/-- Reads an integer. -/
def readInt (s : List Number) : Number × List Number :=
  ((readGroups 0 s).1.toInt32, (readGroups 0 s).2)

/-- The character with a code, if there is one. -/
def character? (x : Number) : Option Char :=
  let n := x.toInt
  if 0 ≤ n ∧ (n < 0xD800 ∨ 0xDFFF < n) ∧ n < 0x110000 then some (Char.ofNat n.toNat) else none

/-- Reads a text. Numbers that are no characters are left out, and a missing end is forgiven. -/
def readText (s : List Number) : String × List Number :=
  let (length, r) := readInt s
  let length := length.toInt.toNat
  (String.ofList ((r.take length).filterMap character?), r.drop length)

/-- Reads the operands of a step and gives what they leave. -/
def readOperands (code : Number) (s : List Number) : RouteStep × List Number :=
  match code.toInt with
  | 32 | 33 =>
    let (a, r) := readInt s
    ({ code, a }, r)
  | 34 =>
    let (text, r) := readText s
    let (a, r) := readInt r
    ({ code, text, a }, r)
  | 35 =>
    let (text, r) := readText s
    let (a, r) := readInt r
    let (b, r) := readInt r
    let (c, r) := readInt r
    ({ code, text, a, b, c }, r)
  | _ => ({ code }, s)

theorem length_readGroups (value : UInt32) (s : List Number) :
    (readGroups value s).2.length ≤ s.length := by
  induction s generalizing value with
  | nil => simp [readGroups]
  | cons x r ih =>
    unfold readGroups
    dsimp only
    split
    · simp
    · exact Nat.le_trans (ih _) (by simp)

theorem length_readInt (s : List Number) : (readInt s).2.length ≤ s.length :=
  length_readGroups 0 s

theorem length_readText (s : List Number) : (readText s).2.length ≤ s.length := by
  have := length_readInt s
  simp only [readText, List.length_drop]
  omega

theorem length_readOperands (code : Number) (s : List Number) :
    (readOperands code s).2.length ≤ s.length := by
  unfold readOperands
  split
  · exact length_readInt s
  · exact length_readInt s
  · exact Nat.le_trans (length_readInt _) (length_readText s)
  · exact Nat.le_trans (length_readInt _) (Nat.le_trans (length_readInt _)
      (Nat.le_trans (length_readInt _) (length_readText s)))
  · exact Nat.le_refl _

/-- Reads steps to the end. -/
def readCommands : List Number → List RouteStep
  | [] => []
  | code :: r => (readOperands code r).1 :: readCommands (readOperands code r).2
termination_by s => s.length
decreasing_by
  have := length_readOperands code r
  simp only [List.length_cons]
  omega

/-- The route that is stored as a list of numbers. -/
def decode (s : List Number) (repeats skippable : Bool) : Route :=
  { commands := readCommands s, repeats, skippable }

/-! ## Writing -/

/-- The groups of seven bits of a number, the lowest one marked or not as told and all higher ones
marked; the bound on their number is at least one. -/
def groups : Nat → UInt32 → UInt32 → List Number
  | 0, _, _ => []
  | n + 1, value, mark =>
    let low := ((value &&& 0x7F) ||| mark).toInt32
    if value >>> 7 = 0 then [low] else groups n (value >>> 7) 0x80 ++ [low]

/-- The stored form of an integer: as few groups as it needs, five at most. -/
def writeInt (x : Number) : List Number := groups 5 x.toUInt32 0

/-- The stored form of a text. -/
def writeText (s : String) : List Number :=
  writeInt (Int32.ofNat s.length) ++ s.toList.map fun c => Int32.ofNat c.toNat

/-- The stored form of a step. -/
def writeCommand (m : RouteStep) : List Number :=
  m.code :: match m.code.toInt with
    | 32 | 33 => writeInt m.a
    | 34 => writeText m.text ++ writeInt m.a
    | 35 => writeText m.text ++ writeInt m.a ++ writeInt m.b ++ writeInt m.c
    | _ => []

def encode (r : Route) : List Number := r.commands.flatMap writeCommand

end Route

end EventScript
