import EventScript.IdMap

/-!
# The party

Who travels together, what they carry, and what is counted for them. Gold, the number of each item
and the size of the party are bounded.
-/

namespace EventScript

/-- A timer that counts down. -/
structure Timer where
  frames : Number := 0
  running : Bool := false
  visible : Bool := false
  battle : Bool := false
  deriving DecidableEq

/-- The whole seconds left on a timer. The number of ticks in a second is taken as a script
number, and a second without ticks counts as one tick. -/
def Timer.secondsLeft (t : Timer) (fps : UInt32) : Except Overflow Number :=
  Checked.div t.frames (max fps 1).toInt32

def Timer.tick (t : Timer) : Timer :=
  if t.running && 0 < t.frames then { t with frames := t.frames - 1 } else t

/-- The party with its belongings. -/
structure Party where
  members : List Number := []
  gold : Number := 0
  items : IdMap Number := ∅
  timers : Vector Timer 2 := Vector.replicate 2 {}
  steps : Number := 0
  saveCount : Number := 0
  battleCount : Number := 0
  victoryCount : Number := 0
  defeatCount : Number := 0
  escapeCount : Number := 0
  goldMax : Number
  itemMax : Number
  partyMax : Nat
  deriving DecidableEq

namespace Party

/-- Adds gold, between none and the maximum. -/
def giveGold (p : Party) (amount : Number) : Party :=
  { p with gold := Number.clampInt 0 p.goldMax (p.gold.toInt + amount.toInt) }

def held (p : Party) (id : Number) : Number := (p.items.get? id).getD 0

/-- Adds an item a number of times, between none and the maximum; an id that is not positive has
no item. -/
def giveItem (p : Party) (id amount : Number) : Except Overflow Party :=
  if id.toInt ≤ 0 then .ok p
  else do
    let count := Number.clamp 0 p.itemMax (← Checked.add (p.held id) amount)
    return { p with
      items := if count = 0 then p.items.erase id else p.items.insert id count }

/-- Whether an actor is in the party. -/
def contains (p : Party) (id : Number) : Bool := p.members.contains id

/-- Whether nobody else can join. -/
def isFull (p : Party) : Bool := p.partyMax ≤ p.members.length

/-- Takes an actor in, unless there is no room. -/
def join (p : Party) (id : Number) : Party :=
  if p.contains id || p.isFull then p else { p with members := p.members ++ [id] }

/-- Leaves an actor behind. -/
def leave (p : Party) (id : Number) : Party :=
  { p with members := p.members.filter (· ≠ id) }

/-- A timer; one that does not exist stands still at zero. -/
def timer (p : Party) (i : Nat) : Timer := p.timers[i]?.getD {}

def countDown (p : Party) : Party := { p with timers := p.timers.map Timer.tick }

end Party

end EventScript
