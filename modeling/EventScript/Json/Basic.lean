/-!
# Documents

A document is a tree of values. Objects keep their members in the order in which they stand.

`unreadable` stands for what has no use in this library: a number written with a fraction or an
exponent, the number `-0`, a text that holds half of a surrogate pair, an object with such a text
as a key. It may stand wherever a value is ignored, and no reader accepts it.
-/

namespace EventScript

/-- A document value. -/
inductive Json
  | null
  | bool (b : Bool)
  | int (z : Int)
  | text (s : String)
  | arr (items : List Json)
  | obj (members : List (String × Json))
  | unreadable
  deriving Inhabited

namespace Json

mutual

/-- Equality of values. -/
def beq : Json → Json → Bool
  | null, null => true
  | bool a, bool b => a == b
  | int a, int b => a == b
  | text a, text b => a == b
  | arr a, arr b => beqItems a b
  | obj a, obj b => beqMembers a b
  | unreadable, unreadable => true
  | _, _ => false

def beqItems : List Json → List Json → Bool
  | [], [] => true
  | a :: as, b :: bs => beq a b && beqItems as bs
  | _, _ => false

/-- Equality of the members of two objects, in order. -/
def beqMembers : List (String × Json) → List (String × Json) → Bool
  | [], [] => true
  | (j, a) :: as, (k, b) :: bs => j == k && beq a b && beqMembers as bs
  | _, _ => false

end

instance : BEq Json := ⟨beq⟩

/-- The first member of an object under a key. -/
def member? : Json → String → Option Json
  | obj ms, key => ms.lookup key
  | _, _ => none

end Json

end EventScript
