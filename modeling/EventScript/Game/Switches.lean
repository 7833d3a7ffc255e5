import EventScript.Game.Cells

/-!
# Switches

Every positive id has a switch, and all switches are off at first. An id that is not positive has
none: it reads as off, and writing it changes nothing.

* `Switches.get_set`: a write changes the switch it names and no other.
* `Switches.get_setBetween` and `Switches.get_toggleBetween`: a write to a range, which goes from
  switch to switch, changes the switches of the range and no other.
-/

namespace EventScript

structure Switches where
  cells : Cells false := {}
  deriving DecidableEq

namespace Switches

def get (s : Switches) (id : Number) : Bool := s.cells.get id

/-- Turns a switch on or off. -/
def set (s : Switches) (id : Number) (value : Bool) : Switches := ⟨s.cells.write id value⟩

/-- Turns a switch over. -/
def toggle (s : Switches) (id : Number) : Switches := s.set id (!s.get id)

/-- Turns the switches from `first` to `last` on or off. -/
def setBetween (s : Switches) (first last : Number) (value : Bool) : Switches :=
  (idsBetween first last).foldl (fun s id => s.set id value) s

/-- Turns the switches from `first` to `last` over. -/
def toggleBetween (s : Switches) (first last : Number) : Switches :=
  (idsBetween first last).foldl toggle s

theorem get_set (s : Switches) (id j : Number) (value : Bool) :
    (s.set id value).get j = if j = id ∧ 0 < id.toInt then value else s.get j :=
  s.cells.get_write id j value

theorem get_toggle (s : Switches) (id j : Number) :
    (s.toggle id).get j = if j = id ∧ 0 < id.toInt then !s.get j else s.get j := by
  rw [toggle, get_set]
  split
  · next h => rw [h.1]
  · rfl

theorem get_setBetween (s : Switches) (first last j : Number) (value : Bool) :
    (s.setBetween first last value).get j =
      if (first ≤ j ∧ j ≤ last) ∧ 0 < j.toInt then value else s.get j :=
  get_foldl_idsBetween (fun _ => value) (fun _ => True) (fun _ _ => id)
    (fun s id j _ => s.get_set id j value) first last j trivial

theorem get_toggleBetween (s : Switches) (first last j : Number) :
    (s.toggleBetween first last).get j =
      if (first ≤ j ∧ j ≤ last) ∧ 0 < j.toInt then !s.get j else s.get j :=
  get_foldl_idsBetween (!·) (fun _ => True) (fun _ _ => id) (fun s id j _ => s.get_toggle id j)
    first last j trivial

end Switches

end EventScript
