import MachineProblems.Program.Adventure.WorldData

/-!
# The repair of the car

The battery of the car is one thing, for which three objects stand in turn, and the car is
shut, open, or fixed.  The repair goes through its stages one after the other.
-/

set_option autoImplicit false

namespace MachineProblems.Model

open MachineProblems.Program.Adventure

/-- What has become of the battery. -/
inductive Battery where
  | inCar
  | empty
  | full
  deriving DecidableEq

/-- The object that stands for it. -/
def Battery.obj : Battery → ObjId
  | .inCar => .battCar
  | .empty => .battEmpty
  | .full => .battFull

inductive Stage where
  | shut
  | opened (b : Battery)
  | fixed
  deriving DecidableEq

namespace Stage

/-- The car was opened. -/
def isOpen : Stage → Bool
  | .shut => false
  | .opened _ => true
  | .fixed => true

def isFixed (s : Stage) : Bool := s = .fixed

/-- The battery is somewhere, in this form. -/
def holds (s : Stage) (b : Battery) : Bool := s = .opened b

/-- One step of the repair, or none. -/
inductive Next : Stage → Stage → Prop
  | stay (s : Stage) : Next s s
  | openHood : Next .shut (.opened .inCar)
  | unplug : Next (.opened .inCar) (.opened .empty)
  | charge : Next (.opened .empty) (.opened .full)
  | install : Next (.opened .full) .fixed

/-- **A form of the battery is there** exactly while the car is open and not fixed. -/
theorem exists_holds_iff (s : Stage) : (∃ b, s.holds b) ↔ s.isOpen ∧ ¬ s.isFixed := by
  cases s with
  | shut => simp [holds, isOpen]
  | opened b => simp [holds, isOpen, isFixed]
  | fixed => simp [holds, isOpen, isFixed]

theorem isOpen_of_isFixed {s : Stage} (h : s.isFixed) : s.isOpen := by
  obtain rfl : s = .fixed := of_decide_eq_true h
  rfl

end Stage

end MachineProblems.Model
