import MachineProblems.Program.Adventure.Game

/-!
# Random placement in machine words

`insert_object` of `mp2/world.c` once more, with the intervals as the code computes them: the
sizes of the photo and of the image are unsigned, their differences are stored into signed
variables, and a remainder by zero faults.
-/

set_option autoImplicit false

namespace MachineProblems.Program.Adventure

open MachineProblems.Program.PhotoFile

/-- `rand () % range`, and the state after it. -/
def randRemainder (w : World) (range : ℤ) : Option (ℤ × World) :=
  if range = 0 then none else some ((w.rands 0 : ℤ).tmod range, w.nextRand)

/-- `(0 >= range ? 0 : rand () % range)`, and the state after it. -/
def randomBelowIn (w : World) (range : ℤ) : Option (ℤ × World) :=
  if 0 ≥ range then some (0, w) else randRemainder w range

/-- The choice of `xpos` in `insert_object`. -/
def chooseX (w : World) (view : Photo) (img : Image) : Option (ℤ × World) :=
  let range := asInt (asUnsigned (view.width - img.width))
  randomBelowIn w range

/-- The choice of `ypos` in `insert_object`. -/
def chooseY (w : World) (view : Photo) (img : Image) : Option (ℤ × World) :=
  let space := asInt view.height
  let imgHt := asInt img.height
  let range := space.tdiv 4 - imgHt
  if 0 ≥ range then
    let range := space - imgHt
    randomBelowIn w range
  else
    if 0 ≥ range then some (0, w)
    else (randRemainder w range).map fun (offset, w) => (offset + (3 * space).tdiv 4, w)

/-- `insert_object`. -/
def insertObjectIn (w : World) (o : ObjId) (r : RoomId) : Option World := do
  let view ← (w.room r).view
  let img ← (w.object o).img
  let (xpos, w) ← chooseX w view img
  let (ypos, w) ← chooseY w view img
  insertObjectAt w o r xpos ypos

end MachineProblems.Program.Adventure
