import MachineProblems.Program.Adventure.Drawing

/-!
# What a room looks like

The picture of a room, pixel by pixel: the last object of the contents list that covers a place
with a pixel that is not transparent, else the photo.
-/

set_option autoImplicit false

namespace MachineProblems.Model

open MachineProblems.Program.Adventure MachineProblems.Program.PhotoFile

/-- At most `n` objects from a pointer on. -/
def walk (w : World) : ℕ → Option ObjId → List ObjId
  | 0, _ => []
  | _ + 1, none => []
  | n + 1, some o => o :: walk w n (w.object o).next

/-- The objects of a room, in the order of its contents list. -/
def contents (w : World) (r : RoomId) : List ObjId := walk w nObjects (w.room r).contents

/-- A pixel that is not transparent. -/
def visible (pixel : UInt8) : Option UInt8 := if objClrTransp ≠ pixel then some pixel else none

/-- The pixel with which an object covers the place `(x, y)`, if it does. -/
def objectPixel (obj : Object) (x y : ℤ) : Option UInt8 := do
  let img ← obj.img
  let imgx := x - obj.x.toNat
  let imgy := y - obj.y.toNat
  if 0 ≤ imgx ∧ imgx < img.width ∧ 0 ≤ imgy ∧ imgy < img.height then
    (imgAt img.img (imgy * img.width + imgx)).bind visible
  else none

/-- The pixel of a photo at `(x, y)`, if it reaches there. -/
def photoPixel (view : Photo) (x y : ℤ) : Option UInt8 :=
  if 0 ≤ x ∧ x < view.width ∧ 0 ≤ y ∧ y < view.height then imgAt view.img (view.width * y + x)
  else none

/-- The pixel of a room at the map coordinates `(x, y)`. -/
def refPixel (w : World) (r : RoomId) (x y : ℤ) : Option UInt8 :=
  ((contents w r).reverse.findSome? fun o => objectPixel (w.object o) x y).or
    ((w.room r).view.bind fun view => photoPixel view x y)

end MachineProblems.Model
