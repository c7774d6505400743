import MachineProblems.Program.Adventure.ModeX
import MachineProblems.Program.Adventure.World

/-!
# Drawing a line of a room

`fill_horiz_buffer` and `fill_vert_buffer` of `mp2/photo.c`: the photo of the room along a line,
and over it the objects of the room in the order of the contents list.  The two functions differ
in the direction of the line; a read outside of an image block faults.
-/

set_option autoImplicit false

namespace MachineProblems.Program.Adventure

open MachineProblems.Library MachineProblems.Program.PhotoFile

/-- `OBJ_CLR_TRANSP`. -/
def objClrTransp : UInt8 := 0x40

/-- `img[i]`. -/
def imgAt {n : ℕ} (img : Vector UInt8 n) (i : ℤ) : Option UInt8 :=
  if 0 ≤ i then img[i.toNat]? else none

/-- What differs between the two functions: how far the line runs, which coordinate of photos
and objects runs along it and which stays, and where the pixel at `(along, across)` is stored. -/
structure Direction where
  dim : ℕ
  photoLength : Photo → ℕ
  photoIndex : Photo → ℤ → ℤ → ℤ
  objAlong : Object → UInt16
  objAcross : Object → UInt16
  imgLength : Image → ℕ
  imgBreadth : Image → ℕ
  imgIndex : Image → ℤ → ℤ → ℤ

/-- The direction of `fill_horiz_buffer`. -/
def horiz : Direction where
  dim := scrollXDim
  photoLength := Photo.width
  photoIndex := fun view x y => view.width * y + x
  objAlong := Object.x
  objAcross := Object.y
  imgLength := Image.width
  imgBreadth := Image.height
  imgIndex := fun img imgx imgy => imgy * img.width + imgx

/-- The direction of `fill_vert_buffer`. -/
def vert : Direction where
  dim := scrollYDim
  photoLength := Photo.height
  photoIndex := fun view y x => view.width * y + x
  objAlong := Object.y
  objAcross := Object.x
  imgLength := Image.height
  imgBreadth := Image.width
  imgIndex := fun img imgy imgx => imgx + img.width * imgy

section Fill

variable (d : Direction) (w : World)

/-- The loop over the pixels in the line. -/
def fillPhoto (view : Photo) (along across : ℤ) (buf : ℕ → UInt8) : Option (ℕ → UInt8) :=
  attempts (fun idx buf => do
      let pixel ← (if 0 ≤ along + idx ∧ d.photoLength view > along + idx then
          imgAt view.img (d.photoIndex view (along + idx) across)
        else some 0)
      some (Function.update buf idx pixel))
    d.dim buf

/-- The body of the loop over the objects. -/
def fillObject (along across : ℤ) (obj : Object) (buf : ℕ → UInt8) : Option (ℕ → UInt8) := do
  let img ← obj.img
  let objAlong : ℤ := (d.objAlong obj).toNat
  let objAcross : ℤ := (d.objAcross obj).toNat
  if across < objAcross ∨ across ≥ objAcross + d.imgBreadth img ∨
      along + d.dim ≤ objAlong ∨ along ≥ objAlong + d.imgLength img then
    some buf
  else
    let off := across - objAcross
    let idx := if along ≤ objAlong then objAlong - along else 0
    let imgAlong := if along ≤ objAlong then 0 else along - objAlong
    -- both counters go up by one until the line or the image ends
    attempts (fun k buf => do
        let pixel ← imgAt img.img (d.imgIndex img (imgAlong + k) off)
        some (if objClrTransp ≠ pixel then Function.update buf (idx.toNat + k) pixel else buf))
      (min (d.dim - idx) (d.imgLength img - imgAlong)).toNat buf

/-- The loop over the objects at `obj`. -/
def fillObjects (along across : ℤ) :
    ℕ → Option ObjId → (ℕ → UInt8) → Option (ℕ → UInt8)
  | 0, _, _ => none
  | _ + 1, none, buf => some buf
  | n + 1, some obj, buf => do
      let buf ← fillObject d along across (w.object obj) buf
      fillObjects along across n (w.object obj).next buf

/-- Both functions, by direction. -/
def fillBuffer (curRoom : RoomId) (along across : ℤ) (buf : ℕ → UInt8) :
    Option (ℕ → UInt8) := do
  let view ← (w.room curRoom).view
  let buf ← fillPhoto d view along across buf
  fillObjects d w along across walkFuel (w.room curRoom).contents buf

end Fill

/-- `fill_horiz_buffer`. -/
def fillHorizBuffer (w : World) (curRoom : RoomId) (x y : ℤ) (buf : ℕ → UInt8) :
    Option (ℕ → UInt8) :=
  fillBuffer horiz w curRoom x y buf

/-- `fill_vert_buffer`. -/
def fillVertBuffer (w : World) (curRoom : RoomId) (x y : ℤ) (buf : ℕ → UInt8) :
    Option (ℕ → UInt8) :=
  fillBuffer vert w curRoom y x buf

end MachineProblems.Program.Adventure
