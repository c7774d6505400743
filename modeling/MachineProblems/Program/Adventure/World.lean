import MachineProblems.Program.Adventure.WorldData
import MachineProblems.Program.PhotoFile
import Mathlib.Logic.Function.Basic

/-!
# The world of the adventure game

`mp2/world.c`: the rooms, the objects linked into their contents lists, and what moves them.
A pointer to a room or an object is its identifier, the null pointer is `none`; a function
that dereferences the null pointer, or walks a list that does not end, faults with `none`.
The results of `rand ()` are a stream in the state.
-/

set_option autoImplicit false

namespace MachineProblems.Program.Adventure

open MachineProblems.Program.PhotoFile

/-! ## Strings -/

/-- A C string without its terminator. -/
abbrev Text := List Char

/-- Whether `strcasecmp (a, b)` returns zero. -/
def strcasecmp (a : String) (b : Text) : Bool :=
  a.toList.map Char.toLower == b.map Char.toLower

/-! ## The state -/

/-- `room_t`. -/
structure Room where
  name : Option String
  view : Option Photo
  contents : Option ObjId
  left : Option RoomId
  enter : Option RoomId
  right : Option RoomId

/-- `object_t`. -/
structure Object where
  name : Option String
  next : Option ObjId
  loc : Option RoomId
  x : UInt16
  y : UInt16
  img : Option Image

/-- The file-scope variables of `world.c`, the status message, and what `rand ()` will return. -/
structure World where
  room : RoomId → Room
  object : ObjId → Object
  playerFlags : BitVec 32
  swapPhoto : Swap → Option Photo
  statusMsg : Text
  rands : ℕ → ℕ

namespace World

variable (w : World)

def setRoom (r : RoomId) (room : Room) : World :=
  { w with room := Function.update w.room r room }

def setObject (o : ObjId) (object : Object) : World :=
  { w with object := Function.update w.object o object }

/-- `rand () % range`, for the first result to come. -/
def randMod (range : ℕ) : ℕ := w.rands 0 % range

/-- The state after one call of `rand ()`. -/
def nextRand : World := { w with rands := fun i => w.rands (i + 1) }

end World

/-- `STATUS_MSG_LEN`. -/
abbrev statusMsgLen : ℕ := 40

/-- `show_status`. -/
def showStatus (w : World) (s : String) : World :=
  { w with statusMsg := s.toList.take statusMsgLen }

/-! ## Flags -/

/-- The number of a flag. -/
def fnum : Flag → ℕ
  | .hasEaten => 0
  | .wearingSuit => 1
  | .carOpen => 2
  | .carFixed => 3
  | .luredTux => 4

/-- `player_flag_is_set`. -/
def playerFlagIsSet (w : World) (f : Flag) : Bool :=
  w.playerFlags &&& (1#32 <<< fnum f) != 0

/-- `player_set_flag`. -/
def playerSetFlag (w : World) (f : Flag) : World :=
  { w with playerFlags := w.playerFlags ||| (1#32 <<< fnum f) }

/-! ## Walking and changing the contents lists -/

/-- The steps a walk may take: a list that is longer than the number of objects is a cycle,
and a walk along it does not end. -/
abbrev walkFuel : ℕ := nObjects + 1

/-- `do_photo_swap`. -/
def doPhotoSwap (w : World) (r : RoomId) (which : Swap) : World :=
  { w.setRoom r { w.room r with view := w.swapPhoto which } with
    swapPhoto := Function.update w.swapPhoto which (w.room r).view }

/-- The loop of `find_in_room` at `obj`. -/
def findLoop (w : World) (arg : Text) : ℕ → Option ObjId → Option (Option ObjId)
  | 0, _ => none
  | _ + 1, none => some none
  | n + 1, some obj => do
      let name ← (w.object obj).name
      if strcasecmp name arg then some (some obj) else findLoop w arg n (w.object obj).next

/-- `find_in_room`: the object, or the null pointer. -/
def findInRoom (w : World) (r : RoomId) (arg : Text) : Option (Option ObjId) :=
  findLoop w arg walkFuel (w.room r).contents

/-- Where a pointer to an object is stored: `&r->contents` or `&o->next`. -/
inductive Slot where
  | contents (r : RoomId)
  | next (o : ObjId)

/-- `*find`. -/
def World.load (w : World) : Slot → Option ObjId
  | .contents r => (w.room r).contents
  | .next o => (w.object o).next

/-- `*find = p`. -/
def World.store (w : World) (p : Option ObjId) : Slot → World
  | .contents r => w.setRoom r { w.room r with contents := p }
  | .next o => w.setObject o { w.object o with next := p }

/-- The loop of `remove_object` at `find`. -/
def removeLoop (w : World) (o : ObjId) : ℕ → Slot → Option World
  | 0, _ => none
  | n + 1, find =>
      match w.load find with
      | none => some w
      | some p =>
          if o = p then some (w.store (w.object o).next find) else removeLoop w o n (.next p)

/-- `remove_object`. -/
def removeObject (w : World) (o : ObjId) : Option World :=
  match (w.object o).loc with
  | none => some w
  | some r => do
      let w ← removeLoop w o walkFuel (.contents r)
      some (w.setObject o { w.object o with loc := none })

/-- `insert_object_at`. -/
def insertObjectAt (w : World) (o : ObjId) (r : RoomId) (x y : ℤ) : Option World := do
  let w ← removeObject w o
  let w := w.setObject o { w.object o with
    x := UInt16.ofInt x
    y := UInt16.ofInt y
    loc := some r
    next := (w.room r).contents }
  some (w.setRoom r { w.room r with contents := some o })

/-- `(0 >= range ? 0 : rand () % range)`, and the state after it. -/
def randomBelow (w : World) (range : ℤ) : ℤ × World :=
  if 0 ≥ range then (0, w) else (w.randMod range.toNat, w.nextRand)

/-- `insert_object`. -/
def insertObject (w : World) (o : ObjId) (r : RoomId) : Option World := do
  let view ← (w.room r).view
  let img ← (w.object o).img
  let (xpos, w) := randomBelow w (view.width - img.width)
  let space : ℤ := view.height
  let imgHt : ℤ := img.height
  let range := space / 4 - imgHt
  if 0 ≥ range then
    let (ypos, w) := randomBelow w (space - imgHt)
    insertObjectAt w o r xpos ypos
  else
    let (ypos, w) := randomBelow w range
    insertObjectAt w o r xpos (ypos + 3 * space / 4)

/-- The inner loop of `move_object_to_inventory` at `conf`: whether an object sits at `(x, y)`. -/
def conflictLoop (w : World) (x y : ℕ) : ℕ → Option ObjId → Option Bool
  | 0, _ => none
  | _ + 1, none => some false
  | n + 1, some conf =>
      if x = (w.object conf).x.toNat ∧ y = (w.object conf).y.toNat then some true
      else conflictLoop w x y n (w.object conf).next

/-- The positions that the outer loops of `move_object_to_inventory` pass, in order. -/
def grid : List (ℕ × ℕ) :=
  [10, 60, 110, 160].flatMap fun y => [10, 110, 210].map fun x => (x, y)

/-- The outer loops of `move_object_to_inventory`. -/
def gridLoop (w : World) (obj : ObjId) : List (ℕ × ℕ) → Option World
  | [] => insertObject w obj .inventory
  | (x, y) :: rest => do
      let conflict ← conflictLoop w x y walkFuel (w.room .inventory).contents
      if conflict then gridLoop w obj rest else insertObjectAt w obj .inventory x y

/-- `move_object_to_inventory`. -/
def moveObjectToInventory (w : World) (obj : ObjId) : Option World := gridLoop w obj grid

/-- `obj_special_get`: the object to be gotten, or the null pointer. -/
def objSpecialGet (w : World) (r : RoomId) (arg : Text) : Option (World × Option ObjId) :=
  let pickUpBattery : Option (World × Option ObjId) :=
    if r = .carSite ∧ (w.object .battCar).loc = some r then do
      let w ← removeObject w .battCar
      some (w, some .battEmpty)
    else some (w, none)
  if r = .reserve ∧ strcasecmp "book" arg then
    if playerFlagIsSet w .hasEaten then
      if (w.object .bookC).loc = none then
        some (showStatus w "You check out the C book.", some .bookC)
      else pickUpBattery
    else
      if (w.object .bookWode).loc = none then
        some (showStatus w "Here's a nice Wodehouse collection.", some .bookWode)
      else pickUpBattery
  else pickUpBattery

/-! ## Building the world -/

/-- What `read_photo` and `read_obj_image` make of the files. -/
structure Disk where
  readPhoto : String → Option Photo
  readObjImage : String → Option Image

/-- All zero, as the `memset` calls leave it. -/
def clearedWorld (rands : ℕ → ℕ) : World where
  room := fun _ => ⟨none, none, none, none, none, none⟩
  object := fun _ => ⟨none, none, none, 0, 0, none⟩
  playerFlags := 0
  swapPhoto := fun _ => none
  statusMsg := []
  rands := rands

/-- One round of the loop over the room data. -/
def buildRoom (disk : Disk) (w : World) (data : RoomData) : Option World :=
  if (w.room data.id).name ≠ none then none
  else do
    let view ← disk.readPhoto data.filename
    some (w.setRoom data.id ⟨data.name, view, none, data.left, data.enter, data.right⟩)

/-- One round of the loop over the object data. -/
def buildObject (disk : Disk) (w : World) (data : ObjData) : Option World :=
  if (w.object data.id).name ≠ none then none
  else do
    let img ← disk.readObjImage data.filename
    let w := w.setObject data.id ⟨data.name, none, none, 0, 0, img⟩
    match data.room with
    | none => some w
    | some r =>
        if data.x ≠ -1 then insertObjectAt w data.id r data.x data.y
        else insertObject w data.id r

/-- One round of the loop over the swap photo data. -/
def buildSwap (disk : Disk) (w : World) (data : Swap × String) : Option World :=
  if (w.swapPhoto data.1).isSome then none
  else do
    let photo ← disk.readPhoto data.2
    some { w with swapPhoto := Function.update w.swapPhoto data.1 (some photo) }

/-- `build_world`: the world, or `none` for failure. -/
def buildWorld (disk : Disk) (rands : ℕ → ℕ) : Option World := do
  let w ← roomData.foldlM (buildRoom disk) (clearedWorld rands)
  let w ← objData.foldlM (buildObject disk) w
  swapData.foldlM (buildSwap disk) w

/-- `start_in_room`. -/
def startInRoom : RoomId := .eastEvrt

/-- `player_has_board`. -/
def playerHasBoard (w : World) : Bool := (w.object .board).loc == some .inventory

/-- `player_has_jetpack`. -/
def playerHasJetpack (w : World) : Bool := (w.object .jetpack).loc == some .inventory

end MachineProblems.Program.Adventure
