import MachineProblems.Program.Adventure.Commands
import MachineProblems.Program.Adventure.Drawing

/-!
# The event loop of the adventure game

`mp2/adventure.c`: scrolling, typed commands and `game_loop`, without the threads, the palette,
the status bar and the clock, none of which touches the build buffer or the photo's part of the
video memory.  The command that `get_command` returns, with the text typed so far, is the input
of a round.
-/

set_option autoImplicit false

namespace MachineProblems.Program.Adventure

open MachineProblems.Library

/-! ## State -/

/-- An `int` stored into an `unsigned int`. -/
def asUnsigned (n : ℤ) : ℕ := (n % 2 ^ 32).toNat

/-- An `unsigned int` stored into an `int`. -/
def asInt (n : ℕ) : ℤ := Int.bmod n (2 ^ 32)

/-- `MOTION_SPEED`. -/
def motionSpeed : ℤ := 2

/-- `game_condition_t`. -/
inductive GameCondition where
  | gameWon
  | gameQuit
  deriving DecidableEq

/-- `game_info`, `enter_room`, `cur_room`, the world and the screen; `condition` is what
`game_loop` has returned. -/
structure Game where
  place : Option RoomId
  mapX : ℕ
  mapY : ℕ
  xSpeed : ℤ
  ySpeed : ℤ
  enterRoom : Bool
  curRoom : Option RoomId
  world : World
  screen : Screen
  condition : Option GameCondition

/-- `init_game` in a world, and the start of `game_loop`. -/
def startGame (w : World) (start : RoomId) (screen : Screen) : Game where
  place := some start
  mapX := 0
  mapY := 0
  xSpeed := motionSpeed
  ySpeed := motionSpeed
  enterRoom := true
  curRoom := none
  world := w
  screen := screen
  condition := none

/-! ## Drawing -/

section Draw

variable (g : Game)

/-- `fill_horiz_buffer` for the current room. -/
def horizLine : LineFn := fun x y buf => do
  let curRoom ← g.curRoom
  fillHorizBuffer g.world curRoom x y buf

/-- `fill_vert_buffer` for the current room. -/
def vertLine : LineFn := fun x y buf => do
  let curRoom ← g.curRoom
  fillVertBuffer g.world curRoom x y buf

/-- The lines that a loop draws, `line i` in round `i`. -/
def drawLines (draw : Screen → ℤ → Option (Screen × ℤ)) (line : ℕ → ℤ) (count : ℕ)
    (s : Screen) : Option Screen :=
  attempts (fun i s => (draw s (line i)).map Prod.fst) count s

/-- `redraw_room`. -/
def redrawRoom : Option Game := do
  let screen ← drawLines (drawHorizLine (horizLine g)) (fun i => i) scrollYDim g.screen
  some { g with screen := screen }

/-- `prep_room`, whose palette comes from the photo of the room. -/
def prepRoom : Option Game := do
  let r ← g.place
  let _ ← (g.world.room r).view
  some { g with curRoom := some r }

/-- `set_view_window (game_info.map_x, game_info.map_y)`. -/
def viewWindow : Option Game := do
  let screen ← setViewWindow g.screen (asInt g.mapX) (asInt g.mapY)
  some { g with screen := screen }

/-- `room_photo_width (game_info.where)` and `room_photo_height`, by the side asked for. -/
def roomPhoto (side : PhotoFile.Photo → ℕ) : Option ℕ := do
  let r ← g.place
  let view ← (g.world.room r).view
  some (side view)

end Draw

/-! ## Scrolling -/

section Scroll

variable (g : Game)

/-- How far the window moves towards the origin: all `unsigned` until stored into `delta`. -/
def deltaBack (speed : ℤ) (pos : ℕ) : ℤ :=
  asInt (if asUnsigned speed > pos then pos else asUnsigned speed)

/-- How far the window moves away from the origin. -/
def deltaForth (speed : ℤ) (side dim pos : ℕ) : ℤ :=
  let delta := asInt (asUnsigned ((side : ℤ) - dim - pos))
  if speed > delta then delta else speed

/-- `move_photo_down`. -/
def movePhotoDown : Option Game := do
  let delta := deltaBack g.ySpeed g.mapY
  let g ← viewWindow { g with mapY := asUnsigned (g.mapY - delta) }
  let screen ← drawLines (drawHorizLine (horizLine g)) (fun i => i) delta.toNat g.screen
  some { g with screen := screen }

/-- `move_photo_left`. -/
def movePhotoLeft : Option Game := do
  let width ← roomPhoto g PhotoFile.Photo.width
  let delta := deltaForth g.xSpeed width scrollXDim g.mapX
  let g ← viewWindow { g with mapX := asUnsigned (g.mapX + delta) }
  let screen ← drawLines (drawVertLine (vertLine g)) (fun i => scrollXDim - (i + 1)) delta.toNat
    g.screen
  some { g with screen := screen }

/-- `move_photo_right`. -/
def movePhotoRight : Option Game := do
  let delta := deltaBack g.xSpeed g.mapX
  let g ← viewWindow { g with mapX := asUnsigned (g.mapX - delta) }
  let screen ← drawLines (drawVertLine (vertLine g)) (fun i => i) delta.toNat g.screen
  some { g with screen := screen }

/-- `move_photo_up`. -/
def movePhotoUp : Option Game := do
  let height ← roomPhoto g PhotoFile.Photo.height
  let delta := deltaForth g.ySpeed height scrollYDim g.mapY
  let g ← viewWindow { g with mapY := asUnsigned (g.mapY + delta) }
  let screen ← drawLines (drawHorizLine (horizLine g)) (fun i => scrollYDim - (i + 1))
    delta.toNat g.screen
  some { g with screen := screen }

end Scroll

/-! ## Commands -/

/-- `typed_cmd_t`. -/
structure TypedCmd where
  name : String
  minLen : ℕ
  cmd : CmdId

/-- `cmd_list`. -/
def cmdList : List TypedCmd := [
  ⟨"buy", 3, .buy⟩,
  ⟨"charge", 2, .charge⟩,
  ⟨"do", 2, .doIt⟩,
  ⟨"drink", 3, .drink⟩,
  ⟨"drop", 2, .drop⟩,
  ⟨"fix", 3, .fix⟩,
  ⟨"flash", 5, .flash⟩,
  ⟨"get", 1, .get⟩,
  ⟨"go", 2, .go⟩,
  ⟨"grab", 2, .get⟩,
  ⟨"install", 3, .install⟩,
  ⟨"inventory", 1, .inventory⟩,
  ⟨"sigh", 4, .sigh⟩,
  ⟨"use", 3, .use⟩,
  ⟨"wear", 4, .wear⟩]

/-- Whether `strncasecmp (a, b, n)` returns zero. -/
def strncasecmp (a : String) (b : Text) (n : ℕ) : Bool :=
  (a.toList.take n).map Char.toLower == (b.take n).map Char.toLower

/-- A call of one of the functions of `world.c` with `&game_info.where`. -/
def callWorld (g : Game) (call : Call) : Option (Game × TcAction) := do
  let r ← g.place
  let out ← perform call g.world r
  some ({ g with world := out.world, place := out.rptr }, out.action)

/-- What `handle_typing` does to the speeds after a command. -/
def adjustSpeeds (cmd : CmdId) (g : Game) : Game :=
  match cmd with
  | .drop =>
      { g with
        xSpeed := if playerHasBoard g.world then g.xSpeed else motionSpeed
        ySpeed := if playerHasJetpack g.world then g.ySpeed else motionSpeed }
  | .get =>
      { g with
        xSpeed := if playerHasBoard g.world then motionSpeed * 3 else g.xSpeed
        ySpeed := if playerHasJetpack g.world then motionSpeed * 3 else g.ySpeed }
  | _ => g

/-- The command found in `handle_typing` is executed, and its result handled. -/
def executeTyped (g : Game) (cmd : CmdId) (arg : Text) : Option (Game × Bool) := do
  let (g, result) ← callWorld g (.typed cmd arg)
  let g := adjustSpeeds cmd g
  match result with
  | .changeRoom => some (g, true)
  | .redrawRoom => do
      let g ← redrawRoom g
      some (g, false)
  | _ => some (g, false)

/-- `handle_typing`, for the text typed: whether the player's room changes. -/
def handleTyping (g : Game) (text : Text) : Option (Game × Bool) :=
  let cmd := text.dropWhile (· = ' ')
  if cmd = [] then some (g, false)
  else
    let verb := cmd.takeWhile (· ≠ ' ')
    let arg := (cmd.drop verb.length).dropWhile (· = ' ')
    match cmdList.find? fun c =>
        decide (c.minLen ≤ verb.length) && strncasecmp c.name cmd verb.length with
    | none =>
        some ({ g with world := showStatus g.world "What are you babbling about?" }, false)
    | some c => executeTyped g c.cmd arg

/-- `cmd_t`, with the text typed. -/
inductive Cmd where
  | none
  | up
  | right
  | down
  | left
  | moveLeft
  | enter
  | moveRight
  | typed (text : Text)
  | quit

/-- A move function: the player has entered a room if it says so. -/
def moveRoom (g : Game) (call : Call) : Option Game := do
  let (g, result) ← callWorld g call
  some { g with enterRoom := result = .changeRoom }

/-- The `switch (cmd)` of `game_loop`. -/
def command (g : Game) (cmd : Cmd) : Option Game :=
  match cmd with
  | .up => movePhotoDown g
  | .right => movePhotoLeft g
  | .down => movePhotoUp g
  | .left => movePhotoRight g
  | .moveLeft => moveRoom g .moveLeft
  | .enter => moveRoom g .enter
  | .moveRight => moveRoom g .moveRight
  | .typed text => do
      let (g, entered) ← handleTyping g text
      some { g with enterRoom := entered || g.enterRoom }
  | .quit => some { g with condition := some .gameQuit }
  | .none => some g

/-! ## The loop -/

/-- The start of a round: a room that was just entered is drawn, and the screen is shown. -/
def frame (g : Game) : Option Game := do
  let g ← (if g.enterRoom then do
      let g ← viewWindow { g with mapX := 0, mapY := 0 }
      let g ← prepRoom g
      let g ← redrawRoom g
      some { g with enterRoom := false }
    else some g)
  some { g with screen := showScreen g.screen }

/-- One round of `game_loop`; once it has returned nothing happens. -/
def gameRound (g : Game) (cmd : Cmd) : Option Game :=
  if g.condition ≠ none then some g
  else do
    let g ← frame g
    let g ← command g cmd
    if g.condition = none ∧ g.place = none then some { g with condition := some .gameWon }
    else some g

end MachineProblems.Program.Adventure
