import MachineProblems.Program.Adventure.Game
import MachineProblems.Program.Adventure.Vga

/-!
# The game and its card

What the rounds of `game_loop` in `mp2/adventure.c` send to the graphics card: the palette of a
room that was just entered, the frame, and the local `buffer` as `text_to_graphics` has left it.
-/

set_option autoImplicit false

namespace MachineProblems.Program.Adventure

open MachineProblems.Library MachineProblems.Program.PhotoFile MachineProblems.Program.Quantizer

/-- The game and the card. -/
structure Console where
  game : Game
  card : Vga

/-- `set_mode_X` and the start of `game_loop`. -/
def startConsole (w : World) (start : RoomId) (build : ℤ → UInt8) (card : Vga) : Console where
  game := startGame w start (setModeX build (drive setModeXVga card).mem)
  card := drive setModeXVga card

section Frame

variable (unwritten : Photo → Fin 192 → Rgb) (g : Game)

/-- The start of a round, up to `show_screen`. -/
def drawRoom : Option Game :=
  if g.enterRoom then do
    let g ← viewWindow { g with mapX := 0, mapY := 0 }
    let g ← prepRoom g
    let g ← redrawRoom g
    some { g with enterRoom := false }
  else some g

/-- What `prep_room` sends at the start of a round. -/
def enterVga : Option (List Access) :=
  if g.enterRoom then do
    let r ← g.place
    let view ← (g.world.room r).view
    some (prepPalette view (unwritten view))
  else some []

/-- All that a round sends. -/
def frameVga (buffer : ℤ → UInt8) : Option (List Access) := do
  let palette ← enterVga unwritten g
  let drawn ← drawRoom g
  some (palette ++ showScreenVga drawn.screen ++ printStatusBar buffer)

end Frame

/-- One round of `game_loop` with the card. -/
def consoleRound (unwritten : Photo → Fin 192 → Rgb) (c : Console)
    (input : Cmd × (ℤ → UInt8)) : Option Console :=
  if c.game.condition ≠ none then some c
  else do
    let accesses ← frameVga unwritten c.game input.2
    let game ← gameRound c.game input.1
    some ⟨game, drive accesses c.card⟩

end MachineProblems.Program.Adventure
