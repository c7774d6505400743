import MachineProblems.Program.MissileCommand
import MachineProblems.Program.Mp1.Ioctl

/-!
# The game over the driver

The loop of `main` and the handler of `SIGUSR1` in `mp1/missile-command.c`, with the driver under
them.  The tasklet may run between any two steps of the game.  Where it notifies the game, the
signal is pending until its handler interrupts `main`, and is blocked while the handler runs; so the
tasklet may also run between the `ioctl` of the handler and its assignments.
-/

set_option autoImplicit false

namespace MachineProblems.Program.MissileGame

open MachineProblems.Program.Mp1 MachineProblems.Program.MissileCommand

/-- Where `main` is: at the head of its loop, in front of its calls of `ioctl`, which are those of
`update_crosshairs` or that of an injection, or behind the loop. -/
inductive MainAt where
  | head
  | calls (todo : List IoctlCall) (injected : Bool)
  | ended (quit : Bool)

/-- The driver and the variables of the game.  `handling` is what the `ioctl` of `sigusr1_handler`
has returned and stored, as long as the handler runs. -/
structure Game where
  driver : Machine
  status : Status
  pending : Bool
  handling : Option (Word × Word)
  pilot : Pilot
  enemies : Enemies
  main : MainAt

/-- The start of the loop, after `RTC_STARTGAME`. -/
def startLoop (driver : Machine) (enemies : Enemies) : Game where
  driver := driver
  status := ⟨0, 3⟩
  pending := false
  handling := none
  pilot := newPilot
  enemies := enemies
  main := .head

/-- What a call of the driver finds: its argument, the registers and what the kernel answers. -/
structure Setting where
  arg : Word
  regs : Regs
  env : Env

def Setting.request (e : Setting) (c : Command) : Request := ⟨c, e.arg, e.regs, e.env⟩

/-- A call of `main`; the missile is copied from where it lies in the game. -/
def ioctlRequest (e : Setting) : IoctlCall → Request
  | .addMissile m => ⟨.addmissile, e.arg, e.regs, { e.env with userMissile := m }⟩
  | .moveXhairs d => ⟨.movexhairs, d, e.regs, e.env⟩

/-- Where `main` goes when `todo` is left to call. -/
def MainAt.after (injected : Bool) : List IoctlCall → MainAt
  | [] => if injected then .head else .calls [] false
  | c :: todo => .calls (c :: todo) injected

/-- A run of the tasklet, the two halves of the signal handler, and the steps of `main`: its
condition with `update_crosshairs`, a call of `ioctl`, and its second half. -/
inductive Event where
  | tick (e : Setting)
  | signal (e : Setting)
  | store
  | command (input : List (Option UInt8)) (next : Word)
  | call (e : Setting)
  | inject (p : Pass)

/-- The tasklet. -/
def Game.tick (g : Game) (fuel : ℕ) (e : Setting) : Option Game := do
  let driver ← serve fuel g.driver (e.request .rtcTasklet)
  some { g with
    driver := driver
    pending := g.pending || decide (g.driver.notified < driver.notified) }

/-- The `ioctl` of `sigusr1_handler`. -/
def Game.signal (g : Game) (fuel : ℕ) (e : Setting) : Option Game :=
  if g.pending && g.handling.isNone then do
    let driver ← serve fuel g.driver (e.request .getstatus)
    some { g with
      driver := driver
      pending := false
      handling := some (driver.regs.eax, (driver.user e.arg).getD 0) }
  else none

/-- The rest of `sigusr1_handler`. -/
def Game.store (g : Game) : Option Game := do
  let (result, statusWord) ← g.handling
  some { g with status := sigusr1Handler result statusWord g.status, handling := none }

/-- The condition of the loop, and `update_crosshairs` up to its calls. -/
def Game.command (g : Game) (input : List (Option UInt8)) (next : Word) : Option Game :=
  if g.status.basesLeft = 0 then some { g with main := .ended false }
  else if (getCommand input).1 = .quit then some { g with main := .ended true }
  else do
    let (pilot, calls) ← updateCrosshairs next (getCommand input).1 g.pilot
    some { g with pilot := pilot, main := .after false calls }

/-- The next call of `ioctl`. -/
def Game.ioctl (g : Game) (fuel : ℕ) (e : Setting) (c : IoctlCall) (main : MainAt) :
    Option Game := do
  let driver ← serve fuel g.driver (ioctlRequest e c)
  some { g with driver := driver, main := main }

/-- The second half of the loop, up to the call of `make_missile`. -/
def Game.inject (g : Game) (p : Pass) : Option Game := do
  let (enemies, missile) ← injectEnemy g.enemies p
  some { g with enemies := enemies, main := .after true (missile.toList.map .addMissile) }

/-- One step of `main`. -/
def Game.mainStep (g : Game) (fuel : ℕ) : Event → Option Game
  | .command input next =>
      match g.main with
      | .head => g.command input next
      | _ => none
  | .call e =>
      match g.main with
      | .calls (c :: todo) injected => g.ioctl fuel e c (.after injected todo)
      | _ => none
  | .inject p =>
      match g.main with
      | .calls [] false => g.inject p
      | _ => none
  | _ => none

/-- One event; `main` stands still while the handler runs. -/
def Game.step (g : Game) (fuel : ℕ) : Event → Option Game
  | .tick e => g.tick fuel e
  | .signal e => g.signal fuel e
  | .store => g.store
  | e => if g.handling.isNone then g.mainStep fuel e else none

end MachineProblems.Program.MissileGame
