import MachineProblems.Program.Mp1.Ioctl
import Mathlib.Algebra.Group.Int.Defs
import Mathlib.Algebra.Group.Nat.Defs
import Mathlib.Data.Nat.Sqrt
import Mathlib.Tactic.SplitIfs

/-!
# The missile-command game

The parts of `mp1/missile-command.c` that speak to the driver: the status word it reads, the
missiles it fires and the crosshairs it moves; and the keyboard commands that make it do so.
-/

set_option autoImplicit false

namespace MachineProblems.Program.MissileCommand

open MachineProblems.Program.Mp1

/-! ## The status word -/

/-- The game's copies of the driver's state, `score` and `bases_left`. -/
structure Status where
  score : ℕ
  basesLeft : ℕ
  deriving DecidableEq

/-- The assignments of `sigusr1_handler`. -/
def decodeStatus (statusWord : Word) : Status where
  score := (statusWord &&& 0xFFFF).toNat
  basesLeft := ((statusWord >>> 16) &&& 1).toNat + ((statusWord >>> 17) &&& 1).toNat +
    ((statusWord >>> 18) &&& 1).toNat

/-- `sigusr1_handler`, with the result of its `ioctl` and the word stored by it. -/
def sigusr1Handler (result statusWord : Word) (s : Status) : Status :=
  if result = 0 then decodeStatus statusWord else s

/-! ## Missiles -/

/-- The result of a signed operation, if it fits in an `int`. -/
def int32 (n : ℤ) : Option ℤ := if -2 ^ 31 ≤ n ∧ n < 2 ^ 31 then some n else none

/-- `((v<<16)*vel)/mag`. -/
def velocity (v vel mag : ℤ) : Option ℤ := do
  let fixed ← int32 (v * 2 ^ 16)
  let scaled ← int32 (fixed * vel)
  if mag = 0 then none else some (scaled.tdiv mag)

/-- `make_missile`, with what lies on the stack in the `next` field: the missile of its `ioctl`,
or a fault where an `int` overflows or the distance is zero. -/
def makeMissile (next : Word) (sx sy dx dy : ℤ) (c : Byte) (vel : ℤ) : Option Missile := do
  let x ← int32 (sx * 2 ^ 16)
  let y ← int32 (sy * 2 ^ 16)
  let vx ← int32 (dx - sx)
  let vy ← int32 (dy - sy)
  let vxSquare ← int32 (vx * vx)
  let vySquare ← int32 (vy * vy)
  let sum ← int32 (vxSquare + vySquare)
  let square ← int32 (sum * 2 ^ 16)
  let mag : ℤ := Nat.sqrt square.toNat
  let velX ← velocity vx vel mag
  let velY ← velocity vy vel mag
  some {
    next := next
    x := BitVec.ofInt 32 x ||| 0x8000
    y := BitVec.ofInt 32 y ||| 0x8000
    vx := BitVec.ofInt 32 velX
    vy := BitVec.ofInt 32 velY
    destX := BitVec.ofInt 32 dx
    destY := BitVec.ofInt 32 dy
    exploded := 0
    c := c }

/-! ## Commands -/

/-- `command_t`. -/
inductive CommandT where
  | noKey
  | quit
  | left
  | right
  | up
  | down
  | fire
  deriving DecidableEq

/-! ## The keyboard -/

/-- The keys that are commands by themselves, the first `switch` of `get_command`. -/
def keyCommand (ch : UInt8) : Option CommandT :=
  if ch = 0x60 then some .quit
  else if ch = 0x20 then some .fire
  else if ch = 0x68 then some .left
  else if ch = 0x6A then some .down
  else if ch = 0x6B then some .up
  else if ch = 0x6C then some .right
  else none

/-- The last byte of an arrow key, the second `switch`. -/
def arrowCommand (ch : UInt8) : Option CommandT :=
  if ch = 0x41 then some .up
  else if ch = 0x42 then some .down
  else if ch = 0x43 then some .right
  else if ch = 0x44 then some .left
  else none

/-- The body of the loop of `get_command`: the command it returns, or the next `state`. -/
def commandBody (state : ℕ) (ch : UInt8) : CommandT ⊕ ℕ :=
  match keyCommand ch with
  | some cmd => .inl cmd
  | none =>
      if ch = 0x1B then .inr 1
      else if ch = 0x5B ∧ state = 1 then .inr 2
      else if state = 2 then
        match arrowCommand ch with
        | some cmd => .inl cmd
        | none => .inr 0
      else .inr 0

/-- The loop of `get_command`, on the results of its calls of `getc`: `none` is `EOF`, and so is
the end of the input.  The command and the input left for the next call. -/
def getCommandLoop (state : ℕ) : List (Option UInt8) → CommandT × List (Option UInt8)
  | [] => (.noKey, [])
  | none :: rest => (.noKey, rest)
  | some ch :: rest =>
      -- the result of `getc` is stored in a `char`, and a byte of 255 then equals `EOF`
      if ch = 0xFF then (.noKey, rest)
      else
        match commandBody state ch with
        | .inl cmd => (cmd, rest)
        | .inr state => getCommandLoop state rest

/-- `get_command`, whose `state` is a local variable. -/
def getCommand (input : List (Option UInt8)) : CommandT × List (Option UInt8) :=
  getCommandLoop 0 input

theorem getCommandLoop_length (state : ℕ) (ch : Option UInt8) (input : List (Option UInt8)) :
    (getCommandLoop state (ch :: input)).2.length ≤ input.length := by
  induction input generalizing state ch with
  | nil =>
      cases ch with
      | none => rfl
      | some ch =>
          simp only [getCommandLoop]
          split_ifs
          · rfl
          · cases commandBody state ch <;> rfl
  | cons next input ih =>
      cases ch with
      | none => rfl
      | some ch =>
          rw [getCommandLoop]
          split_ifs
          · rfl
          · cases commandBody state ch with
            | inl cmd => rfl
            | inr state => exact Nat.le_succ_of_le (ih state next)

/-- What `get_command` returns, called until the input is exhausted. -/
def getCommands (input : List (Option UInt8)) : List CommandT :=
  match input with
  | [] => []
  | ch :: input =>
      have : (getCommand (ch :: input)).2.length ≤ input.length :=
        getCommandLoop_length 0 ch input
      (getCommand (ch :: input)).1 :: getCommands (getCommand (ch :: input)).2
termination_by input.length

/-! ## The crosshairs -/

/-- The static variables `chx`, `chy` and `fired`. -/
structure Pilot where
  chx : ℤ
  chy : ℤ
  fired : ℕ
  deriving DecidableEq

/-- The pilot as the game starts. -/
def newPilot : Pilot := ⟨80 / 2, 25 / 2, 0⟩

/-- The `ioctl` calls of `update_crosshairs`. -/
inductive IoctlCall where
  | addMissile (m : Missile)
  | moveXhairs (d : Word)

/-- `d`, the two displacements in one word. -/
def packed (dx dy : ℤ) : Word :=
  (BitVec.ofInt 32 dx &&& 0xFFFF) ||| (BitVec.ofInt 32 dy &&& 0xFFFF) <<< 16

/-- The second half of `update_crosshairs`: the crosshairs move by `(dx, dy)`. -/
def pushCrosshair (dx dy : ℤ) (p : Pilot) : Pilot × List IoctlCall :=
  if dx ≠ 0 ∨ dy ≠ 0 then
    let chx := p.chx + dx
    let chx := if 80 ≤ chx then 79 else chx
    let chx := if 0 > chx then 0 else chx
    let chy := p.chy + dy
    let chy := if 24 ≤ chy then 24 else chy
    let chy := if 0 > chy then 0 else chy
    ({ p with chx := chx, chy := chy }, [.moveXhairs (packed dx dy)])
  else (p, [])

/-- `update_crosshairs`, with what a missile finds in its `next` field. -/
def updateCrosshairs (next : Word) (cmd : CommandT) (p : Pilot) :
    Option (Pilot × List IoctlCall) :=
  match cmd with
  | .left => some (pushCrosshair (-1) 0 p)
  | .right => some (pushCrosshair 1 0 p)
  | .up => some (pushCrosshair 0 (-1) p)
  | .down => some (pushCrosshair 0 1 p)
  | .fire => do
      let m ← makeMissile next 79 24 p.chx p.chy 42 200
      some ({ p with fired := p.fired + 1 }, [.addMissile m])
  | _ => some (p, [])

/-! ## The enemy -/

/-- A `struct timeval`. -/
structure Timeval where
  sec : Word
  usec : Word
  deriving DecidableEq

/-- `elapsed`, for the time `tv` of a pass of the loop. -/
def elapsed (last tv : Timeval) : Word :=
  let sec := tv.sec - last.sec
  let usec := tv.usec - last.usec
  if usec.toInt < 0 then (sec - 1) * 1000000 + (usec + 1000000) else sec * 1000000 + usec

/-- What `rand` returns. -/
abbrev Random := Fin (2 ^ 31)

/-- The local variables of `main` that time the enemy missiles. -/
structure Enemies where
  last : Timeval
  ival : Word
  avgIval : Word
  count : Word
  deriving DecidableEq

/-- `avg_ival + ((rand()%1000000) - 500000)`, an `int` added to an `unsigned long`. -/
def interval (avgIval : Word) (r : Random) : Word :=
  avgIval + BitVec.ofInt 32 ((r.val : ℤ) % 1000000 - 500000)

/-- The variables before the loop. -/
def newEnemies (r : Random) (last : Timeval) : Enemies where
  last := last
  ival := interval 4000000 r
  avgIval := 4000000
  count := 0

/-- `avg_ival` after an injection that counts to `count`. -/
def nextAverage (count avgIval : Word) : Word :=
  if count.toInt.tmod 10 = 0 ∧ 200000 < avgIval then avgIval - 100000 else avgIval

/-- The calls of `rand` in one injection, by what is drawn. -/
structure Draw where
  ival : Random
  column : Random
  base : Random
  speed : Random

/-- The missile of an injection. -/
def enemyMissile (next : Word) (d : Draw) : Option Missile :=
  makeMissile next ((d.column.val : ℤ) % 80) 0 (20 * ((d.base.val : ℤ) % 3 + 1)) 24 101
    ((d.speed.val : ℤ) % 5 + 10)

/-- The variables after an injection, `now` being when it is over. -/
def Enemies.injected (s : Enemies) (d : Draw) (now : Timeval) : Enemies where
  last := now
  ival := interval (nextAverage (s.count + 1) s.avgIval) d.ival
  avgIval := nextAverage (s.count + 1) s.avgIval
  count := s.count + 1

/-- What a pass of the loop of `main` is given: both results of `gettimeofday`, those of `rand`, and
what the missile finds in its `next` field. -/
structure Pass where
  tv : Timeval
  now : Timeval
  draw : Draw
  next : Word

/-- The second half of the loop of `main`, with the missile that it makes. -/
def injectEnemy (s : Enemies) (p : Pass) : Option (Enemies × Option Missile) :=
  if s.ival ≤ elapsed s.last p.tv then do
    let m ← enemyMissile p.next p.draw
    some (s.injected p.draw p.now, some m)
  else some (s, none)

end MachineProblems.Program.MissileCommand
