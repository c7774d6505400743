import MachineProblems.Program.Mp1.Driver

/-!
# The crosshairs, and all commands of the driver

`mp1_ioctl_movexhairs` of `mp1/mp1.S` works on the low halves of `crosshairs_x` and
`crosshairs_y` with instructions of their own.  With it the driver has its five commands and
the tasklet, and `mp1_ioctl` its jump table.
-/

set_option autoImplicit false

namespace MachineProblems.Program.Mp1

/-! ## Instructions on half words -/

abbrev Half := BitVec 16

/-- The low half of a word. -/
def lowHalf (w : Word) : Half := w.setWidth 16

def setLowHalf (w : Word) (h : Half) : Word := w.extractLsb' 16 16 ++ h

/-- `addw src, v`, from the low half of a register. -/
def addw (src : Reg) (v : Var) : Code := fun m =>
  let w := m.mem.get v
  some { m with mem := m.mem.set (setLowHalf w (lowHalf w + lowHalf (m.regs.get src))) v }

/-- `movw $h, v`. -/
def movw (h : Half) (v : Var) : Code := fun m =>
  some { m with mem := m.mem.set (setLowHalf (m.mem.get v) h) v }

/-- `cmpw $h, v`, for the signed jumps. -/
def cmpw (h : Half) (v : Var) : Code := fun m =>
  some { m with compared := ((lowHalf (m.mem.get v)).signExtend 32, h.signExtend 32) }

/-- `jg taken`, with what follows it. -/
def jg {α : Type} (taken next : Machine → Option α) : Machine → Option α :=
  fun m => if m.compared.2.slt m.compared.1 then taken m else next m

/-! ## mp1_ioctl_movexhairs -/

def lowerXLimit : Half := 0

def upperXLimit : Half := 79

def lowerYLimit : Half := 0

def upperYLimit : Half := 24

def drawCrosshairs : Code :=
  block [
    xorl eax eax, xorl ebx ebx,
    movl (.var .crosshairsX) eax, movl (.var .crosshairsY) ebx,
    imull (.imm 2) eax, imull (.imm 160) ebx, addl ebx eax,
    movb (.imm 43) .cl, call mp1Poke]

def xSetLowerLimit : Code := seq [movl (.imm 0) (.var .crosshairsX)] drawCrosshairs

def xSetHigherLimit : Code := seq [movw 79 .crosshairsX] drawCrosshairs

def ySetLowerLimit : Code := seq [movw 0 .crosshairsY] drawCrosshairs

def ySetHigherLimit : Code := seq [movw 24 .crosshairsY] drawCrosshairs

/-- The comparisons, of which the first that fails sets its limit. -/
def limitCrosshairs : Code :=
  seq [cmpw lowerXLimit .crosshairsX] <| jl xSetLowerLimit <|
  seq [cmpw upperXLimit .crosshairsX] <| jg xSetHigherLimit <|
  seq [cmpw lowerYLimit .crosshairsY] <| jl ySetLowerLimit <|
  seq [cmpw upperYLimit .crosshairsY] <| jg ySetHigherLimit
  drawCrosshairs

/-- The crosshairs are erased, both displacements are added, and `limit` follows. -/
def pushCrosshairs (limit : Code) : Code :=
  framed <| block [
    xorl eax eax, xorl ebx ebx,
    movl (.var .crosshairsX) eax, movl (.var .crosshairsY) ebx,
    imull (.imm 2) eax, imull (.imm 160) ebx, addl ebx eax,
    movb (.imm 32) .cl, call mp1Poke,
    movl (.esp 2) ebx,
    addw .ebx .crosshairsX, sarl 16 ebx, addw .ebx .crosshairsY,
    limit]

/-- `mp1_ioctl_movexhairs`. -/
def mp1IoctlMovexhairs : Code := pushCrosshairs limitCrosshairs

/-! ## All commands -/

/-- The functions of `jump_table`, and the tasklet. -/
inductive Command where
  | startgame
  | addmissile
  | movexhairs
  | getstatus
  | endgame
  | rtcTasklet
  deriving DecidableEq

/-- One call of the driver, as an `Entry` is. -/
structure Request where
  command : Command
  arg : Word
  regs : Regs
  env : Env

/-- The driver serves one call. -/
def serve (fuel : ℕ) (m : Machine) (r : Request) : Option Machine :=
  match r.command with
  | .startgame => enter fuel m ⟨.startgame, r.arg, r.regs, r.env⟩
  | .addmissile => enter fuel m ⟨.addmissile, r.arg, r.regs, r.env⟩
  | .movexhairs =>
      mp1IoctlMovexhairs { m with regs := r.regs, env := r.env, stack := [0, r.arg], ebp := [] }
  | .getstatus => enter fuel m ⟨.getstatus, r.arg, r.regs, r.env⟩
  | .endgame => enter fuel m ⟨.endgame, r.arg, r.regs, r.env⟩
  | .rtcTasklet => enter fuel m ⟨.rtcTasklet, r.arg, r.regs, r.env⟩

/-! ## mp1_ioctl -/

/-- Where `mp1_ioctl` goes: to a handler, which takes its frame over, back to its caller, or to
an address that is no word of the table. -/
inductive Destination where
  | handler (c : Command)
  | caller
  | elsewhere

abbrev Dispatch := Machine → Option (Destination × Machine)

def jumpTable : List Command := [.startgame, .addmissile, .movexhairs, .getstatus, .endgame]

/-- `jmp *jump_table(,%ebx,4)`.  The address wraps around at 32 bits. -/
def jmpJumpTable : Dispatch := fun m =>
  match jumpTable[(m.regs.ebx * 4).toNat / 4]? with
  | some c => some (.handler c, m)
  | none => some (.elsewhere, m)

/-- `jmp target`, with the code behind it. -/
def jmp {α : Type} (target _behind : Machine → Option α) : Machine → Option α := target

def finish : Dispatch :=
  seq [movl (.imm (-1)) eax, ret] fun m => some (.caller, m)

/-- `mp1_ioctl`.  The range checks stand behind the first jump. -/
def mp1Ioctl : Dispatch :=
  seq [movl (.esp 2) ebx] <| jmp jmpJumpTable <|
  seq [cmpl (.imm 0) ebx] <| jl finish <|
  seq [cmpl (.imm 4) ebx] <| jg finish
  jmpJumpTable

/-- The code of a command. -/
def commandCode (fuel : ℕ) : Command → Code
  | .startgame => mp1IoctlStartgame
  | .addmissile => mp1IoctlAddmissile
  | .movexhairs => mp1IoctlMovexhairs
  | .getstatus => mp1IoctlGetstatus
  | .endgame => mp1IoctlEndgame fuel
  | .rtcTasklet => mp1RtcTasklet fuel

/-- A call of `mp1_ioctl` up to the return to its caller, by whichever function. -/
def callIoctl (fuel : ℕ) : Code := fun m => do
  let (destination, m) ← mp1Ioctl m
  match destination with
  | .handler c => commandCode fuel c m
  | .caller => some m
  | .elsewhere => none

end MachineProblems.Program.Mp1
