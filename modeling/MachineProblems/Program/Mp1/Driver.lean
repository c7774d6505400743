import MachineProblems.Program.Mp1.Machine
import Mathlib.Data.Int.Notation

/-!
# The missile-command driver

`mp1/mp1.S` and `mp1/mp1-given.c`, function by function.  A label of the assembly is a
definition; a jump back is the recursion on a fuel that bounds the iterations, and running
out of it is a fault like any other.
-/

set_option autoImplicit false

namespace MachineProblems.Program.Mp1

abbrev eax : Operand := .reg .eax
abbrev ebx : Operand := .reg .ebx
abbrev ecx : Operand := .reg .ecx
abbrev edx : Operand := .reg .edx
abbrev esi : Operand := .reg .esi
abbrev edi : Operand := .reg .edi

/-! ## mp1-given.c -/

/-- `v >> 16` of a coordinate. -/
def cell (v : Word) : ℤ := (v.sshiftRight 16).toInt

/-- Kill base `i` if it is alive. -/
def killBase (i : Fin 3) (mem : Memory) : Word × Memory :=
  (if mem.baseAlive i ≠ 0 then 1 else 0,
    { mem with baseAlive := Function.update mem.baseAlive i 0 })

/-- `explode_base`. -/
def explodeBase (x y : ℤ) (mem : Memory) : Word × Memory :=
  if 23 ≤ y then
    if 17 ≤ x ∧ x ≤ 23 then killBase 0 mem
    else if 37 ≤ x ∧ x ≤ 43 then killBase 1 mem
    else if 57 ≤ x ∧ x ≤ 63 then killBase 2 mem
    else (0, mem)
  else (0, mem)

/-- The condition under which the explosion of `m` destroys missile `i`. -/
def destroys (m i : Missile) : Bool :=
  let dx := cell m.x - cell i.x
  let dy := cell m.y - cell i.y
  decide (-2 ≤ dx ∧ dx ≤ 2 ∧ -1 ≤ dy ∧ dy ≤ 1 ∧ i.exploded = 0 ∧ i.c = 101 ∧ m.c = 42)

/-- The loop of `missile_explode` over the list, at `i`. -/
def missileExplodeLoop (p : Word) : ℕ → Word → Word × Memory → Option (Word × Memory)
  | 0, _, _ => none
  | fuel + 1, i, (exploded, mem) =>
      if i = 0 then some (exploded, mem)
      else do
        let fi ← mem.missileAt i
        let fm ← mem.missileAt p
        let hit := decide (i ≠ p) && destroys fm fi
        let mem' :=
          if hit then
            { mem.setBlock i (some (.missile { fi with exploded := 50 })) with
              score := mem.score + 1 }
          else mem
        missileExplodeLoop p fuel fi.next (if hit then exploded + 1 else exploded, mem')

/-- `missile_explode (m)`. -/
def missileExplode (fuel : ℕ) (args : List Word) (m : Machine) : Option (Word × Machine) := do
  let p ← args[0]?
  let f ← m.mem.missileAt p
  let mem :=
    if f.exploded = 0 then m.mem.setBlock p (some (.missile { f with exploded := 50 })) else m.mem
  let start := if f.c = 101 then explodeBase (cell f.x) (cell f.y) mem else (0, mem)
  let (exploded, mem) ← missileExplodeLoop p fuel mem.missileList start
  some (exploded, { m with mem := mem })

/-! ## Drawing -/

/-- `mp1_poke`: the byte in `%cl` to the screen at the offset in `%eax`. -/
def mp1Poke : Code :=
  block [
    fun m => movl (.imm m.env.vmemBaseAddr) edx m,
    fun m => some { m with video := m.video ++ [(m.regs.eax, lowByte m.regs.ecx)] },
    ret]

/-- From `inner_loop` to `jl inner_loop`. -/
def innerLoop : Code :=
  block [
    movb (.data 0 .edx) .cl,
    pushl edx, pushl edx, call mp1Poke, addEsp, popl edx,
    addl (.imm 2) eax, addl (.imm 1) edi, addl (.imm 1) edx, cmpl (.imm 5) edi]

/-- From `inner_loop` to `jl outer_loop`. -/
def drawBase : Code :=
  block [
    loopJl innerLoop 5,
    addl (.imm 1) ebx, addl (.imm 32) eax, addl (.imm 1) esi, xorl edi edi, cmpl (.imm 3) esi]

def deadbase : Code := seq [movl (.imm deadBasePicAddr) edx] drawBase

def alivebase : Code := seq [movl (.imm basePicAddr) edx] drawBase

/-- From `outer_loop` to `jl outer_loop`. -/
def outerLoop : Code :=
  seq [cmpb (.imm 0) (.data 0 .ebx)] <| je deadbase <|
  seq [cmpb (.imm 1) (.data 0 .ebx)] <| je alivebase deadbase

/-- `update_bases`. -/
def updateBases : Code :=
  framed <| block [
    pushl edi, pushl esi, pushl ebx,
    xorl eax eax, xorl edi edi, xorl esi esi, xorl edx edx,
    addl (.imm 3876) eax, movl (.imm baseAliveAddr) ebx,
    loopJl outerLoop 3,
    popl ebx, popl esi, popl edi]

/-! ## Removing a missile -/

def endDelete : Code := block [popl ebx, popl esi, popl edi]

def headCase : Code :=
  seq [
    movl (.field .next .edx) esi,
    movl (.imm 0) (.field .next .edx),
    pushl edx, ccall mp1Free, addEsp,
    movl esi edx, movl edx (.var .mp1MissileList)]
  endDelete

/-- `mp1_missile_remove`, before its trace record is added. -/
def unlinkMissile : Code :=
  framed <|
  seq [pushl edi, pushl esi, pushl ebx, cmpl (.var .mp1MissileList) edx] <| je headCase <|
  seq [
    movl (.field .next .edx) esi,
    movl esi (.field .next .edi),
    movl (.imm 0) (.field .next .edx),
    pushl edx, pushl edx, ccall mp1Free, addEsp, popl edx,
    movl esi edx]
  endDelete

/-- `mp1_missile_remove`. -/
def mp1MissileRemove : Code := fun m => do
  let m' ← unlinkMissile m
  let record : Removal := ⟨m.regs.edx, m.mem, m'.mem, m.freed, m'.freed⟩
  some { m' with removals := m'.removals ++ [record] }

/-! ## The tick -/

/-- Where one pass through the loop of `update_missiles` ends. -/
inductive Exit where
  | loopStart
  | endOfUpdate

abbrev Flow := Machine → Option (Exit × Machine)

def endOfUpdate : Flow := fun m => some (.endOfUpdate, m)

def jmpLoopStart : Flow := fun m => some (.loopStart, m)

def endOfLoop : Flow :=
  seq [movl edx edi, cmpl (.imm 0) edx] <| je endOfUpdate <|
  seq [movl (.field .next .edx) esi, cmpl (.imm 0) esi] <| je endOfUpdate <|
  seq [movl esi edx, pushl edx, xorl esi esi] jmpLoopStart

/-- The first part of `missile_remove`: clear the missile's position. -/
def eraseMissile : Code :=
  block [
    movl (.field .x .edx) ebx, movl (.field .y .edx) eax, shrl 16 ebx, shrl 16 eax,
    imull (.imm 2) ebx, imull (.imm 160) eax, addl ebx eax, movb (.imm 32) .cl,
    pushl edx, pushl edx, call mp1Poke, addEsp, popl edx]

/-- The second part: the call of `mp1_missile_remove`. -/
def removeMissile : Code :=
  block [
    pushl edi, pushl edx, movl (.field .next .edx) ebx,
    call mp1MissileRemove, addEsp, popl edi]

/-- `missile_remove`. -/
def missileRemove : Flow :=
  seq [cmpl (.imm 0) edx] <| je endOfUpdate <|
  seq [eraseMissile, removeMissile]
  endOfLoop

def startTask3 : Flow :=
  seq [
    movl (.field .y .edx) ebx, movl (.field .x .edx) eax, sarl 16 eax, sarl 16 ebx,
    imull (.imm 160) ebx, imull (.imm 2) eax, addl ebx eax, movb (.imm 32) .cl,
    pushl edx, pushl edx, call mp1Poke, addEsp, popl edx] <|
  seq [
    movl (.field .vy .edx) eax, movl (.field .vx .edx) ebx,
    addl ebx (.field .x .edx), addl eax (.field .y .edx)] <|
  seq [
    movl (.field .y .edx) ebx, movl (.field .x .edx) eax, sarl 16 eax, sarl 16 ebx,
    imull (.imm 160) ebx, imull (.imm 2) eax, addl ebx eax, movb (.missileC .edx) .cl,
    pushl edx, pushl edx, call mp1Poke, addEsp, popl edx]
  endOfLoop

def skip2 : Flow :=
  seq [
    movl (.field .x .edx) eax, movl (.field .y .edx) ebx, sarl 16 eax, sarl 16 ebx,
    imull (.imm 2) eax, imull (.imm 160) ebx, addl ebx eax, movb (.imm 64) .cl,
    pushl edx, call mp1Poke, popl edx]
  endOfLoop

def exploding : Flow :=
  seq [movl (.field .exploded .edx) ebx, cmpl (.imm 0) (.field .exploded .edx)] <|
  je startTask3 <|
  seq [subl (.imm 1) (.field .exploded .edx), cmpl (.imm 0) (.field .exploded .edx)] <|
  jne skip2 missileRemove

section Fuel

variable (fuel : ℕ)

/-- `START_TASK2`: the missile may have reached its destination. -/
def startTask2 : Flow :=
  seq [movl (.field .x .edx) ebx, sarl 16 ebx, cmpl ebx (.field .destX .edx)] <| jne exploding <|
  seq [movl (.field .y .edx) ebx, sarl 16 ebx, cmpl ebx (.field .destY .edx)] <| jne exploding <|
  seq [pushl edx, pushl edx, ccall (missileExplode fuel), addEsp, popl edx, cmpl (.imm 0) eax] <|
  je exploding <|
  seq [
    pushl eax, pushl ecx, pushl edx, pushl edx, ccall mp1NotifyUser, addEsp,
    popl edx, popl ecx, popl eax]
  exploding

def updateCoordinates : Flow :=
  seq [
    movl (.field .x .edx) eax, movl (.field .y .edx) ebx, sarl 16 eax, sarl 16 ebx,
    cmpl (.imm 79) (.field .x .edx)] <| jl missileRemove <|
  seq [cmpl (.imm 0) (.field .x .edx)] <| jl missileRemove <|
  seq [cmpl (.imm 24) (.field .y .edx)] <| jl missileRemove <|
  seq [cmpl (.imm 0) (.field .y .edx)] <| jl missileRemove <|
  seq [
    imull (.imm 2) eax, imull (.imm 160) ebx, addl ebx eax, movb (.missileC .edx) .cl,
    pushl edx, pushl edx, call mp1Poke, addEsp, popl edx]
  (startTask2 fuel)

def dontNotify : Flow :=
  seq [decl (.field .exploded .edx), cmpl (.imm 0) (.field .exploded .edx)] <|
  je missileRemove endOfLoop

/-- The missile in `%edx`, behind the null check of `update_missiles_loop_start`. -/
def updateMissile : Flow :=
  seq [cmpl (.imm 0) (.field .exploded .edx)] <| je (updateCoordinates fuel) <|
  seq [movl (.imm 0) (.field .vx .edx), movl (.imm 0) (.field .vy .edx)] <|
  seq [pushl edx, pushl edx, ccall (missileExplode fuel), addEsp, popl edx, cmpl (.imm 0) eax] <|
  je dontNotify <|
  seq [pushl edx, pushl edx, ccall mp1NotifyUser, addEsp, popl edx]
  dontNotify

def updateMissilesLoopStart : Flow :=
  seq [popl edx, cmpl (.imm 0) edx] <| je endOfUpdate (updateMissile fuel)

/-- The loop of `update_missiles`, at most `n` times. -/
def updateMissilesLoop : ℕ → Code
  | 0 => fun _ => none
  | n + 1 => fun m => do
      let (exit, m) ← updateMissilesLoopStart fuel m
      match exit with
      | .loopStart => updateMissilesLoop n m
      | .endOfUpdate => some m

/-- `update_missiles`. -/
def updateMissiles : Code :=
  framed <|
  seq [cmpl (.imm 0) (.var .mp1MissileList)] <| je some <|
  seq [movl (.var .mp1MissileList) edx, pushl edx] (updateMissilesLoop fuel fuel)

/-- `mp1_rtc_tasklet`. -/
def mp1RtcTasklet : Code :=
  framed <| block [
    pushl edi, pushl esi, pushl ebx,
    pushl eax, pushl ecx, pushl edx, pushl edi, pushl esi, call (updateMissiles fuel),
    popl esi, popl edi, popl edx, popl ecx, popl eax,
    pushl eax, pushl ecx, pushl edx, pushl edi, pushl esi, call updateBases,
    popl esi, popl edi, popl edx, popl ecx, popl eax,
    pushl eax, pushl ecx, pushl edx, pushl edi, pushl esi,
    popl esi, popl edi, popl edx, popl ecx, popl eax,
    popl ebx, popl esi, popl edi]

/-! ## The ioctls -/

/-- `mp1_ioctl_startgame`. -/
def mp1IoctlStartgame : Code :=
  framed <| block [
    pushl ebx, pushl esi, pushl edi,
    movl (.imm 0) (.var .mp1MissileList), movl (.imm 0) (.var .mp1Score),
    movl (.imm baseAliveAddr) eax,
    movb (.imm 1) (.data 0 .eax), movb (.imm 1) (.data 1 .eax), movb (.imm 1) (.data 2 .eax),
    movl (.imm 40) (.var .crosshairsX), movl (.imm 12) (.var .crosshairsY),
    popl ebx, popl esi, popl edi]

def doneAdding : Code := block [popl esi, popl edi, popl ebx]

/-- `mp1_ioctl_addmissile`. -/
def mp1IoctlAddmissile : Code :=
  framed <|
  seq [
    movl (.esp 2) edi,
    pushl ebx, pushl edi, pushl esi,
    pushl edx, pushl (.imm 33), ccall mp1Malloc, addEsp, popl edx,
    pushl (.imm 33), pushl edi, pushl eax, ccall mp1CopyFromUser,
    popl esi, popl edi, popl ebx, xorl ebx ebx, xorl edi edi, cmpl (.imm 0) eax] <|
  jne (seq [pushl esi, ccall mp1Free, addEsp, addl (.imm (-1)) eax] doneAdding) <|
  seq [
    movl (.var .mp1MissileList) ebx, movl ebx (.field .next .esi),
    movl esi (.var .mp1MissileList)]
  doneAdding

/-- `mp1_ioctl_getstatus`. -/
def mp1IoctlGetstatus : Code :=
  framed <|
  seq [
    pushl ebx, pushl esi, pushl edi,
    pushl (.imm 4), ccall mp1Malloc, addEsp, movl eax ebx] <|
  seq [
    xorl eax eax, xorl ecx ecx, movl (.imm baseAliveAddr) edx,
    movb (.data 0 .edx) .cl, shlb 1 .cl,
    addl (.imm 1) edx, addb (.data 0 .edx) .cl, shlb 1 .cl,
    addl (.imm 1) edx, addb (.data 0 .edx) .cl, shll 17 ecx,
    xorl eax eax, movl (.var .mp1Score) eax, addl ecx eax] <|
  seq [
    movl eax (.long .ebx), movl ebx edi,
    pushl (.imm 4), pushl ebx, pushl (.ebp 2), ccall mp1CopyToUser, addEsp, addEsp, addEsp,
    movl eax esi, cmpl (.imm 0) esi] <|
  jne (block [
    pushl ebx, ccall mp1Free, popl ebx, movl (.imm (-1)) eax,
    popl edi, popl esi, popl ebx]) <|
  block [
    movl (.imm 0) eax, pushl edi, ccall mp1Free, addEsp,
    popl edi, popl esi, popl ebx]

/-- The loop of `mp1_ioctl_endgame`, at most `n` times. -/
def endgameLoop : ℕ → Code
  | 0 => fun _ => none
  | n + 1 =>
      seq [cmpl (.imm 0) edx] <| je some <|
      seq [
        movl (.field .next .edx) esi, pushl ebx, pushl edx, call mp1MissileRemove,
        addEsp, addEsp, movl edx ebx, movl esi edx]
      (endgameLoop n)

/-- `mp1_ioctl_endgame`. -/
def mp1IoctlEndgame : Code :=
  framed <| block [
    pushl ebx, pushl esi, pushl edi,
    movl (.var .mp1MissileList) edx, endgameLoop fuel,
    popl edi, popl esi, popl ebx]

/-! ## Entering the driver -/

inductive Op where
  | startgame
  | addmissile
  | rtcTasklet
  | endgame
  | getstatus

/-- One call from outside: the function, its argument, the registers it finds, and what the
kernel will answer. -/
structure Entry where
  op : Op
  arg : Word
  regs : Regs
  env : Env

def handler : Op → Code
  | .startgame => mp1IoctlStartgame
  | .addmissile => mp1IoctlAddmissile
  | .rtcTasklet => mp1RtcTasklet fuel
  | .endgame => mp1IoctlEndgame fuel
  | .getstatus => mp1IoctlGetstatus

/-- The call of a function from outside, with its argument above the return address. -/
def enter (m : Machine) (e : Entry) : Option Machine :=
  handler fuel e.op
    { m with regs := e.regs, env := e.env, stack := [0, e.arg], ebp := [] }

end Fuel

end MachineProblems.Program.Mp1
