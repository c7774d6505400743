import MachineProblems.Program.Mp1.Driver

/-!
# The window in `mp1_free`

`mp1_free` enables interrupts around the deallocation, so the tasklet may run in it.
`mp1_missile_remove` stands here with the function it calls for `mp1_free` as a parameter.
-/

set_option autoImplicit false

namespace MachineProblems.Program.Mp1

section Free

variable (free : List Word → Machine → Option (Word × Machine))

def headCaseWith : Code :=
  seq [
    movl (.field .next .edx) esi,
    movl (.imm 0) (.field .next .edx),
    pushl edx, ccall free, addEsp,
    movl esi edx, movl edx (.var .mp1MissileList)]
  endDelete

/-- `mp1_missile_remove`, with `free` in the place of `mp1_free`. -/
def unlinkMissileWith : Code :=
  framed <|
  seq [pushl edi, pushl esi, pushl ebx, cmpl (.var .mp1MissileList) edx] <| je (headCaseWith free) <|
  seq [
    movl (.field .next .edx) esi,
    movl esi (.field .next .edi),
    movl (.imm 0) (.field .next .edx),
    pushl edx, pushl edx, ccall free, addEsp, popl edx,
    movl esi edx]
  endDelete

end Free

theorem unlinkMissileWith_mp1Free : unlinkMissileWith mp1Free = unlinkMissile := rfl

/-- `mp1_missile_remove`, entered in `m`, calls `mp1_free (a)` once, in the state `m'`: whatever
runs there, the rest is the same. -/
def CallsFree (m m' : Machine) (a : Word) : Prop :=
  m'.stack.head? = some a ∧
    ∃ rest : Word × Machine → Option Machine, ∀ free,
      unlinkMissileWith free m = (free m'.stack m').bind rest

end MachineProblems.Program.Mp1
