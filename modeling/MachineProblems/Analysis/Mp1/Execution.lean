import MachineProblems.Program.Mp1.Driver

/-!
# Executing blocks of instructions

The simp set that runs a block: the instructions, the operands and the C helpers unfold, and
the lemmas below say what the bytes of `.data` and of `%cl` are.
-/

set_option autoImplicit false

namespace MachineProblems.Analysis.Mp1

open MachineProblems.Program.Mp1

attribute [simp] block seq je jne jl binary movl addl subl imull xorl sarl shrl shll decl cmpl
  pushl popl addEsp ret ccall load store Regs.get Regs.set Memory.get Memory.set
  loadByte storeByte binaryByte movb addb shlb cmpb mp1Malloc mp1Free mp1CopyFromUser
  mp1CopyToUser mp1NotifyUser

@[simp] theorem call_mp1Poke (m : Machine) : call mp1Poke m = some { m with
    regs := { m.regs with edx := m.env.vmemBaseAddr }
    video := m.video ++ [(m.regs.eax, lowByte m.regs.ecx)] } := by
  simp [mp1Poke, call]

section SetBlock

variable (mem : Memory) (a : Word) (b : Option Block)

@[simp] theorem heap_setBlock : (mem.setBlock a b).heap = Function.update mem.heap a b := rfl

@[simp] theorem missileList_setBlock : (mem.setBlock a b).missileList = mem.missileList := rfl

@[simp] theorem baseAlive_setBlock : (mem.setBlock a b).baseAlive = mem.baseAlive := rfl

@[simp] theorem score_setBlock : (mem.setBlock a b).score = mem.score := rfl

@[simp] theorem crosshairsX_setBlock : (mem.setBlock a b).crosshairsX = mem.crosshairsX := rfl

@[simp] theorem crosshairsY_setBlock : (mem.setBlock a b).crosshairsY = mem.crosshairsY := rfl

theorem setBlock_setBlock (c : Option Block) :
    (mem.setBlock a b).setBlock a c = mem.setBlock a c := by
  simp [Memory.setBlock]

variable {mem a} in
/-- Freeing what was free changes nothing. -/
theorem setBlock_none (h : mem.heap a = none) : mem.setBlock a none = mem := by
  unfold Memory.setBlock
  rw [← h, Function.update_eq_self]

@[simp] theorem missileAt_setBlock_self (f : Missile) :
    (mem.setBlock a (some (.missile f))).missileAt a = some f := by
  simp [Memory.missileAt]

end SetBlock

@[simp] theorem byteAt_first (mem : Memory) :
    mem.byteAt baseAliveAddr = some (mem.baseAlive 0) := rfl

@[simp] theorem byteAt_second (mem : Memory) :
    mem.byteAt (baseAliveAddr + 1#32) = some (mem.baseAlive 1) := rfl

@[simp] theorem byteAt_third (mem : Memory) :
    mem.byteAt (baseAliveAddr + 1#32 + 1#32) = some (mem.baseAlive 2) := rfl

section SetByte

variable (mem : Memory) (b : Byte)

@[simp] theorem setByte_first : mem.setByte baseAliveAddr b =
    some { mem with baseAlive := Function.update mem.baseAlive 0 b } := rfl

@[simp] theorem setByte_second : mem.setByte (baseAliveAddr + 1#32) b =
    some { mem with baseAlive := Function.update mem.baseAlive 1 b } := rfl

@[simp] theorem setByte_third : mem.setByte (baseAliveAddr + 2#32) b =
    some { mem with baseAlive := Function.update mem.baseAlive 2 b } := rfl

end SetByte

@[simp] theorem lowByte_setLowByte (w : Word) (b : Byte) : lowByte (setLowByte w b) = b := by
  unfold lowByte setLowByte
  rw [BitVec.setWidth_append]
  simp

@[simp] theorem setLowByte_setLowByte (w : Word) (b b' : Byte) :
    setLowByte (setLowByte w b) b' = setLowByte w b' := by
  unfold setLowByte
  congr 1
  exact BitVec.extractLsb'_append_eq_left

theorem toNat_setLowByte_zero (b : Byte) : (setLowByte 0#32 b).toNat = b.toNat := by
  unfold setLowByte
  rw [BitVec.toNat_append]
  simp

end MachineProblems.Analysis.Mp1
