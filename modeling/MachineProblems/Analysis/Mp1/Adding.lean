import MachineProblems.Analysis.Mp1.Dispatch

/-!
# Adding a missile

`mp1_ioctl_addmissile` never looks at what `mp1_malloc` returned, and adds -1 to what `mp1_free`
leaves in `%eax` instead of loading it.  So it adds the missile or nothing, as it should, only when
both the allocation and the copy succeed, or when the copy fails and `%eax` happens to be zero.
-/

set_option autoImplicit false

namespace MachineProblems.Analysis.Mp1

open MachineProblems.Library MachineProblems.Program.Mp1

/-- The missile was put in front of the list, in a block that was free; all else is as before. -/
structure Added (m m' : Machine) : Prop where
  result : m'.regs.eax = 0
  block : m.env.block ≠ 0
  fresh : m.mem.heap m.env.block = none
  head : m'.mem.missileList = m.env.block
  missile : m'.mem.missileAt m.env.block =
    some { m.env.userMissile with next := m.mem.missileList }
  rest : ∀ a, a ≠ m.env.block → m'.mem.heap a = m.mem.heap a

/-- Nothing was added, and every block is as before. -/
structure Refused (m m' : Machine) : Prop where
  result : m'.regs.eax = -1
  head : m'.mem.missileList = m.mem.missileList
  heap : m'.mem.heap = m.mem.heap

/-- The command runs without a write through the null pointer, adds the missile or refuses it, and
refuses it exactly if the allocation or the copy fails. -/
def AllOrNothing (m : Machine) : Prop :=
  ∃ m', mp1IoctlAddmissile m = some m' ∧ (Added m m' ∨ Refused m m') ∧
    (m'.regs.eax = -1 ↔ m.env.block = 0 ∨ m.env.copyResult ≠ 0)

section Adding

variable {m : Machine} {back arg : Word} {rest : List Word}

/-- When the copy fails, the block is freed and `w` is added to what `mp1_free` leaves in `%eax`. -/
theorem addmissileAdding_refuses (w : Word) (hstack : m.stack = back :: arg :: rest)
    (hcopy : m.env.copyResult ≠ 0#32) (hfresh : m.mem.heap m.env.block = none) :
    ∃ m', addmissileAdding w m = some m' ∧ m'.regs.eax = m.junk 4 + w ∧ m'.mem = m.mem := by
  by_cases hblock : m.env.block = 0#32
  · simp [addmissileAdding, doneAdding, framed, hstack, hblock, hcopy]
  · simp [addmissileAdding, doneAdding, framed, hstack, hblock, hcopy, setBlock_setBlock,
      setBlock_none hfresh]

theorem addmissile_refuses (hstack : m.stack = back :: arg :: rest)
    (hcopy : m.env.copyResult ≠ 0#32) (hfresh : m.mem.heap m.env.block = none) :
    ∃ m', mp1IoctlAddmissile m = some m' ∧ m'.regs.eax = m.junk 4 + -1 ∧ m'.mem = m.mem :=
  addmissileAdding_refuses (-1) hstack hcopy hfresh

theorem added_pushed {m' : Machine} (hblock : m.env.block ≠ 0)
    (hfresh : m.mem.heap m.env.block = none) (heax : m'.regs.eax = 0)
    (hmem : m'.mem = pushed m.mem m.env.block m.env.userMissile) : Added m m' where
  result := heax
  block := hblock
  fresh := hfresh
  head := by
    rw [hmem]
    rfl
  missile := by
    rw [hmem]
    exact missileAt_setBlock_self m.mem m.env.block _
  rest := by
    intro a ha
    rw [hmem]
    exact Function.update_of_ne ha _ _

theorem minusOne_iff (w : Word) : w + -1 = -1 ↔ w = 0 := by
  bv_omega

end Adding

/-- A call of `mp1_ioctl_addmissile` with the user's address 4096. -/
def addmissileCall (m : Machine) : Machine := { m with stack := [0, 4096] }

/-- The copy faults, and `mp1_free` leaves the address of the block in `%eax`. -/
def copyFaults : Machine := addmissileCall { lastBase with
  env := { kernel with copyResult := 33 }
  junk := fun _ => 64 }

end MachineProblems.Analysis.Mp1
