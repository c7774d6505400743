import Mathlib.Data.Nat.Notation
import Mathlib.Logic.Function.Basic

/-!
# The machine under the missile-command driver

The instructions that `mp1/mp1.S` uses, each a partial function on the state: the
registers, the operands of the last comparison, the stack and the memory.  An access to an
address that holds no block of the right kind is a fault, `none`.  `%esp` is the list of
words on the stack, `%ebp` the part of that list a function's prologue has put it on.
A block of instructions runs from its first to its last.
-/

set_option autoImplicit false

namespace MachineProblems.Program.Mp1

abbrev Word := BitVec 32

abbrev Byte := BitVec 8

/-! ## Memory -/

/-- `struct missile`. -/
structure Missile where
  next : Word
  x : Word
  y : Word
  vx : Word
  vy : Word
  destX : Word
  destY : Word
  exploded : Word
  c : Byte

/-- The long fields of a missile, by their offset constants. -/
inductive Field where
  | next
  | x
  | y
  | vx
  | vy
  | destX
  | destY
  | exploded

def Missile.get (f : Missile) : Field → Word
  | .next => f.next
  | .x => f.x
  | .y => f.y
  | .vx => f.vx
  | .vy => f.vy
  | .destX => f.destX
  | .destY => f.destY
  | .exploded => f.exploded

def Missile.set (f : Missile) (w : Word) : Field → Missile
  | .next => { f with next := w }
  | .x => { f with x := w }
  | .y => { f with y := w }
  | .vx => { f with vx := w }
  | .vy => { f with vy := w }
  | .destX => { f with destX := w }
  | .destY => { f with destY := w }
  | .exploded => { f with exploded := w }

/-- What `mp1_malloc` hands out: 33 bytes for a missile or 4 for a status word. -/
inductive Block where
  | missile (f : Missile)
  | long (w : Word)

/-- The allocated blocks, by address, and the driver's variables. -/
structure Memory where
  heap : Word → Option Block
  missileList : Word
  baseAlive : Fin 3 → Byte
  score : Word
  crosshairsX : Word
  crosshairsY : Word

/-- The bases are written `0`, `1` and `2`. -/
scoped instance bases_neZero : @NeZero ℕ Zero.ofOfNat0 3 := ⟨by decide⟩

def Memory.missileAt (mem : Memory) (a : Word) : Option Missile :=
  match mem.heap a with
  | some (.missile f) => some f
  | _ => none

def Memory.setBlock (mem : Memory) (a : Word) (block : Option Block) : Memory :=
  { mem with heap := Function.update mem.heap a block }

/-! ## The state -/

structure Regs where
  eax : Word
  ebx : Word
  ecx : Word
  edx : Word
  esi : Word
  edi : Word

/-- What the kernel will answer: the block `mp1_malloc` returns with what lies in it, the
result of a copy, the missile in user space, and where the video memory is mapped. -/
structure Env where
  block : Word
  uninitMissile : Missile
  uninitLong : Word
  copyResult : Word
  userMissile : Missile
  vmemBaseAddr : Word

/-- A trace record of one call of `mp1_missile_remove`. -/
structure Removal where
  victim : Word
  before : Memory
  after : Memory
  freedBefore : List Word
  freedAfter : List Word

/-- The state of the machine.  `junk` holds the values that C functions leave in the
registers they may clobber; the last five fields are what the outside sees: the
bytes put on the screen, the words stored in user space, the notifications, the calls
of `mp1_free` and the trace of removals. -/
structure Machine where
  regs : Regs
  compared : Word × Word
  stack : List Word
  ebp : List Word
  mem : Memory
  env : Env
  junk : ℕ → Word
  video : List (Word × Byte)
  user : Word → Option Word
  notified : ℕ
  freed : List Word
  removals : List Removal

abbrev Code := Machine → Option Machine

/-! ## Operands -/

inductive Reg where
  | eax
  | ebx
  | ecx
  | edx
  | esi
  | edi

def Regs.get (r : Regs) : Reg → Word
  | .eax => r.eax
  | .ebx => r.ebx
  | .ecx => r.ecx
  | .edx => r.edx
  | .esi => r.esi
  | .edi => r.edi

def Regs.set (r : Regs) (w : Word) : Reg → Regs
  | .eax => { r with eax := w }
  | .ebx => { r with ebx := w }
  | .ecx => { r with ecx := w }
  | .edx => { r with edx := w }
  | .esi => { r with esi := w }
  | .edi => { r with edi := w }

inductive Var where
  | mp1MissileList
  | mp1Score
  | crosshairsX
  | crosshairsY

def Memory.get (mem : Memory) : Var → Word
  | .mp1MissileList => mem.missileList
  | .mp1Score => mem.score
  | .crosshairsX => mem.crosshairsX
  | .crosshairsY => mem.crosshairsY

def Memory.set (mem : Memory) (w : Word) : Var → Memory
  | .mp1MissileList => { mem with missileList := w }
  | .mp1Score => { mem with score := w }
  | .crosshairsX => { mem with crosshairsX := w }
  | .crosshairsY => { mem with crosshairsY := w }

/-- A 32-bit operand: `$w`, `%r`, `v`, `FIELD(%r)`, `(%r)` of a status word,
`4*i(%esp)` and `4*i(%ebp)`. -/
inductive Operand where
  | imm (w : Word)
  | reg (r : Reg)
  | var (v : Var)
  | field (f : Field) (r : Reg)
  | long (r : Reg)
  | esp (i : ℕ)
  | ebp (i : ℕ)

def load (o : Operand) (m : Machine) : Option Word :=
  match o with
  | .imm w => some w
  | .reg r => some (m.regs.get r)
  | .var v => some (m.mem.get v)
  | .field f r => (m.mem.missileAt (m.regs.get r)).map fun missile => missile.get f
  | .long r =>
      match m.mem.heap (m.regs.get r) with
      | some (.long w) => some w
      | _ => none
  | .esp i => m.stack[i]?
  | .ebp i => m.ebp[i]?

def store (o : Operand) (w : Word) (m : Machine) : Option Machine :=
  match o with
  | .reg r => some { m with regs := m.regs.set w r }
  | .var v => some { m with mem := m.mem.set w v }
  | .field f r =>
      (m.mem.missileAt (m.regs.get r)).map fun missile =>
        { m with mem := m.mem.setBlock (m.regs.get r) (some (.missile (missile.set w f))) }
  | .long r =>
      match m.mem.heap (m.regs.get r) with
      | some (.long _) => some { m with mem := m.mem.setBlock (m.regs.get r) (some (.long w)) }
      | _ => none
  | _ => none

/-! ## Instructions -/

/-- Run the instructions of a block in order. -/
def block : List Code → Code
  | [] => some
  | i :: is => fun m => (i m).bind (block is)

section Flow

variable {α : Type}

/-- A block, then the label `k`. -/
def seq (is : List Code) (k : Machine → Option α) : Machine → Option α :=
  fun m => (block is m).bind k

/-- `je taken`, with what follows it. -/
def je (taken next : Machine → Option α) : Machine → Option α :=
  fun m => if m.compared.1 = m.compared.2 then taken m else next m

/-- `jne taken`. -/
def jne (taken next : Machine → Option α) : Machine → Option α :=
  fun m => if m.compared.1 = m.compared.2 then next m else taken m

/-- `jl taken`. -/
def jl (taken next : Machine → Option α) : Machine → Option α :=
  fun m => if m.compared.1.slt m.compared.2 then taken m else next m

end Flow

/-- A loop whose body ends in a comparison and `jl` to its start.  The number is that of
the iterations allowed; a loop that needs more is a fault. -/
def loopJl (body : Code) : ℕ → Code
  | 0 => fun _ => none
  | n + 1 => seq [body] (jl (loopJl body n) some)

/-- An instruction `op src, dst` that computes `f dst src`. -/
def binary (f : Word → Word → Word) (src dst : Operand) : Code := fun m => do
  let s ← load src m
  let d ← load dst m
  store dst (f d s) m

def movl : Operand → Operand → Code := binary fun _ s => s

def addl : Operand → Operand → Code := binary (· + ·)

def subl : Operand → Operand → Code := binary (· - ·)

def imull : Operand → Operand → Code := binary (· * ·)

def xorl : Operand → Operand → Code := binary (· ^^^ ·)

def sarl (k : ℕ) : Operand → Code := binary (fun d _ => d.sshiftRight k) (.imm 0)

def shrl (k : ℕ) : Operand → Code := binary (fun d _ => d >>> k) (.imm 0)

def shll (k : ℕ) : Operand → Code := binary (fun d _ => d <<< k) (.imm 0)

def decl : Operand → Code := binary (fun d _ => d - 1) (.imm 0)

/-- `cmpl src, dst`. -/
def cmpl (src dst : Operand) : Code := fun m => do
  let s ← load src m
  let d ← load dst m
  some { m with compared := (d, s) }

def pushl (src : Operand) : Code := fun m => do
  let w ← load src m
  some { m with stack := w :: m.stack }

def popl (dst : Operand) : Code := fun m =>
  match m.stack with
  | [] => none
  | w :: rest => store dst w { m with stack := rest }

/-- `addl $4, %esp`. -/
def addEsp : Code := fun m =>
  match m.stack with
  | [] => none
  | _ :: rest => some { m with stack := rest }

/-- `call f`: push a return address, which `ret` pops. -/
def call (f : Code) : Code := fun m => f { m with stack := 0 :: m.stack }

def ret : Code := addEsp

/-- A function with the prologue `pushl %ebp; movl %esp, %ebp` and the end `leave; ret`:
whatever its body leaves on the stack is dropped, and `%ebp` is the caller's again.  The
word pushed for `%ebp` itself is never read. -/
def framed (body : Code) : Code := fun m => do
  let m' ← body { m with stack := 0 :: m.stack, ebp := 0 :: m.stack }
  ret { m' with stack := m.stack, ebp := m.ebp }

/-! ## Bytes -/

/-- Where `.data` puts `base_alive` and the two pictures. -/
def baseAliveAddr : Word := 0x0804A004

def basePicAddr : Word := 0x0804A00C

def deadBasePicAddr : Word := 0x0804A012

/-- `"/^^^\\"`. -/
def basePic : List Byte := [47, 94, 94, 94, 92, 0]

/-- `"xxxxx"`. -/
def deadBasePic : List Byte := [120, 120, 120, 120, 120, 0]

/-- The low byte of a register. -/
def lowByte (w : Word) : Byte := w.setWidth 8

def setLowByte (w : Word) (b : Byte) : Word := w.extractLsb' 8 24 ++ b

/-- A byte of `.data`. -/
def Memory.byteAt (mem : Memory) (a : Word) : Option Byte :=
  if h : (a - baseAliveAddr).toNat < 3 then some (mem.baseAlive ⟨(a - baseAliveAddr).toNat, h⟩)
  else if (a - basePicAddr).toNat < 6 then basePic[(a - basePicAddr).toNat]?
  else deadBasePic[(a - deadBasePicAddr).toNat]?

def Memory.setByte (mem : Memory) (a : Word) (b : Byte) : Option Memory :=
  if h : (a - baseAliveAddr).toNat < 3 then
    some { mem with baseAlive := Function.update mem.baseAlive ⟨(a - baseAliveAddr).toNat, h⟩ b }
  else none

/-- A byte operand: `$b`, `%cl`, `k(%r)` in `.data` and `C(%r)` of a missile. -/
inductive ByteOperand where
  | imm (b : Byte)
  | cl
  | data (k : Word) (r : Reg)
  | missileC (r : Reg)

def loadByte (o : ByteOperand) (m : Machine) : Option Byte :=
  match o with
  | .imm b => some b
  | .cl => some (lowByte m.regs.ecx)
  | .data k r => m.mem.byteAt (m.regs.get r + k)
  | .missileC r => (m.mem.missileAt (m.regs.get r)).map fun missile => missile.c

def storeByte (o : ByteOperand) (b : Byte) (m : Machine) : Option Machine :=
  match o with
  | .cl => some { m with regs := m.regs.set (setLowByte m.regs.ecx b) .ecx }
  | .data k r => (m.mem.setByte (m.regs.get r + k) b).map fun mem => { m with mem := mem }
  | _ => none

def binaryByte (f : Byte → Byte → Byte) (src dst : ByteOperand) : Code := fun m => do
  let s ← loadByte src m
  let d ← loadByte dst m
  storeByte dst (f d s) m

def movb : ByteOperand → ByteOperand → Code := binaryByte fun _ s => s

def addb : ByteOperand → ByteOperand → Code := binaryByte (· + ·)

def shlb (k : ℕ) : ByteOperand → Code := binaryByte (fun d _ => d <<< k) (.imm 0)

/-- `cmpb src, dst`; equality is all that is asked of it. -/
def cmpb (src dst : ByteOperand) : Code := fun m => do
  let s ← loadByte src m
  let d ← loadByte dst m
  some { m with compared := (d.signExtend 32, s.signExtend 32) }

/-! ## Calls of C functions -/

/-- Call a C function with the words on the stack as its arguments.  It returns a value in
`%eax`, may leave anything in `%ecx` and `%edx`, and keeps the other registers and the
caller's stack. -/
def ccall (f : List Word → Machine → Option (Word × Machine)) : Code := fun m => do
  let (v, m') ← f m.stack m
  some { m' with
    regs := { m.regs with eax := v, ecx := m'.junk 0, edx := m'.junk 1 }
    junk := fun i => m'.junk (i + 2) }

/-- `mp1_malloc (n)`. -/
def mp1Malloc (args : List Word) (m : Machine) : Option (Word × Machine) := do
  let n ← args[0]?
  if m.env.block = 0 then some (0, m)
  else
    let fresh := if n = 4 then Block.long m.env.uninitLong else .missile m.env.uninitMissile
    some (m.env.block, { m with mem := m.mem.setBlock m.env.block (some fresh) })

/-- `mp1_free (p)`, which accepts the null pointer and no block twice. -/
def mp1Free (args : List Word) (m : Machine) : Option (Word × Machine) := do
  let p ← args[0]?
  if p = 0 then some (m.junk 0, m)
  else
    let _ ← m.mem.heap p
    some (m.junk 0, { m with mem := m.mem.setBlock p none, freed := m.freed ++ [p] })

/-- `mp1_copy_from_user (to, from, 33)`: zero and the user's missile, or an error. -/
def mp1CopyFromUser (args : List Word) (m : Machine) : Option (Word × Machine) := do
  let to_ ← args[0]?
  if m.env.copyResult = 0 then
    let _ ← m.mem.missileAt to_
    some (0, { m with mem := m.mem.setBlock to_ (some (.missile m.env.userMissile)) })
  else some (m.env.copyResult, m)

/-- `mp1_copy_to_user (to, from, 4)`. -/
def mp1CopyToUser (args : List Word) (m : Machine) : Option (Word × Machine) := do
  let to_ ← args[0]?
  let from_ ← args[1]?
  if m.env.copyResult = 0 then
    match m.mem.heap from_ with
    | some (.long w) => some (0, { m with user := Function.update m.user to_ (some w) })
    | _ => none
  else some (m.env.copyResult, m)

/-- `mp1_notify_user ()`. -/
def mp1NotifyUser (_ : List Word) (m : Machine) : Option (Word × Machine) :=
  some (m.junk 0, { m with notified := m.notified + 1 })

end MachineProblems.Program.Mp1
