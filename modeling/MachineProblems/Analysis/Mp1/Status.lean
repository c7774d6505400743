import MachineProblems.Analysis.Mp1.Execution
import MachineProblems.Program.MissileCommand
import Mathlib.Data.Nat.Bitwise

/-!
# The status word between the driver and the game

`mp1_ioctl_getstatus` shifts the three base bits to bits 17, 18 and 19 of the word, the bit of
base 0 topmost; `sigusr1_handler` reads bits 16, 17 and 18.  The score comes through, the
bit of base 0 does not.
-/

set_option autoImplicit false

namespace MachineProblems.Analysis.Mp1

open MachineProblems.Program.Mp1 MachineProblems.Program.MissileCommand

/-- The byte that the shifts and additions on `%cl` leave there. -/
def packedBases (baseAlive : Fin 3 → Byte) : Byte :=
  ((baseAlive 0 <<< 1) + baseAlive 1) <<< 1 + baseAlive 2

/-- **The word stored in user space.** -/
theorem getstatus_stores (fuel : ℕ) (m : Machine) {e : Entry} (hop : e.op = .getstatus)
    (hblock : e.env.block ≠ 0) (hcopy : e.env.copyResult = 0) :
    ∃ m', enter fuel m e = some m' ∧ m'.user e.arg =
      some (m.mem.score + setLowByte 0 (packedBases m.mem.baseAlive) <<< 17) := by
  have hblock' : e.env.block ≠ 0#32 := hblock
  have hcopy' : e.env.copyResult = 0#32 := hcopy
  simp [enter, hop, handler, mp1IoctlGetstatus, framed, hblock', hcopy', packedBases]

/-- `base_alive` with a byte 1 for each base that is alive and 0 for the others. -/
def aliveBytes (alive : Fin 3 → Bool) (i : Fin 3) : Byte := if alive i then 1 else 0

/-- The number of bases that are alive. -/
def basesAlive (alive : Fin 3 → Bool) : ℕ :=
  (alive 0).toNat + (alive 1).toNat + (alive 2).toNat

theorem toNat_packedBases (alive : Fin 3 → Bool) : (packedBases (aliveBytes alive)).toNat =
    4 * (alive 0).toNat + 2 * (alive 1).toNat + (alive 2).toNat := by
  unfold packedBases aliveBytes
  cases alive 0 <;> cases alive 1 <;> cases alive 2 <;> rfl

/-- The fields of the word, as a number: the score in bits 0 to 15 and the bases from
bit 17 on. -/
theorem toNat_statusWord {score : Word} (alive : Fin 3 → Bool) (hscore : score.toNat < 65536) :
    (score + setLowByte 0 (packedBases (aliveBytes alive)) <<< 17).toNat = score.toNat +
      131072 * (4 * (alive 0).toNat + 2 * (alive 1).toNat + (alive 2).toNat) := by
  have hpacked := toNat_packedBases alive
  have hbyte : (setLowByte 0 (packedBases (aliveBytes alive))).toNat =
      (packedBases (aliveBytes alive)).toNat := toNat_setLowByte_zero _
  have h0 := (alive 0).toNat_le
  have h1 := (alive 1).toNat_le
  have h2 := (alive 2).toNat_le
  rw [BitVec.toNat_add, BitVec.toNat_shiftLeft, Nat.shiftLeft_eq, hbyte, hpacked]
  omega

/-- Bit `k` of a word, as the game extracts it. -/
theorem toNat_bit (w : Word) (k : ℕ) : ((w >>> k) &&& 1).toNat = w.toNat / 2 ^ k % 2 := by
  rw [BitVec.toNat_and, BitVec.toNat_ushiftRight, Nat.shiftRight_eq_div_pow]
  exact Nat.and_two_pow_sub_one_eq_mod _ 1

theorem toNat_low16 (w : Word) : (w &&& 0xFFFF).toNat = w.toNat % 65536 := by
  rw [BitVec.toNat_and]
  exact Nat.and_two_pow_sub_one_eq_mod _ 16

/-- **What the game reads back**: the score, and the bases without base 0. -/
theorem decodeStatus_statusWord {score : Word} (alive : Fin 3 → Bool)
    (hscore : score.toNat < 65536) :
    decodeStatus (score + setLowByte 0 (packedBases (aliveBytes alive)) <<< 17) =
      ⟨score.toNat, (alive 1).toNat + (alive 2).toNat⟩ := by
  have hword := toNat_statusWord alive hscore
  have h0 := (alive 0).toNat_le
  have h1 := (alive 1).toNat_le
  have h2 := (alive 2).toNat_le
  unfold decodeStatus
  rw [toNat_bit, toNat_bit, toNat_bit, toNat_low16, hword, Status.mk.injEq]
  omega

/-- **The round trip of the status word**: for every score below 65536 the game reads back the
score and the number of bases alive exactly if base 0 is dead. -/
theorem status_roundTrip_iff (fuel : ℕ) (m : Machine) {e : Entry} (hop : e.op = .getstatus)
    (hblock : e.env.block ≠ 0) (hcopy : e.env.copyResult = 0)
    (hscore : m.mem.score.toNat < 65536) {alive : Fin 3 → Bool}
    (halive : m.mem.baseAlive = aliveBytes alive) :
    ∃ m' w, enter fuel m e = some m' ∧ m'.user e.arg = some w ∧
      (decodeStatus w = ⟨m.mem.score.toNat, basesAlive alive⟩ ↔ alive 0 = false) := by
  obtain ⟨m', hrun, hstored⟩ := getstatus_stores fuel m hop hblock hcopy
  refine ⟨m', _, hrun, hstored, ?_⟩
  rw [halive, decodeStatus_statusWord alive hscore, Status.mk.injEq]
  unfold basesAlive
  cases alive 0 with
  | false => simp
  | true =>
      simp only [Bool.toNat_true, Bool.true_eq_false, iff_false, not_and]
      intro _
      omega

/-! ## Base 0 alone -/

def zeroMissile : Missile := ⟨0, 0, 0, 0, 0, 0, 0, 0, 0⟩

def zeroRegs : Regs := ⟨0, 0, 0, 0, 0, 0⟩

def onlyBase0 (i : Fin 3) : Bool := i == 0

/-- A kernel that allocates at address 64 and copies without error. -/
def kernel : Env := ⟨64, zeroMissile, 0, 0, zeroMissile, 0⟩

/-- The state after the game has lost all bases but base 0. -/
def lastBase : Machine where
  regs := zeroRegs
  compared := (0, 0)
  stack := []
  ebp := []
  mem := ⟨fun _ => none, 0, aliveBytes onlyBase0, 7, 40, 12⟩
  env := kernel
  junk := fun _ => 0
  video := []
  user := fun _ => none
  notified := 0
  freed := []
  removals := []

/-- A call of `mp1_ioctl_getstatus` with the user's address 4096. -/
def getstatusCall : Entry := ⟨.getstatus, 4096, zeroRegs, kernel⟩

theorem status_roundTrip_iff_lastBase :
    ∃ m' w, enter 0 lastBase getstatusCall = some m' ∧ m'.user 4096 = some w ∧
      (decodeStatus w = ⟨lastBase.mem.score.toNat, basesAlive onlyBase0⟩ ↔
        onlyBase0 0 = false) :=
  status_roundTrip_iff 0 lastBase (e := getstatusCall) rfl (by decide) rfl (by decide) rfl

/-- With only base 0 alive the game reads that none is left. -/
theorem lastBase_reads_zero :
    ∃ m' w, enter 0 lastBase getstatusCall = some m' ∧ m'.user 4096 = some w ∧
      basesAlive onlyBase0 = 1 ∧ decodeStatus w = ⟨7, 0⟩ := by
  obtain ⟨m', hrun, hstored⟩ :=
    getstatus_stores 0 lastBase (e := getstatusCall) rfl (by decide) rfl
  exact ⟨m', _, hrun, hstored, rfl, decodeStatus_statusWord onlyBase0 (by decide)⟩

end MachineProblems.Analysis.Mp1
