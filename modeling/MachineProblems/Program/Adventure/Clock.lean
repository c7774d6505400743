import Mathlib.Data.Int.Notation
import Mathlib.Tactic.SplitIfs

/-!
# The clock of the event loop

`mp2/adventure.c`: how `game_loop` keeps its tick time.  The readings of `gettimeofday` are the
input; a reading that fails ends the program.
-/

set_option autoImplicit false

namespace MachineProblems.Program.Adventure

/-- `struct timeval`. -/
structure Timeval where
  tvSec : ℤ
  tvUsec : ℤ
  deriving DecidableEq

/-- `TICK_USEC`. -/
def tickUsec : ℤ := 50000

/-- `time_is_after`. -/
def timeIsAfter (t1 t2 : Timeval) : Bool :=
  if t1.tvSec = t2.tvSec then decide (t1.tvUsec ≥ t2.tvUsec)
  else decide (t1.tvSec > t2.tvSec)

/-- One tick later, the carry into the seconds included. -/
def nextTick (tickTime : Timeval) : Timeval :=
  let tvUsec := tickTime.tvUsec + tickUsec
  if tvUsec > 1000000 then ⟨tickTime.tvSec + 1, tvUsec - 1000000⟩ else ⟨tickTime.tvSec, tvUsec⟩

/-- The time of the first tick. -/
def firstTick (startTime : Timeval) : Timeval := nextTick startTime

/-- A round of the advance that comes to another one leaves fewer seconds, or as many seconds and
fewer microseconds to go. -/
theorem nextTick_closer (curTime tickTime : Timeval)
    (h : timeIsAfter curTime (nextTick tickTime) = true) :
    Prod.Lex (· < ·) (· < ·)
      ((curTime.tvSec - (nextTick tickTime).tvSec + 1).toNat,
        (1000000 - (nextTick tickTime).tvUsec).toNat)
      ((curTime.tvSec - tickTime.tvSec + 1).toNat, (1000000 - tickTime.tvUsec).toNat) := by
  have hsec : (nextTick tickTime).tvSec ≤ curTime.tvSec := by
    unfold timeIsAfter at h
    split_ifs at h with heq
    · exact Int.le_of_eq heq.symm
    · exact Int.le_of_lt (of_decide_eq_true h)
  unfold nextTick tickUsec at hsec ⊢
  dsimp only at hsec ⊢
  split_ifs at hsec ⊢ with hcarry
  · refine Prod.Lex.left _ _ ?_
    dsimp only at hsec ⊢
    omega
  · refine Prod.Lex.right _ ?_
    dsimp only
    omega

/-- The loop that advances the tick time past the current time. -/
def advanceTick (curTime tickTime : Timeval) : Timeval :=
  if timeIsAfter curTime (nextTick tickTime) then advanceTick curTime (nextTick tickTime)
  else nextTick tickTime
termination_by ((curTime.tvSec - tickTime.tvSec + 1).toNat, (1000000 - tickTime.tvUsec).toNat)
decreasing_by exact nextTick_closer curTime tickTime ‹_›

/-- A reading of the clock: the loop waits on before the tick time, and goes through a round and
advances the tick time from then on. -/
def readClock (tickTime curTime : Timeval) : Timeval :=
  if timeIsAfter curTime tickTime then advanceTick curTime tickTime else tickTime

/-- The tick time after the readings since the start. -/
def tickTimeAfter (startTime : Timeval) (readings : List Timeval) : Timeval :=
  readings.foldl readClock (firstTick startTime)

end MachineProblems.Program.Adventure
