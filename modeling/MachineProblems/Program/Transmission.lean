import MachineProblems.Program.LineDiscipline

/-!
# The transmit path of the line discipline, step by step

`tuxctl_ldisc_put` and `tuxctl_ldisc_write_wakeup` of `mp2/module/tuxctl-ld.c` as they run beside
each other: ioctls, interrupts and the serial driver call them at any time, and the spinlock covers
only the loops over the ring.  `write_room` is called before the lock is taken and `write` after it
is given back, so between them other calls may take their turns.  `accepted` is no variable of the
source but its trace: the bytes that the puts stored in the ring.
-/

set_option autoImplicit false

namespace MachineProblems.Program.Transmission

open MachineProblems.Program.LineDiscipline

/-- Where a call of `tuxctl_ldisc_put` or `tuxctl_ldisc_write_wakeup` is: before the locked loop
that fills the ring, before `write_room`, before the locked loop that drains the ring, before `write`, or
at its end. -/
inductive Place
  | fill (buf : List UInt8)
  | ask
  | drain (room : ℕ)
  | write (buf : List UInt8)
  | done

/-- The line discipline and the calls made so far. -/
structure Calls (T : Type) where
  ldisc : Ldisc T
  places : List Place
  accepted : List UInt8

/-- A new call, or a step of the `i`-th one; `k` is what the serial driver returns in it. -/
inductive CallTurn
  | put (buf : List UInt8)
  | wakeup
  | go (i k : ℕ)

variable {T : Type} [DecidableEq T]

/-- A call of `tuxctl_ldisc_write_wakeup` takes its bytes out of the ring. -/
def drained (s : Ldisc T) (tty : T) (room : ℕ) : Option (Ldisc T × List UInt8) := do
  let data ← s.discData tty
  let (buf, tx) := wakeupLoop room bufsize 0 data.tx
  some (s.setData tty (some { data with tx := tx }), buf)

/-- The serial driver takes `k` bytes of `buf`, or all of them. -/
def written (s : Ldisc T) (tty : T) (buf : List UInt8) (k : ℕ) : Ldisc T :=
  { s with sent := Function.update s.sent tty (s.sent tty ++ driverWrite k buf) }

/-- One turn. -/
def Calls.step (tty : T) (s : Calls T) : CallTurn → Option (Calls T)
  | .put buf => some { s with places := s.places ++ [.fill buf] }
  | .wakeup => some { s with places := s.places ++ [.ask] }
  | .go i k => do
      match ← s.places[i]? with
      | .fill buf =>
          let (ldisc, left) ← tuxctlLdiscQueue s.ldisc tty buf
          some ⟨ldisc, s.places.set i .ask, s.accepted ++ buf.take (buf.length - left)⟩
      | .ask => some { s with places := s.places.set i (.drain k) }
      | .drain room =>
          let (ldisc, buf) ← drained s.ldisc tty room
          some { s with ldisc := ldisc, places := s.places.set i (.write buf) }
      | .write buf =>
          some { s with ldisc := written s.ldisc tty buf k, places := s.places.set i .done }
      | .done => none

end MachineProblems.Program.Transmission
