import Mathlib.Data.Int.Notation
import Mathlib.Data.Nat.Notation

/-!
# The status message and its thread

`mp2/adventure.c`: `show_status`, the two sections of `game_loop` that hold `msg_lock`, and
`status_thread`, which erases a message when its time is over.  An event is one step of one thread,
a waking of the helper, or the passing of time; it is `none` where the thread has to wait.  The
last three fields of `Threads` are no variables of the source but its trace: the message that was
posted and not erased since, when `show_status` signalled it, and whether the helper had already
given up waiting at that moment.
-/

set_option autoImplicit false

namespace MachineProblems.Program.Adventure.StatusThread

/-! ## Time -/

/-- `struct timespec`, as `clock_gettime` fills it and `pthread_cond_timedwait` accepts it. -/
structure Timespec where
  tvSec : ℤ
  tvNsec : ℤ
  nonneg : 0 ≤ tvNsec
  lt_second : tvNsec < 1000000000

/-- The time in nanoseconds. -/
def Timespec.nanos (t : Timespec) : ℤ := 1000000000 * t.tvSec + t.tvNsec

/-- The wake-up time: 1.5 seconds are added to `ts`. -/
def Timespec.wakeUp (ts : Timespec) : Timespec :=
  if h : 500000000 ≤ ts.tvNsec then
    ⟨ts.tvSec + 2, ts.tvNsec - 500000000, by omega, by have := ts.lt_second; omega⟩
  else ⟨ts.tvSec + 1, ts.tvNsec + 500000000, by have := ts.nonneg; omega, by omega⟩

/-! ## The threads -/

/-- `STATUS_MSG_LEN`. -/
abbrev msgLen : ℕ := 40

/-- The string behind `s` in a call of `show_status`. -/
structure Message where
  bytes : List UInt8
  nonzero : 0 ∉ bytes

/-- The critical sections of the main thread: `show_status`, and those of `game_loop` around the
drawing of the status bar and around `get_command`. -/
inductive Section where
  | showStatus (s : Message)
  | draw
  | getCommand

/-- Where the main thread is. -/
inductive MainAt where
  | outside
  | locking (next : Section)
  | copying (s : Message) (i : ℕ)
  | signalling
  | reading
  | asking
  | unlocking

/-- Where `status_thread` is.  `waiting` and `sleeping` are the two waits on `msg_cv`; `woken` and
`roused` are behind them, with `msg_lock` still to be reacquired.  It is `armed` with the wake-up
time it has computed. -/
inductive HelperAt where
  | locking
  | checking
  | waiting
  | woken
  | timing
  | armed (ts : Timespec)
  | sleeping (ts : Timespec)
  | roused (timedOut : Bool)
  | clearing
  | unlocking

/-- Who holds `msg_lock`. -/
inductive Party where
  | main
  | helper
  deriving DecidableEq

structure Threads where
  statusMsg : Vector UInt8 (msgLen + 1)
  msgLock : Option Party
  clock : Timespec
  main : MainAt
  helper : HelperAt
  message : List UInt8
  postedAt : Timespec
  overtaken : Bool

/-- The state in which the helper is created. -/
def start (clock : Timespec) : Threads where
  statusMsg := Vector.replicate (msgLen + 1) 0
  msgLock := none
  clock := clock
  main := .outside
  helper := .locking
  message := []
  postedAt := clock
  overtaken := false

/-- `status_msg[i] = c`. -/
def Threads.put (s : Threads) (i : ℕ) (c : UInt8) : Threads :=
  { s with statusMsg := s.statusMsg.setIfInBounds i c }

/-- `status_msg[i]`. -/
def Threads.get (s : Threads) (i : ℕ) : UInt8 := s.statusMsg[i]?.getD 0

/-- `status_msg` as a C string. -/
def Threads.shown (s : Threads) : List UInt8 := s.statusMsg.toList.takeWhile (· ≠ 0)

/-- `pthread_mutex_lock`, which waits while the lock is taken. -/
def Threads.acquire (s : Threads) (p : Party) : Option Threads :=
  if s.msgLock = none then some { s with msgLock := some p } else none

/-- `pthread_mutex_unlock`. -/
def Threads.release (s : Threads) : Threads := { s with msgLock := none }

/-- `pthread_cond_signal (&msg_cv)`: only the helper can be waiting. -/
def HelperAt.signalled : HelperAt → HelperAt
  | .waiting => .woken
  | .sleeping _ => .roused false
  | h => h

/-- Whether the second wait of the helper has timed out. -/
def HelperAt.gaveUp : HelperAt → Bool
  | .roused timedOut => timedOut
  | _ => false

/-! ## Steps -/

/-- The main thread behind `pthread_mutex_lock`. -/
def Section.begin : Section → MainAt
  | .showStatus s => .copying s 0
  | .draw => .reading
  | .getCommand => .asking

/-- A step of the main thread in a critical section. -/
def mainStep (s : Threads) : Option Threads :=
  match s.main with
  | .outside => none
  | .locking next => do
      let s ← s.acquire .main
      some { s with main := next.begin }
  | .copying m i =>
      -- `strncpy` fills up with zeros, and the last byte of the array is set behind it
      if i < msgLen then some { s.put i (m.bytes.getD i 0) with main := .copying m (i + 1) }
      else some { s.put msgLen 0 with main := .signalling, message := m.bytes.take msgLen }
  | .signalling =>
      some { s with
        main := .unlocking
        helper := s.helper.signalled
        postedAt := s.clock
        overtaken := s.helper.gaveUp }
  | .reading => some { s with main := .unlocking }
  | .asking => some { s with main := .unlocking }
  | .unlocking => some { s.release with main := .outside }

/-- A step of `status_thread`. -/
def helperStep (s : Threads) : Option Threads :=
  match s.helper with
  | .locking => do
      let s ← s.acquire .helper
      some { s with helper := .checking }
  | .checking =>
      if s.get 0 = 0 then some { s.release with helper := .waiting }
      else some { s with helper := .timing }
  | .waiting => none
  | .woken => do
      let s ← s.acquire .helper
      some { s with helper := .checking }
  | .timing => some { s with helper := .armed s.clock.wakeUp }
  | .armed ts => some { s.release with helper := .sleeping ts }
  | .sleeping _ => none
  | .roused timedOut => do
      let s ← s.acquire .helper
      some { s with helper := if timedOut then .clearing else .timing }
  | .clearing =>
      some { s.put 0 0 with helper := .unlocking, message := [], overtaken := false }
  | .unlocking => some { s.release with helper := .locking }

/-- The second wait is over when the clock has reached the wake-up time. -/
def timeout (s : Threads) : Option Threads :=
  match s.helper with
  | .sleeping ts =>
      if ts.nanos ≤ s.clock.nanos then some { s with helper := .roused true } else none
  | _ => none

/-- A wake-up without a reason, which either wait may have. -/
def spurious (s : Threads) : Option Threads :=
  match s.helper with
  | .waiting => some { s with helper := .woken }
  | .sleeping _ => some { s with helper := .roused false }
  | _ => none

inductive Event where
  | enter (next : Section)
  | main
  | helper
  | timeout
  | spurious
  | time (clock : Timespec)

/-- One step of the two threads and the clock, which never goes back. -/
def step (s : Threads) : Event → Option Threads
  | .enter next =>
      match s.main with
      | .outside => some { s with main := .locking next }
      | _ => none
  | .main => mainStep s
  | .helper => helperStep s
  | .timeout => timeout s
  | .spurious => spurious s
  | .time clock =>
      if s.clock.nanos ≤ clock.nanos then some { s with clock := clock } else none

end MachineProblems.Program.Adventure.StatusThread
