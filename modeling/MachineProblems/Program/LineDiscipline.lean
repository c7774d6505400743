import MachineProblems.Library.Ring

/-!
# The Tux controller's line discipline

`mp2/module/tuxctl-ld.c`: the rings between the serial driver and the Tux driver, and
the callback that cuts received bytes into three-byte packets.  `discData` is every
tty's `disc_data` pointer; `saved` and `nSaved` are the callback's `static` variables,
one pair for the whole module.  The last three fields of `Ldisc` are no variables of
the source but its trace: the packets passed to `tuxctl_handle_packet`, the bytes
`tuxctl_ldisc_get` returned and the bytes the serial driver accepted.

A function returns `none` where the source would dereference a null `disc_data` or
leave one of its arrays.
-/

set_option autoImplicit false

namespace MachineProblems.Program.LineDiscipline

open MachineProblems.Library

/-- `TUXCTL_BUFSIZE`. -/
abbrev bufsize : ℕ := 64

/-- `tuxctl_ldisc_data_t`: the receive and the transmit ring of one tty. -/
structure LdiscData where
  rx : Ring UInt8 bufsize
  tx : Ring UInt8 bufsize

/-- The argument of `tuxctl_handle_packet`. -/
abbrev Packet := UInt8 × UInt8 × UInt8

/-- The state of the module; `T` names the ttys. -/
structure Ldisc (T : Type) where
  discData : T → Option LdiscData
  saved : Vector UInt8 2
  nSaved : ℕ
  handled : List (T × Packet)
  handed : T → List UInt8
  sent : T → List UInt8

variable {T : Type} [DecidableEq T]

/-- Store through `tty->disc_data`. -/
def Ldisc.setData (s : Ldisc T) (tty : T) (data : Option LdiscData) : Ldisc T :=
  { s with discData := Function.update s.discData tty data }

/-- The ring over a freshly allocated array. -/
def freshRing (cells : Vector UInt8 bufsize) : Ring UInt8 bufsize :=
  ⟨cells, 0, 0, by decide, by decide⟩

/-- `tuxctl_ldisc_open`; `kmalloc` fails (`none`) or returns two arrays of whatever
bytes lay there.  Returns `0` or `-ENOMEM`. -/
def tuxctlLdiscOpen (s : Ldisc T) (tty : T)
    (kmalloc : Option (Vector UInt8 bufsize × Vector UInt8 bufsize)) : Ldisc T × ℤ :=
  match kmalloc with
  | none => (s, -12)
  | some (rxBuf, txBuf) => (s.setData tty (some ⟨freshRing rxBuf, freshRing txBuf⟩), 0)

/-- `tuxctl_ldisc_close`. -/
def tuxctlLdiscClose (s : Ldisc T) (tty : T) : Ldisc T := s.setData tty none

/-- The drain loop of `tuxctl_ldisc_write_wakeup`, `n` bytes already in `buf`:
`while (n <= room && !buf_empty (..)) buf[n++] = ..`.  A ring holds fewer than `bufsize`
bytes, so the first argument never stops the loop. -/
def wakeupLoop (room : ℕ) : ℕ → ℕ → Ring UInt8 bufsize → List UInt8 × Ring UInt8 bufsize
  | 0, _, tx => ([], tx)
  | fuel + 1, n, tx =>
      if n ≤ room ∧ tx.isEmpty = false then
        let (buf, rest) := wakeupLoop room fuel (n + 1) tx.pop
        (tx.front :: buf, rest)
      else ([], tx)

/-- The serial driver's `write`, which takes what `write_room` announced. -/
def driverWrite (room : ℕ) (buf : List UInt8) : List UInt8 := buf.take (min buf.length room)

/-- `tuxctl_ldisc_write_wakeup`, where `write_room` returns `room`. -/
def tuxctlLdiscWriteWakeup (s : Ldisc T) (tty : T) (room : ℕ) : Option (Ldisc T) := do
  let data ← s.discData tty
  let (buf, tx) := wakeupLoop room bufsize 0 data.tx
  let s := s.setData tty (some { data with tx := tx })
  some { s with sent := Function.update s.sent tty (s.sent tty ++ driverWrite room buf) }

/-- `tuxctl_ldisc_get`: the bytes stored through `buf`. -/
def tuxctlLdiscGet (s : Ldisc T) (tty : T) (n : ℕ) : Option (Ldisc T × List UInt8) := do
  let data ← s.discData tty
  let (bytes, rx) := data.rx.drain n
  let s := s.setData tty (some { data with rx := rx })
  some ({ s with handed := Function.update s.handed tty (s.handed tty ++ bytes) }, bytes)

/-- `tuxctl_ldisc_put`: returns the number of bytes *not* written. -/
def tuxctlLdiscPut (s : Ldisc T) (tty : T) (buf : List UInt8) (room : ℕ) :
    Option (Ldisc T × ℕ) := do
  let data ← s.discData tty
  let (tx, rest) := data.tx.fill buf
  let s ← tuxctlLdiscWriteWakeup (s.setData tty (some { data with tx := tx })) tty room
  some (s, rest.length)

/-- The locked part of `tuxctl_ldisc_put`: queue bytes while there is room, with the number of those
left over. -/
def tuxctlLdiscQueue (s : Ldisc T) (tty : T) (buf : List UInt8) : Option (Ldisc T × ℕ) := do
  let data ← s.discData tty
  let (tx, rest) := data.tx.fill buf
  some (s.setData tty (some { data with tx := tx }), rest.length)

theorem tuxctlLdiscPut_eq (s : Ldisc T) (tty : T) (buf : List UInt8) (room : ℕ) :
    tuxctlLdiscPut s tty buf room = (tuxctlLdiscQueue s tty buf).bind fun p =>
      (tuxctlLdiscWriteWakeup p.1 tty room).map fun t => (t, p.2) := by
  unfold tuxctlLdiscPut tuxctlLdiscQueue
  cases s.discData tty with
  | none => rfl
  | some data =>
      show (tuxctlLdiscWriteWakeup _ tty room).bind _ = (tuxctlLdiscWriteWakeup _ tty room).map _
      rw [Option.map_eq_bind]
      rfl

/-- The framing bits of a packet: clear in the first byte, set in the other two. -/
def framed (p0 p1 p2 : UInt8) : Bool :=
  p0 &&& 0x80 == 0 && p1 &&& 0x80 != 0 && p2 &&& 0x80 != 0

/-- The packet loop of the callback, at index `i` with the packets `out` handled:
`for (i = 0; i < n-2; )`.  `packet` is the part of the twelve-byte array written so
far, so that a read behind `n` faults. -/
def packetLoop (packet : List UInt8) (n : ℕ) :
    ℕ → ℕ → List Packet → Option (ℕ × List Packet)
  | 0, i, out => if i + 2 < n then none else some (i, out)
  | fuel + 1, i, out =>
      if i + 2 < n then do
        let p0 ← packet[i]?
        let p1 ← packet[i + 1]?
        let p2 ← packet[i + 2]?
        if framed p0 p1 p2 then packetLoop packet n fuel (i + 3) (out ++ [(p0, p1, p2)])
        else packetLoop packet n fuel (i + 1) out
      else some (i, out)

/-- The stores `saved[j] = ..` from index `j` on. -/
def saveFrom (saved : Vector UInt8 2) : ℕ → List UInt8 → Option (Vector UInt8 2)
  | _, [] => some saved
  | j, b :: bs => if h : j < 2 then saveFrom (saved.set j b) (j + 1) bs else none

/-- `tuxctl_ldisc_data_callback`. -/
def tuxctlLdiscDataCallback (s : Ldisc T) (tty : T) : Option (Ldisc T) := do
  let carried ← (List.range s.nSaved).mapM fun i => s.saved[i]?
  let (s, got) ← tuxctlLdiscGet s tty (12 - s.nSaved)
  let packet := carried ++ got
  let n := s.nSaved + got.length
  if 12 < n then none
  let (i, out) ← packetLoop packet n n 0 []
  let saved ← saveFrom s.saved 0 (packet.drop i)
  some { s with
    saved := saved
    nSaved := n - i
    handled := s.handled ++ out.map fun p => (tty, p) }

/-- The locked part of `tuxctl_ldisc_rcv_buf`: store bytes while there is room.
Returns the count `c` of bytes stored. -/
def tuxctlLdiscStore (s : Ldisc T) (tty : T) (cp : List UInt8) : Option (Ldisc T × ℕ) := do
  let data ← s.discData tty
  let (rx, rest) := data.rx.fill cp
  some (s.setData tty (some { data with rx := rx }), cp.length - rest.length)

/-- `tuxctl_ldisc_rcv_buf`, which does nothing on a tty that is not open. -/
def tuxctlLdiscRcvBuf (s : Ldisc T) (tty : T) (cp : List UInt8) : Option (Ldisc T) :=
  match tuxctlLdiscStore s tty cp with
  | none => some s
  | some (s, _) => tuxctlLdiscDataCallback s tty

end MachineProblems.Program.LineDiscipline
