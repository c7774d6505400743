import MachineProblems.Program.Tuxctl

/-!
# The Tux controller module

`mp2/module` as one program.  The line discipline and the driver call each other: the callback
that cuts received bytes into packets calls `tuxctl_handle_packet`, and what the driver passes to
`tuxctl_ldisc_put` goes into the transmit ring of the tty.  `write_room` belongs to the serial
driver; `room n` is what it returns the `n`-th time it is called.
-/

set_option autoImplicit false

namespace MachineProblems.Program

open MachineProblems.Program.LineDiscipline MachineProblems.Program.Tuxctl

/-- The variables of `tuxctl-ld.c` and `tuxctl-ioctl.c`; `asked` counts the calls of
`write_room`. -/
structure TuxModule (T : Type) where
  ldisc : Ldisc T
  driver : Driver
  asked : ℕ

namespace TuxModule

variable {T : Type} [DecidableEq T] (room : ℕ → ℕ) (beyond : ℕ → UInt8)

/-- `tuxctl_ldisc_write_wakeup`. -/
def writeWakeup (m : TuxModule T) (tty : T) : Option (TuxModule T) := do
  let ldisc ← tuxctlLdiscWriteWakeup m.ldisc tty (room m.asked)
  some { m with ldisc := ldisc, asked := m.asked + 1 }

/-- `tuxctl_ldisc_put`. -/
def put (tty : T) (m : TuxModule T) (buf : List UInt8) : Option (TuxModule T) := do
  let (ldisc, _) ← tuxctlLdiscPut m.ldisc tty buf (room m.asked)
  some { m with ldisc := ldisc, asked := m.asked + 1 }

/-- A function of the driver has left its variables as `driver`.  It ignores what a put returns,
so its puts may follow its assignments. -/
def putAll (m : TuxModule T) (tty : T) (driver : Driver) : Option (TuxModule T) :=
  (driver.puts.drop m.driver.puts.length).foldlM (put room tty) { m with driver := driver }

/-- `tuxctl_handle_packet`. -/
def handlePacket (tty : T) (m : TuxModule T) (packet : Packet) : Option (TuxModule T) :=
  let ldisc := { m.ldisc with handled := m.ldisc.handled ++ [(tty, packet)] }
  putAll room { m with ldisc := ldisc } tty (tuxctlHandlePacket m.driver packet)

/-- The packet loop of the callback, at index `i`. -/
def packetLoop (tty : T) (packet : List UInt8) (n : ℕ) :
    ℕ → ℕ → TuxModule T → Option (ℕ × TuxModule T)
  | 0, i, m => if i + 2 < n then none else some (i, m)
  | fuel + 1, i, m =>
      if i + 2 < n then do
        let p0 ← packet[i]?
        let p1 ← packet[i + 1]?
        let p2 ← packet[i + 2]?
        if framed p0 p1 p2 then do
          let m ← handlePacket room tty m (p0, p1, p2)
          packetLoop tty packet n fuel (i + 3) m
        else packetLoop tty packet n fuel (i + 1) m
      else some (i, m)

/-- `tuxctl_ldisc_data_callback`. -/
def dataCallback (m : TuxModule T) (tty : T) : Option (TuxModule T) := do
  let carried ← (List.range m.ldisc.nSaved).mapM fun i => m.ldisc.saved[i]?
  let (ldisc, got) ← tuxctlLdiscGet m.ldisc tty (12 - m.ldisc.nSaved)
  let packet := carried ++ got
  let n := m.ldisc.nSaved + got.length
  if 12 < n then none
  let (i, m) ← packetLoop room tty packet n n 0 { m with ldisc := ldisc }
  let saved ← saveFrom m.ldisc.saved 0 (packet.drop i)
  some { m with ldisc := { m.ldisc with saved := saved, nSaved := n - i } }

/-- `tuxctl_ldisc_rcv_buf`. -/
def rcvBuf (m : TuxModule T) (tty : T) (cp : List UInt8) : Option (TuxModule T) :=
  match tuxctlLdiscStore m.ldisc tty cp with
  | none => some m
  | some (ldisc, _) => dataCallback room { m with ldisc := ldisc } tty

/-- `tuxctl_ioctl`; the value is `ret_val`. -/
def ioctl (m : TuxModule T) (tty : T) (cmd arg : UInt32) (uncopied : ℕ) :
    Option (TuxModule T × ℤ) := do
  let (driver, ret) := tuxctlIoctl beyond m.driver cmd arg uncopied
  let m ← putAll room m tty driver
  some (m, ret)

/-- What the kernel calls the module for. -/
inductive Call
  | receive (cp : List UInt8)
  | wakeup
  | ioctl (cmd arg : UInt32) (uncopied : ℕ)

/-- One call, on one tty. -/
def step (tty : T) (m : TuxModule T) : Call → Option (TuxModule T)
  | .receive cp => rcvBuf room m tty cp
  | .wakeup => writeWakeup room m tty
  | .ioctl cmd arg uncopied => (ioctl room beyond m tty cmd arg uncopied).map Prod.fst

/-- The module as it is loaded, with one tty opened over arrays of whatever bytes lay there. -/
def opened (tty : T) (rxBuf txBuf : Vector UInt8 bufsize) : TuxModule T where
  ldisc := (tuxctlLdiscOpen ⟨fun _ => none, Vector.replicate 2 0, 0, [], fun _ => [], fun _ => []⟩ tty
    (some (rxBuf, txBuf))).1
  driver := Driver.load
  asked := 0

end TuxModule

end MachineProblems.Program
