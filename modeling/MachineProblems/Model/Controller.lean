import MachineProblems.Library.FrameScanner
import MachineProblems.Model.Mtcp
import MachineProblems.Program.TuxModule

/-!
# The Tux controller at the other end of the line

What `mp2/module/mtcp.h` says of the controller itself: its registers, what the commands that the
driver sends do to them, and when it speaks.  `TuxSystem` joins it to the module by a line in each
direction.  The controller takes the bytes of a command together, and it starts with debug-lockup
on: a byte that is no command makes it cease to respond until it is reset.
-/

set_option autoImplicit false

namespace MachineProblems.Model

open MachineProblems.Library
open MachineProblems.Program MachineProblems.Program.Tuxctl
open MachineProblems.Program.LineDiscipline (Packet)
open MachineProblems.Model.Mtcp

/-! ## The controller -/

/-- The controller's registers: the user-set values of its displays, whether it shows them or its
clock, whether it reports a change of its buttons, the two bytes of a report, and whether it has
locked up. -/
structure Controller where
  leds : Fin 4 → UInt8
  userMode : Bool
  reports : Bool
  buttons : UInt8 × UInt8
  locked : Bool

namespace Controller

/-- The values of an `MTCP_LED_SET` go to the displays of its mask, in order of increasing
number. -/
def setLeds (leds : Fin 4 → UInt8) (mask : UInt8) (data : List UInt8) : Fin 4 → UInt8 :=
  let selected := (List.finRange 4).filter fun i : Fin 4 => mask.toNat.testBit i
  (selected.zip data).foldl (fun leds p => Function.update leds p.1 p.2) leds

/-- A command that is one byte. -/
def plain (c : Controller) (b : UInt8) : Controller :=
  if b = mtcpBiocOn then { c with reports := true }
  else if b = mtcpLedUsr then { c with userMode := true }
  else c

/-- `MTCP_ACK`. -/
def ack : Packet := (mtcpAck, 0x80, 0x80)

/-- The first command on the line: the controller after it, its answer and the bytes left on the
line. -/
def execute (c : Controller) : List UInt8 → Controller × List Packet × List UInt8
  | [] => (c, [], [])
  | b :: rest =>
      if c.locked then (c, [], rest)
      else if b = mtcpLedSet then
        match rest with
        | [] => (c, [], [b])
        | mask :: data =>
            if data.length < ledCount mask then (c, [], b :: mask :: data)
            else ({ c with leds := setLeds c.leds mask data }, [ack], data.drop (ledCount mask))
      else if isCommand b then (c.plain b, [ack], rest)
      else ({ c with locked := true }, [], rest)

/-- The user presses or releases a button: the two bytes of `MTCP_BIOC_EVENT`. -/
def press (c : Controller) (b0 b1 : UInt8) : Controller × List Packet :=
  let c := { c with buttons := (b0 ||| 0x80, b1 ||| 0x80) }
  (c, if c.reports && !c.locked then [(mtcpBiocEvent, c.buttons)] else [])

/-- The controller is reset and comes up as `powerUp`, with its buttons as they are held. -/
def reset (c powerUp : Controller) : Controller × List Packet :=
  ({ powerUp with buttons := c.buttons }, [(mtcpReset, 0x80, 0x80)])

end Controller

/-! ## The controller and the module -/

/-- The module and the controller: of the bytes that the serial driver took the first `taken` have
reached the controller, and those of `line` are on their way back.  `told` is no register but the
last report that the controller sent. -/
structure TuxSystem (T : Type) where
  module : TuxModule T
  board : Controller
  taken : ℕ
  line : List UInt8
  told : UInt8 × UInt8

/-- What may happen next. -/
inductive Happening
  | receive (n : ℕ)
  | wakeup
  | ioctl (cmd arg : UInt32) (uncopied : ℕ)
  | execute
  | press (b0 b1 : UInt8)
  | reset

namespace TuxSystem

variable {T : Type} [DecidableEq T] (room : ℕ → ℕ) (beyond : ℕ → UInt8)

/-- The bytes on their way to the controller. -/
def wire (s : TuxSystem T) (tty : T) : List UInt8 := (s.module.ldisc.sent tty).drop s.taken

/-- The controller becomes `board` and sends packets. -/
def speak (s : TuxSystem T) (board : Controller) (packets : List Packet) : TuxSystem T :=
  { s with
    board := board
    line := s.line ++ (packets.map FrameScanner.elements).flatten
    told := ((packets.filter fun p => p.1 == mtcpBiocEvent).getLast?.map Prod.snd).getD s.told }

/-- One step, where the controller comes up as `powerUp` when it is reset. -/
def step (powerUp : Controller) (tty : T) (s : TuxSystem T) : Happening → Option (TuxSystem T)
  | .receive n => do
      let m ← s.module.step room beyond tty (.receive (s.line.take n))
      some { s with module := m, line := s.line.drop n }
  | .wakeup => do
      let m ← s.module.step room beyond tty .wakeup
      some { s with module := m }
  | .ioctl cmd arg uncopied => do
      let m ← s.module.step room beyond tty (.ioctl cmd arg uncopied)
      some { s with module := m }
  | .execute =>
      let (board, answers, rest) := s.board.execute (s.wire tty)
      some { s.speak board answers with taken := s.taken + ((s.wire tty).length - rest.length) }
  | .press b0 b1 =>
      let (board, reports) := s.board.press b0 b1
      some (s.speak board reports)
  | .reset =>
      let (board, reports) := s.board.reset powerUp
      some (s.speak board reports)

/-- Nothing is on its way in either direction. -/
def Settled (s : TuxSystem T) (tty : T) : Prop := s.wire tty = [] ∧ s.line = []

/-- The module just loaded and opened, beside a controller. -/
def opened (tty : T) (rxBuf txBuf : Vector UInt8 LineDiscipline.bufsize) (board : Controller) :
    TuxSystem T :=
  ⟨TuxModule.opened tty rxBuf txBuf, board, 0, [], (0, 0)⟩

end TuxSystem

end MachineProblems.Model
