import MachineProblems.Program.LineDiscipline

/-!
# The Tux controller driver

`mp2/module/tuxctl-ioctl.c`: the packet handler and the ioctls of the Tux controller, and the
opcodes of `mtcp.h` they use; `display_time_on_tux` of `mp2/input.c`, which turns the seconds of
a game into the argument of `TUX_SET_LED`.  Only the globals the code reads are kept; of those it
only ever writes, `ACK_FLAG`, `reset_flag` and `led_poll_flag` are kept with their writes, and the
flags nothing touches are left out.  The last two fields of `Driver` are no variables of the source
but its trace: the byte strings passed to `tuxctl_ldisc_put` and the words passed to `copy_to_user`
with their addresses.
-/

set_option autoImplicit false

namespace MachineProblems.Program.Tuxctl

open MachineProblems.Program.LineDiscipline (Packet)

/-! ## `mtcp.h` -/

/-- `MTCP_RESP(n)`. -/
def mtcpResp (n : UInt8) : UInt8 := (n &&& 7) ||| (n &&& (0x18 : UInt8)) <<< (1 : UInt8) ||| 0x40

/-- `MTCP_CMD(c)`. -/
def mtcpCmd (c : UInt8) : UInt8 := 0xC0 ||| c

def mtcpAck : UInt8 := mtcpResp 0x0
def mtcpBiocEvent : UInt8 := mtcpResp 0x1
def mtcpReset : UInt8 := mtcpResp 0x6
def mtcpLedsPoll0 : UInt8 := mtcpResp 0x8
def ledsPoll01 : UInt8 := mtcpResp 0x9
def ledsPoll02 : UInt8 := mtcpResp 0xa
def ledsPoll012 : UInt8 := mtcpResp 0xb
def mtcpLedsPoll1 : UInt8 := mtcpResp 0xC
def ledsPoll11 : UInt8 := mtcpResp 0xd
def ledsPoll12 : UInt8 := mtcpResp 0xe
def ledsPoll112 : UInt8 := mtcpResp 0xf
def mtcpError : UInt8 := mtcpResp 0x1F

def mtcpBiocOn : UInt8 := mtcpCmd 0x3
def mtcpLedSet : UInt8 := mtcpCmd 0x6
def mtcpLedUsr : UInt8 := mtcpCmd 0x8
def mtcpClkReset : UInt8 := mtcpCmd 0x9
def mtcpClkUp : UInt8 := mtcpCmd 0xe

/-! ## The driver's variables -/

/-- The globals of `tuxctl-ioctl.c`. -/
structure Driver where
  errorFlag : ℕ
  ackFlag : ℕ
  resetFlag : ℕ
  ledPollFlag : ℕ
  ledRegularBuffer : Vector UInt8 6
  regularBuffer : Vector UInt8 2
  buttonBuffer : Vector UInt8 2
  puts : List (List UInt8)
  copies : List (UInt32 × UInt32)

/-- The state when the module is loaded. -/
def Driver.load : Driver where
  errorFlag := 0
  ackFlag := 0
  resetFlag := 0
  ledPollFlag := 0
  ledRegularBuffer := #v[0, 0, 0, 0, 0, 0]
  regularBuffer := #v[0, 0]
  buttonBuffer := #v[0, 0]
  puts := []
  copies := []

/-- A call of `tuxctl_ldisc_put`. -/
def Driver.put (s : Driver) (buf : List UInt8) : Driver := { s with puts := s.puts ++ [buf] }

/-! ## Packets -/

/-- Stores at `led_regular_buffer[pos]` and `led_regular_buffer[pos + 1]`. -/
def Driver.storeLeds (s : Driver) (pos : Fin 5) (x y : UInt8) : Driver :=
  { s with ledRegularBuffer := (s.ledRegularBuffer.set pos x).set (pos + 1) y }

/-- The switch of `process_rcvd_pckt0` and `process_rcvd_pckt1`, whose four cases count up from
`op` and which store at `pos` and `pos + 1`. -/
def processRcvdPckt (op : UInt8) (pos : Fin 5) (s : Driver) (a b c : UInt8) : Driver :=
  if a = op then s.storeLeds pos (b &&& 0x7F) (c &&& 0x7F)
  else if a = op + 1 then s.storeLeds pos (c &&& 0x7F) (b ||| 0x80)
  else if a = op + 2 then s.storeLeds pos (b &&& 0x7F) (c ||| 0x80)
  else if a = op + 3 then s.storeLeds pos (c ||| 0x80) (b ||| 0x80)
  else s

/-- `process_rcvd_pckt0`. -/
def processRcvdPckt0 (s : Driver) (a b c : UInt8) : Driver := processRcvdPckt 0x50 2 s a b c

/-- `process_rcvd_pckt1`. -/
def processRcvdPckt1 (s : Driver) (a b c : UInt8) : Driver :=
  { processRcvdPckt 0x54 4 s a b c with ledPollFlag := 1 }

/-- `tuxctl_handle_packet`. -/
def tuxctlHandlePacket (s : Driver) (packet : Packet) : Driver :=
  let (a, b, c) := packet
  if a = mtcpError then { s with errorFlag := 1 }
  else if a = mtcpAck then { s with ackFlag := 1 }
  else if a = mtcpReset then
    let s := { s with regularBuffer := s.regularBuffer.set 0 mtcpBiocOn }
    let s := s.put [s.regularBuffer[0]]
    let s := s.put s.ledRegularBuffer.toList
    { s with resetFlag := 0, ackFlag := 0 }
  else if a = mtcpBiocEvent then { s with buttonBuffer := #v[b, c] }
  else if a = mtcpLedsPoll0 then processRcvdPckt0 s a b c
  else if a = ledsPoll01 then processRcvdPckt0 s a b c
  else if a = ledsPoll02 then processRcvdPckt0 s a b c
  else if a = ledsPoll012 then processRcvdPckt0 s a b c
  else if a = mtcpLedsPoll1 then processRcvdPckt1 s a b c
  else if a = ledsPoll11 then processRcvdPckt1 s a b c
  else if a = ledsPoll12 then processRcvdPckt1 s a b c
  else if a = ledsPoll112 then processRcvdPckt1 s a b c
  else s

/-! ## Ioctls -/

/-- `_IOC(dir, 'E', nr, size)`. -/
def ioc (dir size nr : UInt32) : UInt32 :=
  dir <<< (30 : UInt32) ||| size <<< (16 : UInt32) ||| 0x45 <<< (8 : UInt32) ||| nr

def tuxSetLed : UInt32 := ioc 2 4 0x10
def tuxButtons : UInt32 := ioc 1 4 0x12
def tuxInit : UInt32 := ioc 0 0 0x13

/-- The initialiser of `nums`. -/
def numsTable : Vector UInt8 16 :=
  #v[0xE7, 0x06, 0xCB, 0x8F, 0x2E, 0xAD, 0xED, 0x86, 0xEF, 0xAE, 0xEE, 0x6D, 0xE1, 0x4F, 0xE9, 0xE8]

/-- `nums[i]`; `beyond` is what lies in memory behind the array, which an index from 16 on reads. -/
def nums (beyond : ℕ → UInt8) (i : ℕ) : UInt8 :=
  if h : i < 16 then numsTable[i] else beyond (i - 16)

/-- The error branch at the top of `tuxctl_ioctl`. -/
def errorBranch (s : Driver) : Driver :=
  if s.errorFlag ≠ 0 then
    let s := { s with regularBuffer := s.regularBuffer.set 0 mtcpBiocOn }
    let s := s.put [s.regularBuffer[0]]
    { s with resetFlag := 0, ackFlag := 0 }
  else s

/-- `temp_buf_convert`: the decimal digits of the two bytes of the number to display. -/
def tempBufConvert (arg : UInt32) : Vector ℕ 4 :=
  let numDisplay := arg &&& 0x0000FFFF
  let convertMin := ((numDisplay &&& 0x0000FF00) >>> (8 : UInt32)).toNat
  let convertSec := (numDisplay &&& 0x000000FF).toNat
  #v[convertSec % 10, convertSec / 10, convertMin % 10, convertMin / 10]

/-- One turn of the loop that fills `regular_buf[2 + i]`. -/
def ledByte (beyond : ℕ → UInt8) (arg : UInt32) (i : Fin 4) : UInt8 :=
  let ledOn := ((arg &&& 0x000F0000) >>> (16 : UInt32)).toNat
  let dpOn := ((arg &&& 0x0F000000) >>> (24 : UInt32)).toNat
  let led := if ledOn.testBit i then nums beyond (getElem (tempBufConvert arg) i i.isLt) else 0
  if dpOn.testBit i then led ||| 0x10 else led

/-- `regular_buf` in the case `TUX_SET_LED`. -/
def regularBuf (beyond : ℕ → UInt8) (arg : UInt32) : Vector UInt8 6 :=
  #v[mtcpLedSet, 0xF, ledByte beyond arg 0, ledByte beyond arg 1, ledByte beyond arg 2,
    ledByte beyond arg 3]

/-- The word `TUX_BUTTONS` copies to the user. -/
def buttonWord (a b : UInt8) : UInt32 :=
  (a &&& 0x0F).toUInt32 ||| (b &&& 0x0F).toUInt32 <<< (4 : UInt32)

/-- `tuxctl_ioctl`; `uncopied` is what `copy_to_user` returns.  The value is `ret_val`. -/
def tuxctlIoctl (beyond : ℕ → UInt8) (s : Driver) (cmd arg : UInt32) (uncopied : ℕ) : Driver × ℤ :=
  let s := errorBranch s
  if cmd = tuxInit then
    let s := s.put [mtcpBiocOn]
    let s := s.put [mtcpLedUsr]
    let s := s.put [mtcpClkReset]
    let s := s.put [mtcpClkUp]
    ({ s with ackFlag := 1 }, 0)
  else if cmd = tuxButtons then
    let intPtr := buttonWord s.buttonBuffer[0] s.buttonBuffer[1]
    ({ s with copies := s.copies ++ [(arg, intPtr)] }, if 0 < uncopied then -1 else 0)
  else if cmd = tuxSetLed then
    let buf := regularBuf beyond arg
    let s := s.put buf.toList
    ({ s with ledRegularBuffer := buf, ackFlag := 1 }, 0)
  else (s, -22)

/-! ## The driver over time -/

/-- What the driver is called for. -/
inductive Event
  | packet (packet : Packet)
  | ioctl (cmd arg : UInt32) (uncopied : ℕ)

/-- One call. -/
def Driver.event (beyond : ℕ → UInt8) (s : Driver) : Event → Driver
  | .packet packet => tuxctlHandlePacket s packet
  | .ioctl cmd arg uncopied => (tuxctlIoctl beyond s cmd arg uncopied).1

/-- A sequence of calls. -/
def Driver.drive (beyond : ℕ → UInt8) (s : Driver) (events : List Event) : Driver :=
  events.foldl (Driver.event beyond) s

/-! ## The clock thread of the game -/

/-- `buf_time` in `display_time_on_tux` after `counter` seconds. -/
def bufTime (counter : ℕ) : UInt32 :=
  let minutes := counter / 60
  let seconds := counter % 60
  let minutes := if 99 < minutes then 0 else minutes
  let seconds := if 59 < seconds then 0 else seconds
  let bufTime : UInt32 := 0xF4FF0000
  let bufTime := if minutes < 10 then bufTime &&& 0xFFF7FFFF else bufTime
  let bufTime := bufTime ||| (UInt32.ofNat minutes &&& 0x000000FF) <<< (8 : UInt32)
  bufTime ||| (UInt32.ofNat seconds &&& 0x000000FF)

end MachineProblems.Program.Tuxctl
