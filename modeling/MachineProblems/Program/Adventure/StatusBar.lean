import MachineProblems.Library.Memory
import MachineProblems.Program.Adventure.FontData
import MachineProblems.Program.Adventure.World

/-!
# The status bar

`text_to_graphics` of `mp2/text.c`, and the status message that `show_status` of `mp2/adventure.c`
leaves for it.  A string is the memory around its pointer; a read beyond the bytes that may be read
faults, and so does a store outside of `tempstring` or of the buffer.
-/

set_option autoImplicit false

namespace MachineProblems.Program.Adventure

open MachineProblems.Library

/-! ## Strings in memory -/

/-- A string behind a pointer: the bytes at its offsets, how many of them may be read, and where
its terminator is. -/
structure CString where
  bytes : ℤ → UInt8
  size : ℕ
  length : ℕ
  nonzero : ∀ i : ℕ, i < length → bytes i ≠ 0
  terminated : bytes length = 0

/-- `s[i]`. -/
def CString.read (s : CString) (i : ℤ) : Option UInt8 := load s.size s.bytes i

/-- The same string, of which only the first `size` bytes may be read. -/
def CString.upTo (s : CString) (size : ℕ) : CString := { s with size := size }

/-- `status_msg` after `show_status`, in a memory: `strncpy` fills the rest of the array with
zeros. -/
def statusMsg (memory : ℤ → UInt8) (s : CString) : CString where
  bytes i :=
    if 0 ≤ i ∧ i < statusMsgLen + 1 then
      if i < min s.length statusMsgLen then s.bytes i else 0
    else memory i
  size := statusMsgLen + 1
  length := min s.length statusMsgLen
  nonzero i hi := by
    rw [if_pos (by omega), if_pos (by omega)]
    exact s.nonzero i (by omega)
  terminated := by rw [if_pos (by omega), if_neg (by omega)]

/-- `status_msg` when it is empty: whatever a message has left behind its first byte. -/
def emptyStatusMsg (memory : ℤ → UInt8) : CString where
  bytes i := if i = 0 then 0 else memory i
  size := statusMsgLen + 1
  length := 0
  nonzero i hi := absurd hi (Nat.not_lt_zero i)
  terminated := if_pos rfl

/-! ## Text -/

/-- `tempstring_len`. -/
def tempstringLen : ℕ := 40

/-- The size of `tempstring`. -/
def tempstringSize : ℕ := 41

/-- `tempstring` before a string is copied into it. -/
def blankString : ℤ → UInt8 := fun i => if 0 ≤ i ∧ i < tempstringLen then 32 else 0

/-- `tempstring[target] = s[source]`. -/
def copyChar (s : CString) (source target : ℤ) (temp : ℤ → UInt8) : Option (ℤ → UInt8) :=
  (s.read source).bind (store tempstringSize temp target)

/-- The loop over `present_room`. -/
def copyRoom (room : CString) : (ℤ → UInt8) → Option (ℤ → UInt8) :=
  attempts (fun i => copyChar room i i) room.length

/-- The loop over `written_on_screen`. -/
def copyWritten (written : CString) : (ℤ → UInt8) → Option (ℤ → UInt8) :=
  attempts (fun i => copyChar written (written.length - i) (tempstringLen - i)) 21

/-- The loop over `status_msg`. -/
def copyStatus (msg : CString) : (ℤ → UInt8) → Option (ℤ → UInt8) :=
  attempts (fun i => copyChar msg i i) tempstringLen

/-- `tempstring` and `offset`. -/
def arrange (written room msg : CString) : Option ((ℤ → UInt8) × ℤ) := do
  let first ← msg.read 0
  if first = 0 then
    let temp ← copyRoom room blankString
    let temp ← copyWritten written temp
    some (temp, 0)
  else
    let temp ← copyStatus msg blankString
    -- `strlen` is unsigned, and so is the subtraction
    some (temp, (60 - (msg.length : ℤ)) % 2 ^ 32 / 2)

/-! ## Graphics -/

/-- `total_status_pixel`. -/
def totalStatusPixel : ℕ := 5760

/-- `total_status_addr`: the addresses of a plane. -/
def totalStatusAddr : ℕ := 1440

/-- `font_data[letter][i]`. -/
def fontRow (letter : UInt8) (i : ℕ) : UInt8 := (fontData.getD letter.toNat []).getD i 0

/-- Whether bit `m` from the left is set in row `i` of a letter. -/
def fontBit (letter : UInt8) (i m : ℕ) : Bool :=
  (0x80 >>> UInt8.ofNat m &&& fontRow letter i) == 0x80 >>> UInt8.ofNat m

/-- The subscript of `buffer` for bit `m` in row `i` of character `k`. -/
def textAddr (offset : ℤ) (k i m : ℕ) : ℤ :=
  if m ≤ 3 then 80 + 80 * i + 2 * k + m % 4 * totalStatusAddr + offset
  else 80 + 80 * i + 2 * k + m % 4 * totalStatusAddr + 1 + offset

/-- The body of the three loops over the characters, the rows and the bits. -/
def plotBit (temp : ℤ → UInt8) (offset : ℤ) (k i m : ℕ) (buffer : ℤ → UInt8) :
    Option (ℤ → UInt8) :=
  if fontBit (temp k) i m then
    attempts (fun _ buffer => store totalStatusPixel buffer (textAddr offset k i m) 0x3C) 4 buffer
  else some buffer

/-- `buffer[i] = 3` for all `i`. -/
def clearBuffer : (ℤ → UInt8) → Option (ℤ → UInt8) :=
  attempts (fun i buffer => store totalStatusPixel buffer i 3) totalStatusPixel

/-- The loops over the characters, the rows and the bits. -/
def plotText (temp : ℤ → UInt8) (offset : ℤ) : (ℤ → UInt8) → Option (ℤ → UInt8) :=
  attempts (fun k => attempts (fun i => attempts (plotBit temp offset k i) 8) 16) tempstringLen

/-- `text_to_graphics`. -/
def textToGraphics (buffer : ℤ → UInt8) (written room msg : CString) : Option (ℤ → UInt8) := do
  let (temp, offset) ← arrange written room msg
  let buffer ← clearBuffer buffer
  plotText temp offset buffer

end MachineProblems.Program.Adventure
