import MachineProblems.Program.Adventure.Vga

/-!
# The monitor

What is to be seen of the card: the lines of the screen as its registers place them in the memory,
from the start address on, and from address 0 on behind the line compare.  Four pixels side by side
have one address, in the four planes.
-/

set_option autoImplicit false

namespace MachineProblems.Program.Adventure.Vga

open MachineProblems.Program.Quantizer

variable (v : Vga)

/-- The address of the first pixel on the screen. -/
def startAddress : ℕ := (v.crtc 0x0C).toNat * 256 + (v.crtc 0x0D).toNat

/-- The addresses from one row to the next, in bytes. -/
def rowBytes : ℕ := 2 * (v.crtc 0x13).toNat

/-- The lines of a row. -/
def rowLines : ℕ := (v.crtc 9 &&& 0x1F).toNat + 1

/-- The last line of the upper part of the screen; bits 8 and 9 are in registers 7 and 9. -/
def lineCompare : ℕ :=
  (v.crtc 0x18).toNat + 256 * ((v.crtc 7).toNat.testBit 4).toNat +
    512 * ((v.crtc 9).toNat.testBit 6).toNat

/-- How many lines the screen has; bits 8 and 9 are in register 7. -/
def lines : ℕ :=
  (v.crtc 0x12).toNat + 256 * ((v.crtc 7).toNat.testBit 1).toNat +
    512 * ((v.crtc 7).toNat.testBit 6).toNat + 1

/-- The address of a pixel. -/
def pixelAddress (x line : ℕ) : ℕ :=
  if line ≤ v.lineCompare then
    (v.startAddress + v.rowBytes * (line / v.rowLines) + x / 4) % 65536
  else (v.rowBytes * ((line - (v.lineCompare + 1)) / v.rowLines) + x / 4) % 65536

/-- The number of the colour of a pixel. -/
def scanned (x line : ℕ) : UInt8 := v.mem (x % 4) (v.pixelAddress x line)

/-- The colour of a pixel. -/
def colour (x line : ℕ) : Rgb := v.dac (v.scanned x line)

end MachineProblems.Program.Adventure.Vga
