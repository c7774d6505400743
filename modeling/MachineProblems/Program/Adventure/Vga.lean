import MachineProblems.Library.Effects
import MachineProblems.Program.Adventure.Drawing
import MachineProblems.Program.Adventure.StatusBar

/-!
# The VGA

What `mp2/modex.c` does to the graphics card: the ports it writes and the video memory, access by
access.  A function of the source is the list of its accesses, in order.  The card is modelled as
far as these accesses reach: the sequencer, the CRT controller with the write protection of its
first registers, the attribute controller whose port takes an index and a value in turn, the
graphics controller, the colours of the DAC, and a store to the memory in write mode 0.
-/

set_option autoImplicit false

namespace MachineProblems.Program.Adventure

open MachineProblems.Program.PhotoFile MachineProblems.Program.Quantizer

/-! ## The card -/

/-- The registers behind the ports `0x3C0` to `0x3DA`, and the memory by plane and address.
`attrData` says that the next byte to port `0x3C0` is a value, and `dacPart` holds the components
of the next colour that were already written. -/
structure Vga where
  misc : UInt8
  seqIndex : UInt8
  seq : UInt8 → UInt8
  crtcIndex : UInt8
  crtc : UInt8 → UInt8
  graphicsIndex : UInt8
  graphics : UInt8 → UInt8
  attrIndex : UInt8
  attrData : Bool
  attr : UInt8 → UInt8
  dacIndex : UInt8
  dacPart : List UInt8
  dac : UInt8 → Rgb
  mem : ℕ → ℕ → UInt8

/-- One access of the processor to the card. -/
abbrev Access := Vga → Vga

/-- The value of CRTC register `index` after a write; while register `0x11` protects them, the first
eight registers keep their values, except for the bit of the line compare in register 7. -/
def Vga.crtcWritten (v : Vga) (val : UInt8) : UInt8 :=
  if v.crtcIndex ≤ 7 ∧ v.crtc 0x11 &&& 0x80 ≠ 0 then
    if v.crtcIndex = 7 then v.crtc 7 &&& 0xEF ||| val &&& 0x10 else v.crtc v.crtcIndex
  else val

/-- A byte to port `0x3C9`: the third one makes a colour, and the next colour follows. -/
def Vga.dacWrite (v : Vga) (val : UInt8) : Vga :=
  match v.dacPart with
  | [red, green] =>
      { v with
        dac := Function.update v.dac v.dacIndex ⟨red, green, val &&& 0x3F⟩
        dacIndex := v.dacIndex + 1
        dacPart := [] }
  | part => { v with dacPart := part ++ [val &&& 0x3F] }

/-- `OUTB`. -/
def outb (port : UInt16) (val : UInt8) : Access := fun v =>
  if port = 0x03C0 then
    if v.attrData then
      { v with attr := Function.update v.attr (v.attrIndex &&& 0x1F) val, attrData := false }
    else { v with attrIndex := val, attrData := true }
  else if port = 0x03C2 then { v with misc := val }
  else if port = 0x03C4 then { v with seqIndex := val }
  else if port = 0x03C5 then { v with seq := Function.update v.seq v.seqIndex val }
  else if port = 0x03C8 then { v with dacIndex := val, dacPart := [] }
  else if port = 0x03C9 then v.dacWrite val
  else if port = 0x03CE then { v with graphicsIndex := val }
  else if port = 0x03CF then { v with graphics := Function.update v.graphics v.graphicsIndex val }
  else if port = 0x03D4 then { v with crtcIndex := val }
  else if port = 0x03D5 then
    { v with crtc := Function.update v.crtc v.crtcIndex (v.crtcWritten val) }
  else v

/-- The low and the high byte of a word. -/
def byteLow (w : UInt16) : UInt8 := w.toUInt8

def byteHigh (w : UInt16) : UInt8 := (w >>> 8).toUInt8

/-- `OUTW`: the low byte goes to the port, the high byte to the next one. -/
def outw (port val : UInt16) : Access := fun v =>
  outb (port + 1) (byteHigh val) (outb port (byteLow val) v)

/-- `inb` from port `0x3DA`: the next byte to port `0x3C0` is an index. -/
def inbStatus : Access := fun v => { v with attrData := false }

/-- The offset in the part of the video memory that is mapped, for an offset from `mem_image`. -/
def Vga.mapped (v : Vga) (addr : ℕ) : Option ℕ :=
  let map := v.graphics 6 >>> 2 &&& 3
  if map = 0 then if addr < 0x20000 then some addr else none
  else if map = 1 then if addr < 0x10000 then some addr else none
  else if map = 2 then if 0x10000 ≤ addr ∧ addr < 0x18000 then some (addr - 0x10000) else none
  else if 0x18000 ≤ addr ∧ addr < 0x20000 then some (addr - 0x18000) else none

/-- Whether even addresses are those of the even planes, and odd ones those of the odd planes. -/
def Vga.oddEven (v : Vga) : Bool := v.seq 4 &&& 4 == 0

/-- `mem_image[addr] = byte`: the byte goes to the planes of the write mask. -/
def storeByte (addr : ℕ) (byte : UInt8) : Access := fun v =>
  match v.mapped addr with
  | none => v
  | some off =>
      let cell := if v.oddEven then off - off % 2 else off
      { v with mem := fun plane k =>
          if (v.seq 2).toNat.testBit plane ∧ (v.oddEven = true → plane % 2 = off % 2) ∧ k = cell then
            byte
          else v.mem plane k }

/-- `REP_OUTSW`. -/
def repOutsw (port : UInt16) (source : List UInt16) : List Access := source.map (outw port)

/-- `REP_OUTSB`. -/
def repOutsb (port : UInt16) (source : List UInt8) : List Access := source.map (outb port)

/-- `SET_WRITE_MASK`, which takes the mask from the high byte. -/
def setWriteMask (maskHiBits : UInt16) : Access := outw 0x03C4 (maskHiBits &&& 0xFF00 ||| 0x02)

deriving instance DecidableEq for Rgb

/-! ## Tables -/

/-- `mode_X_seq`. -/
def modeXSeq : List UInt16 := [0x0100, 0x2101, 0x0F02, 0x0003, 0x0604]

/-- `mode_X_CRTC`. -/
def modeXCRTC : List UInt16 := [
  0x5F00, 0x4F01, 0x5002, 0x8203, 0x5404, 0x8005, 0xBF06, 0x1F07,
  0x0008, 0x0109, 0x000A, 0x000B, 0x000C, 0x000D, 0x000E, 0x000F,
  0x9C10, 0x8E11, 0x8F12, 0x2813, 0x0014, 0x9615, 0xB916, 0xE317,
  0x6B18]

/-- `mode_X_attr`. -/
def modeXAttr : List UInt8 := [
  0x00, 0x00, 0x01, 0x01, 0x02, 0x02, 0x03, 0x03,
  0x04, 0x04, 0x05, 0x05, 0x06, 0x06, 0x07, 0x07,
  0x08, 0x08, 0x09, 0x09, 0x0A, 0x0A, 0x0B, 0x0B,
  0x0C, 0x0C, 0x0D, 0x0D, 0x0E, 0x0E, 0x0F, 0x0F,
  0x10, 0x61, 0x11, 0x00, 0x12, 0x0F, 0x13, 0x00,
  0x14, 0x00, 0x15, 0x00]

/-- `mode_X_graphics`. -/
def modeXGraphics : List UInt16 := [
  0x0000, 0x0001, 0x0002, 0x0003, 0x0004, 0x4005, 0x0506, 0x0F07,
  0xFF08]

/-- `text_seq`. -/
def textSeq : List UInt16 := [0x0100, 0x2001, 0x0302, 0x0003, 0x0204]

/-- `text_CRTC`. -/
def textCRTC : List UInt16 := [
  0x5F00, 0x4F01, 0x5002, 0x8203, 0x5504, 0x8105, 0xBF06, 0x1F07,
  0x0008, 0x4F09, 0x0D0A, 0x0E0B, 0x000C, 0x000D, 0x000E, 0x000F,
  0x9C10, 0x8E11, 0x8F12, 0x2813, 0x1F14, 0x9615, 0xB916, 0xA317,
  0xFF18]

/-- `text_attr`. -/
def textAttr : List UInt8 := [
  0x00, 0x00, 0x01, 0x01, 0x02, 0x02, 0x03, 0x03,
  0x04, 0x04, 0x05, 0x05, 0x06, 0x06, 0x07, 0x07,
  0x08, 0x08, 0x09, 0x09, 0x0A, 0x0A, 0x0B, 0x0B,
  0x0C, 0x0C, 0x0D, 0x0D, 0x0E, 0x0E, 0x0F, 0x0F,
  0x10, 0x0C, 0x11, 0x00, 0x12, 0x0F, 0x13, 0x08,
  0x14, 0x00, 0x15, 0x00]

/-- `text_graphics`. -/
def textGraphics : List UInt16 := [
  0x0000, 0x0001, 0x0002, 0x0003, 0x0004, 0x1005, 0x0E06, 0x0007,
  0xFF08]

/-- The levels of a colour component in mode X. -/
def level (bits : ℕ) : UInt8 := UInt8.ofNat (21 * (bits % 4))

/-- `palette_RGB` of `fill_palette_mode_x`: two bits each of red, green and blue. -/
def modeXPalette : List Rgb :=
  (List.range 64).map fun i => ⟨level (i / 16), level (i / 4), level i⟩

/-- `palette_RGB` of `fill_palette_text`. -/
def textPalette : List Rgb := [
  ⟨0x00, 0x00, 0x00⟩, ⟨0x00, 0x00, 0x2A⟩,
  ⟨0x00, 0x2A, 0x00⟩, ⟨0x00, 0x2A, 0x2A⟩,
  ⟨0x2A, 0x00, 0x00⟩, ⟨0x2A, 0x00, 0x2A⟩,
  ⟨0x2A, 0x15, 0x00⟩, ⟨0x2A, 0x2A, 0x2A⟩,
  ⟨0x15, 0x15, 0x15⟩, ⟨0x15, 0x15, 0x3F⟩,
  ⟨0x15, 0x3F, 0x15⟩, ⟨0x15, 0x3F, 0x3F⟩,
  ⟨0x3F, 0x15, 0x15⟩, ⟨0x3F, 0x15, 0x3F⟩,
  ⟨0x3F, 0x3F, 0x15⟩, ⟨0x3F, 0x3F, 0x3F⟩,
  ⟨0x00, 0x00, 0x00⟩, ⟨0x05, 0x05, 0x05⟩,
  ⟨0x08, 0x08, 0x08⟩, ⟨0x0B, 0x0B, 0x0B⟩,
  ⟨0x0E, 0x0E, 0x0E⟩, ⟨0x11, 0x11, 0x11⟩,
  ⟨0x14, 0x14, 0x14⟩, ⟨0x18, 0x18, 0x18⟩,
  ⟨0x1C, 0x1C, 0x1C⟩, ⟨0x20, 0x20, 0x20⟩,
  ⟨0x24, 0x24, 0x24⟩, ⟨0x28, 0x28, 0x28⟩,
  ⟨0x2D, 0x2D, 0x2D⟩, ⟨0x32, 0x32, 0x32⟩,
  ⟨0x38, 0x38, 0x38⟩, ⟨0x3F, 0x3F, 0x3F⟩]

/-! ## Setting a mode -/

/-- `VGA_blank`. -/
def vgaBlank (blankBit : UInt8) : List Access := [
  outb 0x03C4 0x01,
  fun v => outb 0x03C5 (v.seq v.seqIndex &&& 0xDF ||| (blankBit &&& 1) <<< (5 : UInt8)) v,
  inbStatus,
  outb 0x03C0 0x20]

/-- `set_seq_regs_and_reset`. -/
def setSeqRegsAndReset (table : List UInt16) (val : UInt8) : List Access :=
  repOutsw 0x03C4 table ++ [outb 0x03C2 val, outw 0x03C4 0x0300]

/-- `set_CRTC_registers`. -/
def setCRTCRegisters (table : List UInt16) : List Access :=
  outw 0x03D4 0x0011 :: repOutsw 0x03D4 table

/-- `set_attr_registers`. -/
def setAttrRegisters (table : List UInt8) : List Access := inbStatus :: repOutsb 0x03C0 table

/-- `set_graphics_registers`. -/
def setGraphicsRegisters (table : List UInt16) : List Access := repOutsw 0x03CE table

/-- The bytes of a table of colours. -/
def paletteBytes (palette : List Rgb) : List UInt8 :=
  palette.flatMap fun colour => [colour.red, colour.green, colour.blue]

/-- `fill_palette_mode_x` and `fill_palette_text`, by their tables. -/
def fillPalette (palette : List Rgb) : List Access :=
  outb 0x03C8 0x00 :: repOutsb 0x03C9 (paletteBytes palette)

/-- `MODE_X_MEM_SIZE`. -/
def modeXMemSize : ℕ := 65536

/-- `clear_screens`. -/
def clearScreens : List Access :=
  setWriteMask 0x0F00 :: (List.range modeXMemSize).map fun k => storeByte k 0

/-- The part of `set_mode_X` that sets up the card. -/
def setModeXVga : List Access :=
  vgaBlank 1 ++ setSeqRegsAndReset modeXSeq 0x63 ++ setCRTCRegisters modeXCRTC ++
    setAttrRegisters modeXAttr ++ setGraphicsRegisters modeXGraphics ++ fillPalette modeXPalette ++
    clearScreens ++ vgaBlank 0

/-- `write_font_data`. -/
def writeFontData : List Access :=
  [outw 0x03C4 0x0402, outw 0x03C4 0x0704, outw 0x03CE 0x0005, outw 0x03CE 0x0406,
    outw 0x03CE 0x0204] ++
  ((List.range 256).flatMap fun i => (List.range 16).map fun j =>
    storeByte (32 * i + j) (fontRow (UInt8.ofNat i) j)) ++
  [outw 0x03C4 0x0302, outw 0x03C4 0x0304, outw 0x03CE 0x1005, outw 0x03CE 0x0E06,
    outw 0x03CE 0x0004]

/-- The loop of `set_text_mode_3` over the text screens, whose words are written byte by byte. -/
def clearText : List Access :=
  (List.range 8192).flatMap fun i => [
    storeByte (0x18000 + 4 * i) 0x20, storeByte (0x18000 + 4 * i + 1) 0x07,
    storeByte (0x18000 + 4 * i + 2) 0x20, storeByte (0x18000 + 4 * i + 3) 0x07]

/-- `set_text_mode_3`. -/
def setTextMode3 (clearScr : Bool) : List Access :=
  vgaBlank 1 ++ setSeqRegsAndReset textSeq 0x67 ++ setCRTCRegisters textCRTC ++
    setAttrRegisters textAttr ++ setGraphicsRegisters textGraphics ++ fillPalette textPalette ++
    (if clearScr then clearText else []) ++ writeFontData ++ vgaBlank 0

/-! ## A frame -/

/-- `copy_image` and `copy_image2`, by the number of bytes they copy. -/
def copyBytes (img : ℕ → UInt8) (scrAddr count : ℕ) : List Access :=
  (List.range count).map fun k => storeByte (scrAddr + k) (img k)

/-- `show_screen`. -/
def showScreenVga (s : Screen) : List Access :=
  let pOff := 3 - s.showX % 4
  let targetImg := s.targetImg ^^^ 0x4000
  let addr := s.img3 + s.showX / 4 + s.showY * scrollXWidth
  ((List.range 4).flatMap fun (i : ℕ) =>
    let img := addr + (pOff - i + 4) % 4 * scrollSize + if pOff < i then 1 else 0
    setWriteMask (0x0100 <<< UInt16.ofNat i) ::
      copyBytes (fun k => s.build (img + k)) targetImg.toNat 16000) ++
  [outw 0x03D4 (targetImg &&& 0xFF00 ||| 0x0C), outw 0x03D4 ((targetImg &&& 0x00FF) <<< 8 ||| 0x0D)]

/-- `print_status_bar`. -/
def printStatusBar (buffer : ℤ → UInt8) : List Access :=
  (List.range 4).flatMap fun i =>
    setWriteMask (0x0100 <<< UInt16.ofNat i) ::
      copyBytes (fun k => buffer (totalStatusAddr * i + k : ℕ)) 0 totalStatusAddr

/-- `palette_print`, whose range check a byte always passes. -/
def palettePrint (i red green blue : UInt8) : List Access :=
  [outb 0x03C8 i, outb 0x03C9 red, outb 0x03C9 green, outb 0x03C9 blue]

/-- The colour that `prep_room` prints for an entry of the palette. -/
def printed (colour : Rgb) : Rgb where
  red := colour.red <<< (1 : UInt8) &&& 0x3F
  green := colour.green &&& 0x3F
  blue := colour.blue <<< (1 : UInt8) &&& 0x3F

/-- The loop of `prep_room` over the palette of the photo; `unwritten` is what lies in the entries
that were never written. -/
def prepPalette (photo : Photo) (unwritten : Fin 192 → Rgb) : List Access :=
  (List.finRange 192).flatMap fun i =>
    let colour := printed ((photo.palette i).getD (unwritten i))
    palettePrint (UInt8.ofNat (64 + i)) colour.red colour.green colour.blue

end MachineProblems.Program.Adventure
