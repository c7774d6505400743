import MachineProblems.Program.Adventure.Drawing

/-!
# The image tool

`mp2/mp2photo.c` turns a BMP file into a room photo or, built with `WRITE_OBJECT_IMAGE`, into an
object image.  The rows of a BMP are padded to a multiple of four bytes, and the bytes of a pixel are
blue, green and red.  A read behind the image data faults; a write stops where the disk is full.
-/

set_option autoImplicit false

namespace MachineProblems.Program.Mp2photo

open MachineProblems.Library MachineProblems.Program.PhotoFile MachineProblems.Program.Adventure

/-- `bmp_header_t`. -/
structure BmpHeader where
  fileSize : UInt32
  reserved : UInt32
  pixelOffset : UInt32
  dibHeaderSize : UInt32
  imgWidth : UInt32
  imgHeight : UInt32
  planes : UInt16
  bitsPerPixel : UInt16
  compressionType : UInt32
  imgSize : UInt32
  deriving DecidableEq

/-- `bmp_row_width`, in unsigned arithmetic. -/
def bmpRowWidth (h : BmpHeader) : UInt32 := 4 * ((3 * h.imgWidth + 3) / 4)

/-! ## Reading the BMP -/

/-- Four bytes as a 32-bit value, low byte first. -/
def dword (bytes : List UInt8) (pos : ℕ) : UInt32 :=
  UInt32.ofNat ((bytes.getD pos 0).toNat + 256 * (bytes.getD (pos + 1) 0).toNat +
    65536 * (bytes.getD (pos + 2) 0).toNat + 16777216 * (bytes.getD (pos + 3) 0).toNat)

/-- `fread (h, sizeof (*h), 1, in)` at position `pos`. -/
def freadHeader (bytes : List UInt8) (pos : ℕ) : Option BmpHeader :=
  if pos + 36 ≤ bytes.length then
    some {
      fileSize := dword bytes pos
      reserved := dword bytes (pos + 4)
      pixelOffset := dword bytes (pos + 8)
      dibHeaderSize := dword bytes (pos + 12)
      imgWidth := dword bytes (pos + 16)
      imgHeight := dword bytes (pos + 20)
      planes := word (bytes.getD (pos + 24) 0) (bytes.getD (pos + 25) 0)
      bitsPerPixel := word (bytes.getD (pos + 26) 0) (bytes.getD (pos + 27) 0)
      compressionType := dword bytes (pos + 28)
      imgSize := dword bytes (pos + 32) }
  else none

/-- The checks of `bmp_header_check` on the fields. -/
def BmpHeader.valid (h : BmpHeader) : Bool :=
  h.imgWidth ≤ 4096 && h.imgHeight ≤ 4096 && h.planes == 1 && h.bitsPerPixel == 24 &&
    h.compressionType == 0 && h.imgSize == bmpRowWidth h * h.imgHeight

/-- `bmp_header_check`: the header, if the file starts with `"BM"` and a valid one. -/
def bmpHeaderCheck (bytes : List UInt8) : Option BmpHeader :=
  if bytes[0]? = some 0x42 ∧ bytes[1]? = some 0x4D then
    (freadHeader bytes 2).filter BmpHeader.valid
  else none

/-! ## Writing the image -/

/-- The 2:2:2 color of an object pixel; any bright yellow is transparent. -/
def objectColor (red green blue : UInt8) : UInt8 :=
  let vgaColor := (red >>> 6) <<< 4 ||| (green >>> 6) <<< 2 ||| blue >>> 6
  if vgaColor = 0x3C then objClrTransp else vgaColor

/-- The 5:6:5 color of a room pixel. -/
def roomColor (red green blue : UInt8) : UInt16 :=
  (red >>> 3).toUInt16 <<< 11 ||| (green >>> 2).toUInt16 <<< 5 ||| (blue >>> 3).toUInt16

/-- The bytes of a word, low byte first. -/
def wordBytes (w : UInt16) : List UInt8 := [w.toUInt8, (w >>> 8).toUInt8]

/-- The bytes of a pixel in the output file. -/
def outputPixel (writeObjectImage : Bool) (red green blue : UInt8) : List UInt8 :=
  if writeObjectImage then [objectColor red green blue] else wordBytes (roomColor red green blue)

/-- The output file, and whether every `fwrite` has succeeded. -/
abbrev Output : Type := List UInt8 × Bool

/-- `fwrite` of `data` to a disk with room for `room` bytes. -/
def fwrite (room : ℕ) (data file : List UInt8) : Output :=
  (file ++ data.take (room - file.length), decide (file.length + data.length ≤ room))

section Write

variable (writeObjectImage : Bool) (room : ℕ) (h : BmpHeader) {n : ℕ} (img : Vector UInt8 n)

/-- The body of the pixel loop of `write_output_file`. -/
def writePixel (y x : ℕ) : Output → Option Output
  | (file, false) => some (file, false)
  | (file, true) => do
      let rowWidth := (bmpRowWidth h).toNat
      let red ← img[rowWidth * y + 3 * x + 2]?
      let green ← img[rowWidth * y + 3 * x + 1]?
      let blue ← img[rowWidth * y + 3 * x]?
      some (fwrite room (outputPixel writeObjectImage red green blue) file)

/-- `photo_header_t`, as it is written. -/
def photoHeader (h : BmpHeader) : List UInt8 :=
  wordBytes h.imgWidth.toUInt16 ++ wordBytes h.imgHeight.toUInt16

/-- `write_output_file` with the image data `img`. -/
def writeOutputFile : Option Output :=
  attempts (fun y => attempts (writePixel writeObjectImage room h img y) h.imgWidth.toNat)
    h.imgHeight.toNat (fwrite room (photoHeader h) [])

end Write

end MachineProblems.Program.Mp2photo
