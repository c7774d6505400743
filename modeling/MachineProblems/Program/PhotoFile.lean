import MachineProblems.Program.Quantizer
import Mathlib.Data.Vector.Basic

/-!
# Reading a room photo

`read_photo` of `mp2/photo.c`.  A file is its bytes, a stream its position; C's early
`return NULL` inside the loops is the position `none`, after which nothing more is read.
A `Photo` carries the checks on its header and the size of its pixel block.
-/

set_option autoImplicit false

namespace MachineProblems.Program.PhotoFile

open MachineProblems.Library MachineProblems.Program.Quantizer

/-- `MAX_PHOTO_WIDTH`. -/
abbrev maxPhotoWidth : ℕ := 1024

/-- `MAX_PHOTO_HEIGHT`. -/
abbrev maxPhotoHeight : ℕ := 1024

/-- `photo_t`. -/
structure Photo where
  width : ℕ
  height : ℕ
  palette : Palette
  img : Vector UInt8 (width * height)
  width_le : width ≤ maxPhotoWidth
  height_le : height ≤ maxPhotoHeight

/-! A photo may be as large as the view of the game. -/

theorem windowWidth_le : 320 ≤ maxPhotoWidth := by decide

theorem windowHeight_le : 182 ≤ maxPhotoHeight := by decide

/-- `image_t`: an object image, its header two 16-bit sizes. -/
structure Image where
  width : ℕ
  height : ℕ
  img : Vector UInt8 (width * height)
  width_lt : width < 65536
  height_lt : height < 65536

/-- Two bytes as a 16-bit value, low byte first. -/
def word (lo hi : UInt8) : UInt16 := UInt16.ofNat (lo.toNat + 256 * hi.toNat)

/-- `fread (.., 2, 1, in)` at position `pos`: the word and the next position. -/
def fread (bytes : List UInt8) (pos : ℕ) : Option (UInt16 × ℕ) := do
  let lo ← bytes[pos]?
  let hi ← bytes[pos + 1]?
  some (word lo hi, pos + 2)

section Loop

variable {σ : Type}

/-- The body of both pixel loops: read a word or return. -/
def readPixel (bytes : List UInt8) (store : UInt16 → σ → σ) : σ × Option ℕ → σ × Option ℕ
  | (s, none) => (s, none)
  | (s, some pos) =>
      match fread bytes pos with
      | none => (s, none)
      | some (pixel, next) => (store pixel s, some next)

/-- The nested loops `for (y = height; y-- > 0; ) for (x = 0; width > x; x++)`. -/
def pixelLoop (bytes : List UInt8) {width height : ℕ}
    (store : Fin height → Fin width → UInt16 → σ → σ) (s : σ) (pos : ℕ) : σ × Option ℕ :=
  iterations (fun (i : Fin height) t =>
    iterations (fun x => readPixel bytes (store i.rev x)) t width) (s, some pos) height

end Loop

/-- `p->hdr.width * y + x` is inside the pixel block. -/
theorem pixelIndex_lt {width height : ℕ} (y : Fin height) (x : Fin width) :
    width * y + x < width * height :=
  calc width * y + x < width * y + width := Nat.add_lt_add_left x.isLt _
    _ = width * (y + 1) := by rw [Nat.mul_succ]
    _ ≤ width * height := Nat.mul_le_mul_left _ y.isLt

section Read

variable (qsort : (Fin 4096 → Node) → Fin 4096 → Node)

/-- The two passes of `read_photo`, from position `pos` behind the header. -/
def buildPhoto (bytes : List UInt8) {width height : ℕ}
    (hdr : width ≤ maxPhotoWidth ∧ height ≤ maxPhotoHeight)
    (block : Vector UInt8 (width * height)) (pos : ℕ) (s : Tables) : Tables × Option Photo :=
  match pixelLoop bytes (fun (_ : Fin height) (_ : Fin width) pixel s => insertValues s pixel)
      (arrInitialize s) pos with
  | (s, none) => (s, none)
  | (s, some _) =>
    let (s, palette) := setPltValues qsort s fun _ => none
    -- `fseek (in, 0, SEEK_SET)`: the mapping pass starts at byte 0 of the file
    match pixelLoop bytes (fun y x pixel (img : Vector UInt8 (width * height)) =>
        img.set (width * y + x) (calculateVga s pixel) (pixelIndex_lt y x)) block 0 with
    | (_, none) => (s, none)
    | (img, some _) => (s, some ⟨width, height, palette, img, hdr.1, hdr.2⟩)

/-- `read_photo`.  `file` is what `fopen` finds, `malloc` the block for the pixels; the
tables are file-scope variables and outlive the call. -/
def readPhoto (malloc : (n : ℕ) → Option (Vector UInt8 n)) (file : Option (List UInt8))
    (s : Tables) : Tables × Option Photo :=
  match file with
  | none => (s, none)
  | some bytes =>
    match fread bytes 0, fread bytes 2 with
    | some (w, _), some (h, pos) =>
      if hdr : w.toNat ≤ maxPhotoWidth ∧ h.toNat ≤ maxPhotoHeight then
        match malloc (w.toNat * h.toNat) with
        | none => (s, none)
        | some block => buildPhoto qsort bytes hdr block pos s
      else (s, none)
    | _, _ => (s, none)

end Read

/-! ## Object images -/

/-- `MAX_OBJECT_WIDTH`. -/
abbrev maxObjectWidth : ℕ := 160

/-- `MAX_OBJECT_HEIGHT`. -/
abbrev maxObjectHeight : ℕ := 100

/-- The body of the pixel loop of `read_obj_image`: read a byte and store it, or return. -/
def readObjPixel (bytes : List UInt8) {width height : ℕ} (y : Fin height) (x : Fin width) :
    Vector UInt8 (width * height) × Option ℕ → Vector UInt8 (width * height) × Option ℕ
  | (img, none) => (img, none)
  | (img, some pos) =>
      match bytes[pos]? with
      | none => (img, none)
      | some pixel => (img.set (width * y + x) pixel (pixelIndex_lt y x), some (pos + 1))

/-- The nested loops of `read_obj_image` from position `pos` on. -/
def objLoop (bytes : List UInt8) {width height : ℕ} (block : Vector UInt8 (width * height))
    (pos : ℕ) : Vector UInt8 (width * height) × Option ℕ :=
  iterations (fun (i : Fin height) t => iterations (readObjPixel bytes i.rev) t width)
    (block, some pos) height

/-- `read_obj_image`, with what `fopen` finds and the block that `malloc` returns. -/
def readObjImage (malloc : (n : ℕ) → Option (Vector UInt8 n)) (file : Option (List UInt8)) :
    Option Image := do
  let bytes ← file
  let (w, _) ← fread bytes 0
  let (h, pos) ← fread bytes 2
  if w.toNat ≤ maxObjectWidth ∧ h.toNat ≤ maxObjectHeight then
    let block ← malloc (w.toNat * h.toNat)
    let (img, done) := objLoop bytes block pos
    done.map fun _ => ⟨w.toNat, h.toNat, img, w.toNat_lt, h.toNat_lt⟩
  else none

end MachineProblems.Program.PhotoFile
