import MachineProblems.Program.Adventure.StatusBar

/-!
# What the status bar is to show

A line of text on the status bar: the glyphs of its characters side by side, eight columns each and
from a first column on, with one blank scan line above and one below.
-/

set_option autoImplicit false

namespace MachineProblems.Model.StatusLine

open MachineProblems.Program.Adventure

/-- The color of the text. -/
def ink : UInt8 := 0x3C

/-- The color of the bar. -/
def background : UInt8 := 3

/-- Where the image of the status bar has its pixel `(x, y)`: the planes one behind the other, 80
addresses for a scan line in each. -/
def pixelAddr (x y : ℕ) : ℕ := x % 4 * totalStatusAddr + 80 * y + x / 4

/-- The pixel `(x, y)` of an image. -/
def pixel (image : ℤ → UInt8) (x y : ℕ) : UInt8 := image (pixelAddr x y)

/-- `(x, y)` lies on a set bit of one of the `n` characters of a line that starts at column
`first`. -/
def OnGlyph (line : ℕ → UInt8) (first n x y : ℕ) : Prop :=
  ∃ k < n, ∃ i < 16, ∃ m < 8, fontBit (line k) i m = true ∧ x = 8 * k + first + m ∧ y = i + 1

/-- The image shows the line: ink where a glyph has a bit, background everywhere else. -/
def ShowsLine (image : ℤ → UInt8) (line : ℕ → UInt8) (first n : ℕ) : Prop :=
  ∀ x < 320, ∀ y < 18, (OnGlyph line first n x y → pixel image x y = ink) ∧
    (¬ OnGlyph line first n x y → pixel image x y = background)

/-- An image shows a line by its characters alone. -/
theorem ShowsLine.congr {image : ℤ → UInt8} {line line' : ℕ → UInt8} {first n : ℕ}
    (h : ShowsLine image line first n) (hline : ∀ k < n, line k = line' k) :
    ShowsLine image line' first n := by
  intro x hx y hy
  have hsame : OnGlyph line first n x y ↔ OnGlyph line' first n x y := by
    refine exists_congr fun k => and_congr_right fun hk => ?_
    rw [hline k hk]
  rw [← hsame]
  exact h x hx y hy

/-- The line without a message: the room's name at the left, the typed text at the right and blanks
between them. -/
def plainLine (written room : CString) (k : ℕ) : UInt8 :=
  if k < room.length then room.bytes k
  else if 40 - written.length ≤ k then written.bytes (k - (40 - written.length) : ℕ)
  else 32

/-- The first column of a message of `n` characters. -/
def messageColumn (n : ℕ) : ℕ := 4 * ((60 - n) / 2)

/-- **The bar without a message**: nothing but the characters of the name and those of the text with
its terminator is read, and the image shows the 40 cells of the line. -/
def PlainBar (buffer : ℤ → UInt8) (written room msg : CString) : Prop :=
  ∃ image, textToGraphics buffer (written.upTo (written.length + 1)) (room.upTo room.length) msg =
      some image ∧ ShowsLine image (plainLine written room) 0 40

/-- **The bar with a message**: no write leaves the buffer, the columns of every character lie on
the screen, and the image shows the message there and nothing else. -/
def MessageBar (buffer : ℤ → UInt8) (written room msg : CString) : Prop :=
  ∃ image, textToGraphics buffer written room msg = some image ∧
    (∀ k < msg.length, ∀ m < 8, 8 * k + messageColumn msg.length + m < 320) ∧
    ShowsLine image (fun k => msg.bytes k) (messageColumn msg.length) msg.length

end MachineProblems.Model.StatusLine
