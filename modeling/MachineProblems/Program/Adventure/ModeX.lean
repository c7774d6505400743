import MachineProblems.Library.Memory

/-!
# The scrolling screen

The build buffer and the mode X display of `mp2/modex.c`.  An address is an index into `build`;
a store outside the array faults, and what lies beside the array is whatever it is.  An `int` is
an integer: `>> 2` is the division by four that rounds down, and `& 3` its remainder.
-/

set_option autoImplicit false

namespace MachineProblems.Program.Adventure

open MachineProblems.Library

/-- `SCROLL_X_DIM`. -/
def scrollXDim : ℕ := 320

/-- `SCROLL_Y_DIM`. -/
def scrollYDim : ℕ := 182

/-- `SCROLL_X_WIDTH`: the addresses of a row. -/
def scrollXWidth : ℕ := scrollXDim / 4

/-- `SCROLL_SIZE`: the addresses of a plane. -/
def scrollSize : ℕ := scrollXWidth * scrollYDim

/-- `SCREEN_SIZE`. -/
def screenSize : ℕ := scrollSize * 4 + 1

/-- `BUILD_BUF_SIZE`. -/
def buildBufSize : ℕ := screenSize + 20000

/-- `BUILD_BASE_INIT`. -/
def buildBaseInit : ℕ := (buildBufSize - screenSize) / 2

/-- `MEM_FENCE_WIDTH`. -/
def memFenceWidth : ℕ := 256

/-- The size of the array `build`. -/
def buildSize : ℕ := buildBufSize + 2 * memFenceWidth

/-- The file-scope variables of `modex.c`; `memImage` is the video memory, plane by plane. -/
structure Screen where
  build : ℤ → UInt8
  img3Off : ℤ
  img3 : ℤ
  showX : ℤ
  showY : ℤ
  targetImg : UInt16
  memImage : ℕ → ℕ → UInt8

/-- `set_mode_X`, whatever is in the memories. -/
def setModeX (build : ℤ → UInt8) (memImage : ℕ → ℕ → UInt8) : Screen where
  build := build
  img3Off := buildBaseInit
  img3 := buildBaseInit + memFenceWidth
  showX := 0
  showY := 0
  targetImg := 0x05A0
  memImage := memImage

/-- `set_view_window`. -/
def setViewWindow (s : Screen) (scrX scrY : ℤ) : Option Screen :=
  let oldX := s.showX
  let oldY := s.showY
  let s := { s with showX := scrX, showY := scrY }
  if s.img3Off + scrX / 4 + scrY * scrollXWidth ≥ 0 ∧
      s.img3Off + 3 * scrollSize + (scrX + scrollXDim - 1) / 4 +
        (scrY + scrollYDim - 1) * scrollXWidth < buildBufSize then
    some s
  else
    let img3Off := buildBaseInit - scrX / 4 - scrY * scrollXWidth
    let moved := { s with img3Off := img3Off, img3 := img3Off + memFenceWidth }
    if scrX ≤ oldX - scrollXDim ∨ scrX ≥ oldX + scrollXDim ∨
        scrY ≤ oldY - scrollYDim ∨ scrY ≥ oldY + scrollYDim then
      some moved
    else
      let startX := if scrX > oldX then scrX else oldX
      let endX := (if scrX > oldX then oldX else scrX) + scrollXDim - 1
      let startY := if scrY > oldY then scrY else oldY
      let endY := (if scrY > oldY then oldY else scrY) + scrollYDim - 1
      let startOff := startX / 4 + startY * scrollXWidth
      let startAddr := s.img3 + startOff
      let length := endX / 4 + endY * scrollXWidth + 1 - startOff + 3 * scrollSize
      let targetAddr := moved.img3 + startOff
      let copy := if startAddr < targetAddr then copyDown else copyUp
      (copy buildSize s.build targetAddr startAddr length.toNat).map fun build =>
        { moved with build := build }

/-- `copy_image`: 16000 bytes from `img` on into one plane of the video memory. -/
def copyImage (build : ℤ → UInt8) (img : ℤ) (scrAddr : ℕ) (plane : ℕ → UInt8) : ℕ → UInt8 :=
  fun k => if scrAddr ≤ k ∧ k < scrAddr + 16000 then build (img + (k - scrAddr)) else plane k

/-- `show_screen`. -/
def showScreen (s : Screen) : Screen :=
  let pOff := 3 - s.showX % 4
  let targetImg := s.targetImg ^^^ 0x4000
  let addr := s.img3 + s.showX / 4 + s.showY * scrollXWidth
  -- the write mask lets the copy of round `i` reach plane `i` only
  { s with
    targetImg := targetImg
    memImage := fun i =>
      if i < 4 then
        copyImage s.build (addr + (pOff - i + 4) % 4 * scrollSize + if pOff < i then 1 else 0)
          targetImg.toNat (s.memImage i)
      else s.memImage i }

/-- What a line function given to `set_mode_X` makes of a position and a buffer. -/
abbrev LineFn := ℤ → ℤ → (ℕ → UInt8) → Option (ℕ → UInt8)

/-- The local `buf` of the two functions below, before it is filled. -/
def emptyBuf : ℕ → UInt8 := fun _ => 0

/-- The body of the copy loop of `draw_vert_line`, on `build` and `addr`. -/
def vertStroke (buf : ℕ → UInt8) (pOff : ℤ) (i : ℕ) :
    (ℤ → UInt8) × ℤ → Option ((ℤ → UInt8) × ℤ)
  | (build, addr) => do
      let build ← store buildSize build (addr + pOff * scrollSize) (buf i)
      some (build, addr + scrollXWidth)

/-- `draw_vert_line`: the screen and the value returned. -/
def drawVertLine (vertLineFn : LineFn) (s : Screen) (x : ℤ) : Option (Screen × ℤ) :=
  if x < 0 ∨ x ≥ scrollXDim then some (s, -1)
  else do
    let x := x + s.showX
    let buf ← vertLineFn x s.showY emptyBuf
    let addr := s.img3 + x / 4 + s.showY * scrollXWidth
    let pOff := 3 - x % 4
    let (build, _) ← attempts (vertStroke buf pOff) scrollYDim (s.build, addr)
    some ({ s with build := build }, 0)

/-- The body of the copy loop of `draw_horiz_line`, on `build`, `addr` and `p_off`. -/
def horizStroke (buf : ℕ → UInt8) (i : ℕ) :
    (ℤ → UInt8) × ℤ × ℤ → Option ((ℤ → UInt8) × ℤ × ℤ)
  | (build, addr, pOff) => do
      let build ← store buildSize build (addr + pOff * scrollSize) (buf i)
      if pOff - 1 < 0 then some (build, addr + 1, 3) else some (build, addr, pOff - 1)

/-- `draw_horiz_line`: the screen and the value returned. -/
def drawHorizLine (horizLineFn : LineFn) (s : Screen) (y : ℤ) : Option (Screen × ℤ) :=
  if y < 0 ∨ y ≥ scrollYDim then some (s, -1)
  else do
    let y := y + s.showY
    let buf ← horizLineFn s.showX y emptyBuf
    let addr := s.img3 + s.showX / 4 + y * scrollXWidth
    let pOff := 3 - s.showX % 4
    let (build, _, _) ← attempts (horizStroke buf) scrollXDim (s.build, addr, pOff)
    some ({ s with build := build }, 0)

end MachineProblems.Program.Adventure
