import MachineProblems.Program.Adventure.ModeX

/-!
# The fence around the build buffer

Before and behind the build buffer the array `build` has a fence of magic bytes, which
`set_mode_X` sets up and `clear_mode_X` checks.  The functions that access the array are given
here once more with a guard: `setViewWindowIn ok`, `drawVertLineIn ok` and `drawHorizLineIn ok`
fault at an index that is not `ok`, and are else what they are in `mp2/modex.c`.
-/

set_option autoImplicit false

namespace MachineProblems.Program.Adventure

open MachineProblems.Library

/-- `MEM_FENCE_MAGIC`. -/
def memFenceMagic : UInt8 := 0xF3

/-- The array after the loop of `set_mode_X` over the fences. -/
def fenced (build : ℤ → UInt8) : ℤ → UInt8 := fun a =>
  if 0 ≤ a ∧ a < memFenceWidth ∨
      buildBufSize + memFenceWidth ≤ a ∧ a < buildBufSize + 2 * memFenceWidth then memFenceMagic
  else build a

/-- What `clear_mode_X` prints. -/
def clearModeX (s : Screen) : List String :=
  (if (List.range memFenceWidth).any fun i => s.build i != memFenceMagic then
    ["lower build fence was broken"] else []) ++
  if (List.range memFenceWidth).any fun i =>
      s.build (buildBufSize + memFenceWidth + i) != memFenceMagic then
    ["upper build fence was broken"] else []

/-- The indices of the build buffer within the array. -/
def InBuffer (a : ℤ) : Prop := memFenceWidth ≤ a ∧ a < memFenceWidth + buildBufSize

instance (a : ℤ) : Decidable (InBuffer a) := by
  unfold InBuffer
  infer_instance

section Guarded

variable (ok : ℤ → Prop) [DecidablePred ok]

/-- `set_view_window` under the guard. -/
def setViewWindowIn (s : Screen) (scrX scrY : ℤ) : Option Screen :=
  let oldX := s.showX
  let oldY := s.showY
  let s := { s with showX := scrX, showY := scrY }
  if s.img3Off + scrX / 4 + scrY * scrollXWidth ≥ 0 ∧
      s.img3Off + 3 * scrollSize + (scrX + scrollXDim - 1) / 4 +
        (scrY + scrollYDim - 1) * scrollXWidth < buildBufSize then
    some s
  else
    let img3Off := buildBaseInit - scrX / 4 - scrY * scrollXWidth
    let moved := { s with img3Off := img3Off, img3 := img3Off + memFenceWidth }
    if scrX ≤ oldX - scrollXDim ∨ scrX ≥ oldX + scrollXDim ∨
        scrY ≤ oldY - scrollYDim ∨ scrY ≥ oldY + scrollYDim then
      some moved
    else
      let startX := if scrX > oldX then scrX else oldX
      let endX := (if scrX > oldX then oldX else scrX) + scrollXDim - 1
      let startY := if scrY > oldY then scrY else oldY
      let endY := (if scrY > oldY then oldY else scrY) + scrollYDim - 1
      let startOff := startX / 4 + startY * scrollXWidth
      let startAddr := s.img3 + startOff
      let length := endX / 4 + endY * scrollXWidth + 1 - startOff + 3 * scrollSize
      let targetAddr := moved.img3 + startOff
      let copy := if startAddr < targetAddr then copyDownIn ok else copyUpIn ok
      (copy s.build targetAddr startAddr length.toNat).map fun build =>
        { moved with build := build }

/-- The body of the copy loop of `draw_vert_line` under the guard. -/
def vertStrokeIn (buf : ℕ → UInt8) (pOff : ℤ) (i : ℕ) :
    (ℤ → UInt8) × ℤ → Option ((ℤ → UInt8) × ℤ)
  | (build, addr) => do
      let build ← storeIn ok build (addr + pOff * scrollSize) (buf i)
      some (build, addr + scrollXWidth)

/-- `draw_vert_line` under the guard. -/
def drawVertLineIn (vertLineFn : LineFn) (s : Screen) (x : ℤ) : Option (Screen × ℤ) :=
  if x < 0 ∨ x ≥ scrollXDim then some (s, -1)
  else do
    let x := x + s.showX
    let buf ← vertLineFn x s.showY emptyBuf
    let addr := s.img3 + x / 4 + s.showY * scrollXWidth
    let pOff := 3 - x % 4
    let (build, _) ← attempts (vertStrokeIn ok buf pOff) scrollYDim (s.build, addr)
    some ({ s with build := build }, 0)

/-- The body of the copy loop of `draw_horiz_line` under the guard. -/
def horizStrokeIn (buf : ℕ → UInt8) (i : ℕ) :
    (ℤ → UInt8) × ℤ × ℤ → Option ((ℤ → UInt8) × ℤ × ℤ)
  | (build, addr, pOff) => do
      let build ← storeIn ok build (addr + pOff * scrollSize) (buf i)
      if pOff - 1 < 0 then some (build, addr + 1, 3) else some (build, addr, pOff - 1)

/-- `draw_horiz_line` under the guard. -/
def drawHorizLineIn (horizLineFn : LineFn) (s : Screen) (y : ℤ) : Option (Screen × ℤ) :=
  if y < 0 ∨ y ≥ scrollYDim then some (s, -1)
  else do
    let y := y + s.showY
    let buf ← horizLineFn s.showX y emptyBuf
    let addr := s.img3 + s.showX / 4 + y * scrollXWidth
    let pOff := 3 - s.showX % 4
    let (build, _, _) ← attempts (horizStrokeIn ok buf) scrollXDim (s.build, addr, pOff)
    some ({ s with build := build }, 0)

end Guarded

/-! The guard that allows the array is the one of `mp2/modex.c`. -/

theorem copy_eq_in {c : Prop} [Decidable c] (size : ℕ) (m : ℤ → UInt8) :
    (if c then copyDown else copyUp) size m =
      (if c then copyDownIn (InBlock size) else copyUpIn (InBlock size)) m := by
  split <;> rfl

theorem setViewWindow_eq_in : setViewWindow = setViewWindowIn (InBlock buildSize) := by
  funext s scrX scrY
  unfold setViewWindow setViewWindowIn
  simp only [copy_eq_in]

theorem drawVertLine_eq_in : drawVertLine = drawVertLineIn (InBlock buildSize) := rfl

theorem drawHorizLine_eq_in : drawHorizLine = drawHorizLineIn (InBlock buildSize) := rfl

/-- A call of one of the three functions; `fill` is what the line function leaves in the buffer. -/
inductive ScreenCall where
  | setViewWindow (scrX scrY : ℤ)
  | drawVertLine (fill : ℤ → ℤ → (ℕ → UInt8) → ℕ → UInt8) (x : ℤ)
  | drawHorizLine (fill : ℤ → ℤ → (ℕ → UInt8) → ℕ → UInt8) (y : ℤ)

/-- One call. -/
def screenStep (s : Screen) : ScreenCall → Option Screen
  | .setViewWindow scrX scrY => setViewWindow s scrX scrY
  | .drawVertLine fill x =>
      (drawVertLine (fun x y buf => some (fill x y buf)) s x).map Prod.fst
  | .drawHorizLine fill y =>
      (drawHorizLine (fun x y buf => some (fill x y buf)) s y).map Prod.fst

/-- One call under the guard. -/
def screenStepIn (ok : ℤ → Prop) [DecidablePred ok] (s : Screen) : ScreenCall → Option Screen
  | .setViewWindow scrX scrY => setViewWindowIn ok s scrX scrY
  | .drawVertLine fill x =>
      (drawVertLineIn ok (fun x y buf => some (fill x y buf)) s x).map Prod.fst
  | .drawHorizLine fill y =>
      (drawHorizLineIn ok (fun x y buf => some (fill x y buf)) s y).map Prod.fst

theorem screenStep_eq_in : screenStep = screenStepIn (InBlock buildSize) := by
  funext s call
  cases call with
  | setViewWindow scrX scrY => exact congrFun (congrFun (congrFun setViewWindow_eq_in s) scrX) scrY
  | drawVertLine fill x => rfl
  | drawHorizLine fill y => rfl

end MachineProblems.Program.Adventure
