import MachineProblems.Program.Adventure.Fence

/-!
# The build buffer holds the window

A pixel of the map has one address in the build buffer as long as the buffer is not moved, and
within the view window no two pixels share an address.  So drawing a line changes that line of
the window and nothing else of it, and moving the window keeps what both windows show, also when
the buffer moves.  `show_screen` shows the window.
-/

set_option autoImplicit false

namespace MachineProblems.Analysis.Adventure

open MachineProblems.Library MachineProblems.Program.Adventure

/-! ## Addresses -/

theorem scrollXDim_eq : scrollXDim = 320 := rfl

theorem scrollYDim_eq : scrollYDim = 182 := rfl

theorem scrollXWidth_eq : scrollXWidth = 80 := rfl

theorem scrollSize_eq : scrollSize = 14560 := rfl

theorem buildBufSize_eq : buildBufSize = 78241 := rfl

theorem buildBaseInit_eq : buildBaseInit = 10000 := rfl

theorem memFenceWidth_eq : memFenceWidth = 256 := rfl

theorem buildSize_eq : buildSize = 78753 := rfl

/-- The address of the pixel `(x, y)` of the map. -/
def slot (img3 x y : ℤ) : ℤ := img3 + (3 - x % 4) * scrollSize + x / 4 + y * scrollXWidth

/-- The pixel `(x, y)` of the map in the build buffer. -/
def pixelAt (s : Screen) (x y : ℤ) : UInt8 := s.build (slot s.img3 x y)

/-- The pixel is in the view window. -/
def InWindow (s : Screen) (x y : ℤ) : Prop :=
  s.showX ≤ x ∧ x < s.showX + scrollXDim ∧ s.showY ≤ y ∧ y < s.showY + scrollYDim

/-- The window lies in the build buffer. -/
structure Fits (s : Screen) : Prop where
  img3 : s.img3 = s.img3Off + memFenceWidth
  first : 0 ≤ s.img3Off + s.showX / 4 + s.showY * scrollXWidth
  last : s.img3Off + 3 * scrollSize + (s.showX + scrollXDim - 1) / 4 +
    (s.showY + scrollYDim - 1) * scrollXWidth < buildBufSize

theorem slot_inBuffer {s : Screen} (h : Fits s) {x y : ℤ} (hin : InWindow s x y) :
    InBuffer (slot s.img3 x y) := by
  obtain ⟨himg3, hfirst, hlast⟩ := h
  obtain ⟨hx, hx', hy, hy'⟩ := hin
  simp only [scrollXDim_eq, scrollYDim_eq, scrollXWidth_eq, scrollSize_eq, buildBufSize_eq,
    memFenceWidth_eq] at *
  unfold InBuffer slot
  simp only [scrollXWidth_eq, scrollSize_eq, buildBufSize_eq, memFenceWidth_eq]
  omega

/-- The build buffer is part of the array. -/
theorem inBlock_of_inBuffer {a : ℤ} (h : InBuffer a) : InBlock buildSize a := by
  obtain ⟨hlo, hhi⟩ := h
  simp only [buildBufSize_eq, memFenceWidth_eq] at hlo hhi
  unfold InBlock
  rw [buildSize_eq]
  omega

theorem slot_inBlock {s : Screen} (h : Fits s) {x y : ℤ} (hin : InWindow s x y) :
    InBlock buildSize (slot s.img3 x y) := inBlock_of_inBuffer (slot_inBuffer h hin)

/-- The address within a plane, from the first address of the window on. -/
def planeOffset (s : Screen) (x y : ℤ) : ℤ := x / 4 - s.showX / 4 + 80 * (y - s.showY)

/-- A plane of the window takes `scrollSize` addresses: those whose pixels come first in a group
of four start at 1. -/
theorem planeOffset_bounds {s : Screen} {x y : ℤ} (hin : InWindow s x y) :
    0 ≤ planeOffset s x y ∧ planeOffset s x y ≤ 14560 ∧
      (planeOffset s x y = 0 → s.showX % 4 ≤ x % 4) ∧
      (planeOffset s x y = 14560 → x % 4 < s.showX % 4) := by
  obtain ⟨hx, hx', hy, hy'⟩ := hin
  simp only [scrollXDim_eq, scrollYDim_eq] at *
  unfold planeOffset
  refine ⟨?_, ?_, ?_, ?_⟩
  · omega
  · omega
  · omega
  · omega

theorem slot_eq_planeOffset (s : Screen) (x y : ℤ) : slot s.img3 x y =
    s.img3 + s.showX / 4 + 80 * s.showY + (3 - x % 4) * 14560 + planeOffset s x y := by
  unfold slot planeOffset
  rw [scrollSize_eq, scrollXWidth_eq]
  omega

/-- Two pixels with one address are in one plane. -/
theorem plane_of_slot {s : Screen} {x y x' y' : ℤ} (hin : InWindow s x y)
    (hin' : InWindow s x' y') (heq : slot s.img3 x y = slot s.img3 x' y') : x % 4 = x' % 4 := by
  obtain ⟨h0, hle, hzero, hfull⟩ := planeOffset_bounds hin
  obtain ⟨h0', hle', hzero', hfull'⟩ := planeOffset_bounds hin'
  rw [slot_eq_planeOffset, slot_eq_planeOffset] at heq
  omega

/-- **Within the window no two pixels share an address.** -/
theorem slot_injective {s : Screen} {x y x' y' : ℤ} (hin : InWindow s x y)
    (hin' : InWindow s x' y') (heq : slot s.img3 x y = slot s.img3 x' y') : x = x' ∧ y = y' := by
  have hplane := plane_of_slot hin hin' heq
  rw [slot_eq_planeOffset, slot_eq_planeOffset, hplane] at heq
  have hoffset : planeOffset s x y = planeOffset s x' y' := by omega
  unfold planeOffset at hoffset
  obtain ⟨hx, hx', hy, hy'⟩ := hin
  obtain ⟨hx₀, hx₁, hy₀, hy₁⟩ := hin'
  simp only [scrollXDim_eq, scrollYDim_eq] at *
  constructor
  · omega
  · omega

/-! ## Moving the window -/

/-- The window of `s'` lies at `(x, y)`, and what the window of `s` showed of it is still there. -/
structure Shifted (s s' : Screen) (x y : ℤ) : Prop where
  fits : Fits s'
  showX : s'.showX = x
  showY : s'.showY = y
  target : s'.targetImg = s.targetImg
  memory : s'.memImage = s.memImage
  kept : ∀ a b, InWindow s a b → InWindow s' a b → pixelAt s' a b = pixelAt s a b

/-- Where two windows overlap: from the larger start to the end of the smaller one. -/
structure Overlap (old new dim start finish : ℤ) : Prop where
  old_le : old ≤ start
  new_le : new ≤ start
  le_old : finish ≤ old + dim - 1
  le_new : finish ≤ new + dim - 1
  start_eq : start = old ∨ start = new
  finish_eq : finish = old + dim - 1 ∨ finish = new + dim - 1

theorem overlap_of_windows {old new dim : ℤ} :
    Overlap old new dim (if new > old then new else old)
      ((if new > old then old else new) + dim - 1) := by
  constructor
  all_goals split_ifs <;> omega

/-- Windows that are not apart meet. -/
theorem overlap_le {old new dim : ℤ} (h : old - dim < new) (h' : new < old + dim) :
    (if new > old then new else old) ≤ (if new > old then old else new) + dim - 1 := by
  split_ifs <;> omega

theorem Overlap.mem {old new dim start finish a : ℤ} (h : Overlap old new dim start finish)
    (hold : old ≤ a ∧ a < old + dim) (hnew : new ≤ a ∧ a < new + dim) :
    start ≤ a ∧ a ≤ finish := by
  obtain ⟨-, -, -, -, hstart, hfinish⟩ := h
  constructor
  · rcases hstart with rfl | rfl
    · exact hold.1
    · exact hnew.1
  · rcases hfinish with rfl | rfl
    · omega
    · omega

/-- The copied range, moved with the buffer. -/
theorem slot_copied {s : Screen} {m' : ℤ → UInt8} {img3 off : ℤ} {length : ℕ}
    (hm' : Copied s.build m' (img3 + off) (s.img3 + off) length) {a b : ℤ}
    (hfrom : s.img3 + off ≤ slot s.img3 a b)
    (hto : slot s.img3 a b < s.img3 + off + length) :
    m' (slot img3 a b) = s.build (slot s.img3 a b) := by
  have hslot : slot img3 a b = slot s.img3 a b - s.img3 + img3 := by
    unfold slot
    omega
  rw [hm', if_pos ⟨by omega, by omega⟩, hslot]
  congr 1
  omega

/-- The window in the middle of the build buffer. -/
def centered (s : Screen) (x y : ℤ) : Screen :=
  { s with
    showX := x
    showY := y
    img3Off := buildBaseInit - x / 4 - y * scrollXWidth
    img3 := buildBaseInit - x / 4 - y * scrollXWidth + memFenceWidth }

theorem fits_centered (s : Screen) (x y : ℤ) : Fits (centered s x y) := by
  refine ⟨rfl, ?_, ?_⟩
  · simp only [centered, buildBaseInit_eq]
    omega
  · simp only [centered, buildBaseInit_eq, scrollSize_eq, scrollXDim_eq, scrollYDim_eq,
      scrollXWidth_eq, buildBufSize_eq]
    omega

/-- When the windows overlap and the buffer moves, the range that is copied and the range that it
is copied to lie in the build buffer. -/
theorem overlap_inBuffer {s : Screen} (h : Fits s) {x y startX startY endX endY : ℤ}
    (hx : Overlap s.showX x scrollXDim startX endX) (hy : Overlap s.showY y scrollYDim startY endY)
    (hoverX : startX ≤ endX) (hoverY : startY ≤ endY) {off start target length : ℤ}
    (hoff : off = startX / 4 + startY * scrollXWidth) (hstart : start = s.img3 + off)
    (htarget : target = (centered s x y).img3 + off)
    (hlength : length = endX / 4 + endY * scrollXWidth + 1 - off + 3 * scrollSize) :
    0 ≤ length ∧ memFenceWidth ≤ start ∧ start + length ≤ memFenceWidth + buildBufSize ∧
      memFenceWidth ≤ target ∧ target + length ≤ memFenceWidth + buildBufSize := by
  obtain ⟨himg3, hfirst, hlast⟩ := h
  obtain ⟨hx₁, hx₂, hx₃, hx₄, -, -⟩ := hx
  obtain ⟨hy₁, hy₂, hy₃, hy₄, -, -⟩ := hy
  simp only [centered, scrollXDim_eq, scrollYDim_eq, scrollXWidth_eq, scrollSize_eq,
    buildBufSize_eq, buildBaseInit_eq, memFenceWidth_eq] at *
  subst hoff hstart htarget hlength
  refine ⟨?_, ?_, ?_, ?_, ?_⟩
  · omega
  · omega
  · omega
  · omega
  · omega

/-- The copy of `set_view_window` when the windows overlap and the buffer moves. -/
theorem copy_overlap {s : Screen} (h : Fits s) {x y startX startY endX endY : ℤ}
    (hx : Overlap s.showX x scrollXDim startX endX) (hy : Overlap s.showY y scrollYDim startY endY)
    (hoverX : startX ≤ endX) (hoverY : startY ≤ endY) :
    let off := startX / 4 + startY * scrollXWidth
    let start := s.img3 + off
    let target := (centered s x y).img3 + off
    let length := (endX / 4 + endY * scrollXWidth + 1 - off + 3 * scrollSize).toNat
    ∃ m', (if start < target then copyDown else copyUp) buildSize s.build target start length =
        some m' ∧
      ∀ a b, InWindow s a b → InWindow (centered s x y) a b →
        m' (slot (centered s x y).img3 a b) = s.build (slot s.img3 a b) := by
  intro off start target length
  obtain ⟨hnonneg, hstart, hstart', htarget, htarget'⟩ :=
    overlap_inBuffer h hx hy hoverX hoverY rfl rfl rfl rfl
  have hoff : off = startX / 4 + startY * (80 : ℕ) := rfl
  have hcount : (length : ℤ) = endX / 4 + endY * (80 : ℕ) + 1 - off + 3 * (14560 : ℕ) :=
    Int.toNat_of_nonneg hnonneg
  rw [← Int.toNat_of_nonneg hnonneg] at hstart' htarget'
  have harray : (buildSize : ℤ) = memFenceWidth + buildBufSize + 256 := rfl
  have hfence : (0 : ℤ) ≤ memFenceWidth := Int.natCast_nonneg _
  obtain ⟨m', hcopy, hm'⟩ := copy_copied (hfence.trans hstart)
    (show start + length ≤ buildSize by linarith) (hfence.trans htarget)
    (show target + length ≤ buildSize by linarith)
  refine ⟨m', hcopy, ?_⟩
  rintro a b ⟨ha, ha', hb, hb'⟩ ⟨ha₁, ha₁', hb₁, hb₁'⟩
  obtain ⟨haFrom, haTo⟩ := hx.mem ⟨ha, ha'⟩ ⟨ha₁, ha₁'⟩
  obtain ⟨hbFrom, hbTo⟩ := hy.mem ⟨hb, hb'⟩ ⟨hb₁, hb₁'⟩
  clear ha ha' hb hb' ha₁ ha₁' hb₁ hb₁' hstart hstart' htarget htarget'
  have hmoved : Copied s.build m' ((centered s x y).img3 + off) (s.img3 + off) length := hm'
  clear_value off start target length
  apply slot_copied hmoved
  · rw [hoff, slot, scrollSize_eq, scrollXWidth_eq]
    omega
  · rw [hcount, slot, scrollSize_eq, scrollXWidth_eq]
    omega

/-- **`set_view_window`** keeps the part of the old window that is in the new one. -/
theorem setViewWindow_shifted {s : Screen} (h : Fits s) (x y : ℤ) :
    ∃ s', setViewWindow s x y = some s' ∧ Shifted s s' x y := by
  unfold setViewWindow
  simp only []
  split
  · next hfit => exact ⟨_, rfl, ⟨h.img3, hfit.1, hfit.2⟩, rfl, rfl, rfl, rfl, fun _ _ _ _ => rfl⟩
  · split
    · next hapart =>
        refine ⟨centered s x y, rfl, fits_centered s x y, rfl, rfl, rfl, rfl, ?_⟩
        rintro a b ⟨ha, ha', hb, hb'⟩ ⟨ha₁, ha₁', hb₁, hb₁'⟩
        simp only [centered] at ha₁ ha₁' hb₁ hb₁'
        omega
    · next hover =>
        have hoverX : s.showX - scrollXDim < x ∧ x < s.showX + scrollXDim := by omega
        have hoverY : s.showY - scrollYDim < y ∧ y < s.showY + scrollYDim := by omega
        obtain ⟨m', hcopy, hkept⟩ :=
          copy_overlap h overlap_of_windows overlap_of_windows (overlap_le hoverX.1 hoverX.2)
            (overlap_le hoverY.1 hoverY.2)
        refine ⟨{ centered s x y with build := m' }, ?_, ?_⟩
        · exact Option.map_eq_some_iff.mpr ⟨m', hcopy, rfl⟩
        · obtain ⟨himg3, hfirst, hlast⟩ := fits_centered s x y
          exact ⟨⟨himg3, hfirst, hlast⟩, rfl, rfl, rfl, rfl, hkept⟩

/-- **`set_view_window` preserves the overlap**: a pixel in the old window and in the new one has
at its new address the value it had at its old one, whether or not the buffer was moved. -/
theorem setViewWindow_overlap (s : Screen) (himg3 : s.img3 = s.img3Off + memFenceWidth)
    (hfirst : 0 ≤ s.img3Off + s.showX / 4 + s.showY * scrollXWidth)
    (hlast : s.img3Off + 3 * scrollSize + (s.showX + scrollXDim - 1) / 4 +
      (s.showY + scrollYDim - 1) * scrollXWidth < buildBufSize) (scrX scrY : ℤ) :
    ∃ s', setViewWindow s scrX scrY = some s' ∧ s'.showX = scrX ∧ s'.showY = scrY ∧
      s'.img3 = s'.img3Off + memFenceWidth ∧
      ∀ x y : ℤ, s.showX ≤ x → x < s.showX + 320 → s.showY ≤ y → y < s.showY + 182 →
        scrX ≤ x → x < scrX + 320 → scrY ≤ y → y < scrY + 182 →
        s'.build (memFenceWidth + (s'.img3Off + x / 4 + 80 * y + (3 - x % 4) * scrollSize)) =
          s.build (memFenceWidth + (s.img3Off + x / 4 + 80 * y + (3 - x % 4) * scrollSize)) := by
  obtain ⟨s', hmove, hshift⟩ := setViewWindow_shifted ⟨himg3, hfirst, hlast⟩ scrX scrY
  have haddr (t : Screen) (ht : t.img3 = t.img3Off + memFenceWidth) (x y : ℤ) :
      slot t.img3 x y =
        memFenceWidth + (t.img3Off + x / 4 + 80 * y + (3 - x % 4) * scrollSize) := by
    rw [slot, ht, scrollXWidth_eq]
    omega
  refine ⟨s', hmove, hshift.showX, hshift.showY, hshift.fits.img3, ?_⟩
  intro x y hx hx' hy hy' hscrX hscrX' hscrY hscrY'
  have hold : InWindow s x y := ⟨hx, hx', hy, hy'⟩
  have hnew : InWindow s' x y := by
    rw [InWindow, hshift.showX, hshift.showY]
    exact ⟨hscrX, hscrX', hscrY, hscrY'⟩
  rw [← haddr s' hshift.fits.img3, ← haddr s himg3]
  exact hshift.kept x y hold hnew

/-- From the start of the game far to the right and down. -/
theorem setViewWindow_overlap_farCorner : ∃ s',
    setViewWindow (setModeX (fun k => UInt8.ofInt k) fun _ _ => 0) 300 170 = some s' ∧
      s'.build (memFenceWidth + (s'.img3Off + 310 / 4 + 80 * 180 + (3 - 310 % 4) * scrollSize)) =
        UInt8.ofInt (memFenceWidth +
          (buildBaseInit + 310 / 4 + 80 * 180 + (3 - 310 % 4) * scrollSize)) := by
  obtain ⟨s', hmove, hX, hY, himg3, hkept⟩ :=
    setViewWindow_overlap (setModeX (fun k => UInt8.ofInt k) fun _ _ => 0) rfl (by decide)
      (by decide) 300 170
  refine ⟨s', hmove, ?_⟩
  exact hkept 310 180 (by decide) (by decide) (by decide) (by decide) (by decide) (by decide)
    (by decide) (by decide)

/-! ## Painting -/

/-- The pixels of `s` on a line are now those of the picture, and the window is else as before. -/
structure Painted (s s' : Screen) (line : ℤ → ℤ → Prop) (picture : ℤ → ℤ → Option UInt8) :
    Prop where
  frame : ∃ m, s' = { s with build := m }
  inside : ∀ x y, InWindow s x y → line x y → picture x y = some (pixelAt s' x y)
  outside : ∀ x y, InWindow s x y → ¬ line x y → pixelAt s' x y = pixelAt s x y

section Places

variable {s : Screen} {n : ℕ} {place : ℕ → ℤ × ℤ} {buf : ℕ → UInt8}
  (hin : ∀ i < n, InWindow s (place i).1 (place i).2)
include hin

/-- Of pixels in different places of the window each shows what was stored to it. -/
theorem stored_place (hplace : ∀ i < n, ∀ j < n, place i = place j → i = j) {i : ℕ} (hi : i < n) :
    stored s.build (fun i => slot s.img3 (place i).1 (place i).2) buf n
      (slot s.img3 (place i).1 (place i).2) = buf i := by
  refine stored_cell ?_ hi
  intro j hj k hk heq
  obtain ⟨hx, hy⟩ := slot_injective (hin j hj) (hin k hk) heq
  exact hplace j hj k hk (Prod.ext hx hy)

/-- The others are as before. -/
theorem stored_elsewhere {x y : ℤ} (hxy : InWindow s x y) (hnot : ∀ i < n, (x, y) ≠ place i) :
    stored s.build (fun i => slot s.img3 (place i).1 (place i).2) buf n (slot s.img3 x y) =
      s.build (slot s.img3 x y) := by
  apply stored_other
  intro i hi heq
  obtain ⟨hx, hy⟩ := slot_injective hxy (hin i hi) heq
  exact hnot i hi (Prod.ext hx hy)

end Places

section Line

variable {s : Screen} {ok : ℤ → Prop} [DecidablePred ok] {outside : Prop} [Decidable outside]
  {filled : Option (ℕ → UInt8)} {cell : ℕ → ℤ} {n : ℕ}

/-- What both functions that draw a line come to: -1 if it is outside the window, and else the `n`
bytes filled in are stored to the cells of the line, if the guard allows them all. -/
def drawLineIn (ok : ℤ → Prop) [DecidablePred ok] (s : Screen) (outside : Prop)
    [Decidable outside] (filled : Option (ℕ → UInt8)) (cell : ℕ → ℤ) (n : ℕ) :
    Option (Screen × ℤ) :=
  if outside then some (s, -1)
  else filled.bind fun buf =>
    if ∀ i < n, ok (cell i) then some ({ s with build := stored s.build cell buf n }, 0)
    else none

theorem drawLineIn_eq_some_iff {result : Screen × ℤ} :
    drawLineIn ok s outside filled cell n = some result ↔
      outside ∧ result = (s, -1) ∨ ¬ outside ∧ ∃ buf, filled = some buf ∧
        (∀ i < n, ok (cell i)) ∧ result = ({ s with build := stored s.build cell buf n }, 0) := by
  unfold drawLineIn
  by_cases hout : outside
  · rw [if_pos hout, Option.some.injEq]
    simp [hout, eq_comm]
  · rw [if_neg hout, Option.bind_eq_some_iff]
    simp only [hout, not_false_eq_true, true_and, false_and, false_or]
    apply exists_congr
    intro buf
    apply and_congr_right
    intro _
    split_ifs with hcells
    · rw [Option.some.injEq, and_iff_right hcells]
      exact eq_comm
    · simp [hcells]

/-- **A line paints its places**, whatever order they come in. -/
theorem drawLineIn_painted (h : Fits s) {picture : ℤ → ℤ → Option UInt8}
    {onLine : ℤ → ℤ → Prop} (place : ℕ → ℤ × ℤ) {buf : ℕ → UInt8} (hout : ¬ outside)
    (hin : ∀ i < n, InWindow s (place i).1 (place i).2)
    (hplace : ∀ i < n, ∀ j < n, place i = place j → i = j)
    (hline : ∀ x y, InWindow s x y → (onLine x y ↔ ∃ i < n, (x, y) = place i))
    (hpicture : ∀ i < n, picture (place i).1 (place i).2 = some (buf i)) :
    ∃ s', drawLineIn (InBlock buildSize) s outside (some buf)
        (fun i => slot s.img3 (place i).1 (place i).2) n = some (s', 0) ∧
      Painted s s' onLine picture := by
  refine ⟨_, drawLineIn_eq_some_iff.mpr (Or.inr ⟨hout, buf, rfl, ?_, rfl⟩), ⟨_, rfl⟩, ?_, ?_⟩
  · intro i hi
    exact slot_inBlock h (hin i hi)
  · intro x y hxy hon
    obtain ⟨i, hi, heq⟩ := (hline x y hxy).mp hon
    obtain ⟨rfl, rfl⟩ := Prod.mk.inj heq
    rw [hpicture i hi]
    exact congrArg some (stored_place hin hplace hi).symm
  · intro x y hxy hnot
    apply stored_elsewhere hin hxy
    intro i hi heq
    exact hnot ((hline x y hxy).mpr ⟨i, hi, heq⟩)

end Line

section Lines

variable {s : Screen} {picture : ℤ → ℤ → Option UInt8} {fill : LineFn}
  {ok : ℤ → Prop} [DecidablePred ok]

/-- Where the loop of `draw_horiz_line` stands after `i` pixels of the row `y`. -/
def horizCursor (s : Screen) (y : ℤ) (i : ℕ) : ℤ × ℤ :=
  (s.img3 + (s.showX + i) / 4 + y * scrollXWidth, 3 - (s.showX + i) % 4)

theorem horizStrokeIn_eq (s : Screen) (y : ℤ) (buf : ℕ → UInt8) (i : ℕ) (m : ℤ → UInt8) :
    horizStrokeIn ok buf i (m, horizCursor s y i) =
      (storeIn ok m (slot s.img3 (s.showX + i) y) (buf i)).map
        fun m => (m, horizCursor s y (i + 1)) := by
  have haddr : s.img3 + (s.showX + i) / 4 + y * scrollXWidth +
      (3 - (s.showX + i) % 4) * scrollSize = slot s.img3 (s.showX + i) y := by
    unfold slot
    omega
  unfold horizCursor
  simp only [horizStrokeIn, haddr]
  cases storeIn ok m (slot s.img3 (s.showX + i) y) (buf i) with
  | none => rfl
  | some m' =>
      simp only [Option.bind_eq_bind, Option.bind_some, Option.map_some, Nat.cast_succ]
      by_cases hwrap : 3 - (s.showX + i) % 4 - 1 < 0
      · have hquot : (s.showX + (i + 1)) / 4 = (s.showX + i) / 4 + 1 := by omega
        have hplane : 3 - (s.showX + (i + 1)) % 4 = 3 := by omega
        have hrow : s.img3 + ((s.showX + i) / 4 + 1) + y * scrollXWidth =
            s.img3 + (s.showX + i) / 4 + y * scrollXWidth + 1 := by omega
        rw [if_pos hwrap, hquot, hplane, hrow]
      · have hquot : (s.showX + (i + 1)) / 4 = (s.showX + i) / 4 := by omega
        have hplane : 3 - (s.showX + (i + 1)) % 4 = 3 - (s.showX + i) % 4 - 1 := by omega
        rw [if_neg hwrap, hquot, hplane]

/-- `draw_horiz_line` draws the line of the places of its row. -/
theorem drawHorizLineIn_eq (s : Screen) (y : ℤ) : drawHorizLineIn ok fill s y =
    drawLineIn ok s (y < 0 ∨ y ≥ scrollYDim) (fill s.showX (y + s.showY) emptyBuf)
      (fun i => slot s.img3 (s.showX + i) (y + s.showY)) scrollXDim := by
  have hstart : (s.img3 + s.showX / 4 + (y + s.showY) * scrollXWidth, 3 - s.showX % 4) =
      horizCursor s (y + s.showY) 0 := by simp [horizCursor]
  unfold drawHorizLineIn drawLineIn
  by_cases hout : y < 0 ∨ y ≥ scrollYDim
  · rw [if_pos hout, if_pos hout]
  · rw [if_neg hout, if_neg hout]
    apply congrArg (Option.bind _)
    funext buf
    simp only [Option.bind_eq_bind, hstart]
    rw [attempts_storeIn (horizStrokeIn_eq s (y + s.showY) buf)]
    split_ifs
    · rfl
    · rfl

/-- **`draw_horiz_line`** paints its row. -/
theorem drawHorizLine_painted (h : Fits s) {y : ℤ} (hy : 0 ≤ y) (hy' : y < scrollYDim)
    (hfill : ∃ buf, fill s.showX (y + s.showY) emptyBuf = some buf ∧
      ∀ i < scrollXDim, picture (s.showX + i) (y + s.showY) = some (buf i)) :
    ∃ s', drawHorizLine fill s y = some (s', 0) ∧
      Painted s s' (fun _ b => b = y + s.showY) picture := by
  obtain ⟨buf, hrun, hbuf⟩ := hfill
  let place : ℕ → ℤ × ℤ := fun i => (s.showX + i, y + s.showY)
  rw [drawHorizLine_eq_in, drawHorizLineIn_eq, hrun]
  apply drawLineIn_painted h place
  · omega
  · intro i hi
    refine ⟨?_, ?_, ?_, ?_⟩ <;> simp only [place] <;> omega
  · intro i _ j _ heq
    have hx : s.showX + (i : ℤ) = s.showX + j := congrArg Prod.fst heq
    omega
  · rintro a b ⟨ha, ha', -, -⟩
    constructor
    · rintro rfl
      refine ⟨(a - s.showX).toNat, by omega, Prod.ext ?_ rfl⟩
      show a = s.showX + ((a - s.showX).toNat : ℤ)
      omega
    · rintro ⟨i, -, heq⟩
      exact congrArg Prod.snd heq
  · exact hbuf

theorem vertStrokeIn_eq (s : Screen) (x : ℤ) (buf : ℕ → UInt8) (i : ℕ) (m : ℤ → UInt8) :
    vertStrokeIn ok buf (3 - x % 4) i (m, s.img3 + x / 4 + (s.showY + i) * scrollXWidth) =
      (storeIn ok m (slot s.img3 x (s.showY + i)) (buf i)).map
        fun m => (m, s.img3 + x / 4 + (s.showY + (i + 1 : ℕ)) * scrollXWidth) := by
  have haddr : s.img3 + x / 4 + (s.showY + i) * scrollXWidth + (3 - x % 4) * scrollSize =
      slot s.img3 x (s.showY + i) := by
    simp only [slot]
    omega
  have hnext : s.img3 + x / 4 + (s.showY + i) * scrollXWidth + scrollXWidth =
      s.img3 + x / 4 + (s.showY + (i + 1 : ℕ)) * scrollXWidth := by
    rw [scrollXWidth_eq]
    omega
  simp only [vertStrokeIn, haddr, hnext]
  cases storeIn ok m (slot s.img3 x (s.showY + i)) (buf i) with
  | none => rfl
  | some m' => rfl

/-- `draw_vert_line` draws the line of the places of its column. -/
theorem drawVertLineIn_eq (s : Screen) (x : ℤ) : drawVertLineIn ok fill s x =
    drawLineIn ok s (x < 0 ∨ x ≥ scrollXDim) (fill (x + s.showX) s.showY emptyBuf)
      (fun i => slot s.img3 (x + s.showX) (s.showY + i)) scrollYDim := by
  have hstart : s.img3 + (x + s.showX) / 4 + s.showY * scrollXWidth =
      s.img3 + (x + s.showX) / 4 + (s.showY + (0 : ℕ)) * scrollXWidth := by simp
  unfold drawVertLineIn drawLineIn
  by_cases hout : x < 0 ∨ x ≥ scrollXDim
  · rw [if_pos hout, if_pos hout]
  · rw [if_neg hout, if_neg hout]
    apply congrArg (Option.bind _)
    funext buf
    simp only [Option.bind_eq_bind, hstart]
    rw [attempts_storeIn (vertStrokeIn_eq s (x + s.showX) buf)]
    split_ifs
    · rfl
    · rfl

/-- **`draw_vert_line`** paints its column. -/
theorem drawVertLine_painted (h : Fits s) {x : ℤ} (hx : 0 ≤ x) (hx' : x < scrollXDim)
    (hfill : ∃ buf, fill (x + s.showX) s.showY emptyBuf = some buf ∧
      ∀ i < scrollYDim, picture (x + s.showX) (s.showY + i) = some (buf i)) :
    ∃ s', drawVertLine fill s x = some (s', 0) ∧
      Painted s s' (fun a _ => a = x + s.showX) picture := by
  obtain ⟨buf, hrun, hbuf⟩ := hfill
  let place : ℕ → ℤ × ℤ := fun i => (x + s.showX, s.showY + i)
  rw [drawVertLine_eq_in, drawVertLineIn_eq, hrun]
  apply drawLineIn_painted h place
  · omega
  · intro i hi
    refine ⟨?_, ?_, ?_, ?_⟩ <;> simp only [place] <;> omega
  · intro i _ j _ heq
    have hy : s.showY + (i : ℤ) = s.showY + j := congrArg Prod.snd heq
    omega
  · rintro a b ⟨-, -, hb, hb'⟩
    constructor
    · rintro rfl
      refine ⟨(b - s.showY).toNat, by omega, Prod.ext rfl ?_⟩
      show b = s.showY + ((b - s.showY).toNat : ℤ)
      omega
    · rintro ⟨i, -, heq⟩
      exact congrArg Prod.fst heq
  · exact hbuf

/-! ## Many lines -/

theorem fits_painted {s' : Screen} {line : ℤ → ℤ → Prop} (h : Fits s)
    (hp : Painted s s' line picture) : Fits s' := by
  obtain ⟨m, rfl⟩ := hp.frame
  exact ⟨h.img3, h.first, h.last⟩

theorem inWindow_painted {s' : Screen} {line : ℤ → ℤ → Prop} (hp : Painted s s' line picture)
    (x y : ℤ) : InWindow s' x y ↔ InWindow s x y := by
  obtain ⟨m, rfl⟩ := hp.frame
  exact Iff.rfl

/-- One line after others. -/
theorem Painted.then {s₁ s₂ : Screen} {line line' : ℤ → ℤ → Prop}
    (h : Painted s s₁ line picture) (h' : Painted s₁ s₂ line' picture) :
    Painted s s₂ (fun x y => line x y ∨ line' x y) picture := by
  have hwindow := inWindow_painted h
  refine ⟨?_, fun x y hin hline => ?_, fun x y hin hnot => ?_⟩
  · obtain ⟨m, rfl⟩ := h.frame
    obtain ⟨m', rfl⟩ := h'.frame
    exact ⟨m', rfl⟩
  · by_cases hnew : line' x y
    · exact h'.inside x y ((hwindow x y).mpr hin) hnew
    · rw [h'.outside x y ((hwindow x y).mpr hin) hnew]
      exact h.inside x y hin (hline.resolve_right hnew)
  · rw [h'.outside x y ((hwindow x y).mpr hin) fun hnew => hnot (Or.inr hnew)]
    exact h.outside x y hin fun hold => hnot (Or.inl hold)

end Lines

/-! ## Showing the window -/

/-- **`show_screen`** copies the window, each pixel to the plane of its column. -/
theorem showScreen_shows (s : Screen) {i j : ℕ} (hi : i < scrollXDim) (hj : j < scrollYDim) :
    (showScreen s).memImage (i % 4) ((showScreen s).targetImg.toNat + 80 * j + i / 4) =
      pixelAt s (s.showX + i) (s.showY + j) := by
  have hplane : i % 4 < 4 := Nat.mod_lt i (by decide)
  simp only [showScreen, if_pos hplane, copyImage]
  generalize (s.targetImg ^^^ 0x4000).toNat = target
  rw [scrollXDim_eq] at hi
  rw [scrollYDim_eq] at hj
  rw [if_pos ⟨by omega, by omega⟩]
  unfold pixelAt slot
  rw [scrollSize_eq, scrollXWidth_eq]
  congr 1
  push_cast
  split_ifs <;> omega

end MachineProblems.Analysis.Adventure
