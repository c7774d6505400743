import MachineProblems.Analysis.Adventure.Copies

/-!
# One map of addresses

A pixel of the window has one index in the build buffer: where the stepping of
`draw_horiz_line` comes to, where that of `draw_vert_line` comes to, and what the copies of
`show_screen` read for it.  No two pixels of a window share an index, wherever it lies, so a line
is drawn without damage to the pixels beside it.
-/

set_option autoImplicit false

namespace MachineProblems.Analysis.Adventure

open MachineProblems.Library MachineProblems.Program.Adventure

/-! ## Three ways to an index -/

section Index

variable (s : Screen)

/-- How the loop of `draw_horiz_line` steps `addr` and `p_off`. -/
def horizStep : ℤ × ℤ → ℤ × ℤ
  | (addr, pOff) => if pOff - 1 < 0 then (addr + 1, 3) else (addr, pOff - 1)

/-- `addr` and `p_off` after `i` rounds of `draw_horiz_line (y)`. -/
def horizSteps (y : ℤ) (i : ℕ) : ℤ × ℤ :=
  horizStep^[i] (s.img3 + s.showX / 4 + (y + s.showY) * scrollXWidth, 3 - s.showX % 4)

/-- The index that `draw_horiz_line (y)` writes for the column `i`. -/
def horizIndex (y : ℤ) (i : ℕ) : ℤ :=
  (horizSteps s y i).1 + (horizSteps s y i).2 * scrollSize

/-- `addr` after `j` rounds of `draw_vert_line (x)`. -/
def vertSteps (x : ℤ) (j : ℕ) : ℤ :=
  (fun addr => addr + (scrollXWidth : ℤ))^[j]
    (s.img3 + (x + s.showX) / 4 + s.showY * scrollXWidth)

/-- The index that `draw_vert_line (x)` writes for the row `j`. -/
def vertIndex (x : ℤ) (j : ℕ) : ℤ := vertSteps s x j + (3 - (x + s.showX) % 4) * scrollSize

/-- The index that the copy of `show_screen` for the display plane `p` reads at the offset `k`. -/
def showIndex (p k : ℕ) : ℤ := planeStart s p + k

end Index

section Agree

variable {s : Screen} {i j : ℕ}

/-- The plane wraps with every fourth column. -/
theorem horizSteps_eq (s : Screen) (y : ℤ) (i : ℕ) :
    horizSteps s y i = horizCursor s (y + s.showY) i := by
  induction i with
  | zero => simp [horizSteps, horizCursor]
  | succ i ih =>
      have hstep : horizSteps s y (i + 1) = horizStep (horizSteps s y i) :=
        Function.iterate_succ_apply' _ _ _
      rw [hstep, ih]
      unfold horizCursor horizStep
      dsimp only
      push_cast
      split_ifs with hwrap
      · exact Prod.ext (by dsimp only; omega) (by dsimp only; omega)
      · exact Prod.ext (by dsimp only; omega) (by dsimp only; omega)

theorem vertSteps_eq (s : Screen) (x : ℤ) (j : ℕ) :
    vertSteps s x j = s.img3 + (x + s.showX) / 4 + (s.showY + j) * scrollXWidth := by
  induction j with
  | zero => simp [vertSteps]
  | succ j ih =>
      have hstep : vertSteps s x (j + 1) = vertSteps s x j + scrollXWidth :=
        Function.iterate_succ_apply' _ _ _
      rw [hstep, ih, scrollXWidth_eq]
      push_cast
      omega

theorem horizIndex_eq_slot (s : Screen) (y : ℤ) (i : ℕ) :
    horizIndex s y i = slot s.img3 (s.showX + i) (s.showY + y) := by
  unfold horizIndex
  rw [horizSteps_eq]
  unfold horizCursor slot
  rw [scrollXWidth_eq]
  dsimp only
  omega

theorem vertIndex_eq_slot (s : Screen) (x : ℤ) (j : ℕ) :
    vertIndex s x j = slot s.img3 (s.showX + x) (s.showY + j) := by
  unfold vertIndex
  rw [vertSteps_eq, add_comm x]
  unfold slot
  omega

/-- The planes are stored backwards, and those that the view has gone past start a byte later. -/
theorem showIndex_eq_slot (s : Screen) (i j : ℕ) :
    showIndex s (i % 4) (80 * j + i / 4) = slot s.img3 (s.showX + i) (s.showY + j) := by
  unfold showIndex planeStart slot
  rw [scrollSize_eq, scrollXWidth_eq]
  push_cast
  split_ifs <;> omega

theorem inWindow_pixel (s : Screen) (hi : i < scrollXDim) (hj : j < scrollYDim) :
    InWindow s (s.showX + i) (s.showY + j) := by
  refine ⟨?_, ?_, ?_, ?_⟩ <;> omega

theorem horizIndex_injective {i' j' : ℕ} (hi : i < scrollXDim) (hj : j < scrollYDim)
    (hi' : i' < scrollXDim) (hj' : j' < scrollYDim)
    (h : horizIndex s j i = horizIndex s j' i') : i = i' ∧ j = j' := by
  rw [horizIndex_eq_slot, horizIndex_eq_slot] at h
  obtain ⟨hx, hy⟩ := slot_injective (inWindow_pixel s hi hj) (inWindow_pixel s hi' hj') h
  omega

end Agree

/-! ## What the lines store -/

section Stores

variable {fill : LineFn}

/-- **`draw_horiz_line`** stores what was filled in to the indices of its row. -/
theorem drawHorizLine_eq (s : Screen) (y : ℤ) : drawHorizLine fill s y =
    drawLineIn (InBlock buildSize) s (y < 0 ∨ y ≥ scrollYDim)
      (fill s.showX (y + s.showY) emptyBuf) (horizIndex s y) scrollXDim := by
  have hcells : (fun i : ℕ => slot s.img3 (s.showX + i) (y + s.showY)) = horizIndex s y := by
    funext i
    rw [horizIndex_eq_slot, add_comm y]
  rw [drawHorizLine_eq_in, drawHorizLineIn_eq, hcells]

/-- **`draw_vert_line`** stores what was filled in to the indices of its column. -/
theorem drawVertLine_eq (s : Screen) (x : ℤ) : drawVertLine fill s x =
    drawLineIn (InBlock buildSize) s (x < 0 ∨ x ≥ scrollXDim)
      (fill (x + s.showX) s.showY emptyBuf) (vertIndex s x) scrollYDim := by
  have hcells : (fun i : ℕ => slot s.img3 (x + s.showX) (s.showY + i)) = vertIndex s x := by
    funext i
    rw [vertIndex_eq_slot, add_comm x]
  rw [drawVertLine_eq_in, drawVertLineIn_eq, hcells]

end Stores

/-! ## The map -/

/-- The row `j` of the window now holds `buf`, and the other rows are as before. -/
structure RowStored (s : Screen) (j : ℕ) (buf : ℕ → UInt8) (m : ℤ → UInt8) : Prop where
  row : ∀ i < scrollXDim, m (horizIndex s j i) = buf i
  others : ∀ i < scrollXDim, ∀ j' < scrollYDim, j' ≠ j →
    m (horizIndex s j' i) = s.build (horizIndex s j' i)

/-- The column `i` of the window now holds `buf`, and the other columns are as before. -/
structure ColumnStored (s : Screen) (i : ℕ) (buf : ℕ → UInt8) (m : ℤ → UInt8) : Prop where
  column : ∀ j < scrollYDim, m (horizIndex s j i) = buf j
  others : ∀ i' < scrollXDim, ∀ j < scrollYDim, i' ≠ i →
    m (horizIndex s j i') = s.build (horizIndex s j i')

theorem rowStored (s : Screen) {j : ℕ} (hj : j < scrollYDim) (buf : ℕ → UInt8) :
    RowStored s j buf (stored s.build (horizIndex s j) buf scrollXDim) where
  row := fun _ hi =>
    stored_cell (fun _ hi _ hi' h => (horizIndex_injective hi hj hi' hj h).1) hi
  others := by
    intro i hi j' hj' hne
    apply stored_other
    intro k hk heq
    exact hne (horizIndex_injective hi hj' hk hj heq).2

theorem vertIndex_eq (s : Screen) (i j : ℕ) : vertIndex s i j = horizIndex s j i :=
  (vertIndex_eq_slot s i j).trans (horizIndex_eq_slot s j i).symm

theorem columnStored (s : Screen) {i : ℕ} (hi : i < scrollXDim) (buf : ℕ → UInt8) :
    ColumnStored s i buf (stored s.build (vertIndex s i) buf scrollYDim) where
  column := by
    intro j hj
    rw [← vertIndex_eq]
    refine stored_cell (fun j hj j' hj' h => ?_) hj
    rw [vertIndex_eq, vertIndex_eq] at h
    exact (horizIndex_injective hi hj hi hj' h).2
  others := by
    intro i' hi' j hj hne
    apply stored_other
    intro k hk heq
    rw [vertIndex_eq] at heq
    exact hne (horizIndex_injective hi' hj hi hk heq).1

/-- The three functions go by one map of addresses, which gives the pixels of the window different
indices. -/
structure OneAddressMap (s : Screen) : Prop where
  vert : ∀ i < scrollXDim, ∀ j < scrollYDim, vertIndex s i j = horizIndex s j i
  shown : ∀ i < scrollXDim, ∀ j < scrollYDim,
    showIndex s (i % 4) (80 * j + i / 4) = horizIndex s j i
  distinct : ∀ i < scrollXDim, ∀ j < scrollYDim, ∀ i' < scrollXDim, ∀ j' < scrollYDim,
    horizIndex s j i = horizIndex s j' i' → i = i' ∧ j = j'
  horizStores : ∀ (fill : LineFn) (j : ℕ) (buf : ℕ → UInt8), j < scrollYDim →
    fill s.showX (j + s.showY) emptyBuf = some buf →
    drawHorizLine fill s j =
      if ∀ i < scrollXDim, InBlock buildSize (horizIndex s j i) then
        some ({ s with build := stored s.build (horizIndex s j) buf scrollXDim }, 0)
      else none
  vertStores : ∀ (fill : LineFn) (i : ℕ) (buf : ℕ → UInt8), i < scrollXDim →
    fill (i + s.showX) s.showY emptyBuf = some buf →
    drawVertLine fill s i =
      if ∀ j < scrollYDim, InBlock buildSize (vertIndex s i j) then
        some ({ s with build := stored s.build (vertIndex s i) buf scrollYDim }, 0)
      else none
  showReads : ∀ p < 4, ∀ k < 16000,
    (showScreen s).memImage p ((showScreen s).targetImg.toNat + k) = s.build (showIndex s p k)
  rowOnly : ∀ (fill : LineFn) (j : ℕ) (result : Screen × ℤ), j < scrollYDim →
    drawHorizLine fill s j = some result → ∃ buf,
      fill s.showX (j + s.showY) emptyBuf = some buf ∧ RowStored s j buf result.1.build
  columnOnly : ∀ (fill : LineFn) (i : ℕ) (result : Screen × ℤ), i < scrollXDim →
    drawVertLine fill s i = some result → ∃ buf,
      fill (i + s.showX) s.showY emptyBuf = some buf ∧ ColumnStored s i buf result.1.build

/-- **One planar address map**, for every view and wherever the window lies. -/
theorem planar_address_map (s : Screen) : OneAddressMap s where
  vert := fun i _ j _ => vertIndex_eq s i j
  shown := fun i _ j _ => (showIndex_eq_slot s i j).trans (horizIndex_eq_slot s j i).symm
  distinct := fun _ hi _ hj _ hi' _ hj' h => horizIndex_injective hi hj hi' hj' h
  horizStores := by
    intro fill j buf hj hfill
    rw [drawHorizLine_eq, hfill]
    unfold drawLineIn
    rw [if_neg (by omega), Option.bind_some]
  vertStores := by
    intro fill i buf hi hfill
    rw [drawVertLine_eq, hfill]
    unfold drawLineIn
    rw [if_neg (by omega), Option.bind_some]
  showReads := fun _ hp _ hk => showScreen_copies s hp hk
  rowOnly := by
    intro fill j result hj h
    rw [drawHorizLine_eq] at h
    rcases drawLineIn_eq_some_iff.mp h with ⟨hout, -⟩ | ⟨-, buf, hfill, -, rfl⟩
    · omega
    · exact ⟨buf, hfill, rowStored s hj buf⟩
  columnOnly := by
    intro fill i result hi h
    rw [drawVertLine_eq] at h
    rcases drawLineIn_eq_some_iff.mp h with ⟨hout, -⟩ | ⟨-, buf, hfill, -, rfl⟩
    · omega
    · exact ⟨buf, hfill, columnStored s hi buf⟩

end MachineProblems.Analysis.Adventure
