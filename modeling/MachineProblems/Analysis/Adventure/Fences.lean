import MachineProblems.Analysis.Adventure.Screens
import MachineProblems.Library.Run

/-!
# The fence is never broken

Under the guard that allows the build buffer and nothing else, no call of the three functions
faults, wherever the window is moved and whatever is drawn.  So the functions, which are the same
under the weaker guard of the array, leave the fence alone.
-/

set_option autoImplicit false

namespace MachineProblems.Analysis.Adventure

open MachineProblems.Library MachineProblems.Program.Adventure

variable {ok ok' : ℤ → Prop} [DecidablePred ok] [DecidablePred ok'] {s s' : Screen}
  {outside : Prop} [Decidable outside] {filled : Option (ℕ → UInt8)} {cell : ℕ → ℤ} {n : ℕ}
  {result : Screen × ℤ}

/-! ## Weaker guards -/

section Mono

variable (hok : ∀ a, ok a → ok' a)
include hok

theorem setViewWindowIn_mono {x y : ℤ} (h : setViewWindowIn ok s x y = some s') :
    setViewWindowIn ok' s x y = some s' := by
  unfold setViewWindowIn at h ⊢
  dsimp only at h ⊢
  split
  · next hfit => rwa [if_pos hfit] at h
  · next hfit =>
      rw [if_neg hfit] at h
      split
      · next hapart => rwa [if_pos hapart] at h
      · next hapart =>
          rw [if_neg hapart] at h
          obtain ⟨m, hcopy, rfl⟩ := Option.map_eq_some_iff.mp h
          exact Option.map_eq_some_iff.mpr ⟨m, copyIn_mono hok hcopy, rfl⟩

theorem drawLineIn_mono (h : drawLineIn ok s outside filled cell n = some result) :
    drawLineIn ok' s outside filled cell n = some result := by
  rw [drawLineIn_eq_some_iff] at h ⊢
  rcases h with hout | ⟨hout, buf, hfill, hcells, hresult⟩
  · exact Or.inl hout
  · exact Or.inr ⟨hout, buf, hfill, fun i hi => hok _ (hcells i hi), hresult⟩

theorem drawHorizLineIn_mono {fill : LineFn} {y : ℤ}
    (h : drawHorizLineIn ok fill s y = some result) :
    drawHorizLineIn ok' fill s y = some result := by
  rw [drawHorizLineIn_eq] at h ⊢
  exact drawLineIn_mono hok h

theorem drawVertLineIn_mono {fill : LineFn} {x : ℤ}
    (h : drawVertLineIn ok fill s x = some result) :
    drawVertLineIn ok' fill s x = some result := by
  rw [drawVertLineIn_eq] at h ⊢
  exact drawLineIn_mono hok h

/-- **A call that does not fault is the same under every weaker guard.** -/
theorem screenStepIn_mono {call : ScreenCall} (h : screenStepIn ok s call = some s') :
    screenStepIn ok' s call = some s' := by
  cases call with
  | setViewWindow scrX scrY => exact setViewWindowIn_mono hok h
  | drawVertLine fill x =>
      obtain ⟨result, hdraw, rfl⟩ := Option.map_eq_some_iff.mp h
      exact Option.map_eq_some_iff.mpr ⟨result, drawVertLineIn_mono hok hdraw, rfl⟩
  | drawHorizLine fill y =>
      obtain ⟨result, hdraw, rfl⟩ := Option.map_eq_some_iff.mp h
      exact Option.map_eq_some_iff.mpr ⟨result, drawHorizLineIn_mono hok hdraw, rfl⟩

end Mono

/-! ## What the guard forbids stays -/

theorem setViewWindowIn_frame {x y b : ℤ} (h : setViewWindowIn ok s x y = some s')
    (hb : ¬ ok b) : s'.build b = s.build b := by
  unfold setViewWindowIn at h
  dsimp only at h
  split at h
  · obtain rfl := Option.some.inj h
    rfl
  · split at h
    · obtain rfl := Option.some.inj h
      rfl
    · obtain ⟨m, hcopy, rfl⟩ := Option.map_eq_some_iff.mp h
      exact copyIn_frame hcopy hb

/-- A line drawn changes the array only, and there only what the guard allows. -/
theorem drawLineIn_frame (h : drawLineIn ok s outside filled cell n = some result) :
    ∃ m, result.1 = { s with build := m } ∧ ∀ b, ¬ ok b → m b = s.build b := by
  rcases drawLineIn_eq_some_iff.mp h with ⟨-, rfl⟩ | ⟨-, buf, -, hcells, rfl⟩
  · exact ⟨s.build, rfl, fun _ _ => rfl⟩
  · refine ⟨_, rfl, fun b hb => ?_⟩
    apply stored_other
    rintro i hi rfl
    exact hb (hcells i hi)

theorem drawHorizLineIn_frame {fill : LineFn} {y : ℤ}
    (h : drawHorizLineIn ok fill s y = some result) :
    ∃ m, result.1 = { s with build := m } ∧ ∀ b, ¬ ok b → m b = s.build b := by
  rw [drawHorizLineIn_eq] at h
  exact drawLineIn_frame h

theorem drawVertLineIn_frame {fill : LineFn} {x : ℤ}
    (h : drawVertLineIn ok fill s x = some result) :
    ∃ m, result.1 = { s with build := m } ∧ ∀ b, ¬ ok b → m b = s.build b := by
  rw [drawVertLineIn_eq] at h
  exact drawLineIn_frame h

/-- So do the functions of the source. -/
theorem drawHorizLine_frame {fill : LineFn} (t : Screen) (c : ℤ) (result : Screen × ℤ)
    (h : drawHorizLine fill t c = some result) : ∃ m, result.1 = { t with build := m } := by
  rw [drawHorizLine_eq_in] at h
  obtain ⟨m, hresult, -⟩ := drawHorizLineIn_frame h
  exact ⟨m, hresult⟩

theorem drawVertLine_frame {fill : LineFn} (t : Screen) (c : ℤ) (result : Screen × ℤ)
    (h : drawVertLine fill t c = some result) : ∃ m, result.1 = { t with build := m } := by
  rw [drawVertLine_eq_in] at h
  obtain ⟨m, hresult, -⟩ := drawVertLineIn_frame h
  exact ⟨m, hresult⟩

theorem screenStepIn_frame {call : ScreenCall} (h : screenStepIn ok s call = some s') {b : ℤ}
    (hb : ¬ ok b) : s'.build b = s.build b := by
  cases call with
  | setViewWindow scrX scrY => exact setViewWindowIn_frame h hb
  | drawVertLine fill x =>
      obtain ⟨result, hdraw, rfl⟩ := Option.map_eq_some_iff.mp h
      obtain ⟨m, heq, hm⟩ := drawVertLineIn_frame hdraw
      rw [heq]
      exact hm b hb
  | drawHorizLine fill y =>
      obtain ⟨result, hdraw, rfl⟩ := Option.map_eq_some_iff.mp h
      obtain ⟨m, heq, hm⟩ := drawHorizLineIn_frame hdraw
      rw [heq]
      exact hm b hb

/-! ## The build buffer is enough -/

theorem inBuffer_range {a : ℤ} {n : ℕ} (ha : memFenceWidth ≤ a)
    (ha' : a + n ≤ memFenceWidth + buildBufSize) (i : ℤ) (h0 : 0 ≤ i) (hi : i < n) :
    InBuffer (a + i) :=
  ⟨by linarith, by linarith⟩

theorem setViewWindowIn_total (h : Fits s) (x y : ℤ) :
    ∃ s', setViewWindowIn InBuffer s x y = some s' := by
  unfold setViewWindowIn
  dsimp only
  split
  · exact ⟨_, rfl⟩
  · split
    · exact ⟨_, rfl⟩
    · next hover =>
        have hoverX : s.showX - scrollXDim < x ∧ x < s.showX + scrollXDim := by omega
        have hoverY : s.showY - scrollYDim < y ∧ y < s.showY + scrollYDim := by omega
        obtain ⟨hnonneg, hstart, hstart', htarget, htarget'⟩ :=
          overlap_inBuffer h overlap_of_windows overlap_of_windows (overlap_le hoverX.1 hoverX.2)
            (overlap_le hoverY.1 hoverY.2) rfl rfl rfl rfl
        rw [← Int.toNat_of_nonneg hnonneg] at hstart' htarget'
        rw [← Option.isSome_iff_exists, Option.isSome_map, Option.isSome_iff_exists]
        apply copyIn_total
        · exact inBuffer_range hstart hstart'
        · exact inBuffer_range htarget htarget'

theorem drawLineIn_total (buf : ℕ → UInt8) (hcells : ¬ outside → ∀ i < n, ok (cell i)) :
    ∃ result, drawLineIn ok s outside (some buf) cell n = some result := by
  simp only [drawLineIn_eq_some_iff]
  by_cases hout : outside
  · exact ⟨_, Or.inl ⟨hout, rfl⟩⟩
  · exact ⟨_, Or.inr ⟨hout, buf, rfl, hcells hout, rfl⟩⟩

theorem drawHorizLineIn_total (h : Fits s) (fill : ℤ → ℤ → (ℕ → UInt8) → ℕ → UInt8) (y : ℤ) :
    ∃ result, drawHorizLineIn InBuffer (fun x y buf => some (fill x y buf)) s y =
      some result := by
  rw [drawHorizLineIn_eq]
  apply drawLineIn_total
  intro hout i hi
  apply slot_inBuffer h
  refine ⟨?_, ?_, ?_, ?_⟩ <;> omega

theorem drawVertLineIn_total (h : Fits s) (fill : ℤ → ℤ → (ℕ → UInt8) → ℕ → UInt8) (x : ℤ) :
    ∃ result, drawVertLineIn InBuffer (fun x y buf => some (fill x y buf)) s x =
      some result := by
  rw [drawVertLineIn_eq]
  apply drawLineIn_total
  intro hout i hi
  apply slot_inBuffer h
  refine ⟨?_, ?_, ?_, ?_⟩ <;> omega

/-- **Every call stays within the build buffer**, and the window lies in it afterwards. -/
theorem screenStepIn_total (h : Fits s) (call : ScreenCall) :
    ∃ s', screenStepIn InBuffer s call = some s' ∧ Fits s' := by
  cases call with
  | setViewWindow scrX scrY =>
      obtain ⟨s', hrun⟩ := setViewWindowIn_total h scrX scrY
      obtain ⟨s₁, hmove, hshift⟩ := setViewWindow_shifted h scrX scrY
      rw [setViewWindow_eq_in] at hmove
      obtain rfl := Option.some.inj
        ((setViewWindowIn_mono (fun _ => inBlock_of_inBuffer) hrun).symm.trans hmove)
      exact ⟨s', hrun, hshift.fits⟩
  | drawVertLine fill x =>
      obtain ⟨result, hdraw⟩ := drawVertLineIn_total h fill x
      obtain ⟨m, heq, -⟩ := drawVertLineIn_frame hdraw
      refine ⟨result.1, congrArg (Option.map Prod.fst) hdraw, ?_⟩
      rw [heq]
      exact ⟨h.img3, h.first, h.last⟩
  | drawHorizLine fill y =>
      obtain ⟨result, hdraw⟩ := drawHorizLineIn_total h fill y
      obtain ⟨m, heq, -⟩ := drawHorizLineIn_frame hdraw
      refine ⟨result.1, congrArg (Option.map Prod.fst) hdraw, ?_⟩
      rw [heq]
      exact ⟨h.img3, h.first, h.last⟩

/-! ## Runs -/

/-- The index of the first byte of the image that `show_screen` copies to plane `i`. -/
def planeStart (s : Screen) (i : ℕ) : ℤ :=
  s.img3 + s.showX / 4 + s.showY * scrollXWidth +
    (3 - s.showX % 4 - i + 4) % 4 * scrollSize + if 3 - s.showX % 4 < i then 1 else 0

theorem planeStart_inBuffer (h : Fits s) {i : ℕ} (hi : i < 4) :
    memFenceWidth ≤ planeStart s i ∧
      planeStart s i + scrollSize ≤ memFenceWidth + buildBufSize := by
  obtain ⟨himg3, hfirst, hlast⟩ := h
  simp only [scrollXDim_eq, scrollYDim_eq, scrollXWidth_eq, scrollSize_eq, buildBufSize_eq,
    memFenceWidth_eq] at *
  unfold planeStart
  simp only [scrollXWidth_eq, scrollSize_eq]
  constructor
  · split_ifs <;> omega
  · split_ifs <;> omega

/-- The fences hold their magic bytes. -/
def FenceKept (s : Screen) : Prop :=
  ∀ i < memFenceWidth, s.build i = memFenceMagic ∧
    s.build (buildBufSize + memFenceWidth + i) = memFenceMagic

theorem clearModeX_silent (h : FenceKept s) : clearModeX s = [] := by
  have hlower : ((List.range memFenceWidth).any fun i => s.build i != memFenceMagic) = false := by
    rw [List.any_eq_false]
    intro i hi
    simp [(h i (List.mem_range.mp hi)).1]
  have hupper : ((List.range memFenceWidth).any fun i =>
      s.build (buildBufSize + memFenceWidth + i) != memFenceMagic) = false := by
    rw [List.any_eq_false]
    intro i hi
    simp [(h i (List.mem_range.mp hi)).2]
  unfold clearModeX
  rw [hlower, hupper]
  rfl

theorem fenceKept_start (build : ℤ → UInt8) (memImage : ℕ → ℕ → UInt8) :
    FenceKept (setModeX (fenced build) memImage) := by
  intro i hi
  have hfenced : (setModeX (fenced build) memImage).build = fenced build := rfl
  rw [hfenced]
  unfold fenced
  rw [if_pos (Or.inl ⟨by omega, by omega⟩), if_pos (Or.inr ⟨by omega, by omega⟩)]
  exact ⟨rfl, rfl⟩

theorem fits_start (build : ℤ → UInt8) (memImage : ℕ → ℕ → UInt8) :
    Fits (setModeX build memImage) :=
  ⟨rfl, by simp [setModeX], by simp [setModeX]; decide⟩

theorem fenceKept_step {call : ScreenCall} (h : FenceKept s)
    (hrun : screenStepIn InBuffer s call = some s') : FenceKept s' := by
  intro i hi
  have hlower : ¬ InBuffer (i : ℤ) := by
    rintro ⟨hlo, -⟩
    omega
  have hupper : ¬ InBuffer (buildBufSize + memFenceWidth + i : ℤ) := by
    rintro ⟨-, hhi⟩
    omega
  rw [screenStepIn_frame hrun hlower, screenStepIn_frame hrun hupper]
  exact h i hi

/-- **The fence is never broken**: whatever is called in whatever order, no access leaves the build
buffer, the images of the four planes lie in it, and `clear_mode_X` has nothing to report. -/
theorem fence_never_broken (build : ℤ → UInt8) (memImage : ℕ → ℕ → UInt8)
    (calls : List ScreenCall) :
    ∃ s, run (screenStepIn InBuffer) (setModeX (fenced build) memImage) calls = some s ∧
      run screenStep (setModeX (fenced build) memImage) calls = some s ∧
      (∀ i < 4, memFenceWidth ≤ planeStart s i ∧
        planeStart s i + scrollSize ≤ memFenceWidth + buildBufSize) ∧
      clearModeX s = [] := by
  let Good : Screen → Prop := fun s => Fits s ∧ FenceKept s
  have hstep : ∀ (s : Screen) (call : ScreenCall), Good s → True →
      ∃ s', screenStepIn InBuffer s call = some s' ∧ Good s' := by
    rintro s call ⟨hfits, hkept⟩ -
    obtain ⟨s', hrun, hfits'⟩ := screenStepIn_total hfits call
    exact ⟨s', hrun, hfits', fenceKept_step hkept hrun⟩
  obtain ⟨s, hrun, hfits, hkept⟩ := run_total hstep
    ⟨fits_start (fenced build) memImage, fenceKept_start build memImage⟩
    (fun call (_ : call ∈ calls) => trivial)
  refine ⟨s, hrun, ?_, fun i hi => planeStart_inBuffer hfits hi, clearModeX_silent hkept⟩
  rw [screenStep_eq_in]
  exact run_mono (fun _ _ _ hcall => screenStepIn_mono (fun _ => inBlock_of_inBuffer) hcall) hrun

end MachineProblems.Analysis.Adventure
