import MachineProblems.Analysis.Adventure.Registers
import MachineProblems.Analysis.Adventure.Screens
import MachineProblems.Model.Monitor
import MachineProblems.Model.StatusLine

/-!
# Frames on the monitor

`show_screen` fills the page that is not shown and then moves the start address to it, so whenever
somebody looks, the monitor shows a whole frame.  `print_status_bar` writes in front of both pages.
-/

set_option autoImplicit false

namespace MachineProblems.Analysis.Adventure

open MachineProblems.Library MachineProblems.Program.Adventure MachineProblems.Program.Quantizer
  MachineProblems.Model.StatusLine

/-- The card shows mode X. -/
structure InModeX (v : Vga) : Prop where
  planar : Planar v
  rowBytes : v.rowBytes = 80
  rowLines : v.rowLines = 2
  lineCompare : v.lineCompare = 363

theorem Loaded.inModeX {v : Vga} (h : Loaded v modeXRunning) :
    InModeX v ∧ v.startAddress = 0 ∧ v.lines = 400 := by
  have hcrtc : ∀ w ∈ modeXCRTC, v.crtc (byteLow w) = byteHigh w := h.crtc
  have hgraphics : ∀ w ∈ modeXGraphics, v.graphics (byteLow w) = byteHigh w := h.graphics
  have hseq : ∀ w ∈ modeXRunning.seq, v.seq (byteLow w) = byteHigh w := h.seq
  have h7 : v.crtc 7 = 0x1F := hcrtc 0x1F07 (by simp [modeXCRTC])
  have h9 : v.crtc 9 = 0x01 := hcrtc 0x0109 (by simp [modeXCRTC])
  have hC : v.crtc 0x0C = 0 := hcrtc 0x000C (by simp [modeXCRTC])
  have hD : v.crtc 0x0D = 0 := hcrtc 0x000D (by simp [modeXCRTC])
  have h12 : v.crtc 0x12 = 0x8F := hcrtc 0x8F12 (by simp [modeXCRTC])
  have h13 : v.crtc 0x13 = 0x28 := hcrtc 0x2813 (by simp [modeXCRTC])
  have h18 : v.crtc 0x18 = 0x6B := hcrtc 0x6B18 (by simp [modeXCRTC])
  have hmap : v.graphics 6 = 0x05 := hgraphics 0x0506 (by simp [modeXGraphics])
  have hmode : v.seq 4 = 0x06 := hseq 0x0604 (by simp [modeXRunning])
  refine ⟨⟨⟨?_, ?_⟩, ?_, ?_, ?_⟩, ?_, ?_⟩
  · rw [hmap]
    rfl
  · rw [Vga.oddEven, hmode]
    rfl
  · rw [Vga.rowBytes, h13]
    rfl
  · rw [Vga.rowLines, h9]
    rfl
  · rw [Vga.lineCompare, h18, h7, h9]
    rfl
  · rw [Vga.startAddress, hC, hD]
    rfl
  · rw [Vga.lines, h12, h7]
    rfl

/-! ## Copies to the four planes -/

/-- The loop of both functions over the planes. -/
def planeCopies (img : ℕ → ℕ → UInt8) (scrAddr count : ℕ) : List Access :=
  (List.range 4).flatMap fun i =>
    setWriteMask (0x0100 <<< UInt16.ofNat i) :: copyBytes (img i) scrAddr count

/-- The card as it was, except for the write mask and the memory of a range. -/
def Beside (v : Vga) (scrAddr count : ℕ) (t : Vga) : Prop :=
  ∃ i mask mem, t = { v with seqIndex := i, seq := Function.update v.seq 2 mask, mem := mem } ∧
    ∀ plane k, ¬ (scrAddr ≤ k ∧ k < scrAddr + count) → mem plane k = v.mem plane k

section Copies

variable {v : Vga} {scrAddr count : ℕ}

theorem beside_self (v : Vga) (scrAddr count : ℕ) : Beside v scrAddr count v :=
  ⟨v.seqIndex, v.seq 2, v.mem, by rw [Function.update_eq_self], fun _ _ _ => rfl⟩

theorem Beside.setWriteMask {t : Vga} (h : Beside v scrAddr count t) (mask : UInt16) :
    Beside v scrAddr count (setWriteMask mask t) := by
  obtain ⟨i, mask', mem, rfl, hmem⟩ := h
  refine ⟨2, byteHigh mask, mem, ?_, hmem⟩
  rw [setWriteMask_eq, Function.update_idem]

theorem Beside.planar {t : Vga} (h : Beside v scrAddr count t) (hv : Planar v) : Planar t := by
  obtain ⟨i, mask, mem, rfl, -⟩ := h
  exact ⟨hv.window, hv.linear⟩

theorem Beside.storeByte {t : Vga} (h : Beside v scrAddr count t) (hv : Planar v) {k : ℕ}
    (hk : k < count) (hend : scrAddr + count ≤ 0x10000) (byte : UInt8) :
    Beside v scrAddr count (storeByte (scrAddr + k) byte t) := by
  rw [storeByte_planar (h.planar hv) (by omega)]
  obtain ⟨i, mask, mem, rfl, hmem⟩ := h
  refine ⟨i, mask, _, rfl, ?_⟩
  intro plane k' hout
  rw [if_neg (by omega)]
  exact hmem plane k' hout

/-- Wherever the copies are interrupted, nothing beside the range has changed. -/
theorem planeCopies_beside (hv : Planar v) (img : ℕ → ℕ → UInt8)
    (hend : scrAddr + count ≤ 0x10000) : ∀ access ∈ planeCopies img scrAddr count,
      ∀ t, Beside v scrAddr count t → Beside v scrAddr count (access t) := by
  simp only [planeCopies, copyBytes, List.forall_mem_flatMap, List.forall_mem_cons,
    List.forall_mem_map]
  intro i _
  refine ⟨fun t h => h.setWriteMask _, ?_⟩
  intro k hk t h
  exact h.storeByte hv (List.mem_range.mp hk) hend _

/-- A write mask of one plane. -/
theorem testBit_planeMask {i : ℕ} (hi : i < 4) (plane : ℕ) :
    (byteHigh (0x0100 <<< UInt16.ofNat i)).toNat.testBit plane = decide (plane = i) := by
  have hmask : (byteHigh (0x0100 <<< UInt16.ofNat i)).toNat = 2 ^ i := by
    interval_cases i <;> rfl
  rw [hmask, Nat.testBit_two_pow]
  exact decide_eq_decide.mpr eq_comm

/-- **The copies** reach the four planes, each its own image. -/
theorem drive_planeCopies (hv : Planar v) (img : ℕ → ℕ → UInt8)
    (hend : scrAddr + count ≤ 0x10000) : ∃ i mask, drive (planeCopies img scrAddr count) v =
      { v with
        seqIndex := i
        seq := Function.update v.seq 2 mask
        mem := fun plane k =>
          if plane < 4 ∧ scrAddr ≤ k ∧ k < scrAddr + count then img plane (k - scrAddr)
          else v.mem plane k } := by
  unfold planeCopies
  apply drive_flatMap_range (I := fun (n : ℕ) (t : Vga) => ∃ i mask, t =
    { v with
      seqIndex := i
      seq := Function.update v.seq 2 mask
      mem := fun plane k =>
        if plane < n ∧ scrAddr ≤ k ∧ k < scrAddr + count then img plane (k - scrAddr)
        else v.mem plane k })
  · refine ⟨v.seqIndex, v.seq 2, ?_⟩
    simp [Function.update_eq_self]
  · rintro n t hn ⟨i, mask, rfl⟩
    refine ⟨2, byteHigh (0x0100 <<< UInt16.ofNat n), ?_⟩
    have hplanar : Planar { v with
        seqIndex := 2
        seq := Function.update v.seq 2 (byteHigh (0x0100 <<< UInt16.ofNat n))
        mem := fun plane k =>
          if plane < n ∧ scrAddr ≤ k ∧ k < scrAddr + count then img plane (k - scrAddr)
          else v.mem plane k } := ⟨hv.window, hv.linear⟩
    rw [drive_cons, setWriteMask_eq, Function.update_idem, drive_copyBytes hplanar (img n) hend]
    simp only [Vga.mk.injEq, true_and]
    funext plane k
    simp only [Function.update_self, testBit_planeMask hn, decide_eq_true_eq]
    by_cases hplane : plane = n
    · rw [hplane]
      by_cases hin : scrAddr ≤ k ∧ k < scrAddr + count
      · rw [if_pos ⟨rfl, hin⟩, if_pos ⟨by omega, hin⟩]
      · rw [if_neg fun h => hin h.2, if_neg fun h => hin h.2, if_neg fun h => hin h.2]
    · rw [if_neg fun h => hplane h.1]
      apply if_congr
      · omega
      · rfl
      · rfl

end Copies

/-! ## Flips -/

theorem toNat_eq_bytes (w : UInt16) : (byteHigh w).toNat * 256 + (byteLow w).toNat = w.toNat := by
  have hlt : w.toNat < 65536 := w.toNat_lt
  have height : (8 : UInt16).toNat % 16 = 8 := rfl
  have hhigh : (byteHigh w).toNat = w.toNat / 2 ^ 8 := by
    unfold byteHigh
    rw [UInt16.toNat_toUInt8, UInt16.toNat_shiftRight, height, Nat.shiftRight_eq_div_pow]
    omega
  have hlow : (byteLow w).toNat = w.toNat % 256 := UInt16.toNat_toUInt8 w
  omega

/-- The first word that a flip writes moves the high byte of the start address. -/
theorem outw_flipHigh (v : Vga) (target : UInt16) :
    outw 0x03D4 (target &&& 0xFF00 ||| 0x0C) v = { v with
      crtcIndex := 0x0C
      crtc := Function.update v.crtc 0x0C (byteHigh target) } := by
  rw [outw_crtc v (Or.inr _), byteLow_masked, byteHigh_masked target (by decide)]
  · rfl
  · rw [byteLow_masked]
    decide

theorem outw_flipLow (v : Vga) (target : UInt16) :
    outw 0x03D4 ((target &&& 0x00FF) <<< 8 ||| 0x0D) v = { v with
      crtcIndex := 0x0D
      crtc := Function.update v.crtc 0x0D (byteLow target) } := by
  have hshift : (target &&& 0x00FF) <<< 8 = target <<< 8 &&& 0xFF00 := by
    rw [UInt16.shiftLeft_and]
    rfl
  have hhigh : byteHigh (target <<< 8) = byteLow target := by
    apply UInt8.toNat.inj
    simp [byteHigh, byteLow, Nat.shiftLeft_eq, Nat.shiftRight_eq_div_pow]
    omega
  rw [hshift, outw_crtc v (Or.inr _), byteLow_masked, byteHigh_masked _ (by decide), hhigh]
  · rfl
  · rw [byteLow_masked]
    decide

/-! ## What is to be seen -/

section Scan

variable {v : Vga} {x line : ℕ}

/-- The upper part of the screen: two lines for each row of the page. -/
theorem scanned_upper (h : InModeX v) (hstart : v.startAddress ≤ 0x45A0) (hx : x < 320)
    (hline : line ≤ 363) :
    v.scanned x line = v.mem (x % 4) (v.startAddress + 80 * (line / 2) + x / 4) := by
  have hlt : v.startAddress + 80 * (line / 2) + x / 4 < 65536 := by omega
  unfold Vga.scanned Vga.pixelAddress
  rw [h.lineCompare, if_pos hline, h.rowBytes, h.rowLines, Nat.mod_eq_of_lt hlt]

/-- The lower part starts at address 0. -/
theorem scanned_lower (h : InModeX v) (hx : x < 320) (hline : 363 < line) (hlast : line < 400) :
    v.scanned x line = v.mem (x % 4) (80 * ((line - 364) / 2) + x / 4) := by
  have hlt : 80 * ((line - 364) / 2) + x / 4 < 65536 := by omega
  unfold Vga.scanned Vga.pixelAddress
  rw [h.lineCompare, if_neg (by omega), h.rowBytes, h.rowLines, Nat.mod_eq_of_lt hlt]

/-- Writes beside what is to be seen. -/
theorem Beside.scanned {scrAddr count : ℕ} {t : Vga} (h : Beside v scrAddr count t)
    (hv : InModeX v) (hstart : v.startAddress ≤ 0x45A0) (hx : x < 320) (hline : line < 400)
    (hupper : line ≤ 363 →
      v.startAddress + 14560 ≤ scrAddr ∨ scrAddr + count ≤ v.startAddress)
    (hlower : 363 < line → 1440 ≤ scrAddr) : t.scanned x line = v.scanned x line := by
  obtain ⟨i, mask, mem, rfl, hmem⟩ := h
  have ht : InModeX { v with
      seqIndex := i
      seq := Function.update v.seq 2 mask
      mem := mem } :=
    ⟨⟨hv.planar.window, hv.planar.linear⟩, hv.rowBytes, hv.rowLines, hv.lineCompare⟩
  by_cases hpart : line ≤ 363
  · rw [scanned_upper ht hstart hx hpart, scanned_upper hv hstart hx hpart]
    apply hmem
    have hside := hupper hpart
    show ¬ (scrAddr ≤ v.startAddress + 80 * (line / 2) + x / 4 ∧
      v.startAddress + 80 * (line / 2) + x / 4 < scrAddr + count)
    omega
  · rw [scanned_lower ht hx (by omega) hline, scanned_lower hv hx (by omega) hline]
    apply hmem
    have hside := hlower (by omega)
    omega

end Scan

/-! ## Frames -/

/-- The two pages of the double buffer. -/
def IsPage (target : UInt16) : Prop := target = 0x05A0 ∨ target = 0x45A0

theorem IsPage.flip {target : UInt16} (h : IsPage target) : IsPage (target ^^^ 0x4000) := by
  rcases h with rfl | rfl
  · exact Or.inr rfl
  · exact Or.inl rfl

/-- The image that `show_screen` copies to a plane. -/
def frameImg (s : Screen) (i k : ℕ) : UInt8 :=
  let pOff := 3 - s.showX % 4
  s.build (s.img3 + s.showX / 4 + s.showY * scrollXWidth + (pOff - i + 4) % 4 * scrollSize +
    (if pOff < i then 1 else 0) + k)

theorem showScreenVga_eq (s : Screen) : showScreenVga s =
    planeCopies (frameImg s) (s.targetImg ^^^ 0x4000).toNat 16000 ++
      [outw 0x03D4 ((s.targetImg ^^^ 0x4000) &&& 0xFF00 ||| 0x0C),
        outw 0x03D4 (((s.targetImg ^^^ 0x4000) &&& 0x00FF) <<< 8 ||| 0x0D)] := rfl

section Frame

variable {v : Vga} {s : Screen}

theorem page_end {target : UInt16} (h : IsPage target) : target.toNat + 16000 ≤ 0x10000 := by
  rcases h with rfl | rfl <;> decide

theorem drive_showScreen (hv : Planar v) (hs : IsPage s.targetImg) :
    ∃ i mask, drive (showScreenVga s) v = { v with
      seqIndex := i
      seq := Function.update v.seq 2 mask
      crtcIndex := 0x0D
      crtc := Function.update (Function.update v.crtc 0x0C (byteHigh (showScreen s).targetImg)) 0x0D
        (byteLow (showScreen s).targetImg)
      mem := (showScreen { s with memImage := v.mem }).memImage } := by
  obtain ⟨i, mask, hcopies⟩ := drive_planeCopies hv (frameImg s) (page_end hs.flip)
  refine ⟨i, mask, ?_⟩
  rw [showScreenVga_eq, drive_append, hcopies, drive_cons, drive_cons, drive_nil, outw_flipHigh,
    outw_flipLow]
  simp only [Vga.mk.injEq, true_and]
  refine ⟨rfl, ?_⟩
  funext plane k
  simp only [showScreen, frameImg]
  by_cases hplane : plane < 4
  · rw [if_pos hplane, copyImage]
    by_cases hin : (s.targetImg ^^^ 0x4000).toNat ≤ k ∧ k < (s.targetImg ^^^ 0x4000).toNat + 16000
    · rw [if_pos ⟨hplane, hin⟩, if_pos hin, Nat.cast_sub hin.1]
    · rw [if_neg fun h => hin h.2, if_neg hin]
  · rw [if_neg fun h => hplane h.1, if_neg hplane]

theorem IsPage.toNat {target : UInt16} (h : IsPage target) :
    target.toNat = 0x05A0 ∨ target.toNat = 0x45A0 := by
  rcases h with rfl | rfl
  · exact Or.inl rfl
  · exact Or.inr rfl

theorem IsPage.flipped {target : UInt16} (h : IsPage target) :
    target.toNat = 0x05A0 ∧ (target ^^^ 0x4000).toNat = 0x45A0 ∨
      target.toNat = 0x45A0 ∧ (target ^^^ 0x4000).toNat = 0x05A0 := by
  rcases h with rfl | rfl
  · exact Or.inl ⟨rfl, rfl⟩
  · exact Or.inr ⟨rfl, rfl⟩

/-- The pages lie behind the status bar. -/
theorem showScreen_bar (hs : IsPage s.targetImg) (plane : ℕ) {k : ℕ} (hk : k < 1440) :
    (showScreen s).memImage plane k = s.memImage plane k := by
  have hpage := hs.flip.toNat
  have hbelow : ¬ ((s.targetImg ^^^ 0x4000).toNat ≤ k ∧
      k < (s.targetImg ^^^ 0x4000).toNat + 16000) := by omega
  simp only [showScreen]
  by_cases hplane : plane < 4
  · rw [if_pos hplane, copyImage, if_neg hbelow]
  · rw [if_neg hplane]

/-- **A whole frame**: `show_screen` moves the start address to the page that was not shown, the
upper part of the screen shows the window of the map there, and the lower part what it showed. -/
theorem showScreen_scanned (hv : InModeX v) (hs : IsPage s.targetImg) :
    InModeX (drive (showScreenVga s) v) ∧ (drive (showScreenVga s) v).dac = v.dac ∧
      (drive (showScreenVga s) v).startAddress = (showScreen s).targetImg.toNat ∧
      (∀ x < 320, ∀ line ≤ 363, (drive (showScreenVga s) v).scanned x line =
        pixelAt s (s.showX + x) (s.showY + (line / 2 : ℕ))) ∧
      ∀ x < 320, ∀ line, 363 < line → line < 400 →
        (drive (showScreenVga s) v).scanned x line = v.scanned x line := by
  obtain ⟨i, mask, hdrive⟩ := drive_showScreen hv.planar hs
  have hstart : (drive (showScreenVga s) v).startAddress = (showScreen s).targetImg.toNat := by
    rw [hdrive]
    exact toNat_eq_bytes _
  have hmode : InModeX (drive (showScreenVga s) v) := by
    rw [hdrive]
    exact ⟨⟨hv.planar.window, hv.planar.linear⟩, hv.rowBytes, hv.rowLines, hv.lineCompare⟩
  have hpage : (showScreen s).targetImg.toNat = 0x05A0 ∨
      (showScreen s).targetImg.toNat = 0x45A0 := hs.flip.toNat
  refine ⟨hmode, by rw [hdrive], hstart, ?_, ?_⟩
  · intro x hx line hline
    rw [scanned_upper hmode (by omega) hx hline, hstart, hdrive]
    exact showScreen_shows { s with memImage := v.mem } hx (show line / 2 < 182 by omega)
  · intro x hx line hline hlast
    rw [scanned_lower hmode hx hline hlast, scanned_lower hv hx hline hlast, hdrive]
    exact showScreen_bar (s := { s with memImage := v.mem }) hs (x % 4) (by omega)

/-- The second word of a flip changes nothing if the low bytes agree. -/
theorem scanned_flipHigh {t : Vga} {target : UInt16} (hlow : t.crtc 0x0D = byteLow target) :
    ∀ x < 320, ∀ line < 400,
      (drive [outw 0x03D4 (target &&& 0xFF00 ||| 0x0C)] t).scanned x line =
        (drive [outw 0x03D4 (target &&& 0xFF00 ||| 0x0C),
          outw 0x03D4 ((target &&& 0x00FF) <<< 8 ||| 0x0D)] t).scanned x line := by
  have hkeep : Function.update (Function.update t.crtc 0x0C (byteHigh target)) 0x0D (t.crtc 0x0D) =
      Function.update t.crtc 0x0C (byteHigh target) := by
    rw [Function.update_eq_iff]
    simp
  simp only [drive_cons, drive_nil]
  rw [outw_flipLow, outw_flipHigh, ← hlow, hkeep]
  exact fun _ _ _ _ => rfl

/-- **No torn frame**: while a page is shown, whenever `show_screen` is interrupted, the screen is
as it was before the call, or as it is after it. -/
theorem showScreen_whole (hv : InModeX v) (hs : IsPage s.targetImg)
    (hstart : v.startAddress = s.targetImg.toNat) {before : List Access}
    (hbefore : before <+: showScreenVga s) :
    (∀ x < 320, ∀ line < 400, (drive before v).scanned x line = v.scanned x line) ∨
      ∀ x < 320, ∀ line < 400,
        (drive before v).scanned x line = (drive (showScreenVga s) v).scanned x line := by
  have hpage : v.startAddress = 0x05A0 ∧ (s.targetImg ^^^ 0x4000).toNat = 0x45A0 ∨
      v.startAddress = 0x45A0 ∧ (s.targetImg ^^^ 0x4000).toNat = 0x05A0 := by
    rw [hstart]
    exact hs.flipped
  have hold : ∀ t, Beside v (s.targetImg ^^^ 0x4000).toNat 16000 t →
      ∀ x < 320, ∀ line < 400, t.scanned x line = v.scanned x line := by
    intro t ht x hx line hline
    apply ht.scanned hv (by omega) hx hline
    · omega
    · omega
  have hcopied := planeCopies_beside hv.planar (frameImg s) (page_end hs.flip)
  have hself := beside_self v (s.targetImg ^^^ 0x4000).toNat 16000
  rw [showScreenVga_eq] at hbefore ⊢
  rcases prefix_append_cases hbefore with hcopies | ⟨rest, rfl, hrest⟩
  · exact Or.inl (hold _ (drive_interrupted hself hcopied hcopies))
  · rcases List.prefix_cons_iff.mp hrest with rfl | ⟨flips, rfl, hflips⟩
    · rw [List.append_nil]
      exact Or.inl (hold _ (drive_invariant hself hcopied))
    · rcases List.prefix_cons_iff.mp hflips with rfl | ⟨none, rfl, hnone⟩
      · right
        -- the low bytes of the two pages are the same, so the first word already flips
        have hbeside := drive_invariant hself hcopied
        rw [drive_append, drive_append]
        generalize drive (planeCopies (frameImg s) (s.targetImg ^^^ 0x4000).toNat 16000) v = t
          at hbeside
        have hlow : t.crtc 0x0D = byteLow (s.targetImg ^^^ 0x4000) := by
          obtain ⟨i, mask, mem, rfl, -⟩ := hbeside
          apply UInt8.toNat.inj
          have hbytes := toNat_eq_bytes (s.targetImg ^^^ 0x4000)
          have hlt := (byteLow (s.targetImg ^^^ 0x4000)).toNat_lt
          have hlt' := (v.crtc 0x0D).toNat_lt
          unfold Vga.startAddress at hpage
          show (v.crtc 0x0D).toNat = _
          omega
        exact scanned_flipHigh hlow
      · rw [List.prefix_nil.mp hnone]
        exact Or.inr fun _ _ _ _ => rfl

/-! ## The bar -/

theorem printStatusBar_eq (buffer : ℤ → UInt8) : printStatusBar buffer =
    planeCopies (fun i k => buffer (totalStatusAddr * i + k : ℕ)) 0 totalStatusAddr := rfl

/-- **The bar is written beside the pages**: `print_status_bar` shows its buffer in the lower part of
the screen, and wherever it is interrupted the upper part is as it was. -/
theorem printStatusBar_scanned (hv : InModeX v)
    (hpage : v.startAddress = 0x05A0 ∨ v.startAddress = 0x45A0) (buffer : ℤ → UInt8) :
    InModeX (drive (printStatusBar buffer) v) ∧ (drive (printStatusBar buffer) v).dac = v.dac ∧
      (drive (printStatusBar buffer) v).startAddress = v.startAddress ∧
      (∀ before, before <+: printStatusBar buffer → ∀ x < 320, ∀ line ≤ 363,
        (drive before v).scanned x line = v.scanned x line) ∧
      ∀ x < 320, ∀ line, 363 < line → line < 400 →
        (drive (printStatusBar buffer) v).scanned x line = pixel buffer x ((line - 364) / 2) := by
  have hend : 0 + totalStatusAddr ≤ 0x10000 := by decide
  obtain ⟨i, mask, hdrive⟩ := drive_planeCopies hv.planar
    (fun i k => buffer (totalStatusAddr * i + k : ℕ)) hend
  rw [← printStatusBar_eq] at hdrive
  have hmode : InModeX (drive (printStatusBar buffer) v) := by
    rw [hdrive]
    exact ⟨⟨hv.planar.window, hv.planar.linear⟩, hv.rowBytes, hv.rowLines, hv.lineCompare⟩
  refine ⟨hmode, by rw [hdrive], by rw [hdrive]; rfl, ?_, ?_⟩
  · intro before hbefore x hx line hline
    have hbeside : Beside v 0 totalStatusAddr (drive before v) := by
      rw [printStatusBar_eq] at hbefore
      exact drive_interrupted (beside_self v 0 totalStatusAddr)
        (planeCopies_beside hv.planar _ hend) hbefore
    have hsize : totalStatusAddr = 1440 := rfl
    apply hbeside.scanned hv (by omega) hx (by omega)
    · omega
    · omega
  · intro x hx line hline hlast
    have hplane : x % 4 < 4 := Nat.mod_lt x (by decide)
    have hsize : totalStatusAddr = 1440 := rfl
    rw [scanned_lower hmode hx hline hlast, hdrive]
    simp only
    rw [if_pos ⟨hplane, by omega, by omega⟩, pixel, pixelAddr, Nat.sub_zero, Nat.mul_comm,
      Nat.add_assoc]

end Frame

/-! ## Setting the mode -/

/-- The colours of objects and of the status bar: two bits for each component. -/
def LowColours (dac : UInt8 → Rgb) : Prop :=
  ∀ i < 64, dac (UInt8.ofNat i) = ⟨level (i / 16), level (i / 4), level i⟩

theorem mem_dacTable {i : UInt8} {colours : List Rgb} {k : ℕ} {colour : Rgb}
    (h : colours[k]? = some colour) : (i + UInt8.ofNat k, kept colour) ∈ dacTable i colours := by
  induction colours generalizing i k with
  | nil => simp at h
  | cons first colours ih =>
      cases k with
      | zero =>
          obtain rfl := Option.some.inj h
          simp [dacTable]
      | succ k =>
          have hmem := ih (i := i + 1) (k := k) h
          rw [UInt8.add_assoc, UInt8.add_comm 1] at hmem
          rw [UInt8.ofNat_add]
          exact List.mem_cons_of_mem _ hmem

theorem Loaded.lowColours {v : Vga} (h : Loaded v modeXRunning) : LowColours v.dac := by
  intro i hi
  have hkept : ∀ i < 64, kept ⟨level (i / 16), level (i / 4), level i⟩ =
      ⟨level (i / 16), level (i / 4), level i⟩ := by decide
  have hcolour : modeXPalette[i]? = some ⟨level (i / 16), level (i / 4), level i⟩ := by
    simp [modeXPalette, hi]
  have hmem := h.colours _ (mem_dacTable (i := 0) hcolour)
  rwa [UInt8.zero_add, hkept i hi] at hmem

theorem Loaded.black {t : Vga} (h : Loaded t modeXRunning)
    (hmem : ∀ plane < 4, ∀ k < modeXMemSize, t.mem plane k = 0) {x line : ℕ} (hx : x < 320)
    (hline : line < 400) : t.scanned x line = 0 ∧ t.colour x line = ⟨0, 0, 0⟩ := by
  obtain ⟨hmode, hstart, -⟩ := h.inModeX
  have hplane : x % 4 < 4 := Nat.mod_lt x (by decide)
  have hsize : modeXMemSize = 65536 := rfl
  have hblack : t.scanned x line = 0 := by
    by_cases hpart : line ≤ 363
    · rw [scanned_upper hmode (by omega) hx hpart]
      exact hmem (x % 4) hplane _ (by omega)
    · rw [scanned_lower hmode hx (by omega) hline]
      exact hmem (x % 4) hplane _ (by omega)
  have hfirst := h.lowColours 0 (by decide)
  have hlevel : level 0 = 0 := by decide
  refine ⟨hblack, ?_⟩
  rw [Vga.colour, hblack]
  simpa [hlevel] using hfirst

end MachineProblems.Analysis.Adventure
