import MachineProblems.Analysis.Mp1.Execution
import Mathlib.Algebra.Group.Nat.Defs

/-!
# Drawing the bases

`update_bases` reads the three bytes of `base_alive` and the five characters of each picture,
draws them and leaves the memory alone.
-/

set_option autoImplicit false

namespace MachineProblems.Analysis.Mp1

open MachineProblems.Program.Mp1

/-- `m'` has the memory, the trace and the stack of `m`. -/
structure Draws (m m' : Machine) : Prop where
  mem : m'.mem = m.mem
  notified : m'.notified = m.notified
  freed : m'.freed = m.freed
  removals : m'.removals = m.removals
  stack : m'.stack = m.stack

theorem Draws.trans {m₁ m₂ m₃ : Machine} (h : Draws m₁ m₂) (h' : Draws m₂ m₃) : Draws m₁ m₃ where
  mem := h'.mem.trans h.mem
  notified := h'.notified.trans h.notified
  freed := h'.freed.trans h.freed
  removals := h'.removals.trans h.removals
  stack := h'.stack.trans h.stack

/-! ## The five characters of a picture -/

theorem innerLoop_run {m : Machine} (hbyte : (m.mem.byteAt m.regs.edx).isSome) :
    ∃ m', innerLoop m = some m' ∧ Draws m m' ∧ m'.regs.edx = m.regs.edx + 1#32 ∧
      m'.regs.edi = m.regs.edi + 1#32 ∧ m'.regs.ebx = m.regs.ebx ∧ m'.regs.esi = m.regs.esi ∧
      m'.compared = (m.regs.edi + 1#32, 5#32) := by
  obtain ⟨b, hb⟩ := Option.isSome_iff_exists.mp hbyte
  simp [innerLoop, hb]
  exact ⟨rfl, rfl, rfl, rfl, rfl⟩

/-- The pictures lie in `.data`. -/
theorem byteAt_pictures (mem : Memory) (pic : Word) (hpic : pic = basePicAddr ∨ pic = deadBasePicAddr)
    {k : ℕ} (hk : k < 5) : (mem.byteAt (pic + BitVec.ofNat 32 k)).isSome := by
  have hcases : k = 0 ∨ k = 1 ∨ k = 2 ∨ k = 3 ∨ k = 4 := by omega
  rcases hpic with rfl | rfl <;> rcases hcases with rfl | rfl | rfl | rfl | rfl <;> rfl

/-- A counter below a small bound, as `jl` sees it. -/
theorem slt_ofNat {j n : ℕ} (hj : j < 2 ^ 31) (hn : n < 2 ^ 31) :
    (BitVec.ofNat 32 j).slt (BitVec.ofNat 32 n) = decide (j < n) := by
  have hint : ∀ k : ℕ, k < 2 ^ 31 → (BitVec.ofNat 32 k).toInt = k := by
    intro k hk
    rw [BitVec.toInt_eq_toNat_of_lt]
    · rw [BitVec.toNat_ofNat, Nat.mod_eq_of_lt (by omega)]
    · rw [BitVec.toNat_ofNat, Nat.mod_eq_of_lt (by omega)]
      omega
  rw [BitVec.slt, hint j hj, hint n hn]
  simp

theorem ofNat_succ (k : ℕ) : BitVec.ofNat 32 k + 1#32 = BitVec.ofNat 32 (k + 1) := by
  rw [← BitVec.ofNat_add]

theorem innerLoop_loop {pic : Word} (hpic : pic = basePicAddr ∨ pic = deadBasePicAddr) (n : ℕ) :
    ∀ {m : Machine} {k : ℕ}, k + n = 4 → m.regs.edi = BitVec.ofNat 32 k →
      m.regs.edx = pic + BitVec.ofNat 32 k →
      ∃ m', loopJl innerLoop (n + 1) m = some m' ∧ Draws m m' ∧
        m'.regs.ebx = m.regs.ebx ∧ m'.regs.esi = m.regs.esi := by
  induction n with
  | zero =>
      intro m k hk hedi hedx
      obtain ⟨m', hrun, hdraws, -, -, hebx, hesi, hcmp⟩ :=
        innerLoop_run (m := m) (by rw [hedx]; exact byteAt_pictures _ _ hpic (by omega))
      obtain rfl : k = 4 := by omega
      refine ⟨m', ?_, hdraws, hebx, hesi⟩
      simp [loopJl, hrun, hcmp, hedi]
  | succ n ih =>
      intro m k hk hedi hedx
      obtain ⟨m', hrun, hdraws, hedx', hedi', hebx, hesi, hcmp⟩ :=
        innerLoop_run (m := m) (by rw [hedx]; exact byteAt_pictures _ _ hpic (by omega))
      have hless : (BitVec.ofNat 32 (k + 1)).slt 5#32 = true := by
        rw [slt_ofNat (by omega) (by omega)]
        exact decide_eq_true (by omega)
      obtain ⟨m'', hrest, hdraws', hebx', hesi'⟩ := ih (m := m') (k := k + 1) (by omega)
        (by rw [hedi', hedi, ofNat_succ]) (by rw [hedx', hedx, BitVec.add_assoc, ofNat_succ])
      refine ⟨m'', ?_, hdraws.trans hdraws', hebx'.trans hebx, hesi'.trans hesi⟩
      rw [loopJl]
      simp only [seq, block, hrun, Option.bind_some, jl, hcmp, hedi, ofNat_succ, hless, if_true]
      exact hrest

/-! ## The three bases -/

theorem drawBase_run {pic : Word} (hpic : pic = basePicAddr ∨ pic = deadBasePicAddr)
    {m : Machine} (hedi : m.regs.edi = 0#32) (hedx : m.regs.edx = pic) :
    ∃ m', drawBase m = some m' ∧ Draws m m' ∧ m'.regs.ebx = m.regs.ebx + 1#32 ∧
      m'.regs.esi = m.regs.esi + 1#32 ∧ m'.regs.edi = 0#32 ∧
      m'.compared = (m.regs.esi + 1#32, 3#32) := by
  obtain ⟨m', hrun, hdraws, hebx, hesi⟩ := innerLoop_loop hpic 4 (m := m) (k := 0) (by rfl) hedi
    (by rw [hedx]; exact (BitVec.add_zero pic).symm)
  simp [drawBase, hrun, hebx, hesi]
  exact ⟨hdraws.mem, hdraws.notified, hdraws.freed, hdraws.removals, hdraws.stack⟩

theorem deadbase_run {m : Machine} (hedi : m.regs.edi = 0#32) :
    ∃ m', deadbase m = some m' ∧ Draws m m' ∧ m'.regs.ebx = m.regs.ebx + 1#32 ∧
      m'.regs.esi = m.regs.esi + 1#32 ∧ m'.regs.edi = 0#32 ∧
      m'.compared = (m.regs.esi + 1#32, 3#32) := by
  obtain ⟨m', hrun, hdraws, hrest⟩ := drawBase_run (Or.inr rfl)
    (m := { m with regs := { m.regs with edx := deadBasePicAddr } }) hedi rfl
  refine ⟨m', ?_, ⟨hdraws.mem, hdraws.notified, hdraws.freed, hdraws.removals, hdraws.stack⟩, hrest⟩
  simpa [deadbase] using hrun

theorem alivebase_run {m : Machine} (hedi : m.regs.edi = 0#32) :
    ∃ m', alivebase m = some m' ∧ Draws m m' ∧ m'.regs.ebx = m.regs.ebx + 1#32 ∧
      m'.regs.esi = m.regs.esi + 1#32 ∧ m'.regs.edi = 0#32 ∧
      m'.compared = (m.regs.esi + 1#32, 3#32) := by
  obtain ⟨m', hrun, hdraws, hrest⟩ := drawBase_run (Or.inl rfl)
    (m := { m with regs := { m.regs with edx := basePicAddr } }) hedi rfl
  refine ⟨m', ?_, ⟨hdraws.mem, hdraws.notified, hdraws.freed, hdraws.removals, hdraws.stack⟩, hrest⟩
  simpa [alivebase] using hrun

theorem outerLoop_run {m : Machine} (hbyte : (m.mem.byteAt m.regs.ebx).isSome)
    (hedi : m.regs.edi = 0#32) :
    ∃ m', outerLoop m = some m' ∧ Draws m m' ∧ m'.regs.ebx = m.regs.ebx + 1#32 ∧
      m'.regs.esi = m.regs.esi + 1#32 ∧ m'.regs.edi = 0#32 ∧
      m'.compared = (m.regs.esi + 1#32, 3#32) := by
  obtain ⟨b, hb⟩ := Option.isSome_iff_exists.mp hbyte
  let m₁ (w : Word) : Machine := { m with compared := (b.signExtend 32, w) }
  have hdead : ∀ w, ∃ m', deadbase (m₁ w) = some m' ∧ Draws m m' ∧
      m'.regs.ebx = m.regs.ebx + 1#32 ∧ m'.regs.esi = m.regs.esi + 1#32 ∧
      m'.regs.edi = 0#32 ∧ m'.compared = (m.regs.esi + 1#32, 3#32) := by
    intro w
    obtain ⟨m', hrun, hdraws, hrest⟩ := deadbase_run (m := m₁ w) hedi
    exact ⟨m', hrun,
      ⟨hdraws.mem, hdraws.notified, hdraws.freed, hdraws.removals, hdraws.stack⟩, hrest⟩
  by_cases hzero : b.signExtend 32 = 0#32
  · -- the first comparison takes `je deadbase`
    obtain ⟨m', hrun, hrest⟩ := hdead 0#32
    refine ⟨m', ?_, hrest⟩
    simpa [outerLoop, hb, hzero, m₁] using hrun
  · by_cases hone : b.signExtend 32 = 1#32
    · obtain ⟨m', hrun, hdraws, hrest⟩ := alivebase_run (m := m₁ 1#32) hedi
      refine ⟨m', ?_,
        ⟨hdraws.mem, hdraws.notified, hdraws.freed, hdraws.removals, hdraws.stack⟩, hrest⟩
      simpa [outerLoop, hb, hzero, hone, m₁] using hrun
    · obtain ⟨m', hrun, hrest⟩ := hdead 1#32
      refine ⟨m', ?_, hrest⟩
      simpa [outerLoop, hb, hzero, hone, m₁] using hrun

theorem byteAt_bases (mem : Memory) {k : ℕ} (hk : k < 3) :
    (mem.byteAt (baseAliveAddr + BitVec.ofNat 32 k)).isSome := by
  have hcases : k = 0 ∨ k = 1 ∨ k = 2 := by omega
  rcases hcases with rfl | rfl | rfl <;> rfl

theorem outerLoop_loop (n : ℕ) :
    ∀ {m : Machine} {k : ℕ}, k + n = 2 → m.regs.esi = BitVec.ofNat 32 k → m.regs.edi = 0#32 →
      m.regs.ebx = baseAliveAddr + BitVec.ofNat 32 k →
      ∃ m', loopJl outerLoop (n + 1) m = some m' ∧ Draws m m' := by
  induction n with
  | zero =>
      intro m k hk hesi hedi hebx
      obtain ⟨m', hrun, hdraws, -, -, -, hcmp⟩ :=
        outerLoop_run (m := m) (by rw [hebx]; exact byteAt_bases _ (by omega)) hedi
      obtain rfl : k = 2 := by omega
      refine ⟨m', ?_, hdraws⟩
      simp [loopJl, hrun, hcmp, hesi]
  | succ n ih =>
      intro m k hk hesi hedi hebx
      obtain ⟨m', hrun, hdraws, hebx', hesi', hedi', hcmp⟩ :=
        outerLoop_run (m := m) (by rw [hebx]; exact byteAt_bases _ (by omega)) hedi
      have hless : (BitVec.ofNat 32 (k + 1)).slt 3#32 = true := by
        rw [slt_ofNat (by omega) (by omega)]
        exact decide_eq_true (by omega)
      obtain ⟨m'', hrest, hdraws'⟩ := ih (m := m') (k := k + 1) (by omega)
        (by rw [hesi', hesi, ofNat_succ]) hedi'
        (by rw [hebx', hebx, BitVec.add_assoc, ofNat_succ])
      refine ⟨m'', ?_, hdraws.trans hdraws'⟩
      rw [loopJl]
      simp only [seq, block, hrun, Option.bind_some, jl, hcmp, hesi, ofNat_succ, hless, if_true]
      exact hrest

/-- **`update_bases`** returns, with the memory as it was. -/
theorem updateBases_draws (m : Machine) : ∃ m', call updateBases m = some m' ∧ Draws m m' := by
  obtain ⟨m', hrun, hdraws⟩ := outerLoop_loop 2
    (m := { m with
      regs := { m.regs with
        eax := 3876#32, ebx := baseAliveAddr, edx := 0#32, esi := 0#32, edi := 0#32 }
      stack := m.regs.ebx :: m.regs.esi :: m.regs.edi :: 0#32 :: 0#32 :: m.stack
      ebp := 0#32 :: 0#32 :: m.stack })
    (k := 0) (by rfl) (by rfl) (by rfl) (by rfl)
  have hstack := hdraws.stack
  simp [call, updateBases, framed, hrun, hstack]
  exact ⟨hdraws.mem, hdraws.notified, hdraws.freed, hdraws.removals, rfl⟩

end MachineProblems.Analysis.Mp1
