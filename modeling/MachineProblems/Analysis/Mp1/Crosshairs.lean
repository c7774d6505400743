import MachineProblems.Program.Mp1.Ioctl
import MachineProblems.Analysis.Mp1.Status
import MachineProblems.Library.Run

/-!
# The crosshairs

`mp1_ioctl_movexhairs` adds to the low halves of both coordinates and then sets at most one
limit: the first comparison that fails jumps to the drawing.  A push beyond the limits of both
axes leaves the vertical one wherever it is.
-/

set_option autoImplicit false

namespace MachineProblems.Analysis.Mp1

open MachineProblems.Library MachineProblems.Program.Mp1

/-- Nothing that the outside sees has changed but the screen. -/
structure Silent (m m' : Machine) : Prop where
  notified : m'.notified = m.notified
  freed : m'.freed = m.freed
  removals : m'.removals = m.removals

/-- Of the registers that belong to the caller, `%esi` and `%ebp` are as they were, `%ebx` and
`%edi` hold `b` and `d`. -/
structure Leaves (m m' : Machine) (b d : Word) : Prop where
  ebx : m'.regs.ebx = b
  esi : m'.regs.esi = m.regs.esi
  edi : m'.regs.edi = d
  ebp : m'.ebp = m.ebp

/-! ## mp1_ioctl_startgame -/

/-- The memory of a game that has just started; the blocks of the last one stay. -/
def restarted (mem : Memory) : Memory :=
  { mem with
    missileList := 0
    baseAlive := fun _ => 1
    score := 0
    crosshairsX := 40
    crosshairsY := 12 }

/-- The saved registers are popped in the order in which they were pushed. -/
theorem startgame_run {m : Machine} {w : Word} {rest : List Word} (hstack : m.stack = w :: rest) :
    ∃ m', mp1IoctlStartgame m = some m' ∧ m'.mem = restarted m.mem ∧ Silent m m' ∧
      Leaves m m' m.regs.edi m.regs.ebx := by
  have hthird : ∀ mem : Memory, mem.byteAt (baseAliveAddr + 2#32) = some (mem.baseAlive 2) :=
    fun _ => rfl
  have hbases : ∀ alive : Fin 3 → Byte, Function.update (Function.update
      (Function.update alive 0 1#8) 1 1#8) 2 1#8 = fun _ => 1#8 := by
    intro alive
    funext i
    match i with
    | 0 => rfl
    | 1 => rfl
    | 2 => rfl
  simp [mp1IoctlStartgame, framed, hthird, hstack, restarted, hbases]
  exact ⟨⟨rfl, rfl, rfl⟩, rfl, rfl, rfl, rfl⟩

/-! ## mp1_ioctl_movexhairs -/

/-- The displacements that the argument carries. -/
def displacementX (arg : Word) : Half := arg.extractLsb' 0 16

def displacementY (arg : Word) : Half := arg.extractLsb' 16 16

/-- What an addition to the low half leaves. -/
def pushedBy (w : Word) (d : Half) : Word := setLowHalf w (lowHalf w + d)

/-- What the comparisons leave of the two coordinates. -/
def limited (x y : Word) : Word × Word :=
  if (lowHalf x).slt 0 then (0, y)
  else if (79 : Half).slt (lowHalf x) then (setLowHalf x 79, y)
  else if (lowHalf y).slt 0 then (x, setLowHalf y 0)
  else if (24 : Half).slt (lowHalf y) then (x, setLowHalf y 24)
  else (x, y)

/-- The offset of the crosshairs in the video memory. -/
def crosshairsOffset (mem : Memory) : Word := mem.crosshairsX * 2 + mem.crosshairsY * 160

section Execute

variable {m : Machine}

theorem lowHalf_eq (w : Word) : lowHalf w = w.extractLsb' 0 16 := by
  apply BitVec.eq_of_getLsbD_eq
  intro i hi
  simp [lowHalf, hi]

theorem lowHalf_sshiftRight (w : Word) : lowHalf (w.sshiftRight 16) = w.extractLsb' 16 16 := by
  apply BitVec.eq_of_getLsbD_eq
  intro i hi
  have hsum : 16 + i < 32 := by omega
  have hbit : ¬ 32 ≤ i := by omega
  simp [lowHalf, BitVec.getLsbD_sshiftRight, hi, hsum, hbit]

theorem slt_signExtend (a b : Half) : (a.signExtend 32).slt (b.signExtend 32) = a.slt b := by
  rw [BitVec.slt, BitVec.slt, BitVec.toInt_signExtend_of_le (by decide),
    BitVec.toInt_signExtend_of_le (by decide)]

theorem drawCrosshairs_run (m : Machine) : ∃ m', drawCrosshairs m = some m' ∧ m'.mem = m.mem ∧
    m'.video = m.video ++ [(crosshairsOffset m.mem, 43)] ∧ Silent m m' ∧
    Leaves m m' (m.mem.crosshairsY * 160) m.regs.edi := by
  simp [drawCrosshairs, crosshairsOffset]
  exact ⟨⟨rfl, rfl, rfl⟩, rfl, rfl, rfl, rfl⟩

theorem seq_cmpw_jl (h : Half) (v : Var) (taken next : Code) :
    seq [cmpw h v] (jl taken next) m =
      (if (lowHalf (m.mem.get v)).slt h then taken else next)
        { m with compared := ((lowHalf (m.mem.get v)).signExtend 32, h.signExtend 32) } := by
  simp only [seq, block, cmpw, Option.bind_some, jl, slt_signExtend]
  split <;> rfl

theorem seq_cmpw_jg (h : Half) (v : Var) (taken next : Code) :
    seq [cmpw h v] (jg taken next) m =
      (if h.slt (lowHalf (m.mem.get v)) then taken else next)
        { m with compared := ((lowHalf (m.mem.get v)).signExtend 32, h.signExtend 32) } := by
  simp only [seq, block, cmpw, Option.bind_some, jg, slt_signExtend]
  split <;> rfl

theorem seq_movl_var (w : Word) (v : Var) (k : Code) :
    seq [movl (.imm w) (.var v)] k m = k { m with mem := m.mem.set w v } := by
  simp

theorem seq_movw (h : Half) (v : Var) (k : Code) :
    seq [movw h v] k m = k { m with mem := m.mem.set (setLowHalf (m.mem.get v) h) v } := by
  simp [movw]

/-- The drawing after a store to the coordinates. -/
theorem drawCrosshairs_stored (m : Machine) (compared : Word × Word) (mem : Memory) :
    ∃ m', drawCrosshairs { m with compared := compared, mem := mem } = some m' ∧ m'.mem = mem ∧
      m'.video = m.video ++ [(crosshairsOffset m'.mem, 43)] ∧ Silent m m' ∧
      Leaves m m' (m'.mem.crosshairsY * 160) m.regs.edi := by
  obtain ⟨m', hrun, hmem, hvideo, hsilent, hleaves⟩ :=
    drawCrosshairs_run { m with compared := compared, mem := mem }
  refine ⟨m', hrun, hmem, ?_, ⟨hsilent.notified, hsilent.freed, hsilent.removals⟩,
    ?_, hleaves.esi, hleaves.edi, hleaves.ebp⟩
  · rw [hvideo, hmem]
  · rw [hleaves.ebx, hmem]

/-- **The comparisons** set the first limit that is exceeded. -/
theorem limitCrosshairs_run (m : Machine) : ∃ m', limitCrosshairs m = some m' ∧
    m'.mem = { m.mem with
      crosshairsX := (limited m.mem.crosshairsX m.mem.crosshairsY).1
      crosshairsY := (limited m.mem.crosshairsX m.mem.crosshairsY).2 } ∧
    m'.video = m.video ++ [(crosshairsOffset m'.mem, 43)] ∧ Silent m m' ∧
    Leaves m m' (m'.mem.crosshairsY * 160) m.regs.edi := by
  unfold limitCrosshairs limited
  rw [seq_cmpw_jl]
  by_cases hxl : (lowHalf m.mem.crosshairsX).slt 0
  · simp only [lowerXLimit, Memory.get, hxl, if_true]
    rw [xSetLowerLimit, seq_movl_var]
    exact drawCrosshairs_stored m _ _
  simp only [lowerXLimit, Memory.get, hxl, if_false, Bool.false_eq_true]
  rw [seq_cmpw_jg]
  by_cases hxh : (79 : Half).slt (lowHalf m.mem.crosshairsX)
  · simp only [upperXLimit, Memory.get, hxh, if_true]
    rw [xSetHigherLimit, seq_movw]
    exact drawCrosshairs_stored m _ _
  simp only [upperXLimit, Memory.get, hxh, if_false, Bool.false_eq_true]
  rw [seq_cmpw_jl]
  by_cases hyl : (lowHalf m.mem.crosshairsY).slt 0
  · simp only [lowerYLimit, Memory.get, hyl, if_true]
    rw [ySetLowerLimit, seq_movw]
    exact drawCrosshairs_stored m _ _
  simp only [lowerYLimit, Memory.get, hyl, if_false, Bool.false_eq_true]
  rw [seq_cmpw_jg]
  by_cases hyh : (24 : Half).slt (lowHalf m.mem.crosshairsY)
  · simp only [upperYLimit, Memory.get, hyh, if_true]
    rw [ySetHigherLimit, seq_movw]
    exact drawCrosshairs_stored m _ _
  · simp only [upperYLimit, Memory.get, hyh, if_false, Bool.false_eq_true]
    exact drawCrosshairs_stored m _ _

/-- The additions, whatever code sets the limits. -/
theorem pushCrosshairs_run {back arg : Word} {rest : List Word}
    (hstack : m.stack = back :: arg :: rest) (limit : Code) : ∃ m₁, pushCrosshairs limit m =
        (limit m₁).map (fun m' => { m' with stack := arg :: rest, ebp := m.ebp }) ∧
      m₁.mem = { m.mem with
        crosshairsX := pushedBy m.mem.crosshairsX (displacementX arg)
        crosshairsY := pushedBy m.mem.crosshairsY (displacementY arg) } ∧
      m₁.video = m.video ++ [(crosshairsOffset m.mem, 32)] ∧ Silent m m₁ ∧
      m₁.regs.esi = m.regs.esi ∧ m₁.regs.edi = m.regs.edi := by
  have hx := lowHalf_eq arg
  have hy := lowHalf_sshiftRight arg
  let m₁ : Machine := { m with
    regs := { m.regs with
      eax := crosshairsOffset m.mem
      ebx := arg.sshiftRight 16
      ecx := setLowByte m.regs.ecx 32
      edx := m.env.vmemBaseAddr }
    stack := 0 :: back :: arg :: rest
    ebp := 0 :: back :: arg :: rest
    mem := { m.mem with
      crosshairsX := pushedBy m.mem.crosshairsX (displacementX arg)
      crosshairsY := pushedBy m.mem.crosshairsY (displacementY arg) }
    video := m.video ++ [(crosshairsOffset m.mem, 32)] }
  refine ⟨m₁, ?_, rfl, rfl, ⟨rfl, rfl, rfl⟩, rfl, rfl⟩
  simp only [pushCrosshairs, framed, hstack]
  simp [addw, hx, hy, m₁, crosshairsOffset, pushedBy, displacementX, displacementY,
    Option.map_eq_bind]

/-- **`mp1_ioctl_movexhairs`**, for any position and any argument. -/
theorem movexhairs_run {back arg : Word} {rest : List Word}
    (hstack : m.stack = back :: arg :: rest) : ∃ m', mp1IoctlMovexhairs m = some m' ∧
      m'.mem = { m.mem with
        crosshairsX := (limited (pushedBy m.mem.crosshairsX (displacementX arg))
          (pushedBy m.mem.crosshairsY (displacementY arg))).1
        crosshairsY := (limited (pushedBy m.mem.crosshairsX (displacementX arg))
          (pushedBy m.mem.crosshairsY (displacementY arg))).2 } ∧
      m'.video = m.video ++ [(crosshairsOffset m.mem, 32), (crosshairsOffset m'.mem, 43)] ∧
      Silent m m' ∧ Leaves m m' (m'.mem.crosshairsY * 160) m.regs.edi := by
  obtain ⟨m₁, hpush, hmem₁, hvideo₁, hsilent₁, hesi, hedi⟩ :=
    pushCrosshairs_run hstack limitCrosshairs
  obtain ⟨m₂, hlimit, hmem₂, hvideo₂, hsilent₂, hleaves⟩ := limitCrosshairs_run m₁
  refine ⟨{ m₂ with stack := arg :: rest, ebp := m.ebp }, ?_, ?_, ?_,
    ⟨hsilent₂.notified.trans hsilent₁.notified, hsilent₂.freed.trans hsilent₁.freed,
      hsilent₂.removals.trans hsilent₁.removals⟩,
    hleaves.ebx, hleaves.esi.trans hesi, hleaves.edi.trans hedi, rfl⟩
  · rw [mp1IoctlMovexhairs, hpush, hlimit]
    rfl
  · simp only [hmem₂, hmem₁]
  · simp only [hvideo₂, hvideo₁, List.append_assoc, List.singleton_append]

end Execute

/-! ## Half words as numbers -/

section Halves

variable {w : Word}

theorem lowHalf_setLowHalf (w : Word) (h : Half) : lowHalf (setLowHalf w h) = h := by
  unfold lowHalf setLowHalf
  rw [BitVec.setWidth_append]
  simp

theorem toNat_setLowHalf (hw : w.toNat < 65536) (h : Half) : (setLowHalf w h).toNat = h.toNat := by
  have hhigh : w.toNat / 65536 = 0 := Nat.div_eq_of_lt hw
  unfold setLowHalf
  rw [BitVec.toNat_append, BitVec.extractLsb'_toNat, Nat.shiftRight_eq_div_pow]
  simp [hhigh]

theorem toNat_lowHalf (hw : w.toNat < 65536) : (lowHalf w).toNat = w.toNat := by
  unfold lowHalf
  rw [BitVec.toNat_setWidth, Nat.mod_eq_of_lt hw]

theorem toInt_setLowHalf (hw : w.toNat < 65536) (h : Half) : (setLowHalf w h).toInt = h.toNat := by
  have hlt := h.isLt
  rw [BitVec.toInt_eq_toNat_of_lt]
  · rw [toNat_setLowHalf hw]
  · rw [toNat_setLowHalf hw]
    omega

theorem toNat_of_toInt (h0 : 0 ≤ w.toInt) : (w.toNat : ℤ) = w.toInt := by
  have hlt := w.isLt
  rw [BitVec.toInt_eq_toNat_cond] at h0 ⊢
  split_ifs at h0 ⊢ <;> omega

/-- A coordinate on the screen after a push: its low half as the comparisons see it, and the whole
word. -/
theorem pushedBy_spec (h0 : 0 ≤ w.toInt) (h79 : w.toInt ≤ 79) (d : Half) :
    let n := w.toInt + d.toInt
    (n ≤ 32767 ∧ (lowHalf (pushedBy w d)).toInt = n ∨
        32767 < n ∧ (lowHalf (pushedBy w d)).toInt = n - 65536) ∧
      (0 ≤ n ∧ (pushedBy w d).toInt = n ∨ n < 0 ∧ (pushedBy w d).toInt = n + 65536) ∧
      (pushedBy w d).toNat < 65536 := by
  intro n
  have hint := (toNat_of_toInt h0).symm
  have hlow : (lowHalf w).toNat = w.toNat := toNat_lowHalf (by omega)
  have hsum : (lowHalf w + d).toNat = (w.toNat + d.toNat) % 65536 := by
    rw [BitVec.toNat_add, hlow]
  have hd : d.toInt = if 2 * d.toNat < 65536 then (d.toNat : ℤ) else d.toNat - 65536 :=
    BitVec.toInt_eq_toNat_cond d
  have hn : n = w.toInt + d.toInt := rfl
  rw [hd, hint] at hn
  have hlt := d.isLt
  refine ⟨?_, ?_, ?_⟩
  · rw [pushedBy, lowHalf_setLowHalf, BitVec.toInt_eq_toNat_cond, hsum]
    split_ifs at hn ⊢ <;> omega
  · rw [pushedBy, toInt_setLowHalf (by omega), hsum]
    split_ifs at hn <;> omega
  · rw [pushedBy, toNat_setLowHalf (by omega)]
    exact BitVec.isLt _

end Halves

/-! ## Confinement -/

/-- An offset in the text screen of 80 columns and 25 rows. -/
def OnScreen (offset : Word) : Prop := offset.toNat < 4000 ∧ offset.toNat % 2 = 0

/-- The crosshairs, as 32-bit integers, are within their limits. -/
structure WithinLimits (mem : Memory) : Prop where
  left : 0 ≤ mem.crosshairsX.toInt
  right : mem.crosshairsX.toInt ≤ 79
  top : 0 ≤ mem.crosshairsY.toInt
  bottom : mem.crosshairsY.toInt ≤ 24

theorem crosshairsOffset_onScreen {mem : Memory} (h : WithinLimits mem) :
    OnScreen (crosshairsOffset mem) := by
  have hx := toNat_of_toInt h.left
  have hy := toNat_of_toInt h.top
  have hright := h.right
  have hbottom := h.bottom
  have hoffset : (crosshairsOffset mem).toNat =
      (mem.crosshairsX.toNat * 2 + mem.crosshairsY.toNat * 160) % 2 ^ 32 := by
    simp [crosshairsOffset, BitVec.toNat_add, BitVec.toNat_mul]
  unfold OnScreen
  rw [hoffset, Nat.mod_eq_of_lt (by omega)]
  omega

/-- A coordinate brought into its range. -/
def clamped (limit n : ℤ) : ℤ := max 0 (min limit n)

/-- A call keeps the crosshairs on the screen, moves them as far as the argument says within the
limits, and draws on the screen. -/
structure Confined (m m' : Machine) (arg : Word) : Prop where
  within : WithinLimits m'.mem
  x : m'.mem.crosshairsX.toInt =
    clamped 79 (m.mem.crosshairsX.toInt + (displacementX arg).toInt)
  y : m'.mem.crosshairsY.toInt =
    clamped 24 (m.mem.crosshairsY.toInt + (displacementY arg).toInt)
  pokes : ∃ erased drawn, m'.video = m.video ++ [(erased, 32), (drawn, 43)] ∧
    OnScreen erased ∧ OnScreen drawn

/-- The push overflows neither half word and crosses the limits of one axis at most. -/
def OneLimit (mem : Memory) (arg : Word) : Prop :=
  let x := mem.crosshairsX.toInt + (displacementX arg).toInt
  let y := mem.crosshairsY.toInt + (displacementY arg).toInt
  x ≤ 32767 ∧ y ≤ 32767 ∧ (0 ≤ x ∧ x ≤ 79 ∨ 0 ≤ y ∧ y ≤ 24)

theorem limited_iff {mem : Memory} (h : WithinLimits mem) (arg : Word) :
    let moved := limited (pushedBy mem.crosshairsX (displacementX arg))
      (pushedBy mem.crosshairsY (displacementY arg))
    moved.1.toInt = clamped 79 (mem.crosshairsX.toInt + (displacementX arg).toInt) ∧
      moved.2.toInt = clamped 24 (mem.crosshairsY.toInt + (displacementY arg).toInt) ↔
    OneLimit mem arg := by
  obtain ⟨hxl, hx, hxlt⟩ := pushedBy_spec h.left h.right (displacementX arg)
  obtain ⟨hyl, hy, hylt⟩ := pushedBy_spec h.top (by have := h.bottom; omega) (displacementY arg)
  obtain ⟨hleft, hright, htop, hbottom⟩ := h
  have hdx := BitVec.le_toInt (displacementX arg)
  have hdx' := BitVec.toInt_lt (x := displacementX arg)
  have hdy := BitVec.le_toInt (displacementY arg)
  have hdy' := BitVec.toInt_lt (x := displacementY arg)
  have h0 : (0 : Half).toInt = 0 := rfl
  have h79 : (79 : Half).toInt = 79 := rfl
  have h24 : (24 : Half).toInt = 24 := rfl
  have hset79 := toInt_setLowHalf hxlt 79
  have hset0 := toInt_setLowHalf hylt 0
  have hset24 := toInt_setLowHalf hylt 24
  have hn0 : ((0 : Half).toNat : ℤ) = 0 := rfl
  have hn79 : ((79 : Half).toNat : ℤ) = 79 := rfl
  have hn24 : ((24 : Half).toNat : ℤ) = 24 := rfl
  have hzero : (0 : Word).toInt = 0 := rfl
  simp only [limited, OneLimit, clamped, BitVec.slt, decide_eq_true_eq, h0, h79, h24]
  split_ifs <;> simp only [hset79, hset0, hset24, hn0, hn79, hn24, hzero] <;> omega

/-! ## Whole runs -/

/-- One call of `mp1_ioctl_movexhairs`: its argument, and what it finds. -/
structure Push where
  arg : Word
  regs : Regs
  env : Env

def pushStep (fuel : ℕ) (m : Machine) (p : Push) : Option Machine :=
  serve fuel m ⟨.movexhairs, p.arg, p.regs, p.env⟩

theorem clamped_bounds {limit : ℤ} (hlimit : 0 ≤ limit) (n : ℤ) :
    0 ≤ clamped limit n ∧ clamped limit n ≤ limit := by
  unfold clamped
  omega

/-- **One call** runs, and is confined exactly if it crosses one limit at most. -/
theorem pushStep_confined (fuel : ℕ) {m : Machine} (h : WithinLimits m.mem) (p : Push) :
    ∃ m', pushStep fuel m p = some m' ∧ (Confined m m' p.arg ↔ OneLimit m.mem p.arg) := by
  let m₁ : Machine := { m with regs := p.regs, env := p.env, stack := [0, p.arg], ebp := [] }
  have hstack : m₁.stack = 0 :: p.arg :: [] := rfl
  obtain ⟨m', hrun, hmem, hvideo, -⟩ := movexhairs_run hstack
  refine ⟨m', hrun, Iff.trans ?_ (limited_iff h p.arg)⟩
  constructor
  · intro hconfined
    have hx := hconfined.x
    have hy := hconfined.y
    rw [hmem] at hx hy
    exact ⟨hx, hy⟩
  · rintro ⟨hx, hy⟩
    have hx' := clamped_bounds (by decide : (0 : ℤ) ≤ 79)
      (m.mem.crosshairsX.toInt + (displacementX p.arg).toInt)
    have hy' := clamped_bounds (by decide : (0 : ℤ) ≤ 24)
      (m.mem.crosshairsY.toInt + (displacementY p.arg).toInt)
    rw [← hx] at hx'
    rw [← hy] at hy'
    have hwithin : WithinLimits m'.mem := by
      rw [hmem]
      exact ⟨hx'.1, hx'.2, hy'.1, hy'.2⟩
    refine ⟨hwithin, ?_, ?_, _, _, hvideo, crosshairsOffset_onScreen h,
      crosshairsOffset_onScreen hwithin⟩
    · rw [hmem]
      exact hx
    · rw [hmem]
      exact hy

theorem startgame_restarted (fuel : ℕ) (m : Machine) (arg : Word) (regs : Regs) (env : Env) :
    ∃ m₁, serve fuel m ⟨.startgame, arg, regs, env⟩ = some m₁ ∧ m₁.mem = restarted m.mem := by
  let m' : Machine := { m with regs := regs, env := env, stack := [0, arg], ebp := [] }
  have hstack : m'.stack = 0 :: [arg] := rfl
  obtain ⟨m₁, hrun, hmem, -⟩ := startgame_run hstack
  exact ⟨m₁, hrun, hmem⟩

theorem restarted_within (mem : Memory) : WithinLimits (restarted mem) where
  left := (by decide : 0 ≤ (40#32).toInt)
  right := (by decide : (40#32).toInt ≤ 79)
  top := (by decide : 0 ≤ (12#32).toInt)
  bottom := (by decide : (12#32).toInt ≤ 24)

/-- **Confinement over whole runs**: after `mp1_ioctl_startgame` every call of a sequence is
confined exactly if every call of it crosses the limits of one axis at most and overflows no half
word. -/
theorem confined_iff_oneLimit (fuel : ℕ) (m : Machine) (arg : Word) (regs : Regs) (env : Env)
    (pushes : List Push) :
    ∃ m₁, serve fuel m ⟨.startgame, arg, regs, env⟩ = some m₁ ∧ WithinLimits m₁.mem ∧
      (everyStep (pushStep fuel)
          (fun m p => ∃ m', pushStep fuel m p = some m' ∧ Confined m m' p.arg) m₁ pushes ↔
        everyStep (pushStep fuel) (fun m p => OneLimit m.mem p.arg) m₁ pushes) := by
  obtain ⟨m₁, hstart, hmem⟩ := startgame_restarted fuel m arg regs env
  have hwithin : WithinLimits m₁.mem := by
    rw [hmem]
    exact restarted_within m.mem
  refine ⟨m₁, hstart, hwithin, everyStep_congr (I := fun m => WithinLimits m.mem) ?_ ?_ hwithin⟩
  · intro m p t h hone ht
    obtain ⟨m', hrun, hiff⟩ := pushStep_confined fuel h p
    obtain rfl := Option.some.inj (hrun.symm.trans ht)
    exact (hiff.mpr hone).within
  · intro m p h
    obtain ⟨m', hrun, hiff⟩ := pushStep_confined fuel h p
    rw [← hiff]
    constructor
    · rintro ⟨t, ht, hconfined⟩
      obtain rfl := Option.some.inj (hrun.symm.trans ht)
      exact hconfined
    · intro hconfined
      exact ⟨m', hrun, hconfined⟩

/-- A push to the lower right, over both limits, leaves row 25. -/
theorem corner_leaves_screen :
    ∃ m₁, serve 0 lastBase ⟨.startgame, 0, zeroRegs, kernel⟩ = some m₁ ∧
      ¬ everyStep (pushStep 0)
        (fun m p => ∃ m', pushStep 0 m p = some m' ∧ Confined m m' p.arg) m₁
        [⟨0x000D0028, zeroRegs, kernel⟩] := by
  obtain ⟨m₁, hstart, hmem⟩ := startgame_restarted 0 lastBase 0 zeroRegs kernel
  have hwithin : WithinLimits m₁.mem := by
    rw [hmem]
    exact restarted_within lastBase.mem
  refine ⟨m₁, hstart, ?_⟩
  rintro ⟨⟨m', hpush, hconfined⟩, -⟩
  obtain ⟨t, ht, hiff⟩ := pushStep_confined 0 hwithin ⟨0x000D0028, zeroRegs, kernel⟩
  obtain rfl := Option.some.inj (ht.symm.trans hpush)
  have hone := hiff.mp hconfined
  rw [hmem] at hone
  have hnot : ¬ OneLimit (restarted lastBase.mem) 0x000D0028 := by
    unfold OneLimit
    decide
  exact hnot hone

end MachineProblems.Analysis.Mp1
