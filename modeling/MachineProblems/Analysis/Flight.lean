import MachineProblems.Program.MissileCommand
import MachineProblems.Analysis.Mp1.Strokes
import MachineProblems.Library.Sampling

/-!
# The flight of a missile

`make_missile` gives a missile the centre of its cell as its position, and a velocity that is
truncated twice, by the square root and by the division.  On the axis of the larger distance some
tick takes it to within half a step of the centre of its destination, and on the other axis it is
at most one unit a tick further away.  A step is shorter than a cell and there are fewer than three
thousand ticks, so the missile is in the cell of its destination.
-/

set_option autoImplicit false

namespace MachineProblems.Analysis.Flight

open MachineProblems.Library MachineProblems.Model
open MachineProblems.Program.Mp1 MachineProblems.Program.MissileCommand
open MachineProblems.Analysis.Mp1

/-- The missile is in the cell of its destination after `t` ticks, and until then it flies on the
screen. -/
structure Arrives (f : Missile) (dx dy : ℤ) (t : ℕ) : Prop where
  hits : cell (moved^[t] f).x = dx ∧ cell (moved^[t] f).y = dy
  reaches : turn (moved^[t] f) = .reach
  flies : ∀ u < t, turn (moved^[u] f) = .fly
  onCells : ∀ u ≤ t, OnCells (moved^[u] f)

/-! ## The two axes -/

/-- How near a missile comes to the centre of its destination on each axis, in units of which a cell
has 65536. -/
def reach : ℤ := 28490

/-- The local variable `mag` of `make_missile`. -/
def mag (vx vy : ℤ) : ℤ := Nat.sqrt ((vx * vx + vy * vy) * 2 ^ 16).toNat

/-- The distance that `make_missile` covers in a tick, for the distance `v` on one axis. -/
def speed (vel mag v : ℤ) : ℤ := 65536 * vel * v / mag

section Speed

variable {vel mag D : ℤ} (hvel : 10 ≤ vel ∧ vel ≤ 200)
include hvel

/-- **A step is shorter than a cell.** -/
theorem speed_le (hmag : 0 < mag) (hlow : 256 * D ≤ mag) : speed vel mag D ≤ 51200 := by
  apply Int.lt_add_one_iff.mp
  apply (Int.ediv_lt_iff_lt_mul hmag).mpr
  nlinarith

theorem speed_nonneg (hmag : 0 < mag) (hD : 0 ≤ D) : 0 ≤ speed vel mag D := by
  apply Int.ediv_nonneg _ hmag.le
  exact mul_nonneg (by omega) hD

theorem le_speed (hmag : 0 < mag) (hD : 0 < D) (hhigh : mag ≤ 363 * D) :
    1800 ≤ speed vel mag D := by
  apply (Int.le_ediv_iff_mul_le hmag).mpr
  nlinarith

end Speed

/-- **Some tick** takes the missile near its destination on both axes. -/
theorem some_tick {vel mag D M : ℤ} (hD : 0 < D) (hwidth : D ≤ 79) (hM : 0 ≤ M) (hMD : M ≤ D)
    (hlow : 256 * D ≤ mag) (hhigh : mag ≤ 363 * D) (hvel : 10 ≤ vel ∧ vel ≤ 200) :
    ∃ t : ℤ, 0 ≤ t ∧ |t * speed vel mag D - 65536 * D| ≤ reach ∧
      |t * speed vel mag M - 65536 * M| ≤ reach := by
  have hmag : 0 < mag := by omega
  have hslow := le_speed hvel hmag hD hhigh
  have hfast := speed_le hvel hmag hlow
  obtain ⟨t, ht, hover, hunder⟩ :=
    multiple_near (by omega : 0 < speed vel mag D) (by omega : 0 ≤ 65536 * D)
  have hmajor : |t * speed vel mag D - 65536 * D| ≤ 25600 := by
    apply abs_le.mpr
    omega
  have hticks : t ≤ 2890 := by
    by_contra hlong
    have hfar : 2891 * 1800 ≤ t * speed vel mag D :=
      mul_le_mul (by omega) hslow (by decide) ht
    omega
  refine ⟨t, ht, hmajor.trans (by decide), ?_⟩
  calc |t * speed vel mag M - 65536 * M|
      ≤ t + |t * speed vel mag D - 65536 * D| :=
        minor_follows hD hM hMD ht (slope_near hD.le hM hMD hmag)
    _ ≤ 2890 + 25600 := add_le_add hticks hmajor
    _ = reach := rfl

/-- The same for the distances in either order. -/
theorem some_tick_either {vel mag p q : ℤ} (hp : 0 ≤ p ∧ p ≤ 79) (hq : 0 ≤ q ∧ q ≤ 79)
    (hpq : 0 < max p q) (hlow : 256 * max p q ≤ mag) (hhigh : mag ≤ 363 * max p q)
    (hvel : 10 ≤ vel ∧ vel ≤ 200) :
    ∃ t : ℤ, 0 ≤ t ∧ |t * speed vel mag p - 65536 * p| ≤ reach ∧
      |t * speed vel mag q - 65536 * q| ≤ reach := by
  rcases le_total q p with h | h
  · rw [max_eq_left h] at hpq hlow hhigh
    exact some_tick hpq hp.2 hq.1 h hlow hhigh hvel
  · rw [max_eq_right h] at hpq hlow hhigh
    obtain ⟨t, ht, hmajor, hminor⟩ := some_tick hpq hq.2 hp.1 h hlow hhigh hvel
    exact ⟨t, ht, hminor, hmajor⟩

theorem mag_bounds {vx vy : ℤ} (h : 0 < max |vx| |vy|) :
    256 * max |vx| |vy| ≤ mag vx vy ∧ mag vx vy ≤ 363 * max |vx| |vy| := by
  obtain ⟨D, hD⟩ := Int.eq_ofNat_of_zero_le h.le
  have hx : |vx| ≤ D := hD ▸ le_max_left |vx| |vy|
  have hy : |vy| ≤ D := hD ▸ le_max_right |vx| |vy|
  have hsquareX : |vx| * |vx| ≤ D * D := mul_le_mul hx hx (abs_nonneg _) (by omega)
  have hsquareY : |vy| * |vy| ≤ D * D := mul_le_mul hy hy (abs_nonneg _) (by omega)
  rw [abs_mul_abs_self] at hsquareX hsquareY
  have hsum : (D : ℤ) * D ≤ vx * vx + vy * vy := by
    rcases max_choice |vx| |vy| with hmax | hmax
    · rw [← hD, hmax, abs_mul_abs_self]
      exact le_add_of_nonneg_right (mul_self_nonneg vy)
    · rw [← hD, hmax, abs_mul_abs_self]
      exact le_add_of_nonneg_left (mul_self_nonneg vx)
  have hpos : (0 : ℤ) < D := hD ▸ h
  rw [hD, mag]
  constructor
  · have hroot : 256 * D ≤ Nat.sqrt ((vx * vx + vy * vy) * 2 ^ 16).toNat := by
      apply Nat.le_sqrt.mpr
      zify
      rw [Int.toNat_of_nonneg (by nlinarith)]
      nlinarith
    exact_mod_cast hroot
  · have hroot : Nat.sqrt ((vx * vx + vy * vy) * 2 ^ 16).toNat < 363 * D := by
      apply Nat.sqrt_lt.mpr
      zify
      rw [Int.toNat_of_nonneg (by nlinarith)]
      nlinarith
    exact_mod_cast hroot.le

/-! ## One axis -/

theorem int32_of_bounds {n : ℤ} (h : -2 ^ 31 ≤ n ∧ n < 2 ^ 31) : int32 n = some n := if_pos h

/-- The quotient is truncated towards zero on either side of it. -/
theorem tdiv_speed {v vel mag : ℤ} (hvel : 0 ≤ vel) :
    (v * 2 ^ 16 * vel).tdiv mag = v.sign * speed vel mag |v| := by
  have hpos : ∀ w : ℤ, 0 ≤ w → (w * 2 ^ 16 * vel).tdiv mag = speed vel mag w := by
    intro w hw
    rw [Int.tdiv_eq_ediv_of_nonneg (by positivity), speed]
    ring_nf
  rcases lt_trichotomy v 0 with hneg | rfl | hgt
  · rw [Int.sign_eq_neg_one_of_neg hneg, abs_of_neg hneg, ← hpos (-v) (by omega), neg_one_mul,
      ← Int.neg_tdiv]
    ring_nf
  · rw [zero_mul, zero_mul, Int.zero_tdiv, Int.sign_zero, zero_mul]
  · rw [Int.sign_eq_one_of_pos hgt, abs_of_pos hgt, hpos v hgt.le, one_mul]

theorem velocity_speed {v vel mag : ℤ} (hv : |v| ≤ 79) (hvel : 10 ≤ vel ∧ vel ≤ 200)
    (hmag : mag ≠ 0) : velocity v vel mag = some (v.sign * speed vel mag |v|) := by
  obtain ⟨hlow, hhigh⟩ := abs_le.mp hv
  have hfixed : int32 (v * 2 ^ 16) = some (v * 2 ^ 16) := int32_of_bounds (by omega)
  have hscaled : int32 (v * 2 ^ 16 * vel) = some (v * 2 ^ 16 * vel) := by
    apply int32_of_bounds
    constructor <;> nlinarith
  simp only [velocity, hfixed, hscaled, Option.bind_eq_bind, Option.bind_some, if_neg hmag,
    tdiv_speed (by omega : 0 ≤ vel)]

/-- **A coordinate stays between** its start and its destination, but for less than half a cell. -/
theorem between {s d w t u : ℤ} (hnear : |t * w - 65536 * (d - s)| ≤ reach) (hu : 0 ≤ u)
    (hut : u ≤ t) : min s d * 65536 + 79 ≤ s * 65536 + 32768 + u * w ∧
      s * 65536 + 32768 + u * w < max s d * 65536 + 65536 := by
  obtain ⟨hlow, hhigh⟩ := abs_le.mp hnear
  have hreach : reach = 28490 := rfl
  rcases le_total 0 w with hw | hw
  · have hstart : 0 ≤ u * w := mul_nonneg hu hw
    have hend : u * w ≤ t * w := mul_le_mul_of_nonneg_right hut hw
    omega
  · have hstart : u * w ≤ 0 := mul_nonpos_of_nonneg_of_nonpos hu hw
    have hend : t * w ≤ u * w := mul_le_mul_of_nonpos_right hut hw
    omega

/-- The distance left, with its sign. -/
theorem signed_near {v p vel mag t : ℤ} (hp : |v| = p)
    (h : |t * speed vel mag p - 65536 * p| ≤ reach) :
    |t * (v.sign * speed vel mag p) - 65536 * v| ≤ reach := by
  have hv : v = v.sign * p := by rw [← hp, Int.sign_mul_abs]
  have hfactor : t * (v.sign * speed vel mag p) - 65536 * v =
      v.sign * (t * speed vel mag p - 65536 * p) :=
    calc t * (v.sign * speed vel mag p) - 65536 * v
        = t * (v.sign * speed vel mag p) - 65536 * (v.sign * p) := by rw [← hv]
      _ = v.sign * (t * speed vel mag p - 65536 * p) := by ring
  rw [hfactor, abs_mul]
  have hsign : |v.sign| ≤ 1 := by
    rcases Int.sign_trichotomy v with hv | hv | hv <;> rw [hv] <;> decide
  exact (mul_le_of_le_one_left (abs_nonneg _) hsign).trans h

/-! ## The position -/

/-- The centre of a cell. -/
theorem centre_toInt {s : ℤ} (h : 0 ≤ s ∧ s ≤ 79) :
    (BitVec.ofInt 32 (s * 2 ^ 16) ||| 0x8000 : Word).toInt = s * 65536 + 32768 := by
  obtain ⟨n, rfl⟩ := Int.eq_ofNat_of_zero_le h.1
  have hofNat : BitVec.ofInt 32 ((n : ℤ) * 2 ^ 16) = BitVec.ofNat 32 (n <<< 16) := by
    rw [Nat.shiftLeft_eq]
    exact_mod_cast BitVec.ofInt_natCast 32 (n * 2 ^ 16)
  have hsmall : n <<< 16 < 2 ^ 32 := by
    rw [Nat.shiftLeft_eq]
    omega
  have hnat : (BitVec.ofNat 32 (n <<< 16) ||| 0x8000 : Word).toNat = n * 65536 + 32768 := by
    rw [BitVec.toNat_or, BitVec.toNat_ofNat, Nat.mod_eq_of_lt hsmall]
    show n <<< 16 ||| 32768 = n * 65536 + 32768
    rw [← Nat.shiftLeft_add_eq_or_of_lt (by decide : 32768 < 2 ^ 16), Nat.shiftLeft_eq]
  rw [hofNat, BitVec.toInt_eq_toNat_of_lt (by omega), hnat]
  push_cast
  rfl

theorem moved_iterate (f : Missile) (u : ℕ) : moved^[u] f =
    { f with x := f.x + BitVec.ofNat 32 u * f.vx, y := f.y + BitVec.ofNat 32 u * f.vy } := by
  induction u with
  | zero => simp
  | succ u ih =>
      rw [Function.iterate_succ_apply', ih, moved, BitVec.ofNat_add]
      simp only [Missile.mk.injEq, true_and, and_true]
      constructor <;> grind

/-- A coordinate does not wrap around. -/
theorem toInt_advance {p w : Word} {s v : ℤ} {u : ℕ} (hp : p.toInt = s) (hw : w.toInt = v)
    (hrange : -2 ^ 31 ≤ s + u * v ∧ s + u * v < 2 ^ 31) :
    (p + BitVec.ofNat 32 u * w).toInt = s + u * v := by
  rw [BitVec.toInt_add, BitVec.toInt_mul, BitVec.toInt_ofNat', hp, hw, Int.bmod_mul_bmod,
    Int.add_bmod_bmod]
  apply Int.bmod_eq_of_le <;> omega

/-- **A coordinate on its way** is in the cells from the start to the destination, is far enough
from the edge of the screen for the bounds test, and is in the cell of the destination in the end. -/
theorem coordinate {p w : Word} {s d t : ℤ} (hp : p.toInt = s * 65536 + 32768)
    (hs : 0 ≤ s ∧ s ≤ 79) (hd : 0 ≤ d ∧ d ≤ 79)
    (hnear : |t * w.toInt - 65536 * (d - s)| ≤ reach) {u : ℕ} (hu : (u : ℤ) ≤ t) :
    min s d ≤ cell (p + BitVec.ofNat 32 u * w) ∧ cell (p + BitVec.ofNat 32 u * w) ≤ max s d ∧
      79 ≤ (p + BitVec.ofNat 32 u * w).toInt ∧
      (u = t → cell (p + BitVec.ofNat 32 u * w) = d) := by
  obtain ⟨hlow, hhigh⟩ := between hnear (Int.natCast_nonneg u) hu
  have hq : (p + BitVec.ofNat 32 u * w).toInt = s * 65536 + 32768 + u * w.toInt :=
    toInt_advance hp rfl (by omega)
  rw [cell_eq, hq]
  refine ⟨by omega, by omega, by omega, ?_⟩
  intro hend
  rw [hend]
  obtain ⟨hshort, hlong⟩ := abs_le.mp hnear
  have hreach : reach = 28490 := rfl
  omega

theorem failsBounds_eq_false {f : Missile} (hx : 79 ≤ f.x.toInt) (hy : 79 ≤ f.y.toInt) :
    failsBounds f = false := by
  have hslt : ∀ {v limit : Word}, 79 ≤ v.toInt → limit.toInt ≤ 79 → v.slt limit = false := by
    intro v limit hv hlimit
    rw [BitVec.slt_eq_decide]
    apply decide_eq_false
    omega
  rw [failsBounds, hslt hx (by decide), hslt hx (by decide), hslt hy (by decide),
    hslt hy (by decide)]
  rfl

theorem destination_iff {v : Word} {d : ℤ} (hd : 0 ≤ d ∧ d ≤ 79) :
    BitVec.ofInt 32 d = v.sshiftRight 16 ↔ cell v = d := by
  have hint : (BitVec.ofInt 32 d).toInt = d :=
    BitVec.toInt_ofInt_eq_self (by decide) (by omega) (by omega)
  rw [← BitVec.toInt_inj, hint, cell]
  exact eq_comm

theorem onTarget_iff {f : Missile} {dx dy : ℤ} (hdx : 0 ≤ dx ∧ dx ≤ 79) (hdy : 0 ≤ dy ∧ dy ≤ 79)
    (hx : f.destX = BitVec.ofInt 32 dx) (hy : f.destY = BitVec.ofInt 32 dy) :
    onTarget f = true ↔ cell f.x = dx ∧ cell f.y = dy := by
  rw [onTarget, Bool.and_eq_true, beq_iff_eq, beq_iff_eq, hx, hy, destination_iff hdx,
    destination_iff hdy]

/-! ## Arrival -/

/-- A missile on its way from the centre of a cell: after `t` ticks it is near the centre of its
destination on both axes. -/
structure Near (f : Missile) (sx sy dx dy t : ℤ) : Prop where
  startX : f.x.toInt = sx * 65536 + 32768
  startY : f.y.toInt = sy * 65536 + 32768
  x : |t * f.vx.toInt - 65536 * (dx - sx)| ≤ reach
  y : |t * f.vy.toInt - 65536 * (dy - sy)| ≤ reach
  destX : f.destX = BitVec.ofInt 32 dx
  destY : f.destY = BitVec.ofInt 32 dy
  whole : f.exploded = 0

/-- **A missile that comes near** its destination arrives, in the first tick that finds it there. -/
theorem Near.arrives {f : Missile} {sx sy dx dy : ℤ} {t : ℕ} (h : Near f sx sy dx dy t)
    (hsx : 0 ≤ sx ∧ sx ≤ 79) (hsy : 0 ≤ sy ∧ sy ≤ 24) (hdx : 0 ≤ dx ∧ dx ≤ 79)
    (hdy : 0 ≤ dy ∧ dy ≤ 24) : ∃ t, Arrives f dx dy t := by
  have hx : ∀ u ≤ t, _ := fun u hu =>
    coordinate h.startX hsx hdx h.x (Int.ofNat_le.mpr hu)
  have hy : ∀ u ≤ t, _ := fun u hu =>
    coordinate h.startY (by omega) (by omega) h.y (Int.ofNat_le.mpr hu)
  have hcells : ∀ u ≤ t, OnCells (moved^[u] f) := by
    intro u hu
    obtain ⟨hleft, hright, -⟩ := hx u hu
    obtain ⟨htop, hbottom, -⟩ := hy u hu
    rw [moved_iterate]
    exact ⟨(le_min hsx.1 hdx.1).trans hleft, hright.trans (max_le hsx.2 hdx.2),
      (le_min hsy.1 hdy.1).trans htop, hbottom.trans (max_le hsy.2 hdy.2)⟩
  have hinside : ∀ u ≤ t, failsBounds (moved^[u] f) = false := by
    intro u hu
    rw [moved_iterate]
    exact failsBounds_eq_false (hx u hu).2.2.1 (hy u hu).2.2.1
  have hwhole : ∀ u, (moved^[u] f).exploded = 0 := by
    intro u
    rw [moved_iterate]
    exact h.whole
  have htarget : ∀ u, onTarget (moved^[u] f) = true ↔
      cell (moved^[u] f).x = dx ∧ cell (moved^[u] f).y = dy := by
    intro u
    apply onTarget_iff hdx (by omega)
    · rw [moved_iterate]
      exact h.destX
    · rw [moved_iterate]
      exact h.destY
  have hend : onTarget (moved^[t] f) = true := by
    apply (htarget t).mpr
    rw [moved_iterate]
    exact ⟨(hx t le_rfl).2.2.2 rfl, (hy t le_rfl).2.2.2 rfl⟩
  -- the first tick that finds the missile there
  have hthere : ∃ u, onTarget (moved^[u] f) = true := ⟨t, hend⟩
  have hfirst : Nat.find hthere ≤ t := Nat.find_min' hthere hend
  refine ⟨Nat.find hthere, (htarget _).mp (Nat.find_spec hthere), ?_, ?_, ?_⟩
  · apply (turn_eq_reach _).mpr
    exact ⟨hwhole _, hinside _ hfirst, Nat.find_spec hthere⟩
  · intro u hu
    apply (turn_eq_fly _).mpr
    refine ⟨hwhole u, hinside u (by omega), ?_⟩
    apply Bool.eq_false_iff.mpr
    exact Nat.find_min hthere hu
  · intro u hu
    exact hcells u (hu.trans hfirst)

/-- The missile with the velocity `(wx, wy)` from the centre of a cell. -/
def fired (next : Word) (sx sy dx dy wx wy : ℤ) (c : Byte) : Missile where
  next := next
  x := BitVec.ofInt 32 (sx * 2 ^ 16) ||| 0x8000
  y := BitVec.ofInt 32 (sy * 2 ^ 16) ||| 0x8000
  vx := BitVec.ofInt 32 wx
  vy := BitVec.ofInt 32 wy
  destX := BitVec.ofInt 32 dx
  destY := BitVec.ofInt 32 dy
  exploded := 0
  c := c

/-- **Nothing overflows** in `make_missile`. -/
theorem makeMissile_eq (next : Word) (c : Byte) {sx sy dx dy vel : ℤ} (hsx : 0 ≤ sx ∧ sx ≤ 79)
    (hsy : 0 ≤ sy ∧ sy ≤ 24) (hvx : |dx - sx| ≤ 79) (hvy : |dy - sy| ≤ 24)
    (hvel : 10 ≤ vel ∧ vel ≤ 200) (hmag : mag (dx - sx) (dy - sy) ≠ 0) :
    makeMissile next sx sy dx dy c vel = some (fired next sx sy dx dy
      ((dx - sx).sign * speed vel (mag (dx - sx) (dy - sy)) |dx - sx|)
      ((dy - sy).sign * speed vel (mag (dx - sx) (dy - sy)) |dy - sy|) c) := by
  have hsquareX : (dx - sx) * (dx - sx) ≤ 79 * 79 := by
    rw [← abs_mul_abs_self]
    exact mul_le_mul hvx hvx (abs_nonneg _) (by decide)
  have hsquareY : (dy - sy) * (dy - sy) ≤ 24 * 24 := by
    rw [← abs_mul_abs_self]
    exact mul_le_mul hvy hvy (abs_nonneg _) (by decide)
  have hposX := mul_self_nonneg (dx - sx)
  have hposY := mul_self_nonneg (dy - sy)
  obtain ⟨hleft, hright⟩ := abs_le.mp hvx
  obtain ⟨htop, hbottom⟩ := abs_le.mp hvy
  have hx : int32 (sx * 2 ^ 16) = some (sx * 2 ^ 16) := int32_of_bounds (by omega)
  have hy : int32 (sy * 2 ^ 16) = some (sy * 2 ^ 16) := int32_of_bounds (by omega)
  have hdx : int32 (dx - sx) = some (dx - sx) := int32_of_bounds (by omega)
  have hdy : int32 (dy - sy) = some (dy - sy) := int32_of_bounds (by omega)
  have hsqx : int32 ((dx - sx) * (dx - sx)) = some ((dx - sx) * (dx - sx)) :=
    int32_of_bounds (by omega)
  have hsqy : int32 ((dy - sy) * (dy - sy)) = some ((dy - sy) * (dy - sy)) :=
    int32_of_bounds (by omega)
  have hsum : int32 ((dx - sx) * (dx - sx) + (dy - sy) * (dy - sy)) =
      some ((dx - sx) * (dx - sx) + (dy - sy) * (dy - sy)) := int32_of_bounds (by omega)
  have hsquare : int32 (((dx - sx) * (dx - sx) + (dy - sy) * (dy - sy)) * 2 ^ 16) =
      some (((dx - sx) * (dx - sx) + (dy - sy) * (dy - sy)) * 2 ^ 16) :=
    int32_of_bounds (by omega)
  have hvelX := velocity_speed hvx hvel hmag
  have hvelY := velocity_speed (hvy.trans (by decide) : |dy - sy| ≤ 79) hvel hmag
  rw [mag] at hvelX hvelY
  simp only [makeMissile, hx, hy, hdx, hdy, hsqx, hsqy, hsum, hsquare, Option.bind_eq_bind,
    Option.bind_some, hvelX, hvelY]
  rfl

/-- **Every missile comes near** its destination. -/
theorem fired_near (next : Word) (c : Byte) {sx sy dx dy vel : ℤ} (hsx : 0 ≤ sx ∧ sx ≤ 79)
    (hsy : 0 ≤ sy ∧ sy ≤ 24) (hvx : |dx - sx| ≤ 79) (hvy : |dy - sy| ≤ 24)
    (hfar : 0 < max |dx - sx| |dy - sy|) (hvel : 10 ≤ vel ∧ vel ≤ 200) :
    ∃ t : ℕ, Near (fired next sx sy dx dy
      ((dx - sx).sign * speed vel (mag (dx - sx) (dy - sy)) |dx - sx|)
      ((dy - sy).sign * speed vel (mag (dx - sx) (dy - sy)) |dy - sy|) c) sx sy dx dy t := by
  obtain ⟨hlow, hhigh⟩ := mag_bounds hfar
  obtain ⟨t, ht, hx, hy⟩ := some_tick_either ⟨abs_nonneg (dx - sx), hvx⟩
    ⟨abs_nonneg (dy - sy), by omega⟩ hfar hlow hhigh hvel
  obtain ⟨t, rfl⟩ := Int.eq_ofNat_of_zero_le ht
  have hmag : 0 < mag (dx - sx) (dy - sy) := by omega
  have hword : ∀ {v : ℤ}, |v| ≤ max |dx - sx| |dy - sy| →
      (BitVec.ofInt 32 (v.sign * speed vel (mag (dx - sx) (dy - sy)) |v|)).toInt =
        v.sign * speed vel (mag (dx - sx) (dy - sy)) |v| := by
    intro v hv
    have hfast := speed_le hvel hmag (by omega : 256 * |v| ≤ mag (dx - sx) (dy - sy))
    have hforward := speed_nonneg hvel hmag (abs_nonneg v)
    apply BitVec.toInt_ofInt_eq_self (by decide)
    all_goals
      rcases Int.sign_trichotomy v with hsign | hsign | hsign <;> rw [hsign] <;> omega
  refine ⟨t, ?_⟩
  constructor
  · exact centre_toInt hsx
  · exact centre_toInt (by omega)
  · show |t * (BitVec.ofInt 32 _).toInt - 65536 * (dx - sx)| ≤ reach
    rw [hword (le_max_left _ _)]
    exact signed_near rfl hx
  · show |t * (BitVec.ofInt 32 _).toInt - 65536 * (dy - sy)| ≤ reach
    rw [hword (le_max_right _ _)]
    exact signed_near rfl hy
  · rfl
  · rfl
  · rfl

/-- How far apart two cells of the screen are that are not the same. -/
theorem cells_apart {sx sy dx dy : ℤ} (hsx : 0 ≤ sx ∧ sx ≤ 79) (hsy : 0 ≤ sy ∧ sy ≤ 24)
    (hdx : 0 ≤ dx ∧ dx ≤ 79) (hdy : 0 ≤ dy ∧ dy ≤ 24) (hne : (sx, sy) ≠ (dx, dy)) :
    |dx - sx| ≤ 79 ∧ |dy - sy| ≤ 24 ∧ 0 < max |dx - sx| |dy - sy| := by
  refine ⟨abs_le.mpr (by omega), abs_le.mpr (by omega), ?_⟩
  rw [lt_max_iff, abs_pos, abs_pos]
  by_contra hboth
  exact hne (Prod.ext (by omega) (by omega))

/-- **Every missile reaches its target cell**, and flies on the screen until it does. -/
theorem missile_arrives (next : Word) (c : Byte) {sx sy dx dy vel : ℤ} (hsx : 0 ≤ sx ∧ sx ≤ 79)
    (hsy : 0 ≤ sy ∧ sy ≤ 24) (hdx : 0 ≤ dx ∧ dx ≤ 79) (hdy : 0 ≤ dy ∧ dy ≤ 24)
    (hne : (sx, sy) ≠ (dx, dy)) (hvel : 10 ≤ vel ∧ vel ≤ 200) :
    ∃ f, makeMissile next sx sy dx dy c vel = some f ∧ ∃ t, Arrives f dx dy t := by
  obtain ⟨hvx, hvy, hfar⟩ := cells_apart hsx hsy hdx hdy hne
  have hlow := (mag_bounds hfar).1
  obtain ⟨t, hnear⟩ := fired_near next c hsx hsy hvx hvy hfar hvel
  exact ⟨_, makeMissile_eq next c hsx hsy hvx hvy hvel (by omega),
    hnear.arrives hsx hsy hdx hdy⟩

/-- A shot at the corner of the screen that is the furthest away. -/
theorem missile_arrives_corner : ∃ f, makeMissile 0 79 24 0 0 42 200 = some f ∧
    ∃ t, Arrives f 0 0 t :=
  missile_arrives 0 42 (by decide) (by decide) (by decide) (by decide) (by decide) (by decide)

end MachineProblems.Analysis.Flight
