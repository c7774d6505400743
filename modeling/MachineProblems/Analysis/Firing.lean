import MachineProblems.Analysis.Piloting
import MachineProblems.Analysis.Flight

/-!
# Shots

`make_missile` divides by the distance that the missile has to go.  An enemy missile always falls
through the whole screen, but a shot is fired from a cell that the crosshairs can reach, the last
one of the bottom row: there, and nowhere else, the distance is zero.
-/

set_option autoImplicit false

namespace MachineProblems.Analysis.Firing

open MachineProblems.Library MachineProblems.Program.Mp1 MachineProblems.Program.MissileCommand
open MachineProblems.Analysis.Mp1 MachineProblems.Analysis.Flight MachineProblems.Analysis.Piloting

/-- A missile flies at most `vel / 256` cells a tick on each axis. -/
structure Slow (vel : ℤ) (f : Missile) : Prop where
  x : 256 * |f.vx.toInt| ≤ 65536 * vel
  y : 256 * |f.vy.toInt| ≤ 65536 * vel

/-- The game takes a command, with what a missile finds in its `next` field. -/
def command (p : Pilot) (k : Word × CommandT) : Option Pilot :=
  (updateCrosshairs k.1 k.2 p).map Prod.fst

/-- A shot computes its missile, and that missile is slow. -/
def Shoots (p : Pilot) (k : Word × CommandT) : Prop :=
  k.2 = .fire → ∃ m, updateCrosshairs k.1 k.2 p =
    some ({ p with fired := p.fired + 1 }, [.addMissile m]) ∧ Slow 200 m

/-- The shot is not aimed at the cell it is fired from. -/
def AimsAway (p : Pilot) (k : Word × CommandT) : Prop :=
  k.2 = .fire → (79, 24) ≠ (p.chx, p.chy)

/-! ## Velocities -/

/-- The square root is rounded down, but not below the distance on one axis. -/
theorem speed_bounds {vel m v : ℤ} (hvel : 0 ≤ vel) (hm : 0 < m) (hlow : 256 * |v| ≤ m) :
    |v.sign * speed vel m (|v|)| ≤ 256 * vel := by
  have hnonneg : 0 ≤ speed vel m |v| :=
    Int.ediv_nonneg (mul_nonneg (by omega) (abs_nonneg v)) hm.le
  have hle : speed vel m |v| ≤ 256 * vel := by
    apply Int.ediv_le_of_le_mul hm
    calc 65536 * vel * |v| = 256 * vel * (256 * |v|) := by ring
      _ ≤ 256 * vel * m := mul_le_mul_of_nonneg_left hlow (by omega)
  rw [abs_mul, abs_of_nonneg hnonneg]
  rcases Int.sign_trichotomy v with hsign | hsign | hsign
  · rw [hsign, abs_one, one_mul]
    exact hle
  · rw [hsign, abs_zero, zero_mul]
    omega
  · rw [hsign, abs_neg, abs_one, one_mul]
    exact hle

/-- A velocity fits into its word. -/
theorem toInt_ofInt_velocity {vel w : ℤ} (hvel : vel ≤ 200) (hw : |w| ≤ 256 * vel) :
    256 * |(BitVec.ofInt 32 w).toInt| ≤ 65536 * vel := by
  obtain ⟨hlow, hhigh⟩ := abs_le.mp hw
  have hword : (BitVec.ofInt 32 w).toInt = w :=
    BitVec.toInt_ofInt_eq_self (by decide) (by omega) (by omega)
  rw [hword]
  omega

/-- **Between two cells** of the screen, `make_missile` computes a slow missile. -/
theorem makeMissile_slow (next : Word) (c : Byte) {sx sy dx dy vel : ℤ} (hsx : 0 ≤ sx ∧ sx ≤ 79)
    (hsy : 0 ≤ sy ∧ sy ≤ 24) (hdx : 0 ≤ dx ∧ dx ≤ 79) (hdy : 0 ≤ dy ∧ dy ≤ 24)
    (hne : (sx, sy) ≠ (dx, dy)) (hvel : 10 ≤ vel ∧ vel ≤ 200) :
    ∃ m, makeMissile next sx sy dx dy c vel = some m ∧ Slow vel m := by
  obtain ⟨hvx, hvy, hfar⟩ := cells_apart hsx hsy hdx hdy hne
  have hlow := (mag_bounds hfar).1
  have hmag : 0 < mag (dx - sx) (dy - sy) := by omega
  have hx : 256 * |dx - sx| ≤ mag (dx - sx) (dy - sy) := by omega
  have hy : 256 * |dy - sy| ≤ mag (dx - sx) (dy - sy) := by omega
  refine ⟨_, makeMissile_eq next c hsx hsy hvx hvy hvel hmag.ne', ?_, ?_⟩
  · apply toInt_ofInt_velocity hvel.2
    exact speed_bounds (by omega) hmag hx
  · apply toInt_ofInt_velocity hvel.2
    exact speed_bounds (by omega) hmag hy

/-- **To the cell it comes from**, `make_missile` divides by zero. -/
theorem makeMissile_here (next : Word) (c : Byte) (sx sy vel : ℤ) :
    makeMissile next sx sy sx sy c vel = none := by
  have hvelocity : velocity 0 vel 0 = none := by
    unfold velocity
    cases int32 (0 * 2 ^ 16) with
    | none => rfl
    | some fixed =>
        show ((int32 (fixed * vel)).bind fun _ => none) = none
        cases int32 (fixed * vel) <;> rfl
  unfold makeMissile
  cases int32 (sx * 2 ^ 16) with
  | none => rfl
  | some x =>
      cases int32 (sy * 2 ^ 16) with
      | none => rfl
      | some y =>
          simp only [sub_self, Option.bind_eq_bind, Option.bind_some]
          show (velocity 0 vel (Nat.sqrt 0 : ℕ)).bind _ = none
          rw [Nat.sqrt_zero, Nat.cast_zero, hvelocity, Option.bind_none]

/-- **Every enemy missile** is computed, and it is slow. -/
theorem enemyMissile_slow (next : Word) (d : Draw) :
    ∃ m, enemyMissile next d = some m ∧ Slow ((d.speed.val : ℤ) % 5 + 10) m := by
  have hne : ((d.column.val : ℤ) % 80, (0 : ℤ)) ≠ (20 * ((d.base.val : ℤ) % 3 + 1), 24) := by
    intro heq
    have hrow : (0 : ℤ) = 24 := (Prod.mk.inj heq).2
    omega
  exact makeMissile_slow next _ ⟨by omega, by omega⟩ ⟨by omega, by omega⟩ ⟨by omega, by omega⟩
    ⟨by omega, by omega⟩ hne ⟨by omega, by omega⟩

/-! ## Commands -/

/-- The crosshairs are on the screen. -/
structure OnScreen (p : Pilot) : Prop where
  x : 0 ≤ p.chx ∧ p.chx ≤ 79
  y : 0 ≤ p.chy ∧ p.chy ≤ 24

theorem newPilot_onScreen : OnScreen newPilot := ⟨by decide, by decide⟩

/-- **A command** leaves the crosshairs on the screen. -/
theorem OnScreen.command {p p' : Pilot} {k : Word × CommandT} (h : OnScreen p)
    (hcommand : command p k = some p') : OnScreen p' := by
  obtain ⟨⟨q, calls⟩, hupdate, rfl⟩ := Option.map_eq_some_iff.mp hcommand
  by_cases hmove : displacement k.2 = (0, 0)
  · cases hcmd : k.2 with
    | noKey =>
        rw [hcmd] at hupdate
        obtain ⟨rfl, -⟩ := Prod.mk.inj (Option.some.inj hupdate)
        exact h
    | quit =>
        rw [hcmd] at hupdate
        obtain ⟨rfl, -⟩ := Prod.mk.inj (Option.some.inj hupdate)
        exact h
    | fire =>
        rw [hcmd] at hupdate
        obtain ⟨m, -, hpair⟩ := Option.bind_eq_some_iff.mp hupdate
        obtain ⟨rfl, -⟩ := Prod.mk.inj (Option.some.inj hpair)
        exact ⟨h.x, h.y⟩
    | left => rw [hcmd] at hmove; cases hmove
    | right => rw [hcmd] at hmove; cases hmove
    | up => rw [hcmd] at hmove; cases hmove
    | down => rw [hcmd] at hmove; cases hmove
  · rw [updateCrosshairs_move hmove, pushCrosshair_clamped hmove] at hupdate
    obtain ⟨rfl, -⟩ := Prod.mk.inj (Option.some.inj hupdate)
    exact ⟨clamped_bounds (by decide) _, clamped_bounds (by decide) _⟩

/-- **A shot** from within the screen succeeds exactly if it is aimed away. -/
theorem shoots_iff {p : Pilot} (h : OnScreen p) (k : Word × CommandT) :
    Shoots p k ↔ AimsAway p k := by
  refine forall_congr' fun hfire => ?_
  rw [hfire]
  constructor
  · rintro ⟨m, hupdate, -⟩ heq
    obtain ⟨hx, hy⟩ := Prod.mk.inj heq
    obtain ⟨m', hmake, -⟩ := Option.bind_eq_some_iff.mp hupdate
    rw [← hx, ← hy, makeMissile_here] at hmake
    cases hmake
  · intro hne
    obtain ⟨m, hmake, hslow⟩ := makeMissile_slow k.1 42 (by decide) (by decide) h.x h.y hne
      (by decide : (10 : ℤ) ≤ 200 ∧ (200 : ℤ) ≤ 200)
    refine ⟨m, ?_, hslow⟩
    show (makeMissile k.1 79 24 p.chx p.chy 42 200).bind _ = _
    rw [hmake]
    rfl

/-- **Firing never faults** in a game exactly if no shot of it is aimed at the cell that shots are
fired from; the enemy's missiles never do. -/
theorem firing_safe_iff (keys : List (Word × CommandT)) :
    (everyStep command Shoots newPilot keys ↔ everyStep command AimsAway newPilot keys) ∧
      ∀ next d, ∃ m, enemyMissile next d = some m ∧ Slow ((d.speed.val : ℤ) % 5 + 10) m := by
  refine ⟨?_, enemyMissile_slow⟩
  apply everyStep_congr (I := OnScreen)
  · intro p k p' h _ hcommand
    exact h.command hcommand
  · intro p k h
    exact shoots_iff h k
  · exact newPilot_onScreen

/-- The crosshairs are steered into the corner. -/
def cornerKeys : List (Word × CommandT) :=
  List.replicate 39 (0, .right) ++ List.replicate 12 (0, .down)

/-- A shot in the corner divides by zero. -/
theorem firing_corner : run command newPilot cornerKeys = some ⟨79, 24, 0⟩ ∧
    updateCrosshairs 0 .fire ⟨79, 24, 0⟩ = none ∧
    ¬ everyStep command Shoots newPilot (cornerKeys ++ [(0, .fire)]) := by
  have hrun : run command newPilot cornerKeys = some ⟨79, 24, 0⟩ := by decide +kernel
  have hnone : updateCrosshairs 0 .fire ⟨79, 24, 0⟩ = none := by
    have hmake := makeMissile_here 0 42 79 24 200
    simp only [updateCrosshairs, hmake, Option.bind_eq_bind, Option.bind_none]
  refine ⟨hrun, hnone, fun h => ?_⟩
  obtain ⟨m, hupdate, -⟩ := everyStep_last h hrun rfl
  rw [hnone] at hupdate
  cases hupdate

end MachineProblems.Analysis.Firing
