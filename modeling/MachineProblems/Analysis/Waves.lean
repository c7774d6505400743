import MachineProblems.Analysis.Firing

/-!
# The waves of enemy missiles

The loop of `main` draws the time to the next enemy missile around an average that it shortens
after every tenth one.  The average stops at 200000, the offset of the draw is half a million either
way: once the average is below that, a small draw makes the sum negative, and as an `unsigned long`
it is more than an hour.
-/

set_option autoImplicit false

namespace MachineProblems.Analysis.Waves

open MachineProblems.Library MachineProblems.Program.Mp1 MachineProblems.Program.MissileCommand
open MachineProblems.Analysis.Firing

/-- The average is one of those between the first one and the last. -/
structure Averages (s : Enemies) : Prop where
  low : 200000 ≤ s.avgIval.toNat
  high : s.avgIval.toNat ≤ 4000000
  whole : 100000 ∣ s.avgIval.toNat

/-- The next enemy missile comes within half a second of the average. -/
structure Punctual (s : Enemies) : Prop extends Averages s where
  near : s.ival.toNat ≤ s.avgIval.toNat + 500000
  soon : s.ival.toNat ≤ 4500000

/-- The variables of `main` after a pass of the loop. -/
def pass (s : Enemies) (p : Pass) : Option Enemies := (injectEnemy s p).map Prod.fst

/-- The pass injects an enemy missile. -/
def Due (s : Enemies) (p : Pass) : Prop := s.ival ≤ elapsed s.last p.tv

instance (s : Enemies) (p : Pass) : Decidable (Due s p) := by unfold Due; infer_instance

/-- A pass keeps the enemy coming: it injects a missile if four and a half seconds are over, then
the sum that times the next one does not wrap around, and the times stay within their limits. -/
structure KeepsComing (s : Enemies) (p : Pass) : Prop where
  wait : 4500000 ≤ (elapsed s.last p.tv).toNat → Due s p
  sum : ∀ s', pass s p = some s' → Due s p →
    (s'.ival.toNat : ℤ) = s'.avgIval.toNat + ((p.draw.ival.val : ℤ) % 1000000 - 500000)
  punctual : ∀ s', pass s p = some s' → Punctual s'

/-- The draw of an injection does not exceed the average downwards. -/
def Covered (s : Enemies) (p : Pass) : Prop :=
  Due s p → 500000 ≤ (nextAverage (s.count + 1) s.avgIval).toNat + p.draw.ival.val % 1000000

/-! ## The sum -/

section Interval

variable {avg : Word} {r : Random}

/-- **The sum wraps around** exactly if the offset exceeds the average downwards. -/
theorem interval_toNat (havg : avg.toNat ≤ 4000000) :
    ((interval avg r).toNat : ℤ) =
      if 500000 ≤ avg.toNat + r.val % 1000000 then avg.toNat + ((r.val : ℤ) % 1000000 - 500000)
      else avg.toNat + ((r.val : ℤ) % 1000000 - 500000) + 2 ^ 32 := by
  unfold interval
  rw [BitVec.toNat_add, BitVec.toNat_ofInt]
  split_ifs <;> omega

/-- **The next missile is near** exactly if the sum does not wrap around. -/
theorem interval_near (havg : avg.toNat ≤ 4000000) :
    (interval avg r).toNat ≤ avg.toNat + 500000 ↔ 500000 ≤ avg.toNat + r.val % 1000000 := by
  have hsum := interval_toNat (r := r) havg
  split_ifs at hsum <;> omega

end Interval

/-! ## One pass -/

section Pass

variable {s s' : Enemies} {p : Pass}

/-- The average is only ever shortened by a tenth of a second, and while it is above the last one. -/
theorem Averages.next (h : Averages s) (d : Draw) (now : Timeval) :
    Averages (s.injected d now) := by
  obtain ⟨hlow, hhigh, k, hk⟩ := h
  have hlast : (200000 : Word).toNat = 200000 := rfl
  show Averages ⟨now, _, nextAverage (s.count + 1) s.avgIval, s.count + 1⟩
  unfold nextAverage
  split_ifs with hshorten
  · have habove : 200000 < s.avgIval.toNat := hshorten.2
    have hsub : (s.avgIval - 100000).toNat = s.avgIval.toNat - 100000 :=
      BitVec.toNat_sub_of_le (by rw [BitVec.le_def]; exact (by omega : 100000 ≤ s.avgIval.toNat))
    refine ⟨?_, ?_, ?_⟩
    · show 200000 ≤ (s.avgIval - 100000).toNat
      omega
    · show (s.avgIval - 100000).toNat ≤ 4000000
      omega
    · show 100000 ∣ (s.avgIval - 100000).toNat
      omega
  · exact ⟨hlow, hhigh, k, hk⟩

theorem pass_due (h : Due s p) : pass s p = some (s.injected p.draw p.now) := by
  obtain ⟨m, hmake, -⟩ := enemyMissile_slow p.next p.draw
  have hinject : injectEnemy s p = some (s.injected p.draw p.now, some m) := by
    have hle : s.ival ≤ elapsed s.last p.tv := h
    simp only [injectEnemy, if_pos hle, hmake, Option.bind_eq_bind, Option.bind_some]
  rw [pass, hinject]
  rfl

theorem pass_idle (h : ¬ Due s p) : pass s p = some s := by
  have hinject : injectEnemy s p = some (s, none) := if_neg h
  rw [pass, hinject]
  rfl

/-- **What a pass does**: it injects a missile if one is due, and else nothing. -/
theorem pass_cases (hpass : pass s p = some s') :
    (Due s p ∧ s' = s.injected p.draw p.now) ∨ (¬ Due s p ∧ s' = s) := by
  by_cases hdue : Due s p
  · left
    rw [pass_due hdue] at hpass
    exact ⟨hdue, (Option.some.inj hpass).symm⟩
  · right
    rw [pass_idle hdue] at hpass
    exact ⟨hdue, (Option.some.inj hpass).symm⟩

/-- **A pass** keeps the averages between their limits, whatever is drawn. -/
theorem Averages.pass (h : Averages s) (hpass : pass s p = some s') : Averages s' := by
  obtain ⟨-, rfl⟩ | ⟨-, rfl⟩ := pass_cases hpass
  · exact h.next p.draw p.now
  · exact h

/-- **A pass keeps the enemy coming** exactly if its draw is covered by the average. -/
theorem keepsComing_iff (h : Punctual s) : KeepsComing s p ↔ Covered s p := by
  constructor
  · intro hkeeps hdue
    have hnext := h.next p.draw p.now
    exact (interval_near hnext.high).mp (hkeeps.punctual _ (pass_due hdue)).near
  · intro hcovered
    refine ⟨fun hlate => ?_, fun s' hpass hdue => ?_, fun s' hpass => ?_⟩
    · exact BitVec.le_def.mpr (h.soon.trans hlate)
    · obtain ⟨-, rfl⟩ | ⟨hidle, -⟩ := pass_cases hpass
      · have hnext := h.next p.draw p.now
        exact (interval_toNat hnext.high).trans (if_pos (hcovered hdue))
      · exact absurd hdue hidle
    · obtain ⟨hdue, rfl⟩ | ⟨-, rfl⟩ := pass_cases hpass
      · have hnext := h.next p.draw p.now
        have hcover := hcovered hdue
        have hsum := (interval_toNat hnext.high).trans (if_pos hcover)
        refine ⟨hnext, (interval_near hnext.high).mpr hcover, ?_⟩
        have hhigh := hnext.high
        show (interval (nextAverage (s.count + 1) s.avgIval) p.draw.ival).toNat ≤ 4500000
        have havg : (s.injected p.draw p.now).avgIval =
          nextAverage (s.count + 1) s.avgIval := rfl
        rw [havg] at hhigh hsum
        omega
      · exact h

end Pass

/-! ## The game -/

theorem newEnemies_punctual (r : Random) (last : Timeval) : Punctual (newEnemies r last) := by
  have havg : (4000000 : Word).toNat = 4000000 := rfl
  have hsum := interval_toNat (r := r) havg.le
  rw [if_pos (by omega), havg] at hsum
  refine ⟨⟨?_, ?_, ?_⟩, ?_, ?_⟩
  · show 200000 ≤ (4000000 : Word).toNat
    omega
  · exact havg.le
  · show 100000 ∣ (4000000 : Word).toNat
    omega
  · show (interval 4000000 r).toNat ≤ (4000000 : Word).toNat + 500000
    omega
  · show (interval 4000000 r).toNat ≤ 4500000
    omega

/-- **Enemy missiles keep coming** in a game exactly if no draw of it exceeds the average of its
injection downwards. -/
theorem waves_keep_coming_iff (r : Random) (last : Timeval) (passes : List Pass) :
    Punctual (newEnemies r last) ∧
      (everyStep pass KeepsComing (newEnemies r last) passes ↔
        everyStep pass Covered (newEnemies r last) passes) := by
  refine ⟨newEnemies_punctual r last, ?_⟩
  apply everyStep_congr (I := Punctual)
  · intro s p s' h hcovered hpass
    exact ((keepsComing_iff h).mpr hcovered).punctual s' hpass
  · intro s p h
    exact keepsComing_iff h
  · exact newEnemies_punctual r last

/-- Passes that all inject an enemy missile. -/
def injections : Enemies → List Pass → Option Enemies
  | s, [] => some s
  | s, p :: passes => if Due s p then injections (s.injected p.draw p.now) passes else none

theorem run_of_injections {s t : Enemies} {passes : List Pass}
    (h : injections s passes = some t) : run pass s passes = some t := by
  induction passes generalizing s with
  | nil => exact h
  | cons p passes ih =>
      rw [injections] at h
      split_ifs at h with hdue
      rw [run_cons, pass_due hdue, Option.bind_some]
      exact ih h

/-- The pass `5 * n` seconds after the start, in which `rand` returns zero. -/
def latePass (n : ℕ) : Pass :=
  ⟨⟨BitVec.ofNat 32 (5 * n), 0⟩, ⟨BitVec.ofNat 32 (5 * n), 0⟩, ⟨0, 0, 0, 0⟩, 0⟩

def latePasses : List Pass := (List.range 359).map fun n => latePass (n + 1)

/-- After half an hour of unlucky draws the next missile is more than an hour away. -/
theorem waves_stall :
    run pass (newEnemies 0 ⟨0, 0⟩) latePasses = some ⟨⟨1795, 0⟩, 0, 500000, 359⟩ ∧
      pass ⟨⟨1795, 0⟩, 0, 500000, 359⟩ (latePass 360) =
        some ⟨⟨1800, 0⟩, 4294867296, 400000, 360⟩ ∧
      ¬ everyStep pass KeepsComing (newEnemies 0 ⟨0, 0⟩) (latePasses ++ [latePass 360]) := by
  have hrun : run pass (newEnemies 0 ⟨0, 0⟩) latePasses = some ⟨⟨1795, 0⟩, 0, 500000, 359⟩ :=
    run_of_injections (by decide +kernel)
  have hpass : pass ⟨⟨1795, 0⟩, 0, 500000, 359⟩ (latePass 360) =
      some ⟨⟨1800, 0⟩, 4294867296, 400000, 360⟩ := pass_due (by decide)
  refine ⟨hrun, hpass, fun h => ?_⟩
  have hpunctual := (everyStep_last h hrun).punctual _ hpass
  exact absurd hpunctual.soon (by decide)

end MachineProblems.Analysis.Waves
