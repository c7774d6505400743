import Mathlib.Tactic.Linarith
import Mathlib.Tactic.Ring
import MachineProblems.Program.Adventure.Clock

/-!
# Ticks

The tick time is carried with a comparison that lets a full million of microseconds stand.  Such a
time still compares with the clock's readings as the number of microseconds it stands for, and the
tick times of a run are the start time and whole ticks: each advance passes by exactly the ticks
that the clock has reached.
-/

set_option autoImplicit false

namespace MachineProblems.Analysis.Adventure

open MachineProblems.Program.Adventure

/-- The microseconds that a time stands for. -/
def val (t : Timeval) : ℤ := 1000000 * t.tvSec + t.tvUsec

/-- The tick times: a second may stand as a million of microseconds. -/
def Carried (t : Timeval) : Prop := 0 ≤ t.tvUsec ∧ t.tvUsec ≤ 1000000

/-- The readings of the clock. -/
def Normal (t : Timeval) : Prop := 0 ≤ t.tvUsec ∧ t.tvUsec < 1000000

instance (t : Timeval) : Decidable (Carried t) := inferInstanceAs (Decidable (_ ∧ _))

instance (t : Timeval) : Decidable (Normal t) := inferInstanceAs (Decidable (_ ∧ _))

theorem Normal.carried {t : Timeval} (h : Normal t) : Carried t := ⟨h.1, h.2.le⟩

/-! ## One tick -/

theorem val_nextTick (t : Timeval) : val (nextTick t) = val t + tickUsec := by
  unfold nextTick val tickUsec
  dsimp only
  split_ifs
  · show 1000000 * (t.tvSec + 1) + (t.tvUsec + 50000 - 1000000) = _
    ring
  · show 1000000 * t.tvSec + (t.tvUsec + 50000) = _
    ring

theorem nextTick_carried {t : Timeval} (h : Carried t) : Carried (nextTick t) := by
  obtain ⟨hlow, hhigh⟩ := h
  unfold nextTick Carried tickUsec
  dsimp only
  split_ifs with hcarry <;> dsimp only <;> omega

/-- **The comparison by fields is the comparison of the times**, also with a full million of
microseconds on the side of the tick. -/
theorem timeIsAfter_iff {curTime tickTime : Timeval} (hcur : Normal curTime)
    (htick : Carried tickTime) :
    timeIsAfter curTime tickTime = true ↔ val tickTime ≤ val curTime := by
  obtain ⟨hlow, hhigh⟩ := hcur
  obtain ⟨hlow', hhigh'⟩ := htick
  unfold timeIsAfter val
  split_ifs with hsec
  · rw [decide_eq_true_iff]
    omega
  · rw [decide_eq_true_iff]
    omega

/-! ## One advance -/

/-- The time `next` is the first one past the clock that is whole ticks after `tickTime`. -/
structure Advanced (curTime tickTime next : Timeval) (k : ℕ) : Prop where
  moved : 0 < k
  ticks : val next = val tickTime + k * tickUsec
  past : val curTime < val next
  closest : val next ≤ val curTime + tickUsec
  carried : Carried next

theorem advanceTick_advanced {curTime tickTime : Timeval} (hcur : Normal curTime)
    (htick : Carried tickTime) (hdue : val tickTime ≤ val curTime) :
    ∃ k, Advanced curTime tickTime (advanceTick curTime tickTime) k := by
  induction tickTime using advanceTick.induct curTime with
  | case1 tickTime hagain ih =>
      have hnext := nextTick_carried htick
      obtain ⟨k, h⟩ := ih hnext ((timeIsAfter_iff hcur hnext).mp hagain)
      rw [advanceTick, if_pos hagain]
      refine ⟨k + 1, ⟨k.succ_pos, ?_, h.past, h.closest, h.carried⟩⟩
      rw [h.ticks, val_nextTick]
      push_cast
      ring
  | case2 tickTime hstop =>
      have hnext := nextTick_carried htick
      have hpast : val curTime < val (nextTick tickTime) := by
        rw [timeIsAfter_iff hcur hnext] at hstop
        exact not_le.mp hstop
      rw [advanceTick, if_neg hstop]
      refine ⟨1, ⟨one_pos, ?_, hpast, ?_, hnext⟩⟩
      · rw [val_nextTick, Nat.cast_one, one_mul]
      · rw [val_nextTick]
        linarith

/-- The seconds stay within one of the clock's. -/
theorem Advanced.tvSec_le {curTime tickTime next : Timeval} {k : ℕ} (hcur : Normal curTime)
    (h : Advanced curTime tickTime next k) : next.tvSec ≤ curTime.tvSec + 1 := by
  have hclosest := h.closest
  unfold val tickUsec at hclosest
  have hlow := h.carried.1
  have hhigh := hcur.2
  omega

/-- What an advance passes by is what the clock has reached. -/
theorem Advanced.passes_iff {curTime tickTime next : Timeval} {k : ℕ}
    (h : Advanced curTime tickTime next k) (j : ℕ) :
    j < k ↔ val tickTime + j * tickUsec ≤ val curTime := by
  have hticks := h.ticks
  have hpast := h.past
  have hclosest := h.closest
  unfold tickUsec at hticks hclosest ⊢
  omega

/-! ## A run of the clock -/

/-- **One reading** leaves the tick time, or takes it past the ticks that the clock has reached. -/
theorem readClock_passes {tickTime curTime : Timeval} (htick : Carried tickTime)
    (hcur : Normal curTime) :
    Carried (readClock tickTime curTime) ∧
      ∃ k : ℕ, val (readClock tickTime curTime) = val tickTime + k * tickUsec ∧
        ∀ j : ℕ, j < k ↔ val tickTime + j * tickUsec ≤ val curTime := by
  unfold readClock
  split_ifs with hdue
  · obtain ⟨k, h⟩ := advanceTick_advanced hcur htick ((timeIsAfter_iff hcur htick).mp hdue)
    exact ⟨h.carried, k, h.ticks, h.passes_iff⟩
  · rw [timeIsAfter_iff hcur htick] at hdue
    refine ⟨htick, 0, ?_, fun j => ?_⟩
    · rw [Nat.cast_zero, zero_mul, add_zero]
    · unfold tickUsec
      omega

theorem readings_onGrid {tickTime : Timeval} (htick : Carried tickTime) {readings : List Timeval}
    (hreadings : ∀ t ∈ readings, Normal t) :
    Carried (readings.foldl readClock tickTime) ∧
      ∃ k : ℕ, val (readings.foldl readClock tickTime) = val tickTime + k * tickUsec := by
  induction readings generalizing tickTime with
  | nil => exact ⟨htick, 0, by simp⟩
  | cons curTime readings ih =>
      obtain ⟨hcur, hrest⟩ := List.forall_mem_cons.mp hreadings
      obtain ⟨hnext, k, hk, -⟩ := readClock_passes htick hcur
      obtain ⟨hlast, k', hk'⟩ := ih hnext hrest
      refine ⟨hlast, k + k', ?_⟩
      rw [List.foldl_cons, hk', hk]
      push_cast
      ring

/-- The tick time of every run is the start time and at least one whole tick. -/
theorem tickTimeAfter_onGrid {startTime : Timeval} (hstart : Normal startTime)
    {readings : List Timeval} (hreadings : ∀ t ∈ readings, Normal t) :
    Carried (tickTimeAfter startTime readings) ∧
      ∃ k : ℕ, 0 < k ∧ val (tickTimeAfter startTime readings) = val startTime + k * tickUsec := by
  have hfirst := nextTick_carried hstart.carried
  obtain ⟨hcarried, k, hk⟩ := readings_onGrid hfirst hreadings
  refine ⟨hcarried, k + 1, k.succ_pos, ?_⟩
  show val (readings.foldl readClock (nextTick startTime)) = _
  rw [hk, val_nextTick]
  push_cast
  ring

/-- **The ticks.**  The advance of a tick time that the clock has reached ends, whole ticks later,
with the first such time past the clock; and in every run of readings the tick times lie whole
ticks after the start, where one more reading passes by exactly the ticks that it has reached. -/
theorem ticks_stay_on_grid :
    (∀ tickTime curTime : Timeval, Carried tickTime → Normal curTime →
      val tickTime ≤ val curTime →
      ∃ k, Advanced curTime tickTime (advanceTick curTime tickTime) k) ∧
    ∀ (startTime : Timeval) (readings : List Timeval) (curTime : Timeval), Normal startTime →
      (∀ t ∈ readings, Normal t) → Normal curTime →
      Carried (tickTimeAfter startTime readings) ∧
      Carried (tickTimeAfter startTime (readings ++ [curTime])) ∧
      ∃ k k' : ℕ, 0 < k ∧ k ≤ k' ∧
        val (tickTimeAfter startTime readings) = val startTime + k * tickUsec ∧
        val (tickTimeAfter startTime (readings ++ [curTime])) = val startTime + k' * tickUsec ∧
        ∀ j, k ≤ j → (j < k' ↔ val startTime + j * tickUsec ≤ val curTime) := by
  refine ⟨fun _ _ htick hcur => advanceTick_advanced hcur htick, ?_⟩
  intro startTime readings curTime hstart hreadings hcur
  obtain ⟨hcarried, k, hk, hval⟩ := tickTimeAfter_onGrid hstart hreadings
  obtain ⟨hnext, n, hn, hpasses⟩ := readClock_passes hcarried hcur
  have hstep : tickTimeAfter startTime (readings ++ [curTime]) =
      readClock (tickTimeAfter startTime readings) curTime := by
    unfold tickTimeAfter
    rw [List.foldl_append, List.foldl_cons, List.foldl_nil]
  rw [hstep]
  refine ⟨hcarried, hnext, k, k + n, hk, Nat.le_add_right k n, hval, ?_, fun j hj => ?_⟩
  · rw [hn, hval]
    push_cast
    ring
  · obtain ⟨i, rfl⟩ := Nat.exists_eq_add_of_le hj
    rw [Nat.add_lt_add_iff_left, hpasses i, hval]
    push_cast
    rw [add_mul, add_assoc]

/-- A tick that stands at a million of microseconds, and a clock that has missed two ticks. -/
theorem ticks_stay_on_grid_carry :
    (∃ k, Advanced ⟨6, 120000⟩ ⟨5, 1000000⟩ (advanceTick ⟨6, 120000⟩ ⟨5, 1000000⟩) k) ∧
    Carried (tickTimeAfter ⟨5, 950000⟩ [⟨5, 990000⟩]) ∧
    Carried (tickTimeAfter ⟨5, 950000⟩ ([⟨5, 990000⟩] ++ [⟨6, 120000⟩])) ∧
    ∃ k k' : ℕ, 0 < k ∧ k ≤ k' ∧
      val (tickTimeAfter ⟨5, 950000⟩ [⟨5, 990000⟩]) = val ⟨5, 950000⟩ + k * tickUsec ∧
      val (tickTimeAfter ⟨5, 950000⟩ ([⟨5, 990000⟩] ++ [⟨6, 120000⟩])) =
        val ⟨5, 950000⟩ + k' * tickUsec ∧
      ∀ j, k ≤ j → (j < k' ↔ val ⟨5, 950000⟩ + j * tickUsec ≤ val ⟨6, 120000⟩) := by
  refine ⟨ticks_stay_on_grid.1 _ _ (by decide) (by decide) (by decide), ?_⟩
  exact ticks_stay_on_grid.2 _ _ _ (by decide) (by decide) (by decide)

end MachineProblems.Analysis.Adventure
