import Mathlib.Tactic.Linarith
import Mathlib.Data.Nat.ModEq
import Mathlib.Data.Vector.Basic

/-!
# Rings with one free cell

A ring of `cap` cells is read at `start` and written at `stop`; it is empty when the
two meet and full when one more write would make them meet, so it holds at most
`cap - 1` elements.  `contents` is the queue a ring stands for, oldest element first.
A write appends to it (`contents_push`), a read takes its head (`contents_pop`);
`fill` writes a list until it ends or the ring is full, `drain` reads until a bound
or the empty ring, and `contents_fill`, `fill_snd`, `drain_fst` and `contents_drain`
say what they do to the queue.
-/

set_option autoImplicit false

namespace MachineProblems.Library

/-- A ring of `cap` cells; both positions are inside the array by construction. -/
structure Ring (α : Type) (cap : ℕ) where
  buf : Vector α cap
  start : ℕ
  stop : ℕ
  start_lt : start < cap
  stop_lt : stop < cap

namespace Ring

variable {α : Type} {cap : ℕ}

/-- The number of elements held. -/
def used (r : Ring α cap) : ℕ :=
  if r.start ≤ r.stop then r.stop - r.start else cap + r.stop - r.start

/-- The number of elements that can still be written. -/
def room (r : Ring α cap) : ℕ := cap - r.used - 1

/-- The ring holds nothing. -/
def isEmpty (r : Ring α cap) : Bool := r.start == r.stop

/-- The ring takes no further element. -/
def isFull (r : Ring α cap) : Bool := (r.stop + 1) % cap == r.start

/-- The position after `i`. -/
def incidx (cap i : ℕ) : ℕ := (i + 1) % cap

theorem incidx_lt {i : ℕ} (h : i < cap) : incidx cap i < cap := Nat.mod_lt _ (by omega)

/-- Write `x` at `stop` and advance `stop`. -/
def push (r : Ring α cap) (x : α) : Ring α cap where
  buf := r.buf.set r.stop x r.stop_lt
  start := r.start
  stop := incidx cap r.stop
  start_lt := r.start_lt
  stop_lt := incidx_lt r.stop_lt

/-- The element at `start`. -/
def front (r : Ring α cap) : α :=
  have := r.start_lt
  r.buf[r.start]

/-- Advance `start`; the cell keeps its stale value. -/
def pop (r : Ring α cap) : Ring α cap where
  buf := r.buf
  start := incidx cap r.start
  stop := r.stop
  start_lt := incidx_lt r.start_lt
  stop_lt := r.stop_lt

/-- Write the elements of a list until it ends or the ring is full; returns the ring
and the elements not written. -/
def fill (r : Ring α cap) : List α → Ring α cap × List α
  | [] => (r, [])
  | x :: xs => if r.isFull then (r, x :: xs) else (r.push x).fill xs

/-- Read at most `n` elements; returns them and the ring left. -/
def drain (r : Ring α cap) : ℕ → List α × Ring α cap
  | 0 => ([], r)
  | n + 1 => if r.isEmpty then ([], r) else (r.front :: (r.pop.drain n).1, (r.pop.drain n).2)

/-! ## The queue a ring stands for -/

/-- The cell `i` places after `start`. -/
def cell (r : Ring α cap) (i : ℕ) : α :=
  have : (r.start + i) % cap < cap := Nat.mod_lt _ (Nat.zero_lt_of_lt r.start_lt)
  r.buf[(r.start + i) % cap]

/-- The elements held, oldest first. -/
def contents (r : Ring α cap) : List α := (List.range r.used).map r.cell

@[simp] theorem length_contents (r : Ring α cap) : r.contents.length = r.used := by
  simp [contents]

theorem used_lt (r : Ring α cap) : r.used < cap := by
  have := r.start_lt
  have := r.stop_lt
  unfold used
  split <;> omega

theorem isEmpty_iff (r : Ring α cap) : r.isEmpty = true ↔ r.used = 0 := by
  have := r.start_lt
  have := r.stop_lt
  unfold isEmpty used
  rw [beq_iff_eq]
  split <;> omega

theorem succ_mod (i : ℕ) (h : i < cap) : (i + 1) % cap = if i + 1 = cap then 0 else i + 1 := by
  split
  · simp_all
  · exact Nat.mod_eq_of_lt (by omega)

theorem isFull_iff (r : Ring α cap) : r.isFull = true ↔ r.used + 1 = cap := by
  have := r.start_lt
  have := r.stop_lt
  unfold isFull used
  rw [beq_iff_eq, succ_mod _ r.stop_lt]
  split <;> split <;> omega

/-- Writing to a ring that is not full makes it one longer. -/
theorem used_push (r : Ring α cap) (x : α) (h : r.used + 1 < cap) :
    (r.push x).used = r.used + 1 := by
  have := r.start_lt
  have := r.stop_lt
  simp only [used, push, incidx, succ_mod _ r.stop_lt] at h ⊢
  split_ifs at h ⊢ <;> omega

/-- Reading from a ring that is not empty makes it one shorter. -/
theorem used_pop (r : Ring α cap) (h : 0 < r.used) : r.pop.used + 1 = r.used := by
  have := r.start_lt
  have := r.stop_lt
  simp only [used, pop, incidx, succ_mod _ r.start_lt] at h ⊢
  split_ifs at h ⊢ <;> omega

/-- The cell written next lies `used` places after `start`. -/
theorem start_add_used (r : Ring α cap) : (r.start + r.used) % cap = r.stop := by
  have := r.start_lt
  have := r.stop_lt
  unfold used
  split
  · rw [Nat.add_sub_cancel' (by assumption), Nat.mod_eq_of_lt r.stop_lt]
  · rw [show r.start + (cap + r.stop - r.start) = r.stop + cap by omega, Nat.add_mod_right,
      Nat.mod_eq_of_lt r.stop_lt]

/-- Two offsets below `cap` that reach the same cell are equal. -/
theorem offset_inj {s i j : ℕ} (hi : i < cap) (hj : j < cap)
    (h : (s + i) % cap = (s + j) % cap) : i = j := by
  have : i ≡ j [MOD cap] := Nat.ModEq.add_left_cancel' s h
  rwa [Nat.ModEq, Nat.mod_eq_of_lt hi, Nat.mod_eq_of_lt hj] at this

/-- **A write appends** to the queue. -/
theorem contents_push (r : Ring α cap) (x : α) (h : r.used + 1 < cap) :
    (r.push x).contents = r.contents ++ [x] := by
  have hold : ∀ i < r.used, (r.push x).cell i = r.cell i := by
    intro i hi
    have hne : r.stop ≠ (r.start + i) % cap := by
      rw [← r.start_add_used]
      intro heq
      have := offset_inj (by omega) (by omega) heq
      omega
    simp [cell, push, hne]
  have hnew : (r.push x).cell r.used = x := by
    simp [cell, push, r.start_add_used]
  rw [contents, used_push r x h, List.range_succ, List.map_append, contents]
  congr 1
  · exact List.map_congr_left fun i hi => hold i (List.mem_range.mp hi)
  · simp [hnew]

/-- **A read takes the head** of the queue. -/
theorem contents_pop (r : Ring α cap) (h : 0 < r.used) :
    r.contents = r.front :: r.pop.contents := by
  have hfront : r.cell 0 = r.front := by
    simp [cell, front, Nat.mod_eq_of_lt r.start_lt]
  have hshift : ∀ i, r.cell (i + 1) = r.pop.cell i := by
    intro i
    simp only [cell, pop, incidx]
    congr 1
    rw [Nat.mod_add_mod]
    congr 1
    omega
  rw [contents, ← used_pop r h, List.range_succ_eq_map, List.map_cons, List.map_map, hfront]
  congr 1
  exact List.map_congr_left fun i _ => hshift i

theorem room_of_isFull (r : Ring α cap) (h : r.isFull = true) : r.room = 0 := by
  rw [isFull_iff] at h
  unfold room
  omega

theorem room_push (r : Ring α cap) (x : α) (h : r.used + 1 < cap) :
    r.room = (r.push x).room + 1 := by
  unfold room
  rw [used_push r x h]
  omega

theorem lt_of_not_isFull (r : Ring α cap) (h : ¬ r.isFull = true) : r.used + 1 < cap := by
  have hused := r.used_lt
  rw [isFull_iff] at h
  omega

/-- **`fill` appends** the longest prefix that fits. -/
theorem contents_fill (r : Ring α cap) (xs : List α) :
    (r.fill xs).1.contents = r.contents ++ xs.take r.room := by
  induction xs generalizing r with
  | nil => simp [fill]
  | cons x xs ih =>
      unfold fill
      split
      · next hfull => simp [r.room_of_isFull hfull]
      · next hfull =>
          have hroom := r.lt_of_not_isFull hfull
          rw [ih, contents_push r x hroom, List.append_assoc, List.singleton_append,
            room_push r x hroom, List.take_succ_cons]

/-- `fill` hands back what did not fit. -/
theorem fill_snd (r : Ring α cap) (xs : List α) : (r.fill xs).2 = xs.drop r.room := by
  induction xs generalizing r with
  | nil => simp [fill]
  | cons x xs ih =>
      unfold fill
      split
      · next hfull => simp [r.room_of_isFull hfull]
      · next hfull => rw [ih, room_push r x (r.lt_of_not_isFull hfull), List.drop_succ_cons]

/-- A ring that reads nothing holds nothing. -/
theorem contents_of_isEmpty (r : Ring α cap) (h : r.isEmpty = true) : r.contents = [] := by
  rw [isEmpty_iff] at h
  simp [contents, h]

/-- **`drain` returns** the oldest elements, in order. -/
theorem drain_fst (r : Ring α cap) (n : ℕ) : (r.drain n).1 = r.contents.take n := by
  induction n generalizing r with
  | zero => simp [drain]
  | succ n ih =>
      unfold drain
      split
      · rename_i h
        simp [contents_of_isEmpty r h]
      · rename_i h
        rw [isEmpty_iff] at h
        rw [contents_pop r (by omega), List.take_succ_cons, ih]

/-- **`drain` keeps** the rest. -/
theorem contents_drain (r : Ring α cap) (n : ℕ) :
    (r.drain n).2.contents = r.contents.drop n := by
  induction n generalizing r with
  | zero => simp [drain]
  | succ n ih =>
      unfold drain
      split
      · rename_i h
        simp [contents_of_isEmpty r h]
      · rename_i h
        rw [isEmpty_iff] at h
        rw [contents_pop r (by omega), List.drop_succ_cons, ih]

end Ring

end MachineProblems.Library
