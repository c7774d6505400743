import MachineProblems.Library.Loop
import Mathlib.Logic.Function.Basic

/-!
# Copying within a memory

A memory gives a value to every address; only the addresses of the block `[0, size)` may be
accessed.  The two copy loops of C, with the index going up and with the index going down, move
a range as if by a detour through a second block, provided the direction fits the way the ranges
overlap.
-/

set_option autoImplicit false

namespace MachineProblems.Library

variable {β : Type} {size : ℕ} {m : ℤ → β}

/-- The addresses of the block. -/
def InBlock (size : ℕ) (a : ℤ) : Prop := 0 ≤ a ∧ a < size

instance (a : ℤ) : Decidable (InBlock size a) := by
  unfold InBlock
  infer_instance

/-- Read a cell of the block. -/
def load (size : ℕ) (m : ℤ → β) (a : ℤ) : Option β := if InBlock size a then some (m a) else none

/-- Write a cell of the block. -/
def store (size : ℕ) (m : ℤ → β) (a : ℤ) (v : β) : Option (ℤ → β) :=
  if InBlock size a then some (Function.update m a v) else none

theorem load_eq {a : ℤ} (ha : InBlock size a) : load size m a = some (m a) := if_pos ha

theorem store_eq {a : ℤ} (ha : InBlock size a) (v : β) :
    store size m a v = some (Function.update m a v) := if_pos ha

/-- `m[target + i] = m[start + i]`. -/
def copyCell (size : ℕ) (target start i : ℤ) (m : ℤ → β) : Option (ℤ → β) :=
  (load size m (start + i)).bind (store size m (target + i))

theorem copyCell_eq {target start i : ℤ} (hstart : InBlock size (start + i))
    (htarget : InBlock size (target + i)) :
    copyCell size target start i m =
      some (Function.update m (target + i) (m (start + i))) := by
  unfold copyCell
  rw [load_eq hstart, Option.bind_some, store_eq htarget]

/-- `for (i = 0; i < length; i++) m[target + i] = m[start + i]`. -/
def copyUp (size : ℕ) (m : ℤ → β) (target start : ℤ) (length : ℕ) : Option (ℤ → β) :=
  attempts (fun i => copyCell size target start i) length m

/-- `for (i = length; i-- > 0; ) m[target + i] = m[start + i]`. -/
def copyDown (size : ℕ) (m : ℤ → β) (target start : ℤ) (length : ℕ) : Option (ℤ → β) :=
  attempts (fun i => copyCell size target start (length - 1 - i)) length m

/-- The range at `start` now also stands at `target`. -/
def Copied (m m' : ℤ → β) (target start : ℤ) (length : ℕ) : Prop :=
  ∀ a, m' a = if target ≤ a ∧ a < target + length then m (a - target + start) else m a

section Copy

variable {target start : ℤ} {length : ℕ}

theorem copyUp_copied (htarget : 0 ≤ target) (hdown : target ≤ start)
    (hstart : start + length ≤ size) :
    ∃ m', copyUp size m target start length = some m' ∧ Copied m m' target start length := by
  refine attempts_total (I := fun i t => Copied m t target start i) ?_ ?_
  · intro a
    rw [if_neg (by omega)]
  · intro i t hi ht
    refine ⟨_, copyCell_eq ⟨by omega, by omega⟩ ⟨by omega, by omega⟩, ?_⟩
    intro a
    -- the cell read lies above all that is written so far
    have hread : t (start + i) = m (start + i) := by
      rw [ht, if_neg (by omega)]
    rw [Function.update_apply, hread, ht]
    push_cast
    split_ifs with h₁ h₂ h₃ h₄ h₅
    · congr 1
      omega
    · omega
    · rfl
    · omega
    · omega
    · rfl

theorem copyDown_copied (hstart : 0 ≤ start) (hup : start ≤ target)
    (htarget : target + length ≤ size) :
    ∃ m', copyDown size m target start length = some m' ∧ Copied m m' target start length := by
  have hloop : ∃ m', copyDown size m target start length = some m' ∧
      ∀ a, m' a = if target + length - length ≤ a ∧ a < target + length
        then m (a - target + start) else m a := by
    refine attempts_total (I := fun i (t : ℤ → β) => ∀ a, t a =
      if target + length - i ≤ a ∧ a < target + length then m (a - target + start) else m a) ?_ ?_
    · intro a
      rw [if_neg (by omega)]
    · intro i t hi ht
      refine ⟨_, copyCell_eq ⟨by omega, by omega⟩ ⟨by omega, by omega⟩, ?_⟩
      intro a
      -- the cell read lies below all that is written so far
      have hread : t (start + (length - 1 - i)) = m (start + (length - 1 - i)) := by
        rw [ht, if_neg (by omega)]
      rw [Function.update_apply, hread, ht]
      push_cast
      split_ifs with h₁ h₂ h₃ h₄ h₅
      · congr 1
        omega
      · omega
      · rfl
      · omega
      · omega
      · rfl
  obtain ⟨m', hrun, hm'⟩ := hloop
  refine ⟨m', hrun, fun a => ?_⟩
  rw [hm', show target + (length : ℤ) - length = target by omega]

/-- **Copying between ranges that may overlap**, from below if the target lies below. -/
theorem copy_copied (hstart : 0 ≤ start) (hstart' : start + length ≤ size) (htarget : 0 ≤ target)
    (htarget' : target + length ≤ size) :
    ∃ m', (if start < target then copyDown else copyUp) size m target start length = some m' ∧
      Copied m m' target start length := by
  split
  · next hup => exact copyDown_copied hstart (le_of_lt hup) htarget'
  · next hdown => exact copyUp_copied htarget (not_lt.mp hdown) hstart'

end Copy

/-! ## Guarded accesses

The same accesses and loops with a guard: they fault at every address that is not `ok`.  A guarded
run that does not fault has touched no other address, and it is the run with any weaker guard. -/

section Guarded

variable (ok : ℤ → Prop) [DecidablePred ok]

/-- Read a cell that may be accessed. -/
def loadIn (m : ℤ → β) (a : ℤ) : Option β := if ok a then some (m a) else none

/-- Write a cell that may be accessed. -/
def storeIn (m : ℤ → β) (a : ℤ) (v : β) : Option (ℤ → β) :=
  if ok a then some (Function.update m a v) else none

/-- `copyCell` under the guard. -/
def copyCellIn (target start i : ℤ) (m : ℤ → β) : Option (ℤ → β) :=
  (loadIn ok m (start + i)).bind (storeIn ok m (target + i))

/-- `copyUp` under the guard. -/
def copyUpIn (m : ℤ → β) (target start : ℤ) (length : ℕ) : Option (ℤ → β) :=
  attempts (fun i => copyCellIn ok target start i) length m

/-- `copyDown` under the guard. -/
def copyDownIn (m : ℤ → β) (target start : ℤ) (length : ℕ) : Option (ℤ → β) :=
  attempts (fun i => copyCellIn ok target start (length - 1 - i)) length m

end Guarded

section Guards

variable {ok ok' : ℤ → Prop} [DecidablePred ok] [DecidablePred ok'] {m' : ℤ → β}

theorem loadIn_eq {a : ℤ} (ha : ok a) : loadIn ok m a = some (m a) := if_pos ha

theorem storeIn_eq {a : ℤ} (ha : ok a) (v : β) :
    storeIn ok m a v = some (Function.update m a v) := if_pos ha

theorem loadIn_mono (hok : ∀ a, ok a → ok' a) {a : ℤ} {v : β} (h : loadIn ok m a = some v) :
    loadIn ok' m a = some v := by
  unfold loadIn at h
  split at h
  · next ha => rwa [loadIn_eq (hok a ha)]
  · cases h

theorem storeIn_mono (hok : ∀ a, ok a → ok' a) {a : ℤ} {v : β}
    (h : storeIn ok m a v = some m') : storeIn ok' m a v = some m' := by
  unfold storeIn at h
  split at h
  · next ha => rwa [storeIn_eq (hok a ha)]
  · cases h

/-- A guarded write leaves all that the guard forbids. -/
theorem storeIn_frame {a : ℤ} {v : β} (h : storeIn ok m a v = some m') {b : ℤ} (hb : ¬ ok b) :
    m' b = m b := by
  unfold storeIn at h
  split at h
  · next ha =>
      obtain rfl := Option.some.inj h
      refine Function.update_of_ne ?_ v m
      rintro rfl
      exact hb ha
  · cases h

theorem copyCellIn_mono (hok : ∀ a, ok a → ok' a) {target start i : ℤ}
    (h : copyCellIn ok target start i m = some m') :
    copyCellIn ok' target start i m = some m' := by
  obtain ⟨v, hload, hstore⟩ := Option.bind_eq_some_iff.mp h
  unfold copyCellIn
  rw [loadIn_mono hok hload, Option.bind_some]
  exact storeIn_mono hok hstore

theorem copyCellIn_frame {target start i : ℤ} (h : copyCellIn ok target start i m = some m')
    {b : ℤ} (hb : ¬ ok b) : m' b = m b := by
  obtain ⟨v, -, hstore⟩ := Option.bind_eq_some_iff.mp h
  exact storeIn_frame hstore hb

/-- Either of the two copy loops under a weaker guard. -/
theorem copyIn_mono (hok : ∀ a, ok a → ok' a) {down : Prop} [Decidable down] {target start : ℤ}
    {length : ℕ}
    (h : (if down then copyDownIn ok else copyUpIn ok) m target start length = some m') :
    (if down then copyDownIn ok' else copyUpIn ok') m target start length = some m' := by
  split
  · next hdown =>
      rw [if_pos hdown] at h
      exact attempts_mono (fun _ _ _ hcell => copyCellIn_mono hok hcell) h
  · next hdown =>
      rw [if_neg hdown] at h
      exact attempts_mono (fun _ _ _ hcell => copyCellIn_mono hok hcell) h

theorem copyIn_frame {down : Prop} [Decidable down] {target start : ℤ} {length : ℕ}
    (h : (if down then copyDownIn ok else copyUpIn ok) m target start length = some m')
    {b : ℤ} (hb : ¬ ok b) : m' b = m b := by
  split at h
  · exact attempts_invariant (I := fun _ t => t b = m b) rfl
      (fun _ _ _ ht hcell => (copyCellIn_frame hcell hb).trans ht) h
  · exact attempts_invariant (I := fun _ t => t b = m b) rfl
      (fun _ _ _ ht hcell => (copyCellIn_frame hcell hb).trans ht) h

theorem copyCellIn_total {target start i : ℤ} (hstart : ok (start + i))
    (htarget : ok (target + i)) (m : ℤ → β) : ∃ m', copyCellIn ok target start i m = some m' := by
  unfold copyCellIn
  rw [loadIn_eq hstart, Option.bind_some, storeIn_eq htarget]
  exact ⟨_, rfl⟩

/-- A copy between ranges that may be accessed. -/
theorem copyIn_total {down : Prop} [Decidable down] {target start : ℤ} {length : ℕ}
    (hstart : ∀ i : ℤ, 0 ≤ i → i < length → ok (start + i))
    (htarget : ∀ i : ℤ, 0 ≤ i → i < length → ok (target + i)) (m : ℤ → β) :
    ∃ m', (if down then copyDownIn ok else copyUpIn ok) m target start length = some m' := by
  have hcell : ∀ i : ℤ, 0 ≤ i → i < length → ∀ t : ℤ → β,
      ∃ t', copyCellIn ok target start i t = some t' :=
    fun i h0 hi t => copyCellIn_total (hstart i h0 hi) (htarget i h0 hi) t
  split
  · exact attempts_some (fun i t hi => hcell (length - 1 - i) (by omega) (by omega) t) m
  · exact attempts_some (fun i t hi => hcell i (by omega) (by omega) t) m

/-! ### Stores to a row of cells -/

/-- The memory after `v i` was stored to `cell i`, for the `n` first `i` in order. -/
def stored (m : ℤ → β) (cell : ℕ → ℤ) (v : ℕ → β) : ℕ → ℤ → β
  | 0 => m
  | n + 1 => Function.update (stored m cell v n) (cell n) (v n)

theorem stored_other {cell : ℕ → ℤ} {v : ℕ → β} {n : ℕ} {a : ℤ} (ha : ∀ i < n, a ≠ cell i) :
    stored m cell v n a = m a := by
  induction n with
  | zero => rfl
  | succ n ih =>
      show Function.update (stored m cell v n) (cell n) (v n) a = m a
      rw [Function.update_of_ne (ha n n.lt_succ_self)]
      exact ih fun i hi => ha i (hi.trans n.lt_succ_self)

/-- Where no cell comes twice, each holds what was stored to it. -/
theorem stored_cell {cell : ℕ → ℤ} {v : ℕ → β} {n : ℕ}
    (hcell : ∀ i < n, ∀ j < n, cell i = cell j → i = j) {i : ℕ} (hi : i < n) :
    stored m cell v n (cell i) = v i := by
  induction n with
  | zero => exact absurd hi (Nat.not_lt_zero i)
  | succ n ih =>
      show Function.update (stored m cell v n) (cell n) (v n) (cell i) = v i
      by_cases hin : i = n
      · subst hin
        exact Function.update_self _ _ _
      · have hlt : i < n := by omega
        have hne : cell i ≠ cell n := by
          intro heq
          exact hin (hcell i hi n n.lt_succ_self heq)
        rw [Function.update_of_ne hne]
        refine ih (fun j hj k hk => hcell j ?_ k ?_) hlt
        · exact hj.trans n.lt_succ_self
        · exact hk.trans n.lt_succ_self

/-- **A loop of guarded stores**, a cursor moving along, faults or leaves all that it stored. -/
theorem attempts_storeIn {τ : Type} {body : ℕ → (ℤ → β) × τ → Option ((ℤ → β) × τ)}
    {cursor : ℕ → τ} {cell : ℕ → ℤ} {v : ℕ → β}
    (hbody : ∀ i t, body i (t, cursor i) =
      (storeIn ok t (cell i) (v i)).map fun t => (t, cursor (i + 1))) (n : ℕ) :
    attempts body n (m, cursor 0) =
      if ∀ i < n, ok (cell i) then some (stored m cell v n, cursor n) else none := by
  induction n with
  | zero => rw [if_pos fun i hi => absurd hi (Nat.not_lt_zero i)]; rfl
  | succ n ih =>
      have hlast : (∀ i < n + 1, ok (cell i)) ↔ (∀ i < n, ok (cell i)) ∧ ok (cell n) :=
        Nat.forall_lt_succ_right
      rw [attempts, ih]
      by_cases hbefore : ∀ i < n, ok (cell i)
      · rw [if_pos hbefore, Option.bind_some, hbody]
        by_cases hn : ok (cell n)
        · rw [storeIn_eq hn, Option.map_some, if_pos (hlast.mpr ⟨hbefore, hn⟩)]
          rfl
        · rw [storeIn, if_neg hn, Option.map_none, if_neg fun h => hn (hlast.mp h).2]
      · rw [if_neg hbefore, Option.bind_none, if_neg fun h => hbefore (hlast.mp h).1]

end Guards

end MachineProblems.Library
