import MachineProblems.Library.Memory

/-!
# Painting and filling a memory

Loops that store into a block.  `Paints area v paint` says that `paint` gives the value `v` to
every address of `area` and leaves the others; what a loop paints is the union of what its rounds
paint, so no two rounds need touch different addresses.  `attempts_fill` is the rule of a loop that
stores a value of its own in every round, at an address of its own.
-/

set_option autoImplicit false

namespace MachineProblems.Library

variable {β : Type} {size : ℕ}

/-- Exactly the addresses of `area` take the value `v`, without a fault. -/
def Paints (area : Set ℤ) (v : β) (paint : (ℤ → β) → Option (ℤ → β)) : Prop :=
  ∀ m, ∃ m', paint m = some m' ∧ (∀ a ∈ area, m' a = v) ∧ ∀ a ∉ area, m' a = m a

section Paints

variable {v : β} {area area' : Set ℤ} {paint : (ℤ → β) → Option (ℤ → β)}

theorem Paints.congr (h : Paints area v paint) (harea : ∀ a, a ∈ area ↔ a ∈ area') :
    Paints area' v paint := by
  obtain rfl : area = area' := Set.ext harea
  exact h

/-- Doing nothing paints nothing. -/
theorem paints_empty : Paints (∅ : Set ℤ) v some :=
  fun m => ⟨m, rfl, fun _ ha => absurd ha (Set.notMem_empty _), fun _ _ => rfl⟩

theorem paints_store {a : ℤ} (ha : InBlock size a) :
    Paints {a} v fun m => store size m a v := by
  intro m
  refine ⟨_, store_eq ha v, ?_, ?_⟩
  · rintro b rfl
    exact Function.update_self b v m
  · intro b hb
    exact Function.update_of_ne hb v m

/-- **The loop rule of painting**: a loop paints what its rounds paint. -/
theorem Paints.attempts {n : ℕ} {round : ℕ → Set ℤ} {body : ℕ → (ℤ → β) → Option (ℤ → β)}
    (h : ∀ i < n, Paints (round i) v (body i)) :
    Paints {a | ∃ i < n, a ∈ round i} v (attempts body n) := by
  intro m
  refine attempts_total (I := fun k (t : ℤ → β) => (∀ a ∈ {a | ∃ i < k, a ∈ round i}, t a = v) ∧
    ∀ a ∉ {a | ∃ i < k, a ∈ round i}, t a = m a) ?_ ?_
  · refine ⟨?_, fun _ _ => rfl⟩
    rintro a ⟨i, hi, -⟩
    exact absurd hi (Nat.not_lt_zero i)
  · rintro i t hi ⟨hpainted, hleft⟩
    obtain ⟨t', ht', hround, hother⟩ := h i hi t
    refine ⟨t', ht', ?_, ?_⟩
    · rintro a ⟨j, hj, ha⟩
      by_cases hnow : a ∈ round i
      · exact hround a hnow
      · rw [hother a hnow]
        refine hpainted a ⟨j, lt_of_le_of_ne (Nat.le_of_lt_succ hj) ?_, ha⟩
        rintro rfl
        exact hnow ha
    · intro a ha
      have hnow : a ∉ round i := fun hmem => ha ⟨i, Nat.lt_succ_self i, hmem⟩
      rw [hother a hnow]
      refine hleft a ?_
      rintro ⟨j, hj, hmem⟩
      exact ha ⟨j, Nat.lt_succ_of_lt hj, hmem⟩

/-- Painting the same again and again. -/
theorem Paints.repeated {n : ℕ} (h : Paints area v paint) (hn : 0 < n) :
    Paints area v (Library.attempts (fun _ => paint) n) := by
  have hloop : Paints {a | ∃ i < n, a ∈ area} v (Library.attempts (fun _ => paint) n) :=
    Paints.attempts fun _ _ => h
  refine hloop.congr fun a => ?_
  constructor
  · rintro ⟨_, -, ha⟩
    exact ha
  · exact fun ha => ⟨0, hn, ha⟩

end Paints

/-- **The rule of filling**: a loop that stores `value i` at `target i`, all different. -/
theorem attempts_fill {n : ℕ} {target : ℕ → ℤ} {value : ℕ → β}
    {body : ℕ → (ℤ → β) → Option (ℤ → β)}
    (hbody : ∀ i m, i < n → body i m = store size m (target i) (value i))
    (hblock : ∀ i < n, InBlock size (target i))
    (hinj : ∀ i < n, ∀ j < n, target i = target j → i = j) (m : ℤ → β) :
    ∃ m', attempts body n m = some m' ∧ (∀ i < n, m' (target i) = value i) ∧
      ∀ a, (∀ i < n, a ≠ target i) → m' a = m a := by
  have hloop : ∀ k ≤ n, ∃ m', attempts body k m = some m' ∧
      (∀ i < k, m' (target i) = value i) ∧ ∀ a, (∀ i < k, a ≠ target i) → m' a = m a := by
    intro k hk
    refine attempts_total (I := fun k (t : ℤ → β) => (∀ i < k, t (target i) = value i) ∧
      ∀ a, (∀ i < k, a ≠ target i) → t a = m a) ?_ ?_
    · exact ⟨fun i hi => absurd hi (Nat.not_lt_zero i), fun _ _ => rfl⟩
    · rintro i t hi ⟨hfilled, hleft⟩
      have hin : i < n := hi.trans_le hk
      refine ⟨_, by rw [hbody i t hin, store_eq (hblock i hin)], ?_, ?_⟩
      · intro j hj
        rcases Nat.lt_succ_iff_lt_or_eq.mp hj with hlt | rfl
        · have hne : target j ≠ target i := by
            intro heq
            exact absurd (hinj j (hlt.trans hin) i hin heq) (Nat.ne_of_lt hlt)
          rw [Function.update_of_ne hne]
          exact hfilled j hlt
        · exact Function.update_self _ _ _
      · intro a ha
        rw [Function.update_of_ne (ha i (Nat.lt_succ_self i))]
        exact hleft a fun j hj => ha j (Nat.lt_succ_of_lt hj)
  exact hloop n le_rfl

end MachineProblems.Library
