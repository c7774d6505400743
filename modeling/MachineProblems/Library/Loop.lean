import Mathlib.Algebra.BigOperators.Group.List.Basic
import Mathlib.Algebra.Order.BigOperators.Group.List
import Mathlib.Tactic.Linarith

/-!
# Counting loops and sums over a selection

`iterations body s k` is the state of `for (i = 0; i < n; i++) body` after `k`
iterations, and `iterations_invariant` is its only rule; `attempts body n s` is the same loop
with a body that may fault, and `attempts_total` its rule.  `sumOver w keep l` adds the
weights of the elements of `l` that `keep` selects: what a histogram cell holds.
-/

set_option autoImplicit false

namespace MachineProblems.Library

section Loop

variable {σ : Type} {n : ℕ}

/-- The state after the first `k` iterations of a loop over `0, …, n - 1`. -/
def iterations (body : Fin n → σ → σ) (s : σ) : ℕ → σ
  | 0 => s
  | k + 1 => if h : k < n then body ⟨k, h⟩ (iterations body s k) else iterations body s k

/-- **The loop rule**: an invariant indexed by the iterations done. -/
theorem iterations_invariant {body : Fin n → σ → σ} {s : σ} {I : ℕ → σ → Prop} (h0 : I 0 s)
    (hstep : ∀ (i : Fin n) (t : σ), I i t → I (i + 1) (body i t)) {k : ℕ} (hk : k ≤ n) :
    I k (iterations body s k) := by
  induction k with
  | zero => exact h0
  | succ k ih =>
      have hkn : k < n := by omega
      rw [iterations, dif_pos hkn]
      exact hstep ⟨k, hkn⟩ _ (ih (Nat.le_of_lt hkn))

/-- **The rule of two runs**: what relates the states of two loops before and after each iteration
relates them at the end. -/
theorem iterations_related {τ : Type} {body : Fin n → σ → σ} {body' : Fin n → τ → τ} {s : σ}
    {s' : τ} {R : ℕ → σ → τ → Prop} (h0 : R 0 s s')
    (hstep : ∀ (i : Fin n) (t : σ) (t' : τ), R i t t' → R (i + 1) (body i t) (body' i t'))
    {k : ℕ} (hk : k ≤ n) : R k (iterations body s k) (iterations body' s' k) := by
  induction k with
  | zero => exact h0
  | succ k ih =>
      have hkn : k < n := by omega
      rw [iterations, dif_pos hkn, iterations, dif_pos hkn]
      exact hstep ⟨k, hkn⟩ _ _ (ih (Nat.le_of_lt hkn))

/-- The state after `n` iterations of a loop whose body may fault. -/
def attempts (body : ℕ → σ → Option σ) : ℕ → σ → Option σ
  | 0, s => some s
  | n + 1, s => (attempts body n s).bind (body n)

/-- **The loop rule with faults**: where the body keeps the invariant without a fault, so does
the loop. -/
theorem attempts_total {body : ℕ → σ → Option σ} {s : σ} {I : ℕ → σ → Prop} (h0 : I 0 s)
    (hstep : ∀ i t, i < n → I i t → ∃ t', body i t = some t' ∧ I (i + 1) t') :
    ∃ t, attempts body n s = some t ∧ I n t := by
  have hrun : ∀ k ≤ n, ∃ t, attempts body k s = some t ∧ I k t := by
    intro k
    induction k with
    | zero => exact fun _ => ⟨s, rfl, h0⟩
    | succ k ih =>
        intro hk
        obtain ⟨t, ht, hI⟩ := ih (Nat.le_of_succ_le hk)
        obtain ⟨t', ht', hI'⟩ := hstep k t hk hI
        exact ⟨t', by rw [attempts, ht, Option.bind_some, ht'], hI'⟩
  exact hrun n le_rfl

/-- A body that never faults makes a loop that does not. -/
theorem attempts_some {body : ℕ → σ → Option σ}
    (hbody : ∀ i t, i < n → ∃ t', body i t = some t') (s : σ) :
    ∃ t, attempts body n s = some t := by
  obtain ⟨t, hrun, -⟩ := attempts_total (s := s) (I := fun _ _ => True) trivial
    fun i t hi _ => (hbody i t hi).imp fun _ ht => ⟨ht, trivial⟩
  exact ⟨t, hrun⟩

/-- What the body keeps, a loop that returns keeps. -/
theorem attempts_invariant {body : ℕ → σ → Option σ} {s t : σ} {I : ℕ → σ → Prop} (h0 : I 0 s)
    (hstep : ∀ i s t, I i s → body i s = some t → I (i + 1) t)
    (hrun : attempts body n s = some t) : I n t := by
  induction n generalizing t with
  | zero =>
      obtain rfl := Option.some.inj hrun
      exact h0
  | succ n ih =>
      obtain ⟨u, hu, ht⟩ := Option.bind_eq_some_iff.mp hrun
      exact hstep n u t (ih hu) ht

/-- A loop that returns has done each of its rounds. -/
theorem attempts_round {body : ℕ → σ → Option σ} {s t : σ} (hrun : attempts body n s = some t)
    {i : ℕ} (hi : i < n) : ∃ u v, attempts body i s = some u ∧ body i u = some v := by
  induction n generalizing t with
  | zero => exact absurd hi (Nat.not_lt_zero i)
  | succ n ih =>
      obtain ⟨u, hu, ht⟩ := Option.bind_eq_some_iff.mp hrun
      rcases Nat.lt_succ_iff_lt_or_eq.mp hi with hlt | rfl
      · exact ih hu hlt
      · exact ⟨u, t, hu, ht⟩

/-- A body that faults less often makes a loop that faults less often. -/
theorem attempts_mono {body body' : ℕ → σ → Option σ} {s t : σ}
    (hbody : ∀ i s t, body i s = some t → body' i s = some t)
    (hrun : attempts body n s = some t) : attempts body' n s = some t := by
  induction n generalizing t with
  | zero => exact hrun
  | succ n ih =>
      obtain ⟨u, hu, ht⟩ := Option.bind_eq_some_iff.mp hrun
      rw [attempts, ih hu, Option.bind_some]
      exact hbody n u t ht

/-! ### Rows and columns -/

section Rows

variable {width height : ℕ} {s : σ} {I : ℕ → σ → Prop}

/-- **The rule of two nested loops**: an invariant indexed by the inner iterations done. -/
theorem iterations_rows {body : Fin height → Fin width → σ → σ} (h0 : I 0 s)
    (hstep : ∀ (i : Fin height) (x : Fin width) (t : σ), I (i * width + x) t →
      I (i * width + x + 1) (body i x t)) :
    I (height * width) (iterations (fun i t => iterations (body i) t width) s height) := by
  have hrows : ∀ (i : Fin height) (t : σ), I (i * width) t →
      I ((i + 1) * width) (iterations (body i) t width) := by
    intro i t ht
    rw [add_mul, one_mul]
    exact iterations_invariant (I := fun x => I (i * width + x)) ht (hstep i) le_rfl
  refine iterations_invariant (I := fun i => I (i * width)) ?_ hrows le_rfl
  rw [zero_mul]
  exact h0

/-- The same for loops with faults. -/
theorem attempts_rows {body : ℕ → ℕ → σ → Option σ} (h0 : I 0 s)
    (hstep : ∀ i x t, i < height → x < width → I (i * width + x) t →
      ∃ t', body i x t = some t' ∧ I (i * width + x + 1) t') :
    ∃ t, attempts (fun i => attempts (body i) width) height s = some t ∧
      I (height * width) t := by
  have hrows : ∀ i t, i < height → I (i * width) t →
      ∃ t', attempts (body i) width t = some t' ∧ I ((i + 1) * width) t' := by
    intro i t hi ht
    rw [add_mul, one_mul]
    exact attempts_total (I := fun x => I (i * width + x)) ht fun x u hx hu => hstep i x u hi hx hu
  refine attempts_total (I := fun i => I (i * width)) ?_ hrows
  rw [zero_mul]
  exact h0

/-- Row and column of an iteration are determined by its number. -/
theorem rowCol_eq {i x : ℕ} (hx : x < width) :
    (i * width + x) / width = i ∧ (i * width + x) % width = x := by
  have hwidth : 0 < width := by omega
  constructor
  · rw [mul_comm, Nat.mul_add_div hwidth, Nat.div_eq_of_lt hx, Nat.add_zero]
  · rw [mul_comm, Nat.mul_add_mod, Nat.mod_eq_of_lt hx]

theorem rowCol_inj {i i' x x' : ℕ} (hx : x < width) (hx' : x' < width)
    (h : i * width + x = i' * width + x') : i = i' ∧ x = x' := by
  obtain ⟨hi, hcol⟩ := rowCol_eq (i := i) hx
  obtain ⟨hi', hcol'⟩ := rowCol_eq (i := i') hx'
  exact ⟨by rw [← hi, h, hi'], by rw [← hcol, h, hcol']⟩

theorem rowCol_lt {i x : ℕ} (hi : i < height) (hx : x < width) :
    i * width + x < height * width :=
  calc i * width + x < i * width + width := Nat.add_lt_add_left hx _
    _ = (i + 1) * width := by rw [Nat.succ_mul]
    _ ≤ height * width := Nat.mul_le_mul_right _ hi

end Rows

end Loop

section SumOver

variable {α M : Type} [AddCommMonoid M]

/-- The weights of the selected elements, added up. -/
def sumOver (w : α → M) (keep : α → Bool) (l : List α) : M := ((l.filter keep).map w).sum

@[simp] theorem sumOver_nil (w : α → M) (keep : α → Bool) : sumOver w keep [] = 0 := rfl

theorem sumOver_cons (w : α → M) (keep : α → Bool) (x : α) (l : List α) :
    sumOver w keep (x :: l) = (if keep x then w x else 0) + sumOver w keep l := by
  cases h : keep x with
  | true => simp [sumOver, h]
  | false => simp [sumOver, h]

theorem sumOver_concat (w : α → M) (keep : α → Bool) (l : List α) (x : α) :
    sumOver w keep (l ++ [x]) = sumOver w keep l + (if keep x then w x else 0) := by
  cases h : keep x with
  | true => simp [sumOver, h]
  | false => simp [sumOver, h]

theorem sumOver_congr (w : α → M) {keep keep' : α → Bool} (l : List α)
    (h : ∀ x, keep x = keep' x) : sumOver w keep l = sumOver w keep' l := by
  rw [show keep = keep' from funext h]

/-- **Splitting a selection** in two that exclude each other. -/
theorem sumOver_split (w : α → M) {keep left right : α → Bool} (l : List α)
    (hor : ∀ x, keep x = (left x || right x)) (hand : ∀ x, (left x && right x) = false) :
    sumOver w keep l = sumOver w left l + sumOver w right l := by
  induction l with
  | nil => simp
  | cons x l ih =>
      simp only [sumOver_cons, ih, hor x]
      have hx := hand x
      cases hl : left x with
      | true =>
          have hr : right x = false := by simpa [hl] using hx
          simp [hr, add_assoc]
      | false =>
          cases hr : right x with
          | true => simp [add_left_comm]
          | false => simp

/-- The order of the elements does not matter. -/
theorem sumOver_perm (w : α → M) (keep : α → Bool) {l l' : List α} (h : l.Perm l') :
    sumOver w keep l = sumOver w keep l' :=
  ((h.filter keep).map w).sum_eq

/-- Nothing selected, nothing added. -/
theorem sumOver_eq_zero (w : α → M) {keep : α → Bool} (l : List α) (h : ∀ x, keep x = false) :
    sumOver w keep l = 0 := by
  induction l with
  | nil => rfl
  | cons x l ih => simp [sumOver_cons, h x, ih]

end SumOver

section Bounds

variable {α : Type}

/-- The sum of weights between `0` and `m` lies between `0` and `m` times the length. -/
theorem sumOver_bounds {w : α → ℤ} {m : ℤ} (keep : α → Bool) (l : List α)
    (hw : ∀ x, 0 ≤ w x ∧ w x ≤ m) (hm : 0 ≤ m) :
    0 ≤ sumOver w keep l ∧ sumOver w keep l ≤ m * l.length := by
  induction l with
  | nil => simp
  | cons x l ih =>
      obtain ⟨h0, h1⟩ := hw x
      rw [sumOver_cons, List.length_cons]
      push_cast
      rw [mul_add, mul_one]
      split
      · omega
      · omega

/-- The rounded-down average of values between `lo` and `hi` lies between them. -/
theorem average_between {f : α → ℕ} {lo hi : ℕ} {l : List α} (hl : 0 < l.length)
    (h : ∀ x ∈ l, lo ≤ f x ∧ f x ≤ hi) :
    lo ≤ (l.map f).sum / l.length ∧ (l.map f).sum / l.length ≤ hi := by
  have hlo : l.length * lo ≤ (l.map f).sum := by
    have := List.card_nsmul_le_sum (l.map f) lo (by simpa using fun x hx => (h x hx).1)
    simpa using this
  have hhi : (l.map f).sum ≤ l.length * hi := by
    have := List.sum_le_card_nsmul (l.map f) hi (by simpa using fun x hx => (h x hx).2)
    simpa using this
  constructor
  · rw [Nat.le_div_iff_mul_le hl, mul_comm]
    exact hlo
  · exact Nat.div_le_of_le_mul hhi

theorem sumOver_one (keep : α → Bool) (l : List α) :
    sumOver (fun _ => (1 : ℤ)) keep l = (l.filter keep).length := by
  simp [sumOver]

/-- A selected element of the list is counted. -/
theorem sumOver_one_pos {keep : α → Bool} {l : List α} {x : α} (hx : x ∈ l)
    (hk : keep x = true) : 0 < sumOver (fun _ => (1 : ℤ)) keep l := by
  rw [sumOver_one]
  have : 0 < (l.filter keep).length := List.length_pos_of_mem (List.mem_filter.mpr ⟨hx, hk⟩)
  exact_mod_cast this

end Bounds

end MachineProblems.Library
