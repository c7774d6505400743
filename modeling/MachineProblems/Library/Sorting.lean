import Mathlib.Data.List.FinRange
import Mathlib.Data.List.NodupEquivFin
import Mathlib.Data.List.Sort
import Mathlib.Data.Set.Operations

/-!
# Sorting with a comparison function

A comparison function of the C library returns an `int` whose sign is the order.  Its contract is
that the sign turns around with the arguments and that the order is transitive; a sort is correct if
it orders the arrays on which the comparison function keeps the contract.  Of other comparison
functions nothing is promised: for one that is never negative every arrangement of the array is the
result of some correct sort.
-/

set_option autoImplicit false

namespace MachineProblems.Library

variable {α : Type} {n : ℕ}

/-- What a comparison function promises of the elements of `S`. -/
structure Contract (cmp : α → α → ℤ) (S : Set α) : Prop where
  opposite : ∀ a ∈ S, ∀ b ∈ S, (cmp a b).sign = -(cmp b a).sign
  trans : ∀ a ∈ S, ∀ b ∈ S, ∀ c ∈ S, cmp a b ≤ 0 → cmp b c ≤ 0 → cmp a c ≤ 0

/-- A sort of arrays of `n` elements. -/
abbrev Sorter (α : Type) (n : ℕ) : Type := (α → α → ℤ) → (Fin n → α) → Fin n → α

/-- The array `b` is the array `a` in order. -/
structure Sorts (cmp : α → α → ℤ) (a b : Fin n → α) : Prop where
  perm : ∃ σ : Equiv.Perm (Fin n), b = a ∘ σ
  ordered : ∀ i j, i ≤ j → cmp (b i) (b j) ≤ 0

/-- The sort orders every array on which the comparison function keeps its contract. -/
def Sorter.Correct (sort : Sorter α n) : Prop :=
  ∀ cmp a, Contract cmp (Set.range a) → Sorts cmp a (sort cmp a)

/-- The sort looks at the elements through the comparison function only: it treats elements in the
same way that compare in the same way. -/
def Oblivious (cmp : α → α → ℤ) (sort : (Fin n → α) → Fin n → α) : Prop :=
  ∀ f : α → α, (∀ x y, cmp (f x) (f y) = cmp x y) → ∀ a, sort (f ∘ a) = f ∘ sort a

/-! ## The contract -/

section Contract

variable {cmp : α → α → ℤ} {S : Set α} {a b : α}

theorem Contract.neg_iff (h : Contract cmp S) (ha : a ∈ S) (hb : b ∈ S) :
    cmp a b < 0 ↔ 0 < cmp b a := by
  rw [← Int.sign_eq_neg_one_iff_neg, ← Int.sign_eq_one_iff_pos, h.opposite a ha b hb,
    Int.neg_inj]

theorem Contract.nonpos_iff (h : Contract cmp S) (ha : a ∈ S) (hb : b ∈ S) :
    cmp a b ≤ 0 ↔ 0 ≤ cmp b a := by
  rw [← not_lt, ← not_lt, h.neg_iff hb ha]

theorem Contract.self (h : Contract cmp S) (ha : a ∈ S) : cmp a a ≤ 0 := by
  have hself := h.nonpos_iff ha ha
  omega

end Contract

/-! ## Insertion sort after a shuffle -/

/-- Some arrangement has two given elements at two given places. -/
theorem exists_perm_pair {i j c d : Fin n} (hij : i ≠ j) (hcd : c ≠ d) :
    ∃ τ : Equiv.Perm (Fin n), τ i = c ∧ τ j = d := by
  refine ⟨(Equiv.swap i c).trans (Equiv.swap (Equiv.swap i c j) d), ?_, ?_⟩
  · have hne : c ≠ Equiv.swap i c j := by
      intro heq
      apply hij
      apply (Equiv.swap i c).injective
      rw [Equiv.swap_apply_left]
      exact heq
    rw [Equiv.trans_apply, Equiv.swap_apply_left, Equiv.swap_apply_of_ne_of_ne hne hcd]
  · rw [Equiv.trans_apply, Equiv.swap_apply_left]

section Shuffle

variable (τ : Equiv.Perm (Fin n)) (cmp : α → α → ℤ) (a : Fin n → α)

/-- The places of the elements, in order: place `i` is inserted before `j` unless the element at `j`
is smaller. -/
def insertionOrder : List (Fin n) := (List.ofFn τ).insertionSort fun i j => 0 ≤ cmp (a j) (a i)

theorem insertionOrder_perm : (insertionOrder τ cmp a).Perm (List.ofFn τ) :=
  List.perm_insertionSort _ _

theorem insertionOrder_length : (insertionOrder τ cmp a).length = n := by
  rw [(insertionOrder_perm τ cmp a).length_eq, List.length_ofFn]

/-- An insertion sort that starts from the arrangement `τ`. -/
def shuffleSort (τ : Equiv.Perm (Fin n)) : Sorter α n := fun cmp a k =>
  a ((insertionOrder τ cmp a).get (k.cast (insertionOrder_length τ cmp a).symm))

/-- The arrangement that the insertion sort ends in. -/
theorem shuffleSort_perm : ∃ σ : Equiv.Perm (Fin n), shuffleSort τ cmp a = a ∘ σ := by
  have hperm := insertionOrder_perm τ cmp a
  have hnodup : (insertionOrder τ cmp a).Nodup :=
    hperm.nodup_iff.mpr (List.nodup_ofFn_ofInjective τ.injective)
  have hall : ∀ i, i ∈ insertionOrder τ cmp a := by
    intro i
    rw [hperm.mem_iff, List.mem_ofFn]
    exact τ.surjective i
  let σ : Fin n ≃ Fin n := (finCongr (insertionOrder_length τ cmp a).symm).trans
    (List.Nodup.getEquivOfForallMemList _ hnodup hall)
  exact ⟨σ, rfl⟩

/-- **The insertion sort is correct**, whatever arrangement it starts from. -/
theorem shuffleSort_correct : (shuffleSort τ : Sorter α n).Correct := by
  intro cmp a h
  have hmem : ∀ i, a i ∈ Set.range a := fun i => Set.mem_range_self i
  let r : Fin n → Fin n → Prop := fun i j => 0 ≤ cmp (a j) (a i)
  have htotal : ∀ i j, r i j ∨ r j i := by
    intro i j
    have hturn := h.neg_iff (hmem i) (hmem j)
    show 0 ≤ cmp (a j) (a i) ∨ 0 ≤ cmp (a i) (a j)
    omega
  have htrans : ∀ i j k, r i j → r j k → r i k := by
    intro i j k hij hjk
    apply (h.nonpos_iff (hmem i) (hmem k)).mp
    exact h.trans _ (hmem i) _ (hmem j) _ (hmem k) ((h.nonpos_iff (hmem i) (hmem j)).mpr hij)
      ((h.nonpos_iff (hmem j) (hmem k)).mpr hjk)
  have : Std.Total r := ⟨htotal⟩
  have : IsTrans (Fin n) r := ⟨htrans⟩
  have hpairwise : (insertionOrder τ cmp a).Pairwise r := List.pairwise_insertionSort r _
  refine ⟨shuffleSort_perm τ cmp a, fun i j hij => ?_⟩
  rcases hij.lt_or_eq with hlt | rfl
  · apply (h.nonpos_iff (hmem _) (hmem _)).mpr
    exact List.pairwise_iff_get.mp hpairwise _ _ hlt
  · exact h.self (hmem _)

/-- **A comparison function that is never negative** leaves the array as it was shuffled. -/
theorem shuffleSort_of_nonneg (h : ∀ x y, 0 ≤ cmp x y) : shuffleSort τ cmp a = a ∘ τ := by
  have hsame : insertionOrder τ cmp a = List.ofFn τ :=
    List.Pairwise.insertionSort_eq (List.pairwise_of_forall fun i j => h (a j) (a i))
  funext k
  show a ((insertionOrder τ cmp a).get _) = a (τ k)
  rw [List.get_of_eq hsame]
  simp

end Shuffle

end MachineProblems.Library
