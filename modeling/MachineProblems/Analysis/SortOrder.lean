import MachineProblems.Analysis.Quantizer
import MachineProblems.Library.Sorting

/-!
# Which cells are chosen

`sort_cmp` returns whether the first counter is the smaller one.  That is never negative, so it keeps
the contract of a comparison function on equal counters only, and a correct sort may leave the nodes
in any arrangement.  The most frequent cells are in front for certain exactly if all cells are
equally frequent.
-/

set_option autoImplicit false

namespace MachineProblems.Analysis.SortOrder

open MachineProblems.Library MachineProblems.Program.Quantizer MachineProblems.Analysis.Quantizer

/-- The chosen cells have counters at least as large as the others. -/
def MostFrequentFirst (s : Tables) : Prop :=
  ∀ i j : Fin 4096, i.val < 128 → 128 ≤ j.val →
    (s.fourthLev j).counter ≤ (s.fourthLev i).counter

def firstPlace : Fin 4096 := ⟨0, by omega⟩

def lastPlace : Fin 4096 := ⟨4095, by omega⟩

theorem MostFrequentFirst.ends {s : Tables} (h : MostFrequentFirst s) :
    (s.fourthLev lastPlace).counter ≤ (s.fourthLev firstPlace).counter := by
  apply h
  · simp only [firstPlace]
    omega
  · simp only [lastPlace]
    omega

/-- All cells of the fourth level hold equally many pixels. -/
def EvenlySpread (P : List UInt16) : Prop :=
  ∀ c d : Fin 4096, (P.filter fun q => cell4 q == c).length = (P.filter fun q => cell4 q == d).length

/-! ## The comparison function -/

theorem sortCmp_nonneg (a b : Node) : 0 ≤ sortCmp a b := by
  unfold sortCmp
  split_ifs <;> decide

/-- **The contract** is kept on nodes with equal counters only. -/
theorem contract_sortCmp_iff (S : Set Node) :
    Contract sortCmp S ↔ ∀ a ∈ S, ∀ b ∈ S, a.counter = b.counter := by
  constructor
  · intro h
    have hnotLess : ∀ a ∈ S, ∀ b ∈ S, ¬ a.counter < b.counter := by
      intro a ha b hb hless
      have hpos : 0 < sortCmp a b := by
        rw [sortCmp, if_pos hless]
        decide
      have hneg := (h.neg_iff hb ha).mpr hpos
      have hnonneg := sortCmp_nonneg b a
      omega
    intro a ha b hb
    have hab := hnotLess a ha b hb
    have hba := hnotLess b hb a ha
    omega
  · intro h
    have hzero : ∀ a ∈ S, ∀ b ∈ S, sortCmp a b = 0 := by
      intro a ha b hb
      exact if_neg (h a ha b hb).not_lt
    constructor
    · intro a ha b hb
      rw [hzero a ha b hb, hzero b hb a ha]
      rfl
    · intro a ha b hb c hc _ _
      rw [hzero a ha c hc]

/-! ## The histogram -/

theorem sortFourth_fourthLev (qsort : (Fin 4096 → Node) → Fin 4096 → Node) (s : Tables) :
    (sortFourth qsort s).fourthLev = qsort s.fourthLev := rfl

/-- A shuffled histogram is left as it is. -/
theorem sortFourth_shuffleSort (τ : Equiv.Perm (Fin 4096)) (s : Tables) :
    (sortFourth (shuffleSort τ sortCmp) s).fourthLev = s.fourthLev ∘ τ := by
  have hsame := shuffleSort_of_nonneg τ sortCmp s.fourthLev sortCmp_nonneg
  rw [sortFourth_fourthLev, hsame]

section Histogram

variable (s : Tables) (P : List UInt16)

theorem counter_histogram (c : Fin 4096) : ((histogram s P).fourthLev c).counter =
    ((P.filter fun q => cell4 q == c).length : ℤ) := by
  have hcount := (filled_histogram s P).fourth c .count
  rw [show share .count = fun _ => (1 : ℤ) from rfl, sumOver_one] at hcount
  exact hcount

theorem evenlySpread_iff : EvenlySpread P ↔ ∀ c d,
    ((histogram s P).fourthLev c).counter = ((histogram s P).fourthLev d).counter := by
  refine forall_congr' fun c => forall_congr' fun d => ?_
  rw [counter_histogram, counter_histogram, Nat.cast_inj]

/-- The comparison function keeps its contract on evenly spread nodes. -/
theorem contract_histogram_iff :
    Contract sortCmp (Set.range (histogram s P).fourthLev) ↔ EvenlySpread P := by
  rw [contract_sortCmp_iff, evenlySpread_iff s]
  simp only [Set.forall_mem_range]

/-- **A sort that fails**: some arrangement has the smaller of two counters in front, and is left as
it is by a correct sort. -/
theorem exists_sort_behind {c d : Fin 4096} (hless : ((histogram s P).fourthLev c).counter <
    ((histogram s P).fourthLev d).counter) : ∃ sort : Sorter Node 4096, sort.Correct ∧
      ¬ MostFrequentFirst (sortFourth (sort sortCmp) (histogram s P)) := by
  have hne : c ≠ d := by
    rintro rfl
    exact lt_irrefl _ hless
  have hends : firstPlace ≠ lastPlace := by
    intro heq
    have hval := Fin.mk.inj heq
    omega
  obtain ⟨τ, hc, hd⟩ := exists_perm_pair hends hne
  refine ⟨shuffleSort τ, shuffleSort_correct τ, fun hfirst => ?_⟩
  have hle := hfirst.ends
  rw [sortFourth_shuffleSort, Function.comp_apply, Function.comp_apply, hc, hd] at hle
  omega

/-- A correct sort is at least an arrangement, where the contract is kept. -/
theorem mostFrequentFirst_of_evenly (h : EvenlySpread P) {sort : Sorter Node 4096}
    (hsort : sort.Correct) : MostFrequentFirst (sortFourth (sort sortCmp) (histogram s P)) := by
  obtain ⟨⟨σ, hσ⟩, -⟩ := hsort sortCmp _ ((contract_histogram_iff s P).mpr h)
  intro i j _ _
  have hnode : ∀ k, (sortFourth (sort sortCmp) (histogram s P)).fourthLev k =
      (histogram s P).fourthLev (σ k) := fun k => congrFun hσ k
  rw [hnode, hnode, (evenlySpread_iff s P).mp h]

/-- **The chosen cells are the most frequent ones**, for every correct sort, exactly if all cells are
equally frequent; these are the pixels for which `sort_cmp` keeps its contract. -/
theorem most_frequent_first_iff :
    (Contract sortCmp (Set.range (histogram s P).fourthLev) ↔ EvenlySpread P) ∧
      ((∀ sort : Sorter Node 4096, sort.Correct →
        MostFrequentFirst (sortFourth (sort sortCmp) (histogram s P))) ↔ EvenlySpread P) := by
  refine ⟨contract_histogram_iff s P, fun h => ?_, fun h sort hsort =>
    mostFrequentFirst_of_evenly s P h hsort⟩
  rw [evenlySpread_iff s]
  have hnotLess : ∀ c d, ¬ ((histogram s P).fourthLev c).counter <
      ((histogram s P).fourthLev d).counter := by
    intro c d hless
    obtain ⟨sort, hcorrect, hbehind⟩ := exists_sort_behind s P hless
    exact hbehind (h sort hcorrect)
  intro c d
  have hcd := hnotLess c d
  have hdc := hnotLess d c
  omega

end Histogram

/-- A node with a counter. -/
def counting (counter : ℤ) : Node := ⟨0, 0, 0, 0, 0, counter⟩

/-- A single white pixel: `sort_cmp` breaks its contract, and an insertion sort leaves the only cell
that is used behind the chosen ones. -/
theorem most_frequent_last :
    ¬ Contract sortCmp {a | 0 ≤ a.counter} ∧
      (shuffleSort (Equiv.refl _) : Sorter Node 4096).Correct ∧
      ¬ MostFrequentFirst (sortFourth (shuffleSort (Equiv.refl _) sortCmp)
        (histogram emptyTables [0xFFFF])) := by
  refine ⟨fun h => ?_, shuffleSort_correct _, fun h => ?_⟩
  · have heq := (contract_sortCmp_iff _).mp h (counting 0) (by decide) (counting 1) (by decide)
    cases heq
  · have hle := h.ends
    rw [sortFourth_shuffleSort, Function.comp_apply, Function.comp_apply, counter_histogram,
      counter_histogram] at hle
    exact absurd hle (by decide)

end MachineProblems.Analysis.SortOrder
