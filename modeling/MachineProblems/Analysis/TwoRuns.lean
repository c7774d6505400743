import MachineProblems.Analysis.Quantizer
import MachineProblems.Library.Sorting

/-!
# Photos do not depend on each other

`arr_initialize` leaves the `index` fields as the last photo left them.  Two runs of the quantizer on
the same set of pixels have tables that are alike but for these fields: the histogram adds up the
same shares, a sort that looks at the nodes through `sort_cmp` moves them in the same way, and the
loops of `set_plt_values` store an index before `calculate_vga` reads it.
-/

set_option autoImplicit false

namespace MachineProblems.Analysis.TwoRuns

open MachineProblems.Library MachineProblems.Program.Quantizer MachineProblems.Analysis.Quantizer

/-- A node without its stale field. -/
def unindexed (node : Node) : Node := { node with index := 0 }

/-- Two runs after `k` nodes of the fourth level have their index. -/
structure Alike (k : ℕ) (t t' : Tables × Palette) : Prop where
  second : ∀ n a, amount (t.1.secondLev n) a = amount (t'.1.secondLev n) a
  fourth : ∀ j, unindexed (t.1.fourthLev j) = unindexed (t'.1.fourthLev j)
  index : ∀ j : Fin 4096, j.val < k → (t.1.fourthLev j).index = (t'.1.fourthLev j).index
  palette : t.2 = t'.2

/-! ## Nodes -/

section Nodes

variable {node node' : Node}

theorem amount_of_unindexed (h : unindexed node = unindexed node') (a : Account) :
    amount node a = amount node' a := by
  have hamount := congrArg (fun n => amount n a) h
  simpa [unindexed] using hamount

theorem color_of_unindexed (h : unindexed node = unindexed node') : node.color = node'.color := by
  have hcolor : (unindexed node).color = (unindexed node').color := congrArg Node.color h
  exact hcolor

/-- A node is what it accounts for, but for its color. -/
theorem unindexed_of_amount (h : ∀ a, amount node a = amount node' a)
    (hcolor : node.color = node'.color) : unindexed node = unindexed node' := by
  unfold unindexed
  congr 1
  · exact h .red
  · exact h .green
  · exact h .blue
  · exact h .count

/-- Nodes that account for the same have the same palette entry. -/
theorem average_of_amount (h : ∀ a, amount node a = amount node' a) :
    node.average = node'.average := by
  unfold Node.average
  rw [show node.totalRed = node'.totalRed from h .red,
    show node.totalGreen = node'.totalGreen from h .green,
    show node.totalBlue = node'.totalBlue from h .blue,
    show node.counter = node'.counter from h .count]

/-- The comparison function does not read the index. -/
theorem sortCmp_unindexed (x y : Node) : sortCmp (unindexed x) (unindexed y) = sortCmp x y := rfl

end Nodes

/-! ## The histogram and the sort -/

section Runs

variable {s s' : Tables} {P P' : List UInt16}

/-- **Insertion commutes**: the accounts are sums. -/
theorem histogram_alike (h : P.Perm P') (palette : Palette) :
    Alike 0 (histogram s P, palette) (histogram s' P', palette) := by
  have hfilled := filled_histogram s P
  have hfilled' := filled_histogram s' P'
  constructor
  · intro n a
    rw [hfilled.second, hfilled'.second, sumOver_perm _ _ h]
  · intro j
    apply unindexed_of_amount
    · intro a
      rw [hfilled.fourth, hfilled'.fourth, sumOver_perm _ _ h]
    · rw [hfilled.color, hfilled'.color]
  · intro j hj
    exact absurd hj (Nat.not_lt_zero _)
  · rfl

/-- **The sort** does not see the stale field. -/
theorem Alike.sorted {qsort : (Fin 4096 → Node) → Fin 4096 → Node}
    (hqsort : Oblivious sortCmp qsort) {palette : Palette} (h : Alike 0 (s, palette) (s', palette)) :
    Alike 0 (sortFourth qsort s, palette) (sortFourth qsort s', palette) := by
  have hsame : unindexed ∘ s.fourthLev = unindexed ∘ s'.fourthLev := funext h.fourth
  have hcommute := hqsort unindexed sortCmp_unindexed
  refine ⟨h.second, fun j => ?_, fun j hj => absurd hj (Nat.not_lt_zero _), rfl⟩
  show (unindexed ∘ qsort s.fourthLev) j = (unindexed ∘ qsort s'.fourthLev) j
  rw [← hcommute, ← hcommute, hsame]

/-! ## The loops -/

/-- **The step lemma** of the loop over the chosen cells. -/
theorem Alike.chosen {i : Fin 128} {t t' : Tables × Palette} (h : Alike i t t') :
    Alike (i + 1) (fourthStep i t) (fourthStep i t') := by
  let j : Fin 4096 := i.castLE (by omega)
  let parent : Fin 64 := ⟨parentIndex (t.1.fourthLev j).color, parentIndex_lt _⟩
  have hnode := h.fourth j
  have hamount := amount_of_unindexed hnode
  have hcolor := color_of_unindexed hnode
  have hfourth : ∀ t : Tables × Palette, (fourthStep i t).1.fourthLev =
      Function.update t.1.fourthLev j { t.1.fourthLev j with index := i + 64 } := fun _ => rfl
  have hsecond : (fourthStep i t).1.secondLev = Function.update t.1.secondLev parent
      ((t.1.secondLev parent).subtract (t.1.fourthLev j)) := rfl
  have hsecond' : (fourthStep i t').1.secondLev = Function.update t'.1.secondLev parent
      ((t'.1.secondLev parent).subtract (t'.1.fourthLev j)) := by
    simp only [fourthStep, parent, hcolor]
    rfl
  constructor
  · intro n a
    rw [hsecond, hsecond']
    by_cases hn : n = parent
    · subst hn
      rw [Function.update_self, Function.update_self, amount_subtract, amount_subtract,
        h.second, hamount]
    · rw [Function.update_of_ne hn, Function.update_of_ne hn, h.second]
  · intro k
    rw [hfourth, hfourth]
    by_cases hk : k = j
    · subst hk
      rw [Function.update_self, Function.update_self]
      exact hnode
    · rw [Function.update_of_ne hk, Function.update_of_ne hk, h.fourth]
  · intro k hk
    rw [hfourth, hfourth]
    by_cases hkj : k = j
    · subst hkj
      rw [Function.update_self, Function.update_self]
    · have hval : k.val ≠ i.val := fun he => hkj (Fin.ext he)
      rw [Function.update_of_ne hkj, Function.update_of_ne hkj]
      exact h.index k (by omega)
  · have hpalette : ∀ t : Tables × Palette, (fourthStep i t).2 =
        if (t.1.fourthLev j).counter ≠ 0 then
          Function.update t.2 (⟨i + 64, by omega⟩ : Fin 192) (some (t.1.fourthLev j).average)
        else t.2 := fun _ => rfl
    have hcounter : (t.1.fourthLev j).counter = (t'.1.fourthLev j).counter := hamount .count
    rw [hpalette, hpalette, hcounter, average_of_amount hamount, h.palette]

/-- **The step lemma** of the loop over the second level. -/
theorem Alike.averaged {i : Fin 64} {t t' : Tables × Palette} (h : Alike 128 t t') :
    Alike 128 (secondStep i t) (secondStep i t') := by
  have hsecond : ∀ (t : Tables × Palette) n a,
      amount ((secondStep i t).1.secondLev n) a = amount (t.1.secondLev n) a := by
    intro t n a
    by_cases hn : n = i
    · subst hn
      simp [secondStep]
    · simp [secondStep, hn]
  refine ⟨fun n a => ?_, h.fourth, h.index, ?_⟩
  · rw [hsecond, hsecond, h.second]
  · have hpalette : ∀ t : Tables × Palette, (secondStep i t).2 =
        if (t.1.secondLev i).counter ≠ 0 then
          Function.update t.2 (i.castLE (by omega) : Fin 192) (some (t.1.secondLev i).average)
        else t.2 := fun _ => rfl
    have hamount := h.second i
    have hcounter : (t.1.secondLev i).counter = (t'.1.secondLev i).counter := hamount .count
    rw [hpalette, hpalette, hcounter, average_of_amount hamount, h.palette]

/-- **Alike tables** give a pixel the same value. -/
theorem Alike.lookup {t t' : Tables × Palette} (h : Alike 128 t t') (pixel : UInt16) :
    calculateVga t.1 pixel = calculateVga t'.1 pixel := by
  have htest : (fun i : Fin 128 => (t.1.fourthLev (i.castLE (by omega))).color == i4 pixel) =
      fun i => (t'.1.fourthLev (i.castLE (by omega))).color == i4 pixel := by
    funext i
    rw [color_of_unindexed (h.fourth _)]
  unfold calculateVga
  rw [htest]
  cases (List.finRange 128).find? fun i =>
      (t'.1.fourthLev (i.castLE (by omega))).color == i4 pixel with
  | none => rfl
  | some i => simp only [h.index (i.castLE (by omega)) i.isLt]

end Runs

/-! ## Both runs -/

/-- What the comparison function does not change does not change the order of the counters. -/
theorem counter_lt_iff {f : Node → Node} (hf : ∀ x y, sortCmp (f x) (f y) = sortCmp x y)
    (x y : Node) : (f x).counter < (f y).counter ↔ x.counter < y.counter := by
  have hone : ∀ p : Prop, [Decidable p] → ((if p then (1 : ℤ) else 0) = 1 ↔ p) := by
    intro p _
    split_ifs with hp <;> simp [hp]
  have hsame := hf x y
  unfold sortCmp at hsame
  rw [← hone ((f x).counter < (f y).counter), hsame, hone]

theorem sort_counter_eq {n : ℕ} {f : Node → Node} (hf : ∀ x y, sortCmp (f x) (f y) = sortCmp x y)
    (a : Fin n → Node) :
    (Tuple.sort fun i => -((f ∘ a) i).counter) = Tuple.sort fun i => -(a i).counter := by
  symm
  obtain ⟨hmono, hstable⟩ := Tuple.eq_sort_iff.mp (Eq.refl (Tuple.sort fun i => -(a i).counter))
  refine Tuple.eq_sort_iff.mpr ⟨fun i j hij => ?_, fun i j hij heq => ?_⟩
  · have hle := neg_le_neg_iff.mp (hmono hij)
    apply neg_le_neg
    apply not_lt.mp
    exact (counter_lt_iff hf _ _).not.mpr (not_lt.mpr hle)
  · apply hstable i j hij
    have heq := neg_inj.mp heq
    have hij' := (counter_lt_iff hf _ _).not.mp heq.not_lt
    have hji' := (counter_lt_iff hf _ _).not.mp heq.not_gt
    show -_ = -_
    omega

/-- A stable sort by descending counter looks at the counters only. -/
theorem sortByCounter_oblivious : Oblivious sortCmp sortByCounter := by
  intro f hf a
  have hsort := sort_counter_eq hf a
  funext k
  exact congrArg (fun σ : Equiv.Perm (Fin 4096) => f (a (σ k))) hsort

/-- The tables as an earlier photo may have left them. -/
def staleTables : Tables := ⟨fun _ => ⟨1, 2, 3, 4, 5, 6⟩, fun _ => ⟨1, 2, 3, 4, 5, 6⟩⟩

end MachineProblems.Analysis.TwoRuns
