import MachineProblems.Program.Quantizer
import Mathlib.Algebra.BigOperators.Ring.Finset
import Mathlib.Data.Fin.Tuple.Sort
import Mathlib.Data.List.Induction
import Mathlib.Logic.Equiv.Defs

/-!
# What the palette holds

Each node keeps four accounts, one for each colour component and the counter.  After the
pixels `P` are inserted, an account is the sum of the pixels' shares over the node's
cell.  A permutation `σ` sorts the fourth level, so the chosen cells are those whose
position under `σ` is below 128; subtracting them leaves the second level with the sums
over the pixels that are not chosen.  That is the partition `calculate_vga` looks
up, and each palette entry is the average over its own class.
-/

set_option autoImplicit false

namespace MachineProblems.Analysis.Quantizer

open MachineProblems.Library MachineProblems.Program.Quantizer

/-! ## Accounts and cells -/

/-- What a node adds up. -/
inductive Account where
  | red
  | green
  | blue
  | count

/-- The account of a node. -/
def amount (node : Node) : Account → ℤ
  | .red => node.totalRed
  | .green => node.totalGreen
  | .blue => node.totalBlue
  | .count => node.counter

/-- What one pixel contributes. -/
def share : Account → UInt16 → ℤ
  | .red, pixel => red pixel
  | .green, pixel => green pixel
  | .blue, pixel => blue pixel
  | .count, _ => 1

theorem share_bounds (a : Account) (pixel : UInt16) : 0 ≤ share a pixel ∧ share a pixel ≤ 63 := by
  have hr := red_lt pixel
  have hg := green_lt pixel
  have hb := blue_lt pixel
  cases a with
  | red => simp only [share]; omega
  | green => simp only [share]; omega
  | blue => simp only [share]; omega
  | count => simp only [share]; omega

@[simp] theorem amount_reset (node : Node) (i : ℕ) (a : Account) :
    amount (node.reset i) a = 0 := by
  cases a <;> rfl

@[simp] theorem amount_insert (node : Node) (pixel : UInt16) (a : Account) :
    amount (node.insert pixel) a = amount node a + share a pixel := by
  cases a <;> rfl

@[simp] theorem amount_subtract (node child : Node) (a : Account) :
    amount (node.subtract child) a = amount node a - amount child a := by
  cases a <;> rfl

@[simp] theorem amount_index (node : Node) (i : ℕ) (a : Account) :
    amount { node with index := i } a = amount node a := by
  cases a <;> rfl

def cell2 (pixel : UInt16) : Fin 64 := ⟨i2 pixel, i2_lt pixel⟩

def cell4 (pixel : UInt16) : Fin 4096 := ⟨i4 pixel, i4_lt pixel⟩

/-- **The recomputed parent**: the shifts on `color` give the cell that the pixel was
inserted into. -/
theorem parentIndex_i4 (pixel : UInt16) : parentIndex (i4 pixel) = i2 pixel := by
  have hr := red_lt pixel
  have hg := green_lt pixel
  have hb := blue_lt pixel
  rw [parentIndex_eq, i4_eq, i2_eq]
  omega

/-- The tables after the pixels `P`. -/
structure Filled (P : List UInt16) (s : Tables) : Prop where
  second : ∀ n a, amount (s.secondLev n) a = sumOver (share a) (fun q => cell2 q == n) P
  fourth : ∀ c a, amount (s.fourthLev c) a = sumOver (share a) (fun q => cell4 q == c) P
  color : ∀ c, (s.fourthLev c).color = c

theorem filled_arrInitialize (s : Tables) : Filled [] (arrInitialize s) where
  second n a := by simp [arrInitialize]
  fourth c a := by simp [arrInitialize]
  color c := rfl

theorem filled_insertValues {P : List UInt16} {s : Tables} (h : Filled P s) (p : UInt16) :
    Filled (P ++ [p]) (insertValues s p) where
  second n a := by
    rw [sumOver_concat, ← h.second]
    by_cases hn : cell2 p = n
    · subst hn
      simp [insertValues, cell2]
    · have hne : n ≠ ⟨i2 p, i2_lt p⟩ := fun he => hn he.symm
      simp [insertValues, hn, hne]
  fourth c a := by
    rw [sumOver_concat, ← h.fourth]
    by_cases hc : cell4 p = c
    · subst hc
      simp [insertValues, cell4]
    · have hne : c ≠ ⟨i4 p, i4_lt p⟩ := fun he => hc he.symm
      simp [insertValues, hc, hne]
  color c := by
    rw [← h.color c]
    by_cases hc : c = ⟨i4 p, i4_lt p⟩
    · subst hc
      simp [insertValues, Node.insert]
    · simp [insertValues, hc]

/-- The histogram pass over `P`. -/
def histogram (s : Tables) (P : List UInt16) : Tables := P.foldl insertValues (arrInitialize s)

theorem filled_histogram (s : Tables) (P : List UInt16) : Filled P (histogram s P) := by
  induction P using List.reverseRecOn with
  | nil => exact filled_arrInitialize s
  | append_singleton P p ih =>
      rw [histogram, List.foldl_append]
      exact filled_insertValues ih p

/-! ## The chosen cells -/

/-- The palette entry of a class of pixels. -/
def averageOf (keep : UInt16 → Bool) (P : List UInt16) : Rgb where
  red := uchar ((sumOver (share .red) keep P).tdiv (sumOver (share .count) keep P))
  green := uchar ((sumOver (share .green) keep P).tdiv (sumOver (share .count) keep P))
  blue := uchar ((sumOver (share .blue) keep P).tdiv (sumOver (share .count) keep P))

theorem average_eq {node : Node} {keep : UInt16 → Bool} {P : List UInt16}
    (h : ∀ a, amount node a = sumOver (share a) keep P) : node.average = averageOf keep P := by
  unfold Node.average averageOf
  rw [← h .red, ← h .green, ← h .blue, ← h .count]
  rfl

section Permuted

variable (σ : Equiv.Perm (Fin 4096)) (P : List UInt16)

/-- Where the sort puts the fourth-level cell of a pixel. -/
def position (q : UInt16) : ℕ := (σ.symm (cell4 q)).val

theorem position_eq_iff (q : UInt16) (j : Fin 4096) : position σ q = j ↔ cell4 q = σ j := by
  unfold position
  rw [Fin.val_inj]
  exact σ.symm_apply_eq

/-- The class of the chosen cell at place `j`. -/
def chosenAt (j : Fin 4096) (q : UInt16) : Bool := cell4 q == σ j

/-- The class that cell `n` of the second level keeps when `k` cells are chosen. -/
def restOf (k : ℕ) (n : Fin 64) (q : UInt16) : Bool := cell2 q == n && decide (k ≤ position σ q)

/-- The state of the loop over the chosen cells after `k` iterations. -/
structure Chosen (k : ℕ) (t : Tables × Palette) : Prop where
  color : ∀ j, (t.1.fourthLev j).color = σ j
  fourth : ∀ j a, amount (t.1.fourthLev j) a = sumOver (share a) (chosenAt σ j) P
  index : ∀ j : Fin 4096, j.val < k → (t.1.fourthLev j).index = j + 64
  second : ∀ n a, amount (t.1.secondLev n) a = sumOver (share a) (restOf σ k n) P
  palette : ∀ j : Fin 128, j.val < k →
    sumOver (share .count) (chosenAt σ (j.castLE (by omega))) P ≠ 0 →
    t.2 ⟨j + 64, by omega⟩ = some (averageOf (chosenAt σ (j.castLE (by omega))) P)

theorem restOf_succ (j : Fin 4096) (n : Fin 64) (a : Account) :
    sumOver (share a) (restOf σ j n) P =
      sumOver (share a) (restOf σ (j + 1) n) P +
        sumOver (share a) (fun q => cell2 q == n && chosenAt σ j q) P := by
  refine sumOver_split _ _ (fun q => ?_) fun q => ?_
  · have hiff := position_eq_iff σ q j
    unfold restOf chosenAt
    cases hn : cell2 q == n with
    | false => simp
    | true =>
        simp only [Bool.true_and]
        rw [Bool.eq_iff_iff]
        simp only [decide_eq_true_eq, Bool.or_eq_true, beq_iff_eq, ← hiff]
        omega
  · have hiff := position_eq_iff σ q j
    unfold restOf chosenAt
    rw [← Bool.not_eq_true]
    simp only [Bool.and_eq_true, decide_eq_true_eq, beq_iff_eq, ← hiff]
    omega

/-- The pixels of the chosen cell `j` all lie in its parent. -/
theorem cell2_of_chosenAt {j : Fin 4096} {q : UInt16} (h : chosenAt σ j q = true) :
    (cell2 q).val = parentIndex (σ j) := by
  unfold chosenAt at h
  rw [beq_iff_eq] at h
  rw [← h]
  exact (parentIndex_i4 q).symm

/-- **The step lemma** of the loop that chooses. -/
theorem chosen_fourthStep {i : Fin 128} {t : Tables × Palette} (h : Chosen σ P i t) :
    Chosen σ P (i + 1) (fourthStep i t) := by
  let j : Fin 4096 := i.castLE (by omega)
  let parent : Fin 64 := ⟨parentIndex (σ j), parentIndex_lt _⟩
  have hcolor : (t.1.fourthLev j).color = σ j := h.color j
  have hfourth : (fourthStep i t).1.fourthLev =
      Function.update t.1.fourthLev j { t.1.fourthLev j with index := i + 64 } := rfl
  have hsecond : (fourthStep i t).1.secondLev =
      Function.update t.1.secondLev parent ((t.1.secondLev parent).subtract (t.1.fourthLev j)) := by
    simp only [fourthStep, parent, ← hcolor]
    rfl
  constructor
  · intro k
    rw [hfourth]
    by_cases hk : k = j
    · subst hk
      simpa using hcolor
    · simpa [hk] using h.color k
  · intro k a
    rw [hfourth]
    by_cases hk : k = j
    · subst hk
      simpa using h.fourth j a
    · simpa [hk] using h.fourth k a
  · intro k hk
    rw [hfourth]
    by_cases hkj : k = j
    · subst hkj
      simp [j]
    · have hval : k.val ≠ i.val := fun he => hkj (Fin.ext he)
      simpa [hkj] using h.index k (by omega)
  · intro n a
    have hrest := restOf_succ σ P j n a
    rw [hsecond]
    by_cases hn : n = parent
    · subst hn
      have hall : sumOver (share a) (fun q => cell2 q == parent && chosenAt σ j q) P =
          sumOver (share a) (chosenAt σ j) P := by
        refine sumOver_congr _ _ fun q => ?_
        cases hq : chosenAt σ j q with
        | false => simp
        | true => simpa using Fin.ext (cell2_of_chosenAt σ hq)
      rw [Function.update_self, amount_subtract, h.second, h.fourth]
      rw [hall] at hrest
      exact sub_eq_of_eq_add hrest
    · have hnone : sumOver (share a) (fun q => cell2 q == n && chosenAt σ j q) P = 0 := by
        refine sumOver_eq_zero _ _ fun q => ?_
        cases hq : chosenAt σ j q with
        | false => simp
        | true =>
            have hne : cell2 q ≠ n := by
              intro he
              exact hn (Fin.ext (he ▸ cell2_of_chosenAt σ hq))
            simpa using hne
      rw [Function.update_of_ne hn, h.second]
      rw [hnone, add_zero] at hrest
      exact hrest
  · intro k hk hcount
    have hpal : (fourthStep i t).2 = if (t.1.fourthLev j).counter ≠ 0 then
        Function.update t.2 (⟨i + 64, by omega⟩ : Fin 192) (some (t.1.fourthLev j).average)
      else t.2 := rfl
    rw [hpal]
    by_cases hki : k = i
    · subst hki
      have hne : (t.1.fourthLev j).counter ≠ 0 := by
        have := h.fourth j .count
        change (t.1.fourthLev j).counter = _ at this
        rw [this]
        exact hcount
      rw [if_pos hne, Function.update_self, average_eq (h.fourth j)]
    · have hval : k.val ≠ i.val := fun he => hki (Fin.ext he)
      have hold := h.palette k (by omega) hcount
      have hidx : (⟨k + 64, by omega⟩ : Fin 192) ≠ ⟨i + 64, by omega⟩ := by
        rw [Ne, Fin.mk.injEq]
        omega
      split
      · rw [Function.update_of_ne hidx, hold]
      · exact hold

/-- The state of the loop over the second level after `k` iterations. -/
structure Averaged (k : ℕ) (t : Tables × Palette) : Prop where
  color : ∀ j, (t.1.fourthLev j).color = σ j
  index : ∀ j : Fin 4096, j.val < 128 → (t.1.fourthLev j).index = j + 64
  fourth : ∀ j a, amount (t.1.fourthLev j) a = sumOver (share a) (chosenAt σ j) P
  second : ∀ n a, amount (t.1.secondLev n) a = sumOver (share a) (restOf σ 128 n) P
  upper : ∀ j : Fin 128, sumOver (share .count) (chosenAt σ (j.castLE (by omega))) P ≠ 0 →
    t.2 ⟨j + 64, by omega⟩ = some (averageOf (chosenAt σ (j.castLE (by omega))) P)
  lower : ∀ n : Fin 64, n.val < k → sumOver (share .count) (restOf σ 128 n) P ≠ 0 →
    t.2 (n.castLE (by omega)) = some (averageOf (restOf σ 128 n) P)

variable {P}

theorem Chosen.averaged {t : Tables × Palette} (h : Chosen σ P 128 t) : Averaged σ P 0 t where
  color := h.color
  index := h.index
  fourth := h.fourth
  second := h.second
  upper j := h.palette j j.isLt
  lower _ hn := absurd hn (Nat.not_lt_zero _)

/-- **The step lemma** of the loop over the second level. -/
theorem averaged_secondStep {i : Fin 64} {t : Tables × Palette} (h : Averaged σ P i t) :
    Averaged σ P (i + 1) (secondStep i t) := by
  have hpal : (secondStep i t).2 = if (t.1.secondLev i).counter ≠ 0 then
      Function.update t.2 (i.castLE (by omega) : Fin 192) (some (t.1.secondLev i).average)
    else t.2 := rfl
  constructor
  · exact h.color
  · exact h.index
  · exact h.fourth
  · intro n a
    by_cases hn : n = i
    · subst hn
      simpa [secondStep] using h.second n a
    · simpa [secondStep, hn] using h.second n a
  · intro j hcount
    have hidx : (⟨j + 64, by omega⟩ : Fin 192) ≠ i.castLE (by omega) := by
      intro he
      have hval : j.val + 64 = i.val := congrArg Fin.val he
      omega
    rw [hpal]
    split
    · rw [Function.update_of_ne hidx, h.upper j hcount]
    · exact h.upper j hcount
  · intro n hn hcount
    rw [hpal]
    by_cases hni : n = i
    · subst hni
      have hne : (t.1.secondLev n).counter ≠ 0 := by
        have := h.second n .count
        change (t.1.secondLev n).counter = _ at this
        rw [this]
        exact hcount
      rw [if_pos hne, Function.update_self, average_eq (h.second n)]
    · have hval : n.val ≠ i.val := fun he => hni (Fin.ext he)
      have hold := h.lower n (by omega) hcount
      have hidx : (n.castLE (by omega) : Fin 192) ≠ i.castLE (by omega) := by
        rw [Ne, Fin.ext_iff, Fin.val_castLE, Fin.val_castLE]
        exact hval
      split
      · rw [Function.update_of_ne hidx, hold]
      · exact hold

/-- A permutation of the filled tables starts the first loop. -/
theorem Filled.chosen {s : Tables} (h : Filled P s) (palette : Palette)
    {qsort : (Fin 4096 → Node) → Fin 4096 → Node} (hσ : qsort s.fourthLev = s.fourthLev ∘ σ) :
    Chosen σ P 0 (sortFourth qsort s, palette) := by
  have hnode : ∀ j, (sortFourth qsort s).fourthLev j = s.fourthLev (σ j) := fun j =>
    congrFun hσ j
  constructor
  · intro j
    rw [hnode]
    exact h.color (σ j)
  · intro j a
    rw [hnode]
    exact h.fourth (σ j) a
  · intro j hj
    exact absurd hj (Nat.not_lt_zero _)
  · intro n a
    change amount (s.secondLev n) a = _
    rw [h.second]
    exact sumOver_congr _ _ fun q => by simp [restOf]
  · intro j hj
    exact absurd hj (Nat.not_lt_zero _)

/-- Both loops, over any number of iterations of the first. -/
theorem chosen_iterations {s : Tables} (h : Filled P s) (palette : Palette)
    {qsort : (Fin 4096 → Node) → Fin 4096 → Node} (hσ : qsort s.fourthLev = s.fourthLev ∘ σ)
    {k : ℕ} (hk : k ≤ 128) :
    Chosen σ P k (iterations fourthStep (sortFourth qsort s, palette) k) :=
  iterations_invariant (h.chosen σ palette hσ) (fun _ _ ht => chosen_fourthStep σ P ht) hk

theorem averaged_setPltValues {s : Tables} (h : Filled P s) (palette : Palette)
    {qsort : (Fin 4096 → Node) → Fin 4096 → Node} (hσ : qsort s.fourthLev = s.fourthLev ∘ σ) :
    Averaged σ P 64 (setPltValues qsort s palette) :=
  iterations_invariant (chosen_iterations σ h palette hσ le_rfl).averaged
    (fun _ _ ht => averaged_secondStep σ ht) le_rfl

/-! ## The lookup -/

/-- What `calculate_vga` returns for a pixel. -/
def vga (q : UInt16) : ℕ := if position σ q < 128 then position σ q + 128 else i2 q + 64

/-- **The search loop** finds a pixel's cell exactly if it was chosen. -/
theorem calculateVga_eq {k : ℕ} {t : Tables × Palette} (h : Averaged σ P k t) (q : UInt16) :
    calculateVga t.1 q = UInt8.ofNat (vga σ q) := by
  let test : Fin 128 → Bool := fun i => (t.1.fourthLev (i.castLE (by omega))).color == i4 q
  have htest : ∀ i : Fin 128, test i = true ↔ position σ q = i := by
    intro i
    have hiff := position_eq_iff σ q (i.castLE (by omega))
    rw [Fin.val_castLE] at hiff
    rw [hiff, beq_iff_eq, h.color, Fin.ext_iff]
    exact eq_comm
  unfold calculateVga vga
  cases hfind : (List.finRange 128).find? test with
  | none =>
      have hnot : ¬ position σ q < 128 := by
        intro hlt
        have hno := List.find?_eq_none.mp hfind ⟨position σ q, hlt⟩ (List.mem_finRange _)
        exact hno ((htest _).mpr rfl)
      rw [if_neg hnot]
  | some i =>
      have hpos := (htest i).mp (List.find?_some hfind)
      have hindex := h.index (i.castLE (by omega)) i.isLt
      rw [Fin.val_castLE] at hindex
      simp only [hindex, hpos, i.isLt, if_true]

theorem vga_lt (q : UInt16) : 64 ≤ vga σ q ∧ vga σ q < 256 := by
  have h2 := i2_lt q
  unfold vga
  split
  · omega
  · omega

/-- **One partition**: two pixels look up the same entry exactly if they are in the
same chosen cell, or in the rest of the same second-level cell. -/
theorem vga_eq_iff (p q : UInt16) : vga σ q = vga σ p ↔
    if position σ p < 128 then cell4 q = cell4 p else cell2 q = cell2 p ∧ 128 ≤ position σ q := by
  have hp := i2_lt p
  have hq := i2_lt q
  have hcell : position σ q = position σ p ↔ cell4 q = cell4 p := by
    have hiff := position_eq_iff σ q (σ.symm (cell4 p))
    rwa [σ.apply_symm_apply] at hiff
  have hi2 : cell2 q = cell2 p ↔ i2 q = i2 p := by
    rw [Fin.ext_iff]
    rfl
  rw [← hcell, hi2]
  unfold vga
  split_ifs <;> omega

end Permuted

/-! ## Entries are averages -/

theorem toNat_uchar {n : ℕ} (h : n < 256) : (uchar (n : ℤ)).toNat = n := by
  unfold uchar
  rw [UInt8.toNat_ofNat']
  omega

theorem sumOver_share {a : Account} {f : UInt16 → ℕ} (hf : ∀ q, share a q = f q)
    (keep : UInt16 → Bool) (P : List UInt16) :
    sumOver (share a) keep P = (((P.filter keep).map f).sum : ℕ) := by
  unfold sumOver
  rw [List.map_congr_left fun q _ => hf q, Nat.cast_list_sum, List.map_map]
  rfl

/-- The stored byte is the rounded-down average of its component over the class. -/
theorem toNat_average {a : Account} {f : UInt16 → ℕ} (hf : ∀ q, share a q = f q)
    {keep : UInt16 → Bool} {P : List UInt16} (hpos : 0 < (P.filter keep).length) :
    (uchar ((sumOver (share a) keep P).tdiv (sumOver (share .count) keep P))).toNat =
      ((P.filter keep).map f).sum / (P.filter keep).length := by
  have hcount : sumOver (share .count) keep P = ((P.filter keep).length : ℤ) := sumOver_one keep P
  have hle : ∀ q ∈ P.filter keep, 0 ≤ f q ∧ f q ≤ 63 := by
    intro q _
    have := (share_bounds a q).2
    rw [hf q] at this
    omega
  have havg := (average_between hpos hle).2
  rw [sumOver_share hf, hcount, ← Int.ofNat_tdiv]
  exact toNat_uchar (by omega)

/-- `entry` holds the averages of the components over `group`. -/
def EntryOf (group : List UInt16) (entry : Rgb) : Prop :=
  entry.red.toNat = (group.map red).sum / group.length ∧
  entry.green.toNat = (group.map green).sum / group.length ∧
  entry.blue.toNat = (group.map blue).sum / group.length

theorem entryOf_averageOf {keep : UInt16 → Bool} {P : List UInt16}
    (hpos : 0 < (P.filter keep).length) : EntryOf (P.filter keep) (averageOf keep P) :=
  ⟨toNat_average (fun _ => rfl) hpos, toNat_average (fun _ => rfl) hpos,
    toNat_average (fun _ => rfl) hpos⟩

/-- The colors that agree with pixel `p` in the components divided by `dr`, `dg`, `db`. -/
def SameCell (p : UInt16) (dr dg db : ℕ) (entry : Rgb) : Prop :=
  entry.red.toNat / dr = red p / dr ∧ entry.green.toNat / dg = green p / dg ∧
    entry.blue.toNat / db = blue p / db

theorem average_div {f : UInt16 → ℕ} {d m : ℕ} (hd : 0 < d) {group : List UInt16}
    (hpos : 0 < group.length) (h : ∀ q ∈ group, f q / d = m) :
    (group.map f).sum / group.length / d = m := by
  have hbetween : ∀ q ∈ group, d * m ≤ f q ∧ f q ≤ d * m + (d - 1) := by
    intro q hq
    have hdiv := Nat.div_add_mod (f q) d
    have hmod := Nat.mod_lt (f q) hd
    rw [h q hq] at hdiv
    omega
  obtain ⟨hlo, hhi⟩ := average_between hpos hbetween
  refine Nat.div_eq_of_lt_le ?_ ?_
  · rw [mul_comm]
    exact hlo
  · rw [add_mul, one_mul, mul_comm]
    omega

theorem sameCell_of_group {p : UInt16} {dr dg db : ℕ} {group : List UInt16} {entry : Rgb}
    (hdr : 0 < dr) (hdg : 0 < dg) (hdb : 0 < db) (hpos : 0 < group.length)
    (hentry : EntryOf group entry)
    (h : ∀ q ∈ group, red q / dr = red p / dr ∧ green q / dg = green p / dg ∧
      blue q / db = blue p / db) : SameCell p dr dg db entry := by
  obtain ⟨hr, hg, hb⟩ := hentry
  refine ⟨?_, ?_, ?_⟩
  · rw [hr]
    exact average_div hdr hpos fun q hq => (h q hq).1
  · rw [hg]
    exact average_div hdg hpos fun q hq => (h q hq).2.1
  · rw [hb]
    exact average_div hdb hpos fun q hq => (h q hq).2.2

theorem components_of_cell4 {p q : UInt16} (h : cell4 q = cell4 p) :
    red q / 2 = red p / 2 ∧ green q / 4 = green p / 4 ∧ blue q / 2 = blue p / 2 := by
  have hval : i4 q = i4 p := congrArg Fin.val h
  have hgq := green_lt q
  have hbq := blue_lt q
  have hgp := green_lt p
  have hbp := blue_lt p
  rw [i4_eq, i4_eq] at hval
  omega

theorem components_of_cell2 {p q : UInt16} (h : cell2 q = cell2 p) :
    red q / 8 = red p / 8 ∧ green q / 16 = green p / 16 ∧ blue q / 8 = blue p / 8 := by
  have hval : i2 q = i2 p := congrArg Fin.val h
  have hgq := green_lt q
  have hbq := blue_lt q
  have hgp := green_lt p
  have hbp := blue_lt p
  rw [i2_eq, i2_eq] at hval
  omega

/-! ## Range of the accounts -/

/-- Every account of every node is a non-negative `int`. -/
def InRange (s : Tables) : Prop :=
  (∀ n a, 0 ≤ amount (s.secondLev n) a ∧ amount (s.secondLev n) a < 2 ^ 31) ∧
  ∀ c a, 0 ≤ amount (s.fourthLev c) a ∧ amount (s.fourthLev c) a < 2 ^ 31

theorem sumOver_share_range (a : Account) (keep : UInt16 → Bool) {P : List UInt16}
    (hP : P.length ≤ 1024 * 1024) :
    0 ≤ sumOver (share a) keep P ∧ sumOver (share a) keep P < 2 ^ 31 := by
  obtain ⟨h0, h1⟩ := sumOver_bounds keep P (share_bounds a) (by decide)
  refine ⟨h0, ?_⟩
  have : (P.length : ℤ) ≤ 1024 * 1024 := by exact_mod_cast hP
  omega

theorem inRange_of_sums {s : Tables} {P : List UInt16} (hP : P.length ≤ 1024 * 1024)
    (h2 : ∀ n a, ∃ keep, amount (s.secondLev n) a = sumOver (share a) keep P)
    (h4 : ∀ c a, ∃ keep, amount (s.fourthLev c) a = sumOver (share a) keep P) : InRange s := by
  constructor
  · intro n a
    obtain ⟨keep, hsum⟩ := h2 n a
    rw [hsum]
    exact sumOver_share_range a keep hP
  · intro c a
    obtain ⟨keep, hsum⟩ := h4 c a
    rw [hsum]
    exact sumOver_share_range a keep hP

/-! ## The palette -/

section Result

variable (qsort : (Fin 4096 → Node) → Fin 4096 → Node)

/-- The tables and the palette that the pixels `P` lead to. -/
def quantized (s : Tables) (P : List UInt16) : Tables × Palette :=
  setPltValues qsort (histogram s P) fun _ => none

/-- The pixels of `P` with the same table entry as `p`. -/
def classOf (s : Tables) (P : List UInt16) (p : UInt16) : List UInt16 :=
  P.filter fun q => calculateVga s q == calculateVga s p

variable {qsort}

theorem calculateVga_inj {σ : Equiv.Perm (Fin 4096)} {P : List UInt16} {k : ℕ}
    {t : Tables × Palette} (h : Averaged σ P k t) (p q : UInt16) :
    calculateVga t.1 q = calculateVga t.1 p ↔ vga σ q = vga σ p := by
  have hbound : ∀ q, vga σ q < UInt8.size := fun q => (vga_lt σ q).2
  rw [calculateVga_eq σ h, calculateVga_eq σ h, ← UInt8.toNat_inj,
    UInt8.toNat_ofNat_of_lt' (hbound q), UInt8.toNat_ofNat_of_lt' (hbound p)]

/-- Pixels of different cells on both levels never share an entry. -/
theorem calculateVga_ne {σ : Equiv.Perm (Fin 4096)} {P : List UInt16} {k : ℕ}
    {t : Tables × Palette} (h : Averaged σ P k t) {p q : UInt16} (h4 : cell4 q ≠ cell4 p)
    (h2 : cell2 q ≠ cell2 p) : calculateVga t.1 q ≠ calculateVga t.1 p := by
  rw [Ne, calculateVga_inj h, vga_eq_iff]
  split
  · exact h4
  · exact fun hsame => h2 hsame.1

/-- The class of a pixel, as the loops account for it. -/
theorem classOf_eq {σ : Equiv.Perm (Fin 4096)} {k : ℕ} {t : Tables × Palette}
    {P : List UInt16} (h : Averaged σ P k t) (p : UInt16) :
    classOf t.1 P p = P.filter (if position σ p < 128 then chosenAt σ (σ.symm (cell4 p))
      else restOf σ 128 (cell2 p)) := by
  refine List.filter_congr fun q _ => ?_
  rw [Bool.eq_iff_iff, beq_iff_eq, calculateVga_inj h, vga_eq_iff]
  split
  · rw [chosenAt, σ.apply_symm_apply, beq_iff_eq]
  · rw [restOf, Bool.and_eq_true, beq_iff_eq, decide_eq_true_eq]

theorem length_filter_pos {P : List UInt16} {keep : UInt16 → Bool} {p : UInt16} (hp : p ∈ P)
    (hk : keep p = true) : 0 < (P.filter keep).length :=
  List.length_pos_of_mem (List.mem_filter.mpr ⟨hp, hk⟩)

/-- The entry of a pixel of `P`, by whether its fourth-level cell was chosen. -/
theorem entry_of_pixel {σ : Equiv.Perm (Fin 4096)} {t : Tables × Palette} {P : List UInt16}
    (h : Averaged σ P 64 t) {p : UInt16} (hp : p ∈ P) :
    ∃ (k : Fin 192) (entry : Rgb), (calculateVga t.1 p).toNat = k + 64 ∧ t.2 k = some entry ∧
      EntryOf (classOf t.1 P p) entry ∧
      (k.val < 64 → SameCell p 8 16 8 entry) ∧ (64 ≤ k.val → SameCell p 2 4 2 entry) := by
  have hvga : (calculateVga t.1 p).toNat = vga σ p := by
    rw [calculateVga_eq σ h, UInt8.toNat_ofNat_of_lt' (vga_lt σ p).2]
  rw [hvga, classOf_eq h p]
  by_cases hpos : position σ p < 128
  · let j : Fin 128 := ⟨position σ p, hpos⟩
    have hj : j.castLE (by omega) = σ.symm (cell4 p) := Fin.ext rfl
    have hkeep : chosenAt σ (σ.symm (cell4 p)) p = true := by
      rw [chosenAt, σ.apply_symm_apply, beq_self_eq_true]
    have hupper := h.upper j
    rw [hj] at hupper
    have hlen := length_filter_pos hp hkeep
    have hentry := entryOf_averageOf hlen
    rw [if_pos hpos]
    refine ⟨⟨j + 64, by omega⟩, _, ?_, hupper (sumOver_one_pos hp hkeep).ne', hentry, ?_, ?_⟩
    · simp [vga, hpos, j]
    · intro hlt
      exact absurd hlt (by simp)
    · intro _
      refine sameCell_of_group (by decide) (by decide) (by decide) hlen hentry fun q hq => ?_
      have hq' := (List.mem_filter.mp hq).2
      rw [chosenAt, σ.apply_symm_apply, beq_iff_eq] at hq'
      exact components_of_cell4 hq'
  · have hkeep : restOf σ 128 (cell2 p) p = true := by
      rw [restOf, Bool.and_eq_true, beq_iff_eq, decide_eq_true_eq]
      exact ⟨rfl, by omega⟩
    have hlower := h.lower (cell2 p) (cell2 p).isLt (sumOver_one_pos hp hkeep).ne'
    have hlen := length_filter_pos hp hkeep
    have hentry := entryOf_averageOf hlen
    rw [if_neg hpos]
    refine ⟨(cell2 p).castLE (by omega), _, ?_, hlower, hentry, ?_, ?_⟩
    · simp [vga, hpos, cell2]
    · intro _
      refine sameCell_of_group (by decide) (by decide) (by decide) hlen hentry fun q hq => ?_
      have hq' := (List.mem_filter.mp hq).2
      rw [restOf, Bool.and_eq_true, beq_iff_eq] at hq'
      exact components_of_cell2 hq'.1
    · intro hge
      have := (cell2 p).isLt
      rw [Fin.val_castLE] at hge
      omega

theorem averaged_quantized (hqsort : ∀ a, ∃ σ : Equiv.Perm (Fin 4096), qsort a = a ∘ σ)
    (s : Tables) (P : List UInt16) :
    ∃ σ : Equiv.Perm (Fin 4096), qsort (histogram s P).fourthLev = (histogram s P).fourthLev ∘ σ ∧
      Averaged σ P 64 (quantized qsort s P) := by
  obtain ⟨σ, hσ⟩ := hqsort (histogram s P).fourthLev
  exact ⟨σ, hσ, averaged_setPltValues σ (filled_histogram s P) _ hσ⟩

/-- **The palette**: for at most 1024 * 1024 pixels, every pixel looks up an entry that was
stored, that holds the averages over the pixels looking up the same entry, and
that lies in the pixel's own octree cell; and no account ever leaves the range of `int`. -/
theorem palette_of_classes (hqsort : ∀ a, ∃ σ : Equiv.Perm (Fin 4096), qsort a = a ∘ σ)
    (s : Tables) {P : List UInt16} (hP : P.length ≤ 1024 * 1024) :
    (∀ p ∈ P, ∃ (k : Fin 192) (entry : Rgb),
      (calculateVga (quantized qsort s P).1 p).toNat = k + 64 ∧
      (quantized qsort s P).2 k = some entry ∧
      EntryOf (classOf (quantized qsort s P).1 P p) entry ∧
      (k.val < 64 → SameCell p 8 16 8 entry) ∧ (64 ≤ k.val → SameCell p 2 4 2 entry)) ∧
    (∀ P', P' <+: P → InRange (histogram s P')) ∧
    (∀ k ≤ 128, InRange
      (iterations fourthStep (sortFourth qsort (histogram s P), fun _ => none) k).1) ∧
    InRange (quantized qsort s P).1 := by
  obtain ⟨σ, hσ, hdone⟩ := averaged_quantized hqsort s P
  have hfill : Filled P (histogram s P) := filled_histogram s P
  have hloop : ∀ k ≤ 128, Chosen σ P k
      (iterations fourthStep (sortFourth qsort (histogram s P), fun _ => none) k) :=
    fun k hk => chosen_iterations σ hfill _ hσ hk
  refine ⟨fun p hp => entry_of_pixel hdone hp, ?_, ?_, ?_⟩
  · intro P' hpart
    have hfill' : Filled P' (histogram s P') := filled_histogram s P'
    exact inRange_of_sums (hpart.length_le.trans hP) (fun n a => ⟨_, hfill'.second n a⟩)
      fun c a => ⟨_, hfill'.fourth c a⟩
  · intro k hk
    exact inRange_of_sums hP (fun n a => ⟨_, (hloop k hk).second n a⟩)
      fun c a => ⟨_, (hloop k hk).fourth c a⟩
  · exact inRange_of_sums hP (fun n a => ⟨_, hdone.second n a⟩)
      fun c a => ⟨_, hdone.fourth c a⟩

end Result

/-! ## The library's sort -/

/-- A stable sort by descending counter, as `sort_cmp` asks for. -/
def sortByCounter (a : Fin 4096 → Node) : Fin 4096 → Node :=
  a ∘ Tuple.sort fun i => -(a i).counter

/-- The tables before the first photo is read. -/
def emptyTables : Tables := ⟨fun _ => ⟨0, 0, 0, 0, 0, 0⟩, fun _ => ⟨0, 0, 0, 0, 0, 0⟩⟩

theorem sortByCounter_perm (a : Fin 4096 → Node) :
    ∃ σ : Equiv.Perm (Fin 4096), sortByCounter a = a ∘ σ :=
  ⟨Tuple.sort fun i => -(a i).counter, rfl⟩

theorem palette_of_classes_two :
    (∀ p ∈ [0xFFFF, 0], ∃ (k : Fin 192) (entry : Rgb),
      (calculateVga (quantized sortByCounter emptyTables [0xFFFF, 0]).1 p).toNat = k + 64 ∧
      (quantized sortByCounter emptyTables [0xFFFF, 0]).2 k = some entry ∧
      EntryOf (classOf (quantized sortByCounter emptyTables [0xFFFF, 0]).1 [0xFFFF, 0] p) entry ∧
      (k.val < 64 → SameCell p 8 16 8 entry) ∧ (64 ≤ k.val → SameCell p 2 4 2 entry)) ∧
    (∀ P', P' <+: [0xFFFF, 0] → InRange (histogram emptyTables P')) ∧
    (∀ k ≤ 128, InRange (iterations fourthStep
      (sortFourth sortByCounter (histogram emptyTables [0xFFFF, 0]), fun _ => none) k).1) ∧
    InRange (quantized sortByCounter emptyTables [0xFFFF, 0]).1 :=
  palette_of_classes sortByCounter_perm emptyTables (by simp)

end MachineProblems.Analysis.Quantizer
