import Mathlib.Data.Set.Function
import Mathlib.Data.List.Basic
import Mathlib.Data.List.Perm.Subperm

/-!
# Slots

A bag shows its items in a row of cells.  Each new item is put into the first cell that no item
of the bag has, so as long as there are no more items than cells no two share one.
-/

set_option autoImplicit false

namespace MachineProblems.Library

variable {I C : Type}

/-- `c` is the first of the cells that is not taken. -/
def FirstFree (cells : List C) (taken : Set C) (c : C) : Prop :=
  ∃ earlier later, cells = earlier ++ c :: later ∧ (∀ d ∈ earlier, d ∈ taken) ∧ c ∉ taken

/-- The items of the bag are in cells, no two of them in the same. -/
structure Packed (cells : List C) (bag : Set I) (spot : I → C) : Prop where
  inside : ∀ i ∈ bag, spot i ∈ cells
  apart : Set.InjOn spot bag

section Packed

variable {cells : List C} {bag bag' : Set I} {spot spot' : I → C}

theorem FirstFree.mem {taken : Set C} {c : C} (h : FirstFree cells taken c) : c ∈ cells := by
  obtain ⟨earlier, later, hcells, -, -⟩ := h
  simp [hcells]

theorem firstFree_head {taken : Set C} {c : C} (hc : c ∉ taken) :
    FirstFree (c :: cells) taken c :=
  ⟨[], cells, rfl, fun _ hd => absurd hd List.not_mem_nil, hc⟩

theorem FirstFree.skip {taken : Set C} {c d : C} (h : FirstFree cells taken d) (hc : c ∈ taken) :
    FirstFree (c :: cells) taken d := by
  obtain ⟨earlier, later, rfl, hearlier, hd⟩ := h
  exact ⟨c :: earlier, later, rfl, List.forall_mem_cons.mpr ⟨hc, hearlier⟩, hd⟩

theorem packed_empty (cells : List C) (spot : I → C) : Packed cells ∅ spot where
  inside := fun _ hi => hi.elim
  apart := Set.injOn_empty spot

/-- Items are taken out, and those that stay do not move. -/
theorem Packed.lighten (h : Packed cells bag spot)
    (hstay : ∀ i ∈ bag', i ∈ bag ∧ spot' i = spot i) : Packed cells bag' spot' where
  inside := by
    intro i hi
    obtain ⟨hbag, hspot⟩ := hstay i hi
    rw [hspot]
    exact h.inside i hbag
  apart := by
    intro i hi j hj heq
    obtain ⟨hbag, hspot⟩ := hstay i hi
    obtain ⟨hbag', hspot'⟩ := hstay j hj
    rw [hspot, hspot'] at heq
    exact h.apart hbag hbag' heq

/-- A new item goes into the first free cell. -/
theorem Packed.add {new : I} (h : Packed cells bag spot)
    (hstay : ∀ i ∈ bag', i ≠ new → i ∈ bag ∧ spot' i = spot i)
    (hfree : FirstFree cells (spot '' bag) (spot' new)) : Packed cells bag' spot' := by
  obtain ⟨-, -, -, -, hnot⟩ := id hfree
  -- the cell of the new item is nobody else's
  have hown : ∀ i ∈ bag', spot' i = spot' new → i = new := by
    intro i hi heq
    by_contra hne
    obtain ⟨hbag, hspot⟩ := hstay i hi hne
    exact hnot ⟨i, hbag, hspot.symm.trans heq⟩
  constructor
  · intro i hi
    by_cases hnew : i = new
    · subst hnew
      exact hfree.mem
    · obtain ⟨hbag, hspot⟩ := hstay i hi hnew
      rw [hspot]
      exact h.inside i hbag
  · intro i hi j hj heq
    by_cases hnew : i = new
    · subst hnew
      exact (hown j hj heq.symm).symm
    · by_cases hnew' : j = new
      · subst hnew'
        exact hown i hi heq
      · obtain ⟨hbag, hspot⟩ := hstay i hi hnew
        obtain ⟨hbag', hspot'⟩ := hstay j hj hnew'
        rw [hspot, hspot'] at heq
        exact h.apart hbag hbag' heq

/-- A bag with an item in each cell holds as many items as there are cells. -/
theorem length_le_of_full (hcells : cells.Nodup)
    (hfull : ∀ c ∈ cells, c ∈ spot '' bag) {items : List I} (hitems : ∀ i ∈ bag, i ∈ items) :
    cells.length ≤ items.length := by
  have hsub : cells ⊆ items.map spot := by
    intro c hc
    obtain ⟨i, hi, rfl⟩ := hfull c hc
    exact List.mem_map_of_mem (hitems i hi)
  calc cells.length ≤ (items.map spot).length := (List.subperm_of_subset hcells hsub).length_le
    _ = items.length := List.length_map spot

end Packed

end MachineProblems.Library
