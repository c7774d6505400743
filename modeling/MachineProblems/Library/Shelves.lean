import Mathlib.Data.List.Basic
import Mathlib.Logic.Function.Basic

/-!
# Items on shelves

A store keeps its items twice: every item has a location, and every shelf has a list of the
items on it.  `Agrees` says that the two views are one: an item is on the list of a shelf
exactly if that is its location, and no list repeats an item.  Taking an item off and putting
it in front of a shelf keep the agreement.
-/

set_option autoImplicit false

namespace MachineProblems.Library

variable {R O : Type}

/-- What lies on each shelf, in order. -/
abbrev Shelves (R O : Type) := R → List O

namespace Shelves

/-- The lists and the locations are two views of one arrangement. -/
structure Agrees (s : Shelves R O) (loc : O → Option R) : Prop where
  nodup : ∀ r, (s r).Nodup
  mem_iff : ∀ o r, o ∈ s r ↔ loc o = some r

variable {s : Shelves R O} {loc : O → Option R} {o : O} {r : R}

theorem Agrees.not_mem (h : s.Agrees loc) (ho : loc o ≠ some r) : o ∉ s r := by
  rw [h.mem_iff]
  exact ho

variable [DecidableEq O]

/-- Take `o` off its shelf. -/
def take (s : Shelves R O) (o : O) : Shelves R O := fun r => (s r).erase o

/-- Only the shelf of the item changes. -/
theorem Agrees.take_eq (h : s.Agrees loc) (ho : loc o ≠ some r) : s.take o r = s r :=
  List.erase_of_not_mem (h.not_mem ho)

theorem take_of_split {pre post : List O} (h : s r = pre ++ o :: post) (hpre : o ∉ pre) :
    s.take o r = pre ++ post := by
  unfold take
  rw [h, List.erase_append_right _ hpre, List.erase_cons_head]

theorem Agrees.take (h : s.Agrees loc) (o : O) :
    (s.take o).Agrees (Function.update loc o none) where
  nodup := fun r => (h.nodup r).erase o
  mem_iff := by
    intro a r
    unfold Shelves.take
    rw [(h.nodup r).mem_erase_iff, h.mem_iff]
    by_cases ha : a = o
    · subst ha
      simp
    · simp [ha]

variable [DecidableEq R]

/-- Put `o` in front of the shelf `r`. -/
def put (s : Shelves R O) (o : O) (r : R) : Shelves R O := Function.update s r (o :: s r)

theorem Agrees.put (h : s.Agrees loc) (ho : loc o = none) (r : R) :
    (s.put o r).Agrees (Function.update loc o (some r)) where
  nodup := by
    intro r'
    unfold Shelves.put
    by_cases hr : r' = r
    · subst hr
      rw [Function.update_self]
      refine List.nodup_cons.mpr ⟨h.not_mem ?_, h.nodup r'⟩
      simp [ho]
    · rw [Function.update_of_ne hr]
      exact h.nodup r'
  mem_iff := by
    intro a r'
    unfold Shelves.put
    by_cases hr : r' = r
    · subst hr
      rw [Function.update_self, List.mem_cons, h.mem_iff]
      by_cases ha : a = o
      · simp [ha]
      · simp [ha]
    · rw [Function.update_of_ne hr, h.mem_iff]
      by_cases ha : a = o
      · subst ha
        simp [ho, Ne.symm hr]
      · simp [ha]

end Shelves

end MachineProblems.Library
