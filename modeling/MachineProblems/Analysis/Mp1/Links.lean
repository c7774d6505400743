import MachineProblems.Analysis.Mp1.Execution
import MachineProblems.Library.Chain

/-!
# The links between missiles

Most of a tick moves, draws and explodes missiles and leaves the list alone.  The shape of
the memory is what the list is made of: the links, the set of allocated blocks and the
head.  The lemmas here say which stores keep the shape, and what a list of missiles owes to it.
-/

set_option autoImplicit false

namespace MachineProblems.Analysis.Mp1

open MachineProblems.Library MachineProblems.Program.Mp1

/-- The link stored in the missile at an address. -/
def links (mem : Memory) (a : Word) : Option Word := (mem.missileAt a).map fun f => f.next

/-- What the list of missiles is made of. -/
structure Shape where
  links : Word → Option Word
  allocated : Word → Bool
  head : Word

def shape (mem : Memory) : Shape :=
  ⟨links mem, fun a => (mem.heap a).isSome, mem.missileList⟩

theorem missileAt_eq_some {mem : Memory} {a : Word} {f : Missile} :
    mem.missileAt a = some f ↔ mem.heap a = some (.missile f) := by
  unfold Memory.missileAt
  cases mem.heap a with
  | none => simp
  | some b =>
      cases b with
      | missile g => simp
      | long w => simp

theorem missileAt_setBlock_ne {mem : Memory} {a x : Word} (b : Option Block) (h : x ≠ a) :
    (mem.setBlock a b).missileAt x = mem.missileAt x := by
  simp [Memory.missileAt, h]

/-- Storing to a field other than `NEXT` keeps the shape. -/
theorem shape_setBlock {mem : Memory} {a : Word} {f f' : Missile}
    (h : mem.missileAt a = some f) (hnext : f'.next = f.next) :
    shape (mem.setBlock a (some (.missile f'))) = shape mem := by
  have hheap := missileAt_eq_some.mp h
  have hlinks : links (mem.setBlock a (some (.missile f'))) = links mem := by
    funext x
    by_cases hx : x = a
    · subst hx
      simp [links, h, hnext]
    · simp [links, missileAt_setBlock_ne _ hx]
  have halloc : (fun x => ((mem.setBlock a (some (.missile f'))).heap x).isSome) =
      fun x => (mem.heap x).isSome := by
    funext x
    by_cases hx : x = a
    · subst hx
      simp [hheap]
    · simp [hx]
  rw [shape, hlinks, halloc]
  rfl

theorem missileAt_of_links {mem : Memory} {a c : Word} (h : links mem a = some c) :
    ∃ f, mem.missileAt a = some f ∧ f.next = c := by
  unfold links at h
  cases hf : mem.missileAt a with
  | none =>
      rw [hf] at h
      cases h
  | some f =>
      rw [hf] at h
      exact ⟨f, rfl, Option.some.inj h⟩

/-- `l` is the list of missiles. -/
structure Listed (mem : Memory) (l : List Word) : Prop where
  chain : Seg (links mem) mem.missileList l 0#32
  null : mem.heap 0#32 = none

theorem Listed.links_null {mem : Memory} {l : List Word} (h : Listed mem l) :
    links mem 0#32 = none := by
  simp [links, Memory.missileAt, h.null]

theorem Listed.ne_null {mem : Memory} {l : List Word} (h : Listed mem l) {a : Word}
    (ha : a ∈ l) : a ≠ 0#32 := by
  rintro rfl
  have hsome := h.chain.isSome ha
  rw [h.links_null] at hsome
  cases hsome

theorem Listed.of_shape {mem mem' : Memory} {l : List Word} (h : Listed mem l)
    (hshape : shape mem' = shape mem) : Listed mem' l where
  chain := by
    have hlinks : links mem' = links mem := congrArg Shape.links hshape
    have hhead : mem'.missileList = mem.missileList := congrArg Shape.head hshape
    rw [hlinks, hhead]
    exact h.chain
  null := by
    have halloc := congrFun (congrArg Shape.allocated hshape) 0#32
    simpa [shape, h.null] using halloc

end MachineProblems.Analysis.Mp1
