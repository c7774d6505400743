import MachineProblems.Program.Adventure.Commands
import MachineProblems.Library.Chain
import MachineProblems.Library.Shelves
import MachineProblems.Library.Slots
import Mathlib.Data.List.Perm.Subperm

/-!
# The contents lists

The rooms are shelves: a room's contents list is a chain through the `next` pointers of the
objects, and `loc` says the same from the side of the object.  The lemmas here say what the
walks along the lists find, and that removing and inserting an object do to the chains what
taking and putting do to the shelves.
-/

set_option autoImplicit false

namespace MachineProblems.Analysis.Adventure

open MachineProblems.Library MachineProblems.Program.Adventure MachineProblems.Program.PhotoFile

/-! ## Chains of objects -/

/-- The pointer behind a pointer to an object. -/
def successor (w : World) (p : Option ObjId) : Option (Option ObjId) :=
  p.map fun o => (w.object o).next

/-- Following `next` from `p` passes the objects `l` and ends at the null pointer. -/
def Chained (w : World) (p : Option ObjId) (l : List ObjId) : Prop :=
  Seg (successor w) p (l.map some) none

/-- `l` is the contents list of the room `r`. -/
def Lists (w : World) (r : RoomId) (l : List ObjId) : Prop := Chained w (w.room r).contents l

theorem mem_objData (o : ObjId) : o ∈ objData.map ObjData.id := by
  cases o <;> decide

namespace Chained

variable {w w' : World} {p : Option ObjId} {o : ObjId} {l : List ObjId}

theorem nil_iff : Chained w p [] ↔ p = none := Iff.rfl

theorem cons_iff : Chained w p (o :: l) ↔ p = some o ∧ Chained w (w.object o).next l := by
  constructor
  · rintro ⟨hp, c, hc, hl⟩
    obtain rfl : (w.object o).next = c := Option.some.inj hc
    exact ⟨hp, hl⟩
  · rintro ⟨hp, hl⟩
    exact ⟨hp, _, rfl, hl⟩

theorem nodup (h : Chained w p l) : l.Nodup :=
  List.Nodup.of_map _ (Seg.nodup rfl h)

/-- No chain is longer than the number of objects. -/
theorem length_le (h : Chained w p l) : l.length ≤ nObjects := by
  have hsub : l ⊆ objData.map ObjData.id := fun o _ => mem_objData o
  exact (List.subperm_of_subset h.nodup hsub).length_le

/-- A chain depends on the `next` pointers of its objects only. -/
theorem congr (hnext : ∀ o ∈ l, (w'.object o).next = (w.object o).next) (h : Chained w p l) :
    Chained w' p l := by
  refine Seg.congr (fun q hq => ?_) h
  obtain ⟨o, ho, rfl⟩ := List.mem_map.mp hq
  exact congrArg some (hnext o ho)

/-- **The rule of the walk**: with more fuel than a chain has objects, a walk comes to its end. -/
theorem walk {motive : ℕ → Option ObjId → List ObjId → Prop} (hend : ∀ k, motive (k + 1) none [])
    (hnext : ∀ k o l, motive k (w.object o).next l → motive (k + 1) (some o) (o :: l))
    (h : Chained w p l) {n : ℕ} (hn : l.length < n) : motive n p l := by
  induction n generalizing p l with
  | zero => exact absurd hn (Nat.not_lt_zero _)
  | succ k ih =>
      cases l with
      | nil =>
          obtain rfl := nil_iff.mp h
          exact hend k
      | cons o l =>
          obtain ⟨rfl, hrest⟩ := cons_iff.mp h
          exact hnext k o l (ih hrest (Nat.lt_of_succ_lt_succ hn))

end Chained

/-! ## Walks -/

/-- Whether the name of an object matches. -/
def named (w : World) (arg : Text) (o : ObjId) : Bool :=
  match (w.object o).name with
  | some name => strcasecmp name arg
  | none => false

theorem findLoop_eq {w : World} {arg : Text} (hname : ∀ o, (w.object o).name.isSome)
    (l : List ObjId) {n : ℕ} {p : Option ObjId} (hl : Chained w p l) (hn : l.length < n) :
    findLoop w arg n p = some (l.find? (named w arg)) := by
  refine hl.walk (motive := fun n p l => findLoop w arg n p = some (l.find? (named w arg)))
    (fun _ => rfl) ?_ hn
  intro k o l ih
  obtain ⟨name, hsome⟩ := Option.isSome_iff_exists.mp (hname o)
  have hnamed : named w arg o = strcasecmp name arg := by
    unfold named
    rw [hsome]
  rw [findLoop, hsome, List.find?_cons, hnamed]
  cases hmatch : strcasecmp name arg with
  | true => simp [hmatch]
  | false => simpa [hmatch] using ih

theorem findInRoom_eq {w : World} (hname : ∀ o, (w.object o).name.isSome) {r : RoomId}
    {l : List ObjId} (hl : Lists w r l) (arg : Text) :
    findInRoom w r arg = some (l.find? (named w arg)) :=
  findLoop_eq hname l hl (Nat.lt_succ_of_le hl.length_le)

/-- Whether an object sits at `(x, y)`. -/
def sitsAt (w : World) (x y : ℕ) (o : ObjId) : Bool :=
  x = (w.object o).x.toNat ∧ y = (w.object o).y.toNat

theorem conflictLoop_eq {w : World} {x y : ℕ} (l : List ObjId) {n : ℕ} {p : Option ObjId}
    (hl : Chained w p l) (hn : l.length < n) :
    conflictLoop w x y n p = some (l.any (sitsAt w x y)) := by
  refine hl.walk (motive := fun n p l => conflictLoop w x y n p = some (l.any (sitsAt w x y)))
    (fun _ => rfl) ?_ hn
  intro k o l ih
  rw [conflictLoop, List.any_cons]
  by_cases hsits : x = (w.object o).x.toNat ∧ y = (w.object o).y.toNat
  · simp [sitsAt, hsits]
  · rw [if_neg hsits, ih]
    simp [sitsAt, hsits]

/-! ## Worlds and shelves -/

/-- Where the objects are. -/
def loc (w : World) (o : ObjId) : Option RoomId := (w.object o).loc

/-- The objects that the player carries. -/
def backpack (w : World) : Set ObjId := {o | loc w o = some .inventory}

/-- Where an object sits in its room. -/
def spot (w : World) (o : ObjId) : ℕ × ℕ := ((w.object o).x.toNat, (w.object o).y.toNat)

/-- The contents lists and the locations of the world are the shelves `s`. -/
structure Contained (w : World) (s : Shelves RoomId ObjId) : Prop where
  lists : ∀ r, Lists w r (s r)
  agrees : s.Agrees (loc w)

/-- What no move of an object touches: all but the lists, the places and positions of the
objects, the message and the random numbers. -/
def scenery (w : World) : World where
  room := fun r => { w.room r with contents := none }
  object := fun o => { w.object o with next := none, loc := none, x := 0, y := 0 }
  playerFlags := w.playerFlags
  swapPhoto := w.swapPhoto
  statusMsg := []
  rands := fun _ => 0

/-- The object `o` was moved to `dest`, and nothing else was moved. -/
structure Moved (w w' : World) (o : ObjId) (dest : Option RoomId) : Prop where
  scenery : scenery w' = scenery w
  loc : loc w' = Function.update (loc w) o dest
  spot : ∀ a, a ≠ o → (w'.object a).x = (w.object a).x ∧ (w'.object a).y = (w.object a).y

end MachineProblems.Analysis.Adventure
