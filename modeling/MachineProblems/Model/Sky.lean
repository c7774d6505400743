import MachineProblems.Program.Mp1.Ioctl
import Mathlib.Logic.Function.Iterate
import Mathlib.Tactic.SplitIfs

/-!
# The sky over the bases

What a tick of missile command does, without pointers, registers and stacks.  The missiles are a
list; a tick serves them one after the other, and a missile that goes takes the turn of its
successor with it, as the code does.  The sky numbers the missiles in the order in which they
are added and keeps account of which enemy was hit by whom, of the bytes drawn in the present
tick, of the notifications and of the blocks that were freed or lost.
-/

set_option autoImplicit false

namespace MachineProblems.Model

open MachineProblems.Program.Mp1

/-! ## One missile -/

section Missile

variable (f : Missile)

/-- A step along the velocity. -/
def moved : Missile := { f with x := f.x + f.vx, y := f.y + f.vy }

/-- Where the missile is drawn. -/
def drawOffset : Word := f.x.sshiftRight 16 * 2 + f.y.sshiftRight 16 * 160

/-- Where it is erased when it goes: the shifts are those of unsigned numbers. -/
def eraseOffset : Word := f.x >>> 16 * 2 + f.y >>> 16 * 160

/-- The bounds test, which compares the columns and rows with fixed-point coordinates. -/
def failsBounds : Bool := f.x.slt 79 || f.x.slt 0 || f.y.slt 24 || f.y.slt 0

def onTarget : Bool := f.destX == f.x.sshiftRight 16 && f.destY == f.y.sshiftRight 16

/-- What a tick finds a missile doing. -/
inductive Turn where
  | burn
  | leave
  | reach
  | fly
  deriving DecidableEq

def turn : Turn :=
  if f.exploded ≠ 0 then .burn
  else if failsBounds f then .leave
  else if onTarget f then .reach
  else .fly

theorem turn_eq_burn : turn f = .burn ↔ f.exploded ≠ 0 := by
  unfold turn
  split_ifs with hburn
  · exact iff_of_true rfl hburn
  all_goals exact iff_of_false (by rintro ⟨⟩) hburn

theorem turn_eq_leave : turn f = .leave ↔ f.exploded = 0 ∧ failsBounds f = true := by
  unfold turn
  split_ifs with hburn hleave <;> simp_all

theorem turn_eq_reach :
    turn f = .reach ↔ f.exploded = 0 ∧ failsBounds f = false ∧ onTarget f = true := by
  unfold turn
  split_ifs with hburn hleave <;> simp_all

theorem turn_eq_fly :
    turn f = .fly ↔ f.exploded = 0 ∧ failsBounds f = false ∧ onTarget f = false := by
  unfold turn
  split_ifs with hburn hleave <;> simp_all

/-- The missile goes in its turn. -/
def goes : Bool := f.exploded == 1 || f.exploded == 0 && failsBounds f

/-- The missile explodes in its turn. -/
def bursts : Bool := f.exploded != 0 || !failsBounds f && onTarget f

/-- The base that an explosion at a place touches. -/
def baseAt (x y : ℤ) : Option (Fin 3) :=
  if 23 ≤ y then
    if 17 ≤ x ∧ x ≤ 23 then some 0
    else if 37 ≤ x ∧ x ≤ 43 then some 1
    else if 57 ≤ x ∧ x ≤ 63 then some 2
    else none
  else none

/-- The base that the explosion of a missile touches: only an enemy's does. -/
def targetBase : Option (Fin 3) := if f.c = 101 then baseAt (cell f.x) (cell f.y) else none

end Missile

/-! ## The state -/

/-- A missile in flight: its number, the block that holds it, and its fields; the link in it means
nothing here. -/
structure Flying where
  id : ℕ
  addr : Word
  missile : Missile

/-- The sky in the course of a tick: the missiles that have had their turn and those to come.  A
hit is the pair of the missile that exploded and the enemy it destroyed. -/
structure Sky where
  done : List Flying
  todo : List Flying
  bases : Fin 3 → Byte
  score : Word
  hits : List (ℕ × ℕ)
  reached : List ℕ
  pokes : List (Word × Byte)
  notified : ℕ
  freed : List Word
  lost : List Word
  born : ℕ

namespace Sky

variable (s : Sky)

/-- All missiles, in the order of the list. -/
def fleet : List Flying := s.done ++ s.todo

/-- The sky with the missile `t` in front of those to come. -/
def facing (t : Flying) : Sky := { s with todo := t :: s.todo }

/-! ## Explosions -/

/-- What the explosion of `f` leaves of another missile. -/
def strike (f : Missile) (u : Flying) : Flying :=
  if destroys f u.missile then { u with missile := { u.missile with exploded := 50 } } else u

/-- The missiles that the explosion of `f` destroys. -/
def struck (f : Missile) (l : List Flying) : List Flying := l.filter fun u => destroys f u.missile

/-- The bases after an explosion of `f`, and the number of those it killed. -/
def bombed (f : Missile) (bases : Fin 3 → Byte) : ℕ × (Fin 3 → Byte) :=
  match targetBase f with
  | some i => (if bases i ≠ 0 then 1 else 0, Function.update bases i 0)
  | none => (0, bases)

/-- The number of bases and enemies that the explosion of `f` destroys. -/
def casualties (f : Missile) : ℕ := (bombed f s.bases).1 + (struck f s.fleet).length

/-- The explosion of `t`, which is in neither part of the list. -/
def blast (t : Flying) : Sky :=
  { s with
    done := s.done.map (strike t.missile)
    todo := s.todo.map (strike t.missile)
    bases := (bombed t.missile s.bases).2
    score := s.score + BitVec.ofNat 32 (struck t.missile s.fleet).length
    hits := s.hits ++ (struck t.missile s.fleet).map fun u => (t.id, u.id)
    notified := if s.casualties t.missile = 0 then s.notified else s.notified + 1 }

/-! ## A turn -/

def poke (offset : Word) (b : Byte) : Sky := { s with pokes := s.pokes ++ [(offset, b)] }

/-- The missile stays in the list. -/
def keep (t : Flying) : Sky := { s with done := s.done ++ [t] }

/-- The missile goes: it is erased, unlinked and freed, and its successor has had its turn. -/
def drop (t : Flying) : Sky :=
  { s.poke (eraseOffset t.missile) 32 with
    done := s.done ++ s.todo.take 1
    todo := s.todo.drop 1
    freed := s.freed ++ [t.addr] }

/-- An exploding missile: it stands still, and burns down. -/
def burn (t : Flying) : Sky :=
  let s := s.blast t
  if t.missile.exploded = 1 then s.drop t
  else
    s.keep { t with
      missile := { t.missile with vx := 0, vy := 0, exploded := t.missile.exploded - 1 } }

/-- A missile at its destination: it explodes, and has burnt one tick at once. -/
def reach (t : Flying) : Sky :=
  let s := ((s.poke (drawOffset t.missile) t.missile.c).blast t).poke (drawOffset t.missile) 64
  { s with reached := s.reached ++ [t.id] }.keep
    { t with missile := { t.missile with exploded := 49 } }

/-- A missile on its way: it is drawn, erased, moved and drawn. -/
def fly (t : Flying) : Sky :=
  ((s.poke (drawOffset t.missile) t.missile.c).poke (drawOffset t.missile) 32).poke
    (drawOffset (moved t.missile)) t.missile.c |>.keep { t with missile := moved t.missile }

/-- The turn of the missile `t`, with the rest of the list to come. -/
def serveMissile (t : Flying) : Sky :=
  match turn t.missile with
  | .burn => s.burn t
  | .leave => s.drop t
  | .reach => s.reach t
  | .fly => s.fly t

/-- One turn. -/
def pass : Sky :=
  match s.todo with
  | [] => s
  | t :: rest => { s with todo := rest }.serveMissile t

/-- The start of a tick. -/
def startTick : Sky := { s with done := [], todo := s.fleet, pokes := [] }

/-- A tick: every turn takes a missile at least. -/
def tick : Sky := pass^[s.fleet.length] s.startTick

/-! ## The commands -/

/-- `mp1_ioctl_startgame`: the missiles in flight are forgotten. -/
def restart : Sky where
  done := []
  todo := []
  bases := fun _ => 1
  score := 0
  hits := []
  reached := []
  pokes := []
  notified := s.notified
  freed := s.freed
  lost := s.lost ++ s.fleet.map Flying.addr
  born := 0

/-- `mp1_ioctl_addmissile`: the missile in the block `addr`, in front of all others. -/
def launch (addr : Word) (f : Missile) : Sky :=
  { s with done := ⟨s.born, addr, f⟩ :: s.fleet, todo := [], born := s.born + 1 }

/-- `mp1_ioctl_endgame`. -/
def clear : Sky :=
  { s with done := [], todo := [], freed := s.freed ++ s.fleet.map Flying.addr }

/-- One call of the driver: the block that `mp1_malloc` returns to it is in its environment. -/
def command (r : Request) : Sky :=
  match r.command with
  | .startgame => s.restart
  | .addmissile => s.launch r.env.block r.env.userMissile
  | .movexhairs => s
  | .getstatus => { s with freed := s.freed ++ [r.env.block] }
  | .endgame => s.clear
  | .rtcTasklet => s.tick

/-- The sky after a sequence of calls. -/
def after (rs : List Request) : Sky := rs.foldl command s

end Sky

end MachineProblems.Model
