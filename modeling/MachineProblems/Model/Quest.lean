import MachineProblems.Program.Adventure.WorldData
import Mathlib.Logic.Function.Basic

/-!
# The quest

What the adventure game is about, without lists, photos and messages: where the player and the
objects are, what the player has accomplished, and which doors are open.  A `Deed` is anything
that can happen to that state in one command, with the condition under which it can; it says
what the game allows, not how the commands find it out.
-/

set_option autoImplicit false

namespace MachineProblems.Model

open MachineProblems.Program.Adventure

/-- The state of the quest; `rptr` is `none` once the game is won. -/
structure Quest where
  rptr : Option RoomId
  loc : ObjId → Option RoomId
  flag : Flag → Bool
  left : RoomId → Option RoomId
  enter : RoomId → Option RoomId
  right : RoomId → Option RoomId

namespace Quest

/-- The player goes to a room. -/
def goTo (q : Quest) (r : RoomId) : Quest := { q with rptr := some r }

/-- An object is brought somewhere, `none` for limbo. -/
def bring (q : Quest) (o : ObjId) (dest : Option RoomId) : Quest :=
  { q with loc := Function.update q.loc o dest }

/-- A flag is set. -/
def raise (q : Quest) (f : Flag) : Quest := { q with flag := Function.update q.flag f true }

/-- The `enter` link of a room is set. -/
def openDoor (q : Quest) (r dest : RoomId) : Quest :=
  { q with enter := Function.update q.enter r (some dest) }

section Fields

variable (q : Quest)

@[simp, grind =] theorem rptr_goTo (r : RoomId) : (q.goTo r).rptr = some r := rfl

@[simp, grind =] theorem loc_goTo (r : RoomId) (a : ObjId) : (q.goTo r).loc a = q.loc a := rfl

@[simp, grind =] theorem flag_goTo (r : RoomId) (a : Flag) : (q.goTo r).flag a = q.flag a := rfl

@[simp, grind =] theorem left_goTo (r : RoomId) (a : RoomId) :
    (q.goTo r).left a = q.left a := rfl

@[simp, grind =] theorem enter_goTo (r : RoomId) (a : RoomId) :
    (q.goTo r).enter a = q.enter a := rfl

@[simp, grind =] theorem right_goTo (r : RoomId) (a : RoomId) :
    (q.goTo r).right a = q.right a := rfl

@[simp, grind =] theorem rptr_bring (o : ObjId) (dest : Option RoomId) :
    (q.bring o dest).rptr = q.rptr := rfl

@[simp, grind =] theorem loc_bring (o a : ObjId) (dest : Option RoomId) :
    (q.bring o dest).loc a = if a = o then dest else q.loc a :=
  Function.update_apply _ _ _ _

@[simp, grind =] theorem flag_bring (o : ObjId) (dest : Option RoomId) (a : Flag) :
    (q.bring o dest).flag a = q.flag a := rfl

@[simp, grind =] theorem left_bring (o : ObjId) (dest : Option RoomId) (a : RoomId) :
    (q.bring o dest).left a = q.left a := rfl

@[simp, grind =] theorem enter_bring (o : ObjId) (dest : Option RoomId) (a : RoomId) :
    (q.bring o dest).enter a = q.enter a := rfl

@[simp, grind =] theorem right_bring (o : ObjId) (dest : Option RoomId) (a : RoomId) :
    (q.bring o dest).right a = q.right a := rfl

@[simp, grind =] theorem rptr_raise (f : Flag) : (q.raise f).rptr = q.rptr := rfl

@[simp, grind =] theorem loc_raise (f : Flag) (a : ObjId) : (q.raise f).loc a = q.loc a := rfl

@[simp, grind =] theorem flag_raise (f a : Flag) :
    (q.raise f).flag a = if a = f then true else q.flag a :=
  Function.update_apply _ _ _ _

@[simp, grind =] theorem left_raise (f : Flag) (a : RoomId) :
    (q.raise f).left a = q.left a := rfl

@[simp, grind =] theorem enter_raise (f : Flag) (a : RoomId) :
    (q.raise f).enter a = q.enter a := rfl

@[simp, grind =] theorem right_raise (f : Flag) (a : RoomId) :
    (q.raise f).right a = q.right a := rfl

@[simp, grind =] theorem rptr_openDoor (r dest : RoomId) :
    (q.openDoor r dest).rptr = q.rptr := rfl

@[simp, grind =] theorem loc_openDoor (r dest : RoomId) (a : ObjId) :
    (q.openDoor r dest).loc a = q.loc a := rfl

@[simp, grind =] theorem flag_openDoor (r dest : RoomId) (a : Flag) :
    (q.openDoor r dest).flag a = q.flag a := rfl

@[simp, grind =] theorem left_openDoor (r dest : RoomId) (a : RoomId) :
    (q.openDoor r dest).left a = q.left a := rfl

@[simp, grind =] theorem enter_openDoor (r dest a : RoomId) :
    (q.openDoor r dest).enter a = if a = r then some dest else q.enter a :=
  Function.update_apply _ _ _ _

@[simp, grind =] theorem right_openDoor (r dest : RoomId) (a : RoomId) :
    (q.openDoor r dest).right a = q.right a := rfl

end Fields

/-- The room the player stands in while looking into the inventory, else the player's room. -/
def standing (q : Quest) : Option RoomId :=
  if q.rptr = some .inventory then q.enter .inventory else q.rptr

@[simp] theorem standing_bring (q : Quest) (o : ObjId) (dest : Option RoomId) :
    (q.bring o dest).standing = q.standing := rfl

@[simp] theorem standing_raise (q : Quest) (f : Flag) : (q.raise f).standing = q.standing := rfl

theorem standing_openDoor (q : Quest) {r dest : RoomId} (hr : r ≠ .inventory) :
    (q.openDoor r dest).standing = q.standing := by
  unfold standing
  rw [rptr_openDoor, enter_openDoor, if_neg hr.symm]

/-- The object is carried, or in the player's room. -/
def atHand (q : Quest) (o : ObjId) : Prop :=
  q.loc o = some .inventory ∨ q.loc o = q.rptr

/-- What a command can do to the quest. -/
inductive Deed (q : Quest) : Quest → Prop
  | idle : Deed q q
  | follow (r dest : RoomId) (hr : q.rptr = some r)
      (hlink : q.left r = some dest ∨ q.enter r = some dest ∨ q.right r = some dest) :
      Deed q (q.goTo dest)
  | enterCleanroom (hr : q.rptr = some .byCleanr) (hsuit : q.flag .wearingSuit) :
      Deed q (q.goTo .inCleanr)
  | swipe395 (hr : q.rptr = some .by395lab) (hcard : q.loc .icard = some .inventory) :
      Deed q (q.goTo .in395lab)
  | swipeCsl (hr : q.rptr = some .cslDoor) (hcard : q.loc .icard = some .inventory) :
      Deed q (q.goTo .cslLobby)
  | pickLock (hr : q.rptr = some .beckDoor) (hrobot : q.loc .robotLive = some .inventory) :
      Deed q (q.goTo .becklobby)
  | driveToAllerton (hr : q.rptr = some .willard ∨ q.rptr = some .carSite)
      (hcar : q.flag .carFixed) (hgps : q.loc .gpsGood = some .inventory) :
      Deed q (q.goTo .allerton)
  | driveToWillard (hr : q.rptr = some .allerton ∨ q.rptr = some .carSite)
      (hcar : q.flag .carFixed) : Deed q (q.goTo .willard)
  | driveToCampus (hr : q.rptr = some .allerton ∨ q.rptr = some .willard) :
      Deed q (q.goTo .carSite)
  | openInventory (r : RoomId) (hr : q.rptr = some r) (hne : r ≠ .inventory) :
      Deed q ((q.openDoor .inventory r).goTo .inventory)
  | closeInventory (hr : q.rptr = some .inventory) :
      Deed q { q with rptr := q.enter .inventory }
  | get (o : ObjId) (r : RoomId) (hr : q.standing = some r) (ho : q.loc o = some r)
      (hcar : o = .battCar → r ≠ .carSite) (htux : o = .tux → q.flag .luredTux) :
      Deed q (q.bring o (some .inventory))
  | drop (o : ObjId) (r : RoomId) (hr : q.standing = some r) (ho : q.loc o = some .inventory) :
      Deed q (q.bring o (some r))
  | borrowC (hfed : q.flag .hasEaten) (hbook : q.loc .bookC = none) :
      Deed q (q.bring .bookC (some .inventory))
  | borrowWode (hbook : q.loc .bookWode = none) : Deed q (q.bring .bookWode (some .inventory))
  | unplugBattery (hr : q.standing = some .carSite) (hbatt : q.loc .battCar = some .carSite) :
      Deed q ((q.bring .battCar none).bring .battEmpty (some .inventory))
  | buyDew : Deed q (q.bring .mtnDew (some .inventory))
  | drinkDew : Deed q (q.bring .mtnDew none)
  | eat : Deed q (q.raise .hasEaten)
  | wearSuit : Deed q ((q.bring .bunnysuit none).raise .wearingSuit)
  | fixGps (hr : q.rptr = some .inCleanr) (hbad : q.atHand .gpsBad) (hspec : q.atHand .gpsSpec) :
      Deed q (((q.bring .gpsBad none).bring .gpsSpec none).bring .gpsGood (some .inventory))
  | flashRobot (hr : q.rptr = some .in395lab) (hdead : q.atHand .robotDead) :
      Deed q ((q.bring .robotDead none).bring .robotLive (some .inventory))
  | useCar (hr : q.rptr = some .carSite) (hfixed : q.flag .carFixed = false)
      (hopen : q.flag .carOpen = false) (hkey : q.loc .carKey = some .inventory) :
      Deed q (((q.bring .carKey none).bring .battCar (some .carSite)).raise .carOpen)
  | charge (hr : q.rptr = some .beckMri) (hempty : q.atHand .battEmpty) :
      Deed q ((q.bring .battEmpty none).bring .battFull (some .inventory))
  | installBattery (hr : q.rptr = some .carSite) (hfull : q.atHand .battFull) :
      Deed q ((q.bring .battFull none).raise .carFixed)
  | installMimo (hr : q.rptr = some .cockpit) (hmimo : q.atHand .mimoCard) :
      Deed q ((q.bring .mimoCard none).openDoor .cockpit .overWill)
  | useFish (hr : q.rptr = some .remLab) (hfish : q.atHand .fish) :
      Deed q (((q.bring .fish none).bring .tux (some .inventory)).raise .luredTux)
  | win (hr : q.rptr = some .in391lab) (hbook : q.loc .bookC = some .inventory)
      (hmp2 : q.loc .mp2 = some .inventory) (htux : q.loc .tux = some .in391lab) :
      Deed q { q with rptr := none }

end Quest

end MachineProblems.Model
