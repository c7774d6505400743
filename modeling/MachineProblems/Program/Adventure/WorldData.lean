import Mathlib.Data.Nat.Notation
import Mathlib.Data.Int.Notation

/-!
# The map of the adventure game

The rooms, objects, flags and swap photos of `mp2/world.c` by their names there, and the three
tables that say where everything starts: how the rooms are connected, which object lies in which
room, and which rooms have a second photo.
-/

set_option autoImplicit false

namespace MachineProblems.Program.Adventure

/-! ## Identifiers -/

/-- The rooms, by their `R_` constants. -/
inductive RoomId where
  | inventory
  | in391lab
  | by391lab
  | inIeee
  | byIeee
  | in395lab
  | by395lab
  | evtStair
  | inCleanr
  | byCleanr
  | evrtVend
  | almamater
  | inCocomr
  | byCocomr
  | byZas
  | eastEvrt
  | evrtBsmt
  | westBone
  | circleN
  | circleSw
  | eastBone
  | bardeen
  | libBack
  | reserve
  | talbotNw
  | talbotSw
  | talbot
  | springfld
  | caribou
  | kenney
  | dcl
  | libFront
  | kenneyE
  | newmark
  | mntlNw
  | mntlSw
  | mntllobby
  | mntlLab1
  | mntlLab2
  | mntlLab3
  | cslView
  | cslDoor
  | cslLobby
  | cslUpper
  | csllounge
  | beckLot
  | beckman
  | beckDoor
  | becklobby
  | beckMri
  | garage
  | carSite
  | allerton
  | fuDogs
  | statue
  | sunsinger
  | willard
  | willSide
  | remPlane
  | cockpit
  | overWill
  | airRio
  | remIce
  | remLab
  deriving DecidableEq

/-- The objects, by their `O_` constants. -/
inductive ObjId where
  | board
  | jetpack
  | tux
  | mp2
  | bookC
  | bookWode
  | gpsBad
  | gpsGood
  | gpsSpec
  | bunnysuit
  | battEmpty
  | battFull
  | battCar
  | mtnDew
  | fish
  | icard
  | carKey
  | robotDead
  | robotLive
  | mimoCard
  deriving DecidableEq

/-- The accomplishment flags, by their `FLAG_` constants. -/
inductive Flag where
  | hasEaten
  | wearingSuit
  | carOpen
  | carFixed
  | luredTux
  deriving DecidableEq

/-- The rooms with photo swapping, by their `SWAP_` constants. -/
inductive Swap where
  | circle
  | car
  deriving DecidableEq

/-- `N_OBJECTS`. -/
abbrev nObjects : ℕ := 20

/-! ## Tables -/

/-- `room_data_t`. -/
structure RoomData where
  id : RoomId
  name : String
  filename : String
  left : Option RoomId
  enter : Option RoomId
  right : Option RoomId

/-- `room_data`. -/
def roomData : List RoomData := [
  ⟨.inventory, "Inventory", "images/backpack.photo",
    none, none, none⟩,
  ⟨.in391lab, "391 Lab", "images/391lab.photo",
    none, some .by391lab, none⟩,
  ⟨.by391lab, "Outside of 391", "images/outside391.photo",
    some .byZas, some .in391lab, some .byIeee⟩,
  ⟨.inIeee, "IEEE Office", "images/ieee.photo",
    none, some .byIeee, none⟩,
  ⟨.byIeee, "Outside IEEE", "images/byieee.photo",
    some .by391lab, some .inIeee, some .by395lab⟩,
  ⟨.in395lab, "395 Lab", "images/395lab.photo",
    none, some .by395lab, none⟩,
  ⟨.by395lab, "Outside of 395", "images/outside395.photo",
    some .byIeee, none, some .evtStair⟩,
  ⟨.evtStair, "Everitt Stairs", "images/evtstair.photo",
    some .by395lab, some .eastEvrt, some .byCleanr⟩,
  ⟨.inCleanr, "In Cleanroom", "images/cleanr.photo",
    none, some .byCleanr, none⟩,
  ⟨.byCleanr, "By the Cleanroom", "images/outclean.photo",
    some .evtStair, none, some .evrtVend⟩,
  ⟨.evrtVend, "Vending Machine", "images/vend.photo",
    some .byCleanr, some .evrtBsmt, none⟩,
  ⟨.almamater, "Alma Mater", "images/almamater.photo",
    some .eastEvrt, some .eastEvrt, some .byCocomr⟩,
  ⟨.inCocomr, "Cocomero", "images/incoco.photo",
    none, some .byCocomr, none⟩,
  ⟨.byCocomr, "Near Cocomero", "images/bycoco.photo",
    some .almamater, some .inCocomr, some .byZas⟩,
  ⟨.byZas, "The Ruins", "images/ruins.photo",
    some .byCocomr, none, none⟩,
  ⟨.eastEvrt, "East of Everitt", "images/eeast.photo",
    some .almamater, some .evtStair, some .evrtBsmt⟩,
  ⟨.evrtBsmt, "Basement Entry", "images/basement.photo",
    some .eastEvrt, some .evrtVend, some .circleSw⟩,
  ⟨.westBone, "Boneyard Creek", "images/bonew.photo",
    some .circleSw, none, some .circleN⟩,
  ⟨.circleN, "Boneyard Bridge", "images/circlen1.photo",
    some .westBone, some .talbotNw, some .eastBone⟩,
  ⟨.circleSw, "Boneyard Bridge", "images/circlesw.photo",
    some .eastBone, some .evrtBsmt, some .circleN⟩,
  ⟨.eastBone, "Boneyard Creek", "images/bonee.photo",
    some .circleN, none, some .circleSw⟩,
  ⟨.bardeen, "Bardeen Quad", "images/bardeen.photo",
    some .libBack, some .eastBone, some .talbotSw⟩,
  ⟨.libBack, "Grainger Library", "images/graingerback.photo",
    some .dcl, some .reserve, some .bardeen⟩,
  ⟨.reserve, "Grainger Reserves", "images/reserve.photo",
    none, some .libBack, some .libFront⟩,
  ⟨.talbotNw, "Talbot Lab", "images/talbotnw.photo",
    some .circleSw, some .talbot, some .talbotSw⟩,
  ⟨.talbotSw, "Talbot Lab", "images/talbotsw.photo",
    some .talbotNw, some .talbot, some .springfld⟩,
  ⟨.talbot, "Talbot Lab", "images/talbot.photo",
    none, some .talbotNw, none⟩,
  ⟨.springfld, "Springfield Avenue", "images/springfield.photo",
    some .talbotSw, some .caribou, some .kenney⟩,
  ⟨.caribou, "Caribou", "images/caribou.photo",
    none, some .springfld, none⟩,
  ⟨.kenney, "Kenney Gym", "images/kenney.photo",
    some .springfld, none, some .dcl⟩,
  ⟨.dcl, "DCL", "images/dcl.photo",
    some .kenney, some .kenneyE, some .libFront⟩,
  ⟨.libFront, "Grainger Library", "images/graingerfront.photo",
    some .dcl, some .reserve, some .talbotSw⟩,
  ⟨.kenneyE, "East of Kenney", "images/kenneye.photo",
    some .dcl, some .dcl, some .newmark⟩,
  ⟨.newmark, "Newmark Lab", "images/newmark.photo",
    some .mntlNw, none, some .kenneyE⟩,
  ⟨.mntlNw, "MNTL", "images/mntlnw.photo",
    some .newmark, some .mntllobby, some .cslView⟩,
  ⟨.mntlSw, "MNTL", "images/mntlsw.photo",
    some .mntlNw, some .mntllobby, some .beckman⟩,
  ⟨.mntllobby, "Lobby of MNTL", "images/mntllobby.photo",
    some .mntlLab1, some .mntlSw, some .mntlLab2⟩,
  ⟨.mntlLab1, "Kevin's Lab in MNTL", "images/mntllab1.photo",
    none, none, some .mntllobby⟩,
  ⟨.mntlLab2, "MNTL Laser Lab", "images/mntllab2.photo",
    some .mntllobby, some .mntlLab3, none⟩,
  ⟨.mntlLab3, "MNTL Laser Lab", "images/mntllab3.photo",
    none, some .mntlLab2, none⟩,
  ⟨.cslView, "CSL", "images/csl.photo",
    some .beckLot, some .cslDoor, some .mntlNw⟩,
  ⟨.cslDoor, "CSL Main Entrance", "images/csldoor.photo",
    some .beckLot, none, some .mntlNw⟩,
  ⟨.cslLobby, "CSL Lobby", "images/csllobby.photo",
    some .cslUpper, some .cslDoor, none⟩,
  ⟨.cslUpper, "Upper Floor of CSL", "images/cslupper.photo",
    none, some .csllounge, some .cslLobby⟩,
  ⟨.csllounge, "CSL Lounge", "images/csllounge.photo",
    none, some .cslUpper, none⟩,
  ⟨.beckLot, "Beckman Circle Lot", "images/becklot.photo",
    some .beckman, some .garage, some .cslView⟩,
  ⟨.beckman, "Beckman Institute", "images/beckman.photo",
    some .mntlSw, some .beckDoor, some .beckLot⟩,
  ⟨.beckDoor, "Beckman Institute", "images/beckdoor.photo",
    some .mntlSw, none, some .beckLot⟩,
  ⟨.becklobby, "Beckman Lobby", "images/becklobby.photo",
    none, some .beckMri, some .beckDoor⟩,
  ⟨.beckMri, "An MRI Lab", "images/beckmri.photo",
    none, some .becklobby, none⟩,
  ⟨.garage, "Campus Parking", "images/garage.photo",
    some .beckLot, some .carSite, none⟩,
  ⟨.carSite, "Use Someone's Car?", "images/carclosed.photo",
    none, some .garage, none⟩,
  ⟨.allerton, "Allerton Mansion", "images/allerton.photo",
    some .fuDogs, none, some .sunsinger⟩,
  ⟨.fuDogs, "Fu Dog Statues", "images/fudogs.photo",
    none, some .statue, some .allerton⟩,
  ⟨.statue, "A Tall Statue", "images/statue.photo",
    none, some .fuDogs, none⟩,
  ⟨.sunsinger, "The Sun Singer", "images/sunsinger.photo",
    some .allerton, none, none⟩,
  ⟨.willard, "Willard Airport", "images/willard.photo",
    none, some .willSide, none⟩,
  ⟨.willSide, "Willard Tower", "images/willardside.photo",
    some .remPlane, none, some .willard⟩,
  ⟨.remPlane, "Sensor-Laden Plane", "images/rsenseplane.photo",
    some .cockpit, none, some .willSide⟩,
  ⟨.cockpit, "Plane Cockpit", "images/cockpit.photo",
    none, none, some .remPlane⟩,
  ⟨.overWill, "Flying over Willard", "images/overwillard.photo",
    none, some .cockpit, some .airRio⟩,
  ⟨.airRio, "Rio de Janeiro", "images/riofromair.photo",
    some .overWill, none, some .remIce⟩,
  ⟨.remIce, "Ice Fields", "images/rsenseice.photo",
    some .airRio, some .remLab, none⟩,
  ⟨.remLab, "Remote Sensing Lab", "images/rsenselab.photo",
    none, some .remIce, none⟩]

/-- `obj_data_t`; an object with `x = -1` is placed randomly. -/
structure ObjData where
  id : ObjId
  name : String
  filename : String
  room : Option RoomId
  x : ℤ
  y : ℤ

/-- `obj_data`. -/
def objData : List ObjData := [
  ⟨.board, "board", "images/board.obj", some .inIeee, -1, -1⟩,
  ⟨.jetpack, "jetpack", "images/jetpack.obj", some .talbot, -1, -1⟩,
  ⟨.tux, "tux", "images/tux.obj", some .remLab, 250, 100⟩,
  ⟨.mp2, "mp2", "images/mp2.obj", some .csllounge, -1, -1⟩,
  ⟨.bookC, "book", "images/book.obj", none, -1, -1⟩,
  ⟨.bookWode, "book", "images/book2.obj", none, -1, -1⟩,
  ⟨.gpsBad, "gps", "images/gpsbad.obj", some .talbot, -1, -1⟩,
  ⟨.gpsGood, "gps", "images/gpsgood.obj", none, -1, -1⟩,
  ⟨.gpsSpec, "spec", "images/gpsspec.obj", some .cslUpper, -1, -1⟩,
  ⟨.bunnysuit, "bunnysuit", "images/bunnysuit.obj", some .almamater, 230, 250⟩,
  ⟨.battEmpty, "battery", "images/battery.obj", none, -1, -1⟩,
  ⟨.battFull, "battery", "images/battery.obj", none, -1, -1⟩,
  ⟨.battCar, "battery", "images/batteryincar.obj", none, -1, -1⟩,
  ⟨.mtnDew, "dew", "images/dew.obj", none, -1, -1⟩,
  ⟨.fish, "fish", "images/fish.obj", some .eastBone, 80, 260⟩,
  ⟨.icard, "Icard", "images/icard.obj", some .bardeen, -1, -1⟩,
  ⟨.carKey, "key", "images/key.obj", some .caribou, -1, -1⟩,
  ⟨.robotDead, "robot", "images/robot.obj", some .mntlLab3, -1, -1⟩,
  ⟨.robotLive, "robot", "images/robot.obj", none, -1, -1⟩,
  ⟨.mimoCard, "mimo", "images/mimo.obj", some .statue, -1, -1⟩]

/-- `swap_data`: the files of the alternate photos. -/
def swapData : List (Swap × String) := [
  (.circle, "images/circlen2.photo"),
  (.car, "images/caropen.photo")]

end MachineProblems.Program.Adventure
