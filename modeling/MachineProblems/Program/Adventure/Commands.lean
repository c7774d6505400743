import MachineProblems.Program.Adventure.World

/-!
# The player's commands

The move functions and the fourteen `typed_cmd_` functions of `mp2/world.c`.  Each takes the
world, the room `*rptr` the player is in and the argument typed, and gives the world after it,
the new `*rptr` and the action for the caller.
-/

set_option autoImplicit false

namespace MachineProblems.Program.Adventure

/-- `tc_action_t`. -/
inductive TcAction where
  | allowEdit
  | discardText
  | redrawRoom
  | changeRoom
  deriving DecidableEq

/-- What a command leaves: the world, `*rptr` and the value returned. -/
structure Outcome where
  world : World
  rptr : Option RoomId
  action : TcAction

/-- Show a message, stay in the room and return `action`. -/
def stay (w : World) (r : RoomId) (s : String) (action : TcAction) : Option Outcome :=
  some ⟨showStatus w s, some r, action⟩

/-! ## Moving -/

/-- Entering a room: at the Boneyard Circle a picture is chosen randomly. -/
def arriveIn (w : World) (dest : RoomId) : World :=
  if dest = .circleN then
    if w.randMod 2 = 0 then doPhotoSwap w.nextRand dest .circle else w.nextRand
  else w

/-- `try_to_move_left` and `try_to_move_right`, by the link they follow. -/
def tryToMove (link : Room → Option RoomId) (w : World) (r : RoomId) : Option Outcome :=
  match link (w.room r) with
  | some dest => some ⟨arriveIn w dest, some dest, .changeRoom⟩
  | none =>
      if r = .inventory then stay w r "Push 'home' or type 'inventory'." .allowEdit
      else stay w r "You can't go that way." .allowEdit

/-- `try_to_move_left`. -/
def tryToMoveLeft : World → RoomId → Option Outcome := tryToMove Room.left

/-- `try_to_move_right`. -/
def tryToMoveRight : World → RoomId → Option Outcome := tryToMove Room.right

/-- Kevin's advice. -/
def advice : List String := [
  "Kevin says, \"Andres' board is FAST!\"",
  "Kevin asks, \"Got a jetpack?\"",
  "Kevin: \"You can flash hardware in 395.\"",
  "Kevin suggests, \"Always carry a fish.\"",
  "Kevin asks, \"Have you done your MP2?\"",
  "Kevin says, \"Cocomero sells yogurt.\"",
  "Kevin asks, \"Maybe you need a Dew?\"",
  "Kevin: \"A magnet can charge a battery.\""]

/-- `try_to_enter`. -/
def tryToEnter (w : World) (r : RoomId) : Option Outcome :=
  match (w.room r).enter with
  | some dest => some ⟨arriveIn w dest, some dest, .changeRoom⟩
  | none =>
      if r = .byCleanr then
        if playerFlagIsSet w .wearingSuit then some ⟨w, some .inCleanr, .changeRoom⟩
        else stay w r "You're not wearing a bunnysuit!" .allowEdit
      else if r = .by395lab then
        if (w.object .icard).loc = some .inventory then
          some ⟨showStatus w "You swiped your Icard.", some .in395lab, .changeRoom⟩
        else stay w r "You need a valid Icard." .allowEdit
      else if r = .cslDoor then
        if (w.object .icard).loc = some .inventory then
          some ⟨showStatus w "You swiped your Icard.", some .cslLobby, .changeRoom⟩
        else stay w r "You need a valid Icard." .allowEdit
      else if r = .beckDoor then
        if (w.object .robotLive).loc = some .inventory then
          some ⟨showStatus w "The robot hand picked the lock!", some .becklobby, .changeRoom⟩
        else if (w.object .robotDead).loc = some .inventory then
          stay w r "Flash the robot's code again." .allowEdit
        else stay w r "Complex lock!  Find a nanotech robot." .allowEdit
      else if r = .mntlLab1 then do
        let s ← advice[w.randMod 8]?
        stay w.nextRand r s .allowEdit
      else if r = .cockpit then stay w r "A MIMO transmitter card is missing!" .allowEdit
      else stay w r "You can't go that way." .allowEdit

/-! ## Typed commands -/

section Typed

variable (w : World) (r : RoomId) (arg : Text)

/-- Whether an object is in the inventory or in the player's room. -/
def atHand (o : ObjId) : Prop :=
  (w.object o).loc = some .inventory ∨ (w.object o).loc = some r

instance (o : ObjId) : Decidable (atHand w r o) := by
  unfold atHand
  infer_instance

/-- `typed_cmd_buy`. -/
def typedCmdBuy : Option Outcome :=
  if strcasecmp "dew" arg then
    if r ≠ .evrtVend then stay w r "Great idea!  But ... where?" .discardText
    else if atHand w r .mtnDew then stay w r "Slow down!  One at a time..." .discardText
    else do
      let w :=
        if (w.object .mtnDew).loc ≠ none then
          showStatus w "Last one get stolen?  Ok...here we go..."
        else showStatus w "You buy a Dew."
      let w ← moveObjectToInventory w .mtnDew
      some ⟨w, some r, .redrawRoom⟩
  else if strcasecmp "yogurt" arg then
    if r ≠ .inCocomr then stay w r "Cocomero doesn't deliver here." .discardText
    else if playerFlagIsSet w .hasEaten then stay w r "You're not hungry." .discardText
    else stay (playerSetFlag w .hasEaten) r "So tasty and delicious!" .discardText
  else stay w r "Sorry, purchasing options are limited." .allowEdit

/-- `typed_cmd_charge`. -/
def typedCmdCharge : Option Outcome :=
  if ¬ strcasecmp "battery" arg then
    stay w r "Electronic devices aren't (always) toys!" .allowEdit
  else if ¬ atHand w r .battEmpty ∧ ¬ atHand w r .battFull then
    stay w r "What battery?" .discardText
  else if r ≠ .beckMri then stay w r "Find a bigger magnet." .discardText
  else if atHand w r .battFull then stay w r "Don't overdo it." .discardText
  else do
    let w ← removeObject w .battEmpty
    let w ← moveObjectToInventory w .battFull
    stay w r "Wow!  That's a strong magnet!" .redrawRoom

/-- `typed_cmd_do`. -/
def typedCmdDo : Option Outcome :=
  if r ≠ .in391lab then stay w r "You can't 'do' anything here." .allowEdit
  else if ¬ strcasecmp "391" arg ∧ ¬ strcasecmp "mp2" arg then
    stay w r "Doing the 391 MP2 is more important!" .allowEdit
  else if (w.object .bookC).loc ≠ some .inventory then
    stay w r "You'd better get a book from Grainger." .discardText
  else if (w.object .mp2).loc ≠ some .inventory then
    stay w r "Web's down.  Bring your own MP2." .discardText
  else if (w.object .tux).loc ≠ some .in391lab then
    stay w r "You'd have better luck if Tux were here." .discardText
  else some ⟨w, none, .changeRoom⟩

/-- `typed_cmd_drink`. -/
def typedCmdDrink : Option Outcome :=
  if ¬ strcasecmp "dew" arg then
    stay w r "That sounds less refreshing than Dew." .allowEdit
  else if ¬ atHand w r .mtnDew then
    stay w r "Uh-oh.  Hadewcinations.  Buy one soon!" .discardText
  else do
    let w ← removeObject w .mtnDew
    stay w r "Ahhhhhhhhhhhhhhhh...........nother?" .redrawRoom

/-- `typed_cmd_drop`. -/
def typedCmdDrop : Option Outcome := do
  match ← findInRoom w .inventory arg with
  | none => stay w r "You have no such thing." .allowEdit
  | some obj =>
      let w :=
        if (obj = .battFull ∧ r = .carSite) ∨ (obj = .mimoCard ∧ r = .remPlane) then
          showStatus w "You may want to install it instead."
        else w
      let dest ← (if r = .inventory then (w.room .inventory).enter else some r)
      let w ← insertObject w obj dest
      some ⟨w, some r, .redrawRoom⟩

/-- `typed_cmd_fix`. -/
def typedCmdFix : Option Outcome :=
  if ¬ strcasecmp "gps" arg then stay w r "In the game, you're not as capable." .allowEdit
  else if atHand w r .gpsGood then stay w r "It's working fine." .discardText
  else if ¬ atHand w r .gpsBad then stay w r "Do you have a GPS?" .discardText
  else if r ≠ .inCleanr then stay w r "You'd better go to the cleanroom." .discardText
  else if ¬ atHand w r .gpsSpec then stay w r "Maybe you'd better get a spec?" .discardText
  else do
    let w ← removeObject w .gpsBad
    let w ← removeObject w .gpsSpec
    let w ← moveObjectToInventory w .gpsGood
    stay w r "All done--wow, you're good!" .changeRoom

/-- `typed_cmd_flash`. -/
def typedCmdFlash : Option Outcome :=
  if ¬ strcasecmp "robot" arg then stay w r "Don't waste your time." .allowEdit
  else if ¬ atHand w r .robotDead ∧ ¬ atHand w r .robotLive then
    stay w r "Maybe get the robot first?" .discardText
  else if r ≠ .in395lab then stay w r "With spit and a lemon?  Try the lab." .discardText
  else if atHand w r .robotLive then stay w r "You flash the robot's ROM again." .discardText
  else do
    let w ← removeObject w .robotDead
    let w ← moveObjectToInventory w .robotLive
    stay w r "You flash it with a lockpicking code." .redrawRoom

/-- `typed_cmd_get`. -/
def typedCmdGet : Option Outcome := do
  let src ← (if r = .inventory then (w.room .inventory).enter else some r)
  let (w, special) ← objSpecialGet w src arg
  let obj ← (match special with
    | some obj => some (some obj)
    | none => findInRoom w src arg)
  match obj with
  | none => stay w r "You see no such thing here." .allowEdit
  | some obj =>
      if obj = .tux ∧ ¬ playerFlagIsSet w .luredTux then
        stay w r "Tux must choose you!  Try using a fish." .discardText
      else do
        let w ← moveObjectToInventory w obj
        some ⟨w, some r, .redrawRoom⟩

/-- `typed_cmd_go`. -/
def typedCmdGo : Option Outcome :=
  if strcasecmp "allerton" arg then
    if r = .allerton then stay w r "Kazam!  You're at Allerton!" .discardText
    else if r ≠ .willard ∧ r ≠ .carSite then stay w r "That's quite a hike." .discardText
    else if ¬ playerFlagIsSet w .carFixed then
      if playerFlagIsSet w .carOpen then stay w r "The car isn't working." .discardText
      else stay w r "Do you want to use that car?" .discardText
    else if (w.object .gpsGood).loc ≠ some .inventory then
      if (w.object .gpsBad).loc = some .inventory then
        stay w r "That's a long road with a broken GPS." .discardText
      else stay w r "You'll need a GPS to find that place." .discardText
    else some ⟨showStatus w "You drive to Allerton Park.", some .allerton, .changeRoom⟩
  else if strcasecmp "willard" arg ∨ strcasecmp "airport" arg then
    if r = .willard then stay w r "Kazap!  You're at Willard!" .discardText
    else if r ≠ .allerton ∧ r ≠ .carSite then stay w r "That's quite a hike." .discardText
    else if ¬ playerFlagIsSet w .carFixed then
      if playerFlagIsSet w .carOpen then stay w r "The car isn't working." .discardText
      else stay w r "Do you want to use that car?" .discardText
    else some ⟨showStatus w "You drive to Willard Airport.", some .willard, .changeRoom⟩
  else if strcasecmp "campus" arg then
    if r = .carSite then stay w r "Kazar!  You're on campus!" .discardText
    else if r ≠ .allerton ∧ r ≠ .willard then stay w r "That's quite a hike." .discardText
    else some ⟨showStatus w "You drive back to campus.", some .carSite, .changeRoom⟩
  else stay w r "The game map lacks certain places." .allowEdit

/-- `typed_cmd_install`. -/
def typedCmdInstall : Option Outcome :=
  if strcasecmp "battery" arg then
    if ¬ atHand w r .battEmpty ∧ ¬ atHand w r .battFull then
      stay w r "What battery?" .discardText
    else if r ≠ .carSite then stay w r "Do you see the car?" .discardText
    else if atHand w r .battEmpty then
      stay w r "You want to install a dead battery?" .discardText
    else do
      let w ← removeObject w .battFull
      stay (doPhotoSwap (playerSetFlag w .carFixed) r .car) r "Nice work!  Now you can use it!"
        .changeRoom
  else if strcasecmp "mimo" arg ∨ strcasecmp "card" arg ∨ strcasecmp "transmitter" arg then
    if ¬ atHand w r .mimoCard then stay w r "Do you have one of those?" .discardText
    else if r ≠ .cockpit then stay w r "Nothing here needs that." .discardText
    else do
      let w ← removeObject w .mimoCard
      stay (w.setRoom .cockpit { w.room .cockpit with enter := some .overWill }) r
        "Ready for takeoff, captain!" .redrawRoom
  else stay w r "What are you playing at?" .allowEdit

/-- `typed_cmd_inventory`. -/
def typedCmdInventory : Option Outcome :=
  if r = .inventory then some ⟨w, (w.room r).enter, .changeRoom⟩
  else
    some ⟨w.setRoom .inventory { w.room .inventory with enter := some r }, some .inventory,
      .changeRoom⟩

/-- `typed_cmd_sigh`. -/
def typedCmdSigh : Option Outcome :=
  if r ≠ .byZas then stay w r "MP2 got you down?  Take a break!" .discardText
  else
    stay (playerSetFlag w .hasEaten) r "So sad... you lose your appetite." .discardText

/-- `typed_cmd_use`. -/
def typedCmdUse : Option Outcome :=
  if strcasecmp "car" arg then
    if r = .allerton then stay w r "Go to campus or Willard Airport?" .discardText
    else if r = .willard then stay w r "Go to Allerton or campus?" .discardText
    else if r ≠ .carSite then stay w r "You have a car?" .discardText
    else if playerFlagIsSet w .carFixed then
      stay w r "Go to Allerton or Willard Airport?" .discardText
    else if playerFlagIsSet w .carOpen then
      stay w r "You'll have to charge the battery." .discardText
    else if (w.object .carKey).loc ≠ some .inventory then
      stay w r "Perhaps you can find a key?" .discardText
    else do
      let w ← removeObject (doPhotoSwap w r .car) .carKey
      let w ← insertObjectAt w .battCar r 265 122
      stay (playerSetFlag w .carOpen) r "The key works, but the battery's dead." .changeRoom
  else if strcasecmp "fish" arg then
    if ¬ atHand w r .fish then stay w r "Using the invisible fish...no effect!" .discardText
    else if r ≠ .remLab then stay w r "I don't think that's sanitary." .discardText
    else do
      let w ← removeObject w .fish
      let w ← moveObjectToInventory w .tux
      stay (playerSetFlag w .luredTux) r "Tux likes you!" .redrawRoom
  else stay w r "You want to use what!?" .allowEdit

/-- `typed_cmd_wear`. -/
def typedCmdWear : Option Outcome :=
  if ¬ strcasecmp "bunnysuit" arg then
    stay w r "Big Brother forbids fashion statements." .allowEdit
  else if ¬ atHand w r .bunnysuit then stay w r "Do you have a bunnysuit?" .discardText
  else do
    let w ← removeObject w .bunnysuit
    stay (playerSetFlag w .wearingSuit) r "You look good in pink!" .redrawRoom

end Typed

/-! ## All commands -/

/-- `cmd_id_t`. -/
inductive CmdId where
  | buy
  | charge
  | doIt
  | drink
  | drop
  | fix
  | flash
  | get
  | go
  | install
  | inventory
  | sigh
  | use
  | wear
  deriving DecidableEq

/-- The function of a typed command. -/
def typedCmd (c : CmdId) (w : World) (r : RoomId) (arg : Text) : Option Outcome :=
  match c with
  | .buy => typedCmdBuy w r arg
  | .charge => typedCmdCharge w r arg
  | .doIt => typedCmdDo w r arg
  | .drink => typedCmdDrink w r arg
  | .drop => typedCmdDrop w r arg
  | .fix => typedCmdFix w r arg
  | .flash => typedCmdFlash w r arg
  | .get => typedCmdGet w r arg
  | .go => typedCmdGo w r arg
  | .install => typedCmdInstall w r arg
  | .inventory => typedCmdInventory w r
  | .sigh => typedCmdSigh w r
  | .use => typedCmdUse w r arg
  | .wear => typedCmdWear w r arg

/-- A call of one of the functions. -/
inductive Call where
  | moveLeft
  | enter
  | moveRight
  | typed (c : CmdId) (arg : Text)

def perform (call : Call) (w : World) (r : RoomId) : Option Outcome :=
  match call with
  | .moveLeft => tryToMoveLeft w r
  | .enter => tryToEnter w r
  | .moveRight => tryToMoveRight w r
  | .typed c arg => typedCmd c w r arg

/-- One call with a pointer to any room, wherever the player may be. -/
def callStep (w : World) (call : Call × RoomId) : Option World :=
  (perform call.1 w call.2).map Outcome.world

/-- The world and the room the player is in, the null pointer once the game is won. -/
structure Play where
  world : World
  rptr : Option RoomId

/-- One call for the player.  After the game is won there are no more calls. -/
def playStep (p : Play) (call : Call) : Option Play :=
  match p.rptr with
  | none => some p
  | some r => (perform call p.world r).map fun out => ⟨out.world, out.rptr⟩

end MachineProblems.Program.Adventure
