import MachineProblems.Model.Quest

/-!
# The gates of the quest

The map has regions that are shut at the start: the cleanroom, the Beckman Institute, Allerton,
the airport, and what is reached by plane.  Each has a guard that the player's progress meets
before the player can be there, and the objects needed for the win lie behind the guards.  The
invariant ties the regions, the objects, the flags and the one door that opens together.
-/

set_option autoImplicit false

namespace MachineProblems.Analysis.Adventure

open MachineProblems.Program.Adventure MachineProblems.Model

/-! ## Regions -/

inductive Region where
  | campus
  | cleanroom
  | beckman
  | allerton
  | airport
  | flight
  deriving DecidableEq

def region : RoomId → Region
  | .inCleanr => .cleanroom
  | .becklobby | .beckMri => .beckman
  | .allerton | .fuDogs | .statue | .sunsinger => .allerton
  | .willard | .willSide | .remPlane | .cockpit => .airport
  | .overWill | .airRio | .remIce | .remLab => .flight
  | _ => .campus

/-- Where the links of the map lead from a region, apart from the doors with a condition. -/
def leads (a b : Region) : Bool := a = b ∨ b = .campus ∨ (a = .flight ∧ b = .airport)

/-- A link of the map between two rooms. -/
def RoomData.links (d : RoomData) (dest : RoomId) : Prop :=
  d.left = some dest ∨ d.enter = some dest ∨ d.right = some dest

theorem mem_roomData (r : RoomId) : ∃ d ∈ roomData, d.id = r := by
  have hids : ∀ r : RoomId, r ∈ roomData.map RoomData.id := by
    intro r
    cases r <;> decide
  exact List.mem_map.mp (hids r)

/-- No link of the map leads into the backpack or past a guard. -/
theorem links_leads {d : RoomData} (hd : d ∈ roomData) {dest : RoomId}
    (hlink : RoomData.links d dest) : dest ≠ .inventory ∧ leads (region d.id) (region dest) := by
  have hall : ∀ d ∈ roomData, ∀ o ∈ [d.left, d.enter, d.right], ∀ dest ∈ o,
      dest ≠ .inventory ∧ leads (region d.id) (region dest) := by decide
  rcases hlink with h | h | h
  · exact hall d hd d.left (by simp) dest h
  · exact hall d hd d.enter (by simp) dest h
  · exact hall d hd d.right (by simp) dest h

/-! ## The invariant -/

/-- What the player must have done to be in a region. -/
def guard (q : Quest) : Region → Prop
  | .campus => True
  | .cleanroom => q.flag .wearingSuit
  | .beckman => q.loc .robotDead = none
  | .allerton => q.flag .carFixed ∧ q.loc .gpsGood ≠ none
  | .airport => q.flag .carFixed
  | .flight => q.flag .carFixed ∧ q.enter .cockpit = some .overWill

/-- The links are those of the map, but for the inventory's `enter` and the cockpit's. -/
structure Mapped (q : Quest) : Prop where
  left : ∀ d ∈ roomData, q.left d.id = d.left
  right : ∀ d ∈ roomData, q.right d.id = d.right
  enter : ∀ d ∈ roomData, d.id ≠ .inventory → d.id ≠ .cockpit → q.enter d.id = d.enter
  cockpit : q.enter .cockpit = none ∨ q.enter .cockpit = some .overWill

/-- What the places of the objects say about the flags and the other objects. -/
@[grind cases]
structure Items (loc : ObjId → Option RoomId) (flag : Flag → Bool) (cockpit : Option RoomId) :
    Prop where
  suit : flag .wearingSuit → loc .bunnysuit = none
  gps : loc .gpsGood ≠ none →
    loc .gpsBad = none ∧ loc .gpsSpec = none ∧ flag .wearingSuit
  robot : loc .robotLive ≠ none → loc .robotDead = none
  shut : flag .carOpen = false →
    loc .battCar = none ∧ loc .battEmpty = none ∧ loc .battFull = none ∧ flag .carFixed = false
  key : flag .carOpen → loc .carKey = none
  battCar : loc .battCar = none ∨
    loc .battCar = some .carSite ∧ loc .battEmpty = none ∧ loc .battFull = none
  battEmpty : loc .battEmpty ≠ none → loc .battFull = none
  battFull : loc .battFull ≠ none → loc .robotDead = none
  fixed : flag .carFixed → loc .robotDead = none ∧ loc .battCar = none ∧
    loc .battEmpty = none ∧ loc .battFull = none
  mimo : loc .mimoCard ≠ some .statue → flag .carFixed ∧ loc .gpsGood ≠ none
  door : cockpit = some .overWill → loc .mimoCard = none
  tux : loc .tux ≠ some .remLab → flag .luredTux
  lured : flag .luredTux → loc .fish = none ∧ cockpit = some .overWill
  book : loc .bookC ≠ none → flag .hasEaten

/-- The invariant of the quest. -/
structure Gated (q : Quest) : Prop where
  mapped : Mapped q
  items : Items q.loc q.flag (q.enter .cockpit)
  here : ∀ r, q.standing = some r → r ≠ .inventory ∧ guard q (region r)
  somewhere : q.rptr ≠ none → q.standing ≠ none

/-- **What the win takes**: with the book and the penguin in place, the invariant gives the
rest. -/
structure Accomplished (q : Quest) : Prop where
  flags : ∀ f, q.flag f
  door : q.enter .cockpit = some .overWill
  consumed : ∀ o ∈ [ObjId.bunnysuit, .carKey, .gpsBad, .gpsSpec, .robotDead, .battCar,
    .battEmpty, .battFull, .mimoCard, .fish], q.loc o = none

theorem Items.accomplished {q : Quest} (h : Items q.loc q.flag (q.enter .cockpit))
    (hbook : q.loc .bookC = some .inventory) (htux : q.loc .tux = some .in391lab) :
    Accomplished q := by
  have heaten := h.book (by simp [hbook])
  have hlured := h.tux (by simp [htux])
  obtain ⟨hfish, hdoor⟩ := h.lured hlured
  have hmimo := h.door hdoor
  obtain ⟨hfixed, hgps⟩ := h.mimo (by simp [hmimo])
  obtain ⟨hbad, hspec, hsuit⟩ := h.gps hgps
  obtain ⟨hdead, hcar, hempty, hfull⟩ := h.fixed hfixed
  have hopen : q.flag .carOpen = true := by
    by_contra hshut
    have := (h.shut (by simpa using hshut)).2.2.2
    rw [hfixed] at this
    cases this
  refine ⟨?_, hdoor, ?_⟩
  · intro f
    cases f with
    | hasEaten => exact heaten
    | wearingSuit => exact hsuit
    | carOpen => exact hopen
    | carFixed => exact hfixed
    | luredTux => exact hlured
  · simp [h.suit hsuit, h.key hopen, hbad, hspec, hdead, hcar, hempty, hfull, hmimo, hfish]

/-! ## Deeds keep the objects in order -/

theorem Gated.guard_of {q : Quest} (h : Gated q) {r : RoomId} (hr : q.rptr = some r)
    (hne : r ≠ .inventory) : guard q (region r) := by
  have hstanding : q.standing = some r := by
    unfold Quest.standing
    rw [hr, if_neg (by simp [hne])]
  exact (h.here r hstanding).2

theorem atHand_ne_none {q : Quest} {r : RoomId} {o : ObjId} (hr : q.rptr = some r)
    (ho : q.atHand o) : q.loc o ≠ none := by
  rcases ho with ho | ho
  · simp [ho]
  · simp [ho, hr]

section Items

variable {loc : ObjId → Option RoomId} {flag : Flag → Bool} {door : Option RoomId}
  (h : Items loc flag door)
include h

/-- The objects that no gate is about may go anywhere. -/
theorem Items.plain {o : ObjId} (ho : o = .mtnDew ∨ o = .bookWode) (dest : Option RoomId) :
    Items (Function.update loc o dest) flag door := by
  constructor <;> grind [Function.update_apply]

/-- An object that was somewhere is brought to the inventory or out of it. -/
theorem Items.carry {o : ObjId} {r dest : RoomId} (ho : loc o = some r)
    (hcar : o = .battCar → r ≠ .carSite) (htux : o = .tux → flag .luredTux)
    (hmimo : o = .mimoCard → flag .carFixed ∧ loc .gpsGood ≠ none) :
    Items (Function.update loc o (some dest)) flag door := by
  constructor <;> grind [Function.update_apply]

theorem Items.borrowC (hfed : flag .hasEaten) (dest : Option RoomId) :
    Items (Function.update loc .bookC dest) flag door := by
  constructor <;> grind [Function.update_apply]

theorem Items.unplugBattery (hbatt : loc .battCar = some .carSite) (dest : Option RoomId) :
    Items (Function.update (Function.update loc .battCar none) .battEmpty dest) flag door := by
  constructor <;> grind [Function.update_apply]

theorem Items.eat : Items loc (Function.update flag .hasEaten true) door := by
  constructor <;> grind [Function.update_apply]

theorem Items.wearSuit : Items (Function.update loc .bunnysuit none)
    (Function.update flag .wearingSuit true) door := by
  constructor <;> grind [Function.update_apply]

theorem Items.fixGps (hsuit : flag .wearingSuit) (r : RoomId) :
    Items (Function.update (Function.update (Function.update loc .gpsBad none) .gpsSpec none)
      .gpsGood (some r)) flag door := by
  constructor <;> grind [Function.update_apply]

theorem Items.flashRobot (dest : Option RoomId) :
    Items (Function.update (Function.update loc .robotDead none) .robotLive dest) flag door := by
  constructor <;> grind [Function.update_apply]

theorem Items.useCar (hfixed : flag .carFixed = false) (hopen : flag .carOpen = false) :
    Items (Function.update (Function.update loc .carKey none) .battCar (some .carSite))
      (Function.update flag .carOpen true) door := by
  constructor <;> grind [Function.update_apply]

theorem Items.charge (hdead : loc .robotDead = none) (hempty : loc .battEmpty ≠ none)
    (dest : Option RoomId) :
    Items (Function.update (Function.update loc .battEmpty none) .battFull dest) flag door := by
  constructor <;> grind [Function.update_apply]

theorem Items.installBattery (hfull : loc .battFull ≠ none) :
    Items (Function.update loc .battFull none) (Function.update flag .carFixed true) door := by
  constructor <;> grind [Function.update_apply]

theorem Items.installMimo (hmimo : loc .mimoCard ≠ some .statue) :
    Items (Function.update loc .mimoCard none) flag (some .overWill) := by
  constructor <;> grind [Function.update_apply]

theorem Items.useFish (hdoor : door = some .overWill) (dest : Option RoomId) :
    Items (Function.update (Function.update loc .fish none) .tux dest)
      (Function.update flag .luredTux true) door := by
  constructor <;> grind [Function.update_apply]

end Items

theorem items_deed {q q' : Quest} (h : Gated q) (hdeed : q.Deed q') :
    Items q'.loc q'.flag (q'.enter .cockpit) := by
  have hi := h.items
  cases hdeed
  case idle => exact hi
  case follow => exact hi
  case enterCleanroom => exact hi
  case swipe395 => exact hi
  case swipeCsl => exact hi
  case pickLock => exact hi
  case driveToAllerton => exact hi
  case driveToWillard => exact hi
  case driveToCampus => exact hi
  case openInventory => exact hi
  case closeInventory => exact hi
  case win => exact hi
  case get o r hr ho hcar htux =>
    apply hi.carry ho hcar htux
    -- the card leaves the statue only with a player who drove to Allerton
    intro hmimo
    by_cases hstatue : r = .statue
    · subst hstatue
      exact (h.here .statue hr).2
    · apply hi.mimo
      rw [← hmimo, ho]
      exact fun heq => hstatue (Option.some.inj heq)
  case drop o r hr ho =>
    apply hi.carry ho
    · rintro rfl
      decide
    · rintro rfl
      apply hi.tux
      simp [ho]
    · rintro rfl
      apply hi.mimo
      simp [ho]
  case borrowC hfed _ => exact hi.borrowC hfed _
  case borrowWode => exact hi.plain (Or.inr rfl) _
  case unplugBattery hbatt => exact hi.unplugBattery hbatt _
  case buyDew => exact hi.plain (Or.inl rfl) _
  case drinkDew => exact hi.plain (Or.inl rfl) _
  case eat => exact hi.eat
  case wearSuit => exact hi.wearSuit
  case fixGps hr _ _ => exact hi.fixGps (h.guard_of hr (by decide)) _
  case flashRobot => exact hi.flashRobot _
  case useCar _ hfixed hopen _ => exact hi.useCar hfixed hopen
  case charge hr hempty =>
    exact hi.charge (h.guard_of hr (by decide)) (atHand_ne_none hr hempty) _
  case installBattery hr hfull => exact hi.installBattery (atHand_ne_none hr hfull)
  case installMimo hr hmimo =>
    have hplace : q.loc .mimoCard ≠ some .statue := by
      rcases hmimo with hmimo | hmimo
      · simp [hmimo]
      · simp [hmimo, hr]
    have hdoor : (Function.update q.enter .cockpit (some RoomId.overWill)) .cockpit =
        some .overWill := Function.update_self _ _ _
    have hmimo' := hi.installMimo hplace
    rw [← hdoor] at hmimo'
    exact hmimo'
  case useFish hr _ => exact hi.useFish (h.guard_of hr (by decide)).2 _

/-! ## Deeds keep the player behind the guards -/

theorem guard_of_leads {q : Quest} {a b : Region} (h : leads a b) (ha : guard q a) :
    guard q b := by
  simp only [leads, decide_eq_true_eq] at h
  rcases h with rfl | rfl | ⟨rfl, rfl⟩
  · exact ha
  · trivial
  · exact ha.1

/-- What the guards look at is never undone. -/
structure Progress (q q' : Quest) : Prop where
  flag : ∀ f, q.flag f → q'.flag f
  robotDead : q.loc .robotDead = none → q'.loc .robotDead = none
  gpsGood : q.loc .gpsGood ≠ none → q'.loc .gpsGood ≠ none
  door : q.enter .cockpit = some .overWill → q'.enter .cockpit = some .overWill

theorem progress_deed {q q' : Quest} (hdeed : q.Deed q') : Progress q q' := by
  cases hdeed <;> constructor <;> grind

theorem Progress.guard {q q' : Quest} (h : Progress q q') {a : Region} (ha : guard q a) :
    guard q' a := by
  cases a with
  | campus => trivial
  | cleanroom => exact h.flag _ ha
  | beckman => exact h.robotDead ha
  | allerton => exact ⟨h.flag _ ha.1, h.gpsGood ha.2⟩
  | airport => exact h.flag _ ha
  | flight => exact ⟨h.flag _ ha.1, h.door ha.2⟩

/-- The links of the inventory lead back to where the player stands. -/
theorem Gated.follow_inventory {q : Quest} (h : Gated q) {dest : RoomId}
    (hr : q.rptr = some .inventory)
    (hlink : q.left .inventory = some dest ∨ q.enter .inventory = some dest ∨
      q.right .inventory = some dest) : q.standing = some dest := by
  have hd : (⟨.inventory, "Inventory", "images/backpack.photo", none, none, none⟩ : RoomData) ∈
      roomData := List.mem_cons_self
  have hleft := h.mapped.left _ hd
  have hright := h.mapped.right _ hd
  simp only [hleft, hright, reduceCtorEq, false_or, or_false] at hlink
  rw [Quest.standing, if_pos hr, hlink]

/-- Following a link of the map. -/
theorem Gated.follow {q : Quest} (h : Gated q) {r dest : RoomId} (hr : q.rptr = some r)
    (hlink : q.left r = some dest ∨ q.enter r = some dest ∨ q.right r = some dest) :
    dest ≠ .inventory ∧ guard q (region dest) := by
  by_cases hinv : r = .inventory
  · subst hinv
    exact h.here dest (h.follow_inventory hr hlink)
  · have hguard := h.guard_of hr hinv
    obtain ⟨d, hd, rfl⟩ := mem_roomData r
    rw [h.mapped.left d hd, h.mapped.right d hd] at hlink
    have hleads : RoomData.links d dest → dest ≠ .inventory ∧ guard q (region dest) := by
      intro hmap
      obtain ⟨hne, hleads⟩ := links_leads hd hmap
      exact ⟨hne, guard_of_leads hleads hguard⟩
    rcases hlink with hleft | henter | hright
    · exact hleads (Or.inl hleft)
    · by_cases hcockpit : d.id = .cockpit
      · -- the door that `installMimo` opens
        rw [hcockpit] at henter hguard
        rcases h.mapped.cockpit with hshut | hdoor
        · rw [hshut] at henter
          cases henter
        · obtain rfl := Option.some.inj (hdoor.symm.trans henter)
          exact ⟨by decide, hguard, hdoor⟩
      · rw [h.mapped.enter d hd hinv hcockpit] at henter
        exact hleads (Or.inr (Or.inl henter))
    · exact hleads (Or.inr (Or.inr hright))

/-- The player is somewhere, behind the guard of the region. -/
structure Placed (q : Quest) : Prop where
  here : ∀ r, q.standing = some r → r ≠ .inventory ∧ guard q (region r)
  somewhere : q.rptr ≠ none → q.standing ≠ none

theorem placed_goTo {q : Quest} {r : RoomId} (hne : r ≠ .inventory) (hr : guard q (region r)) :
    Placed (q.goTo r) := by
  have hstanding : (q.goTo r).standing = some r := by
    unfold Quest.standing
    rw [Quest.rptr_goTo, if_neg (by simp [hne])]
  constructor
  · intro r' hr'
    rw [hstanding] at hr'
    obtain rfl := Option.some.inj hr'
    exact ⟨hne, hr⟩
  · intro _
    simp [hstanding]

/-- A deed that leaves the player where they are. -/
theorem Gated.placed_of_standing {q q' : Quest} (h : Gated q) (hp : Progress q q')
    (hstanding : q'.standing = q.standing) (hrptr : q'.rptr = q.rptr) : Placed q' := by
  constructor
  · intro r hr
    obtain ⟨hne, hguard⟩ := h.here r (hstanding.symm.trans hr)
    exact ⟨hne, hp.guard hguard⟩
  · rw [hrptr, hstanding]
    exact h.somewhere

theorem placed_deed {q q' : Quest} (h : Gated q) (hdeed : q.Deed q') : Placed q' := by
  have hp := progress_deed hdeed
  cases hdeed
  case follow r dest hr hlink =>
    obtain ⟨hne, hguard⟩ := h.follow hr hlink
    exact placed_goTo hne hguard
  case enterCleanroom hsuit => exact placed_goTo (by decide) hsuit
  case swipe395 => exact placed_goTo (by decide) trivial
  case swipeCsl => exact placed_goTo (by decide) trivial
  case pickLock hrobot => exact placed_goTo (by decide) (h.items.robot (by simp [hrobot]))
  case driveToAllerton hcar hgps => exact placed_goTo (by decide) ⟨hcar, by simp [hgps]⟩
  case driveToWillard hcar => exact placed_goTo (by decide) hcar
  case driveToCampus => exact placed_goTo (by decide) trivial
  case openInventory r hr hne =>
    have hguard := h.guard_of hr hne
    constructor
    · intro r' hr'
      obtain rfl : r = r' := by simpa [Quest.standing] using hr'
      exact ⟨hne, hp.guard hguard⟩
    · simp [Quest.standing]
  case closeInventory hr =>
    have hback : q.standing = q.enter .inventory := by rw [Quest.standing, if_pos hr]
    obtain ⟨r, hstanding⟩ := Option.ne_none_iff_exists'.mp (h.somewhere (by simp [hr]))
    obtain ⟨hne, hguard⟩ := h.here r hstanding
    rw [← hback, hstanding]
    exact placed_goTo hne hguard
  case win =>
    constructor
    · intro r hr
      simp [Quest.standing] at hr
    · simp
  case installMimo =>
    exact h.placed_of_standing hp (Quest.standing_openDoor _ (by decide)) (by simp)
  all_goals exact h.placed_of_standing hp (by simp) (by simp)

theorem mapped_deed {q q' : Quest} (h : Mapped q) (hdeed : q.Deed q') : Mapped q' := by
  obtain ⟨hleft, hright, henter, hdoor⟩ := h
  cases hdeed <;> constructor <;> grind

/-- **The invariant** is kept by every deed. -/
theorem gated_deed {q q' : Quest} (h : Gated q) (hdeed : q.Deed q') : Gated q' where
  mapped := mapped_deed h.mapped hdeed
  items := items_deed h hdeed
  here := (placed_deed h hdeed).here
  somewhere := (placed_deed h hdeed).somewhere

/-- The game is won only by `win`, and then all is accomplished. -/
theorem accomplished_deed {q q' : Quest} (h : Gated q) (hdeed : q.Deed q') (hq : q.rptr ≠ none)
    (hwon : q'.rptr = none) : Accomplished q' := by
  have hi := items_deed h hdeed
  cases hdeed
  case win hbook hmp2 htux => exact hi.accomplished hbook htux
  case closeInventory hr =>
    have hback : q.standing = q.enter .inventory := by rw [Quest.standing, if_pos hr]
    exact absurd (hback.trans hwon) (h.somewhere hq)
  all_goals simp_all

end MachineProblems.Analysis.Adventure
