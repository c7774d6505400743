import MachineProblems.Analysis.Adventure.Playing
import MachineProblems.Model.Repair

/-!
# One thing, several objects

The battery is three objects, the robot and the receiver are two each, and the commands switch
between them in separate steps.  The stage of the repair says which of the three is there, and
which photo hangs at the car site.
-/

set_option autoImplicit false

namespace MachineProblems.Analysis.Adventure

open MachineProblems.Library MachineProblems.Program.Adventure MachineProblems.Program.PhotoFile
  MachineProblems.Model

/-! ## The objects -/

/-- Of two objects exactly one is somewhere. -/
def OneOf (loc : ObjId → Option RoomId) (a b : ObjId) : Prop := (loc a).isSome = !(loc b).isSome

/-- The places of the objects and the flags are those of a stage of the repair. -/
structure Forms (loc : ObjId → Option RoomId) (flag : Flag → Bool) (s : Stage) : Prop where
  battery : ∀ b, (loc (Battery.obj b)).isSome = s.holds b
  inCar : loc .battCar = none ∨ loc .battCar = some .carSite
  carOpen : flag .carOpen = s.isOpen
  carFixed : flag .carFixed = s.isFixed
  robot : OneOf loc .robotDead .robotLive
  gps : OneOf loc .gpsBad .gpsGood

section Forms

variable {loc : ObjId → Option RoomId} {flag : Flag → Bool} {s : Stage} (h : Forms loc flag s)
include h

/-- The battery is in the form that is found somewhere. -/
theorem Forms.stage_of {b : Battery} (hb : loc b.obj ≠ none) : s = .opened b := by
  have hsome := h.battery b
  rw [Option.isSome_iff_ne_none.mpr hb] at hsome
  exact of_decide_eq_true hsome.symm

/-- The objects that stand for a form of some thing. -/
def formObjects : List ObjId :=
  [.battCar, .battEmpty, .battFull, .robotDead, .robotLive, .gpsBad, .gpsGood]

theorem Forms.of_isSome {loc' : ObjId → Option RoomId}
    (hsome : ∀ o ∈ formObjects, (loc' o).isSome = (loc o).isSome)
    (hcar : loc' .battCar = loc .battCar) : Forms loc' flag s where
  battery := by
    intro b
    rw [← h.battery b]
    cases b with
    | inCar => exact hsome .battCar (by decide)
    | empty => exact hsome .battEmpty (by decide)
    | full => exact hsome .battFull (by decide)
  inCar := by
    rw [hcar]
    exact h.inCar
  carOpen := h.carOpen
  carFixed := h.carFixed
  robot := by
    unfold OneOf
    rw [hsome .robotDead (by decide), hsome .robotLive (by decide)]
    exact h.robot
  gps := by
    unfold OneOf
    rw [hsome .gpsBad (by decide), hsome .gpsGood (by decide)]
    exact h.gps

/-- An object that was somewhere is brought somewhere else. -/
theorem Forms.move {o : ObjId} {r : RoomId} (ho : loc o = some r) (hcar : o ≠ .battCar)
    (dest : RoomId) : Forms (Function.update loc o (some dest)) flag s := by
  apply h.of_isSome
  · intro a _
    by_cases ha : a = o
    · subst ha
      simp [ho]
    · simp [ha]
  · simp [hcar.symm]

/-- The other objects come and go. -/
theorem Forms.plain {o : ObjId} (ho : o ∉ formObjects) (dest : Option RoomId) :
    Forms (Function.update loc o dest) flag s := by
  have hne : ∀ a ∈ formObjects, a ≠ o := by
    rintro a ha rfl
    exact ho ha
  apply h.of_isSome
  · intro a ha
    simp [hne a ha]
  · simp [hne .battCar (by decide)]

theorem Forms.raise {f : Flag} (hopen : f ≠ .carOpen) (hfixed : f ≠ .carFixed) :
    Forms loc (Function.update flag f true) s where
  battery := h.battery
  inCar := h.inCar
  carOpen := by
    rw [Function.update_of_ne hopen.symm]
    exact h.carOpen
  carFixed := by
    rw [Function.update_of_ne hfixed.symm]
    exact h.carFixed
  robot := h.robot
  gps := h.gps

theorem Forms.flashRobot (dest : RoomId) :
    Forms (Function.update (Function.update loc .robotDead none) .robotLive (some dest))
      flag s where
  battery := by
    intro b
    rw [← h.battery b]
    cases b <;> simp [Battery.obj]
  inCar := by simpa using h.inCar
  carOpen := h.carOpen
  carFixed := h.carFixed
  robot := by simp [OneOf]
  gps := by simpa [OneOf] using h.gps

theorem Forms.fixGps (dest : RoomId) :
    Forms (Function.update (Function.update (Function.update loc .gpsBad none) .gpsSpec none)
      .gpsGood (some dest)) flag s where
  battery := by
    intro b
    rw [← h.battery b]
    cases b <;> simp [Battery.obj]
  inCar := by simpa using h.inCar
  carOpen := h.carOpen
  carFixed := h.carFixed
  robot := by simpa [OneOf] using h.robot
  gps := by simp [OneOf]

/-- The battery and the car have changed, the robot and the receiver have not. -/
theorem Forms.advance {loc' : ObjId → Option RoomId} {flag' : Flag → Bool} {s' : Stage}
    (hbattery : ∀ b, (loc' (Battery.obj b)).isSome = s'.holds b)
    (hcar : loc' .battCar = none ∨ loc' .battCar = some .carSite)
    (hopen : flag' .carOpen = s'.isOpen) (hfixed : flag' .carFixed = s'.isFixed)
    (hothers : ∀ o ∈ [ObjId.robotDead, .robotLive, .gpsBad, .gpsGood], loc' o = loc o) :
    Forms loc' flag' s' where
  battery := hbattery
  inCar := hcar
  carOpen := hopen
  carFixed := hfixed
  robot := by
    unfold OneOf
    rw [hothers .robotDead (by decide), hothers .robotLive (by decide)]
    exact h.robot
  gps := by
    unfold OneOf
    rw [hothers .gpsBad (by decide), hothers .gpsGood (by decide)]
    exact h.gps

/-- The car was never opened, and no form of the battery is there. -/
theorem Forms.useCar (hopen : flag .carOpen = false) :
    s = .shut ∧ Forms (Function.update (Function.update loc .carKey none) .battCar
      (some .carSite)) (Function.update flag .carOpen true) (.opened .inCar) := by
  have hshut : s = .shut := by
    have hflag := h.carOpen
    rw [hopen] at hflag
    cases s with
    | shut => rfl
    | opened b => cases hflag
    | fixed => cases hflag
  subst hshut
  have hempty := h.battery .empty
  have hfull := h.battery .full
  have hfixed : flag .carFixed = false := h.carFixed
  refine ⟨rfl, h.advance ?_ (by simp) (by simp [Stage.isOpen]) (by simp [Stage.isFixed, hfixed])
    (by simp)⟩
  intro b
  cases b with
  | inCar => simp [Battery.obj, Stage.holds]
  | empty => simpa [Battery.obj, Stage.holds] using hempty
  | full => simpa [Battery.obj, Stage.holds] using hfull

theorem Forms.unplugBattery (hbatt : loc .battCar = some .carSite) (dest : RoomId) :
    s = .opened .inCar ∧ Forms (Function.update (Function.update loc .battCar none) .battEmpty
      (some dest)) flag (.opened .empty) := by
  obtain rfl : s = .opened .inCar := h.stage_of (b := .inCar) (by simp [Battery.obj, hbatt])
  have hfull := h.battery .full
  refine ⟨rfl, h.advance ?_ (by simp) h.carOpen h.carFixed (by simp)⟩
  intro b
  cases b with
  | inCar => simp [Battery.obj, Stage.holds]
  | empty => simp [Battery.obj, Stage.holds]
  | full => simpa [Battery.obj, Stage.holds] using hfull

theorem Forms.charge (hempty : loc .battEmpty ≠ none) (dest : RoomId) :
    s = .opened .empty ∧ Forms (Function.update (Function.update loc .battEmpty none) .battFull
      (some dest)) flag (.opened .full) := by
  obtain rfl : s = .opened .empty := h.stage_of (b := .empty) hempty
  have hcar := h.battery .inCar
  refine ⟨rfl, h.advance ?_ (by simpa using h.inCar) h.carOpen h.carFixed (by simp)⟩
  intro b
  cases b with
  | inCar => simpa [Battery.obj, Stage.holds] using hcar
  | empty => simp [Battery.obj, Stage.holds]
  | full => simp [Battery.obj, Stage.holds]

theorem Forms.installBattery (hfull : loc .battFull ≠ none) :
    s = .opened .full ∧ Forms (Function.update loc .battFull none)
      (Function.update flag .carFixed true) .fixed := by
  obtain rfl : s = .opened .full := h.stage_of (b := .full) hfull
  have hcar := h.battery .inCar
  have hempty := h.battery .empty
  have hopen : flag .carOpen = true := h.carOpen
  refine ⟨rfl, h.advance ?_ (by simpa using h.inCar) (by simp [Stage.isOpen, hopen])
    (by simp [Stage.isFixed]) (by simp)⟩
  intro b
  cases b with
  | inCar => simpa [Battery.obj, Stage.holds] using hcar
  | empty => simpa [Battery.obj, Stage.holds] using hempty
  | full => simp [Battery.obj, Stage.holds]

end Forms

/-- **A deed takes the repair one step further**, or leaves it where it is. -/
theorem forms_deed {q q' : Quest} {s : Stage} (h : Forms q.loc q.flag s) (hdeed : q.Deed q') :
    ∃ s', s.Next s' ∧ Forms q'.loc q'.flag s' := by
  have hstays : Forms q'.loc q'.flag s → ∃ s', s.Next s' ∧ Forms q'.loc q'.flag s' :=
    fun h' => ⟨s, .stay s, h'⟩
  cases hdeed
  case get o r hr ho hcar htux =>
    apply hstays
    refine h.move ho ?_ .inventory
    -- the battery leaves the car only in its second form
    rintro rfl
    rcases h.inCar with hnone | hsite
    · rw [hnone] at ho
      cases ho
    · exact hcar rfl (Option.some.inj (ho.symm.trans hsite))
  case drop o r hr ho =>
    apply hstays
    refine h.move ho ?_ r
    rintro rfl
    rcases h.inCar with hnone | hsite
    · rw [hnone] at ho
      cases ho
    · rw [hsite] at ho
      cases ho
  case borrowC => exact hstays (h.plain (by decide) _)
  case borrowWode => exact hstays (h.plain (by decide) _)
  case buyDew => exact hstays (h.plain (by decide) _)
  case drinkDew => exact hstays (h.plain (by decide) _)
  case eat => exact hstays (h.raise (by decide) (by decide))
  case wearSuit => exact hstays ((h.plain (by decide) _).raise (by decide) (by decide))
  case installMimo => exact hstays (h.plain (by decide) _)
  case useFish =>
    apply hstays
    exact ((h.plain (by decide) _).plain (by decide) _).raise (by decide) (by decide)
  case fixGps => exact hstays (h.fixGps _)
  case flashRobot => exact hstays (h.flashRobot _)
  case unplugBattery hr hbatt =>
    obtain ⟨rfl, h'⟩ := h.unplugBattery hbatt .inventory
    exact ⟨_, .unplug, h'⟩
  case useCar hr hfixed hopen hkey =>
    obtain ⟨rfl, h'⟩ := h.useCar hopen
    exact ⟨_, .openHood, h'⟩
  case charge hr hempty =>
    obtain ⟨rfl, h'⟩ := h.charge (atHand_ne_none hr hempty) .inventory
    exact ⟨_, .charge, h'⟩
  case installBattery hr hfull =>
    obtain ⟨rfl, h'⟩ := h.installBattery (atHand_ne_none hr hfull)
    exact ⟨_, .install, h'⟩
  all_goals exact hstays h

theorem forms_start : Forms startingPlace (fun _ => false) .shut := by
  refine ⟨?_, Or.inl (by decide), rfl, rfl, ?_, ?_⟩
  · intro b
    cases b <;> decide
  · unfold OneOf
    decide
  · unfold OneOf
    decide

/-! ## The photo of the car site -/

def closedHood : String := "images/carclosed.photo"

def openHood : String := "images/caropen.photo"

/-- The car is open and not fixed. -/
def Car.hoodUp (c : Car) : Bool := c.opened && !c.fixed

/-- The photo shown is that of the hood as it is, the spare one is the other. -/
structure Hooded (disk : Disk) (c : Car) : Prop where
  view : c.view = disk.readPhoto (if c.hoodUp then openHood else closedHood)
  spare : c.spare = disk.readPhoto (if c.hoodUp then closedHood else openHood)

/-- **The swaps keep pace with the hood**: a full battery is there only while it is up. -/
theorem hooded_step {disk : Disk} {w : World} {c : Car} (h : Hooded disk (car w))
    (hstep : CarStep w c) (hup : loc w .battFull ≠ none → (car w).hoodUp) : Hooded disk c := by
  obtain ⟨hview, hspare⟩ := h
  cases hstep with
  | keep hc =>
      rw [hc]
      exact ⟨hview, hspare⟩
  | opens hopened hfixed hc =>
      have hdown : (car w).hoodUp = false := by simp [Car.hoodUp, hopened]
      rw [hdown] at hview hspare
      rw [hc]
      exact ⟨hspare, hview⟩
  | mends hfull hc =>
      rw [hup hfull] at hview hspare
      rw [hc]
      have hdown : Car.hoodUp ⟨(car w).spare, (car w).view, (car w).opened, true⟩ = false := by
        simp [Car.hoodUp]
      constructor
      · rw [hdown]
        exact hspare
      · rw [hdown]
        exact hview

/-! ## Runs -/

/-- The objects, the flags and the photo agree on the stage of the repair. -/
structure Repairing (disk : Disk) (w : World) (s : Stage) : Prop where
  sound : Sound (OnDisk disk) w
  forms : Forms (loc w) (playerFlagIsSet w) s
  hooded : Hooded disk (car w)

theorem Repairing.hoodUp {disk : Disk} {w : World} {s : Stage} (h : Repairing disk w s) :
    (car w).hoodUp = (s.isOpen && !s.isFixed) := by
  unfold Car.hoodUp car
  rw [h.forms.carOpen, h.forms.carFixed]

theorem Built.repairing {disk : Disk} {w : World} (h : Built disk w) :
    Repairing disk w .shut where
  sound := h.sound
  forms := by
    have hflag : playerFlagIsSet w = fun _ => false := funext h.flag
    rw [h.loc, hflag]
    exact forms_start
  hooded := by
    have hdown : (car w).hoodUp = false := by
      simp [Car.hoodUp, car, h.flag]
    have hsite : ∀ d ∈ roomData, d.id = .carSite → d.filename = closedHood := by decide
    obtain ⟨d, hd, hid⟩ := mem_roomData .carSite
    have hview := h.view d hd
    rw [hid, hsite d hd hid] at hview
    constructor
    · rw [hdown]
      exact hview
    · rw [hdown]
      exact h.swapPhoto (.car, openHood) (by decide)

/-- **One call**, wherever it is made, takes the repair one step further at most. -/
theorem perform_repairing {disk : Disk} {w : World} {s : Stage} (h : Repairing disk w s)
    {call : Call} {r : RoomId} {out : Outcome} (hrun : perform call w r = some out) :
    ∃ s', s.Next s' ∧ Repairing disk out.world s' := by
  have hfollows := perform_follows h.sound hrun
  have hforms : Forms (quest w (some r)).loc (quest w (some r)).flag s := h.forms
  obtain ⟨s', hnext, hforms'⟩ := forms_deed hforms hfollows.deed
  refine ⟨s', hnext, hfollows.sound, hforms', hooded_step h.hooded hfollows.car ?_⟩
  intro hfull
  rw [h.hoodUp, h.forms.stage_of (b := .full) hfull]
  rfl

theorem callStep_repairing {disk : Disk} (w : World) (call : Call × RoomId) (w' : World)
    (h : ∃ s, Repairing disk w s) (hstep : callStep w call = some w') :
    ∃ s, Repairing disk w' s := by
  obtain ⟨s, hs⟩ := h
  obtain ⟨out, hrun, rfl⟩ := Option.map_eq_some_iff.mp hstep
  obtain ⟨s', -, hs'⟩ := perform_repairing hs hrun
  exact ⟨s', hs'⟩

theorem playStep_repairing {disk : Disk} (p : Play) (call : Call) (p' : Play)
    (h : ∃ s, Repairing disk p.world s) (hstep : playStep p call = some p') :
    ∃ s, Repairing disk p'.world s := by
  obtain ⟨w, rptr⟩ := p
  cases rptr with
  | none =>
      obtain rfl := Option.some.inj hstep
      exact h
  | some r =>
      obtain ⟨out, hrun, rfl⟩ := Option.map_eq_some_iff.mp hstep
      exact callStep_repairing w (call, r) out.world h (congrArg (Option.map _) hrun)

/-! ## Exclusive forms -/

/-- What the world says of the things that several objects stand for. -/
structure Exclusive (disk : Disk) (w : World) : Prop where
  battery : ∀ a b : Battery, (w.object a.obj).loc ≠ none → (w.object b.obj).loc ≠ none → a = b
  robot : (w.object .robotDead).loc ≠ none ↔ (w.object .robotLive).loc = none
  gps : (w.object .gpsBad).loc ≠ none ↔ (w.object .gpsGood).loc = none
  present : (∃ b : Battery, (w.object b.obj).loc ≠ none) ↔
    playerFlagIsSet w .carOpen ∧ ¬ playerFlagIsSet w .carFixed
  inCar : (w.object .battCar).loc = none ∨ (w.object .battCar).loc = some .carSite
  fixed : playerFlagIsSet w .carFixed → playerFlagIsSet w .carOpen
  hood : (w.room .carSite).view = disk.readPhoto
    (if playerFlagIsSet w .carOpen ∧ ¬ playerFlagIsSet w .carFixed then openHood else closedHood)
  hood_iff : disk.readPhoto openHood ≠ disk.readPhoto closedHood →
    ((w.room .carSite).view = disk.readPhoto openHood ↔
      playerFlagIsSet w .carOpen ∧ ¬ playerFlagIsSet w .carFixed)

theorem OneOf.iff {loc : ObjId → Option RoomId} {a b : ObjId} (h : OneOf loc a b) :
    loc a ≠ none ↔ loc b = none := by
  rw [← Option.isSome_iff_ne_none, h, Bool.not_eq_true', Option.isSome_eq_false_iff,
    Option.isNone_iff_eq_none]

theorem Repairing.exclusive {disk : Disk} {w : World} {s : Stage} (h : Repairing disk w s) :
    Exclusive disk w where
  battery := by
    intro a b ha hb
    have hstage := (h.forms.stage_of ha).symm.trans (h.forms.stage_of hb)
    exact Stage.opened.inj hstage
  robot := h.forms.robot.iff
  gps := h.forms.gps.iff
  present := by
    rw [h.forms.carOpen, h.forms.carFixed, ← s.exists_holds_iff]
    apply exists_congr
    intro b
    rw [← h.forms.battery b, Option.isSome_iff_ne_none]
    rfl
  inCar := h.forms.inCar
  fixed := by
    rw [h.forms.carOpen, h.forms.carFixed]
    exact Stage.isOpen_of_isFixed
  hood := by
    have hview := h.hooded.view
    simpa [Car.hoodUp, car] using hview
  hood_iff := by
    intro hne
    have hview : (w.room .carSite).view = _ := h.hooded.view
    have hup : (car w).hoodUp = true ↔
        playerFlagIsSet w .carOpen ∧ ¬ playerFlagIsSet w .carFixed := by
      simp [Car.hoodUp, car]
    rw [hview, ← hup]
    cases (car w).hoodUp with
    | true => simp
    | false => simp [hne.symm]

variable {disk : Disk} {rands : ℕ → ℕ}

/-- **At most one form of each thing**, and the photo of the car site to match, in every world
that calls make of a built world, and after every game of a player. -/
theorem forms_exclusive {w₀ : World} (hbuild : buildWorld disk rands = some w₀) :
    (∀ calls w, run callStep w₀ calls = some w → Exclusive disk w) ∧
      ∀ calls, ∃ p, run playStep ⟨w₀, some startInRoom⟩ calls = some p ∧
        Exclusive disk p.world := by
  have hstart := (buildWorld_built hbuild).repairing
  constructor
  · intro calls w hrun
    obtain ⟨s, hs⟩ := run_invariant callStep_repairing ⟨_, hstart⟩ hrun
    exact hs.exclusive
  · intro calls
    obtain ⟨p, hrun, -⟩ := play_run hbuild calls
    have hp : ∃ s, Repairing disk p.world s :=
      run_invariant (I := fun p : Play => ∃ s, Repairing disk p.world s) playStep_repairing
        ⟨_, hstart⟩ hrun
    obtain ⟨s, hs⟩ := hp
    exact ⟨p, hrun, hs.exclusive⟩

theorem forms_exclusive_carOpened : ∃ w₀, buildWorld blankDisk (fun _ => 0) = some w₀ ∧
    ∃ w, run callStep w₀ [(.typed .get "key".toList, .caribou),
        (.typed .use "car".toList, .carSite)] = some w ∧
      playerFlagIsSet w .carOpen ∧ Exclusive blankDisk w := by
  obtain ⟨w₀, hbuild⟩ := buildWorld_blankDisk
  have hopens : ((buildWorld blankDisk fun _ => 0).bind fun w =>
      (run callStep w [(.typed .get "key".toList, .caribou),
        (.typed .use "car".toList, .carSite)]).map fun w => playerFlagIsSet w .carOpen) =
      some true := by
    decide +kernel
  rw [hbuild, Option.bind_some] at hopens
  obtain ⟨w, hrun, hopen⟩ := Option.map_eq_some_iff.mp hopens
  exact ⟨w₀, hbuild, w, hrun, hopen, (forms_exclusive hbuild).1 _ w hrun⟩

end MachineProblems.Analysis.Adventure
