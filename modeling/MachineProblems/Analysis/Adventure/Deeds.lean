import MachineProblems.Analysis.Adventure.Moving
import MachineProblems.Model.Quest

/-!
# Commands are deeds

Each command of the game, on a world whose lists and photos are in order, keeps them in order,
does to the quest what some deed does, and returns an action that tells what has changed.
-/

set_option autoImplicit false

namespace MachineProblems.Analysis.Adventure

open MachineProblems.Library MachineProblems.Program.Adventure MachineProblems.Program.PhotoFile
  MachineProblems.Model

/-! ## The quest of a world -/

/-- What the world and the player's room say of the quest. -/
def quest (w : World) (rptr : Option RoomId) : Quest where
  rptr := rptr
  loc := loc w
  flag := playerFlagIsSet w
  left := fun r => (w.room r).left
  enter := fun r => (w.room r).enter
  right := fun r => (w.room r).right

/-- What the world shows of the car: the photo of its site, the photo to swap it with, and the
two flags. -/
structure Car where
  view : Option Photo
  spare : Option Photo
  opened : Bool
  fixed : Bool

def car (w : World) : Car where
  view := (w.room .carSite).view
  spare := w.swapPhoto .car
  opened := playerFlagIsSet w .carOpen
  fixed := playerFlagIsSet w .carFixed

/-- The lists are in order and everything that is needed for drawing is there. -/
structure Sound (P : Photo → Prop) (w : World) : Prop where
  contained : ∃ s, Contained w s
  furnished : Furnished P w

/-- `w'` is `w` with `o` brought to `dest`. -/
structure Brings (P : Photo → Prop) (w w' : World) (o : ObjId) (dest : Option RoomId) :
    Prop where
  sound : Sound P w'
  quest : ∀ rptr, quest w' rptr = (quest w rptr).bring o dest
  view : ∀ r, (w'.room r).view = (w.room r).view
  car : car w' = car w

theorem car_of_scenery {w w' : World} (hs : scenery w' = scenery w) : car w' = car w := by
  unfold car playerFlagIsSet
  rw [view_of_scenery hs, swapPhoto_of_scenery hs, playerFlags_of_scenery hs]

theorem quest_moved {w w' : World} {o : ObjId} {dest : Option RoomId} (h : Moved w w' o dest)
    (rptr : Option RoomId) : quest w' rptr = (quest w rptr).bring o dest := by
  have hflag : playerFlagIsSet w' = playerFlagIsSet w := by
    funext f
    unfold playerFlagIsSet
    rw [playerFlags_of_scenery h.scenery]
  unfold quest Quest.bring
  simp only [h.loc, hflag, left_of_scenery h.scenery, enter_of_scenery h.scenery,
    right_of_scenery h.scenery]

section Brings

variable {P : Photo → Prop} {w : World}

theorem Moved.brings {w' : World} {s : Shelves RoomId ObjId} {o : ObjId} {dest : Option RoomId}
    (hf : Furnished P w) (h : Moved w w' o dest) (hc : Contained w' s) : Brings P w w' o dest where
  sound := ⟨⟨s, hc⟩, hf.of_scenery h.scenery⟩
  quest := quest_moved h
  view := view_of_scenery h.scenery
  car := car_of_scenery h.scenery

theorem removeObject_brings (h : Sound P w) (o : ObjId) :
    ∃ w', removeObject w o = some w' ∧ Brings P w w' o none := by
  obtain ⟨⟨s, hs⟩, hf⟩ := h
  obtain ⟨w', hrun, hmoved, hc⟩ := removeObject_spec hs o
  exact ⟨w', hrun, hmoved.brings hf hc⟩

theorem insertObjectAt_brings (h : Sound P w) (o : ObjId) (r : RoomId) (x y : ℤ) :
    ∃ w', insertObjectAt w o r x y = some w' ∧ Brings P w w' o (some r) := by
  obtain ⟨⟨s, hs⟩, hf⟩ := h
  obtain ⟨w', hrun, hmoved, hc, -⟩ := insertObjectAt_spec hs o r x y
  exact ⟨w', hrun, hmoved.brings hf hc⟩

theorem insertObject_brings (h : Sound P w) (o : ObjId) (r : RoomId) :
    ∃ w', insertObject w o r = some w' ∧ Brings P w w' o (some r) := by
  obtain ⟨⟨s, hs⟩, hf⟩ := h
  obtain ⟨w', hrun, hmoved, hc⟩ := insertObject_spec hf hs o r
  exact ⟨w', hrun, hmoved.brings hf hc⟩

theorem moveObjectToInventory_brings (h : Sound P w) (o : ObjId) :
    ∃ w', moveObjectToInventory w o = some w' ∧ Brings P w w' o (some .inventory) := by
  obtain ⟨⟨s, hs⟩, hf⟩ := h
  obtain ⟨w', hrun, hmoved, hc, -⟩ := moveObjectToInventory_spec hf hs o
  exact ⟨w', hrun, hmoved.brings hf hc⟩

end Brings

/-! ## What the other changes do -/

theorem Contained.of_contents {w w' : World} {s : Shelves RoomId ObjId} (h : Contained w s)
    (hroom : ∀ r, (w'.room r).contents = (w.room r).contents) (hobject : w'.object = w.object) :
    Contained w' s where
  lists := by
    intro r
    unfold Lists
    rw [hroom]
    exact (h.lists r).congr fun o _ => by rw [hobject]
  agrees := by
    have hloc : loc w' = loc w := by
      funext o
      rw [loc, hobject, loc]
    rw [hloc]
    exact h.agrees

section Changes

variable {P : Photo → Prop} {w : World}

theorem Sound.of_sameBut {w' : World} (h : Sound P w) (hw : SameBut w w') : Sound P w' := by
  obtain ⟨s, hs⟩ := h.contained
  refine ⟨⟨s, hs.of_sameBut hw⟩, ?_⟩
  obtain ⟨rands, msg, rfl⟩ := hw
  exact h.furnished.of_scenery rfl

theorem quest_sameBut {w' : World} (hw : SameBut w w') (rptr : Option RoomId) :
    quest w' rptr = quest w rptr := by
  obtain ⟨rands, msg, rfl⟩ := hw
  rfl

theorem view_sameBut {w' : World} (hw : SameBut w w') (r : RoomId) :
    (w'.room r).view = (w.room r).view := by
  obtain ⟨rands, msg, rfl⟩ := hw
  rfl

theorem car_sameBut {w' : World} (hw : SameBut w w') : car w' = car w := by
  obtain ⟨rands, msg, rfl⟩ := hw
  rfl

theorem playerFlagIsSet_eq (w : World) (f : Flag) :
    playerFlagIsSet w f = w.playerFlags.getLsbD (fnum f) := by
  have hand : w.playerFlags &&& (1#32 <<< fnum f) =
      if w.playerFlags.getLsbD (fnum f) then 1#32 <<< fnum f else 0#32 :=
    BitVec.and_twoPow w.playerFlags (fnum f)
  have hne : (1#32 <<< fnum f != 0) = true := by
    cases f <;> decide
  unfold playerFlagIsSet
  rw [hand]
  cases w.playerFlags.getLsbD (fnum f) with
  | true => exact hne
  | false => rfl

/-- A bit that is set stays set, and no other bit changes. -/
theorem playerFlagIsSet_playerSetFlag (w : World) (f g : Flag) :
    playerFlagIsSet (playerSetFlag w f) g = if g = f then true else playerFlagIsSet w g := by
  have hbit : (1#32 <<< fnum f).getLsbD (fnum g) = decide (g = f) := by
    cases f <;> cases g <;> decide
  rw [playerFlagIsSet_eq, playerFlagIsSet_eq]
  unfold playerSetFlag
  rw [BitVec.getLsbD_or, hbit]
  by_cases hgf : g = f
  · simp [hgf]
  · simp [hgf]

theorem quest_playerSetFlag (w : World) (f : Flag) (rptr : Option RoomId) :
    quest (playerSetFlag w f) rptr = (quest w rptr).raise f := by
  have hflag : playerFlagIsSet (playerSetFlag w f) =
      Function.update (playerFlagIsSet w) f true := by
    funext g
    rw [playerFlagIsSet_playerSetFlag, Function.update_apply]
  unfold quest Quest.raise
  rw [hflag]
  rfl

theorem car_playerSetFlag (w : World) (f : Flag) : car (playerSetFlag w f) = { car w with
    opened := if .carOpen = f then true else (car w).opened
    fixed := if .carFixed = f then true else (car w).fixed } := by
  unfold car
  rw [playerFlagIsSet_playerSetFlag, playerFlagIsSet_playerSetFlag]
  rfl

theorem Sound.playerSetFlag (h : Sound P w) (f : Flag) : Sound P (playerSetFlag w f) := by
  obtain ⟨s, hs⟩ := h.contained
  exact ⟨⟨s, hs.of_contents (fun _ => rfl) rfl⟩, h.furnished.view, h.furnished.swapPhoto,
    h.furnished.name, h.furnished.img⟩

theorem quest_doPhotoSwap (w : World) (r : RoomId) (which : Swap) (rptr : Option RoomId) :
    quest (doPhotoSwap w r which) rptr = quest w rptr := by
  have hroom : ∀ a, ((doPhotoSwap w r which).room a).left = (w.room a).left ∧
      ((doPhotoSwap w r which).room a).enter = (w.room a).enter ∧
      ((doPhotoSwap w r which).room a).right = (w.room a).right := by
    intro a
    by_cases ha : a = r
    · subst ha
      simp [doPhotoSwap]
    · simp [doPhotoSwap, ha]
  have hleft := fun a => (hroom a).1
  have henter := fun a => (hroom a).2.1
  have hright := fun a => (hroom a).2.2
  unfold quest
  simp only [hleft, henter, hright]
  rfl

theorem car_doPhotoSwap (w : World) : car (doPhotoSwap w .carSite .car) =
    { car w with view := (car w).spare, spare := (car w).view } := by
  have hview : ((doPhotoSwap w .carSite .car).room .carSite).view = w.swapPhoto .car := by
    simp [doPhotoSwap]
  have hspare : (doPhotoSwap w .carSite .car).swapPhoto .car = (w.room .carSite).view := by
    simp [doPhotoSwap]
  unfold car
  rw [hview, hspare]
  rfl

theorem car_doPhotoSwap_circle (w : World) : car (doPhotoSwap w .circleN .circle) = car w := by
  have hview : ((doPhotoSwap w .circleN .circle).room .carSite).view =
      (w.room .carSite).view := by
    simp [doPhotoSwap]
  have hspare : (doPhotoSwap w .circleN .circle).swapPhoto .car = w.swapPhoto .car := by
    simp [doPhotoSwap]
  unfold car
  rw [hview, hspare]
  rfl

theorem Sound.doPhotoSwap (h : Sound P w) (r : RoomId) (which : Swap) :
    Sound P (doPhotoSwap w r which) := by
  obtain ⟨s, hs⟩ := h.contained
  refine ⟨⟨s, hs.of_contents ?_ rfl⟩, ?_, ?_, h.furnished.name, h.furnished.img⟩
  · intro a
    by_cases ha : a = r
    · subst ha
      simp [Program.Adventure.doPhotoSwap]
    · simp [Program.Adventure.doPhotoSwap, ha]
  · intro a
    by_cases ha : a = r
    · subst ha
      simpa [Program.Adventure.doPhotoSwap] using h.furnished.swapPhoto which
    · simpa [Program.Adventure.doPhotoSwap, ha] using h.furnished.view a
  · intro a
    by_cases ha : a = which
    · subst ha
      simpa [Program.Adventure.doPhotoSwap] using h.furnished.view r
    · simpa [Program.Adventure.doPhotoSwap, ha] using h.furnished.swapPhoto a

/-- Setting the `enter` link of a room. -/
def setEnter (w : World) (r dest : RoomId) : World :=
  w.setRoom r { w.room r with enter := some dest }

theorem quest_setEnter (w : World) (r dest : RoomId) (rptr : Option RoomId) :
    quest (setEnter w r dest) rptr = (quest w rptr).openDoor r dest := by
  have hroom : ∀ a, ((setEnter w r dest).room a).left = (w.room a).left ∧
      ((setEnter w r dest).room a).right = (w.room a).right := by
    intro a
    by_cases ha : a = r
    · subst ha
      simp [setEnter]
    · simp [setEnter, ha]
  have henter : (fun a => ((setEnter w r dest).room a).enter) =
      Function.update (fun a => (w.room a).enter) r (some dest) := by
    funext a
    by_cases ha : a = r
    · subst ha
      simp [setEnter]
    · simp [setEnter, ha]
  have hleft := fun a => (hroom a).1
  have hright := fun a => (hroom a).2
  unfold quest Quest.openDoor
  simp only [hleft, henter, hright]
  rfl

theorem view_setEnter (w : World) (r dest a : RoomId) :
    ((setEnter w r dest).room a).view = (w.room a).view := by
  by_cases ha : a = r
  · subst ha
    simp [setEnter]
  · simp [setEnter, ha]

theorem car_setEnter (w : World) (r dest : RoomId) : car (setEnter w r dest) = car w := by
  unfold car
  rw [view_setEnter]
  rfl

theorem Sound.setEnter (h : Sound P w) (r dest : RoomId) : Sound P (setEnter w r dest) := by
  obtain ⟨s, hs⟩ := h.contained
  have hview : ∀ a, ((Adventure.setEnter w r dest).room a).view = (w.room a).view ∧
      ((Adventure.setEnter w r dest).room a).contents = (w.room a).contents := by
    intro a
    by_cases ha : a = r
    · subst ha
      simp [Adventure.setEnter]
    · simp [Adventure.setEnter, ha]
  refine ⟨⟨s, hs.of_contents (fun a => (hview a).2) rfl⟩, ?_, h.furnished.swapPhoto,
    h.furnished.name, h.furnished.img⟩
  intro a
  rw [(hview a).1]
  exact h.furnished.view a

end Changes

/-! ## What a command may answer -/

/-- What a command makes of the car: nothing, or it is opened, or it is mended with a full
battery; the last two swap the photo. -/
inductive CarStep (w : World) (c : Car) : Prop
  | keep (h : c = car w)
  | opens (hopened : (car w).opened = false) (hfixed : (car w).fixed = false)
      (h : c = ⟨(car w).spare, (car w).view, true, false⟩)
  | mends (hfull : loc w .battFull ≠ none)
      (h : c = ⟨(car w).spare, (car w).view, (car w).opened, true⟩)

/-- The outcome of a command in the room `r`: order is kept, the quest moves by a deed, and the
action is true. -/
structure Follows (P : Photo → Prop) (w : World) (r : RoomId) (out : Outcome) : Prop where
  sound : Sound P out.world
  deed : (quest w (some r)).Deed (quest out.world out.rptr)
  quiet : out.action = .allowEdit ∨ out.action = .discardText →
    out.rptr = some r ∧ out.world.room = w.room ∧ out.world.object = w.object ∧
      out.world.swapPhoto = w.swapPhoto
  redraw : out.action = .redrawRoom →
    out.rptr = some r ∧ ∀ a, (out.world.room a).view = (w.room a).view
  car : CarStep w (car out.world)

/-- The command does not fault, and its outcome is as it should be. -/
def Answers (P : Photo → Prop) (w : World) (r : RoomId) (result : Option Outcome) : Prop :=
  ∃ out, result = some out ∧ Follows P w r out

section Answers

variable {P : Photo → Prop} {w w' : World} {r : RoomId}

theorem answers_ite {c : Prop} [Decidable c] {t e : Option Outcome}
    (ht : c → Answers P w r t) (he : ¬ c → Answers P w r e) :
    Answers P w r (if c then t else e) := by
  split
  · next hc => exact ht hc
  · next hc => exact he hc

/-- Only the message, the flags and the random numbers changed. -/
theorem answers_quiet (h : Sound P w') (hdeed : (quest w (some r)).Deed (quest w' (some r)))
    (hroom : w'.room = w.room) (hobject : w'.object = w.object)
    (hswap : w'.swapPhoto = w.swapPhoto) (hcar : CarStep w (car w')) (s : String) {a : TcAction}
    (ha : a = .allowEdit ∨ a = .discardText) : Answers P w r (stay w' r s a) := by
  have hsame := sameBut_showStatus w' s
  refine ⟨_, rfl, h.of_sameBut hsame, ?_, ?_, ?_, hcar⟩
  · rw [quest_sameBut hsame]
    exact hdeed
  · exact fun _ => ⟨rfl, hroom, hobject, hswap⟩
  · rintro rfl
    rcases ha with ha | ha <;> cases ha

theorem answers_deny (h : Sound P w) (s : String) : Answers P w r (stay w r s .allowEdit) :=
  answers_quiet h .idle rfl rfl rfl (.keep rfl) s (Or.inl rfl)

theorem answers_discard (h : Sound P w) (s : String) :
    Answers P w r (stay w r s .discardText) :=
  answers_quiet h .idle rfl rfl rfl (.keep rfl) s (Or.inr rfl)

theorem answers_redraw (h : Sound P w') (hdeed : (quest w (some r)).Deed (quest w' (some r)))
    (hview : ∀ a, (w'.room a).view = (w.room a).view) (hcar : CarStep w (car w')) :
    Answers P w r (some ⟨w', some r, .redrawRoom⟩) := by
  refine ⟨_, rfl, h, hdeed, ?_, fun _ => ⟨rfl, hview⟩, hcar⟩
  intro ha
  rcases ha with ha | ha <;> cases ha

theorem answers_redraw_stay (h : Sound P w')
    (hdeed : (quest w (some r)).Deed (quest w' (some r)))
    (hview : ∀ a, (w'.room a).view = (w.room a).view) (hcar : CarStep w (car w')) (s : String) :
    Answers P w r (stay w' r s .redrawRoom) := by
  have hsame := sameBut_showStatus w' s
  refine answers_redraw (h.of_sameBut hsame) ?_ hview hcar
  rw [quest_sameBut hsame]
  exact hdeed

theorem answers_change (h : Sound P w') {rptr : Option RoomId}
    (hdeed : (quest w (some r)).Deed (quest w' rptr)) (hcar : CarStep w (car w')) :
    Answers P w r (some ⟨w', rptr, .changeRoom⟩) := by
  refine ⟨_, rfl, h, hdeed, ?_, ?_, hcar⟩
  · intro ha
    rcases ha with ha | ha <;> cases ha
  · intro ha
    cases ha

theorem answers_change_stay (h : Sound P w')
    (hdeed : (quest w (some r)).Deed (quest w' (some r))) (hcar : CarStep w (car w'))
    (s : String) : Answers P w r (stay w' r s .changeRoom) := by
  have hsame := sameBut_showStatus w' s
  refine answers_change (h.of_sameBut hsame) ?_ hcar
  rw [quest_sameBut hsame]
  exact hdeed

/-! ## Moving -/

theorem arriveIn_sound (h : Sound P w) (dest : RoomId) : Sound P (arriveIn w dest) := by
  unfold arriveIn
  have hrand := h.of_sameBut (sameBut_nextRand w)
  split_ifs
  · exact hrand.doPhotoSwap dest .circle
  · exact hrand
  · exact h

theorem quest_arriveIn (w : World) (dest : RoomId) (rptr : Option RoomId) :
    quest (arriveIn w dest) rptr = quest w rptr := by
  unfold arriveIn
  split_ifs
  · rw [quest_doPhotoSwap, quest_sameBut (sameBut_nextRand w)]
  · rw [quest_sameBut (sameBut_nextRand w)]
  · rfl

theorem car_arriveIn (w : World) (dest : RoomId) : car (arriveIn w dest) = car w := by
  unfold arriveIn
  split_ifs with hdest
  · rw [hdest, car_doPhotoSwap_circle, car_sameBut (sameBut_nextRand w)]
  · rw [car_sameBut (sameBut_nextRand w)]
  · rfl

theorem answers_arrive (h : Sound P w) {dest : RoomId}
    (hlink : (w.room r).left = some dest ∨ (w.room r).enter = some dest ∨
      (w.room r).right = some dest) :
    Answers P w r (some ⟨arriveIn w dest, some dest, .changeRoom⟩) := by
  apply answers_change (arriveIn_sound h dest)
  · rw [quest_arriveIn]
    exact .follow r dest rfl hlink
  · exact .keep (car_arriveIn w dest)

theorem tryToMove_answers {link : Room → Option RoomId} (h : Sound P w)
    (hlink : ∀ dest, link (w.room r) = some dest → (w.room r).left = some dest ∨
      (w.room r).enter = some dest ∨ (w.room r).right = some dest) :
    Answers P w r (tryToMove link w r) := by
  unfold tryToMove
  cases hdest : link (w.room r) with
  | some dest => exact answers_arrive h (hlink dest hdest)
  | none => exact answers_ite (fun _ => answers_deny h _) fun _ => answers_deny h _

theorem tryToMoveLeft_answers (h : Sound P w) : Answers P w r (tryToMoveLeft w r) :=
  tryToMove_answers h fun _ hdest => Or.inl hdest

theorem tryToMoveRight_answers (h : Sound P w) : Answers P w r (tryToMoveRight w r) :=
  tryToMove_answers h fun _ hdest => Or.inr (Or.inr hdest)

/-- A special door: the message is shown and the player goes through. -/
theorem answers_pass (h : Sound P w) (s : String) {dest : RoomId}
    (hdeed : (quest w (some r)).Deed ((quest w (some r)).goTo dest)) :
    Answers P w r (some ⟨showStatus w s, some dest, .changeRoom⟩) :=
  answers_change (h.of_sameBut (sameBut_showStatus w s)) hdeed (.keep rfl)

theorem tryToEnter_answers (h : Sound P w) : Answers P w r (tryToEnter w r) := by
  unfold tryToEnter
  cases hdest : (w.room r).enter with
  | some dest => exact answers_arrive h (Or.inr (Or.inl hdest))
  | none =>
      refine answers_ite ?_ fun _ => answers_ite ?_ fun _ => answers_ite ?_ fun _ =>
        answers_ite ?_ fun _ => answers_ite ?_ fun _ => answers_ite ?_ fun _ => answers_deny h _
      · rintro rfl
        refine answers_ite (fun hsuit => ?_) fun _ => answers_deny h _
        exact answers_change h (.enterCleanroom rfl hsuit) (.keep rfl)
      · rintro rfl
        refine answers_ite (fun hcard => ?_) fun _ => answers_deny h _
        exact answers_pass h _ (.swipe395 rfl hcard)
      · rintro rfl
        refine answers_ite (fun hcard => ?_) fun _ => answers_deny h _
        exact answers_pass h _ (.swipeCsl rfl hcard)
      · rintro rfl
        refine answers_ite (fun hrobot => ?_) fun _ => answers_ite (fun _ => answers_deny h _)
          fun _ => answers_deny h _
        exact answers_pass h _ (.pickLock rfl hrobot)
      · intro _
        have hlt : w.randMod 8 < advice.length := Nat.mod_lt _ (by decide)
        have hrand := sameBut_nextRand w
        rw [List.getElem?_eq_getElem hlt]
        simp only [Option.bind_eq_bind, Option.bind_some]
        have hdeed : (quest w (some r)).Deed (quest w.nextRand (some r)) := by
          rw [quest_sameBut hrand]
          exact .idle
        exact answers_quiet (h.of_sameBut hrand) hdeed rfl rfl rfl (.keep rfl) _ (Or.inl rfl)
      · intro _
        exact answers_deny h _

/-! ## Typed commands -/

theorem eat_deed (w : World) (r : RoomId) :
    (quest w (some r)).Deed (quest (playerSetFlag w .hasEaten) (some r)) := by
  rw [quest_playerSetFlag]
  exact .eat

theorem eat_car (w : World) : CarStep w (car (playerSetFlag w .hasEaten)) :=
  .keep (car_playerSetFlag w .hasEaten)

theorem typedCmdBuy_answers (h : Sound P w) (arg : Text) :
    Answers P w r (typedCmdBuy w r arg) := by
  unfold typedCmdBuy
  refine answers_ite (fun _ => ?_) fun _ => answers_ite (fun _ => ?_) fun _ => answers_deny h _
  · refine answers_ite (fun _ => answers_discard h _) fun _ =>
      answers_ite (fun _ => answers_discard h _) fun _ => ?_
    have hsame : SameBut w (if (w.object .mtnDew).loc ≠ none then
        showStatus w "Last one get stolen?  Ok...here we go..."
        else showStatus w "You buy a Dew.") :=
      .ite (sameBut_showStatus w _) (sameBut_showStatus w _)
    obtain ⟨w₁, hrun, hdew⟩ := moveObjectToInventory_brings (h.of_sameBut hsame) .mtnDew
    simp only [hrun, Option.bind_eq_bind, Option.bind_some]
    apply answers_redraw hdew.sound
    · rw [hdew.quest, quest_sameBut hsame]
      exact .buyDew
    · intro a
      rw [hdew.view, view_sameBut hsame]
    · exact .keep (hdew.car.trans (car_sameBut hsame))
  · refine answers_ite (fun _ => answers_discard h _) fun _ =>
      answers_ite (fun _ => answers_discard h _) fun _ => ?_
    exact answers_quiet (h.playerSetFlag .hasEaten) (eat_deed w r) rfl rfl rfl (eat_car w) _
      (Or.inr rfl)

theorem typedCmdCharge_answers (h : Sound P w) (arg : Text) :
    Answers P w r (typedCmdCharge w r arg) := by
  unfold typedCmdCharge
  refine answers_ite (fun _ => answers_deny h _) fun _ =>
    answers_ite (fun _ => answers_discard h _) fun hbatt =>
    answers_ite (fun _ => answers_discard h _) fun hroom =>
    answers_ite (fun _ => answers_discard h _) fun hfull => ?_
  obtain ⟨w₁, hrun₁, hempty⟩ := removeObject_brings h .battEmpty
  obtain ⟨w₂, hrun₂, hcharged⟩ := moveObjectToInventory_brings hempty.sound .battFull
  simp only [hrun₁, hrun₂, Option.bind_eq_bind, Option.bind_some]
  apply answers_redraw_stay hcharged.sound
  · rw [hcharged.quest, hempty.quest]
    obtain rfl := not_not.mp hroom
    refine .charge rfl ?_
    by_contra hnot
    exact hbatt ⟨hnot, hfull⟩
  · intro a
    rw [hcharged.view, hempty.view]
  · exact .keep (hcharged.car.trans hempty.car)

theorem typedCmdDo_answers (h : Sound P w) (arg : Text) :
    Answers P w r (typedCmdDo w r arg) := by
  unfold typedCmdDo
  refine answers_ite (fun _ => answers_deny h _) fun hroom =>
    answers_ite (fun _ => answers_deny h _) fun _ =>
    answers_ite (fun _ => answers_discard h _) fun hbook =>
    answers_ite (fun _ => answers_discard h _) fun hmp2 =>
    answers_ite (fun _ => answers_discard h _) fun htux => ?_
  obtain rfl := not_not.mp hroom
  apply answers_change h
  · exact .win rfl (not_not.mp hbook) (not_not.mp hmp2) (not_not.mp htux)
  · exact .keep rfl

theorem typedCmdDrink_answers (h : Sound P w) (arg : Text) :
    Answers P w r (typedCmdDrink w r arg) := by
  unfold typedCmdDrink
  refine answers_ite (fun _ => answers_deny h _) fun _ =>
    answers_ite (fun _ => answers_discard h _) fun _ => ?_
  obtain ⟨w₁, hrun, hdew⟩ := removeObject_brings h .mtnDew
  simp only [hrun, Option.bind_eq_bind, Option.bind_some]
  apply answers_redraw_stay hdew.sound
  · rw [hdew.quest]
    exact .drinkDew
  · exact hdew.view
  · exact .keep hdew.car

theorem typedCmdFix_answers (h : Sound P w) (arg : Text) :
    Answers P w r (typedCmdFix w r arg) := by
  unfold typedCmdFix
  refine answers_ite (fun _ => answers_deny h _) fun _ =>
    answers_ite (fun _ => answers_discard h _) fun _ =>
    answers_ite (fun _ => answers_discard h _) fun hbad =>
    answers_ite (fun _ => answers_discard h _) fun hroom =>
    answers_ite (fun _ => answers_discard h _) fun hspec => ?_
  obtain ⟨w₁, hrun₁, h₁⟩ := removeObject_brings h .gpsBad
  obtain ⟨w₂, hrun₂, h₂⟩ := removeObject_brings h₁.sound .gpsSpec
  obtain ⟨w₃, hrun₃, h₃⟩ := moveObjectToInventory_brings h₂.sound .gpsGood
  simp only [hrun₁, hrun₂, hrun₃, Option.bind_eq_bind, Option.bind_some]
  apply answers_change_stay h₃.sound
  · rw [h₃.quest, h₂.quest, h₁.quest]
    obtain rfl := not_not.mp hroom
    exact .fixGps rfl (not_not.mp hbad) (not_not.mp hspec)
  · exact .keep (h₃.car.trans (h₂.car.trans h₁.car))

theorem typedCmdFlash_answers (h : Sound P w) (arg : Text) :
    Answers P w r (typedCmdFlash w r arg) := by
  unfold typedCmdFlash
  refine answers_ite (fun _ => answers_deny h _) fun _ =>
    answers_ite (fun _ => answers_discard h _) fun hrobot =>
    answers_ite (fun _ => answers_discard h _) fun hroom =>
    answers_ite (fun _ => answers_discard h _) fun hlive => ?_
  obtain ⟨w₁, hrun₁, h₁⟩ := removeObject_brings h .robotDead
  obtain ⟨w₂, hrun₂, h₂⟩ := moveObjectToInventory_brings h₁.sound .robotLive
  simp only [hrun₁, hrun₂, Option.bind_eq_bind, Option.bind_some]
  apply answers_redraw_stay h₂.sound
  · rw [h₂.quest, h₁.quest]
    obtain rfl := not_not.mp hroom
    refine .flashRobot rfl ?_
    by_contra hnot
    exact hrobot ⟨hnot, hlive⟩
  · intro a
    rw [h₂.view, h₁.view]
  · exact .keep (h₂.car.trans h₁.car)

theorem typedCmdGo_answers (h : Sound P w) (arg : Text) :
    Answers P w r (typedCmdGo w r arg) := by
  unfold typedCmdGo
  refine answers_ite (fun _ => ?_) fun _ => answers_ite (fun _ => ?_) fun _ =>
    answers_ite (fun _ => ?_) fun _ => answers_deny h _
  · refine answers_ite (fun _ => answers_discard h _) fun _ =>
      answers_ite (fun _ => answers_discard h _) fun hroom => answers_ite (fun _ => ?_)
      fun hfixed => answers_ite (fun _ => ?_) fun hgps => ?_
    · exact answers_ite (fun _ => answers_discard h _) fun _ => answers_discard h _
    · exact answers_ite (fun _ => answers_discard h _) fun _ => answers_discard h _
    · refine answers_pass h _ (.driveToAllerton ?_ (not_not.mp hfixed) (not_not.mp hgps))
      by_contra hnot
      exact hroom ⟨fun he => hnot (Or.inl (congrArg some he)),
        fun he => hnot (Or.inr (congrArg some he))⟩
  · refine answers_ite (fun _ => answers_discard h _) fun _ =>
      answers_ite (fun _ => answers_discard h _) fun hroom => answers_ite (fun _ => ?_)
      fun hfixed => ?_
    · exact answers_ite (fun _ => answers_discard h _) fun _ => answers_discard h _
    · refine answers_pass h _ (.driveToWillard ?_ (not_not.mp hfixed))
      by_contra hnot
      exact hroom ⟨fun he => hnot (Or.inl (congrArg some he)),
        fun he => hnot (Or.inr (congrArg some he))⟩
  · refine answers_ite (fun _ => answers_discard h _) fun _ =>
      answers_ite (fun _ => answers_discard h _) fun hroom => ?_
    refine answers_pass h _ (.driveToCampus ?_)
    by_contra hnot
    exact hroom ⟨fun he => hnot (Or.inl (congrArg some he)),
      fun he => hnot (Or.inr (congrArg some he))⟩

theorem typedCmdInstall_answers (h : Sound P w) (arg : Text) :
    Answers P w r (typedCmdInstall w r arg) := by
  unfold typedCmdInstall
  refine answers_ite (fun _ => ?_) fun _ => answers_ite (fun _ => ?_) fun _ => answers_deny h _
  · refine answers_ite (fun _ => answers_discard h _) fun hbatt =>
      answers_ite (fun _ => answers_discard h _) fun hroom =>
      answers_ite (fun _ => answers_discard h _) fun hempty => ?_
    obtain ⟨w₁, hrun, h₁⟩ := removeObject_brings h .battFull
    simp only [hrun, Option.bind_eq_bind, Option.bind_some]
    obtain rfl := not_not.mp hroom
    have hfull : atHand w .carSite .battFull := by
      by_contra hnot
      exact hbatt ⟨hempty, hnot⟩
    apply answers_change_stay ((h₁.sound.playerSetFlag .carFixed).doPhotoSwap .carSite .car)
    · rw [quest_doPhotoSwap, quest_playerSetFlag, h₁.quest]
      exact .installBattery rfl hfull
    · rw [car_doPhotoSwap, car_playerSetFlag, h₁.car]
      refine .mends ?_ rfl
      rcases hfull with hloc | hloc
      · exact fun hnone => Option.some_ne_none _ (hloc.symm.trans hnone)
      · exact fun hnone => Option.some_ne_none _ (hloc.symm.trans hnone)
  · refine answers_ite (fun _ => answers_discard h _) fun hmimo =>
      answers_ite (fun _ => answers_discard h _) fun hroom => ?_
    obtain ⟨w₁, hrun, h₁⟩ := removeObject_brings h .mimoCard
    simp only [hrun, Option.bind_eq_bind, Option.bind_some]
    apply answers_redraw_stay (h₁.sound.setEnter .cockpit .overWill)
    · rw [quest_setEnter, h₁.quest]
      obtain rfl := not_not.mp hroom
      exact .installMimo rfl (not_not.mp hmimo)
    · intro a
      rw [view_setEnter, h₁.view]
    · exact .keep ((car_setEnter w₁ .cockpit .overWill).trans h₁.car)

/-- What `obj_special_get` leaves in the room `src`. -/
inductive SpecialGet (P : Photo → Prop) (w : World) (src : RoomId) :
    World → Option ObjId → Prop
  | plain (hcar : (w.object .battCar).loc = some src → src ≠ .carSite) :
      SpecialGet P w src w none
  | bookC (w' : World) (hsame : SameBut w w') (hfed : playerFlagIsSet w .hasEaten)
      (hloc : (w.object .bookC).loc = none) : SpecialGet P w src w' (some .bookC)
  | bookWode (w' : World) (hsame : SameBut w w') (hloc : (w.object .bookWode).loc = none) :
      SpecialGet P w src w' (some .bookWode)
  | battery (w' : World) (hunplug : Brings P w w' .battCar none) (hsrc : src = .carSite)
      (hloc : (w.object .battCar).loc = some .carSite) : SpecialGet P w src w' (some .battEmpty)

theorem objSpecialGet_spec (h : Sound P w) (src : RoomId) (arg : Text) :
    ∃ w' special, objSpecialGet w src arg = some (w', special) ∧
      SpecialGet P w src w' special := by
  obtain ⟨w₁, hrun, hunplug⟩ := removeObject_brings h .battCar
  have hpick : ∃ w' special,
      (if src = .carSite ∧ (w.object .battCar).loc = some src then do
        let w ← removeObject w .battCar
        some (w, some .battEmpty)
      else some (w, none)) = some (w', special) ∧ SpecialGet P w src w' special := by
    split
    · next hcar =>
        obtain ⟨rfl, hloc⟩ := hcar
        refine ⟨w₁, some .battEmpty, ?_, .battery w₁ hunplug rfl hloc⟩
        simp only [hrun, Option.bind_eq_bind, Option.bind_some]
    · next hcar => exact ⟨w, none, rfl, .plain fun hloc hsrc => hcar ⟨hsrc, hloc⟩⟩
  unfold objSpecialGet
  dsimp only
  split
  · split
    · next hfed =>
        split
        · next hloc => exact ⟨_, _, rfl, .bookC _ (sameBut_showStatus w _) hfed hloc⟩
        · exact hpick
    · split
      · next hloc => exact ⟨_, _, rfl, .bookWode _ (sameBut_showStatus w _) hloc⟩
      · exact hpick
  · exact hpick

/-- The player stands in the room of the call, or in the one the inventory was opened from. -/
theorem enter_of_standing {dest : RoomId} (h : (quest w (some r)).standing = some dest) :
    (if r = .inventory then (w.room .inventory).enter else some r) = some dest := by
  simpa [Quest.standing, quest] using h

/-- The object is brought to the inventory. -/
theorem answers_take {o : ObjId} (h : Sound P w')
    (hdeed : (quest w (some r)).Deed ((quest w' (some r)).bring o (some .inventory)))
    (hview : ∀ a, (w'.room a).view = (w.room a).view) (hcar : car w' = car w) :
    Answers P w r ((moveObjectToInventory w' o).bind fun w' => some ⟨w', some r, .redrawRoom⟩) := by
  obtain ⟨w₂, hrun, hbring⟩ := moveObjectToInventory_brings h o
  rw [hrun, Option.bind_some]
  apply answers_redraw hbring.sound
  · rw [hbring.quest]
    exact hdeed
  · intro a
    rw [hbring.view, hview]
  · exact .keep (hbring.car.trans hcar)

theorem typedCmdGet_answers (h : Sound P w) {src : RoomId}
    (hsrc : (quest w (some r)).standing = some src) (arg : Text) :
    Answers P w r (typedCmdGet w r arg) := by
  have hwhere := enter_of_standing hsrc
  obtain ⟨w₁, special, hrun, hspecial⟩ := objSpecialGet_spec h src arg
  unfold typedCmdGet
  simp only [hwhere, hrun, Option.bind_eq_bind, Option.bind_some]
  cases hspecial with
  | plain hcar =>
      obtain ⟨s, hs⟩ := h.contained
      simp only [findInRoom_eq h.furnished.name (hs.lists src), Option.bind_some]
      cases hfind : (s src).find? (named w arg) with
      | none => exact answers_deny h _
      | some o =>
          have hloc : loc w o = some src :=
            (hs.agrees.mem_iff o src).mp (List.mem_of_find?_eq_some hfind)
          refine answers_ite (fun _ => answers_discard h _) fun htux => ?_
          refine answers_take h (.get o src hsrc hloc ?_ ?_) (fun _ => rfl) rfl
          · rintro rfl
            exact hcar hloc
          · rintro rfl
            by_contra hflag
            exact htux ⟨rfl, hflag⟩
  | bookC _ hsame hfed hloc =>
      simp only [Option.bind_some]
      refine answers_ite (fun htux => absurd htux.1 (by decide)) fun _ => ?_
      apply answers_take (h.of_sameBut hsame)
      · rw [quest_sameBut hsame]
        exact .borrowC hfed hloc
      · exact view_sameBut hsame
      · exact car_sameBut hsame
  | bookWode _ hsame hloc =>
      simp only [Option.bind_some]
      refine answers_ite (fun htux => absurd htux.1 (by decide)) fun _ => ?_
      apply answers_take (h.of_sameBut hsame)
      · rw [quest_sameBut hsame]
        exact .borrowWode hloc
      · exact view_sameBut hsame
      · exact car_sameBut hsame
  | battery _ hunplug hcar hloc =>
      simp only [Option.bind_some]
      refine answers_ite (fun htux => absurd htux.1 (by decide)) fun _ => ?_
      apply answers_take hunplug.sound
      · rw [hunplug.quest]
        subst hcar
        exact .unplugBattery hsrc hloc
      · exact hunplug.view
      · exact hunplug.car

/-- **What `drop` does**: it finds nothing of that name, or the object goes to where the player
stands. -/
theorem typedCmdDrop_spec (h : Sound P w) {dest : RoomId}
    (hdest : (quest w (some r)).standing = some dest) (arg : Text) :
    typedCmdDrop w r arg = stay w r "You have no such thing." .allowEdit ∨
      ∃ o w₁ w₂, loc w o = some .inventory ∧ SameBut w w₁ ∧ insertObject w₁ o dest = some w₂ ∧
        typedCmdDrop w r arg = some ⟨w₂, some r, .redrawRoom⟩ := by
  obtain ⟨s, hs⟩ := h.contained
  unfold typedCmdDrop
  simp only [findInRoom_eq h.furnished.name (hs.lists .inventory), Option.bind_eq_bind,
    Option.bind_some]
  cases hfind : (s .inventory).find? (named w arg) with
  | none => exact Or.inl rfl
  | some o =>
      have hloc : loc w o = some .inventory :=
        (hs.agrees.mem_iff o .inventory).mp (List.mem_of_find?_eq_some hfind)
      have hsame : SameBut w (if (o = .battFull ∧ r = .carSite) ∨ (o = .mimoCard ∧ r = .remPlane)
          then showStatus w "You may want to install it instead." else w) :=
        .ite (sameBut_showStatus w _) (SameBut.refl w)
      dsimp only
      generalize (if (o = .battFull ∧ r = .carSite) ∨ (o = .mimoCard ∧ r = .remPlane)
          then showStatus w "You may want to install it instead." else w) = w₁ at hsame ⊢
      have hdest₁ : (quest w₁ (some r)).standing = some dest := by
        rw [quest_sameBut hsame]
        exact hdest
      obtain ⟨w₂, hrun, -⟩ := insertObject_brings (h.of_sameBut hsame) o dest
      refine Or.inr ⟨o, w₁, w₂, hloc, hsame, hrun, ?_⟩
      simp only [enter_of_standing hdest₁, hrun, Option.bind_some]

theorem typedCmdDrop_answers (h : Sound P w) {dest : RoomId}
    (hdest : (quest w (some r)).standing = some dest) (arg : Text) :
    Answers P w r (typedCmdDrop w r arg) := by
  rcases typedCmdDrop_spec h hdest arg with heq | ⟨o, w₁, w₂, hloc, hsame, hrun, heq⟩
  · rw [heq]
    exact answers_deny h _
  · obtain ⟨w', hrun', hbring⟩ := insertObject_brings (h.of_sameBut hsame) o dest
    obtain rfl := Option.some.inj (hrun.symm.trans hrun')
    rw [heq]
    apply answers_redraw hbring.sound
    · rw [hbring.quest, quest_sameBut hsame]
      exact .drop o dest hdest hloc
    · intro a
      rw [hbring.view, view_sameBut hsame]
    · exact .keep (hbring.car.trans (car_sameBut hsame))

theorem typedCmdInventory_answers (h : Sound P w) : Answers P w r (typedCmdInventory w r) := by
  unfold typedCmdInventory
  refine answers_ite (fun hroom => ?_) fun hroom => ?_
  · subst hroom
    exact answers_change h (.closeInventory rfl) (.keep rfl)
  · apply answers_change (h.setEnter .inventory r)
    · rw [quest_setEnter]
      exact .openInventory r rfl hroom
    · exact .keep (car_setEnter w .inventory r)

theorem typedCmdSigh_answers (h : Sound P w) : Answers P w r (typedCmdSigh w r) := by
  unfold typedCmdSigh
  refine answers_ite (fun _ => answers_discard h _) fun _ => ?_
  exact answers_quiet (h.playerSetFlag .hasEaten) (eat_deed w r) rfl rfl rfl (eat_car w) _
    (Or.inr rfl)

theorem typedCmdUse_answers (h : Sound P w) (arg : Text) :
    Answers P w r (typedCmdUse w r arg) := by
  unfold typedCmdUse
  refine answers_ite (fun _ => ?_) fun _ => answers_ite (fun _ => ?_) fun _ => answers_deny h _
  · refine answers_ite (fun _ => answers_discard h _) fun _ =>
      answers_ite (fun _ => answers_discard h _) fun _ =>
      answers_ite (fun _ => answers_discard h _) fun hroom =>
      answers_ite (fun _ => answers_discard h _) fun hfixed =>
      answers_ite (fun _ => answers_discard h _) fun hopen =>
      answers_ite (fun _ => answers_discard h _) fun hkey => ?_
    obtain ⟨w₁, hrun₁, h₁⟩ := removeObject_brings (h.doPhotoSwap r .car) .carKey
    obtain ⟨w₂, hrun₂, h₂⟩ := insertObjectAt_brings h₁.sound .battCar r 265 122
    simp only [hrun₁, hrun₂, Option.bind_eq_bind, Option.bind_some]
    obtain rfl := not_not.mp hroom
    have hfixed := Bool.eq_false_iff.mpr hfixed
    have hopen := Bool.eq_false_iff.mpr hopen
    apply answers_change_stay (h₂.sound.playerSetFlag .carOpen)
    · rw [quest_playerSetFlag, h₂.quest, h₁.quest, quest_doPhotoSwap]
      exact .useCar rfl hfixed hopen (not_not.mp hkey)
    · rw [car_playerSetFlag, h₂.car, h₁.car, car_doPhotoSwap]
      have hbroken : (car w).fixed = false := hfixed
      refine .opens hopen hfixed ?_
      simp [hbroken]
  · refine answers_ite (fun _ => answers_discard h _) fun hfish =>
      answers_ite (fun _ => answers_discard h _) fun hroom => ?_
    obtain ⟨w₁, hrun₁, h₁⟩ := removeObject_brings h .fish
    obtain ⟨w₂, hrun₂, h₂⟩ := moveObjectToInventory_brings h₁.sound .tux
    simp only [hrun₁, hrun₂, Option.bind_eq_bind, Option.bind_some]
    apply answers_redraw_stay (h₂.sound.playerSetFlag .luredTux)
    · rw [quest_playerSetFlag, h₂.quest, h₁.quest]
      obtain rfl := not_not.mp hroom
      exact .useFish rfl (not_not.mp hfish)
    · intro a
      exact (h₂.view a).trans (h₁.view a)
    · rw [car_playerSetFlag, h₂.car, h₁.car]
      exact .keep rfl

theorem typedCmdWear_answers (h : Sound P w) (arg : Text) :
    Answers P w r (typedCmdWear w r arg) := by
  unfold typedCmdWear
  refine answers_ite (fun _ => answers_deny h _) fun _ =>
    answers_ite (fun _ => answers_discard h _) fun _ => ?_
  obtain ⟨w₁, hrun, h₁⟩ := removeObject_brings h .bunnysuit
  simp only [hrun, Option.bind_eq_bind, Option.bind_some]
  apply answers_redraw_stay (h₁.sound.playerSetFlag .wearingSuit)
  · rw [quest_playerSetFlag, h₁.quest]
    exact .wearSuit
  · exact h₁.view
  · rw [car_playerSetFlag, h₁.car]
    exact .keep rfl

/-! ## All calls -/

/-- A player who looks into the inventory has a room to return to. -/
def Anchored (w : World) (r : RoomId) : Prop := r = .inventory → (w.room .inventory).enter ≠ none

theorem Anchored.standing (hr : Anchored w r) :
    ∃ src, (quest w (some r)).standing = some src := by
  by_cases hroom : r = .inventory
  · subst hroom
    exact Option.ne_none_iff_exists'.mp (hr rfl)
  · refine ⟨r, ?_⟩
    have hne : (quest w (some r)).rptr ≠ some .inventory := fun heq => hroom (Option.some.inj heq)
    unfold Quest.standing
    rw [if_neg hne]
    rfl

theorem not_anchored_iff : ¬ Anchored w r ↔ r = .inventory ∧ (w.room .inventory).enter = none := by
  simp [Anchored]

theorem typedCmdGet_cases (h : Sound P w) (arg : Text) :
    Answers P w r (typedCmdGet w r arg) ∨ typedCmdGet w r arg = none ∧ ¬ Anchored w r := by
  by_cases hr : Anchored w r
  · obtain ⟨src, hsrc⟩ := hr.standing
    exact Or.inl (typedCmdGet_answers h hsrc arg)
  · obtain ⟨rfl, hloose⟩ := not_anchored_iff.mp hr
    refine Or.inr ⟨?_, hr⟩
    unfold typedCmdGet
    rw [if_pos rfl, hloose]
    rfl

theorem typedCmdDrop_cases (h : Sound P w) (arg : Text) :
    Answers P w r (typedCmdDrop w r arg) ∨ typedCmdDrop w r arg = none ∧ ¬ Anchored w r := by
  by_cases hr : Anchored w r
  · obtain ⟨dest, hdest⟩ := hr.standing
    exact Or.inl (typedCmdDrop_answers h hdest arg)
  · obtain ⟨rfl, hloose⟩ := not_anchored_iff.mp hr
    obtain ⟨s, hs⟩ := h.contained
    unfold typedCmdDrop
    simp only [findInRoom_eq h.furnished.name (hs.lists .inventory), Option.bind_eq_bind,
      Option.bind_some]
    cases (s .inventory).find? (named w arg) with
    | none => exact Or.inl (answers_deny h _)
    | some o =>
        refine Or.inr ⟨?_, hr⟩
        have henter : ((if (o = .battFull ∧ RoomId.inventory = .carSite) ∨
            (o = .mimoCard ∧ RoomId.inventory = .remPlane)
            then showStatus w "You may want to install it instead." else w).room
              .inventory).enter = none := by
          split
          · exact hloose
          · exact hloose
        simp only [if_true, henter, Option.bind_none]

/-- **What a call does**: it is answered, or it faults in the inventory for lack of a room to
return to. -/
theorem perform_cases (h : Sound P w) (call : Call) :
    Answers P w r (perform call w r) ∨ perform call w r = none ∧ ¬ Anchored w r := by
  cases call with
  | moveLeft => exact Or.inl (tryToMoveLeft_answers h)
  | enter => exact Or.inl (tryToEnter_answers h)
  | moveRight => exact Or.inl (tryToMoveRight_answers h)
  | typed c arg =>
      cases c with
      | buy => exact Or.inl (typedCmdBuy_answers h arg)
      | charge => exact Or.inl (typedCmdCharge_answers h arg)
      | doIt => exact Or.inl (typedCmdDo_answers h arg)
      | drink => exact Or.inl (typedCmdDrink_answers h arg)
      | drop => exact typedCmdDrop_cases h arg
      | fix => exact Or.inl (typedCmdFix_answers h arg)
      | flash => exact Or.inl (typedCmdFlash_answers h arg)
      | get => exact typedCmdGet_cases h arg
      | go => exact Or.inl (typedCmdGo_answers h arg)
      | install => exact Or.inl (typedCmdInstall_answers h arg)
      | inventory => exact Or.inl (typedCmdInventory_answers h)
      | sigh => exact Or.inl (typedCmdSigh_answers h)
      | use => exact Or.inl (typedCmdUse_answers h arg)
      | wear => exact Or.inl (typedCmdWear_answers h arg)

theorem perform_answers (h : Sound P w) (hr : Anchored w r) (call : Call) :
    Answers P w r (perform call w r) := by
  rcases perform_cases h call with hanswers | ⟨-, hnot⟩
  · exact hanswers
  · exact absurd hr hnot

theorem perform_follows (h : Sound P w) {call : Call} {out : Outcome}
    (hrun : perform call w r = some out) : Follows P w r out := by
  rcases perform_cases h call with ⟨out', hrun', hfollows⟩ | ⟨hnone, -⟩
  · obtain rfl := Option.some.inj (hrun.symm.trans hrun')
    exact hfollows
  · rw [hnone] at hrun
    cases hrun

end Answers

end MachineProblems.Analysis.Adventure
