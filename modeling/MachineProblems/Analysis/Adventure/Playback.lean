import MachineProblems.Analysis.Adventure.Building
import MachineProblems.Analysis.Adventure.Coherence

/-!
# Every frame shows the room

The rounds of the event loop keep the screen coherent with the world, whatever the commands do
to it, so every `show_screen` of a game shows the player's room as a full redraw would.
-/

set_option autoImplicit false

namespace MachineProblems.Analysis.Adventure

open MachineProblems.Library MachineProblems.Program.Adventure MachineProblems.Program.PhotoFile
  MachineProblems.Model

/-! ## The picture after a command -/

theorem walk_congr {w w' : World} (hobject : w'.object = w.object) (n : ℕ) (p : Option ObjId) :
    Model.walk w' n p = Model.walk w n p := by
  induction n generalizing p with
  | zero => rfl
  | succ n ih =>
      cases p with
      | none => rfl
      | some o => rw [Model.walk, Model.walk, ih, hobject]

/-- The picture depends on the rooms and the objects only. -/
theorem refPixel_congr {w w' : World} (hroom : w'.room = w.room) (hobject : w'.object = w.object)
    (r : RoomId) : refPixel w' r = refPixel w r := by
  funext x y
  unfold refPixel contents
  rw [walk_congr hobject, hroom, hobject]

section Keep

variable {g : Game} {r : RoomId}

theorem Current.of_quiet {w : World} (hc : Current g r) (hroom : w.room = g.world.room)
    (hobject : w.object = g.world.object) : Current { g with world := w } r where
  room := hc.room
  showX := hc.showX
  showY := hc.showY
  photo := by
    unfold OnPhoto
    rw [hroom]
    exact hc.photo
  shown := by
    rw [refPixel_congr hroom hobject]
    exact hc.shown

theorem OnPhoto.of_view {w w' : World} {s : Screen} (h : OnPhoto w r s)
    (hview : ∀ a, (w'.room a).view = (w.room a).view) : OnPhoto w' r s := by
  unfold OnPhoto
  rw [hview]
  exact h

/-- Current says nothing of the speeds, the message and the room to be entered. -/
theorem Current.of_fields {g' : Game} (hc : Current g r) (hroom : g'.curRoom = g.curRoom)
    (hX : g'.mapX = g.mapX) (hY : g'.mapY = g.mapY) (hworld : g'.world = g.world)
    (hscreen : g'.screen = g.screen) : Current g' r where
  room := hroom.trans hc.room
  showX := by rw [hscreen, hX, hc.showX]
  showY := by rw [hscreen, hY, hc.showY]
  photo := by
    rw [hworld, hscreen]
    exact hc.photo
  shown := by
    rw [hworld, hscreen]
    exact hc.shown

end Keep

/-! ## Frames -/

/-- The display shows the player's room at the player's position. -/
def Shows (g : Game) : Prop :=
  ∃ r, g.place = some r ∧ ∀ i < scrollXDim, ∀ j < scrollYDim,
    refPixel g.world r (g.mapX + i : ℕ) (g.mapY + j : ℕ) =
      some (g.screen.memImage (i % 4) (g.screen.targetImg.toNat + 80 * j + i / 4))

section Frame

variable {g : Game} {r : RoomId}

/-- A game between the frame and the command of a round. -/
structure Framed (g g' : Game) (r : RoomId) : Prop where
  coherent : Coherent g'
  current : Current g' r
  shows_ : Shows g'
  place : g'.place = g.place
  world : g'.world = g.world
  condition : g'.condition = g.condition
  enterRoom : g'.enterRoom = false

theorem Current.framed (h : Coherent g) (hr : g.place = some r) (henter : g.enterRoom = false)
    (hc : Current g r) : Framed g { g with screen := showScreen g.screen } r where
  coherent := by
    refine ⟨h.sound, h.xSpeed, h.ySpeed, ⟨h.fits.img3, h.fits.first, h.fits.last⟩, ?_⟩
    rintro - r' hr'
    obtain rfl := Option.some.inj (hr.symm.trans hr')
    exact ⟨hc.room, hc.showX, hc.showY, hc.photo, hc.shown⟩
  current := ⟨hc.room, hc.showX, hc.showY, hc.photo, hc.shown⟩
  shows_ := by
    refine ⟨r, hr, fun i hi j hj => ?_⟩
    have hin : InWindow g.screen (g.screen.showX + i) (g.screen.showY + j) := by
      refine ⟨?_, ?_, ?_, ?_⟩ <;> omega
    rw [showScreen_shows g.screen hi hj, ← hc.shown _ _ hin, hc.showX, hc.showY]
    push_cast
    rfl
  place := rfl
  world := rfl
  condition := rfl
  enterRoom := henter

/-- Entering a room draws it at its origin. -/
theorem enter_current (h : Coherent g) (hr : g.place = some r) :
    ∃ s, ((viewWindow { g with mapX := 0, mapY := 0 }).bind fun g => (prepRoom g).bind fun g =>
        (redrawRoom g).bind fun g => some { g with enterRoom := false }) =
        some { g with mapX := 0, mapY := 0, curRoom := some r, screen := s, enterRoom := false } ∧
      Fits s ∧ Current { g with
        mapX := 0, mapY := 0, curRoom := some r, screen := s, enterRoom := false } r := by
  obtain ⟨view, hview, hwidth, hheight⟩ := h.sound.furnished.view r
  obtain ⟨s₁, hset, hshift⟩ := setViewWindow_shifted h.fits 0 0
  let g₁ : Game := { g with mapX := 0, mapY := 0, curRoom := some r, screen := s₁ }
  have hphoto : OnPhoto g₁.world r g₁.screen := by
    refine ⟨view, hview, ?_⟩
    rw [hshift.showX, hshift.showY]
    omega
  obtain ⟨s₂, hredraw, hpaint⟩ := redrawRoom_painted (g := g₁) h.sound rfl hshift.fits hphoto
  have hzero : asInt 0 = 0 := rfl
  have hwindow : viewWindow { g with mapX := 0, mapY := 0 } =
      some { g with mapX := 0, mapY := 0, screen := s₁ } := viewWindow_eq hzero hzero hset
  have hprep : prepRoom { g with mapX := 0, mapY := 0, screen := s₁ } = some g₁ :=
    prepRoom_eq hr hview
  refine ⟨s₂, ?_, fits_painted hshift.fits hpaint, ?_⟩
  · rw [hwindow, Option.bind_some, hprep, Option.bind_some, hredraw, Option.bind_some]
  · have hwindow' := inWindow_painted hpaint
    have hshown : ∀ x y, InWindow s₁ x y → refPixel g.world r x y = some (pixelAt s₂ x y) :=
      fun x y hin => hpaint.inside x y hin trivial
    obtain ⟨m, rfl⟩ := hpaint.frame
    exact ⟨rfl, hshift.showX, hshift.showY, hphoto, hshown⟩

/-- **Every frame** is drawn without a fault and shows the room. -/
theorem frame_framed (h : Coherent g) (hr : g.place = some r) :
    ∃ g', frame g = some g' ∧ Framed g g' r := by
  unfold frame
  by_cases henter : g.enterRoom = true
  · obtain ⟨s, hrun, hfits, hcurrent⟩ := enter_current h hr
    let g₁ : Game :=
      { g with mapX := 0, mapY := 0, curRoom := some r, screen := s, enterRoom := false }
    have hcoherent : Coherent g₁ := by
      refine ⟨h.sound, h.xSpeed, h.ySpeed, hfits, ?_⟩
      rintro - r' hr'
      obtain rfl := Option.some.inj (hr.symm.trans hr')
      exact hcurrent
    have hframed := hcurrent.framed hcoherent hr rfl
    rw [if_pos henter]
    refine ⟨_, Option.bind_eq_some_iff.mpr ⟨g₁, hrun, rfl⟩, ?_⟩
    exact ⟨hframed.coherent, hframed.current, hframed.shows_, rfl, rfl, rfl, rfl⟩
  · rw [if_neg henter]
    have hfalse := Bool.eq_false_iff.mpr henter
    exact ⟨_, rfl, (h.fresh hfalse r hr).framed h hr hfalse⟩

end Frame

/-! ## Commands -/

/-- What a command leaves: a coherent game, whose quest did a deed. -/
structure Commanded (g g' : Game) : Prop where
  coherent : Coherent g'
  deed : (quest g.world g.place).Deed (quest g'.world g'.place)

section Command

variable {g : Game} {r : RoomId}

theorem Scrolled.commanded {g' : Game} (h : Coherent g) (hr : g.place = some r)
    (hs : Scrolled g g' r) : Commanded g g' := by
  have hfits := hs.fits
  have hcurrent := hs.current
  obtain ⟨mapX, mapY, s, rfl⟩ := hs.frame
  refine ⟨⟨h.sound, h.xSpeed, h.ySpeed, hfits, ?_⟩, .idle⟩
  rintro - r' hr'
  obtain rfl := Option.some.inj (hr.symm.trans hr')
  exact hcurrent

/-- A call of the world's functions, or its fault. -/
theorem callWorld_cases (h : Coherent g) (hr : g.place = some r) (call : Call) :
    (∃ out, perform call g.world r = some out ∧ Follows Large g.world r out ∧ callWorld g call =
        some ({ g with world := out.world, place := out.rptr }, out.action)) ∨
      callWorld g call = none ∧ ¬ Anchored g.world r := by
  rcases perform_cases h.sound call with ⟨out, hrun, hfollows⟩ | ⟨hnone, hnot⟩
  · refine Or.inl ⟨out, hrun, hfollows, ?_⟩
    exact Option.bind_eq_some_iff.mpr ⟨r, hr, Option.bind_eq_some_iff.mpr ⟨out, hrun, rfl⟩⟩
  · refine Or.inr ⟨?_, hnot⟩
    unfold callWorld
    rw [hr, Option.bind_eq_bind, Option.bind_some, hnone]
    rfl

/-- The game after a call, before its action is looked at. -/
abbrev called (g : Game) (out : Outcome) : Game :=
  { g with world := out.world, place := out.rptr }

/-- A quiet outcome leaves the screen coherent. -/
theorem Follows.current {out : Outcome} (hf : Follows Large g.world r out) (hc : Current g r)
    (hquiet : out.action = .allowEdit ∨ out.action = .discardText) :
    out.rptr = some r ∧ Current (called g out) r := by
  obtain ⟨hrptr, hroom, hobject, -⟩ := hf.quiet hquiet
  exact ⟨hrptr, (hc.of_quiet hroom hobject).of_fields rfl rfl rfl rfl rfl⟩

/-- The action is not to redraw. -/
def NoRedraw (result : Option Outcome) : Prop :=
  ∀ out, result = some out → out.action ≠ .redrawRoom

theorem noRedraw_some {out : Outcome} (h : out.action ≠ .redrawRoom) : NoRedraw (some out) := by
  intro out' hout
  obtain rfl := Option.some.inj hout
  exact h

theorem noRedraw_ite {c : Prop} [Decidable c] {t e : Option Outcome} (ht : NoRedraw t)
    (he : NoRedraw e) : NoRedraw (if c then t else e) := by
  split
  · exact ht
  · exact he

theorem noRedraw_change (w : World) (rptr : Option RoomId) :
    NoRedraw (some ⟨w, rptr, .changeRoom⟩) :=
  noRedraw_some fun heq => by cases heq

theorem noRedraw_deny (w : World) (r : RoomId) (s : String) :
    NoRedraw (stay w r s .allowEdit) :=
  noRedraw_some fun heq => by cases heq

theorem tryToMove_noRedraw (link : Room → Option RoomId) (w : World) (r : RoomId) :
    NoRedraw (tryToMove link w r) := by
  unfold tryToMove
  cases link (w.room r) with
  | some dest => exact noRedraw_change _ _
  | none => exact noRedraw_ite (noRedraw_deny w r _) (noRedraw_deny w r _)

theorem tryToEnter_noRedraw (w : World) (r : RoomId) : NoRedraw (tryToEnter w r) := by
  have hdeny : ∀ s, NoRedraw (stay w r s .allowEdit) := noRedraw_deny w r
  have hadvice : NoRedraw (do
      let s ← advice[w.randMod 8]?
      stay w.nextRand r s .allowEdit) := by
    cases advice[w.randMod 8]? with
    | none => exact fun out hout => by cases hout
    | some s => exact noRedraw_deny w.nextRand r s
  unfold tryToEnter
  cases (w.room r).enter with
  | some dest => exact noRedraw_change _ _
  | none =>
      refine noRedraw_ite (noRedraw_ite (noRedraw_change _ _) (hdeny _)) ?_
      refine noRedraw_ite (noRedraw_ite (noRedraw_change _ _) (hdeny _)) ?_
      refine noRedraw_ite (noRedraw_ite (noRedraw_change _ _) (hdeny _)) ?_
      refine noRedraw_ite (noRedraw_ite (noRedraw_change _ _)
        (noRedraw_ite (hdeny _) (hdeny _))) ?_
      exact noRedraw_ite hadvice (noRedraw_ite (hdeny _) (hdeny _))

/-- A command that ran, or that faulted for lack of a room to return to. -/
def CommandCases (g : Game) (r : RoomId) (result : Option Game) : Prop :=
  (∃ g', result = some g' ∧ Commanded g g') ∨ result = none ∧ ¬ Anchored g.world r

theorem moveRoom_cases (h : Coherent g) (hr : g.place = some r) (hc : Current g r) {call : Call}
    (hcall : NoRedraw (perform call g.world r)) : CommandCases g r (moveRoom g call) := by
  rcases callWorld_cases h hr call with ⟨out, hrun, hf, hcalled⟩ | ⟨hnone, hnot⟩
  · refine Or.inl ⟨{ called g out with enterRoom := out.action = .changeRoom }, ?_, ?_, ?_⟩
    · exact Option.bind_eq_some_iff.mpr ⟨_, hcalled, rfl⟩
    · refine ⟨hf.sound, h.xSpeed, h.ySpeed, h.fits, fun henter r' hr' => ?_⟩
      have hstay : out.action ≠ .changeRoom := of_decide_eq_false henter
      have hquiet : out.action = .allowEdit ∨ out.action = .discardText := by
        have hredraw := hcall out hrun
        cases haction : out.action with
        | allowEdit => exact Or.inl rfl
        | discardText => exact Or.inr rfl
        | redrawRoom => exact absurd haction hredraw
        | changeRoom => exact absurd haction hstay
      obtain ⟨hrptr, hcurrent⟩ := hf.current hc hquiet
      obtain rfl := Option.some.inj (hrptr.symm.trans hr')
      exact hcurrent.of_fields rfl rfl rfl rfl rfl
    · rw [hr]
      exact hf.deed
  · refine Or.inr ⟨?_, hnot⟩
    unfold moveRoom
    rw [hnone]
    rfl

theorem adjustSpeeds_eq (h : Coherent g) (cmd : CmdId) (out : Outcome) :
    ∃ xSpeed ySpeed, adjustSpeeds cmd (called g out) =
        { called g out with xSpeed := xSpeed, ySpeed := ySpeed } ∧
      (0 ≤ xSpeed ∧ xSpeed ≤ 6) ∧ 0 ≤ ySpeed ∧ ySpeed ≤ 6 := by
  have hx := h.xSpeed
  have hy := h.ySpeed
  cases cmd
  case drop =>
    refine ⟨_, _, rfl, ?_, ?_⟩
    · split_ifs
      · exact hx
      · decide
    · split_ifs
      · exact hy
      · decide
  case get =>
    refine ⟨_, _, rfl, ?_, ?_⟩
    · split_ifs
      · decide
      · exact hx
    · split_ifs
      · decide
      · exact hy
  all_goals exact ⟨_, _, rfl, hx, hy⟩

/-- A game that stays in its room and shows it. -/
structure Kept (g : Game) (r : RoomId) : Prop where
  sound : Sound Large g.world
  xSpeed : 0 ≤ g.xSpeed ∧ g.xSpeed ≤ 6
  ySpeed : 0 ≤ g.ySpeed ∧ g.ySpeed ≤ 6
  fits : Fits g.screen
  current : Current g r
  place : g.place = some r

theorem Kept.commanded {g' : Game} (hk : Kept g' r)
    (hdeed : (quest g.world g.place).Deed (quest g'.world g'.place)) (again : Bool) :
    Commanded g { g' with enterRoom := again } := by
  refine ⟨⟨hk.sound, hk.xSpeed, hk.ySpeed, hk.fits, ?_⟩, hdeed⟩
  rintro - r' hr'
  obtain rfl := Option.some.inj (hk.place.symm.trans hr')
  exact hk.current.of_fields rfl rfl rfl rfl rfl

/-- What a typed command leaves, with the room to be entered if it says so. -/
def TypedCases (g : Game) (r : RoomId) (result : Option (Game × Bool)) : Prop :=
  (∃ g' entered, result = some (g', entered) ∧
    ∀ again, (entered = true → again = true) → Commanded g { g' with enterRoom := again }) ∨
    result = none ∧ ¬ Anchored g.world r

theorem Kept.typedCases {g' : Game} (hk : Kept g' r)
    (hdeed : (quest g.world g.place).Deed (quest g'.world g'.place)) :
    TypedCases g r (some (g', false)) :=
  Or.inl ⟨g', false, rfl, fun again _ => hk.commanded hdeed again⟩

theorem executeTyped_cases (h : Coherent g) (hr : g.place = some r) (hc : Current g r)
    (cmd : CmdId) (arg : Text) : TypedCases g r (executeTyped g cmd arg) := by
  unfold executeTyped
  rcases callWorld_cases h hr (.typed cmd arg) with ⟨out, -, hf, hcalled⟩ | ⟨hnone, hnot⟩
  · obtain ⟨xSpeed, ySpeed, hspeeds, hx, hy⟩ := adjustSpeeds_eq h cmd out
    let g' : Game := { called g out with xSpeed := xSpeed, ySpeed := ySpeed }
    have hdeed : (quest g.world g.place).Deed (quest g'.world g'.place) := by
      rw [hr]
      exact hf.deed
    have hquiet : out.action = .allowEdit ∨ out.action = .discardText →
        TypedCases g r (some (g', false)) := by
      intro haction
      obtain ⟨hrptr, hcurrent⟩ := hf.current hc haction
      have hk : Kept g' r :=
        ⟨hf.sound, hx, hy, h.fits, hcurrent.of_fields rfl rfl rfl rfl rfl, hrptr⟩
      exact hk.typedCases hdeed
    rw [hcalled, Option.bind_eq_bind, Option.bind_some]
    simp only [hspeeds]
    cases haction : out.action with
    | allowEdit => exact hquiet (Or.inl haction)
    | discardText => exact hquiet (Or.inr haction)
    | redrawRoom =>
        -- the photo and the window are the old ones, the objects are drawn anew
        obtain ⟨hrptr, hview⟩ := hf.redraw haction
        obtain ⟨s, hredraw, hpaint⟩ := redrawRoom_painted (g := g') hf.sound hc.room h.fits
          (hc.photo.of_view hview)
        have hshown : ∀ x y, InWindow g.screen x y →
            refPixel out.world r x y = some (pixelAt s x y) :=
          fun x y hin => hpaint.inside x y hin trivial
        have hfits := fits_painted h.fits hpaint
        have hphoto := hc.photo.of_view hview
        have hcurrent : Current { g' with screen := s } r := by
          obtain ⟨m, rfl⟩ := hpaint.frame
          exact ⟨hc.room, hc.showX, hc.showY, hphoto, hshown⟩
        have hk : Kept { g' with screen := s } r := ⟨hf.sound, hx, hy, hfits, hcurrent, hrptr⟩
        have hrun : ((redrawRoom g').bind fun g => some (g, false)) =
            some ({ g' with screen := s }, false) := by
          rw [hredraw, Option.bind_some]
        have htyped := hk.typedCases hdeed
        rwa [← hrun] at htyped
    | changeRoom =>
        refine Or.inl ⟨g', true, rfl, fun again hagain => ⟨⟨hf.sound, hx, hy, h.fits, ?_⟩, hdeed⟩⟩
        intro henter
        have hfalse : again = false := henter
        rw [hagain rfl] at hfalse
        cases hfalse
  · refine Or.inr ⟨?_, hnot⟩
    rw [hnone]
    rfl

theorem handleTyping_cases (h : Coherent g) (hr : g.place = some r) (hc : Current g r)
    (text : Text) : TypedCases g r (handleTyping g text) := by
  have hk : Kept g r := ⟨h.sound, h.xSpeed, h.ySpeed, h.fits, hc, hr⟩
  unfold handleTyping
  dsimp only
  split
  · exact hk.typedCases .idle
  · split
    · have hsame := sameBut_showStatus g.world "What are you babbling about?"
      let g' : Game := { g with world := showStatus g.world "What are you babbling about?" }
      have hk' : Kept g' r :=
        ⟨h.sound.of_sameBut hsame, h.xSpeed, h.ySpeed, h.fits, hc.of_quiet rfl rfl, hr⟩
      apply hk'.typedCases
      rw [quest_sameBut hsame]
      exact .idle
    · exact executeTyped_cases h hr hc _ _

/-- **Every command** keeps the screen coherent with the world. -/
theorem command_cases (h : Coherent g) (hr : g.place = some r) (hc : Current g r) (cmd : Cmd) :
    CommandCases g r (command g cmd) := by
  have hscroll : ∀ {result : Option Game}, (∃ g', result = some g' ∧ Scrolled g g' r) →
      CommandCases g r result := by
    rintro result ⟨g', hrun, hs⟩
    exact Or.inl ⟨g', hrun, hs.commanded h hr⟩
  cases cmd with
  | none => exact Or.inl ⟨g, rfl, h, .idle⟩
  | up => exact hscroll (movePhotoDown_scrolled h hc)
  | right => exact hscroll (movePhotoLeft_scrolled h hr hc)
  | down => exact hscroll (movePhotoUp_scrolled h hr hc)
  | left => exact hscroll (movePhotoRight_scrolled h hc)
  | moveLeft => exact moveRoom_cases h hr hc (tryToMove_noRedraw _ _ _)
  | enter => exact moveRoom_cases h hr hc (tryToEnter_noRedraw _ _)
  | moveRight => exact moveRoom_cases h hr hc (tryToMove_noRedraw _ _ _)
  | typed text =>
      rcases handleTyping_cases h hr hc text with ⟨g', entered, hrun, hcommanded⟩ | ⟨hnone, hnot⟩
      · refine Or.inl ⟨_, Option.bind_eq_some_iff.mpr ⟨_, hrun, rfl⟩, hcommanded _ ?_⟩
        intro hentered
        rw [hentered, Bool.true_or]
      · refine Or.inr ⟨?_, hnot⟩
        exact Option.bind_eq_none_iff.mpr fun p hp => by rw [hnone] at hp; cases hp
  | quit =>
      refine Or.inl ⟨_, rfl, ⟨h.sound, h.xSpeed, h.ySpeed, h.fits, fun henter r' hr' => ?_⟩, .idle⟩
      exact (h.fresh henter r' hr').of_fields rfl rfl rfl rfl rfl

end Command

/-! ## Rounds -/

/-- What holds before every round: the game is coherent, and the player is in a room as long as
the game goes on. -/
structure Running (g : Game) : Prop where
  coherent : Coherent g
  somewhere : g.condition = none → g.place ≠ none

/-- A round that went through, with the deed it did. -/
structure Rounded (g g' : Game) : Prop where
  running : Running g'
  deed : (quest g.world g.place).Deed (quest g'.world g'.place)

theorem gameRound_cases {g : Game} (h : Running g) (cmd : Cmd) :
    (∃ g', gameRound g cmd = some g' ∧ Rounded g g') ∨
      gameRound g cmd = none ∧ ∃ r, g.place = some r ∧ ¬ Anchored g.world r := by
  unfold gameRound
  by_cases hover : g.condition = none
  · rw [if_neg (not_not.mpr hover)]
    obtain ⟨r, hr⟩ := Option.ne_none_iff_exists'.mp (h.somewhere hover)
    obtain ⟨g₁, hframe, hframed⟩ := frame_framed h.coherent hr
    have hplace : g₁.place = some r := hframed.place.trans hr
    simp only [hframe, Option.bind_eq_bind, Option.bind_some]
    rcases command_cases hframed.coherent hplace hframed.current cmd with
      ⟨g₂, hrun, hcommanded⟩ | ⟨hnone, hnot⟩
    · left
      have hdeed := hcommanded.deed
      rw [hframed.world, hframed.place] at hdeed
      have hcoherent := hcommanded.coherent
      simp only [hrun, Option.bind_some]
      by_cases hwon : g₂.condition = none ∧ g₂.place = none
      · rw [if_pos hwon]
        refine ⟨_, rfl, ⟨⟨hcoherent.sound, hcoherent.xSpeed, hcoherent.ySpeed, hcoherent.fits, ?_⟩,
          ?_⟩, hdeed⟩
        · intro henter r' hr'
          exact (hcoherent.fresh henter r' hr').of_fields rfl rfl rfl rfl rfl
        · intro hnone
          cases hnone
      · rw [if_neg hwon]
        exact ⟨g₂, rfl, ⟨hcoherent, fun hnone hplace => hwon ⟨hnone, hplace⟩⟩, hdeed⟩
    · right
      rw [hframed.world] at hnot
      refine ⟨?_, r, hr, hnot⟩
      rw [hnone]
      rfl
  · rw [if_pos hover]
    exact Or.inl ⟨g, rfl, h, .idle⟩

/-! ## Games -/

theorem running_start {w : World} (hw : Sound Large w) (start : RoomId) (build : ℤ → UInt8)
    (memImage : ℕ → ℕ → UInt8) : Running (startGame w start (setModeX build memImage)) where
  coherent := by
    refine ⟨hw, ?_, ?_, fits_centered (setModeX build memImage) 0 0, ?_⟩
    · simp [startGame, motionSpeed]
    · simp [startGame, motionSpeed]
    · intro henter
      cases henter
  somewhere := fun _ => Option.some_ne_none start

/-- No room leads to the inventory, and a player who looks into it came from somewhere. -/
structure Homed (q : Quest) : Prop where
  left : ∀ r, q.left r ≠ some .inventory
  enter : ∀ r, q.enter r ≠ some .inventory
  right : ∀ r, q.right r ≠ some .inventory
  back : q.rptr = some .inventory → q.enter .inventory ≠ none

theorem homed_deed {q q' : Quest} (h : Homed q) (hdeed : q.Deed q') : Homed q' := by
  obtain ⟨hleft, henter, hright, hback⟩ := h
  cases hdeed <;> constructor <;> grind

/-- **Every frame shows the room as a full redraw would**: whenever a round of a game begins, the
screen that it shows is the picture of the player's room; and where the rooms do not lead to the
inventory, every game runs. -/
theorem frames_show {w : World} (hw : Sound Large w) (start : RoomId) (build : ℤ → UInt8)
    (memImage : ℕ → ℕ → UInt8) (cmds : List Cmd) :
    (∀ g, run gameRound (startGame w start (setModeX build memImage)) cmds = some g →
        g.condition = none → ∃ g', frame g = some g' ∧ Shows g') ∧
      (Homed (quest w (some start)) →
        ∃ g, run gameRound (startGame w start (setModeX build memImage)) cmds = some g) := by
  have hstart := running_start hw start build memImage
  constructor
  · intro g hrun hover
    have hrunning : Running g := by
      refine run_invariant (fun g cmd g' h hround => ?_) hstart hrun
      rcases gameRound_cases h cmd with ⟨g'', hround', hrounded⟩ | ⟨hnone, -⟩
      · obtain rfl := Option.some.inj (hround'.symm.trans hround)
        exact hrounded.running
      · rw [hnone] at hround
        cases hround
    obtain ⟨r, hr⟩ := Option.ne_none_iff_exists'.mp (hrunning.somewhere hover)
    obtain ⟨g', hframe, hframed⟩ := frame_framed hrunning.coherent hr
    exact ⟨g', hframe, hframed.shows_⟩
  · intro hhomed
    have hstep : ∀ (g : Game) (cmd : Cmd), Running g ∧ Homed (quest g.world g.place) → True →
        ∃ g', gameRound g cmd = some g' ∧ Running g' ∧ Homed (quest g'.world g'.place) := by
      rintro g cmd ⟨h, hhome⟩ -
      rcases gameRound_cases h cmd with ⟨g', hround, hrounded⟩ | ⟨-, r, hr, hnot⟩
      · exact ⟨g', hround, hrounded.running, homed_deed hhome hrounded.deed⟩
      · -- looking into the inventory without having come from somewhere
        refine absurd ?_ hnot
        rintro rfl
        exact hhome.back hr
    have hany : ∀ cmd ∈ cmds, True := fun _ _ => trivial
    obtain ⟨g, hrun, -⟩ := run_total hstep ⟨hstart, hhomed⟩ hany
    exact ⟨g, hrun⟩

theorem Sound.mono {P Q : Photo → Prop} {w : World} (h : Sound P w) (hPQ : ∀ p, P p → Q p) :
    Sound Q w where
  contained := h.contained
  furnished := by
    refine ⟨fun r => ?_, fun s => ?_, h.furnished.name, h.furnished.img⟩
    · obtain ⟨p, hview, hp⟩ := h.furnished.view r
      exact ⟨p, hview, hPQ p hp⟩
    · obtain ⟨p, hphoto, hp⟩ := h.furnished.swapPhoto s
      exact ⟨p, hphoto, hPQ p hp⟩

theorem Built.homed {disk : Disk} {w : World} (h : Built disk w) :
    Homed (quest w (some startInRoom)) where
  left := by
    intro r
    obtain ⟨d, hd, rfl⟩ := mem_roomData r
    have hlinks : ∀ d ∈ roomData, d.left ≠ some .inventory := by decide
    exact (h.left d hd).trans_ne (hlinks d hd)
  enter := by
    intro r
    obtain ⟨d, hd, rfl⟩ := mem_roomData r
    have hlinks : ∀ d ∈ roomData, d.enter ≠ some .inventory := by decide
    exact (h.enter d hd).trans_ne (hlinks d hd)
  right := by
    intro r
    obtain ⟨d, hd, rfl⟩ := mem_roomData r
    have hlinks : ∀ d ∈ roomData, d.right ≠ some .inventory := by decide
    exact (h.right d hd).trans_ne (hlinks d hd)
  back := by
    intro hr
    have hstart : startInRoom ≠ .inventory := by decide
    exact absurd (Option.some.inj hr) hstart

theorem large_blankDisk {p : Photo} (h : OnDisk blankDisk p) : Large p := by
  obtain ⟨file, hread⟩ := h
  obtain rfl := Option.some.inj hread
  exact ⟨Nat.le_refl _, Nat.le_refl _⟩

theorem frames_show_blankDisk : ∃ w₀, buildWorld blankDisk (fun _ => 0) = some w₀ ∧
    ∃ g, run gameRound (startGame w₀ startInRoom (setModeX (fun _ => 0) fun _ _ => 0))
        [.right, .typed "inventory".toList, .down, .enter] = some g ∧
      (g.condition = none → ∃ g', frame g = some g' ∧ Shows g') := by
  obtain ⟨w₀, hbuild⟩ := buildWorld_blankDisk
  have hbuilt := buildWorld_built hbuild
  have hlarge : Sound Large w₀ := hbuilt.sound.mono fun _ => large_blankDisk
  obtain ⟨hshow, hruns⟩ := frames_show hlarge startInRoom (fun _ => 0) (fun _ _ => 0)
    [.right, .typed "inventory".toList, .down, .enter]
  obtain ⟨g, hrun⟩ := hruns hbuilt.homed
  exact ⟨w₀, hbuild, g, hrun, hshow g hrun⟩

end MachineProblems.Analysis.Adventure
