import MachineProblems.Analysis.Adventure.Clamping
import MachineProblems.Analysis.Adventure.Lines

/-!
# What `show_screen` reads

`copy_image` copies 16000 bytes, the 200 rows of the display, and the view window has 182.  So
each copy goes on behind its plane of the window, and the last one may leave the array.  How near
the window comes to the end of the array depends on the photo: from the base where
`set_view_window` puts it, it moves down and to the right with the view.
-/

set_option autoImplicit false

namespace MachineProblems.Analysis.Adventure

open MachineProblems.Library MachineProblems.Program.Adventure
open MachineProblems.Program.PhotoFile (Photo windowWidth_le windowHeight_le)

/-! ## The copies -/

/-- The four copies of `show_screen` read the array only. -/
def ReadsInside (s : Screen) : Prop :=
  ∀ i < 4, ∀ k < 16000, InBlock buildSize (planeStart s i + (k : ℕ))

/-- They are what the display shows. -/
theorem showScreen_copies (s : Screen) {i k : ℕ} (hi : i < 4) (hk : k < 16000) :
    (showScreen s).memImage i ((showScreen s).targetImg.toNat + k) =
      s.build (planeStart s i + k) := by
  unfold showScreen copyImage
  simp only [if_pos hi]
  rw [if_pos (by omega), Nat.cast_add, add_sub_cancel_left]
  rfl

/-- The first address of the window in a plane, the column rounded up. -/
def windowStart (s : Screen) : ℤ := s.img3Off + (s.showX + 3) / 4 + s.showY * scrollXWidth

/-- The copies stay in the array as long as the window starts early enough in it. -/
theorem readsInside_iff {s : Screen} (h : Fits s) : ReadsInside s ↔ windowStart s ≤ 18817 := by
  obtain ⟨himg3, hfirst, hlast⟩ := h
  unfold ReadsInside InBlock planeStart windowStart
  simp only [scrollXDim_eq, scrollYDim_eq, scrollXWidth_eq, scrollSize_eq, buildBufSize_eq,
    memFenceWidth_eq, buildSize_eq] at *
  constructor
  · intro h
    -- the plane that is stored last
    have hplane : ((4 - s.showX % 4) % 4).toNat < 4 := by omega
    have hend := h _ hplane 15999 (by decide)
    split_ifs at hend <;> omega
  · intro h i hi k hk
    split_ifs <;> omega

/-! ## The base of the window -/

/-- The test of `set_view_window`: the window at `(x, y)` lies in the build buffer. -/
def FitsAt (img3Off x y : ℤ) : Prop :=
  img3Off + x / 4 + y * scrollXWidth ≥ 0 ∧
    img3Off + 3 * scrollSize + (x + scrollXDim - 1) / 4 + (y + scrollYDim - 1) * scrollXWidth <
      buildBufSize

/-- The base is kept where the window fits, and chosen anew where it does not. -/
structure Rebased (s s' : Screen) : Prop where
  kept : FitsAt s.img3Off s'.showX s'.showY → s'.img3Off = s.img3Off
  moved : ¬ FitsAt s.img3Off s'.showX s'.showY →
    s'.img3Off = buildBaseInit - s'.showX / 4 - s'.showY * scrollXWidth

section Base

variable {s s' : Screen} {g g' : Game}

theorem setViewWindow_rebased {x y : ℤ} (h : setViewWindow s x y = some s') : Rebased s s' := by
  unfold setViewWindow at h
  dsimp only at h
  split at h
  · next hfit =>
      obtain rfl := Option.some.inj h
      exact ⟨fun _ => rfl, fun hnot => absurd hfit hnot⟩
  · next hfit =>
      split at h
      · obtain rfl := Option.some.inj h
        exact ⟨fun hfits => absurd hfits hfit, fun _ => rfl⟩
      · obtain ⟨m, -, rfl⟩ := Option.map_eq_some_iff.mp h
        exact ⟨fun hfits => absurd hfits hfit, fun _ => rfl⟩

/-- The tail shared by the move functions of the photo. -/
theorem rebased_tail {draw : Game → Screen → Option Screen}
    (h : (do
      let g ← viewWindow g
      let screen ← draw g g.screen
      some { g with screen := screen }) = some g')
    (hdraw : ∀ g s s', draw g s = some s' → ∃ m, s' = { s with build := m }) :
    Rebased g.screen g'.screen := by
  obtain ⟨g₁, hwindow, htail⟩ := Option.bind_eq_some_iff.mp h
  obtain ⟨s₁, hset, hg₁⟩ := Option.bind_eq_some_iff.mp hwindow
  obtain ⟨s₂, hlines, hg'⟩ := Option.bind_eq_some_iff.mp htail
  obtain rfl := Option.some.inj hg₁
  obtain rfl := Option.some.inj hg'
  obtain ⟨m, rfl⟩ := hdraw _ _ _ hlines
  have hrebased := setViewWindow_rebased hset
  exact ⟨hrebased.kept, hrebased.moved⟩

/-- A move function of the photo keeps the base or chooses it anew. -/
theorem move_rebased {scroll : Scroll} (h : scroll.move g = some g') :
    Rebased g.screen g'.screen := by
  have hrows : ∀ (g : Game) (line : ℕ → ℤ) (n : ℕ) (s s' : Screen),
      drawLines (drawHorizLine (horizLine g)) line n s = some s' →
        ∃ m, s' = { s with build := m } := fun _ _ _ _ _ h =>
          drawLines_frame h drawHorizLine_frame
  have hcolumns : ∀ (g : Game) (line : ℕ → ℤ) (n : ℕ) (s s' : Screen),
      drawLines (drawVertLine (vertLine g)) line n s = some s' →
        ∃ m, s' = { s with build := m } := fun _ _ _ _ _ h =>
          drawLines_frame h drawVertLine_frame
  cases scroll with
  | down =>
      have hrebased := rebased_tail h fun g s s' => hrows g _ _ s s'
      exact hrebased
  | right =>
      have hrebased := rebased_tail h fun g s s' => hcolumns g _ _ s s'
      exact hrebased
  | left =>
      obtain ⟨width, -, h⟩ := Option.bind_eq_some_iff.mp h
      have hrebased := rebased_tail h fun g s s' => hcolumns g _ _ s s'
      exact hrebased
  | up =>
      obtain ⟨height, -, h⟩ := Option.bind_eq_some_iff.mp h
      have hrebased := rebased_tail h fun g s s' => hrows g _ _ s s'
      exact hrebased

theorem redrawRoom_frame (h : redrawRoom g = some g') :
    ∃ m, g' = { g with screen := { g.screen with build := m } } := by
  unfold redrawRoom at h
  obtain ⟨s₁, hlines, hg'⟩ := Option.bind_eq_some_iff.mp h
  obtain rfl := Option.some.inj hg'
  obtain ⟨m, rfl⟩ := drawLines_frame hlines drawHorizLine_frame
  exact ⟨m, rfl⟩

/-- So does entering a room. -/
theorem enter_rebased (h : ((viewWindow g).bind fun g => (prepRoom g).bind fun g =>
      (redrawRoom g).bind fun g => some { g with enterRoom := false }) = some g') :
    Rebased g.screen g'.screen := by
  obtain ⟨g₁, hwindow, h⟩ := Option.bind_eq_some_iff.mp h
  obtain ⟨g₂, hprep, h⟩ := Option.bind_eq_some_iff.mp h
  obtain ⟨g₃, hredraw, hg'⟩ := Option.bind_eq_some_iff.mp h
  obtain ⟨s₁, hset, hg₁⟩ := Option.bind_eq_some_iff.mp hwindow
  obtain ⟨r, -, hprep⟩ := Option.bind_eq_some_iff.mp hprep
  obtain ⟨view, -, hg₂⟩ := Option.bind_eq_some_iff.mp hprep
  obtain rfl := Option.some.inj hg₁
  obtain rfl := Option.some.inj hg₂
  obtain ⟨m, rfl⟩ := redrawRoom_frame hredraw
  obtain rfl := Option.some.inj hg'
  have hrebased := setViewWindow_rebased hset
  exact ⟨hrebased.kept, hrebased.moved⟩

end Base

/-! ## Entering rooms and moving photos -/

/-- What a player does to the view: enter a room of the world as it is then, scroll, and pick up or
put down what makes scrolling faster. -/
inductive PhotoCall where
  | enterRoom (w : World) (r : RoomId)
  | movePhoto (scroll : Scroll)
  | equip (board jetpack : Bool)

/-- What the game does about it. -/
def photoStep (g : Game) : PhotoCall → Option Game
  | .enterRoom w r => frame { g with world := w, place := some r, enterRoom := true }
  | .movePhoto scroll => scroll.move g
  | .equip board jetpack =>
      some { g with xSpeed := speedWith board, ySpeed := speedWith jetpack }

/-- The player looks at the room `r`. -/
structure Viewing (g : Game) (r : RoomId) : Prop where
  coherent : Coherent g
  current : Current g r
  place : g.place = some r

section Viewing

variable {g : Game} {r : RoomId}

theorem viewing_enter {w : World} (hw : Sound Large w) (hx : 0 ≤ g.xSpeed ∧ g.xSpeed ≤ 6)
    (hy : 0 ≤ g.ySpeed ∧ g.ySpeed ≤ 6) (hs : Fits g.screen) (r : RoomId) :
    ∃ s, photoStep g (.enterRoom w r) = some { g with
        world := w, place := some r, mapX := 0, mapY := 0, curRoom := some r,
        screen := showScreen s, enterRoom := false } ∧
      Viewing { g with
        world := w, place := some r, mapX := 0, mapY := 0, curRoom := some r,
        screen := showScreen s, enterRoom := false } r ∧
      Rebased g.screen s := by
  have hcoherent : Coherent { g with world := w, place := some r, enterRoom := true } :=
    ⟨hw, hx, hy, hs, fun henter => by cases henter⟩
  obtain ⟨s, hrun, hfits, hcurrent⟩ := enter_current hcoherent rfl
  have hdrawn : Coherent { g with
      world := w, place := some r, mapX := 0, mapY := 0, curRoom := some r, screen := s,
      enterRoom := false } := by
    refine ⟨hw, hx, hy, hfits, ?_⟩
    rintro - r' hr'
    obtain rfl := Option.some.inj hr'
    exact hcurrent
  have hframed := hcurrent.framed hdrawn rfl rfl
  exact ⟨s, Option.bind_eq_some_iff.mpr ⟨_, hrun, rfl⟩,
    ⟨hframed.coherent, hframed.current, rfl⟩, enter_rebased hrun⟩

theorem viewing_move (h : Viewing g r) (scroll : Scroll) :
    ∃ g', scroll.move g = some g' ∧ Viewing g' r := by
  have hscrolled : ∃ g', scroll.move g = some g' ∧ Scrolled g g' r := by
    cases scroll with
    | down => exact movePhotoDown_scrolled h.coherent h.current
    | left => exact movePhotoLeft_scrolled h.coherent h.place h.current
    | right => exact movePhotoRight_scrolled h.coherent h.current
    | up => exact movePhotoUp_scrolled h.coherent h.place h.current
  obtain ⟨g', hrun, hs⟩ := hscrolled
  have hcommanded := hs.commanded h.coherent h.place
  refine ⟨g', hrun, hcommanded.coherent, hs.current, ?_⟩
  obtain ⟨mapX, mapY, s, rfl⟩ := hs.frame
  exact h.place

theorem viewing_equip (h : Viewing g r) (board jetpack : Bool) :
    Viewing { g with xSpeed := speedWith board, ySpeed := speedWith jetpack } r := by
  have hcurrent : Current { g with xSpeed := speedWith board, ySpeed := speedWith jetpack } r :=
    h.current.of_fields rfl rfl rfl rfl rfl
  refine ⟨⟨h.coherent.sound, speedWith_bounds board, speedWith_bounds jetpack, h.coherent.fits, ?_⟩,
    hcurrent, h.place⟩
  rintro - r' hr'
  obtain rfl := Option.some.inj (h.place.symm.trans hr')
  exact hcurrent

/-! ## Low photos -/

/-- The window at the far corner of the photo starts early enough, from the first base on. -/
def Shallow (photo : Photo) : Prop :=
  scrollXWidth * (photo.height - scrollYDim) + (photo.width - scrollXDim + 3) / 4 ≤ 8817

/-- The photo of the room is shallow. -/
def ShallowRoom (w : World) (r : RoomId) : Prop :=
  ∀ view, (w.room r).view = some view → Shallow view

/-- The base moves towards the start of the buffer only. -/
theorem Rebased.low {s s' : Screen} (h : Rebased s s') (hlow : s.img3Off ≤ buildBaseInit)
    (hx : 0 ≤ s'.showX) (hy : 0 ≤ s'.showY) : s'.img3Off ≤ buildBaseInit := by
  by_cases hfit : FitsAt s.img3Off s'.showX s'.showY
  · rw [h.kept hfit]
    exact hlow
  · rw [h.moved hfit, scrollXWidth_eq]
    omega

/-- The player looks at a shallow photo, with the window not above its first base. -/
structure Settled (g : Game) (r : RoomId) : Prop where
  viewing : Viewing g r
  low : g.screen.img3Off ≤ buildBaseInit
  shallow : ShallowRoom g.world r

theorem Settled.readsInside (h : Settled g r) : ReadsInside g.screen := by
  obtain ⟨view, hview, hx, hy, hwidth, hheight⟩ := h.viewing.current.bounds
  have hshallow := h.shallow view hview
  have hlow := h.low
  rw [readsInside_iff h.viewing.coherent.fits]
  unfold windowStart
  unfold Shallow at hshallow
  rw [h.viewing.current.showX, h.viewing.current.showY]
  simp only [buildBaseInit_eq, scrollXWidth_eq, scrollXDim_eq, scrollYDim_eq] at *
  omega

/-- A call that enters shallow rooms only. -/
def EntersShallow (call : PhotoCall) : Prop :=
  ∀ w r, call = .enterRoom w r → Sound Large w ∧ ShallowRoom w r

theorem settled_enter {w : World} (hw : Sound Large w) (hx : 0 ≤ g.xSpeed ∧ g.xSpeed ≤ 6)
    (hy : 0 ≤ g.ySpeed ∧ g.ySpeed ≤ 6) (hs : Fits g.screen)
    (hlow : g.screen.img3Off ≤ buildBaseInit) (hr : ShallowRoom w r) :
    ∃ g', photoStep g (.enterRoom w r) = some g' ∧ Settled g' r := by
  obtain ⟨s, hrun, hviewing, hrebased⟩ := viewing_enter hw hx hy hs r
  have hX : s.showX = 0 := hviewing.current.showX
  have hY : s.showY = 0 := hviewing.current.showY
  exact ⟨_, hrun, hviewing, hrebased.low hlow hX.ge hY.ge, hr⟩

/-- **A step** that enters shallow rooms only leaves the player looking at one. -/
theorem settled_step (h : Settled g r) {call : PhotoCall} (hcall : EntersShallow call) :
    ∃ g', photoStep g call = some g' ∧ ∃ r', Settled g' r' := by
  cases call with
  | enterRoom w r' =>
      obtain ⟨hw, hr'⟩ := hcall w r' rfl
      have hcoherent := h.viewing.coherent
      obtain ⟨g', hrun, hsettled⟩ :=
        settled_enter hw hcoherent.xSpeed hcoherent.ySpeed hcoherent.fits h.low hr'
      exact ⟨g', hrun, r', hsettled⟩
  | movePhoto scroll =>
      obtain ⟨view, hview, -⟩ := h.viewing.current.bounds
      obtain ⟨g', hrun, hviewing⟩ := viewing_move h.viewing scroll
      have hworld : g'.world = g.world := (move_view h.viewing.place hview scroll hrun).world
      have hX := hviewing.current.showX
      have hY := hviewing.current.showY
      refine ⟨g', hrun, r, hviewing, ?_, by rw [hworld]; exact h.shallow⟩
      exact (move_rebased hrun).low h.low (by omega) (by omega)
  | equip board jetpack =>
      exact ⟨_, rfl, r, viewing_equip h.viewing board jetpack, h.low, h.shallow⟩

/-! ## High photos -/

/-- Away from the origin the view moves on until it is at the edge of the photo. -/
theorem forth_advances {speed : ℤ} (h0 : 0 < speed) (h6 : speed ≤ 6) {side dim pos : ℕ}
    (hside : side ≤ 1024) (hpos : pos + dim < side) :
    pos < asUnsigned (pos + deltaForth speed side dim pos) ∧
      asUnsigned (pos + deltaForth speed side dim pos) ≤ pos + 6 ∧
      asUnsigned (pos + deltaForth speed side dim pos) + dim ≤ side := by
  rw [deltaForth_eq (by omega) (by omega), asUnsigned_of_nonneg (by omega) (by omega)]
  omega

/-- The player looks at the room `r` of the world `w`, with the window at its first base. -/
structure Based (w : World) (r : RoomId) (g : Game) : Prop where
  viewing : Viewing g r
  world : g.world = w
  base : g.screen.img3Off = buildBaseInit
  xSpeed : 0 < g.xSpeed
  ySpeed : 0 < g.ySpeed

/-- How far the view is from the far corner of the photo. -/
def distance (view : Photo) (g : Game) : ℕ := view.width - g.mapX + (view.height - g.mapY)

/-- A move that keeps the window early enough in the buffer keeps its base. -/
theorem based_move {w : World} (h : Based w r g) {view : Photo}
    (hview : (w.room r).view = some view) (scroll : Scroll)
    (hearly : (((Scroll.view view g.xSpeed g.ySpeed (g.mapX, g.mapY) scroll).1 : ℤ) + 3) / 4 +
      (Scroll.view view g.xSpeed g.ySpeed (g.mapX, g.mapY) scroll).2 * 80 ≤ 9500) :
    ∃ g', photoStep g (.movePhoto scroll) = some g' ∧ Based w r g' ∧
      Reviewed g g' (Scroll.view view g.xSpeed g.ySpeed (g.mapX, g.mapY) scroll).1
        (Scroll.view view g.xSpeed g.ySpeed (g.mapX, g.mapY) scroll).2 := by
  obtain ⟨g', hrun, hviewing⟩ := viewing_move h.viewing scroll
  rw [← h.world] at hview
  have hmoved := move_view h.viewing.place hview scroll hrun
  have hfit : FitsAt g.screen.img3Off g'.screen.showX g'.screen.showY := by
    unfold FitsAt
    rw [hviewing.current.showX, hviewing.current.showY, h.base, hmoved.mapX, hmoved.mapY]
    simp only [buildBaseInit_eq, scrollXWidth_eq, scrollXDim_eq, scrollYDim_eq, scrollSize_eq,
      buildBufSize_eq]
    constructor <;> omega
  refine ⟨g', hrun, ⟨hviewing, hmoved.world.trans h.world, ?_, ?_, ?_⟩, hmoved⟩
  · rw [(move_rebased hrun).kept hfit, h.base]
  · rw [hmoved.xSpeed]
    exact h.xSpeed
  · rw [hmoved.ySpeed]
    exact h.ySpeed

/-- As long as the copies stay in the array, a photo that is not shallow can be scrolled on. -/
theorem based_step {w : World} (h : Based w r g) {view : Photo}
    (hview : (w.room r).view = some view) (hdeep : ¬ Shallow view)
    (hreads : ReadsInside g.screen) :
    ∃ scroll g', photoStep g (.movePhoto scroll) = some g' ∧ Based w r g' ∧
      distance view g' < distance view g := by
  obtain ⟨view', hview', hx, hy, hwidth, hheight⟩ := h.viewing.current.bounds
  rw [h.world] at hview'
  obtain rfl := Option.some.inj (hview.symm.trans hview')
  have hcoherent := h.viewing.coherent
  have hearly := (readsInside_iff hcoherent.fits).mp hreads
  unfold windowStart at hearly
  rw [h.viewing.current.showX, h.viewing.current.showY, h.base] at hearly
  simp only [buildBaseInit_eq, scrollXWidth_eq] at hearly
  unfold distance
  by_cases hbelow : g.mapY + scrollYDim < view.height
  · obtain ⟨hmore, hnear, hedge⟩ := forth_advances h.ySpeed hcoherent.ySpeed.2 hheight hbelow
    obtain ⟨g', hrun, hbased, hmoved⟩ := based_move h hview .up (by
      simp only [Scroll.view]
      omega)
    refine ⟨.up, g', hrun, hbased, ?_⟩
    rw [hmoved.mapX, hmoved.mapY]
    simp only [Scroll.view]
    omega
  · by_cases hright : g.mapX + scrollXDim < view.width
    · obtain ⟨hmore, hnear, hedge⟩ := forth_advances h.xSpeed hcoherent.xSpeed.2 hwidth hright
      obtain ⟨g', hrun, hbased, hmoved⟩ := based_move h hview .left (by
        simp only [Scroll.view]
        omega)
      refine ⟨.left, g', hrun, hbased, ?_⟩
      rw [hmoved.mapX, hmoved.mapY]
      simp only [Scroll.view]
      omega
    · -- the view is at the far corner
      refine absurd ?_ hdeep
      unfold Shallow
      simp only [scrollXWidth_eq, scrollXDim_eq, scrollYDim_eq] at *
      omega

end Viewing

/-! ## Runs -/

section Runs

variable (build : ℤ → UInt8) (memImage : ℕ → ℕ → UInt8)

/-- Entering a room keeps the first base. -/
theorem based_enter {w : World} (hw : Sound Large w) {g : Game}
    (hx : 0 < g.xSpeed ∧ g.xSpeed ≤ 6) (hy : 0 < g.ySpeed ∧ g.ySpeed ≤ 6) (hs : Fits g.screen)
    (hbase : g.screen.img3Off = buildBaseInit) (r : RoomId) :
    ∃ g', photoStep g (.enterRoom w r) = some g' ∧ Based w r g' ∧ Reviewed
      { g with world := w, place := some r } g' 0 0 := by
  obtain ⟨s, hrun, hviewing, hrebased⟩ :=
    viewing_enter hw ⟨hx.1.le, hx.2⟩ ⟨hy.1.le, hy.2⟩ hs r
  have hX : s.showX = 0 := hviewing.current.showX
  have hY : s.showY = 0 := hviewing.current.showY
  have hfit : FitsAt g.screen.img3Off s.showX s.showY := by
    rw [hX, hY, hbase]
    unfold FitsAt
    decide
  have hbase' : s.img3Off = buildBaseInit := (hrebased.kept hfit).trans hbase
  exact ⟨_, hrun, ⟨hviewing, rfl, hbase', hx.1, hy.1⟩, ⟨rfl, rfl, rfl, rfl, rfl, rfl⟩⟩

/-- So the game starts with the first base. -/
theorem based_start {w : World} (hw : Sound Large w) (r : RoomId) :
    ∃ g, photoStep (startGame w r (setModeX build memImage)) (.enterRoom w r) = some g ∧
      Based w r g ∧ Reviewed (startGame w r (setModeX build memImage)) g 0 0 := by
  have hspeed : 0 < motionSpeed ∧ motionSpeed ≤ 6 := by decide
  exact based_enter hw hspeed hspeed (fits_start build memImage) rfl r

/-- A room whose photo is not shallow can be scrolled to where the copies leave the array. -/
theorem deep_reached {w : World} (hw : Sound Large w) {r : RoomId} (hdeep : ¬ ShallowRoom w r) :
    ∃ calls g, (∀ call ∈ calls, ∃ scroll, call = .movePhoto scroll) ∧
      run photoStep (startGame w r (setModeX build memImage)) (.enterRoom w r :: calls) =
        some g ∧ ¬ ReadsInside g.screen := by
  obtain ⟨view, hview⟩ := not_forall.mp hdeep
  obtain ⟨hview, hdeep⟩ := Classical.not_imp.mp hview
  obtain ⟨g₀, hstart, hbased, -⟩ := based_start build memImage hw r
  have hstep : ∀ g, Based w r g → ¬ ¬ ReadsInside g.screen →
      ∃ call g', (∃ scroll, call = .movePhoto scroll) ∧ photoStep g call = some g' ∧
        Based w r g' ∧ distance view g' < distance view g := by
    intro g hg hreads
    obtain ⟨scroll, g', hmove, hg', hnear⟩ := based_step hg hview hdeep (not_not.mp hreads)
    exact ⟨.movePhoto scroll, g', ⟨scroll, rfl⟩, hmove, hg', hnear⟩
  obtain ⟨calls, g, hcalls, hrun, hout⟩ := run_reaches (distance view) hstep hbased
  refine ⟨calls, g, hcalls, ?_, hout⟩
  rw [run_cons, hstart, Option.bind_some, hrun]

/-- **`show_screen` reads the array only**, in every run through a set of rooms, exactly if their
photos are shallow. -/
theorem show_screen_inside_iff (rooms : Set (World × RoomId))
    (hlarge : ∀ e ∈ rooms, Sound Large e.1) :
    (∀ e ∈ rooms, ∀ calls, (∀ w r, .enterRoom w r ∈ calls → (w, r) ∈ rooms) →
      ∃ g, run photoStep (startGame e.1 e.2 (setModeX build memImage))
        (.enterRoom e.1 e.2 :: calls) = some g ∧ ReadsInside g.screen) ↔
    ∀ e ∈ rooms, ShallowRoom e.1 e.2 := by
  constructor
  · intro h e he
    by_contra hdeep
    obtain ⟨calls, g, hcalls, hrun, hout⟩ := deep_reached build memImage (hlarge e he) hdeep
    have hnone : ∀ w r, .enterRoom w r ∈ calls → (w, r) ∈ rooms := by
      intro w r hmem
      obtain ⟨scroll, heq⟩ := hcalls _ hmem
      cases heq
    obtain ⟨g', hrun', hreads⟩ := h e he calls hnone
    obtain rfl := Option.some.inj (hrun.symm.trans hrun')
    exact hout hreads
  · intro h e he calls hcalls
    have hspeed : 0 ≤ motionSpeed ∧ motionSpeed ≤ 6 := by decide
    obtain ⟨g₀, hstart, hsettled⟩ :=
      settled_enter (g := startGame e.1 e.2 (setModeX build memImage)) (hlarge e he) hspeed hspeed
        (fits_start build memImage) le_rfl (h e he)
    have hshallow : ∀ call ∈ calls, EntersShallow call := by
      rintro call hmem w r rfl
      exact ⟨hlarge _ (hcalls w r hmem), h _ (hcalls w r hmem)⟩
    have hstep : ∀ g call, (∃ r, Settled g r) → EntersShallow call →
        ∃ g', photoStep g call = some g' ∧ ∃ r, Settled g' r := by
      rintro g call ⟨r, hg⟩ hcall
      exact settled_step hg hcall
    obtain ⟨g, hrun, r, hg⟩ := run_total hstep ⟨e.2, hsettled⟩ hshallow
    refine ⟨g, ?_, hg.readsInside⟩
    rw [run_cons, hstart, Option.bind_some, hrun]

theorem show_screen_inside_iff_blankDisk : ∃ w₀, buildWorld blankDisk (fun _ => 0) = some w₀ ∧
    ∃ g, run photoStep (startGame w₀ startInRoom (setModeX (fun _ => 0) fun _ _ => 0))
        [.enterRoom w₀ startInRoom, .movePhoto .up, .equip true false, .movePhoto .left] = some g ∧
      ReadsInside g.screen := by
  obtain ⟨w₀, hbuild⟩ := buildWorld_blankDisk
  have hbuilt := buildWorld_built hbuild
  have hlarge : Sound Large w₀ := hbuilt.sound.mono fun _ => large_blankDisk
  have hshallow : ShallowRoom w₀ startInRoom := by
    intro view hview
    obtain ⟨photo, hphoto, file, hread⟩ := hbuilt.sound.furnished.view startInRoom
    obtain rfl := Option.some.inj (hphoto.symm.trans hview)
    obtain rfl := Option.some.inj hread
    unfold Shallow
    decide
  have hrooms : ∀ e ∈ ({(w₀, startInRoom)} : Set (World × RoomId)), Sound Large e.1 := by
    rintro e rfl
    exact hlarge
  have hiff := show_screen_inside_iff (fun _ => 0) (fun _ _ => 0) {(w₀, startInRoom)} hrooms
  have hall := hiff.mpr (by rintro e rfl; exact hshallow)
  exact ⟨w₀, hbuild, hall _ rfl _ (by simp)⟩

end Runs

/-! ## A photo of the game -/

/-- A disk on which the photo of the Beckman Institute is as large as in the game, and the others
as large as the screen. -/
def beckmanDisk : Disk where
  readPhoto := fun fname =>
    if fname = "images/beckman.photo" then
      some ⟨600, 400, fun _ => none, Vector.replicate _ 0, by decide, by decide⟩
    else some ⟨320, 182, fun _ => none, Vector.replicate _ 0, windowWidth_le, windowHeight_le⟩
  readObjImage := fun _ => some ⟨2, 2, Vector.replicate _ 0, two_lt_word, two_lt_word⟩

theorem buildWorld_beckmanDisk : ∃ w, buildWorld beckmanDisk (fun _ => 0) = some w ∧
    ∃ view, (w.room .beckman).view = some view ∧ view.height = 400 := by
  have hheight : ((buildWorld beckmanDisk fun _ => 0).bind fun w =>
      (w.room .beckman).view.map Photo.height) = some 400 := by decide +kernel
  obtain ⟨w, hbuild, hw⟩ := Option.bind_eq_some_iff.mp hheight
  obtain ⟨view, hview, h400⟩ := Option.map_eq_some_iff.mp hw
  exact ⟨w, hbuild, view, hview, h400⟩

theorem large_beckmanDisk {p : Photo} (h : OnDisk beckmanDisk p) : Large p := by
  obtain ⟨file, hread⟩ := h
  unfold beckmanDisk at hread
  dsimp only at hread
  split at hread
  all_goals
    obtain rfl := Option.some.inj hread
    exact ⟨by decide, by decide⟩

/-- Scrolling up at the first speed, two rows at a time. -/
theorem based_ups {w : World} {r : RoomId} {view : Photo} (hview : (w.room r).view = some view)
    (hheight : view.height = 400) (k : ℕ) {g : Game} (h : Based w r g) (hX : g.mapX = 0)
    (hspeed : g.ySpeed = motionSpeed) (hk : g.mapY + 2 * k ≤ 112) :
    ∃ g', run photoStep g (List.replicate k (.movePhoto .up)) = some g' ∧ Based w r g' ∧
      g'.mapX = 0 ∧ g'.mapY = g.mapY + 2 * k := by
  induction k generalizing g with
  | zero => exact ⟨g, rfl, h, hX, rfl⟩
  | succ k ih =>
      have hrows : asUnsigned (g.mapY + deltaForth g.ySpeed view.height scrollYDim g.mapY) =
          g.mapY + 2 := by
        rw [hspeed, hheight, deltaForth_eq (by omega) (by rw [scrollYDim_eq]; omega),
          scrollYDim_eq]
        unfold motionSpeed
        rw [asUnsigned_of_nonneg (by omega) (by omega)]
        omega
      obtain ⟨g₁, hup, hbased, hmoved⟩ := based_move h hview .up (by
        simp only [Scroll.view, hrows]
        omega)
      have hY₁ : g₁.mapY = g.mapY + 2 := hmoved.mapY.trans hrows
      obtain ⟨g', hrun, hbased', hX', hY'⟩ := ih hbased (hmoved.mapX.trans hX)
        (hmoved.ySpeed.trans hspeed) (by omega)
      refine ⟨g', ?_, hbased', hX', by omega⟩
      rw [List.replicate_succ, run_cons, hup, Option.bind_some, hrun]

/-- After 56 scrolls up in front of the Beckman Institute the copies have left the array. -/
theorem show_screen_beckman : ∃ w₀, buildWorld beckmanDisk (fun _ => 0) = some w₀ ∧
    ∃ g, run photoStep (startGame w₀ startInRoom (setModeX (fun _ => 0) fun _ _ => 0))
        (.enterRoom w₀ startInRoom :: .enterRoom w₀ .beckman ::
          List.replicate 56 (.movePhoto .up)) = some g ∧ ¬ ReadsInside g.screen := by
  obtain ⟨w₀, hbuild, view, hview, hheight⟩ := buildWorld_beckmanDisk
  have hlarge : Sound Large w₀ :=
    (buildWorld_built hbuild).sound.mono fun _ => large_beckmanDisk
  obtain ⟨g₀, hstart, hbased₀, hmoved₀⟩ :=
    based_start (fun _ => 0) (fun _ _ => 0) hlarge startInRoom
  have hcoherent₀ := hbased₀.viewing.coherent
  obtain ⟨g₁, henter, hbased₁, hmoved₁⟩ := based_enter hlarge ⟨hbased₀.xSpeed, hcoherent₀.xSpeed.2⟩
    ⟨hbased₀.ySpeed, hcoherent₀.ySpeed.2⟩ hcoherent₀.fits hbased₀.base .beckman
  have hspeed₁ : g₁.ySpeed = motionSpeed := hmoved₁.ySpeed.trans hmoved₀.ySpeed
  have hY₁ : g₁.mapY = 0 := hmoved₁.mapY
  obtain ⟨g, hups, hbased, hX, hY⟩ :=
    based_ups hview hheight 56 hbased₁ hmoved₁.mapX hspeed₁ (by omega)
  refine ⟨w₀, hbuild, g, ?_, ?_⟩
  · rw [run_cons, hstart, Option.bind_some, run_cons, henter, Option.bind_some, hups]
  · rw [readsInside_iff hbased.viewing.coherent.fits]
    unfold windowStart
    rw [hbased.base, hbased.viewing.current.showX, hbased.viewing.current.showY, hX, hY, hY₁,
      buildBaseInit_eq, scrollXWidth_eq]
    decide

end MachineProblems.Analysis.Adventure
