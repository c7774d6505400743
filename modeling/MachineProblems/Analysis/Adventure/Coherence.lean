import MachineProblems.Analysis.Adventure.Pictures
import MachineProblems.Analysis.Adventure.Screens
import MachineProblems.Program.Adventure.Game

/-!
# The screen shows the room

Between two rounds of the event loop the part of the build buffer in the view window is the
picture of the player's room, unless the room is to be drawn anew.  Scrolling keeps this by
drawing the lines that come into the window, and commands keep it because they say what they
changed.
-/

set_option autoImplicit false

namespace MachineProblems.Analysis.Adventure

open MachineProblems.Library MachineProblems.Program.Adventure MachineProblems.Program.PhotoFile
  MachineProblems.Model

/-! ## Drawing the current room -/

/-- The photo covers the screen. -/
def Large (p : Photo) : Prop := scrollXDim ≤ p.width ∧ scrollYDim ≤ p.height

/-- The window of `s` lies on the photo of the room `r`. -/
def OnPhoto (w : World) (r : RoomId) (s : Screen) : Prop :=
  ∃ view, (w.room r).view = some view ∧ 0 ≤ s.showX ∧ s.showX + scrollXDim ≤ view.width ∧
    0 ≤ s.showY ∧ s.showY + scrollYDim ≤ view.height

section Draw

variable {P : Photo → Prop} {g : Game} {r : RoomId} {s : Screen}

theorem viewWindow_eq {x y : ℤ} (hX : asInt g.mapX = x) (hY : asInt g.mapY = y)
    (hset : setViewWindow g.screen x y = some s) :
    viewWindow g = some { g with screen := s } := by
  unfold viewWindow
  rw [hX, hY, hset]
  rfl

theorem prepRoom_eq {view : Photo} (hr : g.place = some r)
    (hview : (g.world.room r).view = some view) :
    prepRoom g = some { g with curRoom := some r } := by
  unfold prepRoom
  rw [hr, Option.bind_eq_bind, Option.bind_some, hview]
  rfl

theorem horizLine_painted (hw : Sound P g.world) (hcur : g.curRoom = some r) (hs : Fits s)
    (hphoto : OnPhoto g.world r s) {y : ℤ} (hy : 0 ≤ y) (hy' : y < scrollYDim) :
    ∃ s', drawHorizLine (horizLine g) s y = some (s', 0) ∧
      Painted s s' (fun _ b => b = y + s.showY) (refPixel g.world r) := by
  obtain ⟨view, hview, hx, hx', hy₀, hy₁⟩ := hphoto
  apply drawHorizLine_painted hs hy hy'
  obtain ⟨buf, hrun, hbuf⟩ :=
    fillHorizBuffer_spec (y := y + s.showY) hw hview hx hx' (by omega) (by omega) emptyBuf
  refine ⟨buf, ?_, hbuf⟩
  unfold horizLine
  rw [hcur]
  exact hrun

theorem vertLine_painted (hw : Sound P g.world) (hcur : g.curRoom = some r) (hs : Fits s)
    (hphoto : OnPhoto g.world r s) {x : ℤ} (hx : 0 ≤ x) (hx' : x < scrollXDim) :
    ∃ s', drawVertLine (vertLine g) s x = some (s', 0) ∧
      Painted s s' (fun a _ => a = x + s.showX) (refPixel g.world r) := by
  obtain ⟨view, hview, hx₀, hx₁, hy, hy'⟩ := hphoto
  apply drawVertLine_painted hs hx hx'
  obtain ⟨buf, hrun, hbuf⟩ :=
    fillVertBuffer_spec (x := x + s.showX) hw hview (by omega) (by omega) hy hy' emptyBuf
  refine ⟨buf, ?_, hbuf⟩
  unfold vertLine
  rw [hcur]
  exact hrun

/-- A loop that draws lines paints all of them. -/
theorem drawLines_painted {draw : Screen → ℤ → Option (Screen × ℤ)} {line : ℕ → ℤ} {n : ℕ}
    {picture : ℤ → ℤ → Option UInt8} (hs : Fits s) (stroke : ℤ → ℤ → ℤ → Prop)
    (hdraw : ∀ i < n, ∀ m, Fits { s with build := m } →
      ∃ s', draw { s with build := m } (line i) = some (s', 0) ∧
        Painted { s with build := m } s' (stroke (line i)) picture) :
    ∃ s', drawLines draw line n s = some s' ∧
      Painted s s' (fun x y => ∃ i < n, stroke (line i) x y) picture := by
  refine attempts_total
    (I := fun k t => Painted s t (fun x y => ∃ i < k, stroke (line i) x y) picture) ?_ ?_
  · refine ⟨⟨s.build, rfl⟩, ?_, fun _ _ _ _ => rfl⟩
    rintro x y _ ⟨i, hi, -⟩
    exact absurd hi (Nat.not_lt_zero i)
  · intro i t hi ht
    have hfits := fits_painted hs ht
    obtain ⟨m, rfl⟩ := ht.frame
    obtain ⟨t', hrun, hpainted⟩ := hdraw i hi m hfits
    refine ⟨t', by rw [hrun]; rfl, ?_⟩
    have hthen := ht.then hpainted
    have hlines : (fun x y => (∃ j < i, stroke (line j) x y) ∨ stroke (line i) x y) =
        fun x y => ∃ j < i + 1, stroke (line j) x y := by
      funext x y
      simp only [Nat.lt_succ_iff_lt_or_eq, or_and_right, exists_or, exists_eq_left]
    rwa [hlines] at hthen

/-- **`redraw_room`** paints the window. -/
theorem redrawRoom_painted (hw : Sound P g.world) (hcur : g.curRoom = some r)
    (hs : Fits g.screen) (hphoto : OnPhoto g.world r g.screen) :
    ∃ s', redrawRoom g = some { g with screen := s' } ∧
      Painted g.screen s' (fun _ _ => True) (refPixel g.world r) := by
  have hrows : ∀ i < scrollYDim, ∀ m, Fits { g.screen with build := m } →
      ∃ s', drawHorizLine (horizLine g) { g.screen with build := m } (i : ℕ) = some (s', 0) ∧
        Painted { g.screen with build := m } s' (fun _ b => b = (i : ℕ) + g.screen.showY)
          (refPixel g.world r) :=
    fun i hi m hfits => horizLine_painted hw hcur hfits hphoto (by omega) (by omega)
  obtain ⟨s', hrun, hpainted⟩ :=
    drawLines_painted hs (fun c _ b => b = c + g.screen.showY) hrows
  refine ⟨s', ?_, hpainted.frame, ?_, fun _ _ _ hnot => absurd trivial hnot⟩
  · unfold redrawRoom
    rw [hrun]
    rfl
  · rintro x y hin -
    apply hpainted.inside x y hin
    obtain ⟨-, -, hy, hy'⟩ := hin
    exact ⟨(y - g.screen.showY).toNat, by omega, by omega⟩

end Draw

/-! ## The invariant -/

/-- The window is the player's, lies on the photo of the room, and shows its picture. -/
structure Current (g : Game) (r : RoomId) : Prop where
  room : g.curRoom = some r
  showX : g.screen.showX = g.mapX
  showY : g.screen.showY = g.mapY
  photo : OnPhoto g.world r g.screen
  shown : ∀ x y, InWindow g.screen x y → refPixel g.world r x y = some (pixelAt g.screen x y)

/-- What holds at every point of a game. -/
structure Coherent (g : Game) : Prop where
  sound : Sound Large g.world
  xSpeed : 0 ≤ g.xSpeed ∧ g.xSpeed ≤ 6
  ySpeed : 0 ≤ g.ySpeed ∧ g.ySpeed ≤ 6
  fits : Fits g.screen
  fresh : g.enterRoom = false → ∀ r, g.place = some r → Current g r

/-! ## Counting pixels -/

theorem asUnsigned_of_nonneg {n : ℤ} (h0 : 0 ≤ n) (hn : n < 2 ^ 32) : asUnsigned n = n.toNat := by
  unfold asUnsigned
  rw [Int.emod_eq_of_lt h0 hn]

theorem asInt_of_lt {n : ℕ} (hn : n < 2 ^ 31) : asInt n = n := by
  unfold asInt
  rw [Int.bmod_eq_of_le]
  · omega
  · omega

theorem deltaBack_eq {speed : ℤ} (h0 : 0 ≤ speed) (h6 : speed ≤ 6) {pos : ℕ} (hpos : pos < 2 ^ 31) :
    deltaBack speed pos = min speed pos := by
  unfold deltaBack
  rw [asUnsigned_of_nonneg h0 (by omega)]
  split
  · rw [asInt_of_lt hpos]
    omega
  · rw [asInt_of_lt (by omega)]
    omega

theorem deltaForth_eq {speed : ℤ} {side dim pos : ℕ} (hside : side < 2 ^ 31)
    (hpos : pos + dim ≤ side) :
    deltaForth speed side dim pos = min speed (side - dim - pos) := by
  unfold deltaForth
  rw [asUnsigned_of_nonneg (by omega) (by omega), asInt_of_lt (by omega)]
  dsimp only
  split
  · omega
  · omega

/-- Towards the origin the view moves by the speed, or by what is left. -/
theorem deltaBack_spec {speed : ℤ} (hspeed : 0 ≤ speed ∧ speed ≤ 6) {pos : ℕ} (hpos : pos < 2 ^ 31) :
    ∃ d : ℕ, deltaBack speed pos = d ∧ d ≤ 6 ∧ d ≤ pos ∧ asUnsigned (pos - d) = pos - d := by
  refine ⟨(min speed pos).toNat, ?_, by omega, by omega, ?_⟩
  · rw [deltaBack_eq hspeed.1 hspeed.2 hpos]
    omega
  · rw [asUnsigned_of_nonneg (by omega) (by omega)]
    omega

/-- And so away from it. -/
theorem deltaForth_spec {speed : ℤ} (hspeed : 0 ≤ speed ∧ speed ≤ 6) {side dim pos : ℕ}
    (hside : side < 2 ^ 31) (hpos : pos + dim ≤ side) :
    ∃ d : ℕ, deltaForth speed side dim pos = d ∧ d ≤ 6 ∧ pos + d + dim ≤ side ∧
      asUnsigned (pos + d) = pos + d := by
  refine ⟨(min speed (side - dim - pos)).toNat, ?_, by omega, by omega, ?_⟩
  · rw [deltaForth_eq hside hpos]
    omega
  · rw [asUnsigned_of_nonneg (by omega) (by omega)]
    omega

/-! ## Scrolling -/

/-- Towards the origin, what was not seen before is at the near edge of the window. -/
theorem seen_or_near {pos d dim : ℕ} (hd : d ≤ pos) {a : ℤ} (h0 : (pos - d : ℕ) ≤ a)
    (hlt : a < (pos - d : ℕ) + dim) :
    (pos ≤ a ∧ a < pos + dim) ∨ ∃ i < d, a = (i : ℤ) + (pos - d : ℕ) := by
  by_cases hold : (pos : ℤ) ≤ a
  · left
    omega
  · right
    exact ⟨(a - (pos - d : ℕ)).toNat, by omega, by omega⟩

/-- Away from the origin, what was not seen before is at the far edge of the window. -/
theorem seen_or_far {pos d dim : ℕ} {a : ℤ} (h0 : (pos + d : ℕ) ≤ a)
    (hlt : a < (pos + d : ℕ) + dim) :
    (pos ≤ a ∧ a < pos + dim) ∨ ∃ i < d, a = (dim : ℤ) - ((i : ℕ) + 1) + (pos + d : ℕ) := by
  by_cases hold : a < (pos : ℤ) + dim
  · left
    omega
  · right
    exact ⟨((pos + d : ℕ) + dim - 1 - a).toNat, by omega, by omega⟩

/-- The row of the window that `draw_horiz_line` draws. -/
def rowLine (s : Screen) (c : ℤ) : ℤ → ℤ → Prop := fun _ b => b = c + s.showY

/-- The column of the window that `draw_vert_line` draws. -/
def columnLine (s : Screen) (c : ℤ) : ℤ → ℤ → Prop := fun a _ => a = c + s.showX

section Scroll

variable {g : Game} {r : RoomId}

/-- The window after a scroll: what was seen before is kept, what was not is drawn. -/
theorem current_scroll {mapX mapY : ℕ} {s₁ s₂ : Screen} {line : ℤ → ℤ → Prop}
    (hc : Current g r) (hshift : Shifted g.screen s₁ mapX mapY)
    (hpaint : Painted s₁ s₂ line (refPixel g.world r)) (hphoto : OnPhoto g.world r s₁)
    (hcover : ∀ x y, InWindow s₁ x y → InWindow g.screen x y ∨ line x y) :
    Current { g with mapX := mapX, mapY := mapY, screen := s₂ } r := by
  have hwindow := inWindow_painted hpaint
  have hshown : ∀ x y, InWindow s₁ x y →
      refPixel g.world r x y = some (pixelAt s₂ x y) := by
    intro x y hin
    by_cases hline : line x y
    · exact hpaint.inside x y hin hline
    · have hold := (hcover x y hin).resolve_right hline
      rw [hpaint.outside x y hin hline, hshift.kept x y hold hin]
      exact hc.shown x y hold
  obtain ⟨m, rfl⟩ := hpaint.frame
  exact ⟨hc.room, hshift.showX, hshift.showY, hphoto, hshown⟩

/-- **A scroll**: the window is moved, and lines are drawn that cover what was not seen. -/
theorem scroll_current (h : Coherent g) (hc : Current g r) {mapX mapY : ℕ}
    {draw : Game → Screen → ℤ → Option (Screen × ℤ)} {line : ℕ → ℤ} {n : ℕ}
    {stroke : Screen → ℤ → ℤ → ℤ → Prop}
    (hphoto : ∀ view, (g.world.room r).view = some view →
      mapX + scrollXDim ≤ view.width ∧ mapY + scrollYDim ≤ view.height)
    (hframe : ∀ s m, stroke { s with build := m } = stroke s)
    (hdraw : ∀ g' : Game, g'.world = g.world → g'.curRoom = g.curRoom → ∀ i < n, ∀ s, Fits s →
      OnPhoto g.world r s → ∃ s', draw g' s (line i) = some (s', 0) ∧
        Painted s s' (stroke s (line i)) (refPixel g.world r))
    (hcover : ∀ s : Screen, s.showX = mapX → s.showY = mapY → ∀ x y, InWindow s x y →
      InWindow g.screen x y ∨ ∃ i < n, stroke s (line i) x y) :
    ∃ s₂, ((viewWindow { g with mapX := mapX, mapY := mapY }).bind fun g =>
        (drawLines (draw g) line n g.screen).bind fun s => some { g with screen := s }) =
          some { g with mapX := mapX, mapY := mapY, screen := s₂ } ∧ Fits s₂ ∧
      Current { g with mapX := mapX, mapY := mapY, screen := s₂ } r := by
  obtain ⟨view, hview, -⟩ := hc.photo
  obtain ⟨hwidth, hheight⟩ := hphoto view hview
  have hwidth' : view.width ≤ 1024 := view.width_le
  have hheight' : view.height ≤ 1024 := view.height_le
  have hX : asInt mapX = mapX := asInt_of_lt (by omega)
  have hY : asInt mapY = mapY := asInt_of_lt (by omega)
  obtain ⟨s₁, hset, hshift⟩ := setViewWindow_shifted h.fits (mapX : ℤ) mapY
  have hphoto₁ : OnPhoto g.world r s₁ := by
    refine ⟨view, hview, ?_⟩
    rw [hshift.showX, hshift.showY]
    omega
  have hlines : ∀ i < n, ∀ m, Fits { s₁ with build := m } →
      ∃ s', draw { g with mapX := mapX, mapY := mapY, screen := s₁ } { s₁ with build := m }
        (line i) = some (s', 0) ∧
          Painted { s₁ with build := m } s' (stroke s₁ (line i)) (refPixel g.world r) := by
    intro i hi m hfits
    have hline := hdraw { g with mapX := mapX, mapY := mapY, screen := s₁ } rfl rfl i hi
      { s₁ with build := m } hfits hphoto₁
    rwa [hframe] at hline
  obtain ⟨s₂, hdrawn, hpaint⟩ := drawLines_painted hshift.fits (stroke s₁) hlines
  refine ⟨s₂, ?_, fits_painted hshift.fits hpaint, ?_⟩
  · have hwindow : viewWindow { g with mapX := mapX, mapY := mapY } =
        some { g with mapX := mapX, mapY := mapY, screen := s₁ } := viewWindow_eq hX hY hset
    rw [hwindow, Option.bind_some, hdrawn, Option.bind_some]
  · exact current_scroll hc hshift hpaint hphoto₁ (hcover s₁ hshift.showX hshift.showY)

/-- A scroll up or down: the rows that come into the window are drawn. -/
theorem scroll_rows (h : Coherent g) (hc : Current g r) (mapY : ℕ) (line : ℕ → ℤ) (n : ℕ)
    (hphoto : ∀ view, (g.world.room r).view = some view → mapY + scrollYDim ≤ view.height)
    (hline : ∀ i < n, 0 ≤ line i ∧ line i < scrollYDim)
    (hcover : ∀ y : ℤ, mapY ≤ y → y < mapY + scrollYDim →
      (g.mapY ≤ y ∧ y < g.mapY + scrollYDim) ∨ ∃ i < n, y = line i + mapY) :
    ∃ s₂, ((viewWindow { g with mapY := mapY }).bind fun g =>
        (drawLines (drawHorizLine (horizLine g)) line n g.screen).bind fun s =>
          some { g with screen := s }) = some { g with mapY := mapY, screen := s₂ } ∧ Fits s₂ ∧
      Current { g with mapY := mapY, screen := s₂ } r := by
  obtain ⟨view, hview, -, hx, -, -⟩ := hc.photo
  rw [hc.showX] at hx
  have hphoto' : ∀ view, (g.world.room r).view = some view →
      g.mapX + scrollXDim ≤ view.width ∧ mapY + scrollYDim ≤ view.height := by
    intro view' hview'
    have hheight := hphoto view' hview'
    obtain rfl := Option.some.inj (hview.symm.trans hview')
    exact ⟨by exact_mod_cast hx, hheight⟩
  have hdraw : ∀ g' : Game, g'.world = g.world → g'.curRoom = g.curRoom → ∀ i < n, ∀ s, Fits s →
      OnPhoto g.world r s → ∃ s', drawHorizLine (horizLine g') s (line i) = some (s', 0) ∧
        Painted s s' (rowLine s (line i)) (refPixel g.world r) := by
    intro g' hworld hcur i hi s hs hon
    have hsound := h.sound
    rw [← hworld] at hon hsound ⊢
    exact horizLine_painted hsound (hcur.trans hc.room) hs hon (hline i hi).1 (hline i hi).2
  refine scroll_current h hc hphoto' (fun _ _ => rfl) hdraw ?_
  rintro s hsX hsY x y ⟨hx₀, hx₁, hy₀, hy₁⟩
  rw [hsX] at hx₀ hx₁
  rw [hsY] at hy₀ hy₁
  rcases hcover y hy₀ hy₁ with ⟨hold, hold'⟩ | ⟨i, hi, heq⟩
  · left
    refine ⟨?_, ?_, ?_, ?_⟩
    · rwa [hc.showX]
    · rwa [hc.showX]
    · rwa [hc.showY]
    · rwa [hc.showY]
  · right
    refine ⟨i, hi, ?_⟩
    rw [rowLine, hsY]
    exact heq

/-- A scroll to a side: the columns that come into the window are drawn. -/
theorem scroll_columns (h : Coherent g) (hc : Current g r) (mapX : ℕ) (line : ℕ → ℤ) (n : ℕ)
    (hphoto : ∀ view, (g.world.room r).view = some view → mapX + scrollXDim ≤ view.width)
    (hline : ∀ i < n, 0 ≤ line i ∧ line i < scrollXDim)
    (hcover : ∀ x : ℤ, mapX ≤ x → x < mapX + scrollXDim →
      (g.mapX ≤ x ∧ x < g.mapX + scrollXDim) ∨ ∃ i < n, x = line i + mapX) :
    ∃ s₂, ((viewWindow { g with mapX := mapX }).bind fun g =>
        (drawLines (drawVertLine (vertLine g)) line n g.screen).bind fun s =>
          some { g with screen := s }) = some { g with mapX := mapX, screen := s₂ } ∧ Fits s₂ ∧
      Current { g with mapX := mapX, screen := s₂ } r := by
  obtain ⟨view, hview, -, -, -, hy⟩ := hc.photo
  rw [hc.showY] at hy
  have hphoto' : ∀ view, (g.world.room r).view = some view →
      mapX + scrollXDim ≤ view.width ∧ g.mapY + scrollYDim ≤ view.height := by
    intro view' hview'
    have hwidth := hphoto view' hview'
    obtain rfl := Option.some.inj (hview.symm.trans hview')
    exact ⟨hwidth, by exact_mod_cast hy⟩
  have hdraw : ∀ g' : Game, g'.world = g.world → g'.curRoom = g.curRoom → ∀ i < n, ∀ s, Fits s →
      OnPhoto g.world r s → ∃ s', drawVertLine (vertLine g') s (line i) = some (s', 0) ∧
        Painted s s' (columnLine s (line i)) (refPixel g.world r) := by
    intro g' hworld hcur i hi s hs hon
    have hsound := h.sound
    rw [← hworld] at hon hsound ⊢
    exact vertLine_painted hsound (hcur.trans hc.room) hs hon (hline i hi).1 (hline i hi).2
  refine scroll_current h hc hphoto' (fun _ _ => rfl) hdraw ?_
  rintro s hsX hsY x y ⟨hx₀, hx₁, hy₀, hy₁⟩
  rw [hsX] at hx₀ hx₁
  rw [hsY] at hy₀ hy₁
  rcases hcover x hx₀ hx₁ with ⟨hold, hold'⟩ | ⟨i, hi, heq⟩
  · left
    refine ⟨?_, ?_, ?_, ?_⟩
    · rwa [hc.showX]
    · rwa [hc.showX]
    · rwa [hc.showY]
    · rwa [hc.showY]
  · right
    refine ⟨i, hi, ?_⟩
    rw [columnLine, hsX]
    exact heq

/-- Where a game goes that is scrolled. -/
structure Scrolled (g g' : Game) (r : RoomId) : Prop where
  frame : ∃ mapX mapY s, g' = { g with mapX := mapX, mapY := mapY, screen := s }
  fits : Fits g'.screen
  current : Current g' r

/-- The room's photo, and how much of it there is. -/
theorem Current.bounds (hc : Current g r) : ∃ view, (g.world.room r).view = some view ∧
    g.mapX + scrollXDim ≤ view.width ∧ g.mapY + scrollYDim ≤ view.height ∧
    view.width ≤ 1024 ∧ view.height ≤ 1024 := by
  obtain ⟨view, hview, -, hx, -, hy⟩ := hc.photo
  rw [hc.showX] at hx
  rw [hc.showY] at hy
  exact ⟨view, hview, by exact_mod_cast hx, by exact_mod_cast hy, view.width_le, view.height_le⟩

theorem roomPhoto_eq {view : Photo} (hr : g.place = some r)
    (hview : (g.world.room r).view = some view) (side : Photo → ℕ) :
    roomPhoto g side = some (side view) := by
  unfold roomPhoto
  rw [hr, Option.bind_eq_bind, Option.bind_some, hview]
  rfl

/-- **`move_photo_down`** draws the rows above the old window. -/
theorem movePhotoDown_scrolled (h : Coherent g) (hc : Current g r) :
    ∃ g', movePhotoDown g = some g' ∧ Scrolled g g' r := by
  obtain ⟨view, hview, -, hy, -, hheight⟩ := hc.bounds
  have hpos : g.mapY < 2 ^ 31 := by omega
  obtain ⟨d, hdelta, hsmall, hback, hmap⟩ := deltaBack_spec h.ySpeed hpos
  have hphoto : ∀ view, (g.world.room r).view = some view →
      g.mapY - d + scrollYDim ≤ view.height := by
    intro view' hview'
    obtain rfl := Option.some.inj (hview.symm.trans hview')
    omega
  have hline : ∀ i < d, 0 ≤ (i : ℤ) ∧ (i : ℤ) < scrollYDim := by
    intro i hi
    rw [scrollYDim_eq]
    omega
  obtain ⟨s₂, hrun, hfits, hcurrent⟩ :=
    scroll_rows h hc _ _ _ hphoto hline fun _ => seen_or_near hback
  refine ⟨_, ?_, ⟨_, _, _, rfl⟩, hfits, hcurrent⟩
  unfold movePhotoDown
  simp only [hdelta, hmap, Int.toNat_natCast]
  exact hrun

/-- **`move_photo_up`** draws the rows below the old window. -/
theorem movePhotoUp_scrolled (h : Coherent g) (hr : g.place = some r) (hc : Current g r) :
    ∃ g', movePhotoUp g = some g' ∧ Scrolled g g' r := by
  obtain ⟨view, hview, -, hy, -, hheight⟩ := hc.bounds
  have hside : view.height < 2 ^ 31 := by omega
  obtain ⟨d, hdelta, hsmall, hedge, hmap⟩ := deltaForth_spec h.ySpeed hside hy
  have hphoto : ∀ view, (g.world.room r).view = some view →
      g.mapY + d + scrollYDim ≤ view.height := by
    intro view' hview'
    obtain rfl := Option.some.inj (hview.symm.trans hview')
    exact hedge
  have hline : ∀ i < d, 0 ≤ (scrollYDim : ℤ) - ((i : ℕ) + 1) ∧
      (scrollYDim : ℤ) - ((i : ℕ) + 1) < scrollYDim := by
    intro i hi
    rw [scrollYDim_eq]
    omega
  obtain ⟨s₂, hrun, hfits, hcurrent⟩ :=
    scroll_rows h hc _ _ _ hphoto hline fun _ => seen_or_far
  refine ⟨_, ?_, ⟨_, _, _, rfl⟩, hfits, hcurrent⟩
  unfold movePhotoUp
  simp only [roomPhoto_eq hr hview, Option.bind_eq_bind, Option.bind_some, hdelta, hmap,
    Int.toNat_natCast]
  exact hrun

/-- **`move_photo_right`** draws the columns to the left of the old window. -/
theorem movePhotoRight_scrolled (h : Coherent g) (hc : Current g r) :
    ∃ g', movePhotoRight g = some g' ∧ Scrolled g g' r := by
  obtain ⟨view, hview, hx, -, hwidth, -⟩ := hc.bounds
  have hpos : g.mapX < 2 ^ 31 := by omega
  obtain ⟨d, hdelta, hsmall, hback, hmap⟩ := deltaBack_spec h.xSpeed hpos
  have hphoto : ∀ view, (g.world.room r).view = some view →
      g.mapX - d + scrollXDim ≤ view.width := by
    intro view' hview'
    obtain rfl := Option.some.inj (hview.symm.trans hview')
    omega
  have hline : ∀ i < d, 0 ≤ (i : ℤ) ∧ (i : ℤ) < scrollXDim := by
    intro i hi
    rw [scrollXDim_eq]
    omega
  obtain ⟨s₂, hrun, hfits, hcurrent⟩ :=
    scroll_columns h hc _ _ _ hphoto hline fun _ => seen_or_near hback
  refine ⟨_, ?_, ⟨_, _, _, rfl⟩, hfits, hcurrent⟩
  unfold movePhotoRight
  simp only [hdelta, hmap, Int.toNat_natCast]
  exact hrun

/-- **`move_photo_left`** draws the columns to the right of the old window. -/
theorem movePhotoLeft_scrolled (h : Coherent g) (hr : g.place = some r) (hc : Current g r) :
    ∃ g', movePhotoLeft g = some g' ∧ Scrolled g g' r := by
  obtain ⟨view, hview, hx, -, hwidth, -⟩ := hc.bounds
  have hside : view.width < 2 ^ 31 := by omega
  obtain ⟨d, hdelta, hsmall, hedge, hmap⟩ := deltaForth_spec h.xSpeed hside hx
  have hphoto : ∀ view, (g.world.room r).view = some view →
      g.mapX + d + scrollXDim ≤ view.width := by
    intro view' hview'
    obtain rfl := Option.some.inj (hview.symm.trans hview')
    exact hedge
  have hline : ∀ i < d, 0 ≤ (scrollXDim : ℤ) - ((i : ℕ) + 1) ∧
      (scrollXDim : ℤ) - ((i : ℕ) + 1) < scrollXDim := by
    intro i hi
    rw [scrollXDim_eq]
    omega
  obtain ⟨s₂, hrun, hfits, hcurrent⟩ :=
    scroll_columns h hc _ _ _ hphoto hline fun _ => seen_or_far
  refine ⟨_, ?_, ⟨_, _, _, rfl⟩, hfits, hcurrent⟩
  unfold movePhotoLeft
  simp only [roomPhoto_eq hr hview, Option.bind_eq_bind, Option.bind_some, hdelta, hmap,
    Int.toNat_natCast]
  exact hrun

end Scroll

end MachineProblems.Analysis.Adventure
