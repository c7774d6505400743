import MachineProblems.Analysis.Adventure.Coherence
import MachineProblems.Library.Run

/-!
# Where scrolling stops

The position of the view after any number of scrolling commands depends on the size of the photo
and on the speeds only (`scrolls_view`).  It stays on the photo as long as nobody scrolls towards
the far edge of a photo that is smaller than the view: there the distance to the edge is negative,
and the position wraps around (`view_clamped_iff`).
-/

set_option autoImplicit false

namespace MachineProblems.Analysis.Adventure

open MachineProblems.Library MachineProblems.Program.Adventure
open MachineProblems.Program.PhotoFile (Photo windowHeight_le)

/-! ## The position of the view -/

/-- The four move functions of the photo. -/
inductive Scroll
  | down | left | right | up
  deriving DecidableEq

/-- What each of them does to the game. -/
def Scroll.move : Scroll → Game → Option Game
  | .down => movePhotoDown
  | .left => movePhotoLeft
  | .right => movePhotoRight
  | .up => movePhotoUp

/-- What each of them does to `map_x` and `map_y`. -/
def Scroll.view (photo : Photo) (xSpeed ySpeed : ℤ) : ℕ × ℕ → Scroll → ℕ × ℕ
  | (mapX, mapY), .down => (mapX, asUnsigned (mapY - deltaBack ySpeed mapY))
  | (mapX, mapY), .left =>
      (asUnsigned (mapX + deltaForth xSpeed photo.width scrollXDim mapX), mapY)
  | (mapX, mapY), .right => (asUnsigned (mapX - deltaBack xSpeed mapX), mapY)
  | (mapX, mapY), .up =>
      (mapX, asUnsigned (mapY + deltaForth ySpeed photo.height scrollYDim mapY))

/-- The game with another view, and the same room, world and speeds. -/
structure Reviewed (g g' : Game) (mapX mapY : ℕ) : Prop where
  place : g'.place = g.place
  world : g'.world = g.world
  xSpeed : g'.xSpeed = g.xSpeed
  ySpeed : g'.ySpeed = g.ySpeed
  mapX : g'.mapX = mapX
  mapY : g'.mapY = mapY

/-- The tail shared by the move functions: the window is moved, and lines are drawn. -/
theorem reviewed_tail {g g' : Game} {draw : Game → Screen → Option Screen}
    (h : (do
      let g ← viewWindow g
      let screen ← draw g g.screen
      some { g with screen := screen }) = some g') : Reviewed g g' g.mapX g.mapY := by
  obtain ⟨g₁, hwindow, hdraw⟩ := Option.bind_eq_some_iff.mp h
  obtain ⟨s₁, -, hg₁⟩ := Option.bind_eq_some_iff.mp hwindow
  obtain ⟨s₂, -, hg'⟩ := Option.bind_eq_some_iff.mp hdraw
  obtain rfl := Option.some.inj hg₁
  obtain rfl := Option.some.inj hg'
  exact ⟨rfl, rfl, rfl, rfl, rfl, rfl⟩

/-- A move function that returns has moved the view. -/
theorem move_view {g g' : Game} {r : RoomId} {photo : Photo} (hr : g.place = some r)
    (hview : (g.world.room r).view = some photo) (scroll : Scroll)
    (h : scroll.move g = some g') :
    Reviewed g g' (Scroll.view photo g.xSpeed g.ySpeed (g.mapX, g.mapY) scroll).1
      (Scroll.view photo g.xSpeed g.ySpeed (g.mapX, g.mapY) scroll).2 := by
  cases scroll with
  | down =>
      obtain ⟨hp, hw, hx, hy, hX, hY⟩ := reviewed_tail h
      exact ⟨hp, hw, hx, hy, hX, hY⟩
  | right =>
      obtain ⟨hp, hw, hx, hy, hX, hY⟩ := reviewed_tail h
      exact ⟨hp, hw, hx, hy, hX, hY⟩
  | left =>
      simp only [Scroll.view]
      have hside := roomPhoto_eq hr hview Photo.width
      simp only [Scroll.move, movePhotoLeft, hside, Option.bind_eq_bind, Option.bind_some] at h
      obtain ⟨hp, hw, hx, hy, hX, hY⟩ := reviewed_tail h
      exact ⟨hp, hw, hx, hy, hX, hY⟩
  | up =>
      simp only [Scroll.view]
      have hside := roomPhoto_eq hr hview Photo.height
      simp only [Scroll.move, movePhotoUp, hside, Option.bind_eq_bind, Option.bind_some] at h
      obtain ⟨hp, hw, hx, hy, hX, hY⟩ := reviewed_tail h
      exact ⟨hp, hw, hx, hy, hX, hY⟩

/-- The view after a sequence of scrolling commands in a room just entered. -/
def viewAfter (photo : Photo) (xSpeed ySpeed : ℤ) (scrolls : List Scroll) : ℕ × ℕ :=
  scrolls.foldl (Scroll.view photo xSpeed ySpeed) (0, 0)

/-- **The game moves the view** as `Scroll.view` says, in every run of scrolling commands. -/
theorem scrolls_view {g g' : Game} {r : RoomId} {photo : Photo} (hr : g.place = some r)
    (hview : (g.world.room r).view = some photo) {scrolls : List Scroll}
    (h : run (fun g scroll => Scroll.move scroll g) g scrolls = some g') :
    (g'.mapX, g'.mapY) =
      scrolls.foldl (Scroll.view photo g.xSpeed g.ySpeed) (g.mapX, g.mapY) := by
  induction scrolls generalizing g with
  | nil =>
      obtain rfl := Option.some.inj h
      rfl
  | cons scroll scrolls ih =>
      obtain ⟨g₁, hmove, hrest⟩ := Option.bind_eq_some_iff.mp h
      obtain ⟨hp, hw, hx, hy, hX, hY⟩ := move_view hr hview scroll hmove
      have hend := ih (hp.trans hr) (hw ▸ hview) hrest
      rw [hx, hy, hX, hY] at hend
      exact hend

/-! ## Clamping -/

/-- The view is on the photo, or at its edge if the photo is smaller. -/
def Clamped (photo : Photo) (view : ℕ × ℕ) : Prop :=
  (view.1 : ℤ) ≤ max 0 ((photo.width : ℤ) - scrollXDim) ∧
    (view.2 : ℤ) ≤ max 0 ((photo.height : ℤ) - scrollYDim)

/-- A command that does not scroll past the far edge of a photo smaller than the view. -/
def Allowed (photo : Photo) (scroll : Scroll) : Prop :=
  (scroll = .left → scrollXDim ≤ photo.width) ∧ (scroll = .up → scrollYDim ≤ photo.height)

section Axis

variable {speed : ℤ} (h0 : 0 ≤ speed) (h6 : speed ≤ 6) {side dim pos : ℕ} (hside : side ≤ 1024)
  (hdim : dim ≤ 1024) (hpos : (pos : ℤ) ≤ max 0 ((side : ℤ) - dim))

include h0 h6 hside hpos

/-- Towards the origin the position never leaves the photo. -/
theorem back_clamped : (asUnsigned (pos - deltaBack speed pos) : ℤ) ≤ max 0 ((side : ℤ) - dim) := by
  rw [deltaBack_eq h0 h6 (by omega), asUnsigned_of_nonneg (by omega) (by omega)]
  omega

include hdim

/-- Away from the origin it stays on the photo exactly if the photo is as large as the view. -/
theorem forth_clamped_iff :
    (asUnsigned (pos + deltaForth speed side dim pos) : ℤ) ≤ max 0 ((side : ℤ) - dim) ↔
      dim ≤ side := by
  by_cases hlarge : dim ≤ side
  · rw [deltaForth_eq (by omega) (by omega), asUnsigned_of_nonneg (by omega) (by omega)]
    exact iff_of_true (by omega) hlarge
  · refine iff_of_false ?_ hlarge
    -- the distance to the edge is negative, and so is the new position
    obtain rfl : pos = 0 := by omega
    have hdistance : asInt (asUnsigned ((side : ℤ) - dim - (0 : ℕ))) = (side : ℤ) - dim := by
      unfold asInt asUnsigned
      rw [Int.bmod_def]
      split_ifs <;> omega
    have hdelta : deltaForth speed side dim 0 = (side : ℤ) - dim := by
      unfold deltaForth
      rw [hdistance]
      exact if_pos (by omega)
    rw [hdelta]
    unfold asUnsigned
    omega

end Axis

/-- One command keeps the view on the photo exactly if it is allowed. -/
theorem view_clamped_step {photo : Photo} {xSpeed ySpeed : ℤ} (hx : 0 ≤ xSpeed ∧ xSpeed ≤ 6)
    (hy : 0 ≤ ySpeed ∧ ySpeed ≤ 6) {view : ℕ × ℕ} (h : Clamped photo view) (scroll : Scroll) :
    Clamped photo (Scroll.view photo xSpeed ySpeed view scroll) ↔ Allowed photo scroll := by
  obtain ⟨mapX, mapY⟩ := view
  have hX : (mapX : ℤ) ≤ max 0 ((photo.width : ℤ) - scrollXDim) := h.1
  have hY : (mapY : ℤ) ≤ max 0 ((photo.height : ℤ) - scrollYDim) := h.2
  have hwidth : photo.width ≤ 1024 := photo.width_le
  have hheight : photo.height ≤ 1024 := photo.height_le
  unfold Clamped
  cases scroll with
  | down =>
      simp only [Scroll.view]
      have hback := back_clamped hy.1 hy.2 hheight hY
      exact iff_of_true ⟨hX, hback⟩ ⟨by rintro ⟨⟩, by rintro ⟨⟩⟩
  | right =>
      simp only [Scroll.view]
      have hback := back_clamped hx.1 hx.2 hwidth hX
      exact iff_of_true ⟨hback, hY⟩ ⟨by rintro ⟨⟩, by rintro ⟨⟩⟩
  | left =>
      simp only [Scroll.view]
      have hdim : scrollXDim ≤ 1024 := by decide
      have hforth := forth_clamped_iff hx.1 hx.2 hwidth hdim hX
      constructor
      · exact fun h => ⟨fun _ => hforth.mp h.1, by rintro ⟨⟩⟩
      · exact fun h => ⟨hforth.mpr (h.1 rfl), hY⟩
  | up =>
      simp only [Scroll.view]
      have hdim : scrollYDim ≤ 1024 := by decide
      have hforth := forth_clamped_iff hy.1 hy.2 hheight hdim hY
      constructor
      · exact fun h => ⟨by rintro ⟨⟩, fun _ => hforth.mp h.2⟩
      · exact fun h => ⟨hX, hforth.mpr (h.2 rfl)⟩

/-- The speed on one axis, with or without the board or the jetpack. -/
def speedWith (carried : Bool) : ℤ := if carried then motionSpeed * 3 else motionSpeed

theorem speedWith_bounds (carried : Bool) : 0 ≤ speedWith carried ∧ speedWith carried ≤ 6 := by
  cases carried <;> decide

/-- **View clamping**: in every room, at every speed and after every sequence of scrolling commands
the game's view is `viewAfter`; and that stays on the photo all along exactly if nobody scrolls left
on a photo narrower than the view or up on a lower one. -/
theorem view_clamped_iff (photo : Photo) (board jetpack : Bool) (scrolls : List Scroll) :
    (∀ (g g' : Game) (r : RoomId) (before : List Scroll), g.place = some r →
      (g.world.room r).view = some photo → g.mapX = 0 → g.mapY = 0 →
      g.xSpeed = speedWith board → g.ySpeed = speedWith jetpack →
      run (fun g scroll => Scroll.move scroll g) g before = some g' →
      (g'.mapX, g'.mapY) = viewAfter photo (speedWith board) (speedWith jetpack) before) ∧
    ((∀ before, before <+: scrolls →
        Clamped photo (viewAfter photo (speedWith board) (speedWith jetpack) before)) ↔
      (photo.width < scrollXDim → .left ∉ scrolls) ∧
        (photo.height < scrollYDim → .up ∉ scrolls)) := by
  constructor
  · intro g g' r before hr hview hX hY hx hy hrun
    have hend := scrolls_view hr hview hrun
    rwa [hX, hY, hx, hy] at hend
  · have hstart : Clamped photo (0, 0) := ⟨le_max_left _ _, le_max_left _ _⟩
    have hstep (view : ℕ × ℕ) (scroll : Scroll) (h : Clamped photo view) :=
      view_clamped_step (speedWith_bounds board) (speedWith_bounds jetpack) h scroll
    refine (foldl_prefixes_iff hstep hstart scrolls).trans ?_
    constructor
    · intro h
      constructor
      · exact fun hnarrow hmem => absurd ((h _ hmem).1 rfl) (by omega)
      · exact fun hlow hmem => absurd ((h _ hmem).2 rfl) (by omega)
    · rintro ⟨hleft, hup⟩ scroll hmem
      constructor
      · rintro rfl
        by_contra hnarrow
        exact hleft (by omega) hmem
      · rintro rfl
        by_contra hlow
        exact hup (by omega) hmem

/-- A photo one pixel narrower than the view. -/
def narrowPhoto : Photo :=
  ⟨319, 182, fun _ => none, Vector.replicate _ 0, by decide, windowHeight_le⟩

/-- Scrolling left in its room wraps the position around. -/
theorem narrowPhoto_not_clamped :
    viewAfter narrowPhoto (speedWith false) (speedWith false) [.left] = (2 ^ 32 - 1, 0) ∧
      ¬ Clamped narrowPhoto
        (viewAfter narrowPhoto (speedWith false) (speedWith false) [.left]) := by
  have hview : viewAfter narrowPhoto (speedWith false) (speedWith false) [.left] =
      (2 ^ 32 - 1, 0) := by decide
  refine ⟨hview, ?_⟩
  rw [hview]
  exact fun h => absurd h.1 (by decide)

end MachineProblems.Analysis.Adventure
