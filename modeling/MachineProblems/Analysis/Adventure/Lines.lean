import MachineProblems.Analysis.Adventure.Playback
import MachineProblems.Analysis.Adventure.Fences

/-!
# Rows and columns

The two fill functions were written one after the other, with the coordinates exchanged.  Where a
row and a column of a room cross, they give the same pixel, however far the lines stick out of the
photo.  Each of them clips the photo along its line only: across the line it reads where it is
told to.
-/

set_option autoImplicit false

namespace MachineProblems.Analysis.Adventure

open MachineProblems.Library MachineProblems.Program.Adventure MachineProblems.Program.PhotoFile
  MachineProblems.Model

/-! ## On the photo -/

/-- A pixel of the photo, or what stands for it beside the photo. -/
def clipped (view : Photo) (x y : ℤ) : UInt8 := (photoPixel view x y).getD 0

theorem clipped_of_some {view : Photo} {x y : ℤ} {pixel : UInt8}
    (h : photoPixel view x y = some pixel) : clipped view x y = pixel := by
  unfold clipped
  rw [h, Option.getD_some]

theorem photoPixel_eq_none {view : Photo} {x y : ℤ}
    (h : ¬ (0 ≤ x ∧ x < view.width ∧ 0 ≤ y ∧ y < view.height)) : photoPixel view x y = none :=
  if_neg h

theorem clipped_outside {view : Photo} {x y : ℤ} (h : photoPixel view x y = none) :
    clipped view x y = 0 := by
  unfold clipped
  rw [h, Option.getD_none]

/-- A row that crosses the photo is clipped. -/
theorem linePixel_row {view : Photo} {y : ℤ} (hy : 0 ≤ y) (hy' : y < view.height) (x : ℤ)
    (idx : ℕ) : linePixel horiz view x y idx = some (clipped view (x + idx) y) := by
  unfold linePixel
  by_cases hin : 0 ≤ x + idx ∧ horiz.photoLength view > x + idx
  · obtain ⟨pixel, hpixel⟩ := photoPixel_isSome hin.1 hin.2 hy hy'
    rw [if_pos hin, clipped_of_some hpixel, ← hpixel]
    unfold photoPixel
    rw [if_pos ⟨hin.1, hin.2, hy, hy'⟩]
    rfl
  · have hnone : photoPixel view (x + idx) y = none :=
      photoPixel_eq_none fun h => hin ⟨h.1, h.2.1⟩
    rw [if_neg hin, clipped_outside hnone]

/-- A column that crosses the photo is clipped. -/
theorem linePixel_column {view : Photo} {x : ℤ} (hx : 0 ≤ x) (hx' : x < view.width) (y : ℤ)
    (idx : ℕ) : linePixel vert view y x idx = some (clipped view x (y + idx)) := by
  unfold linePixel
  by_cases hin : 0 ≤ y + idx ∧ vert.photoLength view > y + idx
  · obtain ⟨pixel, hpixel⟩ := photoPixel_isSome hx hx' hin.1 hin.2
    rw [if_pos hin, clipped_of_some hpixel, ← hpixel]
    unfold photoPixel
    rw [if_pos ⟨hx, hx', hin.1, hin.2⟩]
    rfl
  · have hnone : photoPixel view x (y + idx) = none :=
      photoPixel_eq_none fun h => hin ⟨h.2.2.1, h.2.2.2⟩
    rw [if_neg hin, clipped_outside hnone]

/-! ## Where a row and a column cross -/

section Cross

variable {w : World} {r : RoomId} {view : Photo} {l : List ObjId}

/-- What covers a place: the last object in the order of the list, if any. -/
def cover (w : World) (l : List ObjId) (x y : ℤ) : Option UInt8 :=
  l.reverse.findSome? fun o => objectPixel (w.object o) x y

/-- **`fill_horiz_buffer`** on a row that crosses the photo, wherever it starts. -/
theorem fillHorizBuffer_clipped (hview : (w.room r).view = some view) (hl : Lists w r l)
    (himg : ∀ o ∈ l, (w.object o).img.isSome) (x : ℤ) {y : ℤ} (hy : 0 ≤ y)
    (hy' : y < view.height) (buf : ℕ → UInt8) :
    ∃ row, fillHorizBuffer w r x y buf = some row ∧ ∀ idx < scrollXDim,
      row idx = (cover w l (x + idx) y).getD (clipped view (x + idx) y) :=
  fillBuffer_covered imagesInside_horiz hview hl himg
    (fun idx _ => linePixel_row hy hy' x idx) buf

/-- **`fill_vert_buffer`** on a column that crosses the photo, wherever it starts. -/
theorem fillVertBuffer_clipped (hview : (w.room r).view = some view) (hl : Lists w r l)
    (himg : ∀ o ∈ l, (w.object o).img.isSome) {x : ℤ} (hx : 0 ≤ x) (hx' : x < view.width)
    (y : ℤ) (buf : ℕ → UInt8) :
    ∃ column, fillVertBuffer w r x y buf = some column ∧ ∀ idx < scrollYDim,
      column idx = (cover w l x (y + idx)).getD (clipped view x (y + idx)) := by
  obtain ⟨column, hrun, hcolumn⟩ := fillBuffer_covered imagesInside_vert hview hl himg
    (fun idx _ => linePixel_column hx hx' y idx) buf
  refine ⟨column, hrun, fun idx hidx => ?_⟩
  rw [hcolumn idx hidx]
  simp only [coverAt_vert]
  rfl

/-- **Rows and columns agree**: where they cross on the photo, both show the picture of the
room. -/
theorem row_column_agree (hview : (w.room r).view = some view) (hl : Lists w r l)
    (himg : ∀ o ∈ l, (w.object o).img.isSome) {x₀ y₀ x y : ℤ} (hx : 0 ≤ x ∧ x < view.width)
    (hy : 0 ≤ y ∧ y < view.height) (hrow : x₀ ≤ x ∧ x < x₀ + scrollXDim)
    (hcolumn : y₀ ≤ y ∧ y < y₀ + scrollYDim) (buf buf' : ℕ → UInt8) :
    ∃ row column, fillHorizBuffer w r x₀ y buf = some row ∧
      fillVertBuffer w r x y₀ buf' = some column ∧
      row (x - x₀).toNat = column (y - y₀).toNat ∧
      refPixel w r x y = some (row (x - x₀).toNat) := by
  obtain ⟨row, hrunRow, hpixels⟩ := fillHorizBuffer_clipped hview hl himg x₀ hy.1 hy.2 buf
  obtain ⟨column, hrunColumn, hpixels'⟩ :=
    fillVertBuffer_clipped hview hl himg hx.1 hx.2 y₀ buf'
  obtain ⟨pixel, hpixel⟩ := photoPixel_isSome hx.1 hx.2 hy.1 hy.2
  have hacross : x₀ + ((x - x₀).toNat : ℕ) = x := by omega
  have hdown : y₀ + ((y - y₀).toNat : ℕ) = y := by omega
  have hinRow := hpixels (x - x₀).toNat (by omega)
  have hinColumn := hpixels' (y - y₀).toNat (by omega)
  rw [hacross] at hinRow
  rw [hdown] at hinColumn
  refine ⟨row, column, hrunRow, hrunColumn, hinRow.trans hinColumn.symm, ?_⟩
  rw [refPixel_covered hview hl hpixel, hinRow, clipped_of_some hpixel]
  rfl

end Cross

/-- A room with a photo of two pixels, the right one covered by an object. -/
def coveredWorld : World :=
  ((clearedWorld fun _ => 0).setRoom .eastEvrt
    ⟨none, some ⟨2, 1, fun _ => none, Vector.replicate _ 1, by decide, by decide⟩, some .board,
      none, none, none⟩).setObject .board
    ⟨none, none, some .eastEvrt, 1, 0, some ⟨1, 1, Vector.replicate _ 2, by decide, by decide⟩⟩

theorem row_column_agree_coveredWorld :
    ∃ row column, fillHorizBuffer coveredWorld .eastEvrt (-5) 0 emptyBuf = some row ∧
      fillVertBuffer coveredWorld .eastEvrt 1 (-7) emptyBuf = some column ∧
      row 6 = column 7 ∧ refPixel coveredWorld .eastEvrt 1 0 = some (row 6) := by
  have hlist : Lists coveredWorld .eastEvrt [.board] :=
    Chained.cons_iff.mpr ⟨rfl, Chained.nil_iff.mpr rfl⟩
  exact row_column_agree rfl hlist (by decide) (by decide) (by decide) (by decide) (by decide)
    emptyBuf emptyBuf

/-! ## Beside the photo -/

/-- What a fill function leaves of the photo is what the line reads. -/
theorem fillPhoto_inv {d : Direction} {view : Photo} {along across : ℤ} {buf buf' : ℕ → UInt8}
    (hrun : fillPhoto d view along across buf = some buf') :
    ∀ idx < d.dim, linePixel d view along across idx = some (buf' idx) := by
  refine attempts_invariant (s := buf)
    (I := fun i (t : ℕ → UInt8) => ∀ idx < i, linePixel d view along across idx = some (t idx))
    (fun idx hidx => absurd hidx (Nat.not_lt_zero idx)) ?_ hrun
  intro i s t hs hround idx hidx
  obtain ⟨pixel, hpixel, ht⟩ := Option.bind_eq_some_iff.mp hround
  obtain rfl := Option.some.inj ht
  by_cases heq : idx = i
  · subst heq
    rw [Function.update_self]
    exact hpixel
  · rw [Function.update_of_ne heq]
    exact hs idx (by omega)

/-- Before the objects are laid over it, a line is read from the block of the photo, and where it
sticks out of the photo it is 0. -/
def LineSafe (d : Direction) (view : Photo) (along across : ℤ) (place : ℤ → ℤ × ℤ) : Prop :=
  ∃ buf, fillPhoto d view along across emptyBuf = some buf ∧ ∀ idx < d.dim,
    photoPixel view (place (along + idx)).1 (place (along + idx)).2 = none → buf idx = 0

/-- The row that `fill_horiz_buffer` draws from `(x, y)` on is safe. -/
def RowSafe (view : Photo) (x y : ℤ) : Prop := LineSafe horiz view x y fun a => (a, y)

/-- The column that `fill_vert_buffer` draws from `(x, y)` on is safe. -/
def ColumnSafe (view : Photo) (x y : ℤ) : Prop := LineSafe vert view y x fun a => (x, a)

/-- Of `dim` places from `start` on, some are among the first `side`. -/
def Meets (start : ℤ) (dim side : ℕ) : Prop := ∃ idx < dim, 0 ≤ start + idx ∧ start + idx < side

theorem lineSafe_iff {d : Direction} {view : Photo} {along across : ℤ} {place : ℤ → ℤ × ℤ} :
    LineSafe d view along across place ↔ ∀ idx < d.dim, ∃ pixel,
      linePixel d view along across idx = some pixel ∧
      (photoPixel view (place (along + idx)).1 (place (along + idx)).2 = none → pixel = 0) := by
  constructor
  · rintro ⟨buf, hrun, hzero⟩ idx hidx
    exact ⟨buf idx, fillPhoto_inv hrun idx hidx, hzero idx hidx⟩
  · intro h
    have hline : ∀ idx < d.dim, linePixel d view along across idx =
        some ((linePixel d view along across idx).getD 0) := by
      intro idx hidx
      obtain ⟨pixel, hpixel, -⟩ := h idx hidx
      rw [hpixel, Option.getD_some]
    obtain ⟨buf, hrun, hbuf⟩ := fillPhoto_spec hline emptyBuf
    refine ⟨buf, hrun, fun idx hidx hnone => ?_⟩
    obtain ⟨pixel, hpixel, hzero⟩ := h idx hidx
    rw [hbuf idx hidx, hpixel, Option.getD_some]
    exact hzero hnone

/-- A row beside the photo is outside of the block, wherever it is read. -/
theorem rowMajor_outside {width height : ℕ} {x y : ℤ} (hx : 0 ≤ x) (hx' : x < width)
    (hin : 0 ≤ (width : ℤ) * y + x ∧ (width : ℤ) * y + x < (width * height : ℕ)) :
    0 ≤ y ∧ y < height := by
  obtain ⟨h0, hlt⟩ := hin
  push_cast at hlt
  constructor
  · by_contra hneg
    have hrow : (width : ℤ) * y ≤ width * (-1) := mul_le_mul_of_nonneg_left (by omega) (by omega)
    omega
  · by_contra hbelow
    have hrow : (width : ℤ) * height ≤ width * y := mul_le_mul_of_nonneg_left (by omega) (by omega)
    omega

theorem imgAt_bounds {n : ℕ} {img : Vector UInt8 n} {i : ℤ} {pixel : UInt8}
    (h : imgAt img i = some pixel) : 0 ≤ i ∧ i < n := by
  unfold imgAt at h
  split at h
  · next h0 =>
    obtain ⟨hlt, -⟩ := Vector.getElem?_eq_some_iff.mp h
    exact ⟨h0, by omega⟩
  · cases h

/-- A row that is read crosses the photo. -/
theorem row_crosses {view : Photo} {x y : ℤ} {idx : ℕ} {pixel : UInt8}
    (hpixel : linePixel horiz view x y idx = some pixel) (h0 : 0 ≤ x + idx)
    (hlt : x + idx < view.width) : 0 ≤ y ∧ y < view.height := by
  unfold linePixel at hpixel
  rw [if_pos ⟨h0, hlt⟩] at hpixel
  exact rowMajor_outside h0 hlt (imgAt_bounds hpixel)

/-- **A row is safe** exactly if it crosses the photo or passes beside it. -/
theorem rowSafe_iff (view : Photo) (x y : ℤ) : RowSafe view x y ↔
    (Meets x scrollXDim view.width → 0 ≤ y ∧ y < view.height) := by
  unfold RowSafe
  rw [lineSafe_iff]
  constructor
  · rintro h ⟨idx, hidx, h0, hlt⟩
    obtain ⟨pixel, hpixel, -⟩ := h idx hidx
    exact row_crosses hpixel h0 hlt
  · intro h idx hidx
    by_cases hin : 0 ≤ x + idx ∧ x + idx < view.width
    · obtain ⟨hy, hy'⟩ := h ⟨idx, hidx, hin.1, hin.2⟩
      exact ⟨_, linePixel_row hy hy' x idx, clipped_outside⟩
    · refine ⟨0, ?_, fun _ => rfl⟩
      unfold linePixel
      exact if_neg hin

/-- Where the column of `fill_vert_buffer` from `(x, y)` on wraps around, to the row above or
below, the photo is black. -/
def WrapsBlack (view : Photo) (x y : ℤ) : Prop :=
  ∀ idx < scrollYDim, 0 ≤ y + idx → y + idx < view.height →
    imgAt view.img (view.width * (y + idx) + x) = some 0

/-- **A column is safe** exactly if it crosses the photo or passes beside it, or wraps around onto
black pixels only. -/
theorem columnSafe_iff (view : Photo) (x y : ℤ) : ColumnSafe view x y ↔
    (Meets y scrollYDim view.height → 0 ≤ x ∧ x < view.width) ∨ WrapsBlack view x y := by
  unfold ColumnSafe
  rw [lineSafe_iff]
  constructor
  · intro h
    by_cases hx : 0 ≤ x ∧ x < view.width
    · exact Or.inl fun _ => hx
    · right
      intro idx hidx h0 hlt
      obtain ⟨pixel, hpixel, hzero⟩ := h idx hidx
      have hblack : pixel = 0 := hzero (photoPixel_eq_none fun hin => hx ⟨hin.1, hin.2.1⟩)
      unfold linePixel at hpixel
      rw [if_pos ⟨h0, hlt⟩, hblack] at hpixel
      exact hpixel
  · intro h idx hidx
    by_cases hin : 0 ≤ y + idx ∧ y + idx < view.height
    · rcases h with hcross | hblack
      · obtain ⟨hx, hx'⟩ := hcross ⟨idx, hidx, hin.1, hin.2⟩
        exact ⟨_, linePixel_column hx hx' y idx, clipped_outside⟩
      · refine ⟨0, ?_, fun _ => rfl⟩
        unfold linePixel
        exact (if_pos hin).trans (hblack idx hidx hin.1 hin.2)
    · refine ⟨0, ?_, fun _ => rfl⟩
      unfold linePixel
      exact if_neg hin

theorem imgAt_replicate {n : ℕ} {pixel pixel' : UInt8} {i : ℤ}
    (h : imgAt (Vector.replicate n pixel) i = some pixel') : pixel' = pixel := by
  obtain ⟨h0, hlt⟩ := imgAt_bounds h
  have hi : i.toNat < n := by omega
  unfold imgAt at h
  rw [if_pos h0, Vector.getElem?_eq_getElem hi, Vector.getElem_replicate] at h
  exact (Option.some.inj h).symm

/-- Whatever the pixels of the photo are, a column is safe exactly if it crosses the photo or
passes beside it. -/
theorem columnSafe_always_iff (view : Photo) (x y : ℤ) :
    (∀ img, ColumnSafe { view with img := img } x y) ↔
      (Meets y scrollYDim view.height → 0 ≤ x ∧ x < view.width) := by
  constructor
  · intro h
    -- a photo without a black pixel
    rcases (columnSafe_iff _ x y).mp (h (Vector.replicate _ 1)) with hcross | hblack
    · exact hcross
    · rintro ⟨idx, hidx, h0, hlt⟩
      have hzero := imgAt_replicate (hblack idx hidx h0 hlt)
      exact absurd hzero (by decide)
  · intro h img
    exact (columnSafe_iff _ x y).mpr (Or.inl h)

/-! ## Entering a room -/

/-- The photo of the room `r` is `view`, and the objects of the room have images. -/
structure Hung (g : Game) (r : RoomId) (view : Photo) : Prop where
  view : (g.world.room r).view = some view
  imaged : ∃ l, Lists g.world r l ∧ ∀ o ∈ l, (g.world.object o).img.isSome

section Enter

variable {g : Game} {r : RoomId} {view : Photo} {s : Screen}

/-- Lines that are drawn change the array only. -/
theorem drawLines_frame {draw : Screen → ℤ → Option (Screen × ℤ)} {line : ℕ → ℤ} {n : ℕ}
    {s' : Screen} (h : drawLines draw line n s = some s')
    (hdraw : ∀ (t : Screen) (c : ℤ) (result : Screen × ℤ), draw t c = some result →
      ∃ m, result.1 = { t with build := m }) : ∃ m, s' = { s with build := m } := by
  unfold drawLines at h
  refine attempts_invariant (I := fun _ (t : Screen) => ∃ m, t = { s with build := m })
    ⟨s.build, rfl⟩ ?_ h
  rintro i t t' ⟨m, rfl⟩ hround
  obtain ⟨result, hline, rfl⟩ := Option.map_eq_some_iff.mp hround
  obtain ⟨m', hresult⟩ := hdraw _ _ _ hline
  exact ⟨m', hresult⟩

/-- A safe row is drawn. -/
theorem drawHorizLine_safe (hg : Hung g r view) (hcur : g.curRoom = some r) (hs : Fits s) {y : ℤ}
    (hy : 0 ≤ y) (hy' : y < scrollYDim) (hsafe : RowSafe view s.showX (y + s.showY)) :
    ∃ m, drawHorizLine (horizLine g) s y = some ({ s with build := m }, 0) := by
  obtain ⟨l, hl, himg⟩ := hg.imaged
  have hline : ∀ idx < horiz.dim, linePixel horiz view s.showX (y + s.showY) idx =
      some ((linePixel horiz view s.showX (y + s.showY) idx).getD 0) := by
    intro idx hidx
    obtain ⟨pixel, hpixel, -⟩ := lineSafe_iff.mp hsafe idx hidx
    rw [hpixel, Option.getD_some]
  obtain ⟨buf, hfill, -⟩ := fillBuffer_covered imagesInside_horiz hg.view hl himg hline emptyBuf
  have hrun : horizLine g s.showX (y + s.showY) emptyBuf = some buf :=
    Option.bind_eq_some_iff.mpr ⟨r, hcur, hfill⟩
  have hpainted : ∃ s', drawHorizLine (horizLine g) s y = some (s', 0) ∧
      Painted s s' (fun _ b => b = y + s.showY) fun a _ => some (buf (a - s.showX).toNat) := by
    apply drawHorizLine_painted hs hy hy'
    refine ⟨buf, hrun, fun i _ => ?_⟩
    rw [add_sub_cancel_left, Int.toNat_natCast]
  obtain ⟨s', hdraw, hpaint⟩ := hpainted
  obtain ⟨m, rfl⟩ := hpaint.frame
  exact ⟨m, hdraw⟩

/-- A row that is drawn is safe. -/
theorem rowSafe_of_drawn (hg : Hung g r view) (hcur : g.curRoom = some r) {y : ℤ} (hy : 0 ≤ y)
    (hy' : y < scrollYDim) {result : Screen × ℤ}
    (hdraw : drawHorizLine (horizLine g) s y = some result) :
    RowSafe view s.showX (y + s.showY) := by
  unfold drawHorizLine at hdraw
  rw [if_neg (by omega)] at hdraw
  obtain ⟨buf, hfill, -⟩ := Option.bind_eq_some_iff.mp hdraw
  obtain ⟨r', hr', hfill⟩ := Option.bind_eq_some_iff.mp hfill
  obtain rfl := Option.some.inj (hcur.symm.trans hr')
  obtain ⟨view', hview', hfill⟩ := Option.bind_eq_some_iff.mp hfill
  obtain rfl := Option.some.inj (hg.view.symm.trans hview')
  obtain ⟨buf₁, hphoto, -⟩ := Option.bind_eq_some_iff.mp hfill
  rw [rowSafe_iff]
  rintro ⟨idx, hidx, h0, hlt⟩
  exact row_crosses (fillPhoto_inv hphoto idx hidx) h0 hlt

/-- **`redraw_room`** runs exactly if the rows of the window are safe. -/
theorem redrawRoom_iff (hg : Hung g r view) (hcur : g.curRoom = some r) (hs : Fits g.screen) :
    (∃ g', redrawRoom g = some g') ↔
      ∀ i < scrollYDim, RowSafe view g.screen.showX (i + g.screen.showY) := by
  constructor
  · rintro ⟨g', hrun⟩ i hi
    unfold redrawRoom drawLines at hrun
    obtain ⟨s', hlines, -⟩ := Option.bind_eq_some_iff.mp hrun
    obtain ⟨u, v, hbefore, hround⟩ := attempts_round hlines hi
    obtain ⟨result, hdraw, -⟩ := Option.map_eq_some_iff.mp hround
    have hrows : drawLines (drawHorizLine (horizLine g)) (fun i => i) i g.screen = some u :=
      hbefore
    obtain ⟨m, rfl⟩ := drawLines_frame hrows drawHorizLine_frame
    have h0 : 0 ≤ (i : ℤ) := Int.natCast_nonneg i
    have hlt : (i : ℤ) < scrollYDim := by omega
    have hsafe := rowSafe_of_drawn hg hcur h0 hlt hdraw
    exact hsafe
  · intro hsafe
    have hlines : ∃ s', drawLines (drawHorizLine (horizLine g)) (fun i => i) scrollYDim g.screen =
        some s' ∧ ∃ m, s' = { g.screen with build := m } := by
      refine attempts_total (I := fun _ (t : Screen) => ∃ m, t = { g.screen with build := m })
        ⟨g.screen.build, rfl⟩ ?_
      rintro i t hi ⟨m, rfl⟩
      have hfits : Fits { g.screen with build := m } := ⟨hs.img3, hs.first, hs.last⟩
      have h0 : 0 ≤ (i : ℤ) := Int.natCast_nonneg i
      have hlt : (i : ℤ) < scrollYDim := by omega
      obtain ⟨m', hdraw⟩ := drawHorizLine_safe hg hcur hfits h0 hlt (hsafe i hi)
      exact ⟨_, by rw [hdraw]; rfl, m', rfl⟩
    obtain ⟨s', hrun, -⟩ := hlines
    refine ⟨{ g with screen := s' }, ?_⟩
    unfold redrawRoom
    rw [hrun]
    rfl

/-- The rows of the window at the origin are safe exactly if the photo is as high as the window,
or empty. -/
theorem rowsSafe_origin_iff (view : Photo) :
    (∀ i < scrollYDim, RowSafe view 0 (i : ℕ)) ↔ (0 < view.width → scrollYDim ≤ view.height) := by
  simp only [rowSafe_iff]
  constructor
  · intro h hwidth
    have hmeets : Meets 0 scrollXDim view.width := ⟨0, by decide, by omega, by omega⟩
    have hlast := h 181 (by decide) hmeets
    rw [scrollYDim_eq]
    omega
  · rintro h i hi ⟨idx, -, h0, hlt⟩
    have hheight := h (by omega)
    omega

/-- **A room is entered** without a fault exactly if its photo is as high as the window, or
empty. -/
theorem frame_entered_iff (hg : Hung g r view) (hr : g.place = some r)
    (henter : g.enterRoom = true) (hs : Fits g.screen) :
    (∃ g', frame g = some g') ↔ (0 < view.width → scrollYDim ≤ view.height) := by
  obtain ⟨s₁, hset, hshift⟩ := setViewWindow_shifted hs 0 0
  let g₁ : Game := { g with mapX := 0, mapY := 0, curRoom := some r, screen := s₁ }
  have hzero : asInt 0 = 0 := rfl
  have hwindow : viewWindow { g with mapX := 0, mapY := 0 } =
      some { g with mapX := 0, mapY := 0, screen := s₁ } := viewWindow_eq hzero hzero hset
  have hprep : prepRoom { g with mapX := 0, mapY := 0, screen := s₁ } = some g₁ :=
    prepRoom_eq hr hg.view
  have hframe : frame g = (redrawRoom g₁).map fun g =>
      { g with enterRoom := false, screen := showScreen g.screen } := by
    unfold frame
    rw [if_pos henter]
    simp only [Option.bind_eq_bind, hwindow, hprep, Option.bind_some]
    cases redrawRoom g₁ with
    | none => rfl
    | some g₂ => rfl
  have hredraw := redrawRoom_iff (g := g₁) ⟨hg.view, hg.imaged⟩ rfl hshift.fits
  rw [hframe, ← rowsSafe_origin_iff]
  simp only [g₁, hshift.showX, hshift.showY, add_zero] at hredraw
  rw [← hredraw]
  constructor
  · rintro ⟨g', hrun⟩
    obtain ⟨g₂, hrun₂, -⟩ := Option.map_eq_some_iff.mp hrun
    exact ⟨g₂, hrun₂⟩
  · rintro ⟨g₂, hrun⟩
    exact ⟨_, congrArg (Option.map _) hrun⟩

/-- **Drawing stays in the photo** exactly if the line crosses the photo or passes beside it, but
for columns that wrap around onto black pixels; a room that is entered exactly if its photo is as
high as the window, or empty. -/
theorem drawing_inside_iff (hg : Hung g r view) (hr : g.place = some r)
    (henter : g.enterRoom = true) (hs : Fits g.screen) :
    (∀ x y, RowSafe view x y ↔
      (Meets x scrollXDim view.width → 0 ≤ y ∧ y < view.height)) ∧
    (∀ x y, ColumnSafe view x y ↔
      (Meets y scrollYDim view.height → 0 ≤ x ∧ x < view.width) ∨ WrapsBlack view x y) ∧
    (∀ x y, (∀ img, ColumnSafe { view with img := img } x y) ↔
      (Meets y scrollYDim view.height → 0 ≤ x ∧ x < view.width)) ∧
    ((∀ i < scrollYDim, RowSafe view 0 (i : ℕ)) ↔ (0 < view.width → scrollYDim ≤ view.height)) ∧
    ((∃ g', frame g = some g') ↔ (0 < view.width → scrollYDim ≤ view.height)) :=
  ⟨rowSafe_iff view, columnSafe_iff view, columnSafe_always_iff view, rowsSafe_origin_iff view,
    frame_entered_iff hg hr henter hs⟩

end Enter

/-- A game that starts in the room of `coveredWorld`. -/
def coveredGame : Game :=
  startGame coveredWorld .eastEvrt (setModeX (fun _ => 0) fun _ _ => 0)

theorem drawing_inside_iff_coveredGame : ∃ view, Hung coveredGame .eastEvrt view ∧
    ((∃ g', frame coveredGame = some g') ↔ (0 < view.width → scrollYDim ≤ view.height)) := by
  have hlist : Lists coveredWorld .eastEvrt [.board] :=
    Chained.cons_iff.mpr ⟨rfl, Chained.nil_iff.mpr rfl⟩
  have hg : Hung coveredGame .eastEvrt
      ⟨2, 1, fun _ => none, Vector.replicate _ 1, by decide, by decide⟩ :=
    ⟨rfl, [.board], hlist, by decide⟩
  exact ⟨_, hg, (drawing_inside_iff hg rfl rfl (fits_start _ _)).2.2.2.2⟩

/-- A photo that `read_photo` accepts, as wide as the screen and lower. -/
def lowPhoto : Photo :=
  ⟨320, 100, fun _ => none, Vector.replicate _ 0, windowWidth_le, by decide⟩

/-- The row below it is among those that `redraw_room` draws. -/
theorem lowPhoto_unsafe : 100 < scrollYDim ∧ ¬ RowSafe lowPhoto 0 (100 : ℕ) := by
  refine ⟨by decide, fun hsafe => ?_⟩
  have hmeets : Meets 0 scrollXDim lowPhoto.width := ⟨0, by decide, by decide, by decide⟩
  obtain ⟨-, hlt⟩ := (rowSafe_iff lowPhoto 0 (100 : ℕ)).mp hsafe hmeets
  exact absurd hlt (by decide)

end MachineProblems.Analysis.Adventure
