import MachineProblems.Analysis.Adventure.Deeds
import MachineProblems.Model.Picture

/-!
# Lines show the picture

The two fill functions give the pixels of the room's picture along a line that stays on the
photo.  The argument is made once for both directions: a round of the loop over the objects
covers what the object covers, and the rounds come in the order of the list.
-/

set_option autoImplicit false

namespace MachineProblems.Analysis.Adventure

open MachineProblems.Library MachineProblems.Program.Adventure MachineProblems.Program.PhotoFile
  MachineProblems.Model

/-! ## Blocks of pixels -/

theorem imgAt_isSome {n : ℕ} (img : Vector UInt8 n) {i : ℤ} (h0 : 0 ≤ i) (hn : i < n) :
    ∃ pixel, imgAt img i = some pixel := by
  have hlt : i.toNat < n := by omega
  refine ⟨img[i.toNat], ?_⟩
  unfold imgAt
  rw [if_pos h0, Vector.getElem?_eq_getElem hlt]

/-- Row by row, the place `(x, y)` is inside the block. -/
theorem rowMajor_bounds {width height : ℕ} {x y : ℤ} (hx : 0 ≤ x) (hx' : x < width) (hy : 0 ≤ y)
    (hy' : y < height) :
    0 ≤ (width : ℤ) * y + x ∧ (width : ℤ) * y + x < (width * height : ℕ) := by
  have hrows : (width : ℤ) * (y + 1) ≤ width * height :=
    mul_le_mul_of_nonneg_left (by omega) (by omega)
  have hnonneg : 0 ≤ (width : ℤ) * y := mul_nonneg (by omega) hy
  push_cast
  constructor
  · omega
  · linarith

/-! ## One direction -/

section Fill

variable (d : Direction)

/-- The pixel with which an object covers a place, in the coordinates of the direction. -/
def coverAt (obj : Object) (along across : ℤ) : Option UInt8 := do
  let img ← obj.img
  let imgAlong := along - (d.objAlong obj).toNat
  let imgAcross := across - (d.objAcross obj).toNat
  if 0 ≤ imgAlong ∧ imgAlong < d.imgLength img ∧ 0 ≤ imgAcross ∧ imgAcross < d.imgBreadth img then
    (imgAt img.img (d.imgIndex img imgAlong imgAcross)).bind visible
  else none

/-- The pixels of an image are inside its block. -/
def ImagesInside : Prop :=
  ∀ (img : Image) (along across : ℤ), 0 ≤ along → along < d.imgLength img → 0 ≤ across →
    across < d.imgBreadth img → ∃ pixel, imgAt img.img (d.imgIndex img along across) = some pixel

variable {d}

/-- What the loop over the pixels reads for the pixel `idx` of the line. -/
def linePixel (d : Direction) (view : Photo) (along across : ℤ) (idx : ℕ) : Option UInt8 :=
  if 0 ≤ along + idx ∧ d.photoLength view > along + idx then
    imgAt view.img (d.photoIndex view (along + idx) across)
  else some 0

theorem fillPhoto_spec {view : Photo} {along across : ℤ} {pixel : ℕ → UInt8}
    (hview : ∀ idx < d.dim, linePixel d view along across idx = some (pixel idx))
    (buf : ℕ → UInt8) :
    ∃ buf', fillPhoto d view along across buf = some buf' ∧
      ∀ idx < d.dim, buf' idx = pixel idx := by
  refine attempts_total (I := fun i (t : ℕ → UInt8) => ∀ idx < i, t idx = pixel idx) ?_ ?_
  · intro idx hidx
    exact absurd hidx (Nat.not_lt_zero idx)
  · intro i t hi ht
    refine ⟨Function.update t i (pixel i), ?_, ?_⟩
    · exact Option.bind_eq_some_iff.mpr ⟨pixel i, hview i hi, rfl⟩
    · intro idx hidx
      by_cases heq : idx = i
      · subst heq
        exact Function.update_self _ _ _
      · rw [Function.update_of_ne heq]
        exact ht idx (by omega)

/-- The loop over the overlap of an image with the line, from the pixel `start` of the line on. -/
theorem overlay_spec {source : ℕ → Option UInt8} {count : ℕ}
    (hsource : ∀ k < count, ∃ pixel, source k = some pixel) (start : ℕ) (buf : ℕ → UInt8) :
    ∃ buf', attempts (fun k buf => do
        let pixel ← source k
        some (if objClrTransp ≠ pixel then Function.update buf (start + k) pixel else buf))
      count buf = some buf' ∧
      ∀ idx, buf' idx = if start ≤ idx ∧ idx < start + count
        then ((source (idx - start)).bind visible).getD (buf idx) else buf idx := by
  refine attempts_total (I := fun i (t : ℕ → UInt8) => ∀ idx, t idx =
    if start ≤ idx ∧ idx < start + i then ((source (idx - start)).bind visible).getD (buf idx)
    else buf idx) ?_ ?_
  · intro idx
    rw [if_neg (by omega)]
  · intro i t hi ht
    obtain ⟨pixel, hpixel⟩ := hsource i hi
    refine ⟨if objClrTransp ≠ pixel then Function.update t (start + i) pixel else t, ?_, ?_⟩
    · rw [hpixel]
      rfl
    intro idx
    by_cases heq : idx = start + i
    · subst heq
      have hbuf : t (start + i) = buf (start + i) := by rw [ht, if_neg (by omega)]
      have hin : start ≤ start + i ∧ start + i < start + (i + 1) := by omega
      rw [if_pos hin, Nat.add_sub_cancel_left, hpixel, Option.bind_some, visible]
      by_cases hpix : objClrTransp ≠ pixel
      · rw [if_pos hpix, if_pos hpix, Function.update_self, Option.getD_some]
      · rw [if_neg hpix, if_neg hpix, hbuf, Option.getD_none]
    · have hother : (if objClrTransp ≠ pixel then Function.update t (start + i) pixel else t) idx =
          t idx := by
        split_ifs
        · exact Function.update_of_ne heq _ _
        · rfl
      rw [hother, ht]
      by_cases hin : start ≤ idx ∧ idx < start + i
      · rw [if_pos hin, if_pos (by omega)]
      · rw [if_neg hin, if_neg (by omega)]

/-- **A round of the loop over the objects** covers what the object covers. -/
theorem fillObject_spec (hd : ImagesInside d) {obj : Object} (himg : obj.img.isSome)
    (along across : ℤ) (buf : ℕ → UInt8) :
    ∃ buf', fillObject d along across obj buf = some buf' ∧
      ∀ idx < d.dim, buf' idx = (coverAt d obj (along + idx) across).getD (buf idx) := by
  obtain ⟨img, himg⟩ := Option.isSome_iff_exists.mp himg
  unfold fillObject coverAt
  simp only [himg, Option.bind_eq_bind, Option.bind_some]
  generalize (d.objAlong obj).toNat = objAlong
  generalize (d.objAcross obj).toNat = objAcross
  by_cases hout : across < objAcross ∨ across ≥ objAcross + d.imgBreadth img ∨
      along + d.dim ≤ objAlong ∨ along ≥ objAlong + d.imgLength img
  · rw [if_pos hout]
    refine ⟨buf, rfl, fun idx hidx => ?_⟩
    rw [if_neg (by omega), Option.getD_none]
  · rw [if_neg hout]
    generalize hidx : (if along ≤ objAlong then (objAlong : ℤ) - along else 0) = start
    generalize himgAlong : (if along ≤ objAlong then 0 else along - (objAlong : ℤ)) = imgAlong
    have hstart : 0 ≤ start ∧ 0 ≤ imgAlong ∧ along + start = objAlong + imgAlong ∧
        (0 < start → imgAlong = 0) := by
      rw [← hidx, ← himgAlong]
      split_ifs <;> omega
    generalize hcount : (min (d.dim - start) (d.imgLength img - imgAlong)).toNat = count
    have hinside : ∀ k < count, ∃ pixel,
        imgAt img.img (d.imgIndex img (imgAlong + k) (across - objAcross)) = some pixel := by
      intro k hk
      apply hd
      all_goals omega
    obtain ⟨buf', hrun, hbuf'⟩ := overlay_spec hinside start.toNat buf
    refine ⟨buf', hrun, fun idx hlt => ?_⟩
    rw [hbuf']
    by_cases hin : start.toNat ≤ idx ∧ idx < start.toNat + count
    · have hplace : imgAlong + (idx - start.toNat : ℕ) = along + idx - objAlong := by omega
      rw [if_pos hin, if_pos (by omega), hplace]
    · rw [if_neg hin, if_neg (by omega), Option.getD_none]

/-- The loop over the objects covers what they cover, the last of them on top. -/
theorem fillObjects_spec (hd : ImagesInside d) {w : World} (along across : ℤ) (l : List ObjId)
    (himg : ∀ o ∈ l, (w.object o).img.isSome) {n : ℕ} {p : Option ObjId} (buf : ℕ → UInt8)
    (hl : Chained w p l) (hn : l.length < n) :
    ∃ buf', fillObjects d w along across n p buf = some buf' ∧ ∀ idx < d.dim, buf' idx =
      (l.reverse.findSome? fun o => coverAt d (w.object o) (along + idx) across).getD
        (buf idx) := by
  refine hl.walk (motive := fun n p l => (∀ o ∈ l, (w.object o).img.isSome) →
    ∀ buf, ∃ buf', fillObjects d w along across n p buf = some buf' ∧ ∀ idx < d.dim, buf' idx =
      (l.reverse.findSome? fun o => coverAt d (w.object o) (along + idx) across).getD
        (buf idx)) ?_ ?_ hn himg buf
  · exact fun _ _ buf => ⟨buf, rfl, fun _ _ => rfl⟩
  · intro k o l ih himg buf
    obtain ⟨ho, hothers⟩ := List.forall_mem_cons.mp himg
    obtain ⟨buf₁, hrun₁, hbuf₁⟩ := fillObject_spec hd ho along across buf
    obtain ⟨buf₂, hrun₂, hbuf₂⟩ := ih hothers buf₁
    refine ⟨buf₂, ?_, fun idx hidx => ?_⟩
    · simp only [fillObjects, hrun₁, Option.bind_eq_bind, Option.bind_some, hrun₂]
    · rw [hbuf₂ idx hidx, hbuf₁ idx hidx, List.reverse_cons, List.findSome?_append,
        List.findSome?_singleton]
      cases l.reverse.findSome? fun o => coverAt d (w.object o) (along + idx) across with
      | none => simp
      | some pixel => simp

end Fill

/-! ## Both directions -/

theorem imagesInside_horiz : ImagesInside horiz := by
  intro img x y hx hx' hy hy'
  obtain ⟨h0, hlt⟩ := rowMajor_bounds hx hx' hy hy'
  apply imgAt_isSome
  all_goals
    simp only [horiz]
    rw [mul_comm y]
    assumption

theorem imagesInside_vert : ImagesInside vert := by
  intro img y x hy hy' hx hx'
  obtain ⟨h0, hlt⟩ := rowMajor_bounds hx hx' hy hy'
  apply imgAt_isSome
  all_goals
    simp only [vert]
    rw [add_comm]
    assumption

theorem coverAt_vert (obj : Object) (x y : ℤ) : coverAt vert obj y x = objectPixel obj x y := by
  unfold coverAt objectPixel
  cases obj.img with
  | none => rfl
  | some img =>
      simp only [vert, Option.bind_eq_bind, Option.bind_some]
      refine ite_congr (propext ?_) (fun _ => ?_) fun _ => rfl
      · constructor
        · rintro ⟨hy, hy', hx, hx'⟩
          exact ⟨hx, hx', hy, hy'⟩
        · rintro ⟨hx, hx', hy, hy'⟩
          exact ⟨hy, hy', hx, hx'⟩
      · rw [add_comm, mul_comm (img.width : ℤ)]

/-! ## The picture -/

theorem walk_eq {w : World} (l : List ObjId) : ∀ {n : ℕ} {p : Option ObjId}, Chained w p l →
    l.length ≤ n → Model.walk w n p = l := by
  induction l with
  | nil =>
      intro n p hl _
      obtain rfl := Chained.nil_iff.mp hl
      cases n with
      | zero => rfl
      | succ n => rfl
  | cons o l ih =>
      intro n p hl hn
      obtain ⟨rfl, hrest⟩ := Chained.cons_iff.mp hl
      rw [List.length_cons] at hn
      obtain ⟨k, rfl⟩ : ∃ k, n = k + 1 := ⟨n - 1, by omega⟩
      rw [Model.walk, ih hrest (Nat.le_of_succ_le_succ hn)]

theorem contents_eq {w : World} {r : RoomId} {l : List ObjId} (hl : Lists w r l) :
    contents w r = l := walk_eq l hl hl.length_le

theorem photoPixel_isSome {view : Photo} {x y : ℤ} (hx : 0 ≤ x) (hx' : x < view.width)
    (hy : 0 ≤ y) (hy' : y < view.height) : ∃ pixel, photoPixel view x y = some pixel := by
  obtain ⟨h0, hlt⟩ := rowMajor_bounds hx hx' hy hy'
  unfold photoPixel
  rw [if_pos ⟨hx, hx', hy, hy'⟩]
  exact imgAt_isSome view.img h0 hlt

section Picture

variable {P : Photo → Prop} {w : World} {r : RoomId} {view : Photo}

/-- What a fill function leaves in its buffer: the pixels that it reads along the line, covered by
the objects. -/
theorem fillBuffer_covered {d : Direction} (hd : ImagesInside d)
    (hview : (w.room r).view = some view) {l : List ObjId} (hl : Lists w r l)
    (himg : ∀ o ∈ l, (w.object o).img.isSome) {along across : ℤ} {pixel : ℕ → UInt8}
    (hline : ∀ idx < d.dim, linePixel d view along across idx = some (pixel idx))
    (buf : ℕ → UInt8) :
    ∃ buf', fillBuffer d w r along across buf = some buf' ∧ ∀ idx < d.dim, buf' idx =
      (l.reverse.findSome? fun o => coverAt d (w.object o) (along + idx) across).getD
        (pixel idx) := by
  obtain ⟨buf₁, hrun₁, hbuf₁⟩ := fillPhoto_spec hline buf
  obtain ⟨buf₂, hrun₂, hbuf₂⟩ := fillObjects_spec hd along across l himg buf₁ hl
    (Nat.lt_succ_of_le hl.length_le)
  refine ⟨buf₂, ?_, fun idx hidx => ?_⟩
  · simp only [fillBuffer, hview, hrun₁, Option.bind_eq_bind, Option.bind_some]
    exact hrun₂
  · rw [hbuf₂ idx hidx, hbuf₁ idx hidx]

/-- A covered pixel of the photo is a pixel of the picture. -/
theorem refPixel_covered (hview : (w.room r).view = some view) {l : List ObjId}
    (hl : Lists w r l) {x y : ℤ} {pixel : UInt8} (hpixel : photoPixel view x y = some pixel) :
    refPixel w r x y =
      some ((l.reverse.findSome? fun o => objectPixel (w.object o) x y).getD pixel) := by
  unfold refPixel
  rw [contents_eq hl, hview, Option.bind_some, hpixel]
  cases l.reverse.findSome? fun o => objectPixel (w.object o) x y with
  | none => rfl
  | some pixel => rfl

/-- On the photo a line shows the picture. -/
theorem fillBuffer_spec {d : Direction} (hd : ImagesInside d) (h : Sound P w)
    (hview : (w.room r).view = some view) {along across : ℤ} (place : ℕ → ℤ × ℤ)
    (hcover : ∀ (obj : Object) (idx : ℕ), coverAt d obj (along + idx) across =
      objectPixel obj (place idx).1 (place idx).2)
    (hphoto : ∀ idx < d.dim, 0 ≤ along + idx ∧ along + idx < d.photoLength view ∧
      (∃ pixel, photoPixel view (place idx).1 (place idx).2 = some pixel) ∧
      imgAt view.img (d.photoIndex view (along + idx) across) =
        photoPixel view (place idx).1 (place idx).2) (buf : ℕ → UInt8) :
    ∃ buf', fillBuffer d w r along across buf = some buf' ∧
      ∀ idx < d.dim, refPixel w r (place idx).1 (place idx).2 = some (buf' idx) := by
  obtain ⟨s, hs⟩ := h.contained
  have hl := hs.lists r
  have hline : ∀ idx < d.dim, linePixel d view along across idx =
      some ((photoPixel view (place idx).1 (place idx).2).getD 0) := by
    intro idx hidx
    obtain ⟨h0, hlt, ⟨pixel, hpixel⟩, hindex⟩ := hphoto idx hidx
    unfold linePixel
    rw [if_pos ⟨h0, hlt⟩, hindex, hpixel, Option.getD_some]
  obtain ⟨buf', hrun, hbuf'⟩ := fillBuffer_covered hd hview hl
    (fun o _ => h.furnished.img o) hline buf
  refine ⟨buf', hrun, fun idx hidx => ?_⟩
  obtain ⟨-, -, ⟨pixel, hpixel⟩, -⟩ := hphoto idx hidx
  rw [refPixel_covered hview hl hpixel, hbuf' idx hidx, hpixel, Option.getD_some]
  simp only [hcover]

/-- **`fill_horiz_buffer`** on a row of the photo. -/
theorem fillHorizBuffer_spec (h : Sound P w) (hview : (w.room r).view = some view) {x y : ℤ}
    (hx : 0 ≤ x) (hx' : x + scrollXDim ≤ view.width) (hy : 0 ≤ y) (hy' : y < view.height)
    (buf : ℕ → UInt8) : ∃ buf', fillHorizBuffer w r x y buf = some buf' ∧
      ∀ idx < scrollXDim, refPixel w r (x + idx) y = some (buf' idx) := by
  refine fillBuffer_spec imagesInside_horiz h hview (fun idx => (x + idx, y))
    (fun _ _ => rfl) (fun idx hidx => ?_) buf
  have hdim : (idx : ℤ) < scrollXDim := by exact_mod_cast hidx
  have hin : 0 ≤ x + idx ∧ x + idx < view.width := by omega
  refine ⟨hin.1, hin.2, photoPixel_isSome hin.1 hin.2 hy hy', ?_⟩
  unfold photoPixel
  rw [if_pos ⟨hin.1, hin.2, hy, hy'⟩]
  rfl

/-- **`fill_vert_buffer`** on a column of the photo. -/
theorem fillVertBuffer_spec (h : Sound P w) (hview : (w.room r).view = some view) {x y : ℤ}
    (hx : 0 ≤ x) (hx' : x < view.width) (hy : 0 ≤ y) (hy' : y + scrollYDim ≤ view.height)
    (buf : ℕ → UInt8) : ∃ buf', fillVertBuffer w r x y buf = some buf' ∧
      ∀ idx < scrollYDim, refPixel w r x (y + idx) = some (buf' idx) := by
  refine fillBuffer_spec imagesInside_vert h hview (fun idx => (x, y + idx))
    (fun obj idx => coverAt_vert obj x (y + idx)) (fun idx hidx => ?_) buf
  have hdim : (idx : ℤ) < scrollYDim := by exact_mod_cast hidx
  have hin : 0 ≤ y + idx ∧ y + idx < view.height := by omega
  refine ⟨hin.1, hin.2, photoPixel_isSome hx hx' hin.1 hin.2, ?_⟩
  unfold photoPixel
  rw [if_pos ⟨hx, hx', hin.1, hin.2⟩]
  rfl

end Picture

end MachineProblems.Analysis.Adventure
