import MachineProblems.Program.Adventure.Placement
import MachineProblems.Analysis.Adventure.Coherence

/-!
# Random placement

Wherever `rand ()` sends it, an object that fits on the photo of a room lies on it, in the lowest
quarter if it is low enough; an object that does not fit lies at the edge.  The remainders that
the code takes are never by zero, and the words in which it computes the intervals never wrap.
-/

set_option autoImplicit false

namespace MachineProblems.Analysis.Adventure

open MachineProblems.Library MachineProblems.Program.Adventure MachineProblems.Program.PhotoFile

/-! ## The intervals in words -/

/-- The difference of two sizes, taken unsigned and stored into a signed variable. -/
theorem asInt_difference {a b : ℕ} (ha : a ≤ 1024) (hb : b < 65536) :
    asInt (asUnsigned (a - b)) = (a : ℤ) - b := by
  unfold asInt asUnsigned
  rw [Int.bmod_def]
  omega

theorem randomBelowIn_eq (w : World) (range : ℤ) :
    randomBelowIn w range = some (randomBelow w range) := by
  unfold randomBelowIn randomBelow randRemainder World.randMod
  split_ifs with hempty hzero
  · rfl
  · exact absurd hzero.le hempty
  · have hpos : ((range.toNat : ℕ) : ℤ) = range := Int.toNat_of_nonneg (by omega)
    rw [Int.tmod_eq_emod_of_nonneg (Int.natCast_nonneg _), Int.natCast_mod, hpos]

theorem chooseX_eq (w : World) (view : Photo) (img : Image) :
    chooseX w view img = some (randomBelow w (view.width - img.width)) := by
  unfold chooseX
  rw [asInt_difference view.width_le img.width_lt]
  exact randomBelowIn_eq w _

/-- The choice of `ypos`, with integers. -/
def heightChoice (w : World) (view : Photo) (img : Image) : ℤ × World :=
  let range : ℤ := view.height / 4 - img.height
  if 0 ≥ range then randomBelow w (view.height - img.height)
  else ((randomBelow w range).1 + 3 * view.height / 4, (randomBelow w range).2)

theorem chooseY_eq (w : World) (view : Photo) (img : Image) :
    chooseY w view img = some (heightChoice w view img) := by
  have hle : view.height ≤ 1024 := view.height_le
  have hlt := img.height_lt
  have hquarter : (view.height : ℤ).tdiv 4 = view.height / 4 :=
    Int.tdiv_eq_ediv_of_nonneg (Int.natCast_nonneg _)
  have hlow : (3 * (view.height : ℤ)).tdiv 4 = 3 * view.height / 4 :=
    Int.tdiv_eq_ediv_of_nonneg (by omega)
  unfold chooseY heightChoice
  rw [asInt_of_lt (by omega : view.height < 2 ^ 31),
    asInt_of_lt (by omega : img.height < 2 ^ 31)]
  dsimp only
  rw [hquarter, hlow]
  split_ifs with hfits
  · exact randomBelowIn_eq w _
  · have hrange := randomBelowIn_eq w ((view.height : ℤ) / 4 - img.height)
    rw [randomBelowIn, if_neg hfits] at hrange
    rw [hrange, Option.map_some]

/-- **No word wraps and no remainder is by zero**: in words `insert_object` does what it does with
integers. -/
theorem insertObjectIn_eq (w : World) (o : ObjId) (r : RoomId) :
    insertObjectIn w o r = insertObject w o r := by
  unfold insertObjectIn insertObject
  cases hview : (w.room r).view with
  | none => simp only [Option.bind_eq_bind, Option.bind_none]
  | some view =>
      cases himg : (w.object o).img with
      | none => simp only [Option.bind_eq_bind, Option.bind_some, Option.bind_none]
      | some img =>
          simp only [Option.bind_eq_bind, Option.bind_some, chooseX_eq, chooseY_eq, heightChoice]
          split_ifs with hfits
          · rfl
          · rfl

/-! ## The place -/

/-- Where an object may lie: on the photo along each axis on which it fits, in the lowest quarter if
it is low enough, and at the edge along an axis on which it does not fit. -/
structure Lies (view : Photo) (img : Image) (x y : ℤ) : Prop where
  nonneg : 0 ≤ x ∧ 0 ≤ y
  across : img.width ≤ view.width → x + img.width ≤ view.width
  down : img.height ≤ view.height → y + img.height ≤ view.height
  low : img.height < view.height / 4 → ((3 * view.height / 4 : ℕ) : ℤ) ≤ y
  left : view.width < img.width → x = 0
  top : view.height < img.height → y = 0

theorem randomBelow_bounds (w : World) (range : ℤ) :
    0 ≤ (randomBelow w range).1 ∧ (0 < range → (randomBelow w range).1 < range) ∧
      (range ≤ 0 → (randomBelow w range).1 = 0) := by
  unfold randomBelow World.randMod
  split_ifs with hempty
  · exact ⟨le_refl 0, fun h => h, fun _ => rfl⟩
  · have hpos : 0 < range.toNat := by omega
    have hlt := Nat.mod_lt (w.rands 0) hpos
    refine ⟨Int.natCast_nonneg _, fun _ => ?_, fun h => absurd h hempty⟩
    show ((w.rands 0 % range.toNat : ℕ) : ℤ) < range
    omega

theorem lies_choice (w w' : World) (view : Photo) (img : Image) :
    Lies view img (randomBelow w (view.width - img.width)).1 (heightChoice w' view img).1 := by
  obtain ⟨hx, hxlt, hxzero⟩ := randomBelow_bounds w (view.width - img.width)
  unfold heightChoice
  dsimp only
  split_ifs with hfits
  · obtain ⟨hy, hylt, hyzero⟩ := randomBelow_bounds w' (view.height - img.height)
    constructor <;> omega
  · -- two quarters rounded down do not go past the height
    obtain ⟨hy, hylt, -⟩ := randomBelow_bounds w' ((view.height : ℤ) / 4 - img.height)
    dsimp only
    constructor <;> omega

theorem Lies.small {view : Photo} {img : Image} {x y : ℤ} (h : Lies view img x y) :
    x.toNat < 2 ^ 16 ∧ y.toNat < 2 ^ 16 := by
  have hwidth : view.width ≤ 1024 := view.width_le
  have hheight : view.height ≤ 1024 := view.height_le
  obtain ⟨hx, hy⟩ := h.nonneg
  have hacross := h.across
  have hdown := h.down
  have hleft := h.left
  have htop := h.top
  omega

theorem sameBut_heightChoice (w : World) (view : Photo) (img : Image) :
    SameBut w (heightChoice w view img).2 := by
  unfold heightChoice
  dsimp only
  split_ifs
  · exact sameBut_randomBelow w _
  · exact sameBut_randomBelow w _

/-- **Random placement.**  Whatever `rand ()` returns, no remainder is by zero, and
`insert_object` comes to `insert_object_at` with a place on the photo; where the lists of contents
are in order, the object then lies there. -/
theorem insert_object_keeps_to_photo (w : World) (o : ObjId) (r : RoomId) (view : Photo)
    (img : Image) (hview : (w.room r).view = some view)
    (himg : (w.object o).img = some img) :
    insertObjectIn w o r = insertObject w o r ∧
    ∃ (x y : ℤ) (w₁ : World), Lies view img x y ∧ SameBut w w₁ ∧
      insertObjectIn w o r = insertObjectAt w₁ o r x y ∧
      ∀ s, Contained w s → ∃ w', insertObjectIn w o r = some w' ∧
        (w'.object o).loc = some r ∧
        ((w'.object o).x.toNat : ℤ) = x ∧ ((w'.object o).y.toNat : ℤ) = y := by
  let across := randomBelow w (view.width - img.width)
  let down := heightChoice across.2 view img
  have hsame : SameBut w down.2 :=
    (sameBut_randomBelow w _).trans (sameBut_heightChoice across.2 view img)
  have hplace : Lies view img across.1 down.1 := lies_choice w across.2 view img
  have hrun : insertObjectIn w o r = insertObjectAt down.2 o r across.1 down.1 := by
    unfold insertObjectIn
    simp only [hview, himg, Option.bind_eq_bind, Option.bind_some, chooseX_eq, chooseY_eq]
    rfl
  refine ⟨insertObjectIn_eq w o r, across.1, down.1, down.2, hplace, hsame, hrun, ?_⟩
  intro s hs
  obtain ⟨w', hat, hmoved, -, hx, hy⟩ :=
    insertObjectAt_spec (hs.of_sameBut hsame) o r across.1 down.1
  obtain ⟨hxnonneg, hynonneg⟩ := hplace.nonneg
  obtain ⟨hxsmall, hysmall⟩ := hplace.small
  refine ⟨w', hrun.trans hat, ?_, ?_, ?_⟩
  · have hloc := congrFun hmoved.loc o
    rw [Function.update_self] at hloc
    exact hloc
  · rw [hx, ← Int.toNat_of_nonneg hxnonneg, toNat_ofInt hxsmall]
  · rw [hy, ← Int.toNat_of_nonneg hynonneg, toNat_ofInt hysmall]

/-- A photo of one window, and one line more. -/
def plainPhoto : Photo :=
  ⟨320, 183, fun _ => none, Vector.replicate _ 0, windowWidth_le, by decide⟩

/-- An image one line lower than a quarter of the photo. -/
def flatImage : Image := ⟨160, 44, Vector.replicate _ 0, by decide, by decide⟩

/-- A room without contents, and an object that lies nowhere. -/
def bareWorld : World :=
  ((clearedWorld fun i => 7 * i + 1000).setRoom .eastEvrt
    ⟨none, some plainPhoto, none, none, none, none⟩).setObject .board
    ⟨none, none, none, 0, 0, some flatImage⟩

theorem contained_bareWorld : Contained bareWorld fun _ => [] where
  lists := by
    intro r
    cases r <;> rfl
  agrees := by
    refine ⟨fun _ => List.nodup_nil, fun o r => ?_⟩
    cases o <;> simp [loc, bareWorld, clearedWorld, World.setRoom, World.setObject]

theorem insert_object_keeps_to_photo_bareWorld :
    ∃ (x y : ℤ) (w' : World), Lies plainPhoto flatImage x y ∧
      insertObjectIn bareWorld .board .eastEvrt = some w' ∧
      (w'.object .board).loc = some .eastEvrt ∧
      ((w'.object .board).x.toNat : ℤ) = x ∧ ((w'.object .board).y.toNat : ℤ) = y := by
  obtain ⟨-, x, y, w₁, hlies, -, -, hplaced⟩ :=
    insert_object_keeps_to_photo bareWorld .board .eastEvrt plainPhoto flatImage rfl rfl
  obtain ⟨w', hrun, hloc, hx, hy⟩ := hplaced _ contained_bareWorld
  exact ⟨x, y, w', hlies, hrun, hloc, hx, hy⟩

end MachineProblems.Analysis.Adventure
