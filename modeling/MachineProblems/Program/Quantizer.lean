import MachineProblems.Library.Bits
import MachineProblems.Library.Loop
import Mathlib.Logic.Function.Basic

/-!
# The palette quantizer

`mp2/photo.c`: the two octree levels and the functions that fill them, choose the
palette and look a pixel up.  C's `int` is ℤ here; that no total leaves the range of
`int` is proved, not assumed.  A palette entry is `none` until it is stored.
-/

set_option autoImplicit false

namespace MachineProblems.Program.Quantizer

open MachineProblems.Library

/-- `node_t`. -/
structure Node where
  totalRed : ℤ
  totalGreen : ℤ
  totalBlue : ℤ
  color : ℕ
  index : ℕ
  counter : ℤ

/-- `second_lev` and `fourth_lev`. -/
structure Tables where
  secondLev : Fin 64 → Node
  fourthLev : Fin 4096 → Node

/-- One entry of `palette`. -/
structure Rgb where
  red : UInt8
  green : UInt8
  blue : UInt8

/-- `unsigned char palette[192][3]`. -/
abbrev Palette := Fin 192 → Option Rgb

/-! ## The components of a 5:6:5 pixel -/

def red (pixel : UInt16) : ℕ := pixel.toNat >>> 11 &&& 0x1F

def green (pixel : UInt16) : ℕ := pixel.toNat >>> 5 &&& 0x3F

def blue (pixel : UInt16) : ℕ := pixel.toNat &&& 0x1F

theorem red_lt (pixel : UInt16) : red pixel < 32 :=
  Nat.lt_succ_of_le Nat.and_le_right

theorem green_lt (pixel : UInt16) : green pixel < 64 :=
  Nat.lt_succ_of_le Nat.and_le_right

theorem blue_lt (pixel : UInt16) : blue pixel < 32 :=
  Nat.lt_succ_of_le Nat.and_le_right

/-- `i2`: the top two bits of every component. -/
def i2 (pixel : UInt16) : ℕ :=
  (red pixel >>> 3) <<< 4 ||| (green pixel >>> 4) <<< 2 ||| (blue pixel >>> 3)

/-- `i4`: the top four bits of every component. -/
def i4 (pixel : UInt16) : ℕ :=
  (red pixel >>> 1) <<< 8 ||| (green pixel >>> 2) <<< 4 ||| (blue pixel >>> 1)

theorem i2_eq (pixel : UInt16) :
    i2 pixel = (red pixel / 8 * 4 + green pixel / 16) * 4 + blue pixel / 8 := by
  have hg := green_lt pixel
  have hb := blue_lt pixel
  unfold i2
  simp only [Nat.shiftRight_eq_div_pow]
  exact or_fields 2 (by omega) (by omega)

theorem i4_eq (pixel : UInt16) :
    i4 pixel = (red pixel / 2 * 16 + green pixel / 4) * 16 + blue pixel / 2 := by
  have hg := green_lt pixel
  have hb := blue_lt pixel
  unfold i4
  simp only [Nat.shiftRight_eq_div_pow]
  exact or_fields 4 (by omega) (by omega)

theorem i2_lt (pixel : UInt16) : i2 pixel < 64 := by
  have hr := red_lt pixel
  have hg := green_lt pixel
  have hb := blue_lt pixel
  rw [i2_eq]
  omega

theorem i4_lt (pixel : UInt16) : i4 pixel < 4096 := by
  have hr := red_lt pixel
  have hg := green_lt pixel
  have hb := blue_lt pixel
  rw [i4_eq]
  omega

/-! ## Filling the tables -/

/-- The stores of `arr_initialize` to one node; `index` keeps its old value. -/
def Node.reset (node : Node) (i : ℕ) : Node :=
  { node with totalRed := 0, totalGreen := 0, totalBlue := 0, counter := 0, color := i }

/-- `arr_initialize`. -/
def arrInitialize (s : Tables) : Tables where
  secondLev i := (s.secondLev i).reset i
  fourthLev i := (s.fourthLev i).reset i

/-- The stores of `insert_values` to one node. -/
def Node.insert (node : Node) (pixel : UInt16) : Node :=
  { node with
    totalRed := node.totalRed + red pixel
    totalGreen := node.totalGreen + green pixel
    totalBlue := node.totalBlue + blue pixel
    counter := node.counter + 1 }

/-- `insert_values`. -/
def insertValues (s : Tables) (pixel : UInt16) : Tables :=
  let n2 : Fin 64 := ⟨i2 pixel, i2_lt pixel⟩
  let n4 : Fin 4096 := ⟨i4 pixel, i4_lt pixel⟩
  { secondLev := Function.update s.secondLev n2 ((s.secondLev n2).insert pixel)
    fourthLev := Function.update s.fourthLev n4 ((s.fourthLev n4).insert pixel) }

/-! ## Choosing the palette -/

/-- The conversion of an `int` to `unsigned char`. -/
def uchar (x : ℤ) : UInt8 := UInt8.ofNat (x % 256).toNat

/-- The three divisions that fill one palette entry; C's `/` truncates. -/
def Node.average (node : Node) : Rgb where
  red := uchar (node.totalRed.tdiv node.counter)
  green := uchar (node.totalGreen.tdiv node.counter)
  blue := uchar (node.totalBlue.tdiv node.counter)

/-- Remove the contribution of `child`. -/
def Node.subtract (node child : Node) : Node :=
  { node with
    totalRed := node.totalRed - child.totalRed
    totalGreen := node.totalGreen - child.totalGreen
    totalBlue := node.totalBlue - child.totalBlue
    counter := node.counter - child.counter }

/-- The second-level index of a fourth-level `color`. -/
def parentIndex (color : ℕ) : ℕ :=
  (color >>> 10 &&& 0x3) <<< 4 ||| (color >>> 6 &&& 0x3) <<< 2 ||| (color >>> 2 &&& 0x3)

theorem parentIndex_eq (color : ℕ) :
    parentIndex color = (color / 1024 % 4 * 4 + color / 64 % 4) * 4 + color / 4 % 4 := by
  have hand : ∀ x, x &&& 0x3 = x % 4 := fun x => Nat.and_two_pow_sub_one_eq_mod x 2
  unfold parentIndex
  simp only [Nat.shiftRight_eq_div_pow, hand]
  exact or_fields 2 (Nat.mod_lt _ (by decide)) (Nat.mod_lt _ (by decide))

theorem parentIndex_lt (color : ℕ) : parentIndex color < 64 := by
  rw [parentIndex_eq]
  omega

theorem first_le_fourthLev : 128 ≤ 4096 := by decide

theorem secondLev_le_palette : 64 ≤ 192 := by decide

theorem paletteIndex_lt (i : Fin 128) : (i : ℕ) + 64 < 192 := by omega

/-- One iteration of the loop over the first 128 fourth-level nodes. -/
def fourthStep (i : Fin 128) (s : Tables × Palette) : Tables × Palette :=
  let j : Fin 4096 := i.castLE first_le_fourthLev
  let node := s.1.fourthLev j
  let palette :=
    if node.counter ≠ 0 then
      Function.update s.2 (⟨i + 64, paletteIndex_lt i⟩ : Fin 192) (some node.average)
    else s.2
  let n2 : Fin 64 := ⟨parentIndex node.color, parentIndex_lt node.color⟩
  ({ secondLev := Function.update s.1.secondLev n2 ((s.1.secondLev n2).subtract node)
     fourthLev := Function.update s.1.fourthLev j { node with index := i + 64 } },
   palette)

/-- One iteration of the loop over the second level. -/
def secondStep (i : Fin 64) (s : Tables × Palette) : Tables × Palette :=
  let node := s.1.secondLev i
  let palette :=
    if node.counter ≠ 0 then
      Function.update s.2 (i.castLE secondLev_le_palette) (some node.average)
    else s.2
  ({ s.1 with secondLev := Function.update s.1.secondLev i { node with index := i } }, palette)

/-- `sort_cmp`. -/
def sortCmp (a b : Node) : ℤ := if a.counter < b.counter then 1 else 0

section Sorted

variable (qsort : (Fin 4096 → Node) → Fin 4096 → Node)

/-- The tables after `qsort (fourth_lev, ..)`. -/
def sortFourth (s : Tables) : Tables := { s with fourthLev := qsort s.fourthLev }

/-- `set_plt_values`. -/
def setPltValues (s : Tables) (palette : Palette) : Tables × Palette :=
  iterations secondStep (iterations fourthStep (sortFourth qsort s, palette) 128) 64

end Sorted

/-! ## Looking a pixel up -/

/-- `calculate_vga`. -/
def calculateVga (s : Tables) (pixel : UInt16) : UInt8 :=
  match (List.finRange 128).find? fun i =>
      (s.fourthLev (i.castLE first_le_fourthLev)).color == i4 pixel with
  | some i => UInt8.ofNat ((s.fourthLev (i.castLE first_le_fourthLev)).index + 64)
  | none => UInt8.ofNat (i2 pixel + 64)

end MachineProblems.Program.Quantizer
