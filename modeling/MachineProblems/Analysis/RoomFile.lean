import MachineProblems.Analysis.ObjectFile

/-!
# Room photos through the tool chain

The tool writes a room photo as the header and one 5:6:5 word for each pixel of the BMP, in file
order.  `read_photo` counts the colors of exactly these words, but its second pass starts over at
the header.  So of every photo that the tool writes the palette is the one of the BMP, and each
pixel shows the pixel of the BMP two places before it, the first two the size of the photo.
-/

set_option autoImplicit false

namespace MachineProblems.Analysis.RoomFile

open MachineProblems.Library MachineProblems.Program.PhotoFile MachineProblems.Program.Mp2photo
open MachineProblems.Program.Quantizer MachineProblems.Analysis.ReadPhoto
open MachineProblems.Analysis.ObjectFile
open MachineProblems.Analysis.Quantizer (quantized sortByCounter emptyTables)

/-! ## The color of a pixel -/

theorem toNat_roomColor (r g b : UInt8) :
    (roomColor r g b).toNat = 2048 * (r.toNat / 8) + 32 * (g.toNat / 4) + b.toNat / 8 := by
  have hr := r.toNat_lt
  have hg := g.toNat_lt
  have hb := b.toNat_lt
  have hr8 : (r >>> 3).toNat = r.toNat / 8 := Nat.shiftRight_eq_div_pow r.toNat 3
  have hg4 : (g >>> 2).toNat = g.toNat / 4 := Nat.shiftRight_eq_div_pow g.toNat 2
  have hb8 : (b >>> 3).toNat = b.toNat / 8 := Nat.shiftRight_eq_div_pow b.toNat 3
  have hred : ((r >>> 3).toUInt16 <<< 11).toNat = (r.toNat / 8) <<< 11 := by
    show ((r >>> 3).toNat <<< 11) % 65536 = _
    rw [hr8, Nat.shiftLeft_eq]
    omega
  have hgreen : ((g >>> 2).toUInt16 <<< 5).toNat = (g.toNat / 4) <<< 5 := by
    show ((g >>> 2).toNat <<< 5) % 65536 = _
    rw [hg4, Nat.shiftLeft_eq]
    omega
  have hblue : (b >>> 3).toUInt16.toNat = b.toNat / 8 := hb8
  have hfive : b.toNat / 8 < 2 ^ 5 := by omega
  have hlow : (g.toNat / 4) <<< 5 ||| b.toNat / 8 = (g.toNat / 4) <<< 5 + b.toNat / 8 :=
    (Nat.shiftLeft_add_eq_or_of_lt hfive (g.toNat / 4)).symm
  have hfit : (g.toNat / 4) <<< 5 + b.toNat / 8 < 2 ^ 11 := by
    rw [Nat.shiftLeft_eq]
    omega
  rw [roomColor, UInt16.toNat_or, UInt16.toNat_or, hred, hgreen, hblue, Nat.or_assoc, hlow,
    ← Nat.shiftLeft_add_eq_or_of_lt hfit, Nat.shiftLeft_eq, Nat.shiftLeft_eq]
  omega

/-- **The components of a pixel** are those of the BMP, cut to 5, 6 and 5 bits. -/
theorem components_roomColor (r g b : UInt8) : red (roomColor r g b) = r.toNat / 8 ∧
    green (roomColor r g b) = g.toNat / 4 ∧ blue (roomColor r g b) = b.toNat / 8 := by
  have hr := r.toNat_lt
  have hg := g.toNat_lt
  have hb := b.toNat_lt
  have hfive : ∀ n, n &&& 0x1F = n % 32 := fun n => Nat.and_two_pow_sub_one_eq_mod n 5
  have hsix : ∀ n, n &&& 0x3F = n % 64 := fun n => Nat.and_two_pow_sub_one_eq_mod n 6
  rw [red, green, blue, toNat_roomColor, hfive, hsix, hfive, Nat.shiftRight_eq_div_pow,
    Nat.shiftRight_eq_div_pow]
  omega

/-! ## The tool -/

section Tool

variable {h : BmpHeader} (img : Vector UInt8 h.imgSize.toNat)

/-- The color that the tool gives to the pixel in row `y` and column `x` of the BMP. -/
def bmpWord (y x : ℕ) : UInt16 :=
  roomColor (dataAt img ((bmpRowWidth h).toNat * y + 3 * x + 2))
    (dataAt img ((bmpRowWidth h).toNat * y + 3 * x + 1))
    (dataAt img ((bmpRowWidth h).toNat * y + 3 * x))

/-- The color of a pixel by its number in file order. -/
def fileWord (k : ℕ) : UInt16 := bmpWord img (k / h.imgWidth.toNat) (k % h.imgWidth.toNat)

/-- The output file with its first `k` pixels. -/
def roomFile (k : ℕ) : List UInt8 :=
  photoHeader h ++ (List.range k).flatMap fun j => wordBytes (fileWord img j)

theorem roomFile_succ (k : ℕ) :
    roomFile img (k + 1) = roomFile img k ++ wordBytes (fileWord img k) := by
  rw [roomFile, roomFile, List.range_succ, List.flatMap_append, List.append_assoc]
  simp

theorem roomFile_length (k : ℕ) : (roomFile img k).length = 4 + 2 * k := by
  induction k with
  | zero => rfl
  | succ k ih =>
      have hbytes : (wordBytes (fileWord img k)).length = 2 := rfl
      rw [roomFile_succ, List.length_append, ih, hbytes]
      omega

theorem roomFile_grows {j k : ℕ} (hjk : j ≤ k) : roomFile img j <+: roomFile img k := by
  induction k, hjk using Nat.le_induction with
  | base => exact List.prefix_refl _
  | succ k hjk ih =>
      rw [roomFile_succ]
      exact ih.trans (List.prefix_append _ _)

/-- **One pixel** is read from within the image data and written, if there is room. -/
theorem writePixel_room (hc : Checked h) {y x : ℕ} (hy : y < h.imgHeight.toNat)
    (hx : x < h.imgWidth.toNat) (room : ℕ) :
    writePixel false room h img y x (fitted room (roomFile img (y * h.imgWidth.toNat + x))) =
      some (fitted room (roomFile img (y * h.imgWidth.toNat + x + 1))) := by
  rw [roomFile_succ]
  by_cases hroom : (roomFile img (y * h.imgWidth.toNat + x)).length ≤ room
  · have hlt := hc.pixel_lt hy hx
    obtain ⟨hrow, hcolumn⟩ := rowCol_eq (i := y) hx
    have hcolor : fileWord img (y * h.imgWidth.toNat + x) = bmpWord img y x := by
      rw [fileWord, hrow, hcolumn]
    rw [← fwrite_fitted _ hroom, hcolor, fitted, List.take_of_length_le hroom,
      decide_eq_true hroom]
    simp only [writePixel, getElem?_dataAt img hlt, getElem?_dataAt img (Nat.lt_of_succ_lt hlt),
      getElem?_dataAt img (Nat.lt_of_succ_lt (Nat.lt_of_succ_lt hlt)), Option.bind_eq_bind,
      Option.bind_some]
    rfl
  · have hfull : room ≤ (roomFile img (y * h.imgWidth.toNat + x)).length := by omega
    rw [fitted, decide_eq_false hroom, fitted, List.take_append_of_le_length hfull,
      decide_eq_false (by rw [List.length_append]; omega)]
    rfl

/-- The tool writes as much of the file as there is room for. -/
theorem writeOutputFile_room (hc : Checked h) (room : ℕ) : writeOutputFile false room h img =
    some (fitted room (roomFile img (h.imgHeight.toNat * h.imgWidth.toNat))) := by
  have hstart : fwrite room (photoHeader h) [] = fitted room (roomFile img 0) := by
    rw [fwrite_fitted _ (Nat.zero_le room), roomFile]
    simp
  have hloop : ∃ out, attempts (fun y => attempts (writePixel false room h img y) h.imgWidth.toNat)
      h.imgHeight.toNat (fwrite room (photoHeader h) []) = some out ∧
      out = fitted room (roomFile img (h.imgHeight.toNat * h.imgWidth.toNat)) := by
    refine attempts_rows (I := fun k out => out = fitted room (roomFile img k)) hstart ?_
    rintro y x out hy hx rfl
    exact ⟨_, writePixel_room img hc hy hx room, rfl⟩
  obtain ⟨out, hrun, hout⟩ := hloop
  rw [← hout]
  exact hrun

/-! ## The words of the file -/

/-- A word that lies in a prefix of the file. -/
theorem wordAt_part {file whole : List UInt8} (hfile : file <+: whole) {pos : ℕ}
    (hpos : pos + 2 ≤ file.length) : wordAt file pos = wordAt whole pos := by
  rw [wordAt, wordAt, getD_prefix hfile (by omega), getD_prefix hfile (by omega)]

/-- The words of the header. -/
theorem wordAt_header (k : ℕ) : wordAt (roomFile img k) 0 = h.imgWidth.toUInt16 ∧
    wordAt (roomFile img k) 2 = h.imgHeight.toUInt16 := by
  have hlen : (roomFile img 0).length = 4 := rfl
  rw [← wordAt_part (roomFile_grows img (Nat.zero_le k)) (by omega),
    ← wordAt_part (roomFile_grows img (Nat.zero_le k)) (by omega)]
  exact ⟨word_bytes h.imgWidth.toUInt16, word_bytes h.imgHeight.toUInt16⟩

/-- The pixels behind it. -/
theorem wordAt_pixel {j k : ℕ} (hjk : j < k) :
    wordAt (roomFile img k) (4 + 2 * j) = fileWord img j := by
  have hlen := roomFile_length img j
  have hnext := roomFile_length img (j + 1)
  rw [← wordAt_part (roomFile_grows img (Nat.succ_le_of_lt hjk)) (by rw [hnext]; omega),
    Nat.succ_eq_add_one, roomFile_succ, wordAt,
    List.getD_append_right _ _ _ _ (by omega), List.getD_append_right _ _ _ _ (by omega), hlen,
    Nat.sub_self, show 4 + 2 * j + 1 - (4 + 2 * j) = 1 by omega]
  exact word_bytes (fileWord img j)

/-- The size that the reader finds, as soon as it finds a header. -/
theorem header_roomFile (hc : Checked h) {file : List UInt8} {k : ℕ}
    (hfile : file <+: roomFile img k) (hlen : 4 ≤ file.length) :
    headerWidth file = h.imgWidth.toNat ∧ headerHeight file = h.imgHeight.toNat := by
  have hw := hc.width
  have hh := hc.height
  obtain ⟨hfirst, hsecond⟩ := wordAt_header img k
  rw [headerWidth, headerHeight, wordAt_part hfile (by omega), wordAt_part hfile (by omega),
    hfirst, hsecond, UInt32.toNat_toUInt16, UInt32.toNat_toUInt16]
  omega

/-- What the second pass of `read_photo` takes for pixel `k` of the file. -/
def shownWord (k : ℕ) : UInt16 :=
  if k = 0 then h.imgWidth.toUInt16 else if k = 1 then h.imgHeight.toUInt16
  else fileWord img (k - 2)

theorem wordAt_shown {j k : ℕ} (hjk : j < k) :
    wordAt (roomFile img k) (2 * j) = shownWord img j := by
  unfold shownWord
  split_ifs with hzero hone
  · rw [hzero]
    exact (wordAt_header img k).1
  · rw [hone]
    exact (wordAt_header img k).2
  · have hpos : 2 * j = 4 + 2 * (j - 2) := by omega
    rw [hpos]
    exact wordAt_pixel img (by omega)

/-! ## The round trip -/

/-- The words of the BMP, in file order. -/
def bmpWords (h : BmpHeader) (img : Vector UInt8 h.imgSize.toNat) : List UInt16 :=
  (List.range (h.imgHeight.toNat * h.imgWidth.toNat)).map (fileWord img)

/-- **Room photos through the tool chain**: for every header that the tool accepts within the limits
of `read_photo`, and every image data, the file that the tool writes is read.  The palette is made
from the 5:6:5 colors of the BMP, but the picture, counted from its last row, is that of the BMP two
pixels late, behind the two words of the header.  No proper prefix of the file is accepted. -/
theorem room_round_trip (qsort : (Fin 4096 → Node) → Fin 4096 → Node) (s : Tables)
    {malloc : (n : ℕ) → Option (Vector UInt8 n)} (hmalloc : ∀ n, (malloc n).isSome)
    {bmp : List UInt8} (hcheck : bmpHeaderCheck bmp = some h)
    (hwidth : h.imgWidth.toNat ≤ maxPhotoWidth) (hheight : h.imgHeight.toNat ≤ maxPhotoHeight)
    {room : ℕ} (hroom : 4 + 2 * (h.imgHeight.toNat * h.imgWidth.toNat) ≤ room) :
    ∃ file p, writeOutputFile false room h img = some (file, true) ∧
      (readPhoto qsort malloc (some file) s).2 = some p ∧
      p.width = h.imgWidth.toNat ∧ p.height = h.imgHeight.toNat ∧
      p.palette = (quantized qsort s (bmpWords h img)).2 ∧
      (∀ x y, x < h.imgWidth.toNat → y < h.imgHeight.toNat → p.img[p.width * y + x]? =
        some (calculateVga (quantized qsort s (bmpWords h img)).1
          (shownWord img ((h.imgHeight.toNat - 1 - y) * h.imgWidth.toNat + x)))) ∧
      (∀ x y, x < h.imgWidth.toNat → y < h.imgHeight.toNat → ∃ r g b : UInt8,
        img[(bmpRowWidth h).toNat * y + 3 * x + 2]? = some r ∧
        img[(bmpRowWidth h).toNat * y + 3 * x + 1]? = some g ∧
        img[(bmpRowWidth h).toNat * y + 3 * x]? = some b ∧
        red (fileWord img (y * h.imgWidth.toNat + x)) = r.toNat / 8 ∧
        green (fileWord img (y * h.imgWidth.toNat + x)) = g.toNat / 4 ∧
        blue (fileWord img (y * h.imgWidth.toNat + x)) = b.toNat / 8) ∧
      ∀ part, part <+: file → part ≠ file → (readPhoto qsort malloc (some part) s).2 = none := by
  have hc := checked_of_check hcheck
  let count := h.imgHeight.toNat * h.imgWidth.toNat
  let file := roomFile img count
  have hlen : file.length = 4 + 2 * count := roomFile_length img count
  obtain ⟨hw, hh⟩ := header_roomFile img hc (List.prefix_refl file) (by omega)
  have hwritten : writeOutputFile false room h img = some (file, true) := by
    have hall : file.length ≤ room := hlen.trans_le hroom
    rw [writeOutputFile_room img hc room, fitted, List.take_of_length_le hall,
      decide_eq_true hall]
  have hformed : WellFormed file :=
    ⟨by omega, hw.trans_le hwidth, hh.trans_le hheight, by rw [hw, hh]; exact hlen.ge⟩
  have hpixels : pixels file (headerHeight file * headerWidth file) = bmpWords h img := by
    rw [hw, hh]
    exact List.map_congr_left fun j hj => wordAt_pixel img (List.mem_range.mp hj)
  obtain ⟨block, hread, hmapped⟩ := readPhoto_of_wellFormed qsort s hmalloc hformed
  rw [photoTables, hpixels] at hread hmapped
  refine ⟨file, _, hwritten, hread, hw, hh, rfl, ?_, ?_, ?_⟩
  · intro x y hx hy
    have hrow : h.imgHeight.toNat - 1 - y < h.imgHeight.toNat := by omega
    have hpixel := hmapped.pixel (hx.trans_eq hw.symm) (hy.trans_eq hh.symm)
    rw [hpixel, hw, hh, wordAt_shown img (rowCol_lt hrow hx)]
  · intro x y hx hy
    have hlt := hc.pixel_lt hy hx
    obtain ⟨hrow, hcolumn⟩ := rowCol_eq (i := y) hx
    have hcolor : fileWord img (y * h.imgWidth.toNat + x) = bmpWord img y x := by
      rw [fileWord, hrow, hcolumn]
    rw [hcolor]
    exact ⟨_, _, _, getElem?_dataAt img hlt, getElem?_dataAt img (Nat.lt_of_succ_lt hlt),
      getElem?_dataAt img (Nat.lt_of_succ_lt (Nat.lt_of_succ_lt hlt)), components_roomColor _ _ _⟩
  · intro part hpart hne
    have hshort : part.length < 4 + 2 * count := by
      have hle := hpart.length_le
      have hsame : part.length ≠ file.length := fun heq => hne (hpart.eq_of_length heq)
      omega
    apply readPhoto_of_not_wellFormed
    intro hpartial
    obtain ⟨hpw, hph⟩ := header_roomFile img hc hpart hpartial.hasHeader
    have henough := hpartial.hasPixels
    rw [hpw, hph] at henough
    omega

end Tool

/-- The BMP with a yellow and a blue pixel. -/
theorem room_round_trip_tiny :
    ∃ file p, writeOutputFile false 8 tinyHeader tinyData = some (file, true) ∧
      (readPhoto sortByCounter zeroBlock (some file) emptyTables).2 = some p ∧
      p.width = 2 ∧ p.height = 1 := by
  obtain ⟨file, p, hwritten, hread, hw, hh, -⟩ := room_round_trip (h := tinyHeader) tinyData
    sortByCounter emptyTables (fun n => (rfl : (zeroBlock n).isSome = true))
    (by decide : bmpHeaderCheck tinyBmp = some tinyHeader) (by decide) (by decide)
    (show 4 + 2 * (tinyHeader.imgHeight.toNat * tinyHeader.imgWidth.toNat) ≤ 8 by decide)
  exact ⟨file, p, hwritten, hread, hw, hh⟩

end MachineProblems.Analysis.RoomFile
