import MachineProblems.Program.Mp2photo
import MachineProblems.Analysis.ReadPhoto

/-!
# Object images through the tool chain

The tool writes the pixels of a BMP in file order, without the padding of its rows, and
`read_obj_image` fills its rows from the last one to the first.  Both count the same pixels, so the
picture is the BMP turned upside down.  The file has no byte to spare: what is left of it after a
failed write is refused.
-/

set_option autoImplicit false

namespace MachineProblems.Analysis.ObjectFile

open MachineProblems.Library MachineProblems.Program.PhotoFile MachineProblems.Program.Mp2photo
open MachineProblems.Program.Adventure MachineProblems.Analysis.ReadPhoto

/-! ## The header of the BMP -/

section Header

variable {h : BmpHeader}

/-- What the checks on the header say about its numbers. -/
structure Checked (h : BmpHeader) : Prop where
  width : h.imgWidth.toNat ≤ 4096
  height : h.imgHeight.toNat ≤ 4096
  size : h.imgSize.toNat = (bmpRowWidth h).toNat * h.imgHeight.toNat

/-- A row has room for its pixels. -/
theorem rowWidth_bounds (hw : h.imgWidth.toNat ≤ 4096) :
    3 * h.imgWidth.toNat ≤ (bmpRowWidth h).toNat ∧ (bmpRowWidth h).toNat ≤ 12288 := by
  have hrow : (bmpRowWidth h).toNat = 4 * ((3 * h.imgWidth.toNat + 3) / 4) := by
    have h3 : (3 : UInt32).toNat = 3 := rfl
    have h4 : (4 : UInt32).toNat = 4 := rfl
    have htriple : 3 * h.imgWidth.toNat % 2 ^ 32 = 3 * h.imgWidth.toNat :=
      Nat.mod_eq_of_lt (by omega)
    have hround : (3 * h.imgWidth.toNat + 3) % 2 ^ 32 = 3 * h.imgWidth.toNat + 3 :=
      Nat.mod_eq_of_lt (by omega)
    simp only [bmpRowWidth, UInt32.toNat_mul, UInt32.toNat_add, UInt32.toNat_div, h3, h4, htriple,
      hround]
    exact Nat.mod_eq_of_lt (by omega)
  omega

theorem checked_of_check {bytes : List UInt8} (hcheck : bmpHeaderCheck bytes = some h) :
    Checked h := by
  have hvalid : h.valid = true := by
    unfold bmpHeaderCheck at hcheck
    split_ifs at hcheck
    exact (Option.filter_eq_some_iff.mp hcheck).2
  simp only [BmpHeader.valid, Bool.and_eq_true, decide_eq_true_eq, beq_iff_eq] at hvalid
  obtain ⟨⟨⟨⟨⟨hw, hh⟩, -⟩, -⟩, -⟩, hsize⟩ := hvalid
  have hw : h.imgWidth.toNat ≤ 4096 := hw
  have hh : h.imgHeight.toNat ≤ 4096 := hh
  obtain ⟨-, hrow⟩ := rowWidth_bounds hw
  have hproduct : (bmpRowWidth h).toNat * h.imgHeight.toNat ≤ 12288 * 4096 := Nat.mul_le_mul hrow hh
  refine ⟨hw, hh, ?_⟩
  rw [hsize, UInt32.toNat_mul, Nat.mod_eq_of_lt (by omega)]

/-- **Every pixel lies in the image data**, whatever the padding of the rows. -/
theorem Checked.pixel_lt (hc : Checked h) {y x : ℕ} (hy : y < h.imgHeight.toNat)
    (hx : x < h.imgWidth.toNat) :
    (bmpRowWidth h).toNat * y + 3 * x + 2 < h.imgSize.toNat := by
  obtain ⟨hrow, -⟩ := rowWidth_bounds hc.width
  rw [hc.size]
  calc (bmpRowWidth h).toNat * y + 3 * x + 2
      < (bmpRowWidth h).toNat * y + (bmpRowWidth h).toNat := by omega
    _ = (bmpRowWidth h).toNat * (y + 1) := by rw [Nat.mul_succ]
    _ ≤ (bmpRowWidth h).toNat * h.imgHeight.toNat := Nat.mul_le_mul_left _ hy

end Header

/-! ## The tool -/

section Tool

variable {h : BmpHeader} (img : Vector UInt8 h.imgSize.toNat)

/-- A byte of the image data. -/
def dataAt (i : ℕ) : UInt8 := img[i]?.getD 0

theorem getElem?_dataAt {i : ℕ} (hi : i < h.imgSize.toNat) : img[i]? = some (dataAt img i) := by
  rw [dataAt, Vector.getElem?_eq_getElem hi, Option.getD_some]

/-- The color that the tool gives to the pixel in row `y` and column `x` of the BMP. -/
def bmpColor (y x : ℕ) : UInt8 :=
  objectColor (dataAt img ((bmpRowWidth h).toNat * y + 3 * x + 2))
    (dataAt img ((bmpRowWidth h).toNat * y + 3 * x + 1))
    (dataAt img ((bmpRowWidth h).toNat * y + 3 * x))

/-- The color of a pixel by its number in file order. -/
def fileColor (k : ℕ) : UInt8 := bmpColor img (k / h.imgWidth.toNat) (k % h.imgWidth.toNat)

/-- The output file with its first `k` pixels. -/
def objectFile (k : ℕ) : List UInt8 := photoHeader h ++ (List.range k).map (fileColor img)

theorem objectFile_length (k : ℕ) : (objectFile img k).length = 4 + k := by
  have hheader : (photoHeader h).length = 4 := rfl
  rw [objectFile, List.length_append, hheader, List.length_map, List.length_range]

theorem objectFile_succ (k : ℕ) : objectFile img (k + 1) = objectFile img k ++ [fileColor img k] := by
  rw [objectFile, objectFile, List.range_succ, List.map_append, List.append_assoc]
  rfl

/-- What a disk with room for `room` bytes holds of `file`, and whether that is all. -/
def fitted (room : ℕ) (file : List UInt8) : Output := (file.take room, decide (file.length ≤ room))

/-- **A write** to a disk that has not been full goes on with the file. -/
theorem fwrite_fitted {room : ℕ} {file : List UInt8} (data : List UInt8)
    (hroom : file.length ≤ room) : fwrite room data file = fitted room (file ++ data) := by
  rw [fwrite, fitted, List.take_append, List.take_of_length_le hroom, List.length_append]

/-- **One pixel** is read from within the image data and written, if there is room. -/
theorem writePixel_fitted (hc : Checked h) {y x : ℕ} (hy : y < h.imgHeight.toNat)
    (hx : x < h.imgWidth.toNat) (room : ℕ) :
    writePixel true room h img y x (fitted room (objectFile img (y * h.imgWidth.toNat + x))) =
      some (fitted room (objectFile img (y * h.imgWidth.toNat + x + 1))) := by
  rw [objectFile_succ]
  by_cases hroom : (objectFile img (y * h.imgWidth.toNat + x)).length ≤ room
  · have hlt := hc.pixel_lt hy hx
    obtain ⟨hrow, hcolumn⟩ := rowCol_eq (i := y) hx
    have hcolor : fileColor img (y * h.imgWidth.toNat + x) = bmpColor img y x := by
      rw [fileColor, hrow, hcolumn]
    rw [← fwrite_fitted _ hroom, hcolor, fitted, List.take_of_length_le hroom,
      decide_eq_true hroom]
    simp only [writePixel, getElem?_dataAt img hlt, getElem?_dataAt img (Nat.lt_of_succ_lt hlt),
      getElem?_dataAt img (Nat.lt_of_succ_lt (Nat.lt_of_succ_lt hlt)), Option.bind_eq_bind,
      Option.bind_some]
    rfl
  · have hfull : room ≤ (objectFile img (y * h.imgWidth.toNat + x)).length := by omega
    rw [fitted, decide_eq_false hroom, fitted, List.take_append_of_le_length hfull,
      decide_eq_false (by rw [List.length_append]; omega)]
    rfl

/-- **The tool never reads outside of the image data**, and writes as much of the file as there is
room for. -/
theorem writeOutputFile_eq (hc : Checked h) (room : ℕ) : writeOutputFile true room h img =
    some (fitted room (objectFile img (h.imgHeight.toNat * h.imgWidth.toNat))) := by
  have hstart : fwrite room (photoHeader h) [] = fitted room (objectFile img 0) := by
    rw [fwrite_fitted _ (Nat.zero_le room), objectFile]
    simp
  have hloop : ∃ out, attempts (fun y => attempts (writePixel true room h img y) h.imgWidth.toNat)
      h.imgHeight.toNat (fwrite room (photoHeader h) []) = some out ∧
      out = fitted room (objectFile img (h.imgHeight.toNat * h.imgWidth.toNat)) := by
    refine attempts_rows (I := fun k out => out = fitted room (objectFile img k)) hstart ?_
    rintro y x out hy hx rfl
    exact ⟨_, writePixel_fitted img hc hy hx room, rfl⟩
  obtain ⟨out, hrun, hout⟩ := hloop
  rw [← hout]
  exact hrun

end Tool

/-! ## The reader -/

section Reader

variable {bytes : List UInt8} {width height : ℕ}

/-- The loops of `read_obj_image` after `k` pixels: the picture has the bytes behind the header, or
the file was too short and the function has returned. -/
def Scanned (bytes : List UInt8) (k : ℕ) (t : Vector UInt8 (width * height) × Option ℕ) : Prop :=
  (t.2 = some (4 + k) ∧ 4 + k ≤ bytes.length ∧ Stored (fun j => bytes.getD (4 + j) 0) k t.1) ∨
    (t.2 = none ∧ bytes.length < 4 + k)

theorem scanned_readObjPixel {i : Fin height} {x : Fin width}
    {t : Vector UInt8 (width * height) × Option ℕ} (ht : Scanned bytes (i * width + x) t) :
    Scanned bytes (i * width + x + 1) (readObjPixel bytes i.rev x t) := by
  obtain ⟨img, done⟩ := t
  rcases ht with ⟨hpos, hlen, himg⟩ | ⟨hnone, hshort⟩
  · obtain rfl : done = some (4 + (i * width + x)) := hpos
    by_cases hmore : 4 + (i * width + x) < bytes.length
    · left
      have hbyte : bytes.getD (4 + (i * width + x)) 0 = bytes[4 + (i * width + x)] :=
        List.getD_eq_getElem _ _ hmore
      simp only [readObjPixel, List.getElem?_eq_getElem hmore]
      refine ⟨rfl, hmore, ?_⟩
      rw [← hbyte]
      exact Stored.set (c := fun j => bytes.getD (4 + j) 0) himg
    · right
      simp only [readObjPixel, List.getElem?_eq_none (Nat.le_of_not_lt hmore)]
      exact ⟨trivial, by omega⟩
  · obtain rfl : done = none := hnone
    right
    exact ⟨rfl, by omega⟩

/-- **The loops** read all pixels of a file that is long enough, and return from any other. -/
theorem objLoop_scanned (hlen : 4 ≤ bytes.length) (block : Vector UInt8 (width * height)) :
    Scanned bytes (height * width) (objLoop bytes block 4) := by
  apply iterations_rows (I := Scanned bytes)
  · exact Or.inl ⟨rfl, hlen, fun i x hlt => absurd hlt (Nat.not_lt_zero _)⟩
  · intro i x t ht
    exact scanned_readObjPixel ht

variable {malloc : (n : ℕ) → Option (Vector UInt8 n)}

theorem readObjImage_eq (hlen : 4 ≤ bytes.length) : readObjImage malloc (some bytes) =
    if headerWidth bytes ≤ maxObjectWidth ∧ headerHeight bytes ≤ maxObjectHeight then
      (malloc (headerWidth bytes * headerHeight bytes)).bind fun block =>
        (objLoop bytes block 4).2.map fun _ => ⟨headerWidth bytes, headerHeight bytes,
          (objLoop bytes block 4).1, (wordAt bytes 0).toNat_lt, (wordAt bytes 2).toNat_lt⟩
    else none := by
  obtain ⟨hfirst, hsecond⟩ := fread_header hlen
  simp only [readObjImage, hfirst, hsecond, Option.bind_eq_bind, Option.bind_some]
  rfl

/-- **A file that ends** within its header or its pixels is refused. -/
theorem readObjImage_short (hshort : bytes.length < 4 + headerHeight bytes * headerWidth bytes) :
    readObjImage malloc (some bytes) = none := by
  by_cases hlen : 4 ≤ bytes.length
  · rw [readObjImage_eq hlen]
    split_ifs
    · cases malloc (headerWidth bytes * headerHeight bytes) with
      | none => rfl
      | some block =>
          rcases objLoop_scanned hlen block with ⟨-, henough, -⟩ | ⟨hnone, -⟩
          · omega
          · rw [Option.bind_some, hnone]
            rfl
    · rfl
  · have hsecond : fread bytes 2 = none := by
      rw [fread_eq, if_neg (by omega)]
    cases hfirst : fread bytes 0 with
    | none => simp only [readObjImage, hfirst, Option.bind_eq_bind, Option.bind_some, Option.bind_none]
    | some first =>
        simp only [readObjImage, hfirst, hsecond, Option.bind_eq_bind, Option.bind_some,
          Option.bind_none]

/-- A file with all its pixels is read. -/
theorem readObjImage_enough (hmalloc : ∀ n, (malloc n).isSome)
    (hw : headerWidth bytes ≤ maxObjectWidth) (hh : headerHeight bytes ≤ maxObjectHeight)
    (henough : 4 + headerHeight bytes * headerWidth bytes ≤ bytes.length) :
    ∃ image, readObjImage malloc (some bytes) = some image ∧ image.width = headerWidth bytes ∧
      image.height = headerHeight bytes ∧ ∀ x y, x < image.width → y < image.height →
        image.img[image.width * y + x]? =
          some (bytes.getD (4 + ((image.height - 1 - y) * image.width + x)) 0) := by
  obtain ⟨block, hblock⟩ :=
    Option.isSome_iff_exists.mp (hmalloc (headerWidth bytes * headerHeight bytes))
  rcases objLoop_scanned (by omega : 4 ≤ bytes.length) block with ⟨hdone, -, hstored⟩ | ⟨-, hshort⟩
  · rw [readObjImage_eq (by omega), if_pos ⟨hw, hh⟩, hblock, Option.bind_some, hdone]
    refine ⟨_, rfl, rfl, rfl, fun x y hx hy => ?_⟩
    exact hstored.pixel hx hy
  · omega

end Reader

/-! ## The round trip -/

section RoundTrip

variable {h : BmpHeader} (img : Vector UInt8 h.imgSize.toNat)

theorem word_bytes (w : UInt16) : word w.toUInt8 (w >>> 8).toUInt8 = w := by
  apply UInt16.toNat_inj.mp
  have hw := w.toNat_lt
  have h8 : (8 : UInt16).toNat = 8 := rfl
  have h256 : 2 ^ (8 % 16) = 256 := rfl
  simp only [word, UInt16.toNat_toUInt8, UInt16.toNat_shiftRight, UInt16.toNat_ofNat', h8,
    Nat.shiftRight_eq_div_pow, h256]
  omega

theorem getD_prefix {file whole : List UInt8} (hfile : file <+: whole) {j : ℕ}
    (hj : j < file.length) : file.getD j 0 = whole.getD j 0 := by
  obtain ⟨rest, rfl⟩ := hfile
  exact (List.getD_append file rest 0 j hj).symm

/-- What the reader finds in the header of a file that has one. -/
theorem header_objectFile (hc : Checked h) {file : List UInt8} {k : ℕ}
    (hfile : file <+: objectFile img k) (hlen : 4 ≤ file.length) :
    headerWidth file = h.imgWidth.toNat ∧ headerHeight file = h.imgHeight.toNat := by
  have hw := hc.width
  have hh := hc.height
  have hfirst : wordAt file 0 = h.imgWidth.toUInt16 := by
    rw [wordAt, getD_prefix hfile (by omega), getD_prefix hfile (by omega)]
    exact word_bytes h.imgWidth.toUInt16
  have hsecond : wordAt file 2 = h.imgHeight.toUInt16 := by
    rw [wordAt, getD_prefix hfile (by omega), getD_prefix hfile (by omega)]
    exact word_bytes h.imgHeight.toUInt16
  rw [headerWidth, headerHeight, hfirst, hsecond, UInt32.toNat_toUInt16, UInt32.toNat_toUInt16]
  omega

/-- The pixels of the file behind its header. -/
theorem getD_objectFile {j k : ℕ} (hj : j < k) :
    (objectFile img k).getD (4 + j) 0 = fileColor img j := by
  have hheader : (photoHeader h).length = 4 := rfl
  rw [objectFile, List.getD_append_right _ _ _ _ (by omega), hheader, Nat.add_sub_cancel_left]
  simp [List.getD, hj]

/-- The two top bits of each component, red above green above blue. -/
def twoBitColor (red green blue : UInt8) : ℕ :=
  16 * (red.toNat / 64) + 4 * (green.toNat / 64) + blue.toNat / 64

/-- **The color of a pixel** is its two-bit color, or transparent for bright yellow. -/
theorem toNat_objectColor (red green blue : UInt8) : (objectColor red green blue).toNat =
    if twoBitColor red green blue = 0x3C then objClrTransp.toNat
    else twoBitColor red green blue := by
  have hvga : ((red >>> 6) <<< 4 ||| (green >>> 6) <<< 2 ||| blue >>> 6).toNat =
      twoBitColor red green blue := by
    have hred := red.toNat_lt
    have hgreen := green.toNat_lt
    have hblue := blue.toNat_lt
    have hr : (red >>> 6).toNat = red.toNat / 64 := Nat.shiftRight_eq_div_pow red.toNat 6
    have hg : (green >>> 6).toNat = green.toNat / 64 := Nat.shiftRight_eq_div_pow green.toNat 6
    have hb : (blue >>> 6).toNat = blue.toNat / 64 := Nat.shiftRight_eq_div_pow blue.toNat 6
    have hr4 : ((red >>> 6) <<< 4).toNat = (red.toNat / 64) <<< 4 := by
      show ((red >>> 6).toNat <<< 4) % 256 = _
      rw [hr, Nat.shiftLeft_eq]
      omega
    have hg2 : ((green >>> 6) <<< 2).toNat = (green.toNat / 64) <<< 2 := by
      show ((green >>> 6).toNat <<< 2) % 256 = _
      rw [hg, Nat.shiftLeft_eq]
      omega
    rw [UInt8.toNat_or, UInt8.toNat_or, hr4, hg2, hb, twoBitColor]
    rw [or_fields 2 (by omega) (by omega)]
    omega
  unfold objectColor
  simp only [← hvga]
  have h60 : (0x3C : UInt8).toNat = 0x3C := rfl
  split_ifs with hyellow hnat hnat
  · rfl
  · exact absurd (congrArg UInt8.toNat hyellow) hnat
  · exact absurd (UInt8.toNat_inj.mp hnat) hyellow
  · rfl

/-- **Object images survive the tool chain**: for every header that the tool accepts and every image
data, the file that it writes is read back with the colors of the BMP from the last row to the first;
the tool reads the image data only, and of the file no proper prefix is accepted. -/
theorem object_round_trip {malloc : (n : ℕ) → Option (Vector UInt8 n)}
    (hmalloc : ∀ n, (malloc n).isSome) {bmp : List UInt8} (hcheck : bmpHeaderCheck bmp = some h)
    (hwidth : h.imgWidth.toNat ≤ 160) (hheight : h.imgHeight.toNat ≤ 100) {room : ℕ}
    (hroom : 4 + h.imgWidth.toNat * h.imgHeight.toNat ≤ room) :
    ∃ file image, writeOutputFile true room h img = some (file, true) ∧
      readObjImage malloc (some file) = some image ∧
      image.width = h.imgWidth.toNat ∧ image.height = h.imgHeight.toNat ∧
      (∀ x y, x < h.imgWidth.toNat → y < h.imgHeight.toNat → ∃ color red green blue : UInt8,
        image.img[image.width * y + x]? = some color ∧
        img[(bmpRowWidth h).toNat * (h.imgHeight.toNat - 1 - y) + 3 * x + 2]? = some red ∧
        img[(bmpRowWidth h).toNat * (h.imgHeight.toNat - 1 - y) + 3 * x + 1]? = some green ∧
        img[(bmpRowWidth h).toNat * (h.imgHeight.toNat - 1 - y) + 3 * x]? = some blue ∧
        color.toNat = if twoBitColor red green blue = 0x3C then objClrTransp.toNat
          else twoBitColor red green blue) ∧
      ∀ part, part <+: file → part ≠ file → readObjImage malloc (some part) = none := by
  have hc := checked_of_check hcheck
  let count := h.imgHeight.toNat * h.imgWidth.toNat
  have hlen : (objectFile img count).length = 4 + count := objectFile_length img count
  have hwritten : writeOutputFile true room h img = some (objectFile img count, true) := by
    have hall : (objectFile img count).length ≤ room := by
      have hcount : count = h.imgWidth.toNat * h.imgHeight.toNat := mul_comm _ _
      omega
    rw [writeOutputFile_eq img hc room, fitted, List.take_of_length_le hall, decide_eq_true hall]
  obtain ⟨hw, hh⟩ := header_objectFile img hc (List.prefix_refl (objectFile img count)) (by omega)
  have henough : 4 + headerHeight (objectFile img count) * headerWidth (objectFile img count) ≤
      (objectFile img count).length := by rw [hw, hh, hlen]
  obtain ⟨image, hread, hiw, hih, hpixels⟩ :=
    readObjImage_enough hmalloc (hw.trans_le hwidth) (hh.trans_le hheight) henough
  rw [hw] at hiw
  rw [hh] at hih
  refine ⟨objectFile img count, image, hwritten, hread, hiw, hih, fun x y hx hy => ?_, ?_⟩
  · have hpixel := hpixels x y (hiw.symm ▸ hx) (hih.symm ▸ hy)
    have hrow : h.imgHeight.toNat - 1 - y < h.imgHeight.toNat := by omega
    have hlt := hc.pixel_lt hrow hx
    obtain ⟨hdiv, hmod⟩ := rowCol_eq (i := h.imgHeight.toNat - 1 - y) hx
    have hcolor : (objectFile img count).getD
        (4 + ((image.height - 1 - y) * image.width + x)) 0 =
          bmpColor img (h.imgHeight.toNat - 1 - y) x := by
      rw [hih, hiw, getD_objectFile img (rowCol_lt hrow hx), fileColor, hdiv, hmod]
    rw [hcolor] at hpixel
    exact ⟨_, _, _, _, hpixel, getElem?_dataAt img hlt, getElem?_dataAt img (Nat.lt_of_succ_lt hlt),
      getElem?_dataAt img (Nat.lt_of_succ_lt (Nat.lt_of_succ_lt hlt)), toNat_objectColor _ _ _⟩
  · intro part hpart hne
    have hshort : part.length < 4 + count := by
      have hle := hpart.length_le
      have hsame : part.length ≠ (objectFile img count).length := fun heq =>
        hne (hpart.eq_of_length heq)
      omega
    apply readObjImage_short
    by_cases hheader : 4 ≤ part.length
    · obtain ⟨hpw, hph⟩ := header_objectFile img hc hpart hheader
      rw [hpw, hph]
      exact hshort
    · omega

end RoundTrip

/-- The header of a BMP with two pixels in one row, and its file up to the image data. -/
def tinyHeader : BmpHeader := ⟨62, 0, 54, 40, 2, 1, 1, 24, 0, 8⟩

def tinyBmp : List UInt8 :=
  [0x42, 0x4D, 62, 0, 0, 0, 0, 0, 0, 0, 54, 0, 0, 0, 40, 0, 0, 0, 2, 0, 0, 0, 1, 0, 0, 0, 1, 0, 24, 0,
    0, 0, 0, 0, 8, 0, 0, 0]

/-- A yellow pixel and a blue one, and two bytes of padding. -/
def tinyData : Vector UInt8 tinyHeader.imgSize.toNat :=
  (⟨#[0, 255, 255, 255, 0, 0, 0, 0], rfl⟩ : Vector UInt8 8)

theorem object_round_trip_tiny :
    ∃ file image, writeOutputFile true 6 tinyHeader tinyData = some (file, true) ∧
      readObjImage (fun n => some (Vector.replicate n 0)) (some file) = some image ∧
      image.width = 2 ∧ image.height = 1 ∧
      (∀ x y, x < 2 → y < 1 → ∃ color red green blue : UInt8,
        image.img[image.width * y + x]? = some color ∧
        tinyData[8 * (1 - 1 - y) + 3 * x + 2]? = some red ∧
        tinyData[8 * (1 - 1 - y) + 3 * x + 1]? = some green ∧
        tinyData[8 * (1 - 1 - y) + 3 * x]? = some blue ∧
        color.toNat = if twoBitColor red green blue = 0x3C then objClrTransp.toNat
          else twoBitColor red green blue) ∧
      ∀ part, part <+: file → part ≠ file →
        readObjImage (fun n => some (Vector.replicate n 0)) (some part) = none :=
  object_round_trip (h := tinyHeader) tinyData (fun _ => rfl)
    (by decide : bmpHeaderCheck tinyBmp = some tinyHeader) (by decide) (by decide) (by decide)

end MachineProblems.Analysis.ObjectFile
