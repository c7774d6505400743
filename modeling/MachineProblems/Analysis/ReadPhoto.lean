import MachineProblems.Program.PhotoFile
import MachineProblems.Analysis.Quantizer
import Mathlib.Data.List.GetD

/-!
# The two passes of `read_photo`

Both passes read `width * height` words in file order.  The first starts behind the
header and builds the tables from the pixels; the second starts at byte 0, so it maps the
two header words and all pixels but the last two.  The picture is right exactly when
that makes no difference to the palette indices.
-/

set_option autoImplicit false

namespace MachineProblems.Analysis.ReadPhoto

open MachineProblems.Library MachineProblems.Program.Quantizer
open MachineProblems.Program.PhotoFile MachineProblems.Analysis.Quantizer

/-! ## One pass over the file -/

/-- The word at a position of the file. -/
def wordAt (bytes : List UInt8) (pos : ℕ) : UInt16 :=
  word (bytes.getD pos 0) (bytes.getD (pos + 1) 0)

theorem fread_eq (bytes : List UInt8) (pos : ℕ) : fread bytes pos =
    if pos + 2 ≤ bytes.length then some (wordAt bytes pos, pos + 2) else none := by
  unfold fread wordAt
  by_cases h1 : pos + 1 < bytes.length
  · have h0 : pos < bytes.length := by omega
    rw [if_pos (by omega), List.getElem?_eq_getElem h0, List.getElem?_eq_getElem h1,
      List.getD_eq_getElem _ _ h0, List.getD_eq_getElem _ _ h1]
    rfl
  · rw [if_neg (by omega), List.getElem?_eq_none (Nat.le_of_not_lt h1)]
    cases bytes[pos]? with
    | none => rfl
    | some lo => rfl

section Pass

variable {σ : Type} {bytes : List UInt8} {width height pos : ℕ}
  {store : Fin height → Fin width → UInt16 → σ → σ} {I : ℕ → σ → Prop}

/-- A pass after `k` words: it stands behind them in a state of the invariant, or it has
returned because the file is too short. -/
def Passed (bytes : List UInt8) (pos : ℕ) (I : ℕ → σ → Prop) (k : ℕ) (t : σ × Option ℕ) : Prop :=
  (t.2 = some (pos + 2 * k) ∧ pos + 2 * k ≤ bytes.length ∧ I k t.1) ∨
    (t.2 = none ∧ bytes.length < pos + 2 * k)

theorem passed_readPixel {store : UInt16 → σ → σ} {k : ℕ} {t : σ × Option ℕ}
    (hstep : ∀ s, I k s → I (k + 1) (store (wordAt bytes (pos + 2 * k)) s))
    (ht : Passed bytes pos I k t) : Passed bytes pos I (k + 1) (readPixel bytes store t) := by
  obtain ⟨s, at_⟩ := t
  rcases ht with ⟨hpos, -, hI⟩ | ⟨hnone, hshort⟩
  · obtain rfl : at_ = some (pos + 2 * k) := hpos
    by_cases hlen : pos + 2 * k + 2 ≤ bytes.length
    · left
      simp only [readPixel, fread_eq, if_pos hlen]
      exact ⟨congrArg some (by omega), by omega, hstep s hI⟩
    · right
      simp only [readPixel, fread_eq, if_neg hlen]
      exact ⟨trivial, by omega⟩
  · obtain rfl : at_ = none := hnone
    right
    exact ⟨rfl, by omega⟩

/-- **The rule of a pass**: an invariant indexed by the words read, over rows from the
last to the first and columns from left to right. -/
theorem passed_pixelLoop (hpos : pos ≤ bytes.length) {s : σ} (h0 : I 0 s)
    (hstep : ∀ (i : Fin height) (x : Fin width) (s : σ), I (i * width + x) s →
      I (i * width + x + 1) (store i.rev x (wordAt bytes (pos + 2 * (i * width + x))) s)) :
    Passed bytes pos I (height * width) (pixelLoop bytes store s pos) := by
  apply iterations_rows (I := Passed bytes pos I)
  · exact Or.inl ⟨rfl, hpos, h0⟩
  · intro i x t ht
    exact passed_readPixel (hstep i x) ht

end Pass

/-! ## The two passes -/

/-- The file's pixel words, counted after the header. -/
def pixelWord (bytes : List UInt8) (k : ℕ) : UInt16 := wordAt bytes (4 + 2 * k)

/-- The first `n` pixels of the file. -/
def pixels (bytes : List UInt8) (n : ℕ) : List UInt16 := (List.range n).map (pixelWord bytes)

/-- The width and the height that the header claims. -/
def headerWidth (bytes : List UInt8) : ℕ := (wordAt bytes 0).toNat

def headerHeight (bytes : List UInt8) : ℕ := (wordAt bytes 2).toNat

theorem histogram_pass {bytes : List UInt8} (hlen : 4 ≤ bytes.length) (width height : ℕ)
    (s : Tables) :
    Passed bytes 4 (fun k t => t = histogram s (pixels bytes k)) (height * width)
      (pixelLoop bytes (fun (_ : Fin height) (_ : Fin width) pixel s => insertValues s pixel)
        (arrInitialize s) 4) := by
  refine passed_pixelLoop hlen rfl fun i x t ht => ?_
  have hsucc : pixels bytes (i * width + x + 1) =
      pixels bytes (i * width + x) ++ [pixelWord bytes (i * width + x)] := by
    simp [pixels, List.range_succ]
  rw [ht, hsucc, histogram, histogram, List.foldl_append]
  rfl

/-- The picture after `k` words `stream` of the mapping pass. -/
def Mapped {width height : ℕ} (f : UInt16 → UInt8) (stream : ℕ → UInt16) (k : ℕ)
    (img : Vector UInt8 (width * height)) : Prop :=
  ∀ (i : Fin height) (x : Fin width), i * width + x < k →
    img[width * i.rev + x]? = some (f (stream (i * width + x)))

/-- A picture whose first `k` pixels in file order, rows from the last to the first, have the given
colors. -/
def Stored {width height : ℕ} (c : ℕ → UInt8) (k : ℕ) (img : Vector UInt8 (width * height)) :
    Prop :=
  ∀ (i : Fin height) (x : Fin width), i * width + x < k →
    img[width * i.rev + x]? = some (c (i * width + x))

/-- **The next pixel** does not disturb those before. -/
theorem Stored.set {width height : ℕ} {c : ℕ → UInt8} {img : Vector UInt8 (width * height)}
    {i : Fin height} {x : Fin width} (h : Stored c (i * width + x) img) :
    Stored c (i * width + x + 1)
      (img.set (width * i.rev + x) (c (i * width + x)) (pixelIndex_lt i.rev x)) := by
  intro j z hlt
  by_cases heq : j * width + z = i * width + x
  · obtain ⟨hj, hz⟩ := rowCol_inj z.isLt x.isLt heq
    obtain rfl := Fin.ext hj
    obtain rfl := Fin.ext hz
    rw [Vector.getElem?_set_self]
  · have hne : width * i.rev + x ≠ width * j.rev + z := by
      intro he
      rw [mul_comm width, mul_comm width] at he
      obtain ⟨hrev, hz⟩ := rowCol_inj x.isLt z.isLt he
      have hij : i = j := Fin.rev_injective (Fin.ext hrev)
      exact heq (by rw [hij, hz])
    rw [Vector.getElem?_set_ne _ hne]
    exact h j z (by omega)

/-- The whole picture, by column and row. -/
theorem Stored.pixel {width height : ℕ} {c : ℕ → UInt8} {img : Vector UInt8 (width * height)}
    (h : Stored c (height * width) img) {x y : ℕ} (hx : x < width) (hy : y < height) :
    img[width * y + x]? = some (c ((height - 1 - y) * width + x)) := by
  let i : Fin height := ⟨height - 1 - y, by omega⟩
  have hrev : i.rev.val = y := by
    rw [Fin.val_rev]
    simp only [i]
    omega
  have hpixel := h i ⟨x, hx⟩ (rowCol_lt i.isLt hx)
  rwa [hrev] at hpixel

theorem mapping_pass (bytes : List UInt8) {width height : ℕ} (f : UInt16 → UInt8)
    (block : Vector UInt8 (width * height)) :
    Passed bytes 0 (Mapped f fun k => wordAt bytes (2 * k)) (height * width)
      (pixelLoop bytes (fun y x pixel (img : Vector UInt8 (width * height)) =>
        img.set (width * y + x) (f pixel) (pixelIndex_lt y x)) block 0) := by
  refine passed_pixelLoop (Nat.zero_le _) (fun i x h => absurd h (Nat.not_lt_zero _)) ?_
  intro i x img himg
  rw [Nat.zero_add]
  exact Stored.set (c := fun k => f (wordAt bytes (2 * k))) himg

/-- The picture after the whole pass, by column and row. -/
theorem Mapped.pixel {width height : ℕ} {f : UInt16 → UInt8} {stream : ℕ → UInt16}
    {img : Vector UInt8 (width * height)} (h : Mapped f stream (height * width) img)
    {x y : ℕ} (hx : x < width) (hy : y < height) :
    img[width * y + x]? = some (f (stream ((height - 1 - y) * width + x))) :=
  Stored.pixel (c := fun k => f (stream k)) h hx hy

/-- The file has a header within the limits and all the pixels it claims. -/
structure WellFormed (bytes : List UInt8) : Prop where
  hasHeader : 4 ≤ bytes.length
  width_le : headerWidth bytes ≤ maxPhotoWidth
  height_le : headerHeight bytes ≤ maxPhotoHeight
  hasPixels : 4 + 2 * (headerHeight bytes * headerWidth bytes) ≤ bytes.length

section Result

variable (qsort : (Fin 4096 → Node) → Fin 4096 → Node)
  (malloc : (n : ℕ) → Option (Vector UInt8 n)) (s : Tables)

/-- The tables and the palette of the file's own pixels. -/
def photoTables (bytes : List UInt8) : Tables × Palette :=
  quantized qsort s (pixels bytes (headerHeight bytes * headerWidth bytes))

variable {malloc}

theorem buildPhoto_of_enough {bytes : List UInt8} {width height : ℕ}
    (hdr : width ≤ maxPhotoWidth ∧ height ≤ maxPhotoHeight)
    (block : Vector UInt8 (width * height)) (henough : 4 + 2 * (height * width) ≤ bytes.length) :
    ∃ img : Vector UInt8 (width * height),
      (buildPhoto qsort bytes hdr block 4 s).2 =
        some ⟨width, height, (quantized qsort s (pixels bytes (height * width))).2, img,
          hdr.1, hdr.2⟩ ∧
      Mapped (calculateVga (quantized qsort s (pixels bytes (height * width))).1)
        (fun k => wordAt bytes (2 * k)) (height * width) img := by
  rcases histogram_pass (by omega : 4 ≤ bytes.length) width height s with
    ⟨hpos, -, htables⟩ | ⟨-, hshort⟩
  · rcases mapping_pass bytes
      (calculateVga (quantized qsort s (pixels bytes (height * width))).1) block with
      ⟨hpos', -, himg⟩ | ⟨-, hshort⟩
    · refine ⟨_, ?_, himg⟩
      have hquantized : setPltValues qsort (pixelLoop bytes
          (fun (_ : Fin height) (_ : Fin width) pixel s => insertValues s pixel)
          (arrInitialize s) 4).1 (fun _ => none) =
          quantized qsort s (pixels bytes (height * width)) := by
        rw [htables]
        rfl
      unfold buildPhoto
      generalize pixelLoop bytes (fun (_ : Fin height) (_ : Fin width) pixel s =>
        insertValues s pixel) (arrInitialize s) 4 = first at hpos hquantized
      obtain ⟨s1, o1⟩ := first
      obtain rfl : o1 = some _ := hpos
      simp only [hquantized]
      generalize pixelLoop bytes (fun y x pixel (img : Vector UInt8 (width * height)) =>
        img.set (width * y + x) _ (pixelIndex_lt y x)) block 0 = second at hpos'
      obtain ⟨img, o2⟩ := second
      obtain rfl : o2 = some _ := hpos'
      rfl
    · omega
  · omega

theorem buildPhoto_of_short {bytes : List UInt8} (hlen : 4 ≤ bytes.length) {width height : ℕ}
    (hdr : width ≤ maxPhotoWidth ∧ height ≤ maxPhotoHeight)
    (block : Vector UInt8 (width * height)) (hshort : bytes.length < 4 + 2 * (height * width)) :
    (buildPhoto qsort bytes hdr block 4 s).2 = none := by
  rcases histogram_pass hlen width height s with ⟨-, hpos, -⟩ | ⟨hnone, -⟩
  · omega
  · unfold buildPhoto
    generalize pixelLoop bytes (fun (_ : Fin height) (_ : Fin width) pixel s =>
      insertValues s pixel) (arrInitialize s) 4 = first at hnone
    obtain ⟨s1, o1⟩ := first
    obtain rfl : o1 = none := hnone
    rfl

/-- Both words of the header are read. -/
theorem fread_header {bytes : List UInt8} (hlen : 4 ≤ bytes.length) :
    fread bytes 0 = some (wordAt bytes 0, 2) ∧ fread bytes 2 = some (wordAt bytes 2, 4) := by
  constructor
  · rw [fread_eq, if_pos (by omega)]
  · rw [fread_eq, if_pos (by omega)]

theorem readPhoto_eq {bytes : List UInt8} (hlen : 4 ≤ bytes.length) :
    readPhoto qsort malloc (some bytes) s =
      if hdr : headerWidth bytes ≤ maxPhotoWidth ∧ headerHeight bytes ≤ maxPhotoHeight then
        match malloc (headerWidth bytes * headerHeight bytes) with
        | none => (s, none)
        | some block => buildPhoto qsort bytes hdr block 4 s
      else (s, none) := by
  obtain ⟨hfirst, hsecond⟩ := fread_header hlen
  simp only [readPhoto, hfirst, hsecond]
  unfold headerWidth headerHeight
  by_cases hdr : (wordAt bytes 0).toNat ≤ maxPhotoWidth ∧ (wordAt bytes 2).toNat ≤ maxPhotoHeight
  · rw [dif_pos hdr, dif_pos hdr]
    cases malloc ((wordAt bytes 0).toNat * (wordAt bytes 2).toNat) with
    | none => rfl
    | some block => rfl
  · rw [dif_neg hdr, dif_neg hdr]

/-- **What `read_photo` returns** for a well-formed file: the picture holds the words of the
stream that starts at the header. -/
theorem readPhoto_of_wellFormed (hmalloc : ∀ n, (malloc n).isSome) {bytes : List UInt8}
    (h : WellFormed bytes) :
    ∃ img : Vector UInt8 (headerWidth bytes * headerHeight bytes),
      (readPhoto qsort malloc (some bytes) s).2 =
        some ⟨headerWidth bytes, headerHeight bytes, (photoTables qsort s bytes).2, img,
          h.width_le, h.height_le⟩ ∧
      Mapped (calculateVga (photoTables qsort s bytes).1) (fun k => wordAt bytes (2 * k))
        (headerHeight bytes * headerWidth bytes) img := by
  have hdr : headerWidth bytes ≤ maxPhotoWidth ∧ headerHeight bytes ≤ maxPhotoHeight :=
    ⟨h.width_le, h.height_le⟩
  obtain ⟨block, hblock⟩ :=
    Option.isSome_iff_exists.mp (hmalloc (headerWidth bytes * headerHeight bytes))
  obtain ⟨img, hbuild, himg⟩ := buildPhoto_of_enough qsort s hdr block h.hasPixels
  refine ⟨img, ?_, himg⟩
  rw [readPhoto_eq qsort s h.hasHeader, dif_pos hdr, hblock]
  exact hbuild

/-- A file without a good header or without enough pixels is refused. -/
theorem readPhoto_of_not_wellFormed {bytes : List UInt8} (h : ¬ WellFormed bytes) :
    (readPhoto qsort malloc (some bytes) s).2 = none := by
  by_cases hlen : 4 ≤ bytes.length
  · rw [readPhoto_eq qsort s hlen]
    split
    · rename_i hdr
      split
      · rfl
      · refine buildPhoto_of_short qsort s hlen hdr _ ?_
        by_contra henough
        exact h ⟨hlen, hdr.1, hdr.2, Nat.le_of_not_lt henough⟩
    · rfl
  · have hsecond : fread bytes 2 = none := by
      rw [fread_eq, if_neg (by omega)]
    simp only [readPhoto, hsecond]
    cases fread bytes 0 with
    | none => rfl
    | some first => rfl

/-! ## When the picture is right -/

variable (malloc)

/-- `read_photo` decodes the file: pixel `(x, y)` of the picture is the palette index of the
file's pixel word number `(h - 1 - y) * w + x`; a file that is not well formed is refused. -/
def Decodes (bytes : List UInt8) : Prop :=
  (WellFormed bytes → ∃ p, (readPhoto qsort malloc (some bytes) s).2 = some p ∧
    p.width = headerWidth bytes ∧ p.height = headerHeight bytes ∧
    p.palette = (photoTables qsort s bytes).2 ∧
    ∀ x < p.width, ∀ y < p.height, p.img[p.width * y + x]? =
      some (calculateVga (photoTables qsort s bytes).1
        (pixelWord bytes ((p.height - 1 - y) * p.width + x)))) ∧
  (¬ WellFormed bytes → (readPhoto qsort malloc (some bytes) s).2 = none)

/-- Every even-numbered pixel has the palette index of the header's first word taken as a
pixel, and every odd-numbered one that of its second word. -/
def HeaderColored (bytes : List UInt8) : Prop :=
  ∀ k < headerHeight bytes * headerWidth bytes,
    calculateVga (photoTables qsort s bytes).1 (pixelWord bytes k) =
      calculateVga (photoTables qsort s bytes).1
        (if k % 2 = 0 then wordAt bytes 0 else wordAt bytes 2)

/-- A stream that is two words late agrees with itself exactly if it repeats its first two. -/
theorem two_late_iff {β : Type} (f : ℕ → β) (n : ℕ) :
    (∀ k < n, f k = f (k + 2)) ↔ ∀ k < n, f (k + 2) = f (k % 2) := by
  constructor
  · intro h k
    induction k using Nat.strong_induction_on with
    | _ k ih =>
        intro hk
        rw [← h k hk]
        by_cases hsmall : k < 2
        · rw [Nat.mod_eq_of_lt hsmall]
        · obtain ⟨j, rfl⟩ : ∃ j, k = j + 2 := ⟨k - 2, by omega⟩
          rw [ih j (by omega) (by omega), Nat.add_mod_right]
  · intro h k hk
    rw [h k hk]
    by_cases hsmall : k < 2
    · rw [Nat.mod_eq_of_lt hsmall]
    · obtain ⟨j, rfl⟩ : ∃ j, k = j + 2 := ⟨k - 2, by omega⟩
      rw [h j (by omega), Nat.add_mod_right]

theorem headerColored_iff (bytes : List UInt8) : HeaderColored qsort s bytes ↔
    ∀ k < headerHeight bytes * headerWidth bytes,
      calculateVga (photoTables qsort s bytes).1 (wordAt bytes (2 * k)) =
        calculateVga (photoTables qsort s bytes).1 (pixelWord bytes k) := by
  have hpixel : ∀ k, pixelWord bytes k = wordAt bytes (2 * (k + 2)) := by
    intro k
    rw [pixelWord, show 4 + 2 * k = 2 * (k + 2) by omega]
  have hheader : ∀ k, (if k % 2 = 0 then wordAt bytes 0 else wordAt bytes 2) =
      wordAt bytes (2 * (k % 2)) := by
    intro k
    rcases Nat.mod_two_eq_zero_or_one k with h | h
    · rw [h]
      rfl
    · rw [h]
      rfl
  unfold HeaderColored
  simp only [hpixel, hheader]
  exact (two_late_iff (fun k => calculateVga (photoTables qsort s bytes).1
    (wordAt bytes (2 * k))) _).symm

/-- **When `read_photo` decodes a file**: exactly if it is refused as it should be, or the
header's two words look up the palette indices of all pixels. -/
theorem decodes_iff_headerColored (hmalloc : ∀ n, (malloc n).isSome) (bytes : List UInt8) :
    Decodes qsort malloc s bytes ↔ (WellFormed bytes → HeaderColored qsort s bytes) := by
  have hrefused := @readPhoto_of_not_wellFormed qsort malloc s bytes
  constructor
  · intro hdecodes h
    obtain ⟨img, hread, himg⟩ := readPhoto_of_wellFormed qsort s hmalloc h
    obtain ⟨p, hp, -, -, -, hpixel⟩ := hdecodes.1 h
    obtain rfl := Option.some.inj (hread.symm.trans hp)
    rw [headerColored_iff]
    intro k hk
    have hwidth : 0 < headerWidth bytes := Nat.pos_of_ne_zero fun h0 => by simp [h0] at hk
    have hrow : k / headerWidth bytes < headerHeight bytes :=
      Nat.div_lt_of_lt_mul (by rwa [mul_comm])
    have hcol : k % headerWidth bytes < headerWidth bytes := Nat.mod_lt _ hwidth
    have hflip : ∀ n row, row < n → n - 1 - row < n ∧ n - 1 - (n - 1 - row) = row := by
      omega
    obtain ⟨hlt, hback⟩ := hflip _ _ hrow
    have hclaim := hpixel _ hcol _ hlt
    have hcode := himg.pixel hcol hlt
    simp only [hback] at hclaim hcode
    rw [Nat.div_add_mod'] at hclaim hcode
    exact Option.some.inj (hcode.symm.trans hclaim)
  · intro hcolored
    refine ⟨fun h => ?_, hrefused⟩
    obtain ⟨img, hread, himg⟩ := readPhoto_of_wellFormed qsort s hmalloc h
    refine ⟨_, hread, rfl, rfl, rfl, fun x hx y hy => ?_⟩
    have hsame := (headerColored_iff qsort s bytes).mp (hcolored h)
    rw [himg.pixel hx hy, hsame]
    have hle : headerHeight bytes - 1 - y + 1 ≤ headerHeight bytes := by
      simp only at hy
      omega
    calc (headerHeight bytes - 1 - y) * headerWidth bytes + x
        < (headerHeight bytes - 1 - y) * headerWidth bytes + headerWidth bytes :=
          Nat.add_lt_add_left hx _
      _ = (headerHeight bytes - 1 - y + 1) * headerWidth bytes := by rw [Nat.succ_mul]
      _ ≤ headerHeight bytes * headerWidth bytes := Nat.mul_le_mul_right _ hle

end Result

/-! ## A one-pixel photo -/

/-- A 1x1 photo whose only pixel is white. -/
def whitePixel : List UInt8 := [1, 0, 1, 0, 0xFF, 0xFF]

def zeroBlock (n : ℕ) : Option (Vector UInt8 n) := some (Vector.replicate n 0)

theorem decodes_iff_headerColored_whitePixel :
    Decodes sortByCounter zeroBlock emptyTables whitePixel ↔
      (WellFormed whitePixel → HeaderColored sortByCounter emptyTables whitePixel) :=
  decodes_iff_headerColored sortByCounter zeroBlock emptyTables (fun _ => rfl) whitePixel

/-- The white pixel is shown in the entry of the header word 1, which is another one. -/
theorem whitePixel_not_decoded :
    ¬ Decodes sortByCounter zeroBlock emptyTables whitePixel := by
  intro hdecodes
  have h : WellFormed whitePixel := by
    constructor
    all_goals decide
  obtain ⟨img, hread, himg⟩ :=
    @readPhoto_of_wellFormed sortByCounter zeroBlock emptyTables (fun _ => rfl) _ h
  obtain ⟨p, hp, -, -, -, hpixel⟩ := hdecodes.1 h
  obtain rfl := Option.some.inj (hread.symm.trans hp)
  have hwidth : 0 < headerWidth whitePixel := by decide
  have hheight : 0 < headerHeight whitePixel := by decide
  have hclaim := hpixel 0 hwidth 0 hheight
  have hcode := himg.pixel hwidth hheight
  have hsame : calculateVga (photoTables sortByCounter emptyTables whitePixel).1
      (wordAt whitePixel 0) = calculateVga (photoTables sortByCounter emptyTables whitePixel).1
      (pixelWord whitePixel 0) := Option.some.inj (hcode.symm.trans hclaim)
  obtain ⟨σ, -, hdone⟩ := averaged_quantized sortByCounter_perm emptyTables
    (pixels whitePixel (headerHeight whitePixel * headerWidth whitePixel))
  exact calculateVga_ne hdone (by decide) (by decide) hsame

end MachineProblems.Analysis.ReadPhoto
