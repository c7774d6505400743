import MachineProblems.Library.Paint
import MachineProblems.Model.StatusLine
import MachineProblems.Program.Adventure.Input
import Mathlib.Data.List.GetD

/-!
# The status bar

`text_to_graphics` copies a line of forty characters into `tempstring` and scatters the bits of its
glyphs over the four planes of the image.  Whatever the line and the offset, the image has ink
exactly at the addresses of the bits set (`plotText_paints`), and these are the pixels of the glyphs
as long as no glyph passes the right edge of the screen (`drawn`).  With it: without a message the
bar is right exactly if the typed text is full, since the copy of 21 characters reads in front of a
shorter one (`plain_bar_iff`); a message is shown exactly if it has at most 33 characters, since
the offset that is to center it moves the end of a longer one to the next scan line
(`message_bar_iff`).
-/

set_option autoImplicit false

namespace MachineProblems.Analysis.Adventure

open MachineProblems.Library MachineProblems.Program.Adventure MachineProblems.Model.StatusLine

/-! ## The font -/

/-- Every byte is the number of a character, and every character has sixteen rows. -/
theorem fontData_shape : fontData.length = 256 ∧ ∀ rows ∈ fontData, rows.length = 16 := by
  decide +kernel

/-- A row without a bit. -/
theorem fontBit_of_row_zero {letter : UInt8} {i m : ℕ} (hm : m < 8) (h : fontRow letter i = 0) :
    fontBit letter i m = false := by
  have hmask : ∀ m < 8, ((0 : UInt8) == 0x80 >>> UInt8.ofNat m) = false := by decide
  unfold fontBit
  rw [h, UInt8.and_zero]
  exact hmask m hm

theorem fontRow_blank (letter : UInt8) (h : fontData.getD letter.toNat [] = List.replicate 16 0)
    (i : ℕ) : fontRow letter i = 0 := by
  unfold fontRow
  rw [h, List.getD_eq_getElem?_getD, List.getElem?_replicate]
  split_ifs <;> rfl

/-- The terminator is drawn as a blank. -/
theorem fontBit_nul (i : ℕ) {m : ℕ} (hm : m < 8) : fontBit 0 i m = false :=
  fontBit_of_row_zero hm (fontRow_blank 0 rfl i)

/-! ## Addresses -/

/-- A bit of a glyph is stored where the image has the pixel. -/
theorem textAddr_eq_pixelAddr (offset k i : ℕ) {m : ℕ} (hm : m < 8) :
    textAddr offset k i m = pixelAddr (8 * k + 4 * offset + m) (i + 1) := by
  unfold textAddr pixelAddr totalStatusAddr
  split_ifs with hhalf
  · push_cast
    omega
  · push_cast
    omega

theorem pixelAddr_lt {x y : ℕ} (hx : x < 320) (hy : y < 18) : pixelAddr x y < totalStatusPixel := by
  unfold pixelAddr totalStatusAddr totalStatusPixel
  omega

/-- Two pixels of the image have two addresses. -/
theorem pixelAddr_inj {x x' y y' : ℕ} (hx : x < 320) (hx' : x' < 320) (hy : y < 18) (hy' : y' < 18)
    (h : pixelAddr x y = pixelAddr x' y') : x = x' ∧ y = y' := by
  unfold pixelAddr at h
  rw [Nat.add_assoc, Nat.add_assoc, Nat.mul_comm 80, Nat.mul_comm 80] at h
  have hrest : ∀ {x y : ℕ}, x < 320 → y < 18 → y * 80 + x / 4 < totalStatusAddr := by
    intro x y hx hy
    unfold totalStatusAddr
    omega
  obtain ⟨hplane, hline⟩ := rowCol_inj (hrest hx hy) (hrest hx' hy') h
  obtain ⟨hrow, hcolumn⟩ := rowCol_inj (by omega) (by omega) hline
  exact ⟨by omega, hrow⟩

/-! ## Drawing a line -/

/-- The addresses of the bits set in a line. -/
def inked (temp : ℤ → UInt8) (offset : ℤ) : Set ℤ :=
  {a | ∃ k : ℕ, k < 40 ∧ a ∈ {a | ∃ i < 16, a ∈ {a | ∃ m < 8, a ∈ {a |
    fontBit (temp k) i m = true ∧ a = textAddr offset k i m}}}}

theorem mem_inked {temp : ℤ → UInt8} {offset a : ℤ} :
    a ∈ inked temp offset ↔
      ∃ k : ℕ, k < 40 ∧ ∃ i < 16, ∃ m < 8, fontBit (temp k) i m = true ∧ a = textAddr offset k i m :=
  Iff.rfl

theorem plotBit_paints {temp : ℤ → UInt8} {offset : ℤ} {k i m : ℕ}
    (hblock : fontBit (temp k) i m = true → InBlock totalStatusPixel (textAddr offset k i m)) :
    Paints {a | fontBit (temp k) i m = true ∧ a = textAddr offset k i m} ink
      (plotBit temp offset k i m) := by
  unfold plotBit
  cases hbit : fontBit (temp k) i m with
  | true =>
      -- the loop over the planes stores the same pixel four times
      have hstore := ((paints_store (v := ink) (hblock hbit)).repeated (n := 4) (by omega))
      exact hstore.congr fun a => ⟨fun ha => ⟨rfl, ha⟩, fun ha => ha.2⟩
  | false =>
      exact paints_empty.congr fun a => ⟨fun ha => ha.elim, fun ha => absurd ha.1 Bool.false_ne_true⟩

/-- **What is drawn**: ink at the addresses of the bits set. -/
theorem plotText_paints {temp : ℤ → UInt8} {offset : ℤ}
    (hblock : ∀ k : ℕ, k < 40 → ∀ i < 16, ∀ m < 8, fontBit (temp k) i m = true →
      InBlock totalStatusPixel (textAddr offset k i m)) :
    Paints (inked temp offset) ink (plotText temp offset) := by
  refine Paints.attempts fun k hk => Paints.attempts fun i hi => Paints.attempts fun m hm => ?_
  exact plotBit_paints (hblock k hk i hi m hm)

theorem clearBuffer_eq (buffer : ℤ → UInt8) :
    ∃ cleared, clearBuffer buffer = some cleared ∧
      ∀ a, InBlock totalStatusPixel a → cleared a = background := by
  have hpaints : Paints {a | ∃ i < totalStatusPixel, a ∈ ({(i : ℤ)} : Set ℤ)} background
      clearBuffer := by
    refine Paints.attempts fun i hi => paints_store ⟨Int.natCast_nonneg i, ?_⟩
    exact Int.ofNat_lt.mpr hi
  obtain ⟨cleared, hrun, hcleared, -⟩ := hpaints buffer
  refine ⟨cleared, hrun, ?_⟩
  rintro a ⟨h0, hlt⟩
  refine hcleared a ⟨a.toNat, by omega, ?_⟩
  show a = a.toNat
  omega

/-- The image of a line, address by address. -/
theorem plotted {temp : ℤ → UInt8} {offset : ℤ}
    (hblock : ∀ k : ℕ, k < 40 → ∀ i < 16, ∀ m < 8, fontBit (temp k) i m = true →
      InBlock totalStatusPixel (textAddr offset k i m)) (buffer : ℤ → UInt8) :
    ∃ image, (clearBuffer buffer).bind (plotText temp offset) = some image ∧
      ∀ a, InBlock totalStatusPixel a → (a ∈ inked temp offset → image a = ink) ∧
        (a ∉ inked temp offset → image a = background) := by
  obtain ⟨cleared, hclear, hcleared⟩ := clearBuffer_eq buffer
  obtain ⟨image, hplot, hink, hrest⟩ := plotText_paints hblock cleared
  refine ⟨image, ?_, fun a ha => ⟨hink a, fun hnot => ?_⟩⟩
  · rw [hclear, Option.bind_some, hplot]
  · rw [hrest a hnot, hcleared a ha]

/-- **The image shows the line** when all its characters that have a bit stay on the screen. -/
theorem drawn (temp : ℤ → UInt8) (offset : ℕ) {n : ℕ} (hn : n ≤ 40)
    (hblank : ∀ k : ℕ, n ≤ k → k < 40 → ∀ i, ∀ m < 8, fontBit (temp k) i m = false)
    (hscreen : ∀ k < n, ∀ m < 8, 8 * k + 4 * offset + m < 320) (buffer : ℤ → UInt8) :
    ∃ image, (clearBuffer buffer).bind (plotText temp offset) = some image ∧
      ShowsLine image (fun k : ℕ => temp k) (4 * offset) n := by
  have hchar : ∀ k : ℕ, k < 40 → ∀ i, ∀ m < 8, fontBit (temp k) i m = true → k < n := by
    intro k hk i m hm hbit
    by_contra hnot
    rw [hblank k (not_lt.mp hnot) hk i m hm] at hbit
    exact Bool.false_ne_true hbit
  have hblock : ∀ k : ℕ, k < 40 → ∀ i < 16, ∀ m < 8, fontBit (temp k) i m = true →
      InBlock totalStatusPixel (textAddr offset k i m) := by
    intro k hk i hi m hm hbit
    have hcolumn := hscreen k (hchar k hk i m hm hbit) m hm
    rw [textAddr_eq_pixelAddr offset k i hm]
    exact ⟨Int.natCast_nonneg _, Int.ofNat_lt.mpr (pixelAddr_lt hcolumn (by omega))⟩
  obtain ⟨image, hrun, himage⟩ := plotted hblock buffer
  refine ⟨image, hrun, fun x hx y hy => ?_⟩
  have hinked : (pixelAddr x y : ℤ) ∈ inked temp offset ↔
      OnGlyph (fun k : ℕ => temp k) (4 * offset) n x y := by
    rw [mem_inked]
    constructor
    · rintro ⟨k, hk, i, hi, m, hm, hbit, haddr⟩
      have hkn := hchar k hk i m hm hbit
      rw [textAddr_eq_pixelAddr offset k i hm] at haddr
      have hsame := pixelAddr_inj hx (hscreen k hkn m hm) hy (by omega) (Int.ofNat_inj.mp haddr)
      exact ⟨k, hkn, i, hi, m, hm, hbit, hsame.1, hsame.2⟩
    · rintro ⟨k, hk, i, hi, m, hm, hbit, rfl, rfl⟩
      refine ⟨k, hk.trans_le hn, i, hi, m, hm, hbit, ?_⟩
      rw [textAddr_eq_pixelAddr offset k i hm]
  have hat := himage (pixelAddr x y)
    ⟨Int.natCast_nonneg _, Int.ofNat_lt.mpr (pixelAddr_lt hx hy)⟩
  rw [hinked] at hat
  exact hat

theorem textToGraphics_eq {buffer temp : ℤ → UInt8} {written room msg : CString} {offset : ℤ}
    (h : arrange written room msg = some (temp, offset)) :
    textToGraphics buffer written room msg =
      (clearBuffer buffer).bind (plotText temp offset) := by
  unfold textToGraphics
  rw [h]
  generalize clearBuffer buffer = cleared
  cases cleared with
  | none => rfl
  | some cleared => rfl

/-! ## Copying a line -/

theorem copyChar_eq {s : CString} {source : ℤ} (hsource : InBlock s.size source) (target : ℤ)
    (temp : ℤ → UInt8) :
    copyChar s source target temp = store tempstringSize temp target (s.bytes source) := by
  unfold copyChar CString.read
  rw [load_eq hsource, Option.bind_some]

/-- A copy loop that goes up: the first `n` bytes of a string replace those of `tempstring`. -/
theorem copyUp_line {s : CString} {n : ℕ} (hn : n ≤ 40) (hsize : n ≤ s.size) (temp : ℤ → UInt8) :
    ∃ temp', attempts (fun i => copyChar s i i) n temp = some temp' ∧
      ∀ k : ℕ, temp' k = if k < n then s.bytes k else temp k := by
  have hblock : ∀ i < n, InBlock tempstringSize (i : ℤ) :=
    fun i hi => ⟨Int.natCast_nonneg i, by unfold tempstringSize; omega⟩
  have hbody : ∀ (i : ℕ) (m : ℤ → UInt8), i < n →
      copyChar s i i m = store tempstringSize m i (s.bytes i) :=
    fun i m hi => copyChar_eq ⟨Int.natCast_nonneg i, by omega⟩ i m
  obtain ⟨temp', hrun, hfilled, hleft⟩ :=
    attempts_fill hbody hblock (fun i _ j _ heq => Int.ofNat_inj.mp heq) temp
  refine ⟨temp', hrun, fun k => ?_⟩
  split_ifs with hk
  · exact hfilled k hk
  · exact hleft k fun i hi => by omega

/-- The copy of the typed text, when it is full. -/
theorem copyWritten_full (written : CString) (hlength : written.length = maxTypedLen)
    (hsize : 21 ≤ written.size) (temp : ℤ → UInt8) :
    ∃ temp', copyWritten written temp = some temp' ∧
      ∀ k : ℕ, k < 40 → temp' k = if 20 ≤ k then written.bytes (k - 20 : ℕ) else temp k := by
  have hlen : written.length = 20 := hlength
  have hbody : ∀ (i : ℕ) (m : ℤ → UInt8), i < 21 →
      copyChar written (written.length - i) (tempstringLen - i) m =
        store tempstringSize m (tempstringLen - i) (written.bytes (20 - i : ℕ)) := by
    intro i m hi
    have hsource : InBlock written.size (written.length - i : ℤ) := ⟨by omega, by omega⟩
    have hoffset : (written.length - i : ℤ) = (20 - i : ℕ) := by omega
    rw [copyChar_eq hsource, hoffset]
  have hblock : ∀ i : ℕ, i < 21 → InBlock tempstringSize (tempstringLen - i : ℤ) := by
    intro i hi
    unfold tempstringLen tempstringSize
    exact ⟨by omega, by omega⟩
  obtain ⟨temp', hrun, hfilled, hleft⟩ :=
    attempts_fill hbody hblock (fun i _ j _ heq => by omega) temp
  unfold tempstringLen at hfilled hleft
  refine ⟨temp', hrun, fun k hk => ?_⟩
  split_ifs with hright
  · have hat := hfilled (40 - k) (by omega)
    rw [show (40 : ℕ) - (40 - k : ℕ) = (k : ℤ) by omega, show 20 - (40 - k) = k - 20 by omega]
      at hat
    exact hat
  · exact hleft k fun i hi => by omega

/-- **A shorter text is read in front of its first character.** -/
theorem copyWritten_short (written : CString) (hlength : written.length < maxTypedLen)
    (temp temp' : ℤ → UInt8) : copyWritten written temp ≠ some temp' := by
  intro hrun
  have hshort : written.length < 20 := hlength
  -- the round that reads at offset -1
  obtain ⟨u, v, -, hround⟩ := attempts_round hrun (i := written.length + 1) (by omega)
  have hread : written.read (written.length - (written.length + 1 : ℕ)) = none := by
    refine if_neg fun hblock => ?_
    have h0 := hblock.1
    omega
  unfold copyChar at hround
  rw [hread] at hround
  cases hround

/-! ## The bar without a message -/

/-- A string with nothing but zeros around it. -/
def CString.ofBytes (chars : List UInt8) (h : 0 ∉ chars) : CString where
  bytes i := if 0 ≤ i then chars.getD i.toNat 0 else 0
  size := chars.length + 1
  length := chars.length
  nonzero i hi := by
    rw [if_pos (Int.natCast_nonneg i), Int.toNat_natCast, List.getD_eq_getElem _ _ hi]
    intro hzero
    exact h (hzero ▸ List.getElem_mem hi)
  terminated := by
    rw [if_pos (Int.natCast_nonneg _), Int.toNat_natCast, List.getD_eq_default _ _ le_rfl]

theorem arrange_plain {written room msg : CString} (hmsg : msg.length = 0) (hread : 0 < msg.size) :
    arrange written room msg =
      ((copyRoom room blankString).bind (copyWritten written)).map fun temp => (temp, 0) := by
  have hfirst : msg.bytes 0 = 0 := by
    have hend := msg.terminated
    rw [hmsg] at hend
    exact hend
  have hload : msg.read 0 = some (msg.bytes 0) := load_eq ⟨le_rfl, by omega⟩
  unfold arrange
  rw [hload, hfirst]
  cases hroom : copyRoom room blankString with
  | none => simp
  | some temp => cases hwritten : copyWritten written temp <;> simp [hwritten]

/-- `tempstring` for a full text. -/
theorem arrange_plain_full {written room msg : CString} (hmsg : msg.length = 0)
    (hread : 0 < msg.size) (hfull : written.length = maxTypedLen) (hroom : room.length ≤ 19) :
    ∃ temp : ℤ → UInt8,
      arrange (written.upTo (written.length + 1)) (room.upTo room.length) msg =
        some (temp, ((0 : ℕ) : ℤ)) ∧ ∀ k : ℕ, k < 40 → temp k = plainLine written room k := by
  have hlen : written.length = 20 := hfull
  obtain ⟨named, hname, hnamed⟩ := copyUp_line (s := room.upTo room.length) (n := room.length)
    (by omega) le_rfl blankString
  obtain ⟨temp, htyped, htemp⟩ := copyWritten_full (written.upTo (written.length + 1)) hfull
    (by show 21 ≤ written.length + 1; omega) named
  refine ⟨temp, ?_, fun k hk => ?_⟩
  · have hrun : copyRoom (room.upTo room.length) blankString = some named := hname
    rw [arrange_plain hmsg hread, hrun, Option.bind_some, htyped]
    rfl
  · rw [htemp k hk, hnamed]
    unfold plainLine
    rw [hlen]
    split_ifs with hright hname hname
    · omega
    · rfl
    · rfl
    · exact if_pos ⟨Int.natCast_nonneg k, Int.ofNat_lt.mpr hk⟩

theorem not_plain_bar_short (buffer : ℤ → UInt8) {written room msg : CString}
    (hmsg : msg.length = 0) (hread : 0 < msg.size) (hshort : written.length < maxTypedLen) :
    ¬ PlainBar buffer written room msg := by
  rintro ⟨image, hrun, -⟩
  obtain ⟨⟨temp, offset⟩, harrange, -⟩ := Option.bind_eq_some_iff.mp hrun
  rw [arrange_plain hmsg hread] at harrange
  obtain ⟨typed, hcopies, -⟩ := Option.map_eq_some_iff.mp harrange
  obtain ⟨named, -, htyped⟩ := Option.bind_eq_some_iff.mp hcopies
  exact copyWritten_short (written.upTo (written.length + 1)) hshort named typed htyped

theorem plain_bar_full (buffer : ℤ → UInt8) {written room msg : CString} (hmsg : msg.length = 0)
    (hread : 0 < msg.size) (hfull : written.length = maxTypedLen) (hroom : room.length ≤ 19) :
    PlainBar buffer written room msg := by
  obtain ⟨temp, harrange, hline⟩ := arrange_plain_full hmsg hread hfull hroom
  obtain ⟨image, hrun, hshows⟩ := drawn temp 0 (n := 40) le_rfl
    (fun k hk hlt => absurd hlt (not_lt.mpr hk)) (fun k hk m hm => by omega) buffer
  refine ⟨image, ?_, hshows.congr hline⟩
  rw [textToGraphics_eq harrange]
  exact hrun

/-- **The status bar without a message**: with a name of at most 19 characters, the bar shows the
name and the typed text, and no other characters are read, exactly if the text is full. -/
theorem plain_bar_iff (buffer memory : ℤ → UInt8) {written room : CString}
    (hwritten : written.length ≤ maxTypedLen) (hroom : room.length ≤ 19) :
    PlainBar buffer written room (emptyStatusMsg memory) ↔ written.length = maxTypedLen := by
  have hmsg : (emptyStatusMsg memory).length = 0 := rfl
  have hread : 0 < (emptyStatusMsg memory).size := Nat.succ_pos _
  constructor
  · intro hbar
    by_contra hne
    exact not_plain_bar_short buffer hmsg hread (lt_of_le_of_ne hwritten hne) hbar
  · exact fun hfull => plain_bar_full buffer hmsg hread hfull hroom

/-- A full text beside a name. -/
theorem plain_bar_iff_full :
    PlainBar (fun _ => 0) (CString.ofBytes (List.replicate 20 0x61) (by decide))
      (CString.ofBytes [0x4C, 0x61, 0x62] (by decide)) (emptyStatusMsg fun _ => 0) :=
  (plain_bar_iff (fun _ => 0) (fun _ => 0) le_rfl (by decide)).mpr rfl

/-- Before anything is typed, the byte in front of the text is read. -/
theorem plain_bar_empty :
    ¬ PlainBar (fun _ => 0) (CString.ofBytes [] (by decide))
      (CString.ofBytes [0x4C, 0x61, 0x62] (by decide)) (emptyStatusMsg fun _ => 0) :=
  not_plain_bar_short (fun _ => 0) rfl (Nat.succ_pos _) (by decide)

/-! ## The bar with a message -/

theorem arrange_message (written room msg : CString) (hmsg : 0 < msg.length)
    (hlength : msg.length ≤ 40) (hsize : 40 ≤ msg.size) :
    ∃ temp : ℤ → UInt8,
      arrange written room msg = some (temp, (((60 - msg.length) / 2 : ℕ) : ℤ)) ∧
      ∀ k : ℕ, k < 40 → temp k = msg.bytes k := by
  obtain ⟨temp, hcopy, htemp⟩ := copyUp_line (s := msg) (n := 40) le_rfl hsize blankString
  refine ⟨temp, ?_, fun k hk => ?_⟩
  · have hload : msg.read 0 = some (msg.bytes 0) := load_eq ⟨le_rfl, by omega⟩
    have hfirst : msg.bytes 0 ≠ 0 := msg.nonzero 0 hmsg
    have hrun : copyStatus msg blankString = some temp := hcopy
    unfold arrange
    simp only [hload, Option.bind_eq_bind, Option.bind_some, if_neg hfirst, hrun]
    congr 2
    omega
  · rw [htemp k, if_pos hk]

/-- `show_status` stores as much of a string as there is room for. -/
theorem statusMsg_length (memory : ℤ → UInt8) (s : CString) :
    (statusMsg memory s).length = min s.length 40 := rfl

/-- `tempstring` and `offset` for what `show_status` stores. -/
theorem arrange_statusMsg (memory : ℤ → UInt8) (written room : CString) {s : CString}
    (hs : 0 < s.length) :
    ∃ temp : ℤ → UInt8, arrange written room (statusMsg memory s) =
        some (temp, (((60 - (statusMsg memory s).length) / 2 : ℕ) : ℤ)) ∧
      ∀ k : ℕ, k < 40 → temp k = (statusMsg memory s).bytes k := by
  have hlength := statusMsg_length memory s
  have hsize : (statusMsg memory s).size = 41 := rfl
  exact arrange_message written room (statusMsg memory s) (by omega) (by omega) (by omega)

/-- Behind the message there are zeros. -/
theorem statusMsg_zero (memory : ℤ → UInt8) (s : CString) {k : ℕ}
    (hk : (statusMsg memory s).length ≤ k) (hlt : k < 40) : (statusMsg memory s).bytes k = 0 := by
  have hmin : min s.length statusMsgLen ≤ k := hk
  have hbytes : (statusMsg memory s).bytes k = if 0 ≤ (k : ℤ) ∧ (k : ℤ) < statusMsgLen + 1 then
      if (k : ℤ) < min s.length statusMsgLen then s.bytes k else 0 else memory k := rfl
  have hcells : (statusMsgLen : ℤ) = 40 := rfl
  rw [hbytes, if_pos ⟨by omega, by omega⟩, if_neg (by omega)]

/-- Messages of every length are drawn without a write beyond the buffer. -/
theorem message_plotted (buffer memory : ℤ → UInt8) (written room : CString) {s : CString}
    (hs : 0 < s.length) :
    ∃ image temp, textToGraphics buffer written room (statusMsg memory s) = some image ∧
      (∀ k : ℕ, k < 40 → temp k = (statusMsg memory s).bytes k) ∧
      ∀ a, InBlock totalStatusPixel a →
        a ∈ inked temp ((60 - (statusMsg memory s).length) / 2 : ℕ) → image a = ink := by
  have hlength := statusMsg_length memory s
  obtain ⟨temp, harrange, htemp⟩ := arrange_statusMsg memory written room hs
  have hblock : ∀ k : ℕ, k < 40 → ∀ i < 16, ∀ m < 8, fontBit (temp k) i m = true →
      InBlock totalStatusPixel
        (textAddr ((60 - (statusMsg memory s).length) / 2 : ℕ) k i m) := by
    intro k hk i hi m hm _
    rw [textAddr_eq_pixelAddr _ k i hm]
    refine ⟨Int.natCast_nonneg _, Int.ofNat_lt.mpr ?_⟩
    unfold pixelAddr totalStatusAddr totalStatusPixel
    omega
  obtain ⟨image, hrun, himage⟩ := plotted hblock buffer
  exact ⟨image, temp, (textToGraphics_eq harrange).trans hrun, htemp, fun a ha => (himage a ha).1⟩

/-- **What passes the right edge comes back at the left edge**, one scan line below its row. -/
theorem message_wraps {buffer memory image : ℤ → UInt8} {written room s : CString}
    (hrun : textToGraphics buffer written room (statusMsg memory s) = some image)
    {k i m x : ℕ} (hk : k < (statusMsg memory s).length) (hi : i < 16) (hm : m < 8)
    (hbit : fontBit ((statusMsg memory s).bytes k) i m = true)
    (hx : 8 * k + messageColumn (statusMsg memory s).length + m = 320 + x) :
    pixel image x (i + 2) = ink := by
  have hlength := statusMsg_length memory s
  obtain ⟨image', temp, hrun', htemp, hink⟩ :=
    message_plotted buffer memory written room (s := s) (by omega)
  obtain rfl := Option.some.inj (hrun'.symm.trans hrun)
  unfold messageColumn at hx
  have haddr : pixelAddr x (i + 2) = pixelAddr (320 + x) (i + 1) := by
    have hplane : (320 + x) % 4 = x % 4 := by omega
    unfold pixelAddr
    rw [hplane]
    omega
  refine hink _ ⟨Int.natCast_nonneg _, Int.ofNat_lt.mpr ?_⟩ ?_
  · exact pixelAddr_lt (by omega) (by omega)
  · refine ⟨k, by omega, i, hi, m, hm, ?_, ?_⟩
    · rw [htemp k (by omega)]
      exact hbit
    · rw [textAddr_eq_pixelAddr _ k i hm, haddr, ← hx]

theorem not_message_bar_long (buffer memory : ℤ → UInt8) (written room : CString) {s : CString}
    (hlong : 33 < s.length) : ¬ MessageBar buffer written room (statusMsg memory s) := by
  have hlength := statusMsg_length memory s
  rintro ⟨image, -, hscreen, -⟩
  -- the last column of the last character
  have hlast := hscreen ((statusMsg memory s).length - 1) (by omega) 7 (by omega)
  unfold messageColumn at hlast
  omega

theorem message_bar_short (buffer memory : ℤ → UInt8) (written room : CString) {s : CString}
    (hs : 0 < s.length) (hshort : s.length ≤ 33) :
    MessageBar buffer written room (statusMsg memory s) := by
  have hlength := statusMsg_length memory s
  obtain ⟨temp, harrange, htemp⟩ := arrange_statusMsg memory written room hs
  have hscreen : ∀ k < (statusMsg memory s).length, ∀ m < 8,
      8 * k + messageColumn (statusMsg memory s).length + m < 320 := by
    intro k hk m hm
    unfold messageColumn
    omega
  have hblank : ∀ k : ℕ, (statusMsg memory s).length ≤ k → k < 40 → ∀ i, ∀ m < 8,
      fontBit (temp k) i m = false := by
    intro k hk hlt i m hm
    rw [htemp k hlt, statusMsg_zero memory s hk hlt]
    exact fontBit_nul i hm
  obtain ⟨image, hrun, hshows⟩ := drawn temp _ (by omega) hblank hscreen buffer
  refine ⟨image, ?_, hscreen, hshows.congr fun k hk => htemp k (by omega)⟩
  rw [textToGraphics_eq harrange]
  exact hrun

/-- **Status messages**: whatever is given to `show_status`, if it is not empty, the bar shows the
message stored whole and in line, without a write beyond the buffer, exactly if it has at most 33
characters. -/
theorem message_bar_iff (buffer memory : ℤ → UInt8) (written room : CString) {s : CString}
    (hs : 0 < s.length) :
    MessageBar buffer written room (statusMsg memory s) ↔ s.length ≤ 33 := by
  constructor
  · intro hbar
    by_contra hlong
    exact not_message_bar_long buffer memory written room (not_le.mp hlong) hbar
  · exact message_bar_short buffer memory written room hs

/-- A message of one character. -/
theorem message_bar_iff_one :
    MessageBar (fun _ => 0) (CString.ofBytes [] (by decide)) (CString.ofBytes [] (by decide))
      (statusMsg (fun _ => 0) (CString.ofBytes [0x21] (by decide))) :=
  (message_bar_iff (fun _ => 0) (fun _ => 0) (CString.ofBytes [] (by decide))
    (CString.ofBytes [] (by decide)) (s := CString.ofBytes [0x21] (by decide)) Nat.zero_lt_one).mpr
    (show 1 ≤ 33 by decide)

/-- "Electronic devices aren't (always) toys!", what `typed_cmd_charge` shows. -/
def toys : CString := CString.ofBytes [
  0x45, 0x6C, 0x65, 0x63, 0x74, 0x72, 0x6F, 0x6E, 0x69, 0x63, 0x20, 0x64, 0x65, 0x76, 0x69, 0x63,
  0x65, 0x73, 0x20, 0x61, 0x72, 0x65, 0x6E, 0x27, 0x74, 0x20, 0x28, 0x61, 0x6C, 0x77, 0x61, 0x79,
  0x73, 0x29, 0x20, 0x74, 0x6F, 0x79, 0x73, 0x21] (by decide)

/-- Its last word starts at column 320, and ink of the `t` stands at the left edge. -/
theorem message_bar_toys :
    ¬ MessageBar (fun _ => 0) (CString.ofBytes [] (by decide)) (CString.ofBytes [] (by decide))
        (statusMsg (fun _ => 0) toys) ∧
      ∃ image, textToGraphics (fun _ => 0) (CString.ofBytes [] (by decide))
          (CString.ofBytes [] (by decide)) (statusMsg (fun _ => 0) toys) = some image ∧
        pixel image 3 4 = ink := by
  refine ⟨not_message_bar_long _ _ _ _ (by decide), ?_⟩
  obtain ⟨image, temp, hrun, -, -⟩ := message_plotted (fun _ => 0) (fun _ => 0)
    (CString.ofBytes [] (by decide)) (CString.ofBytes [] (by decide)) (s := toys) (by decide)
  refine ⟨image, hrun, ?_⟩
  exact message_wraps (i := 2) (m := 3) hrun (k := 35) (by decide) (by decide) (by decide)
    (by decide) (by decide)

end MachineProblems.Analysis.Adventure
