import MachineProblems.Program.Adventure.Vga
import Mathlib.Tactic.IntervalCases
import Mathlib.Tactic.SplitIfs

/-!
# Setting the modes of the card

Whatever was in the registers before, `set_mode_X` and `set_text_mode_3` leave the values of their
tables, and the screen is blank from their first accesses to their last one.
-/

set_option autoImplicit false

namespace MachineProblems.Analysis.Adventure

open MachineProblems.Library MachineProblems.Program.Adventure MachineProblems.Program.Quantizer

/-! ## Tables of registers -/

/-- A word of a table: the index of a register and its value. -/
def entry (w : UInt16) : UInt8 × UInt8 := (byteLow w, byteHigh w)

theorem byteLow_masked (w low : UInt16) : byteLow (w &&& 0xFF00 ||| low) = byteLow low := by
  have hmask : (0xFF00 : UInt16).toUInt8 = 0 := rfl
  unfold byteLow
  rw [UInt16.toUInt8_or, UInt16.toUInt8_and, hmask, UInt8.and_zero, UInt8.zero_or]

theorem byteHigh_masked (w : UInt16) {low : UInt16} (hlow : low < 256) :
    byteHigh (w &&& 0xFF00 ||| low) = byteHigh w := by
  have hnat : low.toNat < 2 ^ 8 := hlow
  have height : (8 : UInt16).toNat % 16 = 8 := rfl
  unfold byteHigh
  apply UInt8.toNat.inj
  simp only [UInt16.toNat_toUInt8, UInt16.toNat_shiftRight, UInt16.toNat_or, UInt16.toNat_and,
    height]
  apply Nat.eq_of_testBit_eq
  intro i
  rw [Nat.testBit_mod_two_pow, Nat.testBit_mod_two_pow, Nat.testBit_shiftRight,
    Nat.testBit_shiftRight, Nat.testBit_or, Nat.testBit_and]
  by_cases hi : i < 8
  · have hclear : low.toNat.testBit (8 + i) = false := by
      apply Nat.testBit_lt_two_pow
      exact Nat.lt_of_lt_of_le hnat (Nat.pow_le_pow_right Nat.two_pos (by omega))
    have hset : (UInt16.toNat 0xFF00).testBit (8 + i) = true := by
      interval_cases i <;> rfl
    rw [hclear, hset, Bool.and_true, Bool.or_false]
  · simp [hi]

section Writes

variable (v : Vga)

theorem outw_seq (w : UInt16) : outw 0x03C4 w v =
    { v with
      seqIndex := byteLow w
      seq := Function.update v.seq (byteLow w) (byteHigh w) } := rfl

theorem setWriteMask_eq (mask : UInt16) : setWriteMask mask v =
    { v with
      seqIndex := 2
      seq := Function.update v.seq 2 (byteHigh mask) } := by
  rw [setWriteMask, outw_seq, byteLow_masked, byteHigh_masked mask (by decide)]
  rfl

theorem outw_graphics (w : UInt16) : outw 0x03CE w v =
    { v with
      graphicsIndex := byteLow w
      graphics := Function.update v.graphics (byteLow w) (byteHigh w) } := rfl

/-- A write to the CRT controller that the protection does not concern. -/
theorem outw_crtc {w : UInt16} (h : v.crtc 0x11 &&& 0x80 = 0 ∨ 7 < byteLow w) :
    outw 0x03D4 w v =
      { v with
        crtcIndex := byteLow w
        crtc := Function.update v.crtc (byteLow w) (byteHigh w) } := by
  have hfree : ¬ (byteLow w ≤ 7 ∧ v.crtc 0x11 &&& 0x80 ≠ 0) := by
    rintro ⟨hle, hprotected⟩
    rcases h with hclear | hlt
    · exact hprotected hclear
    · exact absurd hle (UInt8.not_le.mpr hlt)
  show { v with
    crtcIndex := byteLow w
    crtc := Function.update v.crtc (byteLow w)
      (Vga.crtcWritten { v with crtcIndex := byteLow w } (byteHigh w)) } = _
  unfold Vga.crtcWritten
  rw [if_neg hfree]

theorem drive_repOutsw_seq (table : List UInt16) : ∃ i, drive (repOutsw 0x03C4 table) v =
    { v with seqIndex := i, seq := bank v.seq (table.map entry) } := by
  induction table generalizing v with
  | nil => exact ⟨v.seqIndex, rfl⟩
  | cons w table ih =>
      obtain ⟨i, hi⟩ := ih (outw 0x03C4 w v)
      exact ⟨i, hi⟩

theorem drive_repOutsw_graphics (table : List UInt16) :
    ∃ i, drive (repOutsw 0x03CE table) v =
      { v with graphicsIndex := i, graphics := bank v.graphics (table.map entry) } := by
  induction table generalizing v with
  | nil => exact ⟨v.graphicsIndex, rfl⟩
  | cons w table ih =>
      obtain ⟨i, hi⟩ := ih (outw 0x03CE w v)
      exact ⟨i, hi⟩

/-- Writes to the CRT controller before register `0x11` is written again. -/
theorem drive_repOutsw_open {table : List UInt16} (hopen : v.crtc 0x11 &&& 0x80 = 0)
    (htable : ∀ w ∈ table, byteLow w ≠ 0x11) : ∃ i, drive (repOutsw 0x03D4 table) v =
      { v with crtcIndex := i, crtc := bank v.crtc (table.map entry) } := by
  induction table generalizing v with
  | nil => exact ⟨v.crtcIndex, rfl⟩
  | cons w table ih =>
      rw [List.forall_mem_cons] at htable
      have hw := outw_crtc v (w := w) (Or.inl hopen)
      obtain ⟨i, hi⟩ := ih (outw 0x03D4 w v)
        (by rw [hw]; simpa [Function.update_of_ne htable.1.symm] using hopen) htable.2
      refine ⟨i, ?_⟩
      show drive (repOutsw 0x03D4 table) (outw 0x03D4 w v) = _
      rw [hi, hw]
      rfl

/-- Writes to the registers behind the first eight ones. -/
theorem drive_repOutsw_high {table : List UInt16} (htable : ∀ w ∈ table, 7 < byteLow w) :
    ∃ i, drive (repOutsw 0x03D4 table) v =
      { v with crtcIndex := i, crtc := bank v.crtc (table.map entry) } := by
  induction table generalizing v with
  | nil => exact ⟨v.crtcIndex, rfl⟩
  | cons w table ih =>
      rw [List.forall_mem_cons] at htable
      have hw := outw_crtc v (w := w) (Or.inr htable.1)
      obtain ⟨i, hi⟩ := ih (outw 0x03D4 w v) htable.2
      refine ⟨i, ?_⟩
      show drive (repOutsw 0x03D4 table) (outw 0x03D4 w v) = _
      rw [hi, hw]
      rfl

/-- A table whose first eight registers come before register `0x11`: the write in front of it lifts
the protection, and it lasts long enough. -/
theorem drive_setCRTCRegisters {early late : List UInt16}
    (hearly : ∀ w ∈ early, byteLow w ≠ 0x11) (hlate : ∀ w ∈ late, 7 < byteLow w) :
    ∃ i, drive (setCRTCRegisters (early ++ late)) v =
      { v with crtcIndex := i, crtc := bank v.crtc ((0x0011 :: (early ++ late)).map entry) } := by
  have hfirst : outw 0x03D4 0x0011 v = { v with
      crtcIndex := 0x11
      crtc := Function.update v.crtc 0x11 0 } := outw_crtc v (w := 0x0011) (Or.inr (by decide))
  obtain ⟨i, hi⟩ := drive_repOutsw_open { v with
    crtcIndex := 0x11
    crtc := Function.update v.crtc 0x11 0 } (by simp) hearly
  obtain ⟨j, hj⟩ := drive_repOutsw_high { v with
    crtcIndex := i
    crtc := bank (Function.update v.crtc 0x11 0) (early.map entry) } hlate
  refine ⟨j, ?_⟩
  show drive (repOutsw 0x03D4 (early ++ late)) (outw 0x03D4 0x0011 v) = _
  rw [hfirst, repOutsw, List.map_append, drive_append]
  rw [← repOutsw, ← repOutsw, hi, hj]
  simp only [List.map_cons, List.map_append, bank_cons, bank_append]
  rfl

/-- Pairs of an index and a value for the attribute controller. -/
theorem drive_repOutsb_attr {pairs : List (UInt8 × UInt8)}
    (hpairs : ∀ p ∈ pairs, p.1 &&& 0x1F = p.1) (hindex : v.attrData = false) :
    ∃ i, drive (repOutsb 0x03C0 (pairs.flatMap fun p => [p.1, p.2])) v =
      { v with attrIndex := i, attr := bank v.attr pairs } := by
  induction pairs generalizing v with
  | nil => exact ⟨v.attrIndex, rfl⟩
  | cons p pairs ih =>
      rw [List.forall_mem_cons] at hpairs
      have hpair : outb 0x03C0 p.2 (outb 0x03C0 p.1 v) =
          { v with attrIndex := p.1, attr := Function.update v.attr p.1 p.2 } := by
        simp [outb, hindex, hpairs.1]
      obtain ⟨i, hi⟩ := ih { v with attrIndex := p.1, attr := Function.update v.attr p.1 p.2 }
        hpairs.2 hindex
      refine ⟨i, ?_⟩
      show drive (repOutsb 0x03C0 (pairs.flatMap fun p => [p.1, p.2]))
        (outb 0x03C0 p.2 (outb 0x03C0 p.1 v)) = _
      rw [hpair, hi]
      rfl

/-! ## Colours -/

/-- A colour as the DAC keeps it. -/
def kept (colour : Rgb) : Rgb where
  red := colour.red &&& 0x3F
  green := colour.green &&& 0x3F
  blue := colour.blue &&& 0x3F

/-- The colours from number `i` on. -/
def dacTable : UInt8 → List Rgb → List (UInt8 × Rgb)
  | _, [] => []
  | i, colour :: colours => (i, kept colour) :: dacTable (i + 1) colours

/-- The number behind the last one. -/
def dacNext : UInt8 → List Rgb → UInt8
  | i, [] => i
  | i, _ :: colours => dacNext (i + 1) colours

theorem dacTable_keys (i : UInt8) (colours : List Rgb) : (dacTable i colours).map Prod.fst =
    (List.range colours.length).map fun k => i + UInt8.ofNat k := by
  induction colours generalizing i with
  | nil => rfl
  | cons colour colours ih =>
      rw [dacTable, List.map_cons, ih, List.length_cons, List.range_succ_eq_map, List.map_cons,
        List.map_map]
      congr 1
      · simp
      · apply List.map_congr_left
        intro k hk
        rw [Function.comp_apply, Nat.succ_eq_add_one, UInt8.ofNat_add]
        rw [UInt8.add_assoc, UInt8.add_comm (UInt8.ofNat k)]
        rfl

theorem dacTable_nodup (i : UInt8) {colours : List Rgb} (h : colours.length ≤ 256) :
    ((dacTable i colours).map Prod.fst).Nodup := by
  rw [dacTable_keys]
  apply List.Nodup.map_on
  · intro k hk k' hk' heq
    rw [List.mem_range] at hk hk'
    have hnat := congrArg UInt8.toNat (UInt8.add_right_inj i |>.mp heq)
    simp only [UInt8.toNat_ofNat'] at hnat
    omega
  · exact List.nodup_range

theorem drive_colour (hpart : v.dacPart = []) (colour : Rgb) :
    drive [outb 0x03C9 colour.red, outb 0x03C9 colour.green, outb 0x03C9 colour.blue] v =
      { v with
        dac := Function.update v.dac v.dacIndex (kept colour)
        dacIndex := v.dacIndex + 1 } := by
  simp [outb, Vga.dacWrite, hpart, kept]

theorem drive_paletteBytes (hpart : v.dacPart = []) (colours : List Rgb) :
    drive (repOutsb 0x03C9 (paletteBytes colours)) v =
      { v with
        dac := bank v.dac (dacTable v.dacIndex colours)
        dacIndex := dacNext v.dacIndex colours } := by
  induction colours generalizing v with
  | nil => rfl
  | cons colour colours ih =>
      show drive (repOutsb 0x03C9 (paletteBytes colours))
        (drive [outb 0x03C9 colour.red, outb 0x03C9 colour.green, outb 0x03C9 colour.blue] v) = _
      rw [drive_colour v hpart, ih]
      · rfl
      · exact hpart

theorem drive_fillPalette (colours : List Rgb) : drive (fillPalette colours) v =
    { v with
      dac := bank v.dac (dacTable 0 colours)
      dacIndex := dacNext 0 colours
      dacPart := [] } :=
  drive_paletteBytes { v with dacIndex := 0, dacPart := [] } rfl colours

/-- Colours that are set one by one. -/
theorem drive_prints (entries : List (UInt8 × Rgb)) : ∃ i part,
    drive (entries.flatMap fun p => palettePrint p.1 p.2.red p.2.green p.2.blue) v =
      { v with
        dac := bank v.dac (entries.map fun p => (p.1, kept p.2))
        dacIndex := i
        dacPart := part } := by
  induction entries generalizing v with
  | nil => exact ⟨v.dacIndex, v.dacPart, rfl⟩
  | cons p entries ih =>
      obtain ⟨i, part, hdrive⟩ := ih { v with
        dac := Function.update v.dac p.1 (kept p.2)
        dacIndex := p.1 + 1
        dacPart := [] }
      refine ⟨i, part, ?_⟩
      rw [List.flatMap_cons, drive_append]
      exact hdrive

/-! ## The parts of a mode -/

theorem drive_vgaBlank (blankBit : UInt8) : drive (vgaBlank blankBit) v =
    { v with
      seqIndex := 1
      seq := Function.update v.seq 1 (v.seq 1 &&& 0xDF ||| (blankBit &&& 1) <<< (5 : UInt8))
      attrIndex := 0x20
      attrData := true } := rfl

theorem drive_setSeqRegsAndReset (table : List UInt16) (val : UInt8) :
    drive (setSeqRegsAndReset table val) v =
      { v with
        misc := val
        seqIndex := 0
        seq := Function.update (bank v.seq (table.map entry)) 0 3 } := by
  obtain ⟨i, hi⟩ := drive_repOutsw_seq v table
  rw [setSeqRegsAndReset, drive_append, hi]
  rfl

/-- All registers of a mode, in the order in which both modes set them. -/
theorem drive_registers (seqTable graphicsTable : List UInt16) (val : UInt8)
    (colours : List Rgb) {early late : List UInt16} {pairs : List (UInt8 × UInt8)}
    (hearly : ∀ w ∈ early, byteLow w ≠ 0x11) (hlate : ∀ w ∈ late, 7 < byteLow w)
    (hpairs : ∀ p ∈ pairs, p.1 &&& 0x1F = p.1) :
    ∃ i j k, drive (vgaBlank 1 ++ setSeqRegsAndReset seqTable val ++
        setCRTCRegisters (early ++ late) ++ setAttrRegisters (pairs.flatMap fun p => [p.1, p.2]) ++
        setGraphicsRegisters graphicsTable ++ fillPalette colours) v =
      { v with
        misc := val
        seqIndex := 0
        seq := Function.update (bank (Function.update v.seq 1 (v.seq 1 &&& 0xDF ||| 0x20))
          (seqTable.map entry)) 0 3
        crtcIndex := i
        crtc := bank v.crtc ((0x0011 :: (early ++ late)).map entry)
        attrIndex := j
        attrData := false
        attr := bank v.attr pairs
        graphicsIndex := k
        graphics := bank v.graphics (graphicsTable.map entry)
        dac := bank v.dac (dacTable 0 colours)
        dacIndex := dacNext 0 colours
        dacPart := [] } := by
  simp only [drive_append, drive_vgaBlank, drive_setSeqRegsAndReset, drive_fillPalette]
  obtain ⟨i, hi⟩ := drive_setCRTCRegisters { v with
    misc := val
    seqIndex := 0
    seq := Function.update (bank (Function.update v.seq 1 (v.seq 1 &&& 0xDF ||| 0x20))
      (seqTable.map entry)) 0 3
    attrIndex := 0x20
    attrData := true } hearly hlate
  obtain ⟨j, hj⟩ := drive_repOutsb_attr { v with
    misc := val
    seqIndex := 0
    seq := Function.update (bank (Function.update v.seq 1 (v.seq 1 &&& 0xDF ||| 0x20))
      (seqTable.map entry)) 0 3
    crtcIndex := i
    crtc := bank v.crtc ((0x0011 :: (early ++ late)).map entry)
    attrIndex := 0x20
    attrData := false } hpairs rfl
  obtain ⟨k, hk⟩ := drive_repOutsw_graphics { v with
    misc := val
    seqIndex := 0
    seq := Function.update (bank (Function.update v.seq 1 (v.seq 1 &&& 0xDF ||| 0x20))
      (seqTable.map entry)) 0 3
    crtcIndex := i
    crtc := bank v.crtc ((0x0011 :: (early ++ late)).map entry)
    attrIndex := j
    attrData := false
    attr := bank v.attr pairs } graphicsTable
  refine ⟨i, j, k, ?_⟩
  have hblank : (1 &&& 1 : UInt8) <<< (5 : UInt8) = 0x20 := by decide
  rw [hblank, hi, setAttrRegisters, drive_cons, inbStatus, hj, setGraphicsRegisters, hk]

end Writes

/-! ## Stores -/

section Stores

variable {v : Vga}

/-- A store changes nothing but the memory. -/
theorem storeByte_mem (addr : ℕ) (byte : UInt8) (v : Vga) :
    ∃ mem, storeByte addr byte v = { v with mem := mem } := by
  unfold storeByte
  cases v.mapped addr with
  | none => exact ⟨v.mem, rfl⟩
  | some off => exact ⟨_, rfl⟩

/-- The memory is 64 kB of four planes, all of them behind every address. -/
structure Planar (v : Vga) : Prop where
  window : v.graphics 6 >>> 2 &&& 3 = 1
  linear : v.oddEven = false

theorem Planar.setWriteMask (h : Planar v) (mask : UInt16) : Planar (setWriteMask mask v) := by
  rw [setWriteMask_eq]
  exact ⟨h.window, h.linear⟩

theorem storeByte_planar (h : Planar v) {addr : ℕ} (haddr : addr < 0x10000) (byte : UInt8) :
    storeByte addr byte v =
      { v with mem := fun plane k =>
          if (v.seq 2).toNat.testBit plane ∧ k = addr then byte else v.mem plane k } := by
  have hmapped : v.mapped addr = some addr := by
    unfold Vga.mapped
    simp [h.window, haddr]
  unfold storeByte
  simp [hmapped, h.linear]

/-- A copy to the planes of the write mask. -/
theorem drive_copyBytes (h : Planar v) (img : ℕ → UInt8) {scrAddr count : ℕ}
    (hend : scrAddr + count ≤ 0x10000) : drive (copyBytes img scrAddr count) v =
      { v with mem := fun plane k =>
          if (v.seq 2).toNat.testBit plane ∧ scrAddr ≤ k ∧ k < scrAddr + count then
            img (k - scrAddr)
          else v.mem plane k } := by
  let copied : ℕ → Vga := fun n =>
    { v with mem := fun plane k =>
        if (v.seq 2).toNat.testBit plane ∧ scrAddr ≤ k ∧ k < scrAddr + n then img (k - scrAddr)
        else v.mem plane k }
  show drive ((List.range count).map fun k => storeByte (scrAddr + k) (img k)) v = copied count
  apply drive_range (I := fun n t => t = copied n)
  · have hnone : ∀ k, ¬ (scrAddr ≤ k ∧ k < scrAddr + 0) := fun k => by omega
    simp only [copied, hnone, and_false, if_false]
  · rintro n t hn rfl
    have hplanar : Planar (copied n) := ⟨h.window, h.linear⟩
    rw [storeByte_planar hplanar (by omega)]
    simp only [copied, Vga.mk.injEq, true_and]
    funext plane k
    by_cases hplane : (v.seq 2).toNat.testBit plane = true
    · simp only [hplane, true_and]
      by_cases hk : k = scrAddr + n
      · rw [if_pos hk, if_pos (by omega), hk, Nat.add_sub_cancel_left]
      · rw [if_neg hk]
        by_cases hin : scrAddr ≤ k ∧ k < scrAddr + n
        · rw [if_pos hin, if_pos (by omega)]
        · rw [if_neg hin, if_neg (by omega)]
    · simp [hplane]

end Stores

/-! ## The modes -/

/-- The pairs of an index and a value in a table of the attribute controller. -/
def attrPairs : List UInt8 → List (UInt8 × UInt8)
  | i :: x :: rest => (i, x) :: attrPairs rest
  | _ => []

/-- The tables of a mode: the miscellaneous register, the sequencer, the CRT controller, the
attribute controller, the graphics controller and the colours. -/
structure Tables where
  misc : UInt8
  seq : List UInt16
  crtc : List UInt16
  attr : List UInt8
  graphics : List UInt16
  colours : List Rgb

/-- The registers of the card have the values of the tables. -/
structure Loaded (t : Vga) (tables : Tables) : Prop where
  misc : t.misc = tables.misc
  seq : ∀ w ∈ tables.seq, t.seq (byteLow w) = byteHigh w
  crtc : ∀ w ∈ tables.crtc, t.crtc (byteLow w) = byteHigh w
  attr : ∀ p ∈ attrPairs tables.attr, t.attr p.1 = p.2
  graphics : ∀ w ∈ tables.graphics, t.graphics (byteLow w) = byteHigh w
  colours : ∀ p ∈ dacTable 0 tables.colours, t.dac p.1 = p.2

/-- The tables that can be loaded: no register is written twice, except for register 0 of the
sequencer, whose reset comes last, and the protected registers come before register `0x11`. -/
structure Tables.Sound (tables : Tables) : Prop where
  reset : byteLow (tables.seq.headD 0) = 0
  seq : (tables.seq.map byteLow).Nodup
  crtc : (tables.crtc.map byteLow).Nodup
  early : ∀ w ∈ tables.crtc.take 17, byteLow w ≠ 0x11
  late : ∀ w ∈ tables.crtc.drop 17, 7 < byteLow w
  attr : ((attrPairs tables.attr).map Prod.fst).Nodup
  pairs : (attrPairs tables.attr).flatMap (fun p => [p.1, p.2]) = tables.attr
  index : ∀ p ∈ attrPairs tables.attr, p.1 &&& 0x1F = p.1
  graphics : (tables.graphics.map byteLow).Nodup
  colours : tables.colours.length ≤ 256

/-- A table that writes no register twice leaves all its values. -/
theorem bank_entries {f : UInt8 → UInt8} {table : List UInt16}
    (hnodup : (table.map byteLow).Nodup) : ∀ w ∈ table,
      bank f (table.map entry) (byteLow w) = byteHigh w := by
  intro w hw
  apply bank_of_mem
  · rw [List.map_map]
    exact hnodup
  · exact List.mem_map_of_mem (f := entry) hw

/-- So does one behind a write to one of its registers. -/
theorem bank_entries_cons {f : UInt8 → UInt8} {table : List UInt16} {first : UInt16}
    (hnodup : (table.map byteLow).Nodup) : ∀ w ∈ table,
      bank f ((first :: table).map entry) (byteLow w) = byteHigh w :=
  bank_entries (f := Function.update f (byteLow first) (byteHigh first)) hnodup

/-- The accesses of both modes to the registers. -/
def loadTables (tables : Tables) : List Access :=
  vgaBlank 1 ++ setSeqRegsAndReset tables.seq tables.misc ++ setCRTCRegisters tables.crtc ++
    setAttrRegisters tables.attr ++ setGraphicsRegisters tables.graphics ++
    fillPalette tables.colours

/-- The tables whose sequencer runs. -/
def Tables.running (tables : Tables) : Tables := { tables with seq := 0x0300 :: tables.seq.tail }

theorem loaded (v : Vga) {tables : Tables} (h : tables.Sound) :
    Loaded (drive (loadTables tables) v) tables.running ∧
      (drive (loadTables tables) v).mem = v.mem := by
  have hcrtc : tables.crtc.take 17 ++ tables.crtc.drop 17 = tables.crtc :=
    List.take_append_drop 17 tables.crtc
  obtain ⟨i, j, k, hregisters⟩ := drive_registers v tables.seq tables.graphics tables.misc
    tables.colours h.early h.late h.index
  rw [hcrtc, h.pairs] at hregisters
  rw [loadTables, hregisters]
  refine ⟨⟨rfl, ?_, ?_, ?_, ?_, ?_⟩, rfl⟩
  · intro w hw
    rcases List.mem_cons.mp hw with rfl | hw
    · rfl
    · have hreset := h.reset
      have hseq := h.seq
      cases htable : tables.seq with
      | nil => simp [htable] at hw
      | cons first rest =>
          rw [htable, List.headD_cons] at hreset
          rw [htable, List.tail_cons] at hw
          rw [htable, List.map_cons, List.nodup_cons, hreset] at hseq
          have hne : byteLow w ≠ 0 := by
            rintro heq
            exact hseq.1 (heq ▸ List.mem_map_of_mem hw)
          simp only [Function.update_of_ne hne]
          exact bank_entries_cons hseq.2 w hw
  · exact bank_entries_cons h.crtc
  · intro p hp
    exact bank_of_mem h.attr hp
  · exact bank_entries h.graphics
  · intro p hp
    exact bank_of_mem (dacTable_nodup 0 h.colours) hp

/-! ## Mode X -/

def modeXTables : Tables := ⟨0x63, modeXSeq, modeXCRTC, modeXAttr, modeXGraphics, modeXPalette⟩

theorem modeXTables_sound : modeXTables.Sound where
  reset := by simp [modeXTables, modeXSeq, byteLow]
  seq := by simp [modeXTables, modeXSeq, byteLow]
  crtc := by simp [modeXTables, modeXCRTC, byteLow]
  early := by simp [modeXTables, modeXCRTC, byteLow]
  late := by simp [modeXTables, modeXCRTC, byteLow]
  attr := by simp [modeXTables, modeXAttr, attrPairs]
  pairs := rfl
  index := by
    simp [modeXTables, modeXAttr, attrPairs]
    decide
  graphics := by simp [modeXTables, modeXGraphics, byteLow]
  colours := by simp [modeXTables, modeXPalette]

/-- Mode X as it runs: the sequencer shows a picture and writes to all planes. -/
def modeXRunning : Tables := { modeXTables with seq := [0x0300, 0x0101, 0x0F02, 0x0003, 0x0604] }

theorem clearScreens_eq : clearScreens =
    setWriteMask 0x0F00 :: copyBytes (fun _ => 0) 0 modeXMemSize := by
  unfold clearScreens copyBytes
  simp only [Nat.zero_add]

theorem Loaded.planar {t : Vga} (h : Loaded t modeXTables.running) : Planar t where
  window := by
    have hmap := h.graphics 0x0506 (by simp [modeXTables, Tables.running, modeXGraphics])
    rw [show byteLow 0x0506 = 6 from rfl] at hmap
    rw [hmap]
    rfl
  linear := by
    have hmode := h.seq 0x0604 (by simp [modeXTables, Tables.running, modeXSeq])
    rw [show byteLow 0x0604 = 4 from rfl] at hmode
    rw [Vga.oddEven, hmode]
    rfl

/-- `set_mode_X` leaves the values of its tables and a cleared memory, whatever was in the card. -/
theorem modeX_loaded (v : Vga) :
    Loaded (drive setModeXVga v) modeXRunning ∧ (drive setModeXVga v).attrIndex = 0x20 ∧
      ∀ plane < 4, ∀ k < modeXMemSize, (drive setModeXVga v).mem plane k = 0 := by
  obtain ⟨hloaded, -⟩ := loaded v modeXTables_sound
  have hparts : setModeXVga = loadTables modeXTables ++ clearScreens ++ vgaBlank 0 := rfl
  rw [hparts, drive_append, drive_append, drive_vgaBlank, clearScreens_eq]
  generalize drive (loadTables modeXTables) v = t at hloaded
  have hplanar := hloaded.planar.setWriteMask 0x0F00
  rw [setWriteMask_eq] at hplanar
  rw [drive_cons, setWriteMask_eq]
  rw [drive_copyBytes hplanar (fun _ => 0) (by simp [modeXMemSize])]
  refine ⟨⟨hloaded.misc, ?_, hloaded.crtc, hloaded.attr, hloaded.graphics, hloaded.colours⟩,
    rfl, ?_⟩
  · have hseq := hloaded.seq
    simp only [modeXTables, Tables.running, modeXSeq, List.tail_cons, List.forall_mem_cons] at hseq
    obtain ⟨hreset, hclock, -, hmap, hmode, -⟩ := hseq
    simp only [modeXRunning, List.forall_mem_cons]
    refine ⟨hreset, ?_, rfl, hmap, hmode, List.forall_mem_nil _⟩
    have hone : t.seq 1 = 0x21 := hclock
    show t.seq 1 &&& 0xDF ||| ((0 &&& 1 : UInt8) <<< (5 : UInt8)) = 1
    rw [hone]
    rfl
  · intro plane hplane k hk
    have hmask : (byteHigh 0x0F00).toNat.testBit plane = true := by
      interval_cases plane <;> rfl
    simp [hmask, hk]

/-! ## Text mode -/

def textTables : Tables := ⟨0x67, textSeq, textCRTC, textAttr, textGraphics, textPalette⟩

theorem textTables_sound : textTables.Sound where
  reset := by simp [textTables, textSeq, byteLow]
  seq := by simp [textTables, textSeq, byteLow]
  crtc := by simp [textTables, textCRTC, byteLow]
  early := by simp [textTables, textCRTC, byteLow]
  late := by simp [textTables, textCRTC, byteLow]
  attr := by simp [textTables, textAttr, attrPairs]
  pairs := rfl
  index := by
    simp [textTables, textAttr, attrPairs]
    decide
  graphics := by simp [textTables, textGraphics, byteLow]
  colours := by simp [textTables, textPalette]

/-- Text mode as it runs: the sequencer writes to the planes of characters and attributes, by even
and odd addresses. -/
def textRunning : Tables := { textTables with seq := [0x0300, 0x0001, 0x0302, 0x0003, 0x0304] }

/-- The memory is the text screen, whose even and odd addresses are those of planes 0 and 1. -/
structure Texts (v : Vga) : Prop where
  window : v.graphics 6 >>> 2 &&& 3 = 3
  oddEven : v.oddEven = true
  planes : v.seq 2 = 3

/-- A store to the text screen goes to the even address, in the plane of its parity. -/
theorem storeByte_text {v : Vga} (h : Texts v) {k : ℕ} (hk : k < 0x8000) (byte : UInt8) :
    storeByte (0x18000 + k) byte v =
      { v with mem := fun plane cell =>
          if plane = k % 2 ∧ cell = k - k % 2 then byte else v.mem plane cell } := by
  have hmapped : v.mapped (0x18000 + k) = some k := by
    unfold Vga.mapped
    simp only [h.window]
    rw [if_neg (by decide), if_neg (by decide), if_neg (by decide), if_pos (by omega),
      Nat.add_sub_cancel_left]
  have hplane : ∀ plane, ((v.seq 2).toNat.testBit plane = true ∧
      (v.oddEven = true → plane % 2 = k % 2)) ↔ plane = k % 2 := by
    intro plane
    have hlow : (3 : UInt8).toNat.testBit plane = decide (plane < 2) :=
      Nat.testBit_two_pow_sub_one 2 plane
    rw [h.planes, h.oddEven, hlow, decide_eq_true_eq]
    simp only [forall_const]
    omega
  unfold storeByte
  simp only [hmapped, Vga.mk.injEq, true_and]
  funext plane cell
  apply if_congr
  · rw [← and_assoc, hplane, if_pos h.oddEven]
  · rfl
  · rfl

/-- The text screen with its first `n` bytes cleared: blanks in the usual colours. -/
def textCleared (v : Vga) (n : ℕ) : Vga :=
  { v with mem := fun plane cell =>
      if plane < 2 ∧ cell % 2 = 0 ∧ cell + plane < n then if plane = 0 then 0x20 else 0x07
      else v.mem plane cell }

theorem textCleared_byte {v : Vga} (h : Texts v) {n : ℕ} (hn : n < 0x8000) {byte : UInt8}
    (hbyte : byte = if n % 2 = 0 then 0x20 else 0x07) :
    storeByte (0x18000 + n) byte (textCleared v n) = textCleared v (n + 1) := by
  have hcleared : Texts (textCleared v n) := ⟨h.window, h.oddEven, h.planes⟩
  rw [storeByte_text hcleared hn, hbyte]
  unfold textCleared
  simp only [Vga.mk.injEq, true_and]
  funext plane cell
  by_cases hhere : plane = n % 2 ∧ cell = n - n % 2
  · have hin : plane < 2 ∧ cell % 2 = 0 ∧ cell + plane < n + 1 := by omega
    rw [if_pos hhere, if_pos hin, hhere.1]
  · rw [if_neg hhere]
    apply if_congr
    · omega
    · rfl
    · rfl

theorem drive_clearText {v : Vga} (h : Texts v) :
    drive clearText v = textCleared v 0x8000 := by
  unfold clearText
  apply drive_flatMap_range (I := fun i t => t = textCleared v (4 * i))
  · simp [textCleared]
  · rintro i t hi rfl
    simp only [drive_cons, drive_nil, Nat.add_assoc]
    rw [textCleared_byte h (by omega) (by rw [if_pos (by omega)]),
      textCleared_byte h (by omega) (by rw [if_neg (by omega)]),
      textCleared_byte h (by omega) (by rw [if_pos (by omega)]),
      textCleared_byte h (by omega) (by rw [if_neg (by omega)])]
    rfl

/-- The memory with the first characters of the font in plane 2. -/
def fontWritten (v : Vga) (n : ℕ) : Vga :=
  { v with mem := fun plane cell =>
      if plane = 2 ∧ cell / 32 < n ∧ cell % 32 < 16 then
        fontRow (UInt8.ofNat (cell / 32)) (cell % 32)
      else v.mem plane cell }

theorem drive_font {v : Vga} (h : Planar v) (hplane : v.seq 2 = 4) :
    drive ((List.range 256).flatMap fun i => (List.range 16).map fun j =>
      storeByte (32 * i + j) (fontRow (UInt8.ofNat i) j)) v = fontWritten v 256 := by
  have hmask : ∀ plane, (v.seq 2).toNat.testBit plane = true ↔ plane = 2 := by
    intro plane
    have hfour : (4 : UInt8).toNat.testBit plane = decide (2 = plane) :=
      Nat.testBit_two_pow (n := 2) (m := plane)
    rw [hplane, hfour, decide_eq_true_eq, eq_comm]
  apply drive_flatMap_range (I := fun i t => t = fontWritten v i)
  · simp [fontWritten]
  · rintro i t hi rfl
    have hwritten : Planar (fontWritten v i) := ⟨h.window, h.linear⟩
    have hcopy := drive_copyBytes hwritten (fontRow (UInt8.ofNat i))
      (show 32 * i + 16 ≤ 0x10000 by omega)
    rw [copyBytes] at hcopy
    rw [hcopy]
    unfold fontWritten
    simp only [Vga.mk.injEq, true_and]
    funext plane cell
    simp only [hmask]
    by_cases hhere : plane = 2 ∧ 32 * i ≤ cell ∧ cell < 32 * i + 16
    · have hchar : cell / 32 = i := by omega
      have hrow : cell - 32 * i = cell % 32 := by omega
      rw [if_pos hhere, if_pos (by omega), hchar, hrow]
    · rw [if_neg hhere]
      apply if_congr
      · omega
      · rfl
      · rfl

theorem Loaded.texts {t : Vga} (h : Loaded t textTables.running) : Texts t where
  window := by
    have hmap := h.graphics 0x0E06 (by simp [textTables, Tables.running, textGraphics])
    rw [show byteLow 0x0E06 = 6 from rfl] at hmap
    rw [hmap]
    rfl
  oddEven := by
    have hmode := h.seq 0x0204 (by simp [textTables, Tables.running, textSeq])
    rw [show byteLow 0x0204 = 4 from rfl] at hmode
    rw [Vga.oddEven, hmode]
    rfl
  planes := h.seq 0x0302 (by simp [textTables, Tables.running, textSeq])

/-- `write_font_data` writes the font, and sets the registers that it changed as text mode needs
them. -/
theorem drive_writeFontData (v : Vga) : drive writeFontData v =
    { fontWritten v 256 with
      seqIndex := 4
      seq := Function.update (Function.update (Function.update (Function.update v.seq 2 4) 4 7) 2 3)
        4 3
      graphicsIndex := 4
      graphics := bank v.graphics [(5, 0), (6, 4), (4, 2), (5, 0x10), (6, 0x0E), (4, 0)] } := by
  have hset : drive [outw 0x03C4 0x0402, outw 0x03C4 0x0704, outw 0x03CE 0x0005,
      outw 0x03CE 0x0406, outw 0x03CE 0x0204] v =
      { v with
        seqIndex := 4
        seq := Function.update (Function.update v.seq 2 4) 4 7
        graphicsIndex := 4
        graphics := bank v.graphics [(5, 0), (6, 4), (4, 2)] } := rfl
  have hplanar : Planar { v with
      seqIndex := 4
      seq := Function.update (Function.update v.seq 2 4) 4 7
      graphicsIndex := 4
      graphics := bank v.graphics [(5, 0), (6, 4), (4, 2)] } := by
    constructor
    · show (4 : UInt8) >>> 2 &&& 3 = 1
      decide
    · show ((7 : UInt8) &&& 4 == 0) = false
      decide
  rw [writeFontData, drive_append, drive_append, hset, drive_font hplanar rfl]
  rfl

/-- **Restoring text mode**: whatever was in the card, every register that `set_text_mode_3` has a
value for gets it, the screen shows a picture, and plane 2 holds the font.  The text screens are
blank in the usual colours if they were to be cleared, and as they were otherwise. -/
theorem textMode_set (v : Vga) (clearScr : Bool) :
    Loaded (drive (setTextMode3 clearScr) v) textRunning ∧
      (drive (setTextMode3 clearScr) v).attrIndex = 0x20 ∧
      (∀ i < 256, ∀ j < 16, (drive (setTextMode3 clearScr) v).mem 2 (32 * i + j) =
        fontRow (UInt8.ofNat i) j) ∧
      ∀ cell, if clearScr ∧ cell < 0x4000 then
        (drive (setTextMode3 clearScr) v).mem 0 (2 * cell) = 0x20 ∧
          (drive (setTextMode3 clearScr) v).mem 1 (2 * cell) = 0x07
      else
        (drive (setTextMode3 clearScr) v).mem 0 (2 * cell) = v.mem 0 (2 * cell) ∧
          (drive (setTextMode3 clearScr) v).mem 1 (2 * cell) = v.mem 1 (2 * cell) := by
  obtain ⟨hloaded, hmem⟩ := loaded v textTables_sound
  have hparts : setTextMode3 clearScr = loadTables textTables ++
      (if clearScr then clearText else []) ++ writeFontData ++ vgaBlank 0 := rfl
  rw [hparts, drive_append, drive_append, drive_append, drive_vgaBlank,
    drive_writeFontData, ← hmem]
  generalize drive (loadTables textTables) v = t at hloaded
  have hcleared : drive (if clearScr = true then clearText else []) t =
      if clearScr = true then textCleared t 0x8000 else t := by
    cases clearScr with
    | false => rfl
    | true =>
        rw [if_pos rfl, if_pos rfl]
        exact drive_clearText hloaded.texts
  rw [hcleared]
  obtain ⟨mem, hkept, htext⟩ : ∃ mem, (if clearScr = true then textCleared t 0x8000 else t) =
      { t with mem := mem } ∧ ∀ plane < 2, ∀ cell, mem plane (2 * cell) =
        if clearScr ∧ cell < 0x4000 then if plane = 0 then 0x20 else 0x07
        else t.mem plane (2 * cell) := by
    cases clearScr with
    | false => exact ⟨t.mem, rfl, fun plane hplane cell => rfl⟩
    | true =>
        rw [if_pos rfl]
        refine ⟨_, rfl, ?_⟩
        intro plane hplane cell
        apply if_congr
        · simp only [true_and]
          omega
        · rfl
        · rfl
  rw [hkept]
  have hseq := hloaded.seq
  have hgraphics := hloaded.graphics
  simp only [textTables, Tables.running, textSeq, textGraphics, List.tail_cons,
    List.forall_mem_cons] at hseq hgraphics
  obtain ⟨hreset, hclock, -, hmap, -⟩ := hseq
  obtain ⟨hg0, hg1, hg2, hg3, -, -, -, hg7, hg8, -⟩ := hgraphics
  refine ⟨⟨hloaded.misc, ?_, hloaded.crtc, hloaded.attr, ?_, hloaded.colours⟩, rfl, ?_, ?_⟩
  · simp only [textRunning, List.forall_mem_cons]
    refine ⟨hreset, ?_, rfl, hmap, rfl, List.forall_mem_nil _⟩
    have hblank : t.seq 1 = 0x20 := hclock
    show t.seq 1 &&& 0xDF ||| ((0 &&& 1 : UInt8) <<< (5 : UInt8)) = 0
    rw [hblank]
    rfl
  · simp only [textRunning, textTables, textGraphics, List.forall_mem_cons]
    exact ⟨hg0, hg1, hg2, hg3, rfl, rfl, rfl, hg7, hg8, List.forall_mem_nil _⟩
  · intro i hi j hj
    have hchar : (32 * i + j) / 32 = i := by omega
    have hrow : (32 * i + j) % 32 = j := by omega
    show (fontWritten { t with mem := mem } 256).mem 2 (32 * i + j) = _
    unfold fontWritten
    simp only [hchar, hrow, hi, hj, true_and, if_true]
  · intro cell
    have hplane0 := htext 0 (by decide) cell
    have hplane1 := htext 1 (by decide) cell
    show if clearScr = true ∧ cell < 0x4000 then
        mem 0 (2 * cell) = 0x20 ∧ mem 1 (2 * cell) = 0x07
      else mem 0 (2 * cell) = t.mem 0 (2 * cell) ∧ mem 1 (2 * cell) = t.mem 1 (2 * cell)
    by_cases hin : clearScr = true ∧ cell < 0x4000
    · rw [if_pos hin] at hplane0 hplane1 ⊢
      exact ⟨hplane0, hplane1⟩
    · rw [if_neg hin] at hplane0 hplane1 ⊢
      exact ⟨hplane0, hplane1⟩

/-! ## The screen meanwhile -/

/-- The sequencer shows no picture. -/
def Blank (v : Vga) : Prop := v.seq 1 &&& 0x20 = 0x20

/-- An access that does not bring the picture back. -/
def Quiet (access : Access) : Prop := ∀ v, Blank v → Blank (access v)

theorem quiet_outb {port : UInt16} (hport : port ≠ 0x03C5) (val : UInt8) :
    Quiet (outb port val) := by
  intro v hblank
  have hseq : (outb port val v).seq = v.seq := by
    unfold outb Vga.dacWrite
    split_ifs
    all_goals first | rfl | (split <;> rfl)
  rw [Blank, hseq]
  exact hblank

theorem quiet_outw {port : UInt16} (hport : port ≠ 0x03C5) (hnext : port + 1 ≠ 0x03C5)
    (w : UInt16) : Quiet (outw port w) :=
  fun v hblank => quiet_outb hnext _ _ (quiet_outb hport _ v hblank)

theorem quiet_outw_seq {w : UInt16} (hw : byteLow w = 1 → byteHigh w &&& 0x20 = 0x20) :
    Quiet (outw 0x03C4 w) := by
  intro v hblank
  rw [Blank, outw_seq]
  by_cases hone : byteLow w = 1
  · simp [hone, hw hone]
  · simp only [Function.update_of_ne (Ne.symm hone)]
    exact hblank

theorem quiet_storeByte (addr : ℕ) (byte : UInt8) : Quiet (storeByte addr byte) := by
  intro v hblank
  obtain ⟨mem, hstore⟩ := storeByte_mem addr byte v
  rw [hstore]
  exact hblank

theorem quiet_inbStatus : Quiet inbStatus := fun _ hblank => hblank

theorem quiet_loadTables {tables : Tables}
    (hdark : ∀ w ∈ tables.seq, byteLow w = 1 → byteHigh w &&& 0x20 = 0x20) :
    ∀ access ∈ (loadTables tables).drop 2, Quiet access := by
  have hrest : (loadTables tables).drop 2 = [inbStatus, outb 0x03C0 0x20] ++
      setSeqRegsAndReset tables.seq tables.misc ++ setCRTCRegisters tables.crtc ++
      setAttrRegisters tables.attr ++ setGraphicsRegisters tables.graphics ++
      fillPalette tables.colours := rfl
  have hseq : ∀ w ∈ tables.seq, Quiet (outw 0x03C4 w) :=
    fun w hw => quiet_outw_seq (hdark w hw)
  rw [hrest]
  simp only [setSeqRegsAndReset, setCRTCRegisters, setAttrRegisters, setGraphicsRegisters,
    fillPalette, repOutsw, repOutsb, List.forall_mem_append, List.forall_mem_cons,
    List.forall_mem_map]
  simp (disch := decide) [quiet_inbStatus, quiet_outb, quiet_outw, quiet_outw_seq]
  exact hseq

theorem quiet_clearScreens : ∀ access ∈ clearScreens, Quiet access := by
  simp only [clearScreens, setWriteMask, List.forall_mem_cons, List.forall_mem_map]
  refine ⟨?_, fun k _ => quiet_storeByte k 0⟩
  exact quiet_outw_seq (by decide)

theorem quiet_clearText : ∀ access ∈ clearText, Quiet access := by
  simp only [clearText, List.forall_mem_flatMap]
  intro i _
  simp [quiet_storeByte]

theorem quiet_writeFontData : ∀ access ∈ writeFontData, Quiet access := by
  simp only [writeFontData, List.forall_mem_append, List.forall_mem_cons, List.forall_mem_flatMap,
    List.forall_mem_map]
  simp (disch := decide) [quiet_storeByte, quiet_outw, quiet_outw_seq]

/-- Accesses that keep the screen blank, between the registers of a mode and the `VGA_blank` that
shows it. -/
theorem blank_meanwhile {tables : Tables} {rest before : List Access}
    (hdark : ∀ w ∈ tables.seq, byteLow w = 1 → byteHigh w &&& 0x20 = 0x20)
    (hrest : ∀ access ∈ rest, Quiet access)
    (hbefore : before <+: loadTables tables ++ rest ++ vgaBlank 0) (hfirst : 2 ≤ before.length)
    (hlast : before.length + 3 ≤ (loadTables tables ++ rest ++ vgaBlank 0).length) (v : Vga) :
    Blank (drive before v) := by
  -- The first two accesses set the bit of the sequencer, the last three clear it.
  have hopen : loadTables tables = (vgaBlank 1).take 2 ++ (loadTables tables).drop 2 := rfl
  have hclose : vgaBlank 0 = [outb 0x03C4 0x01] ++ (vgaBlank 0).drop 1 := rfl
  have hparts : loadTables tables ++ rest ++ vgaBlank 0 = (vgaBlank 1).take 2 ++
      ((loadTables tables).drop 2 ++ rest ++ [outb 0x03C4 0x01]) ++ (vgaBlank 0).drop 1 := by
    conv_lhs => rw [hopen, hclose]
    simp only [List.append_assoc]
  rw [hparts] at hbefore hlast
  apply drive_bracket _ _ hbefore hfirst
  · simp only [List.length_append] at hlast ⊢
    have hthree : ((vgaBlank 0).drop 1).length = 3 := rfl
    omega
  · have hset : drive ((vgaBlank 1).take 2) v = { v with
        seqIndex := 1
        seq := Function.update v.seq 1 (v.seq 1 &&& 0xDF ||| 0x20) } := rfl
    rw [hset]
    show (v.seq 1 &&& 0xDF ||| 0x20) &&& 0x20 = (0x20 : UInt8)
    apply UInt8.toBitVec_inj.mp
    rw [UInt8.toBitVec_and, UInt8.toBitVec_or, UInt8.toBitVec_and, BitVec.and_or_distrib_right,
      BitVec.and_assoc]
    simp
  · rw [List.forall_mem_append, List.forall_mem_append, List.forall_mem_singleton]
    exact ⟨⟨quiet_loadTables hdark, hrest⟩, quiet_outb (by decide) 1⟩

/-- **No picture of a mode that is half set**: wherever the setting of a mode is interrupted between
its second access and its last but two, the screen is blank. -/
theorem modes_blank (setting : List Access)
    (hsetting : setting = setModeXVga ∨ ∃ clearScr, setting = setTextMode3 clearScr)
    (before : List Access) (hbefore : before <+: setting) (hfirst : 2 ≤ before.length)
    (hlast : before.length + 3 ≤ setting.length) (v : Vga) : Blank (drive before v) := by
  rcases hsetting with rfl | ⟨clearScr, rfl⟩
  · have hdark : ∀ w ∈ modeXTables.seq, byteLow w = 1 → byteHigh w &&& 0x20 = 0x20 := by
      simp [modeXTables, modeXSeq, byteLow, byteHigh]
      decide
    exact blank_meanwhile hdark quiet_clearScreens hbefore hfirst hlast v
  · have hdark : ∀ w ∈ textTables.seq, byteLow w = 1 → byteHigh w &&& 0x20 = 0x20 := by
      simp [textTables, textSeq, byteLow, byteHigh]
      decide
    have hrest : ∀ access ∈ (if clearScr then clearText else []) ++ writeFontData,
        Quiet access := by
      rw [List.forall_mem_append]
      refine ⟨?_, quiet_writeFontData⟩
      cases clearScr with
      | false => exact List.forall_mem_nil _
      | true =>
          rw [if_pos rfl]
          exact quiet_clearText
    have hparts : setTextMode3 clearScr = loadTables textTables ++
        ((if clearScr then clearText else []) ++ writeFontData) ++ vgaBlank 0 := by
      rw [← List.append_assoc]
      rfl
    rw [hparts] at hbefore hlast
    exact blank_meanwhile hdark hrest hbefore hfirst hlast v

/-- A card that was never written. -/
def coldCard : Vga where
  misc := 0
  seqIndex := 0
  seq := fun _ => 0
  crtcIndex := 0
  crtc := fun _ => 0
  graphicsIndex := 0
  graphics := fun _ => 0
  attrIndex := 0
  attrData := false
  attr := fun _ => 0
  dacIndex := 0
  dacPart := []
  dac := fun _ => ⟨0, 0, 0⟩
  mem := fun _ _ => 0

theorem modes_blank_coldCard : Blank (drive (setModeXVga.take 40) coldCard) := by
  have hlength : 43 ≤ setModeXVga.length := by
    have hclear : clearScreens.length = modeXMemSize + 1 := by
      rw [clearScreens, List.length_cons, List.length_map, List.length_range]
    have hsize : modeXMemSize = 65536 := rfl
    rw [setModeXVga, List.length_append, List.length_append, hclear]
    omega
  apply modes_blank setModeXVga (Or.inl rfl) _ (List.take_prefix 40 setModeXVga)
  · rw [List.length_take]
    omega
  · rw [List.length_take]
    omega

end MachineProblems.Analysis.Adventure
