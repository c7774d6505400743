import MachineProblems.Analysis.Tuxctl
import MachineProblems.Library.Bits
import Mathlib.Tactic.IntervalCases

/-!
# The displays of the Tux controller

What the driver shows and what it remembers of it.  The clock thread packs minutes and seconds
into the argument of `TUX_SET_LED`, and the driver unpacks them into four data bytes: together they
show the time of every second up to 99:59, and from then on the right seconds under zero minutes
(`shows_clock_iff`).  The answer to a poll comes back into the display buffer display by display,
except that a display with its segment A lit changes places with its neighbour
(`polled_display_iff`).
-/

set_option autoImplicit false

namespace MachineProblems.Analysis.Tuxctl

open MachineProblems.Library (or_fields)
open MachineProblems.Program.Tuxctl
open MachineProblems.Model.Mtcp

variable (beyond : ℕ → UInt8)

/-! ## The argument of the clock thread -/

/-- The minutes `display_time_on_tux` passes on. -/
def minutesPassed (counter : ℕ) : ℕ := if 99 < counter / 60 then 0 else counter / 60

theorem minutesPassed_lt (counter : ℕ) : minutesPassed counter < 100 := by
  unfold minutesPassed
  split_ifs <;> omega

/-- The high half of the argument: all four displays, or all but the last, and one point. -/
def highHalf (minutes : ℕ) : ℕ := if minutes < 10 then 0xF4F7 else 0xF4FF

theorem toNat_bufTime (counter : ℕ) :
    (bufTime counter).toNat =
      (highHalf (minutesPassed counter) * 256 + minutesPassed counter) * 256 + counter % 60 := by
  have hm := minutesPassed_lt counter
  have hs : counter % 60 < 60 := Nat.mod_lt _ (by decide)
  have hsec : ¬ 59 < counter % 60 := by omega
  have hbyte {k : ℕ} (hk : k < 256) : (UInt32.ofNat k &&& 0x000000FF).toNat = k := by
    rw [UInt32.toNat_and, UInt32.toNat_ofNat', Nat.mod_eq_of_lt (by omega)]
    exact (Nat.and_two_pow_sub_one_eq_mod k 8).trans (Nat.mod_eq_of_lt hk)
  have hhigh : (if minutesPassed counter < 10 then (0xF4FF0000 : UInt32) &&& 0xFFF7FFFF
      else 0xF4FF0000).toNat = highHalf (minutesPassed counter) <<< (2 * 8) := by
    unfold highHalf
    split_ifs <;> rfl
  have hshift : ((UInt32.ofNat (minutesPassed counter) &&& 0x000000FF) <<< (8 : UInt32)).toNat =
      minutesPassed counter <<< 8 := by
    rw [UInt32.toNat_shiftLeft, hbyte (by omega)]
    show minutesPassed counter <<< 8 % 2 ^ 32 = _
    rw [Nat.shiftLeft_eq]
    exact Nat.mod_eq_of_lt (by omega)
  show ((if minutesPassed counter < 10 then (0xF4FF0000 : UInt32) &&& 0xFFF7FFFF
      else 0xF4FF0000) ||| (UInt32.ofNat (minutesPassed counter) &&& 0x000000FF) <<< (8 : UInt32) |||
      (UInt32.ofNat (if 59 < counter % 60 then 0 else counter % 60) &&& 0x000000FF)).toNat = _
  rw [if_neg hsec, UInt32.toNat_or, UInt32.toNat_or, hhigh, hshift, hbyte (by omega)]
  exact or_fields 8 (by omega) (by omega)

/-! ## Unpacking -/

/-- A byte of a word, cut out with a mask and a shift. -/
theorem toNat_field (arg : UInt32) (w k : ℕ) (mask shift : UInt32) (hk : k < 32)
    (hmask : mask.toNat = (2 ^ w - 1) <<< k) (hshift : shift.toNat = k) :
    ((arg &&& mask) >>> shift).toNat = arg.toNat / 2 ^ k % 2 ^ w := by
  rw [UInt32.toNat_shiftRight, UInt32.toNat_and, hmask, hshift, Nat.mod_eq_of_lt hk,
    Nat.shiftRight_and_distrib, Nat.shiftLeft_shiftRight, Nat.and_two_pow_sub_one_eq_mod,
    Nat.shiftRight_eq_div_pow]

section Unpacking

variable {arg : UInt32} {high minutes seconds : ℕ}
  (harg : arg.toNat = (high * 256 + minutes) * 256 + seconds)
  (hm : minutes < 256) (hs : seconds < 256)

include harg hm hs

theorem tempBufConvert_eq :
    tempBufConvert arg = #v[seconds % 10, seconds / 10, minutes % 10, minutes / 10] := by
  have hmin : ((arg &&& 0x0000FFFF &&& 0x0000FF00) >>> (8 : UInt32)).toNat = minutes := by
    rw [UInt32.and_assoc]
    refine (toNat_field arg 8 8 _ _ (by decide) (by decide) (by decide)).trans ?_
    omega
  have hsec : (arg &&& 0x0000FFFF &&& 0x000000FF).toNat = seconds := by
    rw [UInt32.and_assoc, UInt32.toNat_and]
    refine (Nat.and_two_pow_sub_one_eq_mod arg.toNat 8).trans ?_
    omega
  simp only [tempBufConvert, hmin, hsec]

theorem ledOn_eq : ((arg &&& 0x000F0000) >>> (16 : UInt32)).toNat = high % 16 := by
  refine (toNat_field arg 4 16 _ _ (by decide) (by decide) (by decide)).trans ?_
  omega

theorem dpOn_eq : ((arg &&& 0x0F000000) >>> (24 : UInt32)).toNat = high / 256 % 16 := by
  refine (toNat_field arg 4 24 _ _ (by decide) (by decide) (by decide)).trans ?_
  omega

end Unpacking

/-- The table draws the decimal digits, without and with a decimal point. -/
theorem shows_numsTable : ∀ i : Fin 10, shows numsTable[(i : ℕ)] (digit i) ∧
    shows (numsTable[(i : ℕ)] ||| 0x10) (digit i ++ [.dp]) := by
  decide

theorem shows_nums {i : ℕ} (hi : i < 10) :
    shows (nums beyond i) (digit i) ∧ shows (nums beyond i ||| 0x10) (digit i ++ [.dp]) := by
  unfold nums
  rw [dif_pos (by omega)]
  exact shows_numsTable ⟨i, hi⟩

/-- **The clock end to end**: the four data bytes show the minutes passed on and the seconds. -/
theorem showsClock_regularBuf (counter : ℕ) :
    ShowsClock (regularBuf beyond (bufTime counter)).toList (minutesPassed counter)
      (counter % 60) := by
  have hm := minutesPassed_lt counter
  have hs : counter % 60 < 60 := Nat.mod_lt _ (by decide)
  have harg := toNat_bufTime counter
  have hdigits := tempBufConvert_eq harg (by omega) (by omega)
  have hled := ledOn_eq harg (by omega) (by omega)
  have hdp := dpOn_eq harg (by omega) (by omega)
  generalize minutesPassed counter = minutes at *
  generalize counter % 60 = seconds at *
  have hpoint : highHalf minutes / 256 % 16 = 4 := by
    unfold highHalf
    split_ifs <;> rfl
  have hsec0 := shows_nums beyond (i := seconds % 10) (by omega)
  have hsec1 := shows_nums beyond (i := seconds / 10) (by omega)
  have hmin0 := shows_nums beyond (i := minutes % 10) (by omega)
  have hmin1 := shows_nums beyond (i := minutes / 10) (by omega)
  by_cases h : minutes < 10
  · have hlow : highHalf minutes % 16 = 7 := by
      unfold highHalf
      rw [if_pos h]
    have hzero : minutes / 10 = 0 := by omega
    refine ⟨_, _, _, _, rfl, ?_, ?_, ?_, ?_⟩
    all_goals
      unfold ledByte
      simp only [hdigits, hled, hdp, hpoint, hlow]
    · exact hsec0.1
    · exact hsec1.1
    · exact hmin0.2
    · -- the last display stays dark
      show shows 0 (tens (minutes / 10))
      rw [hzero]
      decide
  · have hlow : highHalf minutes % 16 = 15 := by
      unfold highHalf
      rw [if_neg h]
    have hpos : minutes / 10 ≠ 0 := by omega
    refine ⟨_, _, _, _, rfl, ?_, ?_, ?_, ?_⟩
    all_goals
      unfold ledByte
      simp only [hdigits, hled, hdp, hpoint, hlow]
    · exact hsec0.1
    · exact hsec1.1
    · exact hmin0.2
    · unfold tens
      rw [if_neg hpos]
      exact hmin1.1

/-- **The elapsed time, end to end**: the command that the driver sends for `counter` seconds shows
them as a clock that wraps after 99:59 exactly if it has not wrapped yet or is in a first minute
after wrapping. -/
theorem shows_clock_iff (s : Driver) (counter uncopied : ℕ) :
    (tuxctlIoctl beyond s tuxSetLed (bufTime counter) uncopied).1.puts =
        s.puts ++ recovery s ++ [(regularBuf beyond (bufTime counter)).toList] ∧
      (ShowsClock (regularBuf beyond (bufTime counter)).toList (counter / 60 % 100)
          (counter % 60) ↔
        counter / 60 < 100 ∨ counter / 60 % 100 = 0) := by
  refine ⟨puts_ioctl beyond s tuxSetLed (bufTime counter) uncopied, ?_⟩
  have hshown := showsClock_regularBuf beyond counter
  have hlt := minutesPassed_lt counter
  have hwrap : minutesPassed counter = counter / 60 % 100 ↔
      counter / 60 < 100 ∨ counter / 60 % 100 = 0 := by
    unfold minutesPassed
    split_ifs <;> omega
  rw [← hwrap]
  constructor
  · intro h
    exact hshown.minutes_unique hlt (Nat.mod_lt _ (by decide)) h
  · intro h
    rw [← h]
    exact hshown

/-- At 101:00 the displays show 0:00. -/
theorem not_shows_101_minutes :
    ¬ ShowsClock (regularBuf (fun _ => 0) (bufTime 6060)).toList (6060 / 60 % 100) (6060 % 60) := by
  intro h
  have hshown := showsClock_regularBuf (fun _ => 0) 6060
  exact absurd (hshown.minutes_unique (by decide) (by decide) h) (by decide)

/-! ## The answer to a poll -/

/-- A property of all bytes, byte by byte. -/
theorem byte_induction {P : UInt8 → Prop} (h : ∀ i : Fin 256, P (UInt8.ofNat i)) (d : UInt8) :
    P d := by
  have hd := h ⟨d.toNat, d.toNat_lt⟩
  rwa [UInt8.ofNat_toNat] at hd

theorem segA_cases (d : UInt8) : segA d = 0 ∨ segA d = 1 := by
  revert d
  exact byte_induction (by decide +kernel)

/-- Segment A off: the other segments are the byte. -/
theorem unpoll_off {d : UInt8} (h : segA d = 0) : (d ||| 0x80) &&& 0x7F = d := by
  have hall : ∀ d : UInt8, segA d = 0 → (d ||| 0x80) &&& 0x7F = d := by
    apply byte_induction
    decide +kernel
  exact hall d h

/-- Segment A on: bit 7 is set already. -/
theorem unpoll_on {d : UInt8} (h : segA d = 1) : d ||| 0x80 ||| 0x80 = d := by
  have hall : ∀ d : UInt8, segA d = 1 → d ||| 0x80 ||| 0x80 = d := by
    apply byte_induction
    decide +kernel
  exact hall d h

/-- An opcode of `MTCP_LEDS_POLL`. -/
def isPoll (op : UInt8) : Prop := op = mtcpLedsPoll0 ∨ op = mtcpLedsPoll1

/-- The A segments of an answer choose one of four consecutive opcodes. -/
theorem poll_opcodes {op : UInt8} (hop : isPoll op) :
    op ||| (0 : UInt8) <<< (1 : UInt8) ||| 0 = op ∧
      op ||| (0 : UInt8) <<< (1 : UInt8) ||| 1 = op + 1 ∧
      op ||| (1 : UInt8) <<< (1 : UInt8) ||| 0 = op + 2 ∧
      op ||| (1 : UInt8) <<< (1 : UInt8) ||| 1 = op + 3 := by
  rcases hop with rfl | rfl <;> decide

theorem poll_opcodes_ne {op : UInt8} (hop : isPoll op) :
    op + 1 ≠ op ∧ op + 2 ≠ op ∧ op + 2 ≠ op + 1 ∧ op + 3 ≠ op ∧ op + 3 ≠ op + 1 ∧
      op + 3 ≠ op + 2 := by
  rcases hop with rfl | rfl <;> decide

/-- **What the switch makes of an answer**: the two displays are stored in order, or the other way
round if segment A of the first is lit. -/
theorem processRcvdPckt_ledsPoll {op : UInt8} (hop : isPoll op) (pos : Fin 5) (s : Driver)
    (d d' : UInt8) :
    processRcvdPckt op pos s (ledsPoll op d d').1 (ledsPoll op d d').2.1 (ledsPoll op d d').2.2 =
      if segA d = 0 then s.storeLeds pos d d' else s.storeLeds pos d' d := by
  obtain ⟨h00, h10, h01, h11⟩ := poll_opcodes hop
  obtain ⟨h1, h2, h21, h3, h31, h32⟩ := poll_opcodes_ne hop
  unfold processRcvdPckt ledsPoll
  dsimp only
  rcases segA_cases d with h | h <;> rcases segA_cases d' with h' | h' <;> rw [h, h']
  · rw [h00, if_pos rfl, if_pos rfl, unpoll_off h, unpoll_off h']
  · rw [h01, if_neg h2, if_neg h21, if_pos rfl, if_pos rfl, unpoll_off h, unpoll_on h']
  · rw [h10, if_neg h1, if_pos rfl, if_neg (by decide), unpoll_off h', unpoll_on h]
  · rw [h11, if_neg h3, if_neg h31, if_neg h32, if_pos rfl, if_neg (by decide), unpoll_on h,
      unpoll_on h']

/-- The switch of the packet handler sends each half of an answer to its own function. -/
theorem handlePacket_ledsPoll0 (s : Driver) (d d' : UInt8) :
    tuxctlHandlePacket s (ledsPoll mtcpLedsPoll0 d d') =
      if segA d = 0 then s.storeLeds 2 d d' else s.storeLeds 2 d' d := by
  refine Eq.trans ?_ (processRcvdPckt_ledsPoll (.inl rfl) 2 s d d')
  unfold ledsPoll
  rcases segA_cases d with h | h <;> rcases segA_cases d' with h' | h' <;> rw [h, h'] <;> rfl

theorem handlePacket_ledsPoll1 (s : Driver) (d d' : UInt8) :
    tuxctlHandlePacket s (ledsPoll mtcpLedsPoll1 d d') =
      { (if segA d = 0 then s.storeLeds 4 d d' else s.storeLeds 4 d' d) with ledPollFlag := 1 } := by
  rw [← processRcvdPckt_ledsPoll (.inr rfl) 4 s d d']
  unfold ledsPoll
  rcases segA_cases d with h | h <;> rcases segA_cases d' with h' | h' <;> rw [h, h'] <;> rfl

/-- Both halves of an answer stored, in either order. -/
theorem storeLeds_storeLeds (s : Driver) (x y z w : UInt8) :
    ((s.storeLeds 2 x y).storeLeds 4 z w).ledRegularBuffer = shown s x y z w ∧
      ((s.storeLeds 4 z w).storeLeds 2 x y).ledRegularBuffer = shown s x y z w := by
  unfold Driver.storeLeds shown
  generalize s.ledRegularBuffer = v
  obtain ⟨⟨bytes⟩, hlen⟩ := v
  match bytes, hlen with
  | [b0, b1, b2, b3, b4, b5], _ => exact ⟨rfl, rfl⟩

/-- What the two packets of an answer leave in the display buffer, whichever comes first. -/
theorem leds_ledsPoll (s : Driver) (d0 d1 d2 d3 : UInt8) :
    let x := if segA d0 = 0 then d0 else d1
    let y := if segA d0 = 0 then d1 else d0
    let z := if segA d2 = 0 then d2 else d3
    let w := if segA d2 = 0 then d3 else d2
    (tuxctlHandlePacket (tuxctlHandlePacket s (ledsPoll mtcpLedsPoll0 d0 d1))
        (ledsPoll mtcpLedsPoll1 d2 d3)).ledRegularBuffer = shown s x y z w ∧
      (tuxctlHandlePacket (tuxctlHandlePacket s (ledsPoll mtcpLedsPoll1 d2 d3))
        (ledsPoll mtcpLedsPoll0 d0 d1)).ledRegularBuffer = shown s x y z w := by
  have hboth := storeLeds_storeLeds s
  simp only [handlePacket_ledsPoll0, handlePacket_ledsPoll1]
  split_ifs
  · exact hboth d0 d1 d2 d3
  · exact hboth d1 d0 d2 d3
  · exact hboth d0 d1 d3 d2
  · exact hboth d1 d0 d3 d2

theorem shown_injective (s : Driver) {x y z w d0 d1 d2 d3 : UInt8} :
    shown s x y z w = shown s d0 d1 d2 d3 ↔ (x = d0 ∧ y = d1) ∧ z = d2 ∧ w = d3 := by
  simp [shown, and_assoc]

/-- Two displays read back as they were unless they changed places. -/
theorem in_order_iff (d d' : UInt8) :
    ((if segA d = 0 then d else d') = d ∧ (if segA d = 0 then d' else d) = d') ↔
      segA d = 0 ∨ d = d' := by
  split_ifs with h
  · exact iff_of_true ⟨rfl, rfl⟩ (.inl h)
  · exact ⟨fun hd => .inr hd.2, fun hd => ⟨(hd.resolve_left h).symm, hd.resolve_left h⟩⟩

/-- **The polled display**: the answer to a poll leaves the displays in the buffer as they are,
whichever packet comes first, exactly if in each packet segment A of the first display is dark or
the two displays are alike. -/
theorem polled_display_iff (s : Driver) (d0 d1 d2 d3 : UInt8) :
    ((tuxctlHandlePacket (tuxctlHandlePacket s (ledsPoll mtcpLedsPoll0 d0 d1))
          (ledsPoll mtcpLedsPoll1 d2 d3)).ledRegularBuffer = shown s d0 d1 d2 d3 ↔
        (segA d0 = 0 ∨ d0 = d1) ∧ (segA d2 = 0 ∨ d2 = d3)) ∧
      ((tuxctlHandlePacket (tuxctlHandlePacket s (ledsPoll mtcpLedsPoll1 d2 d3))
          (ledsPoll mtcpLedsPoll0 d0 d1)).ledRegularBuffer = shown s d0 d1 d2 d3 ↔
        (segA d0 = 0 ∨ d0 = d1) ∧ (segA d2 = 0 ∨ d2 = d3)) := by
  obtain ⟨hinOrder, hreverse⟩ := leds_ledsPoll s d0 d1 d2 d3
  rw [hinOrder, hreverse, shown_injective, in_order_iff, in_order_iff]
  exact ⟨Iff.rfl, Iff.rfl⟩

/-- A seven beside a blank display comes back on the wrong side. -/
theorem polled_seven_moves :
    (tuxctlHandlePacket (tuxctlHandlePacket Driver.load (ledsPoll mtcpLedsPoll0 0x86 0))
        (ledsPoll mtcpLedsPoll1 0 0)).ledRegularBuffer = #v[0, 0, 0, 0x86, 0, 0] ∧
      (tuxctlHandlePacket (tuxctlHandlePacket Driver.load (ledsPoll mtcpLedsPoll0 0x86 0))
        (ledsPoll mtcpLedsPoll1 0 0)).ledRegularBuffer ≠ shown Driver.load 0x86 0 0 0 := by
  decide

end MachineProblems.Analysis.Tuxctl
