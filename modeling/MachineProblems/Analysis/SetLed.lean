import MachineProblems.Analysis.Displays

/-!
# The argument of `TUX_SET_LED`

The driver splits each of the two low bytes of the argument into its decimal digits.  Of a byte from
160 on the upper one is not a digit but an index behind `nums`, which is read if its display is to
be lit.
-/

set_option autoImplicit false

namespace MachineProblems.Analysis.Tuxctl

open MachineProblems.Program.Tuxctl

variable (beyond : ℕ → UInt8)

/-- The two bytes that are split. -/
def lowByte (arg : UInt32) : ℕ := arg.toNat % 256

def highByte (arg : UInt32) : ℕ := arg.toNat / 256 % 256

/-- The display `i` is to be lit. -/
def Lit (arg : UInt32) (i : Fin 4) : Prop := arg.toNat.testBit (16 + i)

instance (arg : UInt32) (i : Fin 4) : Decidable (Lit arg i) := by unfold Lit; infer_instance

/-- What the argument asks of the data byte of display `i`: the segments of an entry of the table,
or none, and the decimal point. -/
structure Displays (arg : UInt32) (i : Fin 4) (data : UInt8) : Prop where
  digit : Lit arg i → ∃ d : Fin 16, (tempBufConvert arg)[i] = d ∧ data &&& 0xEF = numsTable[d]
  dark : ¬ Lit arg i → data &&& 0xEF = 0
  point : data.toNat.testBit 4 = arg.toNat.testBit (24 + i)

/-- The ioctl sends and saves the command, the mask of all displays and the bytes asked for. -/
structure ShowsArgument (s : Driver) (arg : UInt32) (uncopied : ℕ) : Prop where
  sent : ∃ d0 d1 d2 d3, (tuxctlIoctl beyond s tuxSetLed arg uncopied).1.puts =
      s.puts ++ recovery s ++ [[mtcpLedSet, 0xF, d0, d1, d2, d3]] ∧
    (tuxctlIoctl beyond s tuxSetLed arg uncopied).1.ledRegularBuffer =
      #v[mtcpLedSet, 0xF, d0, d1, d2, d3] ∧
    Displays arg 0 d0 ∧ Displays arg 1 d1 ∧ Displays arg 2 d2 ∧ Displays arg 3 d3
  result : (tuxctlIoctl beyond s tuxSetLed arg uncopied).2 = 0

/-! ## One display -/

section Display

variable (arg : UInt32)

theorem toNat_split :
    arg.toNat = (arg.toNat / 65536 * 256 + highByte arg) * 256 + lowByte arg := by
  unfold highByte lowByte
  omega

theorem digits_eq : tempBufConvert arg =
    #v[lowByte arg % 10, lowByte arg / 10, highByte arg % 10, highByte arg / 10] :=
  tempBufConvert_eq (toNat_split arg) (Nat.mod_lt _ (by decide)) (Nat.mod_lt _ (by decide))

/-- The bit of a field that `i` counts from `k`. -/
theorem testBit_field {k : ℕ} (i : Fin 4) :
    (arg.toNat / 2 ^ k % 16).testBit i = arg.toNat.testBit (k + i) := by
  have hbit := Nat.testBit_mod_two_pow (arg.toNat / 2 ^ k) 4 i
  rw [show 2 ^ 4 = 16 from rfl] at hbit
  rw [hbit, decide_eq_true i.isLt, Bool.true_and, Nat.testBit_div_two_pow, Nat.add_comm]

theorem ledByte_eq (i : Fin 4) : ledByte beyond arg i =
    (if Lit arg i then nums beyond (tempBufConvert arg)[i] else 0) |||
      if arg.toNat.testBit (24 + i) then 0x10 else 0 := by
  have hled := toNat_field arg 4 16 0x000F0000 16 (by decide) (by decide) (by decide)
  have hdp := toNat_field arg 4 24 0x0F000000 24 (by decide) (by decide) (by decide)
  unfold ledByte
  dsimp only
  rw [hled, hdp, show 2 ^ 4 = 16 from rfl, testBit_field, testBit_field]
  unfold Lit
  cases arg.toNat.testBit (24 + i) with
  | true => rfl
  | false => exact UInt8.or_zero.symm

/-- The table leaves the decimal point alone. -/
theorem numsTable_point : ∀ d : Fin 16, ∀ point : Bool,
    (numsTable[d] ||| if point then 0x10 else 0) &&& 0xEF = numsTable[d] ∧
      (numsTable[d] ||| if point then 0x10 else 0).toNat.testBit 4 = point := by
  decide

/-- **One display** shows what is asked for exactly if it stays dark or its digit is one. -/
theorem displays_iff (i : Fin 4) :
    Displays arg i (ledByte beyond arg i) ↔ (Lit arg i → (tempBufConvert arg)[i] < 16) := by
  constructor
  · intro h hlit
    obtain ⟨d, hd, -⟩ := h.digit hlit
    rw [hd]
    exact d.isLt
  · intro h
    by_cases hlit : Lit arg i
    · let d : Fin 16 := ⟨(tempBufConvert arg)[i], h hlit⟩
      have hdata : ledByte beyond arg i =
          numsTable[d] ||| if arg.toNat.testBit (24 + i) then 0x10 else 0 := by
        rw [ledByte_eq, if_pos hlit, nums, dif_pos (h hlit)]
        rfl
      obtain ⟨hsegments, hpoint⟩ := numsTable_point d (arg.toNat.testBit (24 + i))
      rw [← hdata] at hsegments hpoint
      exact ⟨fun _ => ⟨d, rfl, hsegments⟩, fun hdark => absurd hlit hdark, hpoint⟩
    · have hdata : ledByte beyond arg i = if arg.toNat.testBit (24 + i) then 0x10 else 0 := by
        rw [ledByte_eq, if_neg hlit, UInt8.zero_or]
      refine ⟨fun h => absurd h hlit, fun _ => ?_, ?_⟩
      · rw [hdata]
        split_ifs <;> rfl
      · rw [hdata]
        cases arg.toNat.testBit (24 + i) <;> rfl

end Display

/-! ## The ioctl -/

/-- The ioctl shows its argument if each of its displays does. -/
theorem showsArgument_iff_displays (s : Driver) (arg : UInt32) (uncopied : ℕ) :
    ShowsArgument beyond s arg uncopied ↔ ∀ i, Displays arg i (ledByte beyond arg i) := by
  have hputs := puts_ioctl beyond s tuxSetLed arg uncopied
  have hleds := leds_ioctl beyond s tuxSetLed arg uncopied
  rw [if_pos rfl] at hleds
  constructor
  · rintro ⟨⟨d0, d1, d2, d3, -, hbuffer, h0, h1, h2, h3⟩, -⟩ i
    have hsame : regularBuf beyond arg = #v[mtcpLedSet, 0xF, d0, d1, d2, d3] :=
      hleds.symm.trans hbuffer
    match i with
    | 0 =>
        have hdata : ledByte beyond arg 0 = d0 := congrArg (fun v : Vector UInt8 6 => v[2]) hsame
        rw [hdata]
        exact h0
    | 1 =>
        have hdata : ledByte beyond arg 1 = d1 := congrArg (fun v : Vector UInt8 6 => v[3]) hsame
        rw [hdata]
        exact h1
    | 2 =>
        have hdata : ledByte beyond arg 2 = d2 := congrArg (fun v : Vector UInt8 6 => v[4]) hsame
        rw [hdata]
        exact h2
    | 3 =>
        have hdata : ledByte beyond arg 3 = d3 := congrArg (fun v : Vector UInt8 6 => v[5]) hsame
        rw [hdata]
        exact h3
  · intro h
    exact ⟨⟨_, _, _, _, hputs, hleds, h 0, h 1, h 2, h 3⟩, rfl⟩

/-- **`TUX_SET_LED` shows its argument** in every state of the driver exactly if neither of the two
displays of the tens is lit for a byte from 160 on. -/
theorem shows_argument_iff (s : Driver) (arg : UInt32) (uncopied : ℕ) :
    ShowsArgument beyond s arg uncopied ↔
      (Lit arg 1 → lowByte arg < 160) ∧ (Lit arg 3 → highByte arg < 160) := by
  rw [showsArgument_iff_displays]
  simp only [displays_iff, digits_eq]
  have hlow : lowByte arg < 256 := Nat.mod_lt _ (by decide)
  have hhigh : highByte arg < 256 := Nat.mod_lt _ (by decide)
  constructor
  · intro h
    have h1 : Lit arg 1 → lowByte arg / 10 < 16 := h 1
    have h3 : Lit arg 3 → highByte arg / 10 < 16 := h 3
    refine ⟨fun hlit => ?_, fun hlit => ?_⟩
    · have hdigit := h1 hlit
      omega
    · have hdigit := h3 hlit
      omega
  · rintro ⟨h1, h3⟩ i
    match i with
    | 0 => exact fun _ => (by omega : lowByte arg % 10 < 16)
    | 1 =>
        intro hlit
        have hbyte := h1 hlit
        exact (by omega : lowByte arg / 10 < 16)
    | 2 => exact fun _ => (by omega : highByte arg % 10 < 16)
    | 3 =>
        intro hlit
        have hbyte := h3 hlit
        exact (by omega : highByte arg / 10 < 16)

/-- The tens of 160 are read from behind the table. -/
theorem shows_behind_table : (tempBufConvert 0x000200A0)[1] = 16 ∧
    (∀ beyond, (regularBuf beyond 0x000200A0)[3] = beyond 0) ∧
    ¬ ShowsArgument (fun _ => 0) Driver.load 0x000200A0 0 := by
  refine ⟨by decide, fun beyond => rfl, fun h => ?_⟩
  have hdisplay := (showsArgument_iff_displays _ _ _ _).mp h 1
  exact absurd ((displays_iff _ _ 1).mp hdisplay (by decide)) (by decide)

end MachineProblems.Analysis.Tuxctl
