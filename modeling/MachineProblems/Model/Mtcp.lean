import MachineProblems.Program.Tuxctl

/-!
# The Tux controller's protocol

What `mp2/module/mtcp.h` says of the bytes on the serial line, apart from any driver: which byte
strings are sequences of whole commands (`Commands`), how the controller answers a poll of its
displays (`ledsPoll`), and what a data byte lights on a seven-segment display (`shows`).
-/

set_option autoImplicit false

namespace MachineProblems.Model.Mtcp

open MachineProblems.Program.Tuxctl

/-! ## Sequences of commands -/

/-- `(b & MTCP_CMD_CHECK_MASK) == MTCP_CMD_CHECK`. -/
def isCommand (b : UInt8) : Bool := b &&& 0xE0 == 0xC0

/-- The number of displays a mask byte selects. -/
def ledCount (mask : UInt8) : ℕ :=
  ([0, 1, 2, 3].filter fun i => mask.toNat.testBit i).length

/-- **A sequence of whole commands**: a command byte, which `MTCP_LED_SET` follows up by a mask
and one byte for each display the mask selects. -/
inductive Commands : List UInt8 → Prop
  | none : Commands []
  | plain {b : UInt8} {rest : List UInt8} : isCommand b = true → b ≠ mtcpLedSet →
      Commands rest → Commands (b :: rest)
  | ledSet {mask : UInt8} {data rest : List UInt8} : data.length = ledCount mask →
      Commands rest → Commands (mtcpLedSet :: mask :: (data ++ rest))

/-- What follows whole commands is whole commands exactly if the two together are. -/
theorem Commands.append_iff {xs ys : List UInt8} (h : Commands xs) :
    Commands (xs ++ ys) ↔ Commands ys := by
  induction h with
  | none => rfl
  | @plain b rest hb hled hrest ih =>
      rw [← ih, List.cons_append]
      constructor
      · intro h
        generalize rest ++ ys = all at h ⊢
        cases h with
        | plain _ _ h => exact h
        | ledSet _ _ => exact absurd rfl hled
      · exact Commands.plain hb hled
  | @ledSet mask data rest hlen hrest ih =>
      rw [← ih, List.cons_append, List.cons_append, List.append_assoc]
      constructor
      · intro h
        generalize hall : data ++ (rest ++ ys) = all at h
        cases h with
        | plain _ h _ => exact absurd rfl h
        | @ledSet _ data' rest' hlen' h =>
            -- the mask fixes the length of the data, and with it where the next command starts
            obtain ⟨-, hrest'⟩ := List.append_inj hall (hlen.trans hlen'.symm)
            rw [hrest']
            exact h
      · exact Commands.ledSet hlen

/-- Every sequence of commands starts with a command byte. -/
theorem Commands.head {b : UInt8} {rest : List UInt8} (h : Commands (b :: rest)) :
    isCommand b = true := by
  cases h with
  | plain hb _ _ => exact hb
  | ledSet _ _ => decide

/-! ## The answer to a poll -/

/-- Segment A of a data byte, as a bit. -/
def segA (d : UInt8) : UInt8 := d >>> 7

/-- One of the two packets of an `MTCP_LEDS_POLL` answer, for two displays: their A segments go
into the opcode, and bit 7 of the data is forced to one. -/
def ledsPoll (op first second : UInt8) : UInt8 × UInt8 × UInt8 :=
  (op ||| segA second <<< (1 : UInt8) ||| segA first, first ||| 0x80, second ||| 0x80)

/-! ## Seven segments -/

/-- The segments of a display and its decimal point. -/
inductive Segment
  | a | b | c | d | e | f | g | dp
  deriving DecidableEq, Repr

namespace Segment

/-- All of them. -/
def all : List Segment := [.a, .b, .c, .d, .e, .f, .g, .dp]

theorem mem_all (s : Segment) : s ∈ all := by
  cases s <;> decide

instance {P : Segment → Prop} [DecidablePred P] : Decidable (∀ s, P s) :=
  decidable_of_iff (∀ s ∈ all, P s) ⟨fun h s => h s s.mem_all, fun h s _ => h s⟩

/-- The bit of a data byte that lights a segment. -/
def bit : Segment → ℕ
  | .a => 7 | .e => 6 | .f => 5 | .dp => 4 | .g => 3 | .c => 2 | .b => 1 | .d => 0

end Segment

/-- The display lights exactly the segments of `lit` for the data byte. -/
def shows (data : UInt8) (lit : List Segment) : Prop :=
  ∀ s : Segment, data.toNat.testBit s.bit = true ↔ s ∈ lit

instance (data : UInt8) (lit : List Segment) : Decidable (shows data lit) :=
  inferInstanceAs (Decidable (∀ s : Segment, data.toNat.testBit s.bit = true ↔ s ∈ lit))

/-- The decimal digits as a seven-segment display draws them, the nine without its foot. -/
def digit : ℕ → List Segment
  | 0 => [.a, .b, .c, .d, .e, .f]
  | 1 => [.b, .c]
  | 2 => [.a, .b, .d, .e, .g]
  | 3 => [.a, .b, .c, .d, .g]
  | 4 => [.b, .c, .f, .g]
  | 5 => [.a, .c, .d, .f, .g]
  | 6 => [.a, .c, .d, .e, .f, .g]
  | 7 => [.a, .b, .c]
  | 8 => [.a, .b, .c, .d, .e, .f, .g]
  | 9 => [.a, .b, .c, .f, .g]
  | _ => []

/-- Different digits are drawn differently, also with a decimal point. -/
theorem digit_injective {i j : ℕ} (hi : i < 10) (hj : j < 10)
    (h : ∀ s, s ∈ digit i ++ [.dp] ↔ s ∈ digit j ++ [.dp]) : i = j := by
  have hall : ∀ i < 10, ∀ j < 10,
      (∀ s, s ∈ digit i ++ [.dp] ↔ s ∈ digit j ++ [.dp]) → i = j := by decide
  exact hall i hi j hj h

/-- A display that leaves a leading zero blank. -/
def tens (i : ℕ) : List Segment := if i = 0 then [] else digit i

theorem tens_injective {i j : ℕ} (hi : i < 10) (hj : j < 10)
    (h : ∀ s, s ∈ tens i ↔ s ∈ tens j) : i = j := by
  have hall : ∀ i < 10, ∀ j < 10, (∀ s, s ∈ tens i ↔ s ∈ tens j) → i = j := by decide
  exact hall i hi j hj h

/-! ## The clock -/

/-- **The bytes show `minutes:seconds`**: a command for all four displays, with the seconds on the
first two, the minutes on the other two behind a decimal point, and no leading zero. -/
def ShowsClock (bytes : List UInt8) (minutes seconds : ℕ) : Prop :=
  ∃ led0 led1 led2 led3, bytes = [mtcpLedSet, 0xF, led0, led1, led2, led3] ∧
    shows led0 (digit (seconds % 10)) ∧ shows led1 (digit (seconds / 10)) ∧
    shows led2 (digit (minutes % 10) ++ [.dp]) ∧ shows led3 (tens (minutes / 10))

/-- The displays show one number of minutes only. -/
theorem ShowsClock.minutes_unique {bytes : List UInt8} {m m' s s' : ℕ} (hm : m < 100)
    (hm' : m' < 100) (h : ShowsClock bytes m s) (h' : ShowsClock bytes m' s') : m = m' := by
  obtain ⟨_, _, led2, led3, hbytes, _, _, hunits, htens⟩ := h
  obtain ⟨_, _, _, _, hbytes', _, _, hunits', htens'⟩ := h'
  rw [hbytes] at hbytes'
  simp only [List.cons.injEq, and_true, true_and] at hbytes'
  obtain ⟨-, -, rfl, rfl⟩ := hbytes'
  have hu : m % 10 = m' % 10 := digit_injective (Nat.mod_lt _ (by decide))
    (Nat.mod_lt _ (by decide)) fun s => (hunits s).symm.trans (hunits' s)
  have ht : m / 10 = m' / 10 := tens_injective (by omega) (by omega)
    fun s => (htens s).symm.trans (htens' s)
  omega

end MachineProblems.Model.Mtcp
