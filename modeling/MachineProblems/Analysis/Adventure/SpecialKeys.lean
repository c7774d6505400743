import MachineProblems.Program.Adventure.Input

/-!
# Special keys

The recogniser of `get_command` in `mp2/input.c` is in its state 0 exactly if the bytes read so far
can be cut into whole pieces: bytes that are no escape, and escape sequences that end as the
recogniser takes them to end (`state_eq_zero_iff`).  A special key that comes then is recognised;
one that comes behind an unfinished sequence completes that sequence with its escape byte, is not
recognised, and its letter is typed (`keys_recognised_iff`, `key_typed`).
-/

set_option autoImplicit false

namespace MachineProblems.Analysis.Adventure

open MachineProblems.Program.Adventure

/-! ## Keys -/

/-- The keys that `get_command` looks for. -/
inductive SpecialKey where
  | up
  | down
  | right
  | left
  | insert
  | home
  | pageUp
  deriving DecidableEq

/-- What the terminal sends for a key. -/
def SpecialKey.bytes : SpecialKey → List UInt8
  | .up => [27, 91, 0x41]
  | .down => [27, 91, 0x42]
  | .right => [27, 91, 0x43]
  | .left => [27, 91, 0x44]
  | .insert => [27, 91, 0x32, 0x7E]
  | .home => [27, 91, 0x31, 0x7E]
  | .pageUp => [27, 91, 0x35, 0x7E]

/-- The letter or digit among these bytes. -/
def SpecialKey.letter : SpecialKey → UInt8
  | .up => 0x41
  | .down => 0x42
  | .right => 0x43
  | .left => 0x44
  | .insert => 0x32
  | .home => 0x31
  | .pageUp => 0x35

/-- What a key is to do. -/
def SpecialKey.command : SpecialKey → CmdT
  | .up => .up
  | .down => .down
  | .right => .right
  | .left => .left
  | .insert => .moveLeft
  | .home => .enter
  | .pageUp => .moveRight

/-- The key sets `pushed` to its command, whatever it was, and leaves the text as it was. -/
def Recognised (s : Input) (key : SpecialKey) : Prop :=
  (∀ pushed, (consume { s with pushed := pushed } key.bytes).pushed = key.command) ∧
    (consume s key.bytes).typing.text = s.typing.text

/-! ## Whole pieces -/

/-- **The bytes can be cut into whole pieces**: a byte other than an escape, an escape and a byte
other than a bracket, the two and a byte that is none of the three digits, and the three and any
byte, be it a tilde or not. -/
inductive WholePieces : List UInt8 → Prop
  | nil : WholePieces []
  | byte {ch : UInt8} {rest : List UInt8} (hch : ch ≠ 27) (hrest : WholePieces rest) :
      WholePieces (ch :: rest)
  | escape {ch : UInt8} {rest : List UInt8} (hch : ch ≠ 91) (hrest : WholePieces rest) :
      WholePieces (27 :: ch :: rest)
  | bracket {ch : UInt8} {rest : List UInt8} (hch : editKey ch = none) (hrest : WholePieces rest) :
      WholePieces (27 :: 91 :: ch :: rest)
  | digit {d ch : UInt8} {rest : List UInt8} (hd : (editKey d).isSome = true)
      (hrest : WholePieces rest) : WholePieces (27 :: 91 :: d :: ch :: rest)

/-- What the recogniser has read when it is in a state: behind whole pieces, the part of a sequence
that the state stands for. -/
def Pending (state : ℕ) (bytes : List UInt8) : Prop :=
  match state with
  | 0 => WholePieces bytes
  | 1 => ∃ whole, WholePieces whole ∧ bytes = whole ++ [27]
  | 2 => ∃ whole, WholePieces whole ∧ bytes = whole ++ [27, 91]
  | 3 => ∃ whole d, WholePieces whole ∧ (editKey d).isSome = true ∧ bytes = whole ++ [27, 91, d]
  | _ => False

theorem WholePieces.append {bytes bytes' : List UInt8} (h : WholePieces bytes)
    (h' : WholePieces bytes') :
    WholePieces (bytes ++ bytes') := by
  induction h with
  | nil => exact h'
  | byte hch _ ih => exact .byte hch ih
  | escape hch _ ih => exact .escape hch ih
  | bracket hch _ ih => exact .bracket hch ih
  | digit hd _ ih => exact .digit hd ih

/-! ## The states -/

@[simp] theorem typeOrEnter_state (s : Input) (ch : UInt8) :
    (typeOrEnter s ch).state = s.state := by
  unfold typeOrEnter
  split_ifs <;> rfl

theorem editKey_of_arrowKey {ch : UInt8} {cmd : CmdT} (h : arrowKey ch = some cmd) :
    editKey ch = none := by
  unfold arrowKey at h
  split_ifs at h with hA hB hC hD
  · rw [hA]; rfl
  · rw [hB]; rfl
  · rw [hC]; rfl
  · rw [hD]; rfl

/-- **What a byte does to the state**, in each of the four states. -/
theorem keyboard_zero {s : Input} (h : s.state = 0) (ch : UInt8) :
    (keyboard s ch).state = if ch = 27 then 1 else 0 := by
  have hbody : keyboard s ch =
      if ch = 27 then { s with state := 1 } else typeOrEnter s ch := by
    unfold keyboard
    rw [h]
    rfl
  rw [hbody]
  split_ifs
  · rfl
  · rw [typeOrEnter_state, h]

theorem keyboard_one {s : Input} (h : s.state = 1) (ch : UInt8) :
    (keyboard s ch).state = if ch = 91 then 2 else 0 := by
  have hbody : keyboard s ch =
      if ch = 91 then { s with state := 2 } else typeOrEnter { s with state := 0 } ch := by
    unfold keyboard
    rw [h]
    rfl
  rw [hbody]
  split_ifs
  · rfl
  · rw [typeOrEnter_state]

theorem keyboard_two {s : Input} (h : s.state = 2) (ch : UInt8) :
    (keyboard s ch).state = if (editKey ch).isSome then 3 else 0 := by
  unfold keyboard
  rw [h]
  cases harrow : arrowKey ch with
  | some cmd =>
      rw [editKey_of_arrowKey harrow]
      rfl
  | none =>
      cases hedit : editKey ch with
      | some cmd => rfl
      | none => exact typeOrEnter_state _ ch

theorem keyboard_three {s : Input} (h : s.state = 3) (ch : UInt8) : (keyboard s ch).state = 0 := by
  have hbody : keyboard s ch =
      if ch = 0x7E then { s with state := 0 } else typeOrEnter { s with state := 0 } ch := by
    unfold keyboard
    rw [h]
    rfl
  rw [hbody]
  split_ifs
  · rfl
  · rw [typeOrEnter_state]

/-- There are no other states, and nothing happens in them. -/
theorem keyboard_other {s : Input} {n : ℕ} (h : s.state = n + 4) (ch : UInt8) :
    keyboard s ch = s := by
  unfold keyboard
  rw [h]
  rfl

/-- **The step**: a byte takes what was read to what the next state stands for. -/
theorem Pending.step {s : Input} {bytes : List UInt8} (h : Pending s.state bytes) (ch : UInt8) :
    Pending (keyboard s ch).state (bytes ++ [ch]) := by
  match hstate : s.state with
  | 0 =>
      rw [hstate] at h
      rw [keyboard_zero hstate]
      by_cases hch : ch = 27
      · rw [if_pos hch, hch]
        exact ⟨bytes, h, rfl⟩
      · rw [if_neg hch]
        exact WholePieces.append h (.byte hch .nil)
  | 1 =>
      rw [hstate] at h
      obtain ⟨whole, hwhole, rfl⟩ := h
      rw [keyboard_one hstate, List.append_assoc]
      by_cases hch : ch = 91
      · rw [if_pos hch, hch]
        exact ⟨whole, hwhole, rfl⟩
      · rw [if_neg hch]
        exact hwhole.append (.escape hch .nil)
  | 2 =>
      rw [hstate] at h
      obtain ⟨whole, hwhole, rfl⟩ := h
      rw [keyboard_two hstate, List.append_assoc]
      by_cases hch : (editKey ch).isSome = true
      · rw [if_pos hch]
        exact ⟨whole, ch, hwhole, hch, rfl⟩
      · rw [if_neg hch]
        exact hwhole.append (.bracket (by simpa using hch) .nil)
  | 3 =>
      rw [hstate] at h
      obtain ⟨whole, d, hwhole, hd, rfl⟩ := h
      rw [keyboard_three hstate, List.append_assoc]
      exact hwhole.append (.digit hd .nil)
  | n + 4 =>
      rw [hstate] at h
      exact h.elim

/-- **The run**: what the recogniser has read is what its state stands for. -/
theorem Pending.consume {s : Input} {bytes : List UInt8} (h : Pending s.state bytes)
    (more : List UInt8) : Pending (consume s more).state (bytes ++ more) := by
  induction more generalizing s bytes with
  | nil =>
      rw [List.append_nil]
      exact h
  | cons ch more ih =>
      rw [List.append_cons]
      exact ih (h.step ch)

theorem keyboard_escape {s : Input} (h : s.state = 0) : (keyboard s 27).state = 1 := by
  rw [keyboard_zero h, if_pos rfl]

theorem keyboard_escape_bracket {s : Input} (h : s.state = 0) :
    (keyboard (keyboard s 27) 91).state = 2 := by
  rw [keyboard_one (keyboard_escape h), if_pos rfl]

/-- Whole pieces lead from state 0 to state 0. -/
theorem WholePieces.state_eq_zero {bytes : List UInt8} (h : WholePieces bytes) :
    ∀ s : Input, s.state = 0 → (consume s bytes).state = 0 := by
  induction h with
  | nil => exact fun s hs => hs
  | @byte ch rest hch _ ih =>
      intro s hs
      refine ih (keyboard s ch) ?_
      rw [keyboard_zero hs, if_neg hch]
  | @escape ch rest hch _ ih =>
      intro s hs
      refine ih (keyboard (keyboard s 27) ch) ?_
      rw [keyboard_one (keyboard_escape hs), if_neg hch]
  | @bracket ch rest hch _ ih =>
      intro s hs
      refine ih (keyboard (keyboard (keyboard s 27) 91) ch) ?_
      rw [keyboard_two (keyboard_escape_bracket hs), hch]
      rfl
  | @digit d ch rest hd _ ih =>
      intro s hs
      have hdigit : (keyboard (keyboard (keyboard s 27) 91) d).state = 3 := by
        rw [keyboard_two (keyboard_escape_bracket hs), if_pos hd]
      exact ih (keyboard (keyboard (keyboard (keyboard s 27) 91) d) ch) (keyboard_three hdigit ch)

/-- **State 0 means that nothing is pending.** -/
theorem state_eq_zero_iff {s : Input} (h : s.state = 0) (bytes : List UInt8) :
    (consume s bytes).state = 0 ↔ WholePieces bytes := by
  have hstart : Pending s.state [] := by
    rw [h]
    exact WholePieces.nil
  constructor
  · intro hend
    have hpending := hstart.consume bytes
    rw [hend] at hpending
    exact hpending
  · exact fun hwhole => hwhole.state_eq_zero s h

/-! ## Calls -/

theorem keyboard_state_congr {s s' : Input} (h : s.state = s'.state) (ch : UInt8) :
    (keyboard s ch).state = (keyboard s' ch).state := by
  match hstate : s'.state with
  | 0 => rw [keyboard_zero (h.trans hstate), keyboard_zero hstate]
  | 1 => rw [keyboard_one (h.trans hstate), keyboard_one hstate]
  | 2 => rw [keyboard_two (h.trans hstate), keyboard_two hstate]
  | 3 => rw [keyboard_three (h.trans hstate), keyboard_three hstate]
  | n + 4 =>
      rw [keyboard_other (h.trans hstate), keyboard_other hstate]
      exact h

/-- The text and `pushed` have no say in the state. -/
theorem consume_state_congr {s s' : Input} (h : s.state = s'.state) (bytes : List UInt8) :
    (consume s bytes).state = (consume s' bytes).state := by
  induction bytes generalizing s s' with
  | nil => exact h
  | cons ch bytes ih => exact ih (keyboard_state_congr h ch)

theorem getCommandLoop_eq {s : Input} {bytes : List UInt8} (h : 0x60 ∉ bytes) :
    getCommandLoop s bytes = (consume s bytes, none) := by
  induction bytes generalizing s with
  | nil => rfl
  | cons ch bytes ih =>
      rw [List.mem_cons, not_or] at h
      rw [getCommandLoop, if_neg (Ne.symm h.1)]
      exact ih h.2

/-- An event moves the state as its bytes do. -/
theorem after_state (k : Keyboard) {e : KeyboardEvent} (h : 0x60 ∉ e.bytes) :
    (k.after e).state = (consume k.input e.bytes).state := by
  cases e with
  | getCommand arg bytes =>
      have hloop : getCommandLoop k.input bytes = (consume k.input bytes, none) :=
        getCommandLoop_eq h
      show (getCommand k arg bytes).2.1.state = (consume k.input bytes).state
      unfold getCommand
      rw [hloop]
  | resetTypedCommand => rfl

/-- **What is read in several calls, with the text reset in between, moves the state as if it were
read in one.** -/
theorem foldl_after_state (k : Keyboard) {events : List KeyboardEvent}
    (h : 0x60 ∉ events.flatMap KeyboardEvent.bytes) :
    (events.foldl Keyboard.after k).state =
      (consume k.input (events.flatMap KeyboardEvent.bytes)).state := by
  induction events generalizing k with
  | nil => rfl
  | cons e events ih =>
      rw [List.flatMap_cons, List.mem_append, not_or] at h
      calc (events.foldl Keyboard.after (k.after e)).state
          = (consume (k.after e).input (events.flatMap KeyboardEvent.bytes)).state := ih _ h.2
        _ = (consume (consume k.input e.bytes) (events.flatMap KeyboardEvent.bytes)).state :=
            consume_state_congr (after_state k h.1) _
        _ = (consume k.input ((e :: events).flatMap KeyboardEvent.bytes)).state := by
            rw [List.flatMap_cons, consume, consume, consume, List.foldl_append]

/-! ## Recognised or typed -/

theorem recognised_of_state_zero {s : Input} (h : s.state = 0) (key : SpecialKey) :
    Recognised s key := by
  obtain ⟨typing, state, pushed⟩ := s
  obtain rfl : state = 0 := h
  cases key <;> exact ⟨fun _ => rfl, rfl⟩

/-- **A key that is not recognised is typed**: its escape byte ends the sequence pending, the
bracket is dropped, and the letter is taken for text. -/
theorem key_typed {s : Input} (h : s.state = 1 ∨ s.state = 2 ∨ s.state = 3) (key : SpecialKey) :
    consume s key.bytes = ⟨typedAChar s.typing key.letter, 0, s.pushed⟩ := by
  obtain ⟨typing, state, pushed⟩ := s
  obtain rfl | rfl | rfl : state = 1 ∨ state = 2 ∨ state = 3 := h
  · cases key <;> rfl
  · cases key <;> rfl
  · cases key <;> rfl

theorem SpecialKey.command_ne_none (key : SpecialKey) : key.command ≠ .none := by
  cases key <;> exact CmdT.noConfusion

theorem not_recognised_of_pending {s : Input} (h : s.state = 1 ∨ s.state = 2 ∨ s.state = 3)
    (key : SpecialKey) : ¬ Recognised s key := by
  intro hrec
  have hset := hrec.1 .none
  rw [key_typed (s := { s with pushed := .none }) h] at hset
  exact key.command_ne_none hset.symm

/-- The recogniser has no other states. -/
theorem Pending.state_cases {state : ℕ} {bytes : List UInt8} (h : Pending state bytes) :
    state = 0 ∨ state = 1 ∨ state = 2 ∨ state = 3 := by
  match state, h with
  | 0, _ => exact .inl rfl
  | 1, _ => exact .inr (.inl rfl)
  | 2, _ => exact .inr (.inr (.inl rfl))
  | 3, _ => exact .inr (.inr (.inr rfl))

/-- **Special keys**: whatever calls of `get_command` have read and whatever the present one has,
a special key that comes next is recognised, and nothing of it typed, exactly if the bytes before
it can be cut into whole pieces. -/
theorem keys_recognised_iff (events : List KeyboardEvent) (now : List UInt8)
    (h : 0x60 ∉ events.flatMap KeyboardEvent.bytes ++ now) (key : SpecialKey) :
    Recognised (consume (events.foldl Keyboard.after initKeyboard).input now) key ↔
      WholePieces (events.flatMap KeyboardEvent.bytes ++ now) := by
  rw [List.mem_append, not_or] at h
  have hstate : (consume (events.foldl Keyboard.after initKeyboard).input now).state =
      (consume initKeyboard.input (events.flatMap KeyboardEvent.bytes ++ now)).state := by
    calc (consume (events.foldl Keyboard.after initKeyboard).input now).state
        = (consume (consume initKeyboard.input (events.flatMap KeyboardEvent.bytes)) now).state :=
          consume_state_congr (foldl_after_state initKeyboard h.1) now
      _ = _ := by rw [consume, consume, consume, List.foldl_append]
  have hpending : Pending initKeyboard.input.state [] := WholePieces.nil
  have hcases := (hpending.consume (events.flatMap KeyboardEvent.bytes ++ now)).state_cases
  rw [← hstate] at hcases
  rw [← state_eq_zero_iff (s := initKeyboard.input) rfl, ← hstate]
  constructor
  · intro hrec
    exact hcases.resolve_right fun hother => not_recognised_of_pending hother key hrec
  · exact fun hzero => recognised_of_state_zero hzero key

/-- A key behind a word is recognised. -/
theorem keys_recognised_iff_word :
    Recognised (consume (([.getCommand 255 [0x67, 0x6F]] : List KeyboardEvent).foldl
      Keyboard.after initKeyboard).input []) .up := by
  have hword : WholePieces [0x67, 0x6F] := .byte (by decide) (.byte (by decide) .nil)
  exact (keys_recognised_iff [.getCommand 255 [0x67, 0x6F]] [] (by decide) .up).mpr hword

/-- Behind the escape key alone, the up key does nothing but type its letter. -/
theorem up_key_typed :
    ¬ Recognised (consume initKeyboard.input [27]) .up ∧
      (consume initKeyboard.input [27, 27, 91, 0x41]).typing.text = [0x41] := by
  refine ⟨fun hrec => ?_, rfl⟩
  have hset : (consume initKeyboard.input [27, 27, 91, 0x41]).pushed = .up := hrec.1 .none
  exact absurd hset (by decide)

end MachineProblems.Analysis.Adventure
