import Mathlib.Data.List.Basic
import Mathlib.Data.Int.Notation

/-!
# Keyboard input of the adventure game

`mp2/input.c` as it is compiled, with `USE_TUX_CONTROLLER` equal to 0: the command line being
typed, the recogniser of the special keys in `get_command`, and the buttons of the Tux controller
that `get_command` asks for at its end.  The variable `command` is left out, which is only ever
set to `CMD_NONE`, and so is the terminal.
-/

set_option autoImplicit false

namespace MachineProblems.Program.Adventure

/-- `cmd_t`. -/
inductive CmdT where
  | none
  | right
  | left
  | up
  | down
  | moveLeft
  | enter
  | moveRight
  | typed
  | quit
  deriving DecidableEq

/-! ## Typing -/

/-- `MAX_TYPED_LEN`. -/
def maxTypedLen : ℕ := 20

/-- The string in the array `typing`. -/
structure Typing where
  text : List UInt8
  bounded : text.length ≤ maxTypedLen

/-- `reset_typed_command`; the array also starts out like this. -/
def resetTypedCommand : Typing := ⟨[], Nat.zero_le _⟩

/-- `isalpha`. -/
def isalpha (c : UInt8) : Bool := (0x41 ≤ c && c ≤ 0x5A) || (0x61 ≤ c && c ≤ 0x7A)

/-- `isdigit`. -/
def isdigit (c : UInt8) : Bool := 0x30 ≤ c && c ≤ 0x39

/-- `valid_typing`. -/
def validTyping (c : UInt8) : Bool := isalpha c || isdigit c || 0x20 == c || 8 == c || 127 == c

/-- `typed_a_char`. -/
def typedAChar (t : Typing) (c : UInt8) : Typing :=
  if c = 8 ∨ c = 127 then
    ⟨t.text.dropLast, by
      rw [List.length_dropLast]
      exact Nat.sub_le_of_le_add (Nat.le_add_right_of_le t.bounded)⟩
  else if h : t.text.length < maxTypedLen then
    ⟨t.text ++ [c], by rw [List.length_append]; exact h⟩
  else t

/-! ## The special keys -/

/-- The variables of the loop of `get_command`: `typing`, the static `state` and `pushed`. -/
structure Input where
  typing : Typing
  state : ℕ
  pushed : CmdT

/-- What the four states do to a byte they have no other use for. -/
def typeOrEnter (s : Input) (ch : UInt8) : Input :=
  if validTyping ch then { s with typing := typedAChar s.typing ch }
  else if ch = 10 ∨ ch = 13 then { s with pushed := .typed }
  else s

/-- The inner `switch` of state 2 on `'A'` to `'D'`. -/
def arrowKey (ch : UInt8) : Option CmdT :=
  if ch = 0x41 then some .up
  else if ch = 0x42 then some .down
  else if ch = 0x43 then some .right
  else if ch = 0x44 then some .left
  else none

/-- The inner `switch` of state 2 on `'1'`, `'2'` and `'5'`. -/
def editKey (ch : UInt8) : Option CmdT :=
  if ch = 0x32 then some .moveLeft
  else if ch = 0x31 then some .enter
  else if ch = 0x35 then some .moveRight
  else none

/-- The `switch (state)` of `get_command`. -/
def keyboard (s : Input) (ch : UInt8) : Input :=
  match s.state with
  | 0 => if ch = 27 then { s with state := 1 } else typeOrEnter s ch
  | 1 => if ch = 91 then { s with state := 2 } else typeOrEnter { s with state := 0 } ch
  | 2 =>
      match arrowKey ch with
      | some cmd => { s with pushed := cmd, state := 0 }
      | none =>
          match editKey ch with
          | some cmd => { s with pushed := cmd, state := 3 }
          | none => typeOrEnter { s with state := 0 } ch
  | 3 => if ch = 0x7E then { s with state := 0 } else typeOrEnter { s with state := 0 } ch
  | _ => s

/-- Bytes one after the other. -/
def consume (s : Input) (bytes : List UInt8) : Input := bytes.foldl keyboard s

/-! ## Calls -/

/-- The variables that live from one call of `get_command` to the next. -/
structure Keyboard where
  typing : Typing
  state : ℕ
  pushedbutton : ℤ

/-- The variables before the first call. -/
def initKeyboard : Keyboard where
  typing := resetTypedCommand
  state := 0
  pushedbutton := 0

/-- `get_tux_command`, with what `TUX_BUTTONS` leaves in `arg`: the command and `pushedbutton`. -/
def getTuxCommand (arg pushedbutton : ℤ) (pushed : CmdT) : CmdT × ℤ :=
  let pushed :=
    if arg = 239 then .up
    else if arg = 127 then .right
    else if arg = 191 then .down
    else if arg = 223 then .left
    else pushed
  if arg = pushedbutton then (pushed, pushedbutton)
  else if arg = 253 then (.moveLeft, arg)
  else if arg = 251 then (.enter, arg)
  else if arg = 247 then (.moveRight, arg)
  else if arg = 254 then (.quit, arg)
  else (pushed, arg)

/-- The variables of the loop at the start of a call. -/
def Keyboard.input (k : Keyboard) : Input := ⟨k.typing, k.state, .none⟩

/-- The loop of `get_command` over the bytes up to `EOF`; a backquote ends it, and the bytes behind
it are left for the next call. -/
def getCommandLoop (s : Input) : List UInt8 → Input × Option (List UInt8)
  | [] => (s, none)
  | ch :: rest => if ch = 0x60 then (s, some rest) else getCommandLoop (keyboard s ch) rest

/-- `get_command`: the command, the variables left and the bytes left. -/
def getCommand (k : Keyboard) (arg : ℤ) (bytes : List UInt8) : CmdT × Keyboard × List UInt8 :=
  match getCommandLoop k.input bytes with
  | (s, some rest) => (.quit, ⟨s.typing, s.state, k.pushedbutton⟩, rest)
  | (s, none) =>
      let (pushed, pushedbutton) := getTuxCommand arg k.pushedbutton s.pushed
      (pushed, ⟨s.typing, s.state, pushedbutton⟩, [])

/-- What `game_loop` does to the keyboard: a call of `get_command` with the bytes it reads, or one
of `reset_typed_command`. -/
inductive KeyboardEvent where
  | getCommand (arg : ℤ) (bytes : List UInt8)
  | resetTypedCommand

/-- The keyboard after an event. -/
def Keyboard.after (k : Keyboard) : KeyboardEvent → Keyboard
  | .getCommand arg bytes => (Adventure.getCommand k arg bytes).2.1
  | .resetTypedCommand => { k with typing := Adventure.resetTypedCommand }

/-- The bytes an event reads. -/
def KeyboardEvent.bytes : KeyboardEvent → List UInt8
  | .getCommand _ bytes => bytes
  | .resetTypedCommand => []

end MachineProblems.Program.Adventure
