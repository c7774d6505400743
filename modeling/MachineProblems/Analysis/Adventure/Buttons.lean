import MachineProblems.Program.Adventure.Input
import MachineProblems.Program.Tuxctl
import Mathlib.Algebra.Group.Nat.Defs

/-!
# The buttons and the commands of the game

A report of the Tux controller has a bit for each button, which is zero while the button is held.
The driver joins these bits to one word, and `get_command` acts on the words of a single button: on
the four directions whenever it is called, on the others only when the word is not that of the last
call.  Over all calls of a game this is a reading of the sets of buttons held (`commands_pad`).
-/

set_option autoImplicit false

namespace MachineProblems.Analysis.Adventure

open MachineProblems.Program.Adventure
open MachineProblems.Program.Tuxctl (buttonWord)

/-! ## The word of the buttons held -/

/-- Which buttons are held. -/
structure Held where
  start : Bool
  a : Bool
  b : Bool
  c : Bool
  up : Bool
  left : Bool
  down : Bool
  right : Bool
  deriving DecidableEq

/-- The bit of a button. -/
def low (held : Bool) : ℕ := if held then 0 else 1

/-- The four bits of a byte of a report. -/
def reportBits (b₀ b₁ b₂ b₃ : Bool) : ℕ := low b₀ + 2 * low b₁ + 4 * low b₂ + 8 * low b₃

/-- The two bytes of a report; their upper halves do not matter. -/
structure Reports (held : Held) (p q : UInt8) : Prop where
  first : p.toNat % 16 = reportBits held.start held.a held.b held.c
  second : q.toNat % 16 = reportBits held.up held.left held.down held.right

/-- The word of the buttons held. -/
def heldWord (held : Held) : ℤ :=
  (reportBits held.start held.a held.b held.c : ℕ) +
    16 * (reportBits held.up held.left held.down held.right : ℕ)

/-- **What `TUX_BUTTONS` copies** for a report is the word of the buttons held. -/
theorem buttonWord_held {held : Held} {p q : UInt8} (h : Reports held p q) :
    ((buttonWord p q).toNat : ℤ) = heldWord held := by
  have hmask : ∀ n : ℕ, n &&& 0x0F = n % 16 := fun n => Nat.and_two_pow_sub_one_eq_mod n 4
  have hp : (p &&& 0x0F).toUInt32.toNat = p.toNat % 16 := hmask p.toNat
  have hq : (q &&& 0x0F).toUInt32.toNat = q.toNat % 16 := hmask q.toNat
  have hlt : p.toNat % 16 < 2 ^ 4 := Nat.mod_lt _ (by omega)
  have hshift : ((q &&& 0x0F).toUInt32 <<< (4 : UInt32)).toNat = (q.toNat % 16) <<< 4 := by
    show ((q &&& 0x0F).toUInt32.toNat <<< 4) % 4294967296 = _
    rw [hq, Nat.shiftLeft_eq]
    omega
  have hword : (buttonWord p q).toNat = 16 * (q.toNat % 16) + p.toNat % 16 := by
    rw [buttonWord, UInt32.toNat_or, hp, hshift, Nat.or_comm, ← Nat.shiftLeft_add_eq_or_of_lt hlt,
      Nat.shiftLeft_eq]
    omega
  rw [hword, h.first, h.second, heldWord]
  omega

theorem low_inj {held held' : Bool} : low held = low held' ↔ held = held' := by
  cases held <;> cases held' <;> simp [low]

theorem low_le (held : Bool) : low held ≤ 1 := by
  cases held <;> simp [low]

theorem reportBits_lt (b₀ b₁ b₂ b₃ : Bool) : reportBits b₀ b₁ b₂ b₃ < 16 := by
  have h0 := low_le b₀
  have h1 := low_le b₁
  have h2 := low_le b₂
  have h3 := low_le b₃
  unfold reportBits
  omega

theorem reportBits_inj {b₀ b₁ b₂ b₃ d₀ d₁ d₂ d₃ : Bool}
    (h : reportBits b₀ b₁ b₂ b₃ = reportBits d₀ d₁ d₂ d₃) :
    b₀ = d₀ ∧ b₁ = d₁ ∧ b₂ = d₂ ∧ b₃ = d₃ := by
  have h0 := low_le b₀
  have h1 := low_le b₁
  have h2 := low_le b₂
  have g0 := low_le d₀
  have g1 := low_le d₁
  have g2 := low_le d₂
  unfold reportBits at h
  rw [← low_inj, ← low_inj, ← low_inj, ← low_inj]
  omega

/-- **Different sets of buttons** have different words. -/
theorem heldWord_inj {held held' : Held} : heldWord held = heldWord held' ↔ held = held' := by
  constructor
  · intro hword
    have hlt := reportBits_lt held.start held.a held.b held.c
    have hlt' := reportBits_lt held'.start held'.a held'.b held'.c
    unfold heldWord at hword
    obtain ⟨h0, h1, h2, h3⟩ := reportBits_inj
      (show reportBits held.start held.a held.b held.c =
        reportBits held'.start held'.a held'.b held'.c by omega)
    obtain ⟨h4, h5, h6, h7⟩ := reportBits_inj
      (show reportBits held.up held.left held.down held.right =
        reportBits held'.up held'.left held'.down held'.right by omega)
    cases held
    cases held'
    simp_all
  · rintro rfl
    rfl

/-! ## The commands -/

/-- No button is held. -/
def released : Held := ⟨false, false, false, false, false, false, false, false⟩

/-- All buttons are held, as far as the words before the first report go. -/
def allHeld : Held := ⟨true, true, true, true, true, true, true, true⟩

/-- The command of a direction that is held alone. -/
def directionOf (held : Held) : Option CmdT :=
  if held = { released with up := true } then some .up
  else if held = { released with right := true } then some .right
  else if held = { released with down := true } then some .down
  else if held = { released with left := true } then some .left
  else none

/-- The command of another button that is held alone. -/
def pressOf (held : Held) : Option CmdT :=
  if held = { released with a := true } then some .moveLeft
  else if held = { released with b := true } then some .enter
  else if held = { released with c := true } then some .moveRight
  else if held = { released with start := true } then some .quit
  else none

/-- What a call makes of the buttons held at the last call and now: a direction acts as long as it
is held, another button when the buttons have changed, and else what was keyed. -/
def padCommand (last held : Held) (keyed : CmdT) : CmdT :=
  match directionOf held with
  | some cmd => cmd
  | none => if held = last then keyed else (pressOf held).getD keyed

theorem heldWord_eq_iff {held other : Held} {word : ℤ} (h : heldWord other = word) :
    heldWord held = word ↔ held = other := by
  rw [← h, heldWord_inj]

/-- **One call** of `get_tux_command`. -/
theorem getTuxCommand_held (last held : Held) (keyed : CmdT) :
    getTuxCommand (heldWord held) (heldWord last) keyed =
      (padCommand last held keyed, heldWord held) := by
  have hup : heldWord held = 239 ↔ held = { released with up := true } := heldWord_eq_iff rfl
  have hright : heldWord held = 127 ↔ held = { released with right := true } := heldWord_eq_iff rfl
  have hdown : heldWord held = 191 ↔ held = { released with down := true } := heldWord_eq_iff rfl
  have hleft : heldWord held = 223 ↔ held = { released with left := true } := heldWord_eq_iff rfl
  have ha : heldWord held = 253 ↔ held = { released with a := true } := heldWord_eq_iff rfl
  have hb : heldWord held = 251 ↔ held = { released with b := true } := heldWord_eq_iff rfl
  have hc : heldWord held = 247 ↔ held = { released with c := true } := heldWord_eq_iff rfl
  have hstart : heldWord held = 254 ↔ held = { released with start := true } := heldWord_eq_iff rfl
  simp only [getTuxCommand, padCommand, directionOf, pressOf, ← hup, ← hright, ← hdown, ← hleft,
    ← ha, ← hb, ← hc, ← hstart, ← @heldWord_inj held last]
  generalize heldWord held = word
  generalize heldWord last = word'
  split_ifs <;> first | rfl | omega | simp [*]

/-! ## All calls of a game -/

/-- What a call of `get_command` finds: the buttons held, a report of them, and the bytes typed. -/
structure Poll where
  held : Held
  p : UInt8
  q : UInt8
  bytes : List UInt8
  reports : Reports held p q

/-- What the calls return. -/
def commands : Keyboard → List Poll → List CmdT
  | _, [] => []
  | k, poll :: polls =>
      (getCommand k (buttonWord poll.p poll.q).toNat poll.bytes).1 ::
        commands (getCommand k (buttonWord poll.p poll.q).toNat poll.bytes).2.1 polls

/-- What is keyed, and the keyboard after it: a backquote ends the call before the buttons are
read. -/
def padCommands : Held → Input → List Poll → List CmdT
  | _, _, [] => []
  | last, s, poll :: polls =>
      match getCommandLoop { s with pushed := .none } poll.bytes with
      | (s, some _) => .quit :: padCommands last s polls
      | (s, none) => padCommand last poll.held s.pushed :: padCommands poll.held s polls

theorem commands_eq (polls : List Poll) : ∀ (last : Held) (typing : Typing) (state : ℕ)
    (pushed : CmdT), commands ⟨typing, state, heldWord last⟩ polls =
      padCommands last ⟨typing, state, pushed⟩ polls := by
  induction polls with
  | nil => exact fun _ _ _ _ => rfl
  | cons poll polls ih =>
      intro last typing state pushed
      rw [commands, padCommands, buttonWord_held poll.reports, getCommand, Keyboard.input]
      cases hloop : getCommandLoop ⟨typing, state, .none⟩ poll.bytes with
      | mk s rest =>
          cases rest with
          | some rest => simp only [ih last s.typing s.state s.pushed]
          | none => simp only [getTuxCommand_held, ih poll.held s.typing s.state s.pushed]

/-- **The buttons and the commands**: whatever is reported and typed between the calls of
`get_command`, a direction that is held alone acts in every call, each other button that is held
alone in the first call that finds it so, and else what was keyed; before the first report no button
acts. -/
theorem commands_pad (polls : List Poll) :
    commands initKeyboard polls = padCommands allHeld initKeyboard.input polls :=
  commands_eq polls allHeld resetTypedCommand 0 .none

end MachineProblems.Analysis.Adventure
