import MachineProblems.Program.Adventure.Game
import Mathlib.Data.List.TakeWhile

/-!
# Command lines

The lines that the player may type: a verb between spaces, and an argument.  A verb spells an
entry of the list of commands if it abbreviates the entry's name by no more than the entry allows.
-/

set_option autoImplicit false

namespace MachineProblems.Model

open MachineProblems.Program.Adventure

/-- A text of spaces only. -/
def Blank (text : Text) : Prop := ∀ c ∈ text, c = ' '

/-- Spaces, a verb that goes on to the next space, spaces, and an argument that starts with
none. -/
structure CommandLine (text verb arg : Text) : Prop where
  parts : ∃ lead gap, Blank lead ∧ Blank gap ∧ text = lead ++ (verb ++ (gap ++ arg)) ∧
    (gap = [] → arg = [])
  verb_ne_nil : verb ≠ []
  verb_spaceless : ' ' ∉ verb
  arg_head : arg.head? ≠ some ' '

/-- Without regard to case. -/
def fold (text : Text) : Text := text.map Char.toLower

/-- The verb is a prefix of the entry's name, and long enough for it. -/
structure Spells (verb : Text) (entry : TypedCmd) : Prop where
  name : fold verb <+: fold entry.name.toList
  minLen : entry.minLen ≤ verb.length

/-- What a typed text calls for. -/
inductive Response where
  | nothing
  | babble
  | execute (cmd : CmdId) (arg : Text)

end MachineProblems.Model
