import MachineProblems.Model.CommandLine
import Mathlib.Data.List.Pairwise

/-!
# Typed commands

`handle_typing` finds in a text the verb and the argument of the command line, and in the list of
commands the one entry that the verb spells.  No verb spells two entries, so the order of the list
does not matter.
-/

set_option autoImplicit false

namespace MachineProblems.Analysis.Adventure

open MachineProblems.Program.Adventure MachineProblems.Model

/-! ## Splitting a text -/

theorem dropWhile_blank {lead : Text} (h : Blank lead) (rest : Text) :
    (lead ++ rest).dropWhile (· = ' ') = rest.dropWhile (· = ' ') :=
  List.dropWhile_append_of_pos fun c hc => decide_eq_true (h c hc)

theorem dropWhile_eq_self {text : Text} (h : text.head? ≠ some ' ') :
    text.dropWhile (· = ' ') = text := by
  cases text with
  | nil => rfl
  | cons c text =>
      have hc : c ≠ ' ' := fun heq => h (congrArg some heq)
      exact List.dropWhile_cons_of_neg (by simpa using hc)

theorem head_dropWhile (text : Text) : (text.dropWhile (· = ' ')).head? ≠ some ' ' := by
  intro h
  have hnot := List.head?_dropWhile_not (· = ' ') text
  rw [h] at hnot
  simp at hnot

theorem dropWhile_eq_nil_iff (text : Text) : text.dropWhile (· = ' ') = [] ↔ Blank text := by
  rw [List.dropWhile_eq_nil_iff]
  exact forall₂_congr fun c _ => decide_eq_true_iff

theorem blank_takeWhile (text : Text) : Blank (text.takeWhile (· = ' ')) := by
  intro c hc
  have htest : decide (c = ' ') = true :=
    List.mem_takeWhile_imp (p := fun c => decide (c = ' ')) hc
  exact of_decide_eq_true htest

/-- What `handle_typing` takes for the verb. -/
def verbOf (text : Text) : Text := (text.dropWhile (· = ' ')).takeWhile (· ≠ ' ')

/-- What is left behind the verb. -/
def restOf (text : Text) : Text := (text.dropWhile (· = ' ')).drop (verbOf text).length

/-- What `handle_typing` takes for the argument. -/
def argOf (text : Text) : Text := (restOf text).dropWhile (· = ' ')

theorem verb_append_rest (text : Text) :
    verbOf text ++ restOf text = text.dropWhile (· = ' ') := by
  unfold restOf
  have hprefix : verbOf text <+: text.dropWhile (· = ' ') := List.takeWhile_prefix _
  obtain ⟨rest, hrest⟩ := hprefix
  rw [← hrest, List.drop_left]

theorem restOf_eq (text : Text) :
    restOf text = (text.dropWhile (· = ' ')).dropWhile (· ≠ ' ') := by
  have hsplit : verbOf text ++ (text.dropWhile (· = ' ')).dropWhile (· ≠ ' ') =
      text.dropWhile (· = ' ') := List.takeWhile_append_dropWhile
  exact List.append_cancel_left ((verb_append_rest text).trans hsplit.symm)

/-- Behind the verb the text ends or goes on with a space. -/
theorem head_restOf {text : Text} {c : Char} {rest : Text} (h : restOf text = c :: rest) :
    c = ' ' := by
  have hnot := List.head?_dropWhile_not (· ≠ ' ') (text.dropWhile (· = ' '))
  rw [← restOf_eq, h] at hnot
  simpa using hnot

/-- The text is a command line, unless it is blank. -/
theorem commandLine_of (text : Text) (h : ¬ Blank text) :
    CommandLine text (verbOf text) (argOf text) where
  parts := by
    refine ⟨text.takeWhile (· = ' '), (restOf text).takeWhile (· = ' '), ?_, ?_, ?_, ?_⟩
    · exact blank_takeWhile text
    · exact blank_takeWhile (restOf text)
    · unfold argOf
      rw [List.takeWhile_append_dropWhile, verb_append_rest, List.takeWhile_append_dropWhile]
    · intro hgap
      unfold argOf
      cases hrest : restOf text with
      | nil => rfl
      | cons c rest =>
          obtain rfl := head_restOf hrest
          rw [hrest] at hgap
          simp at hgap
  verb_ne_nil := by
    intro hverb
    have hcmd : text.dropWhile (· = ' ') ≠ [] := fun hnil => h ((dropWhile_eq_nil_iff text).mp hnil)
    obtain ⟨c, cmd, hcons⟩ := List.exists_cons_of_ne_nil hcmd
    have hc : c ≠ ' ' := by
      rintro rfl
      exact head_dropWhile text (by rw [hcons]; rfl)
    unfold verbOf at hverb
    rw [hcons] at hverb
    simp [hc] at hverb
  verb_spaceless := by
    intro hmem
    have htest : decide (' ' ≠ ' ') = true :=
      List.mem_takeWhile_imp (p := fun c => decide (c ≠ ' ')) hmem
    exact of_decide_eq_true htest rfl
  arg_head := head_dropWhile _

/-- **A command line has one verb and one argument**: those that `handle_typing` finds. -/
theorem commandLine_unique {text verb arg : Text} (h : CommandLine text verb arg) :
    verb = verbOf text ∧ arg = argOf text ∧ ¬ Blank text := by
  obtain ⟨⟨lead, gap, hlead, hgap, rfl, hend⟩, hne, hspaceless, harg⟩ := h
  obtain ⟨c, verb, rfl⟩ := List.exists_cons_of_ne_nil hne
  have hcmd : (lead ++ (c :: verb ++ (gap ++ arg))).dropWhile (· = ' ') =
      c :: verb ++ (gap ++ arg) := by
    rw [dropWhile_blank hlead]
    apply dropWhile_eq_self
    intro heq
    exact hspaceless (Option.some.inj heq ▸ List.mem_cons_self)
  have hverb : verbOf (lead ++ (c :: verb ++ (gap ++ arg))) = c :: verb := by
    unfold verbOf
    rw [hcmd, List.takeWhile_append_of_pos]
    · cases gap with
      | nil =>
          rw [hend rfl]
          simp
      | cons d gap =>
          obtain rfl : d = ' ' := hgap d List.mem_cons_self
          simp
    · intro d hd
      exact decide_eq_true fun heq => hspaceless (heq ▸ hd)
  refine ⟨hverb.symm, ?_, ?_⟩
  · unfold argOf restOf
    rw [hverb, hcmd, List.drop_left, dropWhile_blank hgap, dropWhile_eq_self harg]
  · rw [← dropWhile_eq_nil_iff, hcmd]
    exact List.cons_ne_nil _ _

/-! ## The list of commands -/

/-- The test that `handle_typing` makes with an entry. -/
def admits (text : Text) (entry : TypedCmd) : Bool :=
  decide (entry.minLen ≤ (verbOf text).length) &&
    strncasecmp entry.name (text.dropWhile (· = ' ')) (verbOf text).length

theorem admits_iff (text : Text) (entry : TypedCmd) :
    admits text entry = true ↔ Spells (verbOf text) entry := by
  have htake : (text.dropWhile (· = ' ')).take (verbOf text).length = verbOf text := by
    rw [← verb_append_rest, List.take_left]
  have hname : strncasecmp entry.name (text.dropWhile (· = ' ')) (verbOf text).length = true ↔
      fold (verbOf text) <+: fold entry.name.toList := by
    unfold strncasecmp
    rw [htake, beq_iff_eq, List.prefix_iff_eq_take]
    unfold fold
    rw [List.length_map, List.map_take]
    exact eq_comm
  rw [admits, Bool.and_eq_true, decide_eq_true_iff, hname]
  exact ⟨fun h => ⟨h.2, h.1⟩, fun h => ⟨h.minLen, h.name⟩⟩

/-- Two entries differ within the length that both demand. -/
def Apart (e e' : TypedCmd) : Prop :=
  (fold e.name.toList).take (max e.minLen e'.minLen) ≠
    (fold e'.name.toList).take (max e.minLen e'.minLen)

instance (e e' : TypedCmd) : Decidable (Apart e e') := by
  unfold Apart
  infer_instance

theorem cmdList_apart : cmdList.Pairwise Apart := by decide +kernel

/-- **No verb spells two entries.** -/
theorem spells_unique {verb : Text} {e e' : TypedCmd} (he : e ∈ cmdList) (he' : e' ∈ cmdList)
    (h : Spells verb e) (h' : Spells verb e') : e = e' := by
  by_contra hne
  have hsymm : Std.Symm Apart := by
    constructor
    intro a b hab heq
    rw [max_comm] at heq
    exact hab heq.symm
  refine cmdList_apart.forall he he' hne ?_
  have hlen : max e.minLen e'.minLen ≤ (fold verb).length := by
    rw [fold, List.length_map]
    exact max_le h.minLen h'.minLen
  have htake {name : Text} (hname : fold verb <+: fold name) :
      (fold name).take (max e.minLen e'.minLen) = (fold verb).take (max e.minLen e'.minLen) := by
    obtain ⟨rest, hrest⟩ := hname
    rw [← hrest, List.take_append_of_le_length hlen]
  rw [htake h.name, htake h'.name]

/-! ## handle_typing -/

/-- What `handle_typing` makes of a text with the list of commands in some order. -/
def respond (list : List TypedCmd) (text : Text) : Response :=
  if text.dropWhile (· = ' ') = [] then .nothing
  else
    match list.find? (admits text) with
    | none => .babble
    | some c => .execute c.cmd (argOf text)

/-- The game after a response. -/
def carryOut (g : Game) : Response → Option (Game × Bool)
  | .nothing => some (g, false)
  | .babble => some ({ g with world := showStatus g.world "What are you babbling about?" }, false)
  | .execute cmd arg => executeTyped g cmd arg

theorem handleTyping_eq (g : Game) (text : Text) :
    handleTyping g text = carryOut g (respond cmdList text) := by
  unfold handleTyping respond
  dsimp only
  split
  · rfl
  · show (match cmdList.find? (admits text) with
      | none =>
          some ({ g with world := showStatus g.world "What are you babbling about?" }, false)
      | some c => executeTyped g c.cmd (argOf text)) =
        carryOut g (match cmdList.find? (admits text) with
          | none => .babble
          | some c => .execute c.cmd (argOf text))
    cases cmdList.find? (admits text) with
    | none => rfl
    | some c => rfl

section Respond

variable {list : List TypedCmd} {text : Text}

theorem respond_blank (h : Blank text) : respond list text = .nothing :=
  if_pos ((dropWhile_eq_nil_iff text).mpr h)

theorem respond_of_not_blank (h : ¬ Blank text) : respond list text =
    match list.find? (admits text) with
    | none => .babble
    | some c => .execute c.cmd (argOf text) :=
  if_neg fun hnil => h ((dropWhile_eq_nil_iff text).mp hnil)

theorem respond_unknown (h : ¬ Blank text) (hno : ∀ e ∈ list, ¬ Spells (verbOf text) e) :
    respond list text = .babble := by
  have hnone : list.find? (admits text) = none := by
    rw [List.find?_eq_none]
    exact fun e he htest => hno e he ((admits_iff text e).mp htest)
  rw [respond_of_not_blank h, hnone]

theorem respond_spelled (hperm : list.Perm cmdList) (h : ¬ Blank text) {e : TypedCmd}
    (he : e ∈ cmdList) (hspells : Spells (verbOf text) e) :
    respond list text = .execute e.cmd (argOf text) := by
  have hfind : list.find? (admits text) = some e := by
    have hsome : (list.find? (admits text)).isSome := by
      rw [List.find?_isSome]
      exact ⟨e, hperm.mem_iff.mpr he, (admits_iff text e).mpr hspells⟩
    obtain ⟨e', hfind⟩ := Option.isSome_iff_exists.mp hsome
    have hmem : e' ∈ cmdList := hperm.mem_iff.mp (List.mem_of_find?_eq_some hfind)
    have hspells' := (admits_iff text e').mp (List.find?_some hfind)
    rw [hfind, spells_unique hmem he hspells' hspells]
  rw [respond_of_not_blank h, hfind]

/-- What a text calls for, by the grammar of command lines alone. -/
theorem respond_cases (hperm : list.Perm cmdList) (text : Text) :
    (Blank text ∧ respond list text = .nothing) ∨
      (∃ verb arg, CommandLine text verb arg ∧ (∀ e ∈ cmdList, ¬ Spells verb e) ∧
        respond list text = .babble) ∨
      ∃ verb arg e, CommandLine text verb arg ∧ e ∈ cmdList ∧ Spells verb e ∧
        respond list text = .execute e.cmd arg := by
  by_cases hblank : Blank text
  · exact Or.inl ⟨hblank, respond_blank hblank⟩
  · right
    have hline := commandLine_of text hblank
    by_cases hspelled : ∃ e ∈ cmdList, Spells (verbOf text) e
    · obtain ⟨e, he, hspells⟩ := hspelled
      exact Or.inr ⟨_, _, e, hline, he, hspells, respond_spelled hperm hblank he hspells⟩
    · push Not at hspelled
      refine Or.inl ⟨_, _, hline, hspelled, respond_unknown hblank fun e he => ?_⟩
      exact hspelled e (hperm.mem_iff.mp he)

end Respond

/-- **The grammar of commands**: a text makes `handle_typing` execute the command `c` with the
argument `a` exactly if it is a command line with that argument whose verb spells an entry for `c`;
at most one entry is spelled, so the order of the list does not matter; a blank text does nothing,
and with any other verb no command is executed. -/
theorem handleTyping_grammar (text : Text) :
    (∀ g, handleTyping g text = carryOut g (respond cmdList text)) ∧
      (∀ c a, respond cmdList text = .execute c a ↔ ∃ verb, CommandLine text verb a ∧
        ∃ e ∈ cmdList, e.cmd = c ∧ Spells verb e) ∧
      (∀ verb, ∀ e ∈ cmdList, ∀ e' ∈ cmdList, Spells verb e → Spells verb e' → e = e') ∧
      (∀ list : List TypedCmd, list.Perm cmdList → respond list text = respond cmdList text) ∧
      (respond cmdList text = .nothing ↔ Blank text) ∧
      (respond cmdList text = .babble ↔ ¬ Blank text ∧
        ∀ verb a, CommandLine text verb a → ∀ e ∈ cmdList, ¬ Spells verb e) := by
  have hrefl := List.Perm.refl cmdList
  refine ⟨fun g => handleTyping_eq g text, fun c a => ?_, ?_, fun list hperm => ?_, ?_, ?_⟩
  · constructor
    · intro hexecute
      rcases respond_cases hrefl text with ⟨-, heq⟩ | ⟨_, _, _, _, heq⟩ |
        ⟨verb, arg, e, hline, he, hspells, heq⟩
      · cases heq.symm.trans hexecute
      · cases heq.symm.trans hexecute
      · obtain ⟨hcmd, harg⟩ := Response.execute.inj (heq.symm.trans hexecute)
        subst harg
        exact ⟨verb, hline, e, he, hcmd, hspells⟩
    · rintro ⟨verb, hline, e, he, rfl, hspells⟩
      obtain ⟨rfl, rfl, hblank⟩ := commandLine_unique hline
      exact respond_spelled hrefl hblank he hspells
  · exact fun verb e he e' he' => spells_unique he he'
  · by_cases hblank : Blank text
    · rw [respond_blank hblank, respond_blank hblank]
    · by_cases hspelled : ∃ e ∈ cmdList, Spells (verbOf text) e
      · obtain ⟨e, he, hspells⟩ := hspelled
        rw [respond_spelled hperm hblank he hspells, respond_spelled hrefl hblank he hspells]
      · push Not at hspelled
        rw [respond_unknown hblank fun e he => hspelled e (hperm.mem_iff.mp he),
          respond_unknown hblank hspelled]
  · refine ⟨fun hnothing => ?_, respond_blank⟩
    rcases respond_cases hrefl text with ⟨hblank, -⟩ | ⟨_, _, _, _, heq⟩ | ⟨_, _, _, _, _, _, heq⟩
    · exact hblank
    · cases heq.symm.trans hnothing
    · cases heq.symm.trans hnothing
  · constructor
    · intro hbabble
      rcases respond_cases hrefl text with ⟨-, heq⟩ | ⟨verb, arg, hline, hno, -⟩ |
        ⟨_, _, _, _, _, _, heq⟩
      · cases heq.symm.trans hbabble
      · obtain ⟨rfl, rfl, hblank⟩ := commandLine_unique hline
        refine ⟨hblank, fun verb' a hline' => ?_⟩
        obtain ⟨rfl, -, -⟩ := commandLine_unique hline'
        exact hno
      · cases heq.symm.trans hbabble
    · rintro ⟨hblank, hno⟩
      exact respond_unknown hblank (hno _ _ (commandLine_of text hblank))

end MachineProblems.Analysis.Adventure
