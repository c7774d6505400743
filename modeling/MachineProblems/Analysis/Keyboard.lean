import MachineProblems.Program.MissileCommand
import Mathlib.Data.List.ReduceOption

/-!
# Keyboard commands and when their bytes arrive

Called until the input is exhausted, `get_command` scans it once, and forgets at every `EOF` what
it has seen of an escape sequence.  Beside this scanner runs one that reads on over the `EOF`s and
only notes whether one fell inside the sequence it is in (`watch`).  The commands lost are those it
has marked (`issued_eq_unmarked`), and they are the arrow keys with an `EOF` between their three
bytes (`marked_iff_cutsArrow`); so the commands do not depend on when the bytes arrive exactly if
no arrow key is cut (`timing_independent_iff`).
-/

set_option autoImplicit false

namespace MachineProblems.Analysis.Keyboard

open MachineProblems.Program.MissileCommand

/-! ## One scan of the input -/

/-- A command other than `NOKEY`. -/
def isKey : CommandT → Bool
  | .noKey => false
  | _ => true

/-- The commands of an input, without the calls that find none. -/
def issued (input : List (Option UInt8)) : List CommandT := (getCommands input).filter isKey

/-- The commands in the order in which their last bytes are read; every `EOF` and every command
resets the state. -/
def scan : ℕ → List (Option UInt8) → List CommandT
  | _, [] => []
  | _, none :: rest => scan 0 rest
  | state, some ch :: rest =>
      match commandBody state ch with
      | .inl cmd => cmd :: scan 0 rest
      | .inr next => scan next rest

theorem isKey_keyCommand {ch : UInt8} {cmd : CommandT} (h : keyCommand ch = some cmd) :
    isKey cmd = true := by
  unfold keyCommand at h
  split_ifs at h <;> · obtain rfl := Option.some.inj h; rfl

theorem isKey_arrowCommand {ch : UInt8} {cmd : CommandT} (h : arrowCommand ch = some cmd) :
    isKey cmd = true := by
  unfold arrowCommand at h
  split_ifs at h <;> · obtain rfl := Option.some.inj h; rfl

/-- **What one byte does**: it is a key, it ends an arrow sequence, or it moves the state on. -/
theorem commandBody_cases (state : ℕ) (ch : UInt8) :
    (∃ cmd, keyCommand ch = some cmd ∧ commandBody state ch = .inl cmd) ∨
    (keyCommand ch = none ∧
      ((∃ cmd, state = 2 ∧ arrowCommand ch = some cmd ∧ commandBody state ch = .inl cmd) ∨
        (ch = 0x1B ∧ commandBody state ch = .inr 1) ∨
        (ch = 0x5B ∧ state = 1 ∧ commandBody state ch = .inr 2) ∨
        (ch ≠ 0x1B ∧ commandBody state ch = .inr 0))) := by
  unfold commandBody
  cases hkey : keyCommand ch with
  | some cmd => exact .inl ⟨cmd, rfl, rfl⟩
  | none =>
      refine .inr ⟨rfl, ?_⟩
      dsimp only
      by_cases hesc : ch = 0x1B
      · rw [if_pos hesc]
        exact .inr (.inl ⟨hesc, rfl⟩)
      rw [if_neg hesc]
      by_cases hbracket : ch = 0x5B ∧ state = 1
      · rw [if_pos hbracket]
        exact .inr (.inr (.inl ⟨hbracket.1, hbracket.2, rfl⟩))
      rw [if_neg hbracket]
      by_cases hstate : state = 2
      · rw [if_pos hstate]
        cases harrow : arrowCommand ch with
        | some cmd => exact .inl ⟨cmd, hstate, rfl, rfl⟩
        | none => exact .inr (.inr (.inr ⟨hesc, rfl⟩))
      · rw [if_neg hstate]
        exact .inr (.inr (.inr ⟨hesc, rfl⟩))

theorem isKey_commandBody {state : ℕ} {ch : UInt8} {cmd : CommandT}
    (h : commandBody state ch = .inl cmd) : isKey cmd = true := by
  obtain ⟨c, hkey, hbody⟩ | ⟨-, ⟨c, -, harrow, hbody⟩ | ⟨-, hbody⟩ | ⟨-, -, hbody⟩ | ⟨-, hbody⟩⟩ :=
    commandBody_cases state ch <;> rw [hbody] at h <;> cases h
  · exact isKey_keyCommand hkey
  · exact isKey_arrowCommand harrow

/-- One call of `get_command` takes one command off the scan. -/
theorem scan_getCommandLoop {state : ℕ} {input : List (Option UInt8)}
    (h : some 0xFF ∉ input) :
    scan state input = [(getCommandLoop state input).1].filter isKey ++
        scan 0 (getCommandLoop state input).2 ∧
      some 0xFF ∉ (getCommandLoop state input).2 := by
  induction input generalizing state with
  | nil => exact ⟨rfl, h⟩
  | cons ch input ih =>
      rw [List.mem_cons, not_or] at h
      cases ch with
      | none => exact ⟨rfl, h.2⟩
      | some ch =>
          have hch : ch ≠ 0xFF := fun heq => h.1 (congrArg some heq.symm)
          rw [getCommandLoop, if_neg hch, scan]
          cases hbody : commandBody state ch with
          | inl cmd =>
              refine ⟨?_, h.2⟩
              show cmd :: scan 0 input = [cmd].filter isKey ++ scan 0 input
              rw [List.filter_cons_of_pos (isKey_commandBody hbody)]
              rfl
          | inr next => exact ih h.2

/-- **Called until the input is exhausted, `get_command` returns the commands of the scan.** -/
theorem issued_eq_scan {input : List (Option UInt8)} (h : some 0xFF ∉ input) :
    issued input = scan 0 input := by
  induction input using getCommands.induct with
  | case1 => rw [issued, getCommands]; rfl
  | case2 ch input hlength ih =>
      have hcall : scan 0 (ch :: input) = [(getCommand (ch :: input)).1].filter isKey ++
          scan 0 (getCommand (ch :: input)).2 ∧ some 0xFF ∉ (getCommand (ch :: input)).2 :=
        scan_getCommandLoop h
      rw [hcall.1, ← ih hcall.2, issued, getCommands]
      exact List.filter_append [_] _

/-! ## Cut sequences -/

/-- The commands of the bytes alone; a command is marked if an `EOF` fell into the escape sequence
that ends with it. -/
def watch : ℕ → Bool → List (Option UInt8) → List (CommandT × Bool)
  | _, _, [] => []
  | state, _, none :: rest => watch state true rest
  | state, cut, some ch :: rest =>
      match commandBody state ch with
      | .inl cmd => (cmd, cut && (keyCommand ch).isNone) :: watch 0 false rest
      | .inr next => watch next (cut && next != 1) rest

/-- Without the marks these are the commands of the bytes alone. -/
theorem watch_fst (state : ℕ) (cut : Bool) (input : List (Option UInt8)) :
    (watch state cut input).map Prod.fst = scan state (input.reduceOption.map some) := by
  induction input generalizing state cut with
  | nil => rfl
  | cons ch input ih =>
      cases ch with
      | none =>
          rw [watch, List.reduceOption_cons_of_none]
          exact ih state true
      | some ch =>
          rw [watch, List.reduceOption_cons_of_some, List.map_cons, scan]
          cases commandBody state ch with
          | inl cmd => exact congrArg _ (ih 0 false)
          | inr next => exact ih next _

/-- A key is a command in every state. -/
theorem commandBody_key {ch : UInt8} {cmd : CommandT} (h : keyCommand ch = some cmd) (state : ℕ) :
    commandBody state ch = .inl cmd := by
  unfold commandBody
  rw [h]

/-- An escape byte starts a sequence in every state. -/
theorem commandBody_escape (state : ℕ) : commandBody state 0x1B = .inr 1 := rfl

/-- Outside a sequence only these two matter. -/
theorem commandBody_zero {ch : UInt8} (hkey : keyCommand ch = none) (hesc : ch ≠ 0x1B) :
    commandBody 0 ch = .inr 0 := by
  unfold commandBody
  rw [hkey]
  dsimp only
  rw [if_neg hesc, if_neg fun h => absurd h.2 (by decide), if_neg (by decide)]

theorem arrowCommand_escape : arrowCommand 0x1B = none := rfl

/-- **What is lost**: the scanner that forgets at every `EOF` issues the unmarked commands. -/
theorem scan_eq_unmarked (input : List (Option UInt8)) (state : ℕ) (cut : Bool) :
    scan (if cut then 0 else state) input =
      ((watch state cut input).filter fun p => !p.2).map Prod.fst := by
  induction input generalizing state cut with
  | nil => rfl
  | cons ch input ih =>
      cases ch with
      | none => exact ih state true
      | some ch =>
          rw [watch, scan]
          obtain ⟨cmd, hkey, hbody⟩ | ⟨hkey, ⟨cmd, rfl, harrow, hbody⟩ | ⟨rfl, hbody⟩ |
            ⟨rfl, rfl, hbody⟩ | ⟨hesc, hbody⟩⟩ := commandBody_cases state ch
          · rw [hbody, commandBody_key hkey, hkey]
            simpa using ih 0 false
          · have hesc : ch ≠ 0x1B := by
              rintro rfl
              rw [arrowCommand_escape] at harrow
              cases harrow
            cases cut with
            | false =>
                simp only [Bool.false_eq_true, if_false, hbody, hkey, Bool.false_and]
                simpa using ih 0 false
            | true =>
                -- the scanner is out of the sequence, and the command is lost
                simp only [if_true, hbody, commandBody_zero hkey hesc, hkey]
                simpa using ih 0 false
          · rw [commandBody_escape, commandBody_escape]
            simpa using ih 1 false
          · cases cut with
            | false =>
                simp only [Bool.false_eq_true, if_false, hbody]
                simpa using ih 2 false
            | true =>
                simp only [if_true, hbody, commandBody_zero hkey (by decide)]
                simpa using ih 2 true
          · cases cut with
            | false =>
                simp only [Bool.false_eq_true, if_false, hbody]
                simpa using ih 0 false
            | true =>
                simp only [if_true, hbody, commandBody_zero hkey hesc]
                simpa using ih 0 true

/-- No command is lost exactly if none is marked. -/
theorem unmarked_eq_iff (marked : List (CommandT × Bool)) :
    (marked.filter fun p => !p.2).map Prod.fst = marked.map Prod.fst ↔
      ∀ p ∈ marked, p.2 = false := by
  constructor
  · intro h p hp
    have hlength := congrArg List.length h
    rw [List.length_map, List.length_map] at hlength
    have hall := List.length_filter_eq_length_iff.mp hlength p hp
    simpa using hall
  · intro h
    rw [List.filter_eq_self.mpr fun p hp => by simp [h p hp]]

/-! ## Cut sequences in the input -/

/-- `EOF`s between two bytes. -/
def eofs (n : ℕ) : List (Option UInt8) := List.replicate n none

/-- **An arrow key is cut**: `EOF`s stand between its three bytes. -/
def CutsArrow (input : List (Option UInt8)) : Prop :=
  ∃ before i j ch after, 0 < i + j ∧ (arrowCommand ch).isSome = true ∧
    input = before ++ some 0x1B :: (eofs i ++ some 0x5B :: (eofs j ++ some ch :: after))

/-- The bytes of an arrow key, one after the other. -/
def HasArrow (bytes : List UInt8) : Prop :=
  ∃ before ch after, (arrowCommand ch).isSome = true ∧
    bytes = before ++ 0x1B :: 0x5B :: ch :: after

theorem eofs_concat (n : ℕ) : eofs n ++ [none] = eofs (n + 1) := List.replicate_succ'.symm

@[simp] theorem reduceOption_eofs (n : ℕ) : (eofs n).reduceOption = [] := by
  induction n with
  | zero => rfl
  | succ n ih => exact ih

theorem CutsArrow.hasArrow {input : List (Option UInt8)} (h : CutsArrow input) :
    HasArrow input.reduceOption := by
  obtain ⟨before, i, j, ch, after, -, harrow, rfl⟩ := h
  refine ⟨before.reduceOption, ch, after.reduceOption, harrow, ?_⟩
  simp [List.reduceOption_append]

/-- No letter of an arrow key is a key by itself. -/
theorem keyCommand_of_arrow {ch : UInt8} (h : (arrowCommand ch).isSome = true) :
    keyCommand ch = none := by
  unfold arrowCommand at h
  split_ifs at h with hA hB hC hD
  · rw [hA]; rfl
  · rw [hB]; rfl
  · rw [hC]; rfl
  · rw [hD]; rfl
  · cases h

/-- What has been seen of an escape sequence in each state, and where it was cut. -/
def Begun (state : ℕ) (cut : Bool) (seen : List (Option UInt8)) : Prop :=
  (state = 1 → ∃ before i, seen = before ++ some 0x1B :: eofs i ∧ (cut = true → 0 < i)) ∧
  (state = 2 → ∃ before i j, seen = before ++ some 0x1B :: (eofs i ++ some 0x5B :: eofs j) ∧
    (cut = true → 0 < i + j))

theorem begun_zero (cut : Bool) (seen : List (Option UInt8)) : Begun 0 cut seen :=
  ⟨fun h => absurd h (by decide), fun h => absurd h (by decide)⟩

theorem Begun.eof {state : ℕ} {cut : Bool} {seen : List (Option UInt8)} (h : Begun state cut seen) :
    Begun state true (seen ++ [none]) := by
  constructor
  · intro hstate
    obtain ⟨before, i, rfl, -⟩ := h.1 hstate
    refine ⟨before, i + 1, ?_, fun _ => Nat.succ_pos i⟩
    rw [← eofs_concat, List.append_assoc, List.cons_append]
  · intro hstate
    obtain ⟨before, i, j, rfl, -⟩ := h.2 hstate
    refine ⟨before, i, j + 1, ?_, fun _ => Nat.succ_pos _⟩
    rw [← eofs_concat, List.append_assoc, List.cons_append, List.append_assoc, List.cons_append]

/-- A marked command ends a sequence that is cut. -/
theorem cutsArrow_of_marked {input : List (Option UInt8)} {state : ℕ} {cut : Bool}
    {seen : List (Option UInt8)} (hbegun : Begun state cut seen)
    (h : ∃ p ∈ watch state cut input, p.2 = true) : CutsArrow (seen ++ input) := by
  induction input generalizing state cut seen with
  | nil =>
      obtain ⟨p, hp, -⟩ := h
      exact absurd hp List.not_mem_nil
  | cons ch input ih =>
      rw [List.append_cons]
      cases ch with
      | none => exact ih hbegun.eof h
      | some ch =>
          rw [watch] at h
          obtain ⟨cmd, hkey, hbody⟩ | ⟨hkey, ⟨cmd, rfl, harrow, hbody⟩ | ⟨rfl, hbody⟩ |
            ⟨rfl, rfl, hbody⟩ | ⟨hesc, hbody⟩⟩ := commandBody_cases state ch
          · rw [hbody, hkey] at h
            have hrest : ∃ p ∈ watch 0 false input, p.2 = true := by simpa using h
            exact ih (begun_zero _ _) hrest
          · rw [hbody, hkey] at h
            have hsplit : cut = true ∨ ∃ p ∈ watch 0 false input, p.2 = true := by simpa using h
            rcases hsplit with hcut | hrest
            · obtain ⟨before, i, j, rfl, hpos⟩ := hbegun.2 rfl
              refine ⟨before, i, j, ch, input, hpos hcut, by rw [harrow]; rfl, ?_⟩
              simp
            · exact ih (begun_zero _ _) hrest
          · rw [hbody] at h
            refine ih ⟨fun _ => ⟨seen, 0, rfl, ?_⟩, fun h => absurd h (by decide)⟩ h
            simp
          · rw [hbody] at h
            obtain ⟨before, i, rfl, hpos⟩ := hbegun.1 rfl
            refine ih ⟨fun h => absurd h (by decide), fun _ => ⟨before, i, 0, ?_, ?_⟩⟩ h
            · simp [eofs]
            · simpa using hpos
          · rw [hbody] at h
            exact ih (begun_zero _ _) h

/-- Whatever came before, the rest of the input is watched from some state. -/
theorem watch_append (before rest : List (Option UInt8)) (state : ℕ) (cut : Bool) :
    ∃ marked state' cut', watch state cut (before ++ rest) = marked ++ watch state' cut' rest := by
  induction before generalizing state cut with
  | nil => exact ⟨[], state, cut, rfl⟩
  | cons ch before ih =>
      cases ch with
      | none => exact ih state true
      | some ch =>
          rw [List.cons_append, watch]
          cases commandBody state ch with
          | inl cmd =>
              obtain ⟨marked, state', cut', heq⟩ := ih 0 false
              exact ⟨_ :: marked, state', cut', congrArg _ heq⟩
          | inr next => exact ih next _

theorem watch_eofs (n : ℕ) (rest : List (Option UInt8)) (state : ℕ) (cut : Bool) :
    watch state cut (eofs n ++ rest) = watch state (cut || decide (0 < n)) rest := by
  induction n generalizing cut with
  | zero => simp [eofs]
  | succ n ih =>
      refine (ih true).trans ?_
      simp

/-- A cut sequence ends with a marked command. -/
theorem marked_of_cutsArrow {input : List (Option UInt8)} (h : CutsArrow input) :
    ∃ p ∈ watch 0 false input, p.2 = true := by
  obtain ⟨before, i, j, ch, after, hpos, harrow, rfl⟩ := h
  obtain ⟨marked, state, cut, hbefore⟩ := watch_append before
    (some 0x1B :: (eofs i ++ some 0x5B :: (eofs j ++ some ch :: after))) 0 false
  obtain ⟨cmd, hcmd⟩ := Option.isSome_iff_exists.mp harrow
  have hkey := keyCommand_of_arrow harrow
  have hbody : commandBody 2 ch = .inl cmd := by
    have hesc : ch ≠ 0x1B := by
      rintro rfl
      cases harrow
    unfold commandBody
    rw [hkey]
    dsimp only
    rw [if_neg hesc, if_neg fun h => absurd h.2 (by decide), if_pos rfl, hcmd]
  have hbracket : commandBody 1 0x5B = .inr 2 := rfl
  rw [hbefore]
  refine ⟨(cmd, true), List.mem_append_right _ ?_, rfl⟩
  simp only [watch, commandBody_escape, hbracket, watch_eofs, hbody, hkey]
  have hcut : decide (0 < i) || decide (0 < j) := by simpa using by omega
  simp [hcut]

/-- **The commands lost are the arrow keys that are cut.** -/
theorem unmarked_iff_not_cutsArrow (input : List (Option UInt8)) :
    (∀ p ∈ watch 0 false input, p.2 = false) ↔ ¬ CutsArrow input := by
  constructor
  · intro h hcut
    obtain ⟨p, hp, hmarked⟩ := marked_of_cutsArrow hcut
    rw [h p hp] at hmarked
    exact absurd hmarked Bool.false_ne_true
  · intro h p hp
    by_contra hmarked
    have hmarked : p.2 = true := (Bool.not_eq_false _).mp hmarked
    have hcut : CutsArrow ([] ++ input) := cutsArrow_of_marked (begun_zero false []) ⟨p, hp, hmarked⟩
    exact h hcut

/-! ## Timing -/

theorem not_mem_reduceOption {input : List (Option UInt8)} (h : 0xFF ∉ input.reduceOption) :
    some 0xFF ∉ input := fun hmem => h (List.reduceOption_mem_iff.mpr hmem)

theorem reduceOption_map_some (bytes : List UInt8) : (bytes.map some).reduceOption = bytes := by
  induction bytes with
  | nil => rfl
  | cons b bytes ih => rw [List.map_cons, List.reduceOption_cons_of_some, ih]

/-- The bytes alone lose nothing. -/
theorem not_cutsArrow_map_some (bytes : List UInt8) : ¬ CutsArrow (bytes.map some) := by
  rintro ⟨before, i, j, ch, after, hpos, -, heq⟩
  have hnone : none ∉ bytes.map some := by simp
  apply hnone
  rw [heq]
  have hmem : ∀ n, 0 < n → none ∈ eofs n := fun n hn => List.mem_replicate.mpr ⟨by omega, rfl⟩
  by_cases hi : 0 < i
  · simp [hmem i hi]
  · simp [hmem j (by omega)]

/-- An input issues the commands of its bytes exactly if it cuts no arrow key. -/
theorem issued_eq_bytes_iff {input : List (Option UInt8)} (h : 0xFF ∉ input.reduceOption) :
    issued input = issued (input.reduceOption.map some) ↔ ¬ CutsArrow input := by
  have hbytes : some 0xFF ∉ input.reduceOption.map some := by simpa using h
  have hscan := scan_eq_unmarked input 0 false
  simp only [Bool.false_eq_true, if_false] at hscan
  rw [issued_eq_scan (not_mem_reduceOption h), issued_eq_scan hbytes, hscan, ← watch_fst 0 false,
    unmarked_eq_iff, unmarked_iff_not_cutsArrow]

/-- **Keyboard commands and timing**: of two inputs with the same bytes, one of which cuts no arrow
key, both issue the same commands exactly if the other cuts none either; and all inputs with the
same bytes issue the same commands exactly if the bytes contain no arrow key. -/
theorem timing_independent_iff (bytes : List UInt8) (h : 0xFF ∉ bytes) :
    (∀ input input' : List (Option UInt8), input.reduceOption = bytes →
      input'.reduceOption = bytes → ¬ CutsArrow input →
        (issued input = issued input' ↔ ¬ CutsArrow input')) ∧
    ((∀ input input' : List (Option UInt8), input.reduceOption = bytes →
      input'.reduceOption = bytes → issued input = issued input') ↔ ¬ HasArrow bytes) := by
  have hone : ∀ input : List (Option UInt8), input.reduceOption = bytes →
      (issued input = issued (bytes.map some) ↔ ¬ CutsArrow input) := by
    rintro input rfl
    exact issued_eq_bytes_iff h
  constructor
  · intro input input' hbytes hbytes' hwhole
    rw [(hone input hbytes).mpr hwhole, eq_comm]
    exact hone input' hbytes'
  · constructor
    · rintro hall ⟨before, ch, after, harrow, rfl⟩
      -- cut the arrow key behind its first byte
      let input := before.map some ++ some 0x1B :: none :: some 0x5B :: some ch :: after.map some
      have hinput : input.reduceOption = before ++ 0x1B :: 0x5B :: ch :: after := by
        simp [input, List.reduceOption_append, reduceOption_map_some]
      have hcut : CutsArrow input :=
        ⟨before.map some, 1, 0, ch, after.map some, by decide, harrow, rfl⟩
      have hsame := hall input _ hinput (reduceOption_map_some _)
      exact (hone input hinput).mp hsame hcut
    · intro hnone input input' hbytes hbytes'
      have hwhole : ∀ input : List (Option UInt8), input.reduceOption = bytes → ¬ CutsArrow input :=
        fun input hinput hcut => hnone (hinput ▸ hcut.hasArrow)
      rw [(hone input hbytes).mpr (hwhole input hbytes),
        (hone input' hbytes').mpr (hwhole input' hbytes')]

/-- The cursor-up key, cut behind its first byte. -/
theorem timing_independent_iff_cursorUp :
    issued [some 0x1B, none, some 0x5B, some 0x41] ≠ issued [some 0x1B, some 0x5B, some 0x41] := by
  intro heq
  have hcut : CutsArrow [some 0x1B, none, some 0x5B, some 0x41] :=
    ⟨[], 1, 0, 0x41, [], by decide, rfl, rfl⟩
  have hiff := (timing_independent_iff [0x1B, 0x5B, 0x41] (by decide)).1
    [some 0x1B, some 0x5B, some 0x41] [some 0x1B, none, some 0x5B, some 0x41] rfl rfl
    (not_cutsArrow_map_some [0x1B, 0x5B, 0x41])
  exact hiff.mp heq.symm hcut

/-- Arriving at once the key is a command, and cut behind its first byte it is none. -/
theorem cursorUp_lost :
    issued [some 0x1B, some 0x5B, some 0x41] = [.up] ∧
      issued [some 0x1B, none, some 0x5B, some 0x41] = [] := by
  rw [issued_eq_scan (by decide), issued_eq_scan (by decide)]
  exact ⟨rfl, rfl⟩

end MachineProblems.Analysis.Keyboard
