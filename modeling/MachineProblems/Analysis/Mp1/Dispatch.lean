import MachineProblems.Analysis.Mp1.Commands

/-!
# The entry of the driver

`mp1_ioctl` loads the command into `%ebx`, which belongs to its caller, and jumps through the
table before it has compared the command with anything.  The handlers then save the command in the
caller's place, and two of them save or restore other registers wrongly.
-/

set_option autoImplicit false

namespace MachineProblems.Analysis.Mp1

open MachineProblems.Library MachineProblems.Program.Mp1

/-! ## The jump -/

section Jump

variable {m : Machine} {back arg cmd : Word} {rest : List Word}

/-- The machine behind the first instruction. -/
def dispatched (m : Machine) (cmd : Word) : Machine :=
  { m with regs := { m.regs with ebx := cmd } }

/-- Where a command leads. -/
def destination (cmd : Word) : Destination :=
  match jumpTable[(cmd * 4).toNat / 4]? with
  | some c => .handler c
  | none => .elsewhere

/-- **The dispatch**, for any command and any machine. -/
theorem mp1Ioctl_eq (hstack : m.stack = back :: arg :: cmd :: rest) :
    mp1Ioctl m = some (destination cmd, dispatched m cmd) := by
  have hjump : mp1Ioctl m = jmpJumpTable (dispatched m cmd) := by
    simp [mp1Ioctl, jmp, hstack, dispatched]
  rw [hjump]
  show (match jumpTable[(cmd * 4).toNat / 4]? with
    | some c => some (Destination.handler c, dispatched m cmd)
    | none => some (.elsewhere, dispatched m cmd)) = some (destination cmd, dispatched m cmd)
  unfold destination
  cases jumpTable[(cmd * 4).toNat / 4]? with
  | some c => rfl
  | none => rfl

theorem jumpTable_range {n : ℕ} {c : Command} (h : jumpTable[n]? = some c) : n ≤ 4 := by
  obtain ⟨hlt, -⟩ := List.getElem?_eq_some_iff.mp h
  exact Nat.le_of_lt_succ hlt

/-- A command in range jumps to its word of the table. -/
theorem mp1Ioctl_handler (hstack : m.stack = back :: arg :: cmd :: rest) {c : Command}
    (hc : jumpTable[cmd.toNat]? = some c) :
    mp1Ioctl m = some (.handler c, dispatched m cmd) := by
  have hrange := jumpTable_range hc
  have hoffset : (cmd * 4).toNat / 4 = cmd.toNat := by
    rw [BitVec.toNat_mul]
    simp
    omega
  rw [mp1Ioctl_eq hstack, destination, hoffset, hc]

theorem callIoctl_eq (hstack : m.stack = back :: arg :: cmd :: rest) {c : Command}
    (hc : jumpTable[cmd.toNat]? = some c) (fuel : ℕ) :
    callIoctl fuel m = commandCode fuel c (dispatched m cmd) := by
  rw [callIoctl, mp1Ioctl_handler hstack hc]
  rfl

/-- **No command** brings the jump back to the caller. -/
theorem mp1Ioctl_ne_caller (hstack : m.stack = back :: arg :: cmd :: rest) (m' : Machine) :
    mp1Ioctl m ≠ some (.caller, m') := by
  rw [mp1Ioctl_eq hstack, destination]
  cases jumpTable[(cmd * 4).toNat / 4]? with
  | some c => simp
  | none => simp

end Jump

/-! ## What the other handlers leave -/

section Handlers

variable {m m' : Machine} {back arg : Word} {rest : List Word}

/-- The copy has a block to go to, or fails. -/
def Copies (m : Machine) : Prop :=
  m.env.block ≠ 0 ∨ m.env.copyResult ≠ 0 ∨ ∃ f, m.mem.missileAt 0 = some f

/-- `mp1_ioctl_addmissile` with any word for the `$-1` that it adds to what `mp1_free` leaves in
`%eax`. -/
def addmissileAdding (w : Word) : Code :=
  framed <|
  seq [
    movl (.esp 2) edi,
    pushl ebx, pushl edi, pushl esi,
    pushl edx, pushl (.imm 33), ccall mp1Malloc, addEsp, popl edx,
    pushl (.imm 33), pushl edi, pushl eax, ccall mp1CopyFromUser,
    popl esi, popl edi, popl ebx, xorl ebx ebx, xorl edi edi, cmpl (.imm 0) eax] <|
  jne (seq [pushl esi, ccall mp1Free, addEsp, addl (.imm w) eax] doneAdding) <|
  seq [
    movl (.var .mp1MissileList) ebx, movl ebx (.field .next .esi),
    movl esi (.var .mp1MissileList)]
  doneAdding

theorem addmissileAdding_leaves (w : Word) (hstack : m.stack = back :: arg :: rest)
    (h : Copies m) : ∃ m', addmissileAdding w m = some m' ∧ Leaves m m' m.regs.ebx arg := by
  by_cases hcopy : m.env.copyResult = 0#32
  · by_cases hblock : m.env.block = 0#32
    · obtain ⟨f, hf⟩ : ∃ f, m.mem.missileAt 0#32 = some f := by
        simpa [Copies, hblock, hcopy] using h
      simp [addmissileAdding, doneAdding, framed, hstack, hblock, hcopy, hf]
      exact ⟨rfl, rfl, rfl, rfl⟩
    · simp [addmissileAdding, doneAdding, framed, hstack, hblock, hcopy]
      exact ⟨rfl, rfl, rfl, rfl⟩
  · by_cases hblock : m.env.block = 0#32
    · simp [addmissileAdding, doneAdding, framed, hstack, hblock, hcopy]
      exact ⟨rfl, rfl, rfl, rfl⟩
    · simp [addmissileAdding, doneAdding, framed, hstack, hblock, hcopy]
      exact ⟨rfl, rfl, rfl, rfl⟩

theorem addmissile_leaves (hstack : m.stack = back :: arg :: rest) (h : Copies m) :
    ∃ m', mp1IoctlAddmissile m = some m' ∧ Leaves m m' m.regs.ebx arg :=
  addmissileAdding_leaves (-1) hstack h

theorem faults_of_not_copies (hstack : m.stack = back :: arg :: rest) (h : ¬ Copies m) :
    mp1IoctlAddmissile m = none := by
  unfold Copies at h
  push Not at h
  obtain ⟨hblock, hcopy, hnull⟩ := h
  exact addmissile_faults hstack hblock hcopy (Option.eq_none_iff_forall_ne_some.mpr hnull)

/-- The status word has a block to go to. -/
def Stores (m : Machine) : Prop := m.env.block ≠ 0 ∨ ∃ w, m.mem.heap 0 = some (.long w)

theorem faults_of_not_stores (hstack : m.stack = back :: arg :: rest) (h : ¬ Stores m) :
    mp1IoctlGetstatus m = none := by
  unfold Stores at h
  push Not at h
  obtain ⟨hblock, hnull⟩ := h
  exact getstatus_faults hstack hblock hnull

/-! ### mp1_ioctl_endgame -/

/-- The links that the loop follows: it stops at the null pointer, whatever lies there. -/
def followed (mem : Memory) (a : Word) : Option Word := if a = 0#32 then none else links mem a

@[simp] theorem followed_null (mem : Memory) : followed mem 0#32 = none := if_pos rfl

/-- The list of missiles ends in the null pointer. -/
def Terminates (mem : Memory) : Prop := ∃ l, Seg (followed mem) mem.missileList l 0

theorem followed_beheaded (mem : Memory) {a x : Word} (fa : Missile) (hx : x ≠ a) :
    followed (beheaded mem a fa) x = followed mem x := by
  unfold followed links Memory.missileAt
  simp [beheaded, hx]

/-- **One round** takes the head off. -/
theorem endgameLoop_head {n : ℕ} {f : Missile} (hhead : m.regs.edx = m.mem.missileList)
    (hzero : m.regs.edx ≠ 0#32) (hf : m.mem.missileAt m.regs.edx = some f) :
    ∃ m₁, endgameLoop (n + 1) m = endgameLoop n m₁ ∧
      m₁.mem = beheaded m.mem m.regs.edx f ∧ m₁.regs.edx = f.next ∧ m₁.stack = m.stack := by
  obtain ⟨m₂, hcall, hrun⟩ := call_remove_head (m := endgameCall m f) hhead hf hzero
  exact ⟨_, endgameLoop_round hzero hf hcall hrun.stack, hrun.mem, hrun.esi, rfl⟩

/-- **A list that terminates** is emptied, and the stack is as it was. -/
theorem endgameLoop_ends (l : List Word) : ∀ {n : ℕ} {m : Machine}, l.length < n →
    m.regs.edx = m.mem.missileList → Seg (followed m.mem) m.mem.missileList l 0 →
    ∃ m', endgameLoop n m = some m' ∧ m'.stack = m.stack := by
  induction l with
  | nil =>
      intro n m hn hhead hseg
      obtain ⟨k, rfl⟩ := Nat.exists_eq_succ_of_ne_zero (Nat.ne_of_gt hn)
      have hzero : m.regs.edx = 0#32 := hhead.trans hseg
      refine ⟨{ m with compared := (0, 0) }, ?_, rfl⟩
      simp [endgameLoop, hzero]
  | cons a l ih =>
      intro n m hn hhead hseg
      cases n with
      | zero => exact absurd hn (Nat.not_lt_zero _)
      | succ k =>
          obtain ⟨hfirst, c, hc, hrest⟩ := id hseg
          obtain rfl : m.regs.edx = a := hhead.trans hfirst
          have hzero : m.regs.edx ≠ 0#32 := by
            intro hzero
            rw [hzero, followed_null] at hc
            cases hc
          have hlink : links m.mem m.regs.edx = some c := by
            rw [followed, if_neg hzero] at hc
            exact hc
          obtain ⟨f, hf, hnext⟩ := missileAt_of_links hlink
          obtain ⟨m₁, hround, hmem, hedx, hstack⟩ := endgameLoop_head hhead hzero hf (n := k)
          have hhead₁ : m₁.regs.edx = m₁.mem.missileList := by
            rw [hedx, hmem]
            rfl
          have hseg₁ : Seg (followed m₁.mem) m₁.mem.missileList l 0 := by
            rw [hmem]
            show Seg _ f.next l 0
            rw [hnext]
            exact Seg.tail (followed_null m.mem) hseg hc fun x hx => followed_beheaded m.mem f hx
          obtain ⟨m', hloop, hstack'⟩ := ih (Nat.lt_of_succ_lt_succ hn) hhead₁ hseg₁
          exact ⟨m', hround.trans hloop, hstack'.trans hstack⟩

/-- **Only such a list** lets the loop come to its end. -/
theorem endgameLoop_terminates (n : ℕ) : ∀ {m m' : Machine}, m.regs.edx = m.mem.missileList →
    endgameLoop n m = some m' → Terminates m.mem ∧ m'.stack = m.stack := by
  induction n with
  | zero => exact fun _ h => by cases h
  | succ n ih =>
      intro m m' hhead h
      by_cases hzero : m.regs.edx = 0#32
      · refine ⟨⟨[], hhead.symm.trans hzero⟩, ?_⟩
        simp [endgameLoop, hzero] at h
        rw [← h]
      · cases hf : m.mem.missileAt m.regs.edx with
        | none => simp [endgameLoop, hzero, hf] at h
        | some f =>
            obtain ⟨m₁, hround, hmem, hedx, hstack⟩ := endgameLoop_head hhead hzero hf (n := n)
            have hhead₁ : m₁.regs.edx = m₁.mem.missileList := by
              rw [hedx, hmem]
              rfl
            obtain ⟨⟨l, hl⟩, hstack'⟩ := ih hhead₁ (hround.symm.trans h)
            refine ⟨⟨m.regs.edx :: l, hhead.symm, f.next, ?_, ?_⟩, hstack'.trans hstack⟩
            · rw [followed, if_neg hzero]
              simp [links, hf]
            · rw [hmem] at hl
              refine Seg.congr (fun x hx => ?_) hl
              apply (followed_beheaded m.mem f ?_).symm
              -- the head was freed, so that no link can be followed from it again
              rintro rfl
              have hsome := Seg.isSome hl hx
              rw [followed, if_neg hzero] at hsome
              simp [links, Memory.missileAt, beheaded] at hsome

/-- The machine at the start of the loop. -/
def endgameEntry (m : Machine) : Machine :=
  { m with
    regs := { m.regs with edx := m.mem.missileList }
    stack := m.regs.edi :: m.regs.esi :: m.regs.ebx :: 0#32 :: m.stack
    ebp := 0#32 :: m.stack }

theorem endgame_leaves (hstack : m.stack = back :: rest) {fuel : ℕ} {m₁ : Machine}
    (hloop : endgameLoop fuel (endgameEntry m) = some m₁)
    (hkept : m₁.stack = (endgameEntry m).stack) :
    ∃ m', mp1IoctlEndgame fuel m = some m' ∧ Leaves m m' m.regs.ebx m.regs.edi := by
  simp only [endgameEntry, hstack] at hloop hkept
  simp [mp1IoctlEndgame, framed, hstack, hloop, hkept]
  exact ⟨rfl, rfl, rfl, rfl⟩

theorem endgame_loops {fuel : ℕ} (h : mp1IoctlEndgame fuel m = some m') :
    ∃ m₁, endgameLoop fuel (endgameEntry m) = some m₁ := by
  cases hloop : endgameLoop fuel (endgameEntry m) with
  | some m₁ => exact ⟨m₁, rfl⟩
  | none =>
      simp only [endgameEntry] at hloop
      simp [mp1IoctlEndgame, framed, hloop] at h

/-! ### All five -/

/-- What the code of a command finds lets it come to its `ret`. -/
def Returns (m : Machine) : Command → Prop
  | .addmissile => Copies m
  | .getstatus => Stores m
  | .endgame => Terminates m.mem
  | _ => True

/-- The row of the crosshairs after a push. -/
def pushedRow (mem : Memory) (arg : Word) : Word :=
  (limited (pushedBy mem.crosshairsX (displacementX arg))
    (pushedBy mem.crosshairsY (displacementY arg))).2

/-- What the code of a command leaves in `%ebx` and `%edi`. -/
def leftover (m : Machine) (arg : Word) : Command → Word × Word
  | .startgame => (m.regs.edi, m.regs.ebx)
  | .addmissile => (m.regs.ebx, arg)
  | .movexhairs => (pushedRow m.mem arg * 160, m.regs.edi)
  | _ => (m.regs.ebx, m.regs.edi)

theorem commandCode_returns (hstack : m.stack = back :: arg :: rest) {c : Command}
    (hc : c ∈ jumpTable) (h : Returns m c) : ∃ fuel m', commandCode fuel c m = some m' := by
  cases c with
  | startgame =>
      obtain ⟨m', hrun, -⟩ := startgame_run hstack
      exact ⟨0, m', hrun⟩
  | addmissile =>
      obtain ⟨m', hrun, -⟩ := addmissile_leaves hstack h
      exact ⟨0, m', hrun⟩
  | movexhairs =>
      obtain ⟨m', hrun, -⟩ := movexhairs_run hstack
      exact ⟨0, m', hrun⟩
  | getstatus =>
      obtain ⟨m', hrun, -⟩ := getstatus_run hstack h
      exact ⟨0, m', hrun⟩
  | endgame =>
      obtain ⟨l, hl⟩ := h
      obtain ⟨m₁, hloop, hkept⟩ :=
        endgameLoop_ends l (Nat.lt_succ_self _) (m := endgameEntry m) rfl hl
      obtain ⟨m', hrun, -⟩ := endgame_leaves hstack hloop hkept
      exact ⟨l.length + 1, m', hrun⟩
  | rtcTasklet => exact absurd hc (by decide)

/-- **Every handler that returns** has kept `%esi` and `%ebp`. -/
theorem commandCode_leaves (hstack : m.stack = back :: arg :: rest) {c : Command}
    (hc : c ∈ jumpTable) {fuel : ℕ} (h : commandCode fuel c m = some m') :
    Returns m c ∧ Leaves m m' (leftover m arg c).1 (leftover m arg c).2 := by
  cases c with
  | startgame =>
      obtain ⟨m₁, hrun, -, -, hleaves⟩ := startgame_run hstack
      obtain rfl : m₁ = m' := Option.some.inj (hrun.symm.trans h)
      exact ⟨trivial, hleaves⟩
  | addmissile =>
      by_cases hcopies : Copies m
      · obtain ⟨m₁, hrun, hleaves⟩ := addmissile_leaves hstack hcopies
        obtain rfl : m₁ = m' := Option.some.inj (hrun.symm.trans h)
        exact ⟨hcopies, hleaves⟩
      · cases (faults_of_not_copies hstack hcopies).symm.trans h
  | movexhairs =>
      obtain ⟨m₁, hrun, hmem, -, -, hleaves⟩ := movexhairs_run hstack
      obtain rfl : m₁ = m' := Option.some.inj (hrun.symm.trans h)
      rw [hmem] at hleaves
      exact ⟨trivial, hleaves⟩
  | getstatus =>
      by_cases hstores : Stores m
      · obtain ⟨m₁, hrun, hleaves, -⟩ := getstatus_run hstack hstores
        obtain rfl : m₁ = m' := Option.some.inj (hrun.symm.trans h)
        exact ⟨hstores, hleaves⟩
      · cases (faults_of_not_stores hstack hstores).symm.trans h
  | endgame =>
      obtain ⟨m₁, hloop⟩ := endgame_loops h
      obtain ⟨hterminates, hkept⟩ := endgameLoop_terminates fuel (m := endgameEntry m) rfl hloop
      obtain ⟨m₂, hrun, hleaves⟩ := endgame_leaves hstack hloop hkept
      obtain rfl : m₂ = m' := Option.some.inj (hrun.symm.trans h)
      exact ⟨hterminates, hleaves⟩
  | rtcTasklet => exact absurd hc (by decide)

end Handlers

/-! ## The contract -/

/-- The standard C calling convention, for the registers of the caller. -/
def CalleeSaved (m m' : Machine) : Prop := Leaves m m' m.regs.ebx m.regs.edi

/-- What a caller of `mp1_ioctl` may rely on. -/
structure MeetsContract (m : Machine) (cmd : Word) : Prop where
  dispatches : ∀ c, jumpTable[cmd.toNat]? = some c →
    ∃ m', mp1Ioctl m = some (.handler c, m') ∧ m'.stack = m.stack ∧ m'.mem = m.mem
  refuses : 4 < cmd.toNat →
    ∃ m', mp1Ioctl m = some (.caller, m') ∧ m'.regs.eax = -1 ∧ m'.mem = m.mem
  saves : ∀ fuel m', callIoctl fuel m = some m' → CalleeSaved m m'

/-- The machine at the call `mp1_ioctl (arg, cmd)`. -/
def called (m : Machine) (back arg cmd : Word) (rest : List Word) : Machine :=
  { m with stack := back :: arg :: cmd :: rest }

/-- `%ebx` and `%edi` of the caller hold already what the call leaves there. -/
def Coincides (m : Machine) (arg : Word) : Command → Prop
  | .startgame => m.regs.ebx = 0 ∧ m.regs.edi = 0
  | .addmissile => m.regs.ebx = 1 ∧ m.regs.edi = arg
  | .movexhairs => m.regs.ebx = pushedRow m.mem arg * 160
  | .getstatus => m.regs.ebx = 3
  | .endgame => m.regs.ebx = 4
  | .rtcTasklet => True

theorem returns_called (m : Machine) (back arg cmd : Word) (rest : List Word) (c : Command) :
    Returns (dispatched (called m back arg cmd rest) cmd) c ↔ Returns m c := by
  cases c <;> rfl

theorem word_of_range {cmd : Word} (h : cmd.toNat ≤ 4) :
    cmd = 0 ∨ cmd = 1 ∨ cmd = 2 ∨ cmd = 3 ∨ cmd = 4 := by
  bv_omega

theorem leftover_iff (m : Machine) (arg : Word) {cmd : Word} {c : Command}
    (hc : jumpTable[cmd.toNat]? = some c) :
    (leftover (dispatched m cmd) arg c).1 = m.regs.ebx ∧
        (leftover (dispatched m cmd) arg c).2 = m.regs.edi ↔ Coincides m arg c := by
  rcases word_of_range (jumpTable_range hc) with rfl | rfl | rfl | rfl | rfl
  · obtain rfl : Command.startgame = c := Option.some.inj hc
    constructor
    · rintro ⟨hebx, hedi⟩
      have hedi : 0 = m.regs.edi := hedi
      exact ⟨hebx.symm.trans hedi.symm, hedi.symm⟩
    · rintro ⟨hebx, hedi⟩
      exact ⟨hedi.trans hebx.symm, hedi.symm⟩
  · obtain rfl : Command.addmissile = c := Option.some.inj hc
    exact ⟨fun h => ⟨h.1.symm, h.2.symm⟩, fun h => ⟨h.1.symm, h.2.symm⟩⟩
  · obtain rfl : Command.movexhairs = c := Option.some.inj hc
    exact ⟨fun h => h.1.symm, fun h => ⟨h.symm, rfl⟩⟩
  · obtain rfl : Command.getstatus = c := Option.some.inj hc
    exact ⟨fun h => h.1.symm, fun h => ⟨h.symm, rfl⟩⟩
  · obtain rfl : Command.endgame = c := Option.some.inj hc
    exact ⟨fun h => h.1.symm, fun h => ⟨h.symm, rfl⟩⟩

/-- **`mp1_ioctl` meets its contract** exactly for a command in range and a caller whose registers
happen to hold what the handler leaves, or a handler that does not return. -/
theorem meetsContract_iff (m : Machine) (back arg cmd : Word) (rest : List Word) :
    MeetsContract (called m back arg cmd rest) cmd ↔
      ∃ c, jumpTable[cmd.toNat]? = some c ∧ (Returns m c → Coincides m arg c) := by
  let m₀ := called m back arg cmd rest
  have hstack : m₀.stack = back :: arg :: cmd :: rest := rfl
  have hstack₁ : (dispatched m₀ cmd).stack = back :: arg :: cmd :: rest := rfl
  constructor
  · intro h
    cases hc : jumpTable[cmd.toNat]? with
    | none =>
        obtain ⟨m', hcaller, -⟩ := h.refuses (List.getElem?_eq_none_iff.mp hc)
        exact absurd hcaller (mp1Ioctl_ne_caller hstack m')
    | some c =>
        refine ⟨c, rfl, fun hreturns => (leftover_iff m arg hc).mp ?_⟩
        have hmem : c ∈ jumpTable := List.mem_of_getElem? hc
        obtain ⟨fuel, m', hrun⟩ := commandCode_returns hstack₁ hmem
          ((returns_called m back arg cmd rest c).mpr hreturns)
        obtain ⟨-, hleaves⟩ := commandCode_leaves hstack₁ hmem hrun
        have hsaved := h.saves fuel m' ((callIoctl_eq hstack hc fuel).trans hrun)
        exact ⟨hleaves.ebx.symm.trans hsaved.ebx, hleaves.edi.symm.trans hsaved.edi⟩
  · rintro ⟨c, hc, hcoincides⟩
    have hmem : c ∈ jumpTable := List.mem_of_getElem? hc
    constructor
    case dispatches =>
      intro c' hc'
      obtain rfl := Option.some.inj (hc.symm.trans hc')
      exact ⟨_, mp1Ioctl_handler hstack hc, rfl, rfl⟩
    case refuses =>
      intro hlarge
      exact absurd hlarge (Nat.not_lt_of_le (jumpTable_range hc))
    case saves =>
      intro fuel m' hcall
      obtain ⟨hreturns, hleaves⟩ :=
        commandCode_leaves hstack₁ hmem ((callIoctl_eq hstack hc fuel).symm.trans hcall)
      have hreturns' := (returns_called m back arg cmd rest c).mp hreturns
      obtain ⟨hebx, hedi⟩ := (leftover_iff m arg hc).mpr (hcoincides hreturns')
      exact ⟨hleaves.ebx.trans hebx, hleaves.esi, hleaves.edi.trans hedi, hleaves.ebp⟩

/-- A status request returns with 3 in `%ebx`, whatever the caller had there. -/
theorem getstatus_loses_ebx {m : Machine} {back arg : Word} {rest : List Word}
    (hblock : m.env.block ≠ 0) (hebx : m.regs.ebx ≠ 3) :
    ¬ MeetsContract (called m back arg 3 rest) 3 := by
  intro h
  have hstack : (called m back arg 3 rest).stack = back :: arg :: 3 :: rest := rfl
  obtain ⟨m', hrun, hleaves, -⟩ :=
    getstatus_run (m := dispatched (called m back arg 3 rest) 3) hstack (Or.inl hblock)
  have hcall : callIoctl 0 (called m back arg 3 rest) = some m' :=
    (callIoctl_eq hstack (c := .getstatus) rfl 0).trans hrun
  exact hebx ((h.saves 0 m' hcall).ebx.symm.trans hleaves.ebx)

/-- Command 5 is not refused, and a status request does not keep `%ebx`. -/
theorem not_meetsContract : ¬ MeetsContract (called lastBase 0 0 5 []) 5 ∧
    ¬ MeetsContract (called lastBase 0 4096 3 []) 3 := by
  constructor
  · intro h
    obtain ⟨m', hcaller, -⟩ := h.refuses (by decide)
    exact mp1Ioctl_ne_caller (m := called lastBase 0 0 5 []) rfl m' hcaller
  · exact getstatus_loses_ebx (by decide) (by decide)

end MachineProblems.Analysis.Mp1
