import MachineProblems.Analysis.Mp1.Traversal
import MachineProblems.Analysis.Mp1.Bases
import MachineProblems.Analysis.Mp1.Crosshairs
import MachineProblems.Library.Run

/-!
# The commands of the driver

Every call of the driver that the kernel grants its block and its copy does in the memory
what it does in the sky.
-/

set_option autoImplicit false

namespace MachineProblems.Analysis.Mp1

open MachineProblems.Library MachineProblems.Program.Mp1 MachineProblems.Model
open MachineProblems.Model.Sky

/-- The driver, between two calls, is at the sky `s`; `others` are the blocks that hold none of its
missiles. -/
def Under (others : Word → Option Block) (s : Sky) (m : Machine) : Prop :=
  At ⟨others, m.video, []⟩ { s with pokes := [] } m

/-- Whatever was drawn, the driver is at the sky again. -/
theorem At.settle {g : Ground} {s : Sky} {m m' : Machine} (h : At g s m) (hmem : m'.mem = m.mem)
    (hsilent : Silent m m') : At ⟨g.others, m'.video, g.earlier⟩ { s with pokes := [] } m' := by
  obtain ⟨hnotified, hfreed, hremovals⟩ := hsilent
  constructor
  · rw [hmem]
    exact h.holds
  · rw [hmem]
    exact h.bases
  · rw [hmem]
    exact h.score
  · rw [hmem]
    exact h.frame
  · exact h.apart
  · exact (List.append_nil _).symm
  · rw [hnotified]
    exact h.notified
  · rw [hfreed]
    exact h.freed
  · rw [hremovals]
    exact h.removals

section Execute

variable {m : Machine} {w : Word} {rest : List Word}

/-! ## mp1_ioctl_addmissile -/

/-- The memory after the missile `f` was put in front of the list, in the block `b`. -/
def pushed (mem : Memory) (b : Word) (f : Missile) : Memory :=
  { mem.setBlock b (some (.missile (f.set mem.missileList .next))) with missileList := b }

theorem addmissile_run {back : Word} (hstack : m.stack = back :: w :: rest)
    (hblock : m.env.block ≠ 0#32) (hcopy : m.env.copyResult = 0#32) :
    ∃ m', mp1IoctlAddmissile m = some m' ∧
      m'.mem = pushed m.mem m.env.block m.env.userMissile ∧ Silent m m' ∧ m'.regs.eax = 0 := by
  simp [mp1IoctlAddmissile, doneAdding, framed, hstack, hblock, hcopy, pushed, setBlock_setBlock]
  exact ⟨rfl, rfl, rfl⟩

theorem addmissile_faults {back : Word} (hstack : m.stack = back :: w :: rest)
    (hblock : m.env.block = 0#32) (hcopy : m.env.copyResult = 0#32)
    (hnull : m.mem.missileAt 0#32 = none) : mp1IoctlAddmissile m = none := by
  simp [mp1IoctlAddmissile, framed, hstack, hblock, hcopy, hnull]

/-! ## mp1_ioctl_getstatus -/

/-- Once the status word has a block to go to, the command returns the caller's registers as it
found them.  A block of its own is freed again whether or not the copy succeeds. -/
theorem getstatus_run {back : Word} (hstack : m.stack = back :: w :: rest)
    (hstores : m.env.block ≠ 0 ∨ ∃ v, m.mem.heap 0 = some (.long v)) :
    ∃ m', mp1IoctlGetstatus m = some m' ∧ Leaves m m' m.regs.ebx m.regs.edi ∧
      (m.env.block ≠ 0 → m'.mem = m.mem.setBlock m.env.block none ∧ m'.notified = m.notified ∧
        m'.freed = m.freed ++ [m.env.block] ∧ m'.removals = m.removals) := by
  by_cases hblock : m.env.block = 0#32
  · obtain ⟨v, hv⟩ : ∃ v, m.mem.heap 0#32 = some (.long v) := by
      simpa [hblock] using hstores
    by_cases hcopy : m.env.copyResult = 0#32
    · simp [mp1IoctlGetstatus, framed, hstack, hblock, hcopy, hv]
      exact ⟨rfl, rfl, rfl, rfl⟩
    · simp [mp1IoctlGetstatus, framed, hstack, hblock, hcopy, hv]
      exact ⟨rfl, rfl, rfl, rfl⟩
  · by_cases hcopy : m.env.copyResult = 0#32
    · simp [mp1IoctlGetstatus, framed, hstack, hblock, hcopy, setBlock_setBlock]
      exact ⟨rfl, rfl, rfl, rfl⟩
    · simp [mp1IoctlGetstatus, framed, hstack, hblock, hcopy, setBlock_setBlock]
      exact ⟨rfl, rfl, rfl, rfl⟩

theorem getstatus_faults {back : Word} (hstack : m.stack = back :: w :: rest)
    (hblock : m.env.block = 0#32) (hnull : ∀ v, m.mem.heap 0#32 ≠ some (.long v)) :
    mp1IoctlGetstatus m = none := by
  cases hheap : m.mem.heap 0#32 with
  | none => simp [mp1IoctlGetstatus, framed, hstack, hblock, hheap]
  | some b =>
      cases b with
      | missile f => simp [mp1IoctlGetstatus, framed, hstack, hblock, hheap]
      | long v => exact absurd hheap (hnull v)

/-! ## mp1_ioctl_endgame -/

/-- One round of the loop: the head is removed, `%edx` moves to its successor. -/
theorem endgameLoop_succ {g : Ground} {s : Sky} {t : Flying} {k : ℕ} (h : At g (s.facing t) m)
    (hdone : s.done = []) (hedx : m.regs.edx = t.addr) :
    ∃ m', endgameLoop (k + 1) m = endgameLoop k m' ∧
      At g { s with freed := s.freed ++ [t.addr] } m' ∧
      m'.regs.edx = m'.mem.missileList ∧ m'.stack = m.stack ∧
      ∃ r, m'.removals = m.removals ++ [r] ∧ r.victim = r.before.missileList := by
  have hlisted := h.holds.listed
  rw [map_facing, hdone, List.map_nil, List.nil_append, ← hedx] at hlisted
  have hzero : m.regs.edx ≠ 0#32 := hlisted.ne_null List.mem_cons_self
  obtain ⟨-, c, hc, hrest⟩ := hlisted.chain
  obtain ⟨f, hf, rfl⟩ := missileAt_of_links hc
  let m₁ : Machine := endgameCall m f
  have hlisted₁ : Listed m₁.mem ([] ++ m₁.regs.edx :: s.todo.map Flying.addr) := hlisted
  obtain ⟨m₂, hcall, hspec⟩ := mp1MissileRemove_spec hlisted₁ (Or.inl rfl)
  have hstack : m₂.stack = m.regs.edx :: m.regs.ebx :: m.stack := hspec.stack
  have hesi : m₂.regs.esi = f.next := hspec.esi
  -- the new head is the successor of the victim, which `%esi` kept
  have hhead : f.next = m₂.mem.missileList := Seg.start_eq hrest hspec.unlinked.listed.chain
  have h₁ : At g (s.facing t) m₁ := h.rests ⟨rfl, rfl, rfl, rfl, rfl⟩
  have hedx₁ : m₁.regs.edx = t.addr := hedx
  have hnone : s.done.map Flying.addr = [] := by
    rw [hdone]
    rfl
  rw [hedx₁, ← hnone] at hspec
  have h₂ := h₁.unlinked hspec
  refine ⟨_, endgameLoop_round hzero hf hcall hstack, h₂.rests ⟨rfl, rfl, rfl, rfl, rfl⟩,
    hesi.trans hhead, rfl, ?_⟩
  obtain ⟨r, hr, -, hvictim, hbefore⟩ := hspec.removals
  refine ⟨r, hr, ?_⟩
  rw [hvictim, hbefore, ← hedx]
  exact hlisted.chain.1.symm

/-- **The loop of `mp1_ioctl_endgame`** frees the rest of the list, in order; every victim is the
head. -/
theorem endgameLoop_run {g : Ground} (todo : List Flying) :
    ∀ {n : ℕ} {s : Sky} {m : Machine}, todo.length < n → At g s m → s.done = [] → s.todo = todo →
      m.regs.edx = m.mem.missileList →
      ∃ m', endgameLoop n m = some m' ∧
        At g { s with todo := [], freed := s.freed ++ todo.map Flying.addr } m' ∧
        m'.stack = m.stack ∧ ∃ rs, m'.removals = m.removals ++ rs ∧ rs.length = todo.length ∧
          ∀ r ∈ rs, r.victim = r.before.missileList := by
  induction todo with
  | nil =>
      intro n s m hn h hdone htodo hedx
      obtain ⟨k, rfl⟩ : ∃ k, n = k + 1 := ⟨n - 1, by rw [List.length_nil] at hn; omega⟩
      have hnull : m.mem.missileList = 0#32 := by
        have hchain := h.holds.listed.chain
        rw [fleet, hdone, htodo] at hchain
        exact hchain
      have hat : At g { s with todo := [] } m := by
        rw [← htodo]
        exact h
      let m' : Machine := { m with compared := (m.regs.edx, 0#32) }
      have hrun : endgameLoop (k + 1) m = some m' := by
        simp [endgameLoop, hedx, hnull, m']
      refine ⟨m', hrun, ?_, rfl, [], (List.append_nil _).symm, rfl,
        fun r hr => absurd hr List.not_mem_nil⟩
      rw [List.map_nil, List.append_nil]
      exact hat.rests ⟨rfl, rfl, rfl, rfl, rfl⟩
  | cons t todo ih =>
      intro n s m hn h hdone htodo hedx
      rw [List.length_cons] at hn
      obtain ⟨k, rfl⟩ : ∃ k, n = k + 1 := ⟨n - 1, by omega⟩
      let s₁ : Sky := { s with todo := todo }
      have hfacing : s₁.facing t = s := by
        simp only [s₁, facing, ← htodo]
      rw [← hfacing] at h
      have hedx' : m.regs.edx = t.addr := by
        have hchain := h.holds.listed.chain
        rw [hfacing, fleet, hdone, htodo] at hchain
        exact hedx.trans hchain.1
      obtain ⟨m₁, hround, h₁, hedx₁, hstack₁, r, hr, hhead⟩ :=
        endgameLoop_succ (k := k) h hdone hedx'
      obtain ⟨m', hrun, hend, hstack, rs, hrs, hlen, hheads⟩ :=
        ih (Nat.lt_of_succ_lt_succ hn) h₁ hdone rfl hedx₁
      refine ⟨m', ?_, ?_, hstack.trans hstack₁, r :: rs, ?_, ?_, ?_⟩
      · rw [hround]
        exact hrun
      · rw [List.append_assoc] at hend
        exact hend
      · rw [hrs, hr, List.append_assoc, List.singleton_append]
      · rw [List.length_cons, List.length_cons, hlen]
      · exact List.forall_mem_cons.mpr ⟨hhead, hheads⟩

/-- `At` reads the fleet, the accounts that the machine keeps too, and the bytes drawn. -/
theorem At.of_fleet {g : Ground} {s s' : Sky} (h : At g s m) (hfleet : s'.fleet = s.fleet)
    (hbases : s'.bases = s.bases) (hscore : s'.score = s.score) (hpokes : s'.pokes = s.pokes)
    (hnotified : s'.notified = s.notified) (hfreed : s'.freed = s.freed) : At g s' m where
  holds := by
    rw [hfleet]
    exact h.holds
  bases := by
    rw [hbases]
    exact h.bases
  score := by
    rw [hscore]
    exact h.score
  frame := by
    rw [hfleet]
    exact h.frame
  apart := by
    rw [hfleet]
    exact h.apart
  video := by
    rw [hpokes]
    exact h.video
  notified := by
    rw [hnotified]
    exact h.notified
  freed := by
    rw [hfreed]
    exact h.freed
  removals := h.removals

theorem endgame_run {g : Ground} {s : Sky} {fuel : ℕ} (h : At g s m)
    (hfuel : s.fleet.length < fuel) (hstack : m.stack = w :: rest) :
    ∃ m', mp1IoctlEndgame fuel m = some m' ∧
      At ⟨g.others, m'.video, g.earlier⟩ { s.clear with pokes := [] } m' ∧
      ∃ rs, m'.removals = m.removals ++ rs ∧ rs.length = s.fleet.length ∧
        ∀ r ∈ rs, r.victim = r.before.missileList := by
  have hsilent : Silent m m := ⟨rfl, rfl, rfl⟩
  have hsettled := h.settle rfl hsilent
  have hrests : At ⟨g.others, m.video, g.earlier⟩
      { s with done := [], todo := s.fleet, pokes := [] } { m with
        regs := { m.regs with edx := m.mem.missileList }
        stack := m.regs.edi :: m.regs.esi :: m.regs.ebx :: 0#32 :: w :: rest
        ebp := 0#32 :: w :: rest } := by
    refine At.rests (m := m) ?_ ⟨rfl, rfl, rfl, rfl, rfl⟩
    exact hsettled.of_fleet rfl rfl rfl rfl rfl rfl
  obtain ⟨m', hloop, hend, hstack', hheads⟩ :=
    endgameLoop_run s.fleet (n := fuel) hfuel hrests rfl rfl rfl
  have hvideo : m'.video = m.video := by
    have hv := hend.video
    simpa using hv
  simp [mp1IoctlEndgame, framed, hstack, hloop, hstack']
  refine ⟨At.rests (m := m') ?_ ⟨rfl, rfl, rfl, rfl, rfl⟩, hheads⟩
  rw [hvideo]
  exact hend.of_fleet rfl rfl rfl rfl rfl rfl

/-! ## mp1_rtc_tasklet -/

/-- A call with the registers saved around it: all are back but `%ebx`. -/
theorem savedCall_run {f : Code} {m m' : Machine} (is : List Code)
    (hf : f { m with
      stack := m.regs.esi :: m.regs.edi :: m.regs.edx :: m.regs.ecx :: m.regs.eax :: m.stack } =
        some m')
    (hstack : m'.stack =
      m.regs.esi :: m.regs.edi :: m.regs.edx :: m.regs.ecx :: m.regs.eax :: m.stack) :
    block (pushl eax :: pushl ecx :: pushl edx :: pushl edi :: pushl esi :: f ::
        popl esi :: popl edi :: popl edx :: popl ecx :: popl eax :: is) m =
      block is { m' with
        regs := ⟨m.regs.eax, m'.regs.ebx, m.regs.ecx, m.regs.edx, m.regs.esi, m.regs.edi⟩
        stack := m.stack } := by
  simp [hf, hstack]

/-- The machine as `mp1_rtc_tasklet` calls `update_missiles`. -/
def tickEntry (m : Machine) : Machine :=
  { m with
    stack := m.regs.esi :: m.regs.edi :: m.regs.edx :: m.regs.ecx :: m.regs.eax ::
      m.regs.ebx :: m.regs.esi :: m.regs.edi :: 0#32 :: m.stack
    ebp := 0#32 :: m.stack }

/-- **The tick.** -/
theorem rtcTasklet_run {g : Ground} {s : Sky} {fuel : ℕ} (h : At g s m)
    (hfuel : s.fleet.length < fuel) (hstack : m.stack = w :: rest) :
    ∃ m', mp1RtcTasklet fuel m = some m' ∧
      At ⟨g.others, m'.video, g.earlier⟩ { s.tick with pokes := [] } m' := by
  let m₀ : Machine :=
    { m with
      stack := m.regs.ebx :: m.regs.esi :: m.regs.edi :: 0#32 :: m.stack
      ebp := 0#32 :: m.stack }
  have h₀ : At g s (tickEntry m) := h.rests ⟨rfl, rfl, rfl, rfl, rfl⟩
  obtain ⟨m₁, hmissiles, hat₁, hstack₁⟩ := updateMissiles_tick h₀ hfuel
  let m₂ : Machine :=
    { m₁ with
      regs := { m.regs with ebx := m₁.regs.ebx }
      stack := m₀.stack }
  obtain ⟨m₃, hbases, hdraws⟩ := updateBases_draws
    { m₂ with
      stack := m.regs.esi :: m.regs.edi :: m.regs.edx :: m.regs.ecx :: m.regs.eax :: m₂.stack }
  have hprologue : ∀ is : List Code, block (pushl edi :: pushl esi :: pushl ebx :: is)
      { m with stack := 0 :: m.stack, ebp := 0 :: m.stack } = block is m₀ := by
    intro is
    simp [m₀]
  refine ⟨{ m₃ with regs := m.regs, stack := rest, ebp := m.ebp }, ?_, ?_⟩
  · unfold mp1RtcTasklet framed
    rw [hprologue, savedCall_run (m := m₀) _ hmissiles hstack₁,
      savedCall_run (m := m₂) _ hbases hdraws.stack]
    simp [m₀, m₂, hstack]
  · exact hat₁.settle hdraws.mem ⟨hdraws.notified, hdraws.freed, hdraws.removals⟩

end Execute

/-! ## All commands -/

/-- What the kernel answers to a call: `mp1_malloc` returns the null pointer or a fresh block, and
a copy from the user succeeds. -/
def Granted (m : Machine) (r : Request) : Prop :=
  match r.command with
  | .addmissile => (r.env.block = 0 ∨ m.mem.heap r.env.block = none) ∧ r.env.copyResult = 0
  | .getstatus => r.env.block = 0 ∨ m.mem.heap r.env.block = none
  | _ => True

/-- The call needs a block, and gets none. -/
def Starved (r : Request) : Prop :=
  (r.command = .addmissile ∨ r.command = .getstatus) ∧ r.env.block = 0

/-- The blocks that hold none of the missiles, after a call. -/
def othersAfter (others : Word → Option Block) (m : Machine) (r : Request) :
    Word → Option Block :=
  if r.command = .startgame then m.mem.heap else others

section Serve

variable {others : Word → Option Block} {s : Sky} {m : Machine} {r : Request} {fuel : ℕ}

/-- The machine as a call from outside enters the driver. -/
def entered (m : Machine) (r : Request) : Machine :=
  { m with regs := r.regs, env := r.env, stack := [0, r.arg], ebp := [] }

theorem Under.entered (h : Under others s m) (r : Request) : Under others s (entered m r) :=
  At.rests h ⟨rfl, rfl, rfl, rfl, rfl⟩

/-- The crosshairs are no part of the sky. -/
theorem Under.moved {m' : Machine} (h : Under others s m) {x y : Word}
    (hmem : m'.mem = { m.mem with crosshairsX := x, crosshairsY := y }) (hsilent : Silent m m') :
    Under others s m' := by
  let m₁ : Machine := { m with mem := { m.mem with crosshairsX := x, crosshairsY := y } }
  have h₁ : At ⟨others, m.video, []⟩ { s with pokes := [] } m₁ :=
    ⟨⟨⟨h.holds.listed.chain, h.holds.listed.null⟩, h.holds.kept⟩, h.bases, h.score, h.frame,
      h.apart, h.video, h.notified, h.freed, h.removals⟩
  exact h₁.settle hmem ⟨hsilent.notified, hsilent.freed, hsilent.removals⟩

theorem startgame_under (h : Under others s m) {m' : Machine}
    (hmem : m'.mem = restarted m.mem) (hsilent : Silent m m') :
    Under m.mem.heap s.restart m' := by
  constructor
  · refine ⟨⟨?_, ?_⟩, ?_⟩
    · rw [hmem]
      rfl
    · rw [hmem]
      exact h.holds.listed.null
    · intro u hu
      cases hu
  · rw [hmem]
    rfl
  · rw [hmem]
    rfl
  · intro a _
    rw [hmem]
    rfl
  · intro u hu
    cases hu
  · exact (List.append_nil _).symm
  · rw [hsilent.notified]
    exact h.notified
  · rw [hsilent.freed]
    exact h.freed
  · rw [hsilent.removals]
    exact h.removals

theorem listed_pushed {mem : Memory} {b : Word} {l : List Word} (f : Missile)
    (h : Listed mem l) (hblock : b ≠ 0#32) (hfresh : mem.heap b = none) :
    Listed (pushed mem b f) (b :: l) where
  chain := by
    change Seg _ b (b :: l) 0#32
    refine Seg.push h.chain ?_ ?_ ?_
    · simp [links, Memory.missileAt, hfresh]
    · have hnext : (f.set mem.missileList .next).next = mem.missileList := rfl
      simp [links, Memory.missileAt, pushed, hnext]
    · intro y hy
      simp [links, Memory.missileAt, pushed, hy]
  null := by
    simp [pushed, hblock.symm, h.null]

theorem Kept.ne_of_none {mem : Memory} {u : Flying} (h : Kept mem u) {b : Word}
    (hb : mem.heap b = none) : u.addr ≠ b := by
  obtain ⟨w, hw⟩ := h
  intro heq
  rw [missileAt_eq_some, heq, hb] at hw
  cases hw

theorem addmissile_under (h : Under others s m) {b : Word} {f : Missile} (hblock : b ≠ 0#32)
    (hfresh : m.mem.heap b = none) {m' : Machine} (hmem : m'.mem = pushed m.mem b f)
    (hsilent : Silent m m') : Under others (s.launch b f) m' := by
  have hholds : Holds m.mem s.fleet := h.holds
  have hne : ∀ u ∈ s.fleet, u.addr ≠ b := fun u hu => (hholds.kept u hu).ne_of_none hfresh
  have hheap : ∀ a, a ≠ b → m'.mem.heap a = m.mem.heap a := by
    intro a ha
    rw [hmem]
    simp [pushed, ha]
  have hfleet : (s.launch b f).fleet = ⟨s.born, b, f⟩ :: s.fleet := by simp [fleet, launch]
  have hout : b ∉ s.fleet.map Flying.addr := by
    intro hin
    obtain ⟨u, hu, heq⟩ := List.mem_map.mp hin
    exact hne u hu heq
  have hfleet' : ({ s.launch b f with pokes := [] } : Sky).fleet = ⟨s.born, b, f⟩ :: s.fleet :=
    hfleet
  constructor
  · rw [hfleet']
    constructor
    · rw [hmem]
      exact listed_pushed f hholds.listed hblock hfresh
    · intro u hu
      rcases List.mem_cons.mp hu with rfl | hu
      · refine ⟨m.mem.missileList, ?_⟩
        rw [hmem]
        simp [pushed, Memory.missileAt, Missile.set]
      · exact (hholds.kept u hu).of_heap (hheap _ (hne u hu))
  · rw [hmem]
    exact h.bases
  · rw [hmem]
    exact h.score
  · rw [hfleet']
    intro a ha
    rw [List.map_cons, List.mem_cons, not_or] at ha
    rw [hheap a ha.1]
    exact h.frame a ha.2
  · rw [hfleet']
    intro u hu
    rcases List.mem_cons.mp hu with rfl | hu
    · have hframe : m.mem.heap b = others b := h.frame b hout
      exact hframe.symm.trans hfresh
    · exact h.apart u hu
  · exact (List.append_nil _).symm
  · rw [hsilent.notified]
    exact h.notified
  · rw [hsilent.freed]
    exact h.freed
  · rw [hsilent.removals]
    exact h.removals

/-- **One call** of the driver that gets its block does what it does in the sky. -/
theorem serve_under (h : Under others s m) (hr : Granted m r) (hfed : ¬ Starved r)
    (hfuel : s.fleet.length < fuel) :
    ∃ m', serve fuel m r = some m' ∧ Under (othersAfter others m r) (s.command r) m' := by
  have h₁ := h.entered r
  have hstack : (entered m r).stack = 0 :: r.arg :: [] := rfl
  unfold Granted at hr
  unfold Starved at hfed
  cases hcommand : r.command with
  | startgame =>
      obtain ⟨m', hrun, hmem, hsilent, -⟩ := startgame_run hstack
      refine ⟨m', ?_, ?_⟩
      · rw [← hrun, serve, hcommand]
        rfl
      · rw [othersAfter, if_pos hcommand, command, hcommand]
        exact startgame_under h₁ hmem hsilent
  | addmissile =>
      rw [hcommand] at hr hfed
      obtain ⟨hgranted, hcopy⟩ := hr
      have hblock : r.env.block ≠ 0 := fun hzero => hfed ⟨Or.inl rfl, hzero⟩
      obtain ⟨m', hrun, hmem, hsilent, -⟩ := addmissile_run hstack hblock hcopy
      refine ⟨m', ?_, ?_⟩
      · rw [← hrun, serve, hcommand]
        rfl
      · rw [othersAfter, if_neg (by rw [hcommand]; decide), command, hcommand]
        exact addmissile_under h₁ hblock (hgranted.resolve_left hblock) hmem hsilent
  | movexhairs =>
      obtain ⟨m', hrun, hmem, -, hsilent, -⟩ := movexhairs_run hstack
      refine ⟨m', ?_, ?_⟩
      · rw [← hrun, serve, hcommand]
        rfl
      · rw [othersAfter, if_neg (by rw [hcommand]; decide), command, hcommand]
        exact h₁.moved hmem hsilent
  | getstatus =>
      rw [hcommand] at hr hfed
      have hblock : r.env.block ≠ 0 := fun hzero => hfed ⟨Or.inr rfl, hzero⟩
      obtain ⟨m', hrun, -, hkept⟩ := getstatus_run hstack (Or.inl hblock)
      obtain ⟨hmem, hnotified, hfreed, hremovals⟩ := hkept hblock
      have hback : m.mem.setBlock r.env.block none = m.mem :=
        setBlock_none (hr.resolve_left hblock)
      refine ⟨m', ?_, ?_⟩
      · rw [← hrun, serve, hcommand]
        rfl
      · rw [othersAfter, if_neg (by rw [hcommand]; decide), command, hcommand]
        have hat : At ⟨others, m.video, []⟩ { s with pokes := [], freed := s.freed ++ [r.env.block] }
            { entered m r with freed := m.freed ++ [r.env.block] } :=
          ⟨h₁.holds, h₁.bases, h₁.score, h₁.frame, h₁.apart, h₁.video, h₁.notified,
            congrArg (· ++ [r.env.block]) h₁.freed, h₁.removals⟩
        exact hat.settle (hmem.trans hback) ⟨hnotified, hfreed, hremovals⟩
  | endgame =>
      obtain ⟨m', hrun, hunder, -⟩ := endgame_run h₁ hfuel hstack
      refine ⟨m', ?_, ?_⟩
      · rw [← hrun, serve, hcommand]
        rfl
      · rw [othersAfter, if_neg (by rw [hcommand]; decide), command, hcommand]
        exact hunder
  | rtcTasklet =>
      obtain ⟨m', hrun, hunder⟩ := rtcTasklet_run h₁ hfuel hstack
      refine ⟨m', ?_, ?_⟩
      · rw [← hrun, serve, hcommand]
        rfl
      · rw [othersAfter, if_neg (by rw [hcommand]; decide), command, hcommand]
        exact hunder

/-- Without a block a call writes through the null pointer. -/
theorem serve_starved (h : Under others s m) (hr : Granted m r) (hstarved : Starved r) :
    serve fuel m r = none := by
  have hnull : m.mem.heap 0#32 = none := h.holds.listed.null
  obtain ⟨hcommand, hblock⟩ := hstarved
  have hstack : (entered m r).stack = [0, r.arg] := rfl
  rcases hcommand with hcommand | hcommand
  · have hcopy : r.env.copyResult = 0#32 := by
      unfold Granted at hr
      rw [hcommand] at hr
      exact hr.2
    have hmissile : m.mem.missileAt 0#32 = none := by
      rw [Memory.missileAt, hnull]
    have hfault : mp1IoctlAddmissile (entered m r) = none :=
      addmissile_faults hstack hblock hcopy hmissile
    rw [← hfault, serve, hcommand]
    rfl
  · have hfault : mp1IoctlGetstatus (entered m r) = none :=
      getstatus_faults hstack hblock fun v hv => by
        cases hnull.symm.trans hv
    rw [← hfault, serve, hcommand]
    rfl

end Serve

/-! ## The number of missiles -/

theorem length_blast (s : Sky) (t : Flying) : (s.blast t).fleet.length = s.fleet.length := by
  simp [fleet, blast]

theorem length_drop (s : Sky) (t : Flying) : (s.drop t).fleet.length = s.fleet.length := by
  simp only [fleet, Sky.drop, List.append_assoc, List.take_append_drop]

theorem length_keep (s : Sky) (t : Flying) : (s.keep t).fleet.length = s.fleet.length + 1 := by
  simp only [fleet, keep, List.length_append, List.length_singleton]
  omega

/-- A turn loses a missile at most. -/
theorem length_serveMissile (s : Sky) (t : Flying) :
    (s.serveMissile t).fleet.length ≤ s.fleet.length + 1 := by
  rw [serveMissile]
  cases turn t.missile with
  | burn =>
      change (s.burn t).fleet.length ≤ _
      unfold burn
      split
      · rw [length_drop, length_blast]
        omega
      · rw [length_keep, length_blast]
  | leave =>
      change (s.drop t).fleet.length ≤ _
      rw [length_drop]
      omega
  | reach =>
      change (s.reach t).fleet.length ≤ _
      unfold Sky.reach
      rw [length_keep]
      exact (congrArg (· + 1) (length_blast (s.poke _ _) t)).le
  | fly =>
      change (s.fly t).fleet.length ≤ _
      unfold Sky.fly
      rw [length_keep]
      exact le_rfl

theorem length_passed (s : Sky) : s.pass.fleet.length ≤ s.fleet.length := by
  rw [Sky.pass]
  cases htodo : s.todo with
  | nil => exact le_rfl
  | cons t rest =>
      refine (length_serveMissile { s with todo := rest } t).trans (le_of_eq ?_)
      simp only [fleet, htodo, List.length_append, List.length_cons]
      omega

theorem length_passes (n : ℕ) (s : Sky) : (pass^[n] s).fleet.length ≤ s.fleet.length := by
  induction n generalizing s with
  | zero => exact le_rfl
  | succ n ih =>
      rw [Function.iterate_succ_apply]
      exact (ih s.pass).trans (length_passed s)

theorem length_command (s : Sky) (r : Request) :
    (s.command r).fleet.length ≤ s.fleet.length + 1 := by
  rw [command]
  cases r.command with
  | startgame => exact Nat.zero_le _
  | addmissile =>
      change (s.launch _ _).fleet.length ≤ _
      simp [fleet, launch]
  | movexhairs => exact Nat.le_succ _
  | getstatus => exact Nat.le_succ _
  | endgame => exact Nat.zero_le _
  | rtcTasklet =>
      have hlen := length_passes s.fleet.length s.startTick
      have hstart : s.startTick.fleet.length = s.fleet.length := rfl
      change s.tick.fleet.length ≤ _
      rw [tick]
      omega

/-! ## Whole runs -/

/-- The driver as it is loaded: no missile, nothing at the null address, an empty trace. -/
structure Loaded (m : Machine) : Prop where
  empty : m.mem.missileList = 0#32
  null : m.mem.heap 0#32 = none
  removals : m.removals = []

/-- The empty sky of a driver that has just been loaded. -/
def clearSky (m : Machine) : Sky where
  done := []
  todo := []
  bases := m.mem.baseAlive
  score := m.mem.score
  hits := []
  reached := []
  pokes := []
  notified := m.notified
  freed := m.freed
  lost := []
  born := 0

theorem Loaded.under {m : Machine} (h : Loaded m) : Under m.mem.heap (clearSky m) m where
  holds := by
    refine ⟨⟨h.empty, h.null⟩, ?_⟩
    intro u hu
    cases hu
  bases := rfl
  score := rfl
  frame := fun _ _ => rfl
  apart := by
    intro u hu
    cases hu
  video := (List.append_nil _).symm
  notified := rfl
  freed := rfl
  removals := by
    intro r hr
    rw [h.removals] at hr
    cases hr

/-- **A run** of the driver that gets its blocks is a run of the sky. -/
theorem run_fed {fuel : ℕ} (rs : List Request) : ∀ {others : Word → Option Block} {s : Sky}
    {m : Machine}, Under others s m → everyStep (serve fuel) Granted m rs →
    (∀ r ∈ rs, ¬ Starved r) → s.fleet.length + rs.length < fuel →
    ∃ m' others', run (serve fuel) m rs = some m' ∧ Under others' (s.after rs) m' := by
  induction rs with
  | nil =>
      intro others s m h _ _ _
      exact ⟨m, others, rfl, h⟩
  | cons r rs ih =>
      intro others s m h hgranted hfed hfuel
      rw [List.length_cons] at hfuel
      have hlt : s.fleet.length < fuel := by omega
      obtain ⟨t, ht, hunder⟩ := serve_under h hgranted.1 (hfed r List.mem_cons_self) hlt
      have hgrows := length_command s r
      obtain ⟨m', others', hrun, hunder'⟩ := ih hunder (hgranted.2 t ht)
        (fun r hr => hfed r (List.mem_cons_of_mem _ hr)) (by omega)
      refine ⟨m', others', ?_, hunder'⟩
      rw [run_cons, ht]
      exact hrun

/-- A run that comes to an end had its blocks. -/
theorem fed_of_run {fuel : ℕ} (rs : List Request) : ∀ {others : Word → Option Block} {s : Sky}
    {m m' : Machine}, Under others s m → everyStep (serve fuel) Granted m rs →
    s.fleet.length + rs.length < fuel → run (serve fuel) m rs = some m' →
    ∀ r ∈ rs, ¬ Starved r := by
  induction rs with
  | nil =>
      intro others s m m' _ _ _ _ r hr
      cases hr
  | cons r rs ih =>
      intro others s m m' h hgranted hfuel hrun
      rw [List.length_cons] at hfuel
      obtain ⟨t, ht, hrest⟩ := Option.bind_eq_some_iff.mp hrun
      have hfed : ¬ Starved r := by
        intro hstarved
        rw [serve_starved h hgranted.1 hstarved] at ht
        cases ht
      have hlt : s.fleet.length < fuel := by omega
      obtain ⟨t', ht', hunder⟩ := serve_under h hgranted.1 hfed hlt
      obtain rfl : t = t' := Option.some.inj (ht.symm.trans ht')
      have hgrows := length_command s r
      exact List.forall_mem_cons.mpr ⟨hfed, ih hunder (hgranted.2 t ht) (by omega) hrest⟩

theorem run_under {fuel : ℕ} {rs : List Request} {others : Word → Option Block} {s : Sky}
    {m m' : Machine} (h : Under others s m) (hgranted : everyStep (serve fuel) Granted m rs)
    (hfuel : s.fleet.length + rs.length < fuel) (hrun : run (serve fuel) m rs = some m') :
    ∃ others', Under others' (s.after rs) m' := by
  have hfed := fed_of_run rs h hgranted hfuel hrun
  obtain ⟨m'', others', hrun', hunder⟩ := run_fed rs h hgranted hfed hfuel
  obtain rfl : m' = m'' := Option.some.inj (hrun.symm.trans hrun')
  exact ⟨others', hunder⟩

end MachineProblems.Analysis.Mp1
