import MachineProblems.Analysis.Mp1.Commands

/-!
# The list of missiles over whole runs

After any sequence of calls of the driver the list is finite, acyclic and made of allocated
missiles, and every missile that was removed was unlinked and freed once.  The list grows
by at most one missile a call, so a fuel above the number of calls is enough for every loop.
-/

set_option autoImplicit false

namespace MachineProblems.Analysis.Mp1

open MachineProblems.Library MachineProblems.Program.Mp1 MachineProblems.Model
open MachineProblems.Model.Sky

/-! ## Whole runs -/

/-- What a call may be: an `mp1_ioctl_addmissile` whose block is fresh and whose copy succeeds, or
one of the three other operations on the list. -/
def Admissible (m : Machine) (e : Entry) : Prop :=
  match e.op with
  | .addmissile =>
      e.env.block ≠ 0#32 ∧ m.mem.heap e.env.block = none ∧ e.env.copyResult = 0#32
  | .getstatus => False
  | _ => True

/-- The call as a request. -/
def requestOf (e : Entry) : Request :=
  match e.op with
  | .startgame => ⟨.startgame, e.arg, e.regs, e.env⟩
  | .addmissile => ⟨.addmissile, e.arg, e.regs, e.env⟩
  | .rtcTasklet => ⟨.rtcTasklet, e.arg, e.regs, e.env⟩
  | .endgame => ⟨.endgame, e.arg, e.regs, e.env⟩
  | .getstatus => ⟨.getstatus, e.arg, e.regs, e.env⟩

theorem serve_request (fuel : ℕ) (m : Machine) (e : Entry) :
    serve fuel m (requestOf e) = enter fuel m e := by
  obtain ⟨op, arg, regs, env⟩ := e
  cases op <;> rfl

/-- The driver is at some sky of at most `n` missiles. -/
def Intact (n : ℕ) (m : Machine) : Prop := ∃ others s, Under others s m ∧ s.fleet.length ≤ n

/-- **One call** of the driver keeps the list intact, and it grows by one missile at most. -/
theorem enter_intact {fuel n : ℕ} {m : Machine} {e : Entry} (hfuel : n < fuel)
    (hm : Intact n m) (he : Admissible m e) :
    ∃ m', enter fuel m e = some m' ∧ Intact (n + 1) m' := by
  obtain ⟨others, s, hunder, hlen⟩ := hm
  obtain ⟨op, arg, regs, env⟩ := e
  have hgranted : Granted m (requestOf ⟨op, arg, regs, env⟩) ∧
      ¬ Starved (requestOf ⟨op, arg, regs, env⟩) := by
    cases op with
    | addmissile =>
        obtain ⟨hblock, hfresh, hcopy⟩ := he
        exact ⟨⟨Or.inr hfresh, hcopy⟩, fun h => hblock h.2⟩
    | getstatus => exact False.elim he
    | startgame => exact ⟨trivial, by rintro ⟨h | h, -⟩ <;> cases h⟩
    | rtcTasklet => exact ⟨trivial, by rintro ⟨h | h, -⟩ <;> cases h⟩
    | endgame => exact ⟨trivial, by rintro ⟨h | h, -⟩ <;> cases h⟩
  have hlt : s.fleet.length < fuel := by omega
  obtain ⟨m', hrun, hunder'⟩ := serve_under hunder hgranted.1 hgranted.2 hlt
  rw [serve_request] at hrun
  have hgrows := length_command s (requestOf ⟨op, arg, regs, env⟩)
  exact ⟨m', hrun, _, _, hunder', by omega⟩

/-- **The list of missiles over whole runs.**  No call of the run faults, so in particular none
follows a link to a block that is not allocated, reads a field of a freed missile or frees one
twice.  The list after it is a finite chain of allocated missiles without repetition, every
removal was proper, and `mp1_ioctl_endgame` then frees exactly the missiles of the list. -/
theorem missileList_intact {fuel : ℕ} {m₀ : Machine} (hload : Loaded m₀) {calls : List Entry}
    (hcalls : everyStep (enter fuel) Admissible m₀ calls) (hfuel : calls.length < fuel) :
    ∃ m l, run (enter fuel) m₀ calls = some m ∧
      Seg (links m.mem) m.mem.missileList l 0#32 ∧ l.Nodup ∧
      (∀ a ∈ l, ∃ f, m.mem.missileAt a = some f) ∧
      (∀ r ∈ m.removals, ProperRemoval r) ∧
      ∀ e : Entry, e.op = .endgame → ∃ m', enter fuel m e = some m' ∧
        m'.mem.missileList = 0#32 ∧ m'.freed = m.freed ++ l := by
  have hstep : ∀ k m e, k < fuel → Intact k m → Admissible m e →
      ∃ m', enter fuel m e = some m' ∧ Intact (k + 1) m' :=
    fun _ _ _ hk hm he => enter_intact hk hm he
  have hloaded : Intact 0 m₀ := ⟨_, _, hload.under, le_rfl⟩
  obtain ⟨m, hrun, others, s, hunder, hlen⟩ := run_total_clocked hstep hloaded hcalls (by omega)
  have hlisted : Listed m.mem (s.fleet.map Flying.addr) := hunder.holds.listed
  refine ⟨m, s.fleet.map Flying.addr, hrun, hlisted.chain, hlisted.chain.nodup hlisted.links_null,
    ?_, fun r hr => (hunder.removals r hr).resolve_left List.not_mem_nil, ?_⟩
  · intro a ha
    obtain ⟨c, hc⟩ := Option.isSome_iff_exists.mp (hlisted.chain.isSome ha)
    obtain ⟨f, hf, -⟩ := missileAt_of_links hc
    exact ⟨f, hf⟩
  · intro e hop
    obtain ⟨op, arg, regs, env⟩ := e
    obtain rfl : op = .endgame := hop
    obtain ⟨m', hend, hunder'⟩ := serve_under hunder (r := requestOf ⟨.endgame, arg, regs, env⟩)
      trivial (by rintro ⟨h | h, -⟩ <;> cases h) (by omega : s.fleet.length < fuel)
    rw [serve_request] at hend
    have hempty : m'.mem.missileList = 0#32 := hunder'.holds.listed.chain
    have hfreed : m'.freed = s.freed ++ s.fleet.map Flying.addr := hunder'.freed
    have hbefore : m.freed = s.freed := hunder.freed
    exact ⟨m', hend, hempty, by rw [hfreed, hbefore]⟩

/-! ## One missile, one tick -/

/-- A driver with no missiles in flight. -/
def idle : Machine := { lastBase with mem := { lastBase.mem with score := 0 } }

/-- A missile is added at address 64, the clock ticks and the game starts anew. -/
def oneTick : List Entry :=
  [⟨.addmissile, 4096, zeroRegs, kernel⟩, ⟨.rtcTasklet, 0, zeroRegs, kernel⟩,
    ⟨.startgame, 0, zeroRegs, kernel⟩]

theorem missileList_intact_oneTick :
    ∃ m l, run (enter 4) idle oneTick = some m ∧
      Seg (links m.mem) m.mem.missileList l 0#32 ∧ l.Nodup ∧
      (∀ a ∈ l, ∃ f, m.mem.missileAt a = some f) ∧
      (∀ r ∈ m.removals, ProperRemoval r) ∧
      ∀ e : Entry, e.op = .endgame → ∃ m', enter 4 m e = some m' ∧
        m'.mem.missileList = 0#32 ∧ m'.freed = m.freed ++ l := by
  have hcalls : everyStep (enter 4) Admissible idle oneTick := by
    refine ⟨⟨by decide, rfl, rfl⟩, fun _ _ => ⟨trivial, fun _ _ => ⟨trivial, fun _ _ => trivial⟩⟩⟩
  exact missileList_intact ⟨rfl, rfl, rfl⟩ hcalls (by decide)

end MachineProblems.Analysis.Mp1
