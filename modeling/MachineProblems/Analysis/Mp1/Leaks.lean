import MachineProblems.Analysis.Mp1.MissileList

/-!
# Who owns the blocks

Between two calls a block of the heap holds a missile of the list, or it is lost:
`mp1_ioctl_startgame` forgets the missiles in flight, and nothing ever finds them again.  The
other commands lose nothing.
-/

set_option autoImplicit false

namespace MachineProblems.Analysis.Mp1

open MachineProblems.Library MachineProblems.Program.Mp1 MachineProblems.Model
open MachineProblems.Model.Sky

/-- The blocks that are allocated are those of the missiles of the list. -/
def NoLeak (m : Machine) : Prop :=
  ∃ l, Listed m.mem l ∧ ∀ a, (m.mem.heap a).isSome = true ↔ a ∈ l

/-- The game is not started with missiles in flight. -/
def StartsEmpty (m : Machine) (r : Request) : Prop :=
  r.command = .startgame → m.mem.missileList = 0

/-- The blocks that hold none of the missiles are those that were lost. -/
def Owned (others : Word → Option Block) (s : Sky) : Prop :=
  ∀ a, (others a).isSome = true ↔ a ∈ s.lost

/-! ## What a command loses -/

theorem lost_passes (n : ℕ) (s : Sky) : (Sky.pass^[n] s).lost = s.lost := by
  induction n generalizing s with
  | zero => rfl
  | succ n ih =>
      rw [Function.iterate_succ_apply, ih s.pass, Sky.pass]
      cases s.todo with
      | nil => rfl
      | cons t rest =>
          change ({ s with todo := rest }.serveMissile t).lost = s.lost
          rw [Sky.serveMissile]
          cases turn t.missile with
          | burn =>
              change ({ s with todo := rest }.burn t).lost = s.lost
              unfold burn
              split <;> rfl
          | leave => rfl
          | reach => rfl
          | fly => rfl

theorem lost_command (s : Sky) {r : Request} (hr : r.command ≠ .startgame) :
    (s.command r).lost = s.lost := by
  rw [command]
  cases hcommand : r.command with
  | startgame => exact absurd hcommand hr
  | addmissile => rfl
  | movexhairs => rfl
  | getstatus => rfl
  | endgame => rfl
  | rtcTasklet => exact lost_passes _ s.startTick

section Driver

variable {fuel : ℕ} {others : Word → Option Block} {s : Sky} {m : Machine}

/-- An allocated block is a missile's or lost. -/
theorem Under.allocated_iff (h : Under others s m) (howned : Owned others s) (a : Word) :
    (m.mem.heap a).isSome = true ↔ a ∈ s.lost ∨ a ∈ s.fleet.map Flying.addr := by
  have hholds : Holds m.mem s.fleet := h.holds
  by_cases hin : a ∈ s.fleet.map Flying.addr
  · refine iff_of_true ?_ (Or.inr hin)
    obtain ⟨u, hu, rfl⟩ := List.mem_map.mp hin
    obtain ⟨w, hw⟩ := hholds.kept u hu
    rw [missileAt_eq_some.mp hw]
    rfl
  · have hframe : m.mem.heap a = others a := h.frame a hin
    rw [hframe, howned a]
    exact ⟨Or.inl, fun h => h.resolve_right hin⟩

theorem Under.noLeak_iff (h : Under others s m) (howned : Owned others s) :
    NoLeak m ↔ s.lost = [] := by
  have hlisted : Listed m.mem (s.fleet.map Flying.addr) := h.holds.listed
  constructor
  · rintro ⟨l, hl, hall⟩
    obtain rfl : l = s.fleet.map Flying.addr := Seg.unique hl.links_null hl.chain hlisted.chain
    rw [List.eq_nil_iff_forall_not_mem]
    intro a ha
    have hin := (hall a).mp ((h.allocated_iff howned a).mpr (Or.inl ha))
    obtain ⟨u, hu, rfl⟩ := List.mem_map.mp hin
    have hnone : others u.addr = none := h.apart u hu
    have hsome := (howned u.addr).mpr ha
    rw [hnone] at hsome
    cases hsome
  · intro hlost
    refine ⟨_, hlisted, fun a => ?_⟩
    rw [h.allocated_iff howned a, hlost]
    simp

theorem Under.empty_iff (h : Under others s m) : m.mem.missileList = 0 ↔ s.fleet = [] := by
  have hlisted : Listed m.mem (s.fleet.map Flying.addr) := h.holds.listed
  cases hfleet : s.fleet with
  | nil =>
      rw [hfleet] at hlisted
      exact iff_of_true hlisted.chain rfl
  | cons t rest =>
      rw [hfleet] at hlisted
      have hhead : m.mem.missileList = t.addr := hlisted.chain.1
      refine iff_of_false ?_ (List.cons_ne_nil _ _)
      rw [hhead]
      exact hlisted.ne_null List.mem_cons_self

/-- **One call** keeps the account of lost blocks, which grows only when a game is started with
missiles in flight. -/
theorem Owned.command (howned : Owned others s) (h : Under others s m) (r : Request) :
    Owned (othersAfter others m r) (s.command r) ∧
      ((s.command r).lost = [] ↔ s.lost = [] ∧ StartsEmpty m r) := by
  by_cases hr : r.command = .startgame
  · have hsky : s.command r = s.restart := by rw [Sky.command, hr]
    rw [othersAfter, if_pos hr, hsky]
    constructor
    · intro a
      rw [h.allocated_iff howned a]
      exact List.mem_append.symm
    · have hstarts : StartsEmpty m r ↔ s.fleet = [] := by
        rw [← h.empty_iff]
        exact ⟨fun hstarts => hstarts hr, fun hempty _ => hempty⟩
      rw [hstarts]
      change s.lost ++ s.fleet.map Flying.addr = [] ↔ _
      rw [List.append_eq_nil_iff, List.map_eq_nil_iff]
  · rw [othersAfter, if_neg hr]
    constructor
    · intro a
      rw [lost_command s hr]
      exact howned a
    · rw [lost_command s hr]
      exact ⟨fun hlost => ⟨hlost, fun hstart => absurd hstart hr⟩, fun h => h.1⟩

/-- **A run** loses no block exactly if it starts no game with missiles in flight. -/
theorem run_lost (rs : List Request) : ∀ {others : Word → Option Block} {s : Sky}
    {m m' : Machine}, Under others s m → Owned others s → everyStep (serve fuel) Granted m rs →
    s.fleet.length + rs.length < fuel → run (serve fuel) m rs = some m' →
    ∃ others' s', Under others' s' m' ∧ Owned others' s' ∧
      (s'.lost = [] ↔ s.lost = [] ∧ everyStep (serve fuel) StartsEmpty m rs) := by
  induction rs with
  | nil =>
      intro others s m m' h howned _ _ hrun
      obtain rfl : m = m' := Option.some.inj hrun
      exact ⟨others, s, h, howned, ⟨fun hlost => ⟨hlost, trivial⟩, fun h => h.1⟩⟩
  | cons r rs ih =>
      intro others s m m' h howned hgranted hfuel hrun
      have hfed := fed_of_run _ h hgranted hfuel hrun r List.mem_cons_self
      rw [List.length_cons] at hfuel
      have hlt : s.fleet.length < fuel := by omega
      obtain ⟨t, ht, hunder⟩ := serve_under h hgranted.1 hfed hlt
      rw [run_cons, ht] at hrun
      obtain ⟨hkept, hlost⟩ := howned.command h r
      have hgrows := length_command s r
      obtain ⟨others', s', hunder', howned', hiff⟩ :=
        ih hunder hkept (hgranted.2 t ht) (by omega) hrun
      refine ⟨others', s', hunder', howned', ?_⟩
      rw [hiff, hlost, and_assoc]
      refine and_congr_right fun _ => and_congr_right fun _ => ?_
      constructor
      · intro hrest t' ht'
        obtain rfl : t = t' := Option.some.inj (ht.symm.trans ht')
        exact hrest
      · intro hrest
        exact hrest t ht

end Driver

/-- **No leaked missiles**: from a heap without blocks, a run of the driver ends with exactly the
missiles of the list allocated if and only if no `mp1_ioctl_startgame` of the run found missiles in
flight. -/
theorem noLeak_iff_startsEmpty {fuel : ℕ} {m₀ m : Machine} (hload : Loaded m₀)
    (hheap : ∀ a, m₀.mem.heap a = none) {rs : List Request}
    (hgranted : everyStep (serve fuel) Granted m₀ rs) (hfuel : rs.length < fuel)
    (hrun : run (serve fuel) m₀ rs = some m) :
    NoLeak m ↔ everyStep (serve fuel) StartsEmpty m₀ rs := by
  have howned : Owned m₀.mem.heap (clearSky m₀) := by
    intro a
    rw [hheap a]
    exact iff_of_false Bool.false_ne_true List.not_mem_nil
  have hlen : (clearSky m₀).fleet.length + rs.length < fuel := by
    have hzero : (clearSky m₀).fleet.length = 0 := rfl
    omega
  obtain ⟨others, s, hunder, howned', hiff⟩ := run_lost rs hload.under howned hgranted hlen hrun
  rw [hunder.noLeak_iff howned', hiff]
  exact ⟨fun h => h.2, fun h => ⟨rfl, h⟩⟩

/-! ## A second start -/

/-- A missile is added, and the game is started anew. -/
def secondStart : List Request :=
  [⟨.addmissile, 4096, zeroRegs, kernel⟩, ⟨.startgame, 0, zeroRegs, kernel⟩]

theorem granted_secondStart : everyStep (serve 4) Granted idle secondStart :=
  ⟨⟨Or.inr rfl, rfl⟩, fun _ _ => ⟨trivial, fun _ _ => trivial⟩⟩

theorem run_secondStart : ∃ m, run (serve 4) idle secondStart = some m := by
  have hload : Loaded idle := ⟨rfl, rfl, rfl⟩
  have hfed : ∀ r ∈ secondStart, ¬ Starved r := by
    rintro r hr ⟨-, hblock⟩
    simp only [secondStart, List.mem_cons, List.not_mem_nil, or_false] at hr
    rcases hr with rfl | rfl <;> cases hblock
  obtain ⟨m, -, hrun, -⟩ := run_fed secondStart hload.under granted_secondStart hfed (by decide)
  exact ⟨m, hrun⟩

/-- The missile in flight at a second start stays allocated and is in no list. -/
theorem secondStart_leaks : ∃ m, run (serve 4) idle secondStart = some m ∧ ¬ NoLeak m := by
  let m₁ : Machine := entered idle ⟨.addmissile, 4096, zeroRegs, kernel⟩
  have hstack : m₁.stack = 0 :: 4096 :: [] := rfl
  obtain ⟨m₂, hadd, hpushed, -⟩ := addmissile_run hstack (by decide) (by rfl)
  obtain ⟨m, hstart, hmem⟩ := startgame_restarted 4 m₂ 0 zeroRegs kernel
  have hrun : run (serve 4) idle secondStart = some m := by
    have hserve : serve 4 idle ⟨.addmissile, 4096, zeroRegs, kernel⟩ = some m₂ := hadd
    rw [secondStart, run_cons, hserve, Option.bind_some, run_cons, hstart]
    rfl
  refine ⟨m, hrun, ?_⟩
  rintro ⟨l, hl, hall⟩
  have hempty : l = [] := by
    have hnil : Seg (links m.mem) m.mem.missileList [] 0#32 := by
      rw [hmem]
      rfl
    exact Seg.unique hl.links_null hl.chain hnil
  have hsome : (m.mem.heap 64).isSome = true := by
    rw [hmem, restarted, hpushed]
    rfl
  have hin := (hall 64).mp hsome
  rw [hempty] at hin
  cases hin

theorem noLeak_iff_startsEmpty_secondStart :
    ∃ m, run (serve 4) idle secondStart = some m ∧
      (NoLeak m ↔ everyStep (serve 4) StartsEmpty idle secondStart) := by
  obtain ⟨m, hrun⟩ := run_secondStart
  exact ⟨m, hrun, noLeak_iff_startsEmpty ⟨rfl, rfl, rfl⟩ (fun _ => rfl) granted_secondStart
    (by decide) hrun⟩

end MachineProblems.Analysis.Mp1
