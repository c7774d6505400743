import MachineProblems.Program.MissileCommand
import MachineProblems.Analysis.Mp1.Aside
import MachineProblems.Analysis.Mp1.Crosshairs

/-!
# Two copies of the crosshairs

The game keeps the position of the crosshairs, and so does the driver.  `update_crosshairs` moves
its copy by at most one cell on one axis and sends the displacement; the driver adds it to its own
copy with instructions on half words and sets the first limit that is exceeded.  Both copies are
the clamped sum, so they agree after every key, whatever else calls the driver in between.
-/

set_option autoImplicit false

namespace MachineProblems.Analysis.Piloting

open MachineProblems.Library MachineProblems.Program.Mp1 MachineProblems.Program.MissileCommand
open MachineProblems.Analysis.Mp1

/-! ## The game with its driver -/

/-- The game, the driver, and the offset at which the driver last drew the crosshairs. -/
structure Game where
  pilot : Pilot
  driver : Machine
  drawn : Option Word

/-- One call of `update_crosshairs`: the command, what a missile finds in its `next` field, and how
its `ioctl` enters the driver. -/
structure Key where
  cmd : CommandT
  next : Word
  arg : Word
  regs : Regs
  env : Env

/-- A key, or a call of the driver by somebody else. -/
inductive Event where
  | key (k : Key)
  | other (r : Request)

/-- The driver serves an `ioctl` of the game. -/
def deliver (fuel : ℕ) (k : Key) (g : Game) : IoctlCall → Option Game
  | .addMissile f => (serve fuel g.driver
      ⟨.addmissile, k.arg, k.regs, { k.env with userMissile := f }⟩).map fun m =>
        { g with driver := m }
  | .moveXhairs d => (serve fuel g.driver ⟨.movexhairs, d, k.regs, k.env⟩).map fun m =>
      { g with driver := m, drawn := m.video.getLast?.map Prod.fst }

def play (fuel : ℕ) (g : Game) : Event → Option Game
  | .key k => do
      let (p, calls) ← updateCrosshairs k.next k.cmd g.pilot
      calls.foldlM (deliver fuel k) { g with pilot := p }
  | .other r => (serve fuel g.driver r).map fun m => { g with driver := m }

/-- Nobody else starts the game or moves the crosshairs. -/
def Foreign : Event → Prop
  | .key _ => True
  | .other r => r.command ≠ .startgame ∧ r.command ≠ .movexhairs

/-- The copies agree, and the crosshairs were last drawn where they are. -/
structure Agree (g : Game) : Prop where
  x : g.driver.mem.crosshairsX.toInt = g.pilot.chx
  y : g.driver.mem.crosshairsY.toInt = g.pilot.chy
  within : WithinLimits g.driver.mem
  drawn : ∀ offset, g.drawn = some offset → offset = crosshairsOffset g.driver.mem

/-- A missile that the game fires is fired at the crosshairs of the driver, which is where they were
last drawn. -/
def Aimed (g : Game) : Event → Prop
  | .key k => ∀ p calls, updateCrosshairs k.next k.cmd g.pilot = some (p, calls) →
      ∀ f, .addMissile f ∈ calls → f.destX = g.driver.mem.crosshairsX ∧
        f.destY = g.driver.mem.crosshairsY ∧
        ∀ offset, g.drawn = some offset → offset = f.destX * 2 + f.destY * 160
  | .other _ => True

/-- The copies agree after the event, and only a shot may fault. -/
def Advances (fuel : ℕ) (g : Game) (e : Event) : Prop :=
  (∀ g', play fuel g e = some g' → Agree g') ∧
    ∀ k, e = .key k → k.cmd ≠ .fire → ∃ g', play fuel g e = some g'

/-! ## Displacements -/

/-- The displacement of a command. -/
def displacement : CommandT → ℤ × ℤ
  | .left => (-1, 0)
  | .right => (1, 0)
  | .up => (0, -1)
  | .down => (0, 1)
  | _ => (0, 0)

theorem displacement_packed (cmd : CommandT) :
    (displacementX (packed (displacement cmd).1 (displacement cmd).2)).toInt =
        (displacement cmd).1 ∧
      (displacementY (packed (displacement cmd).1 (displacement cmd).2)).toInt =
        (displacement cmd).2 := by
  cases cmd <;> decide

/-- **The user's copy** is the clamped sum. -/
theorem pushCrosshair_clamped {p : Pilot} {cmd : CommandT} (hmove : displacement cmd ≠ (0, 0)) :
    pushCrosshair (displacement cmd).1 (displacement cmd).2 p =
      ({ p with
          chx := clamped 79 (p.chx + (displacement cmd).1)
          chy := clamped 24 (p.chy + (displacement cmd).2) },
        [.moveXhairs (packed (displacement cmd).1 (displacement cmd).2)]) := by
  have hne : (displacement cmd).1 ≠ 0 ∨ (displacement cmd).2 ≠ 0 := by
    by_contra hboth
    rw [not_or, not_not, not_not] at hboth
    exact hmove (Prod.ext hboth.1 hboth.2)
  have hx : ∀ n : ℤ, clamped 79 n =
      if 0 > (if 80 ≤ n then 79 else n) then 0 else if 80 ≤ n then 79 else n := by
    intro n
    unfold clamped
    split_ifs <;> omega
  have hy : ∀ n : ℤ, clamped 24 n =
      if 0 > (if 24 ≤ n then 24 else n) then 0 else if 24 ≤ n then 24 else n := by
    intro n
    unfold clamped
    split_ifs <;> omega
  rw [pushCrosshair, if_pos hne, hx, hy]

theorem updateCrosshairs_move {next : Word} {p : Pilot} {cmd : CommandT}
    (hmove : displacement cmd ≠ (0, 0)) : updateCrosshairs next cmd p =
      some (pushCrosshair (displacement cmd).1 (displacement cmd).2 p) := by
  cases cmd with
  | left => rfl
  | right => rfl
  | up => rfl
  | down => rfl
  | noKey => exact absurd rfl hmove
  | quit => exact absurd rfl hmove
  | fire => exact absurd rfl hmove

/-- A push from within the limits crosses one of them at most. -/
theorem oneLimit_packed {mem : Memory} (h : WithinLimits mem) (cmd : CommandT) :
    OneLimit mem (packed (displacement cmd).1 (displacement cmd).2) := by
  obtain ⟨hx, hy⟩ := displacement_packed cmd
  obtain ⟨hleft, hright, htop, hbottom⟩ := h
  unfold OneLimit
  rw [hx, hy]
  cases cmd <;> simp only [displacement] <;> omega

/-! ## One event -/

section Step

variable {fuel : ℕ} {g g' : Game}

/-- **A key that moves the crosshairs** moves both copies. -/
theorem play_move (fuel : ℕ) {k : Key} (h : Agree g) (hmove : displacement k.cmd ≠ (0, 0)) :
    ∃ g', play fuel g (.key k) = some g' ∧ Agree g' := by
  let d := packed (displacement k.cmd).1 (displacement k.cmd).2
  let m₁ : Machine :=
    { g.driver with regs := k.regs, env := k.env, stack := [0, d], ebp := [] }
  have hstack : m₁.stack = 0 :: d :: [] := rfl
  obtain ⟨m', hrun, hmem, hvideo, -⟩ := movexhairs_run hstack
  obtain ⟨hx, hy⟩ := (limited_iff h.within d).mpr (oneLimit_packed h.within k.cmd)
  obtain ⟨hdx, hdy⟩ := displacement_packed k.cmd
  rw [hdx, h.x] at hx
  rw [hdy, h.y] at hy
  let p' : Pilot := { g.pilot with
    chx := clamped 79 (g.pilot.chx + (displacement k.cmd).1)
    chy := clamped 24 (g.pilot.chy + (displacement k.cmd).2) }
  have hplay : play fuel g (.key k) =
      some ⟨p', m', m'.video.getLast?.map Prod.fst⟩ := by
    have hserve : serve fuel g.driver ⟨.movexhairs, d, k.regs, k.env⟩ = some m' := hrun
    simp only [play, updateCrosshairs_move hmove, pushCrosshair_clamped hmove, deliver,
      Option.bind_eq_bind, Option.bind_some, List.foldlM_cons, List.foldlM_nil]
    rw [hserve]
    rfl
  have hx' : m'.mem.crosshairsX.toInt = p'.chx := by
    rw [hmem]
    exact hx
  have hy' : m'.mem.crosshairsY.toInt = p'.chy := by
    rw [hmem]
    exact hy
  have hbx := clamped_bounds (by decide : (0 : ℤ) ≤ 79) (g.pilot.chx + (displacement k.cmd).1)
  have hby := clamped_bounds (by decide : (0 : ℤ) ≤ 24) (g.pilot.chy + (displacement k.cmd).2)
  refine ⟨_, hplay, hx', hy', ⟨?_, ?_, ?_, ?_⟩, ?_⟩
  · exact hx'.symm ▸ hbx.1
  · exact hx'.symm ▸ hbx.2
  · exact hy'.symm ▸ hby.1
  · exact hy'.symm ▸ hby.2
  · intro offset hoffset
    have hlast : m'.video.getLast? = some (crosshairsOffset m'.mem, 43) := by
      rw [hvideo]
      simp
    have hdrawn : m'.video.getLast?.map Prod.fst = some offset := hoffset
    rw [hlast] at hdrawn
    exact (Option.some.inj hdrawn).symm

/-- Both copies stay where they are. -/
theorem Agree.of_aside (h : Agree g) (hpilot : g'.pilot.chx = g.pilot.chx ∧
    g'.pilot.chy = g.pilot.chy) (hdrawn : g'.drawn = g.drawn)
    (haside : crosshairs g'.driver.mem = crosshairs g.driver.mem) : Agree g' := by
  obtain ⟨hx, hy⟩ := Prod.mk.inj haside
  obtain ⟨hax, hay, ⟨hleft, hright, htop, hbottom⟩, hlast⟩ := h
  constructor
  · rw [hx, hpilot.1]
    exact hax
  · rw [hy, hpilot.2]
    exact hay
  · constructor
    · rw [hx]
      exact hleft
    · rw [hx]
      exact hright
    · rw [hy]
      exact htop
    · rw [hy]
      exact hbottom
  · intro offset hoffset
    rw [hdrawn] at hoffset
    have hsame : crosshairsOffset g'.driver.mem = crosshairsOffset g.driver.mem := by
      unfold crosshairsOffset
      rw [hx, hy]
    rw [hsame]
    exact hlast offset hoffset

/-- What a missile carries as its destination. -/
theorem makeMissile_dest {next : Word} {sx sy dx dy vel : ℤ} {c : Byte} {f : Missile}
    (h : makeMissile next sx sy dx dy c vel = some f) :
    f.destX = BitVec.ofInt 32 dx ∧ f.destY = BitVec.ofInt 32 dy := by
  unfold makeMissile at h
  simp only [Option.bind_eq_bind, Option.bind_eq_some_iff] at h
  obtain ⟨_, -, _, -, _, -, _, -, _, -, _, -, _, -, _, -, _, -, _, -, h⟩ := h
  obtain rfl := Option.some.inj h
  exact ⟨rfl, rfl⟩

/-- The driver adds a missile. -/
theorem Agree.missile {k : Key} {f : Missile} (h : Agree g)
    (hdeliver : deliver fuel k g (.addMissile f) = some g') : Agree g' := by
  let r : Request := ⟨.addmissile, k.arg, k.regs, { k.env with userMissile := f }⟩
  have hstart : r.command ≠ .startgame := by rintro ⟨⟩
  have hmove : r.command ≠ .movexhairs := by rintro ⟨⟩
  have hmap : (serve fuel g.driver r).map (fun m => { g with driver := m }) = some g' := hdeliver
  generalize r = r at hstart hmove hmap
  obtain ⟨m, hserve, rfl⟩ := Option.map_eq_some_iff.mp hmap
  exact h.of_aside ⟨rfl, rfl⟩ rfl (serve_aside hstart hmove hserve)

/-- **A key that moves nothing** calls the driver to add a missile at most. -/
theorem play_still {k : Key} (h : Agree g) (hstill : displacement k.cmd = (0, 0))
    (hplay : play fuel g (.key k) = some g') : Agree g' := by
  obtain ⟨⟨p, calls⟩, hupdate, hcalls⟩ := Option.bind_eq_some_iff.mp hplay
  have hquiet : (p, calls) = (g.pilot, []) → Agree g' := by
    intro heq
    obtain ⟨rfl, rfl⟩ := Prod.mk.inj heq
    obtain rfl := Option.some.inj hcalls
    exact h
  cases hcmd : k.cmd with
  | noKey =>
      rw [hcmd] at hupdate
      exact hquiet (Option.some.inj hupdate).symm
  | quit =>
      rw [hcmd] at hupdate
      exact hquiet (Option.some.inj hupdate).symm
  | fire =>
      rw [hcmd] at hupdate
      obtain ⟨f, -, hpair⟩ := Option.bind_eq_some_iff.mp hupdate
      obtain ⟨rfl, rfl⟩ := Prod.mk.inj (Option.some.inj hpair)
      have hfired : Agree { g with pilot := { g.pilot with fired := g.pilot.fired + 1 } } :=
        h.of_aside ⟨rfl, rfl⟩ rfl rfl
      simp only [List.foldlM_cons, List.foldlM_nil, bind_pure] at hcalls
      exact hfired.missile hcalls
  | left => rw [hcmd] at hstill; cases hstill
  | right => rw [hcmd] at hstill; cases hstill
  | up => rw [hcmd] at hstill; cases hstill
  | down => rw [hcmd] at hstill; cases hstill

theorem play_agrees {e : Event} (h : Agree g) (he : Foreign e) (hplay : play fuel g e = some g') :
    Agree g' := by
  cases e with
  | other r =>
      simp only [play] at hplay
      obtain ⟨m, hserve, rfl⟩ := Option.map_eq_some_iff.mp hplay
      exact h.of_aside ⟨rfl, rfl⟩ rfl (serve_aside he.1 he.2 hserve)
  | key k =>
      by_cases hmove : displacement k.cmd = (0, 0)
      · exact play_still h hmove hplay
      · obtain ⟨g'', hplay', hagree⟩ := play_move fuel h hmove
        obtain rfl := Option.some.inj (hplay.symm.trans hplay')
        exact hagree

theorem play_advances {e : Event} (h : Agree g) (he : Foreign e) : Advances fuel g e := by
  refine ⟨fun g' hplay => play_agrees h he hplay, ?_⟩
  rintro k rfl hfire
  by_cases hmove : displacement k.cmd = (0, 0)
  · refine ⟨g, ?_⟩
    cases hcmd : k.cmd with
    | noKey => simp [play, updateCrosshairs, hcmd]
    | quit => simp [play, updateCrosshairs, hcmd]
    | fire => exact absurd hcmd hfire
    | left => rw [hcmd] at hmove; cases hmove
    | right => rw [hcmd] at hmove; cases hmove
    | up => rw [hcmd] at hmove; cases hmove
    | down => rw [hcmd] at hmove; cases hmove
  · obtain ⟨g', hplay, -⟩ := play_move fuel h hmove
    exact ⟨g', hplay⟩

/-- **Every shot is aimed** at the crosshairs of the driver. -/
theorem Agree.aimed (h : Agree g) (e : Event) : Aimed g e := by
  cases e with
  | other r => trivial
  | key k =>
      intro p calls hupdate f hf
      by_cases hmove : displacement k.cmd = (0, 0)
      · cases hcmd : k.cmd with
        | fire =>
            rw [hcmd] at hupdate
            obtain ⟨f', hmake, hpair⟩ := Option.bind_eq_some_iff.mp hupdate
            obtain ⟨-, rfl⟩ := Prod.mk.inj (Option.some.inj hpair)
            obtain rfl : f = f' := IoctlCall.addMissile.inj (List.mem_singleton.mp hf)
            obtain ⟨hx, hy⟩ := makeMissile_dest hmake
            rw [← h.x, BitVec.ofInt_toInt] at hx
            rw [← h.y, BitVec.ofInt_toInt] at hy
            refine ⟨hx, hy, fun offset hoffset => ?_⟩
            rw [hx, hy]
            exact h.drawn offset hoffset
        | noKey =>
            rw [hcmd] at hupdate
            obtain ⟨-, rfl⟩ := Prod.mk.inj (Option.some.inj hupdate)
            cases hf
        | quit =>
            rw [hcmd] at hupdate
            obtain ⟨-, rfl⟩ := Prod.mk.inj (Option.some.inj hupdate)
            cases hf
        | left => rw [hcmd] at hmove; cases hmove
        | right => rw [hcmd] at hmove; cases hmove
        | up => rw [hcmd] at hmove; cases hmove
        | down => rw [hcmd] at hmove; cases hmove
      · rw [updateCrosshairs_move hmove, pushCrosshair_clamped hmove] at hupdate
        obtain ⟨-, rfl⟩ := Prod.mk.inj (Option.some.inj hupdate)
        cases List.mem_singleton.mp hf

end Step

/-- **The two copies agree** after every key of a game, whoever else calls the driver in between,
and every shot is aimed at the cell where the crosshairs were last drawn. -/
theorem crosshairs_agree (fuel : ℕ) (m : Machine) (arg : Word) (regs : Regs) (env : Env)
    {events : List Event} (hforeign : ∀ e ∈ events, Foreign e) :
    ∃ m₁, serve fuel m ⟨.startgame, arg, regs, env⟩ = some m₁ ∧ Agree ⟨newPilot, m₁, none⟩ ∧
      everyStep (play fuel) (fun g e => Aimed g e ∧ Advances fuel g e) ⟨newPilot, m₁, none⟩
        events := by
  obtain ⟨m₁, hstart, hmem⟩ := startgame_restarted fuel m arg regs env
  have hagree : Agree ⟨newPilot, m₁, none⟩ := by
    constructor
    · rw [hmem]
      rfl
    · rw [hmem]
      rfl
    · rw [hmem]
      exact restarted_within m.mem
    · rintro offset ⟨⟩
  refine ⟨m₁, hstart, hagree, everyStep_of_invariant (I := Agree) (A := Foreign) ?_ ?_ hagree
    hforeign⟩
  · intro g e g' h he hplay
    exact play_agrees h he hplay
  · intro g e h he
    exact ⟨h.aimed e, play_advances h he⟩

/-- A step to the right, a tick and a shot. -/
def firstShot : List Event :=
  [.key ⟨.right, 0, 0, zeroRegs, kernel⟩, .other ⟨.rtcTasklet, 0, zeroRegs, kernel⟩,
    .key ⟨.fire, 0, 4096, zeroRegs, kernel⟩]

theorem crosshairs_agree_firstShot :
    ∃ m₁, serve 4 lastBase ⟨.startgame, 0, zeroRegs, kernel⟩ = some m₁ ∧
      Agree ⟨newPilot, m₁, none⟩ ∧
      everyStep (play 4) (fun g e => Aimed g e ∧ Advances 4 g e) ⟨newPilot, m₁, none⟩ firstShot := by
  refine crosshairs_agree 4 lastBase 0 zeroRegs kernel ?_
  intro e he
  simp only [firstShot, List.mem_cons, List.not_mem_nil, or_false] at he
  rcases he with rfl | rfl | rfl
  · trivial
  · exact ⟨by decide, by decide⟩
  · trivial

end MachineProblems.Analysis.Piloting
