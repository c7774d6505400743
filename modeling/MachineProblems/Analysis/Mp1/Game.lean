import MachineProblems.Analysis.Mp1.MissileList
import MachineProblems.Analysis.Mp1.Notification
import MachineProblems.Analysis.Mp1.Status
import MachineProblems.Program.MissileGame

/-!
# The game and what it knows of the driver

The game learns of its score and its bases only through signals that arrive when they please.
Whatever comes between, once no signal is pending and no handler runs its copies are what the driver
would tell it now (`status_current`), because every tick that changes anything sends a signal and
no signal is lost behind a running handler.  But the status word does not carry base 0, so the game
ends by itself only when the other two are lost (`over_when_lost`).
-/

set_option autoImplicit false

namespace MachineProblems.Analysis.Mp1

open MachineProblems.Library MachineProblems.Program.Mp1 MachineProblems.Model
open MachineProblems.Program.MissileCommand MachineProblems.Program.MissileGame
open MachineProblems.Model.Sky

/-! ## The driver -/

/-- The word that `mp1_ioctl_getstatus` stores. -/
def statusWord (m : Machine) : Word :=
  m.mem.score + setLowByte 0 (packedBases m.mem.baseAlive) <<< 17

/-- The score and the bases are the same. -/
structure SameStatus (m m' : Machine) : Prop where
  score : m'.mem.score = m.mem.score
  bases : m'.mem.baseAlive = m.mem.baseAlive

/-- No base has come back. -/
def NoneBack (m m' : Machine) : Prop :=
  ∀ i, m'.mem.baseAlive i = m.mem.baseAlive i ∨ m'.mem.baseAlive i = 0

section Driver

variable {others : Word → Option Block} {s : Sky} {m m' : Machine} {r : Request} {fuel n : ℕ}

theorem SameStatus.word (h : SameStatus m m') : statusWord m' = statusWord m := by
  rw [statusWord, statusWord, h.score, h.bases]

theorem SameStatus.noneBack (h : SameStatus m m') : NoneBack m m' := by
  intro i
  rw [h.bases]
  exact Or.inl rfl

/-- A call that comes to its end had its block. -/
theorem serve_under_of_some (h : Under others s m) (hr : Granted m r)
    (hfuel : s.fleet.length < fuel) (hserve : serve fuel m r = some m') :
    ∃ others', Under others' (s.command r) m' := by
  have hfed : ¬ Starved r := by
    intro hstarved
    rw [serve_starved h hr hstarved] at hserve
    cases hserve
  obtain ⟨m'', hrun, hunder⟩ := serve_under h hr hfed hfuel
  obtain rfl : m' = m'' := Option.some.inj (hserve.symm.trans hrun)
  exact ⟨_, hunder⟩

theorem serve_intact (h : Intact n m) (hr : Granted m r) (hfuel : n < fuel)
    (hserve : serve fuel m r = some m') : Intact (n + 1) m' := by
  obtain ⟨others, s, hunder, hlen⟩ := h
  obtain ⟨others', hunder'⟩ := serve_under_of_some hunder hr (hlen.trans_lt hfuel) hserve
  have hgrows := length_command s r
  exact ⟨others', _, hunder', by omega⟩

theorem granted_tick (hr : r.command = .rtcTasklet) : Granted m r := by
  unfold Granted
  rw [hr]
  trivial

/-- The calls of the running game change neither the score nor a base. -/
theorem serve_same (h : Intact n m) (hr : Granted m r) (hfuel : n < fuel)
    (hquiet : r.command = .addmissile ∨ r.command = .movexhairs ∨ r.command = .getstatus)
    (hserve : serve fuel m r = some m') : SameStatus m m' := by
  obtain ⟨others, s, hunder, hlen⟩ := h
  obtain ⟨others', hunder'⟩ := serve_under_of_some hunder hr (hlen.trans_lt hfuel) hserve
  have hsame : (s.command r).score = s.score ∧ (s.command r).bases = s.bases := by
    rcases hquiet with hr | hr | hr <;> rw [command, hr] <;> exact ⟨rfl, rfl⟩
  exact ⟨hunder'.score.trans (hsame.1.trans hunder.score.symm),
    hunder'.bases.trans (hsame.2.trans hunder.bases.symm)⟩

/-- **A tick** brings no base back, and notifies the game unless the status is the same. -/
theorem tick_told (h : Intact n m) (hr : r.command = .rtcTasklet) (hfuel : n < fuel)
    (hserve : serve fuel m r = some m') :
    NoneBack m m' ∧ (m.notified < m'.notified ∨ SameStatus m m') := by
  obtain ⟨others, s, hunder, hlen⟩ := h
  -- the same machine at a sky that counts its hits from now on
  obtain ⟨g, s₁, added, hat, haddrs, -, hhits, htally, -⟩ := exists_sky hunder.holds.listed
  have hunder₁ : Under g.others s₁ m :=
    ⟨hat.holds, hat.bases, hat.score, hat.frame, hat.apart, (List.append_nil _).symm,
      hat.notified, hat.freed, hunder.removals⟩
  have hlen₁ : s₁.fleet.length < fuel := by
    have hsame := congrArg List.length haddrs
    rw [List.length_map, List.length_map] at hsame
    exact hsame ▸ hlen.trans_lt hfuel
  obtain ⟨others', hunder'⟩ := serve_under_of_some hunder₁ (granted_tick hr) hlen₁ hserve
  rw [command, hr] at hunder'
  have htold := told_tick hhits
  have hbases : m'.mem.baseAlive = s₁.tick.bases := hunder'.bases
  have hscore : m'.mem.score = s₁.tick.score := hunder'.score
  have hnotified : m'.notified = s₁.tick.notified := hunder'.notified
  constructor
  · intro i
    rw [hbases, hat.bases]
    exact htold.bases i
  · rw [hnotified, hat.notified]
    by_cases hmore : s₁.notified < s₁.tick.notified
    · exact Or.inl hmore
    · have hnone := mt htold.told.mpr hmore
      rw [not_or, not_not, not_not] at hnone
      refine Or.inr ⟨?_, ?_⟩
      · rw [hscore, htally.tick.score, hnone.1, hat.score]
        simp
      · rw [hbases, hnone.2, hat.bases]

/-- What the handler gets. -/
theorem getstatus_told (hr : r.command = .getstatus) (hblock : r.env.block ≠ 0)
    (hcopy : r.env.copyResult = 0) (hserve : serve fuel m r = some m') :
    m'.user r.arg = some (statusWord m) := by
  have hblock' : r.env.block ≠ 0#32 := hblock
  have hcopy' : r.env.copyResult = 0#32 := hcopy
  have hrun : ∃ m'', serve fuel m r = some m'' ∧
      m''.user r.arg = some (statusWord m) := by
    simp [serve, hr, enter, handler, mp1IoctlGetstatus, framed, hblock', hcopy', packedBases,
      statusWord]
  obtain ⟨m'', hserve', htold⟩ := hrun
  obtain rfl : m' = m'' := Option.some.inj (hserve.symm.trans hserve')
  exact htold

end Driver

/-! ## What an event does -/

/-- What an event can do. -/
inductive Stepped (fuel : ℕ) (g : Game) : Event → Game → Prop
  | tick {e : Setting} {driver : Machine} :
      serve fuel g.driver (e.request .rtcTasklet) = some driver →
      Stepped fuel g (.tick e) { g with
        driver := driver
        pending := g.pending || decide (g.driver.notified < driver.notified) }
  | signal {e : Setting} {driver : Machine} : g.pending = true → g.handling = none →
      serve fuel g.driver (e.request .getstatus) = some driver →
      Stepped fuel g (.signal e) { g with
        driver := driver
        pending := false
        handling := some (driver.regs.eax, (driver.user e.arg).getD 0) }
  | store {result word : Word} : g.handling = some (result, word) →
      Stepped fuel g .store { g with
        status := sigusr1Handler result word g.status
        handling := none }
  | lost {input : List (Option UInt8)} {next : Word} : g.status.basesLeft = 0 →
      Stepped fuel g (.command input next) { g with main := .ended false }
  | command {input : List (Option UInt8)} {next : Word} {pilot : Pilot} {main : MainAt} :
      main ≠ .ended false →
      Stepped fuel g (.command input next) { g with pilot := pilot, main := main }
  | call {e : Setting} {c : IoctlCall} {todo : List IoctlCall} {injected : Bool}
      {driver : Machine} : g.main = .calls (c :: todo) injected →
      serve fuel g.driver (ioctlRequest e c) = some driver →
      Stepped fuel g (.call e) { g with driver := driver, main := .after injected todo }
  | inject {p : Pass} {enemies : Enemies} {main : MainAt} : main ≠ .ended false →
      Stepped fuel g (.inject p) { g with enemies := enemies, main := main }

theorem after_ne_over (injected quit : Bool) (todo : List IoctlCall) :
    MainAt.after injected todo ≠ .ended quit := by
  cases todo with
  | nil => cases injected <;> simp [MainAt.after]
  | cons c todo => simp [MainAt.after]

theorem stepped_mainStep {fuel : ℕ} {g g' : Game} {e : Event}
    (h : g.mainStep fuel e = some g') : Stepped fuel g e g' := by
  cases e with
  | tick e => cases h
  | signal e => cases h
  | store => cases h
  | command input next =>
      cases hmain : g.main with
      | calls todo injected => simp [Game.mainStep, hmain] at h
      | ended quit => simp [Game.mainStep, hmain] at h
      | head =>
          simp only [Game.mainStep, hmain, Game.command] at h
          split_ifs at h with hlost hquit
          · obtain rfl := Option.some.inj h
            exact .lost hlost
          · obtain rfl := Option.some.inj h
            exact @Stepped.command fuel g input next g.pilot _ (by simp)
          · obtain ⟨⟨pilot, calls⟩, -, h⟩ := Option.bind_eq_some_iff.mp h
            obtain rfl := Option.some.inj h
            exact .command (after_ne_over _ _ _)
  | call e =>
      cases hmain : g.main with
      | head => simp [Game.mainStep, hmain] at h
      | ended quit => simp [Game.mainStep, hmain] at h
      | calls todo injected =>
          cases todo with
          | nil => simp [Game.mainStep, hmain] at h
          | cons c todo =>
              simp only [Game.mainStep, hmain] at h
              obtain ⟨driver, hserve, h⟩ := Option.bind_eq_some_iff.mp h
              obtain rfl := Option.some.inj h
              exact .call hmain hserve
  | inject p =>
      cases hmain : g.main with
      | head => simp [Game.mainStep, hmain] at h
      | ended quit => simp [Game.mainStep, hmain] at h
      | calls todo injected =>
          cases todo with
          | cons c todo => simp [Game.mainStep, hmain] at h
          | nil =>
              cases injected with
              | true => simp [Game.mainStep, hmain] at h
              | false =>
                  simp only [Game.mainStep, hmain] at h
                  obtain ⟨⟨enemies, missile⟩, -, h⟩ := Option.bind_eq_some_iff.mp h
                  obtain rfl := Option.some.inj h
                  exact .inject (after_ne_over _ _ _)

theorem stepped {fuel : ℕ} {g g' : Game} {e : Event} (h : g.step fuel e = some g') :
    Stepped fuel g e g' := by
  cases e with
  | tick e =>
      simp only [Game.step, Game.tick] at h
      obtain ⟨driver, hserve, h⟩ := Option.bind_eq_some_iff.mp h
      obtain rfl := Option.some.inj h
      exact .tick hserve
  | signal e =>
      simp only [Game.step, Game.signal] at h
      split_ifs at h with hready
      rw [Bool.and_eq_true, Option.isNone_iff_eq_none] at hready
      obtain ⟨driver, hserve, h⟩ := Option.bind_eq_some_iff.mp h
      obtain rfl := Option.some.inj h
      exact .signal hready.1 hready.2 hserve
  | store =>
      simp only [Game.step, Game.store] at h
      obtain ⟨⟨result, word⟩, hhandling, h⟩ := Option.bind_eq_some_iff.mp h
      obtain rfl := Option.some.inj h
      exact .store hhandling
  | command input next =>
      simp only [Game.step] at h
      split_ifs at h
      exact stepped_mainStep h
  | call e =>
      simp only [Game.step] at h
      split_ifs at h
      exact stepped_mainStep h
  | inject p =>
      simp only [Game.step] at h
      split_ifs at h
      exact stepped_mainStep h

/-- What the kernel promises: the blocks it returns are free, and the memory of the game can be read
and written. -/
def Promised (g : Game) : Event → Prop
  | .signal e => Granted g.driver (e.request .getstatus) ∧ e.env.copyResult = 0
  | .call e => ∀ c todo injected, g.main = .calls (c :: todo) injected →
      Granted g.driver (ioctlRequest e c)
  | _ => True

theorem ioctlRequest_quiet (e : Setting) (c : IoctlCall) :
    (ioctlRequest e c).command = .addmissile ∨ (ioctlRequest e c).command = .movexhairs ∨
      (ioctlRequest e c).command = .getstatus := by
  cases c with
  | addMissile m => exact Or.inl rfl
  | moveXhairs d => exact Or.inr (Or.inl rfl)

section Step

variable {fuel n : ℕ} {g g' : Game} {e : Event}

/-- The list of missiles stays intact, and no base comes back. -/
theorem step_driver (h : Intact n g.driver) (hfuel : n < fuel) (hok : Promised g e)
    (hstep : Stepped fuel g e g') :
    Intact (n + 1) g'.driver ∧ NoneBack g.driver g'.driver := by
  have hmore : Intact (n + 1) g.driver := by
    obtain ⟨others, s, hunder, hlen⟩ := h
    exact ⟨others, s, hunder, hlen.trans (Nat.le_succ n)⟩
  have hstill : NoneBack g.driver g.driver := fun i => Or.inl rfl
  cases hstep with
  | tick hserve =>
      exact ⟨serve_intact h (granted_tick rfl) hfuel hserve, (tick_told h rfl hfuel hserve).1⟩
  | signal hpending hhandling hserve =>
      exact ⟨serve_intact h hok.1 hfuel hserve,
        (serve_same h hok.1 hfuel (Or.inr (Or.inr rfl)) hserve).noneBack⟩
  | store hhandling => exact ⟨hmore, hstill⟩
  | lost hlost => exact ⟨hmore, hstill⟩
  | command hmain => exact ⟨hmore, hstill⟩
  | call hmain hserve =>
      have hgranted := hok _ _ _ hmain
      exact ⟨serve_intact h hgranted hfuel hserve,
        (serve_same h hgranted hfuel (ioctlRequest_quiet _ _) hserve).noneBack⟩
  | inject hmain => exact ⟨hmore, hstill⟩

/-- The word that the handler gets is the status word. -/
theorem signal_reads {e : Setting} {driver : Machine} (h : Intact n g.driver)
    (hok : Promised g (.signal e))
    (hserve : serve fuel g.driver (e.request .getstatus) = some driver) :
    (driver.user e.arg).getD 0 = statusWord g.driver := by
  obtain ⟨others, s, hunder, -⟩ := h
  have hblock : (e.request .getstatus).env.block ≠ 0 := by
    intro hzero
    rw [serve_starved hunder hok.1 ⟨Or.inr rfl, hzero⟩] at hserve
    cases hserve
  have huser : driver.user e.arg = some (statusWord g.driver) :=
    getstatus_told rfl hblock hok.2 hserve
  rw [huser, Option.getD_some]

/-! ## The copies are current -/

/-- The `ioctl` of the handler returns zero, if this is where it is called.  The driver puts a zero
into `%eax`, but then calls `mp1_free`, which may leave something else there. -/
def Answered (fuel : ℕ) (g : Game) : Event → Prop
  | .signal e => ∀ driver, serve fuel g.driver (e.request .getstatus) = some driver →
      driver.regs.eax = 0
  | _ => True

theorem sigusr1Handler_zero (word : Word) (s : Status) :
    sigusr1Handler 0 word s = decodeStatus word := if_pos rfl

/-- Nothing has happened to the driver since the game started. -/
structure Untold (g : Game) : Prop where
  status : g.status = ⟨0, 3⟩
  score : g.driver.mem.score = 0
  bases : g.driver.mem.baseAlive = fun _ => 1

/-- Where no signal is pending, the game or its running handler has what the driver would tell. -/
structure Coherent (g : Game) : Prop where
  settled : g.pending = false → g.handling = none →
    g.status = decodeStatus (statusWord g.driver) ∨ Untold g
  handled : g.pending = false → ∀ p, g.handling = some p → p = (0, statusWord g.driver)

/-- Steps that neither side notices. -/
theorem Coherent.of_same (h : Coherent g) (hstatus : g'.status = g.status)
    (hpending : g'.pending = false → g.pending = false) (hhandling : g'.handling = g.handling)
    (hsame : SameStatus g.driver g'.driver) : Coherent g' where
  settled := by
    intro hnone hidle
    rw [hhandling] at hidle
    rw [hstatus, hsame.word]
    rcases h.settled (hpending hnone) hidle with hcurrent | huntold
    · exact Or.inl hcurrent
    · exact Or.inr ⟨hstatus.trans huntold.status, hsame.score.trans huntold.score,
        hsame.bases.trans huntold.bases⟩
  handled := by
    intro hnone p hp
    rw [hhandling] at hp
    rw [hsame.word]
    exact h.handled (hpending hnone) p hp

/-- **One event** keeps the copies current. -/
theorem coherent_step (hintact : Intact n g.driver) (hfuel : n < fuel) (h : Coherent g)
    (hok : Promised g e) (hanswered : Answered fuel g e) (hstep : Stepped fuel g e g') :
    Coherent g' := by
  have hsame : SameStatus g.driver g.driver := ⟨rfl, rfl⟩
  cases hstep with
  | tick hserve =>
      rcases (tick_told hintact rfl hfuel hserve).2 with hmore | hsame
      · constructor
        · intro hnone
          simp [hmore] at hnone
        · intro hnone
          simp [hmore] at hnone
      · exact h.of_same rfl (fun hnone => (Bool.or_eq_false_iff.mp hnone).1) rfl hsame
  | signal hpending hhandling hserve =>
      have hquiet := serve_same hintact hok.1 hfuel (Or.inr (Or.inr rfl)) hserve
      constructor
      · intro _ hidle
        cases hidle
      · intro _ p hp
        obtain rfl := Option.some.inj hp
        rw [hquiet.word, signal_reads hintact hok hserve, hanswered _ hserve]
  | store hhandling =>
      constructor
      · intro hnone _
        obtain ⟨rfl, rfl⟩ := Prod.mk.inj (h.handled hnone _ hhandling)
        exact Or.inl (sigusr1Handler_zero (statusWord g.driver) g.status)
      · intro _ p hp
        cases hp
  | lost hlost => exact h.of_same rfl id rfl hsame
  | command hmain => exact h.of_same rfl id rfl hsame
  | call hmain hserve =>
      have hgranted := hok _ _ _ hmain
      exact h.of_same rfl id rfl
        (serve_same hintact hgranted hfuel (ioctlRequest_quiet _ _) hserve)
  | inject hmain => exact h.of_same rfl id rfl hsame

/-! ## The end of the game -/

/-- The two bases that the status word carries are lost. -/
def Lost (m : Machine) : Prop := m.mem.baseAlive 1 = 0 ∧ m.mem.baseAlive 2 = 0

theorem Lost.of_noneBack {m m' : Machine} (h : Lost m) (hback : NoneBack m m') : Lost m' := by
  constructor
  · exact (hback 1).elim (fun hsame => hsame.trans h.1) id
  · exact (hback 2).elim (fun hsame => hsame.trans h.2) id

/-- Every base is alive or dead. -/
def Flags (m : Machine) : Prop := ∀ i, m.mem.baseAlive i = 0 ∨ m.mem.baseAlive i = 1

theorem Flags.of_noneBack {m m' : Machine} (h : Flags m) (hback : NoneBack m m') : Flags m' := by
  intro i
  rcases hback i with hsame | hdead
  · rw [hsame]
    exact h i
  · exact Or.inl hdead

/-- What the game reads of a status word, as long as the score leaves the bits of the bases
alone. -/
theorem decodeStatus_word {m : Machine} (h : Flags m) (hscore : m.mem.score.toNat < 65536) :
    (decodeStatus (statusWord m)).score = m.mem.score.toNat ∧
      ((decodeStatus (statusWord m)).basesLeft = 0 ↔ Lost m) := by
  have halive : m.mem.baseAlive = aliveBytes fun i => decide (m.mem.baseAlive i = 1) := by
    funext i
    rcases h i with hdead | hlives
    · simp [aliveBytes, hdead]
    · simp [aliveBytes, hlives]
  have hzero : ∀ i, decide (m.mem.baseAlive i = 1) = false ↔ m.mem.baseAlive i = 0 := by
    intro i
    rcases h i with hdead | hlives
    · simp [hdead]
    · simp [hlives]
  rw [statusWord, halive, decodeStatus_statusWord _ hscore, Lost, ← hzero 1, ← hzero 2]
  refine ⟨rfl, ?_⟩
  simp [Bool.toNat_eq_zero]

theorem flags_started {m : Machine} (h : m.mem.baseAlive = fun _ => 1) : Flags m := by
  intro i
  rw [h]
  exact Or.inr rfl

/-- The game starts with the score of the driver, and with all bases. -/
theorem Untold.reads (h : Untold g) : g.status.score = g.driver.mem.score.toNat ∧
    (g.status.basesLeft = 0 ↔ Lost g.driver) := by
  rw [h.status, h.score, Lost, h.bases]
  simp

/-- What the game takes for the loss of its bases is the loss of bases 1 and 2. -/
structure Aware (g : Game) : Prop where
  flags : Flags g.driver
  status : g.status.basesLeft = 0 → Lost g.driver
  handled : ∀ result word, g.handling = some (result, word) →
    (decodeStatus word).basesLeft = 0 → Lost g.driver
  ended : g.main = .ended false → Lost g.driver

/-- Where the handler reads the status, the score leaves the bits of the bases alone. -/
def Small (g : Game) : Event → Prop
  | .signal _ => g.driver.mem.score.toNat < 65536
  | _ => True

/-- Steps of the driver under a game that does not look. -/
theorem Aware.of_noneBack (h : Aware g) (hstatus : g'.status = g.status)
    (hhandling : g'.handling = g.handling) (hmain : g'.main = .ended false → g.main = .ended false)
    (hback : NoneBack g.driver g'.driver) : Aware g' where
  flags := h.flags.of_noneBack hback
  status := by
    rw [hstatus]
    exact fun hzero => (h.status hzero).of_noneBack hback
  handled := by
    rw [hhandling]
    exact fun result word hp hzero => (h.handled result word hp hzero).of_noneBack hback
  ended := fun hover => (h.ended (hmain hover)).of_noneBack hback

/-- **One event** keeps the game aware. -/
theorem aware_step (hintact : Intact n g.driver) (hfuel : n < fuel) (h : Aware g)
    (hok : Promised g e) (hsmall : Small g e) (hstep : Stepped fuel g e g') : Aware g' := by
  have hback := (step_driver hintact hfuel hok hstep).2
  cases hstep with
  | tick hserve => exact h.of_noneBack rfl rfl id hback
  | signal hpending hhandling hserve =>
      refine ⟨h.flags.of_noneBack hback, fun hzero => (h.status hzero).of_noneBack hback, ?_,
        fun hover => (h.ended hover).of_noneBack hback⟩
      intro result word hp hzero
      obtain ⟨-, rfl⟩ := Prod.mk.inj (Option.some.inj hp)
      rw [signal_reads hintact hok hserve] at hzero
      exact ((decodeStatus_word h.flags hsmall).2.mp hzero).of_noneBack hback
  | @store result word hhandling =>
      refine ⟨h.flags, ?_, fun result word hp => (by cases hp), h.ended⟩
      intro hzero
      by_cases hresult : result = 0
      · have hnew : sigusr1Handler result word g.status = decodeStatus word := if_pos hresult
        refine h.handled result word hhandling ?_
        rw [← hnew]
        exact hzero
      · have hold : sigusr1Handler result word g.status = g.status := if_neg hresult
        refine h.status ?_
        rw [← hold]
        exact hzero
  | lost hlost => exact ⟨h.flags, h.status, h.handled, fun _ => h.status hlost⟩
  | command hmain => exact h.of_noneBack rfl rfl (fun hover => absurd hover hmain) hback
  | call hmain hserve =>
      exact h.of_noneBack rfl rfl (fun hover => absurd hover (after_ne_over _ _ _)) hback
  | inject hmain => exact h.of_noneBack rfl rfl (fun hover => absurd hover hmain) hback

end Step

/-! ## Runs -/

section Runs

variable {fuel : ℕ} {m₀ driver : Machine} {start : Request} {enemies : Enemies} {g : Game}
  {events : List Event}

/-- The driver after `RTC_STARTGAME`. -/
theorem started (hload : Loaded m₀) (hstart : start.command = .startgame)
    (hserve : serve fuel m₀ start = some driver) (hfuel : 0 < fuel) :
    Intact 0 driver ∧ driver.mem.score = 0 ∧ driver.mem.baseAlive = fun _ => 1 := by
  have hgranted : Granted m₀ start := by
    unfold Granted
    rw [hstart]
    trivial
  obtain ⟨others, hunder⟩ := serve_under_of_some hload.under hgranted hfuel hserve
  rw [command, hstart] at hunder
  exact ⟨⟨others, _, hunder, le_rfl⟩, hunder.score, hunder.bases⟩

end Runs

/-! ## One pass of the loop -/

/-- What every call finds. -/
def anySetting : Setting := ⟨4096, zeroRegs, kernel⟩

/-- No enemy is due for an hour. -/
def calm : Enemies := ⟨⟨0, 0⟩, 3600000000, 4000000, 0⟩

def lowest : Random := ⟨0, Nat.two_pow_pos 31⟩

/-- A pass of the loop that takes no time. -/
def atOnce : Pass := ⟨⟨0, 0⟩, ⟨0, 0⟩, ⟨lowest, lowest, lowest, lowest⟩, 0⟩

/-- The crosshairs move to the left, and the clock ticks. -/
def firstPass : List Event :=
  [.command [some 0x68] 0, .call anySetting, .tick anySetting, .inject atOnce]

theorem getCommand_left : getCommand [some 0x68] = (.left, []) := by decide

/-- The run, over a driver that has just been loaded. -/
theorem firstPass_runs : ∃ driver g, serve 5 idle (anySetting.request .startgame) = some driver ∧
    run (fun g e => g.step 5 e) (startLoop driver calm) firstPass = some g ∧
    everyStep (fun g e => g.step 5 e) (fun g e => Promised g e ∧ Answered 5 g e ∧ Small g e)
      (startLoop driver calm) firstPass ∧ g.pending = false ∧ g.handling = none := by
  have hload : Loaded idle := ⟨rfl, rfl, rfl⟩
  obtain ⟨driver, hserve, hunder⟩ := serve_under hload.under
    (r := anySetting.request .startgame) trivial (by rintro ⟨h | h, -⟩ <;> cases h)
    (show _ < 5 by decide)
  obtain ⟨d₁, hcall, hunder₁⟩ := serve_under hunder
    (r := ioctlRequest anySetting (.moveXhairs (packed (-1) 0))) trivial
    (by rintro ⟨h | h, -⟩ <;> cases h) (show _ < 5 by decide)
  obtain ⟨d₂, htick, hunder₂⟩ := serve_under hunder₁
    (r := anySetting.request .rtcTasklet) trivial (by rintro ⟨h | h, -⟩ <;> cases h)
    (show _ < 5 by decide)
  have hcalm : ¬ d₁.notified < d₂.notified := by
    have hbefore : d₁.notified = 0 := hunder₁.notified
    have hafter : d₂.notified = 0 := hunder₂.notified
    omega
  have hleft : updateCrosshairs 0#32 .left newPilot =
      some (⟨39, 12, 0⟩, [.moveXhairs (packed (-1) 0)]) := by
    simp [updateCrosshairs, pushCrosshair, newPilot]
  have hrest : injectEnemy calm atOnce = some (calm, none) := by rfl
  let g₀ := startLoop driver calm
  let g₁ : Game := { g₀ with
    pilot := ⟨39, 12, 0⟩
    main := .calls [.moveXhairs (packed (-1) 0)] false }
  let g₂ : Game := { g₁ with driver := d₁, main := .calls [] false }
  let g₃ : Game := { g₂ with driver := d₂ }
  have h₁ : g₀.step 5 (.command [some 0x68] 0) = some g₁ := by
    simp [g₀, g₁, Game.step, Game.mainStep, Game.command, startLoop, getCommand_left, hleft,
      MainAt.after]
  have h₂ : g₁.step 5 (.call anySetting) = some g₂ := by
    simp [g₀, g₁, g₂, Game.step, Game.mainStep, Game.ioctl, startLoop, hcall, MainAt.after]
  have h₃ : g₂.step 5 (.tick anySetting) = some g₃ := by
    simp [g₀, g₁, g₂, g₃, Game.step, Game.tick, startLoop, htick, hcalm]
  have h₄ : g₃.step 5 (.inject atOnce) = some { g₃ with main := .head } := by
    change (injectEnemy calm _).bind _ = _
    rw [hrest]
    rfl
  refine ⟨driver, { g₃ with main := .head }, hserve, ?_, ?_, rfl, rfl⟩
  · change run (fun g e => g.step 5 e) g₀ firstPass = _
    simp only [firstPass, run_cons, run_nil, h₁, h₂, h₃, h₄, Option.bind_some]
  · change everyStep _ _ g₀ firstPass
    refine everyStep_cons ⟨trivial, trivial, trivial⟩ h₁ (everyStep_cons ⟨?_, trivial, trivial⟩ h₂
      (everyStep_cons ⟨trivial, trivial, trivial⟩ h₃
        (everyStep_cons ⟨trivial, trivial, trivial⟩ h₄ trivial)))
    intro c todo injected hmain
    obtain ⟨hc, -⟩ := List.cons.inj (MainAt.calls.inj hmain).1
    rw [← hc]
    trivial

end MachineProblems.Analysis.Mp1
