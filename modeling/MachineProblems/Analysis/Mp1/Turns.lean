import MachineProblems.Analysis.Mp1.Removal
import MachineProblems.Analysis.Mp1.Explosions

/-!
# One missile of a tick

Whatever `update_missiles` does to a missile, it ends at `end_of_loop` or at `missile_remove`
with the registers that carry the traversal unchanged: `%edx` the missile, `%edi` its
predecessor.  Up to there the machine follows the turn of the missile in the sky, byte for
byte of what is drawn.
-/

set_option autoImplicit false

namespace MachineProblems.Analysis.Mp1

open MachineProblems.Library MachineProblems.Program.Mp1 MachineProblems.Model
open MachineProblems.Model.Sky

/-! ## The machine under a sky -/

/-- What the sky does not see: the blocks that hold none of its missiles, what was on the screen
before, and the removals before. -/
structure Ground where
  others : Word → Option Block
  shown : List (Word × Byte)
  earlier : List Removal

/-- The machine is at the sky `s` over the ground `g`. -/
structure At (g : Ground) (s : Sky) (m : Machine) : Prop where
  holds : Holds m.mem s.fleet
  bases : m.mem.baseAlive = s.bases
  score : m.mem.score = s.score
  frame : ∀ a, a ∉ s.fleet.map Flying.addr → m.mem.heap a = g.others a
  apart : ∀ u ∈ s.fleet, g.others u.addr = none
  video : m.video = g.shown ++ s.pokes
  notified : m.notified = s.notified
  freed : m.freed = s.freed
  removals : ∀ r ∈ m.removals, r ∈ g.earlier ∨ ProperRemoval r

/-- The missile `t` has its turn: it is in `%edx`, and `%edi` is its predecessor. -/
structure Serves (fuel : ℕ) (g : Ground) (s : Sky) (t : Flying) (m : Machine) : Prop where
  under : At g (s.facing t) m
  edx : m.regs.edx = t.addr
  pred : s.done = [] ∨ ∃ d u, s.done = d ++ [u] ∧ m.regs.edi = u.addr
  fuel : (s.facing t).fleet.length < fuel

/-- `m'` differs from `m` in the memory, the screen and the registers that the traversal does not
depend on. -/
structure Carries (m m' : Machine) : Prop where
  edx : m'.regs.edx = m.regs.edx
  edi : m'.regs.edi = m.regs.edi
  freed : m'.freed = m.freed
  removals : m'.removals = m.removals

section Steps

variable {fuel : ℕ} {g : Ground} {s : Sky} {t : Flying} {m m' : Machine}

theorem Serves.serving (h : Serves fuel g s t m) : Serving m.mem s t :=
  ⟨h.under.holds, h.under.bases, h.under.score⟩

/-- The machine does not know who has reached a destination. -/
theorem Serves.noted (h : Serves fuel g s t m) (ids : List ℕ) :
    Serves fuel g { s with reached := ids } t m := by
  obtain ⟨hunder, hedx, hpred, hfuel⟩ := h
  exact ⟨⟨hunder.holds, hunder.bases, hunder.score, hunder.frame, hunder.apart, hunder.video,
    hunder.notified, hunder.freed, hunder.removals⟩, hedx, hpred, hfuel⟩

/-- The fields of the missile, as its instructions find them. -/
theorem Serves.missile (h : Serves fuel g s t m) :
    ∃ w, m.mem.missileAt m.regs.edx = some { t.missile with next := w } := by
  rw [h.edx]
  obtain ⟨w, -, hw⟩ := h.serving.link
  exact ⟨w, hw⟩

/-- Nothing but registers and the screen changed. -/
theorem Serves.drawn (h : Serves fuel g s t m) (hc : Carries m m') (hmem : m'.mem = m.mem)
    (hnotified : m'.notified = m.notified) {drawn : List (Word × Byte)}
    (hvideo : m'.video = m.video ++ drawn) :
    Serves fuel g { s with pokes := s.pokes ++ drawn } t m' := by
  obtain ⟨hunder, hedx, hpred, hfuel⟩ := h
  refine ⟨⟨?_, ?_, ?_, ?_, hunder.apart, ?_, ?_, ?_, ?_⟩, ?_, ?_, hfuel⟩
  · rw [hmem]
    exact hunder.holds
  · rw [hmem]
    exact hunder.bases
  · rw [hmem]
    exact hunder.score
  · rw [hmem]
    exact hunder.frame
  · rw [hvideo, hunder.video, List.append_assoc]
    rfl
  · rw [hnotified]
    exact hunder.notified
  · rw [hc.freed]
    exact hunder.freed
  · rw [hc.removals]
    exact hunder.removals
  · rw [hc.edx, hedx]
  · rw [hc.edi]
    exact hpred

/-- The sky and the missile changed as the memory did. -/
theorem Serves.changed (h : Serves fuel g s t m) (hc : Carries m m') {s' : Sky} {f : Missile}
    (hserving : Serving m'.mem s' { t with missile := f })
    (houtside : Outside m.mem m'.mem ((s.facing t).fleet.map Flying.addr))
    (haddrs : (s'.facing { t with missile := f }).fleet.map Flying.addr =
      (s.facing t).fleet.map Flying.addr)
    (hdone : s'.done.map Flying.addr = s.done.map Flying.addr)
    (hpokes : s'.pokes = s.pokes) (hfreed : s'.freed = s.freed)
    (hvideo : m'.video = m.video) (hnotified : m'.notified = s'.notified) :
    Serves fuel g s' { t with missile := f } m' := by
  obtain ⟨hunder, hedx, hpred, hfuel⟩ := h
  have hlen : (s'.facing { t with missile := f }).fleet.length = (s.facing t).fleet.length := by
    have hmap := congrArg List.length haddrs
    simpa using hmap
  refine ⟨⟨hserving.holds, hserving.bases, hserving.score, ?_, ?_, ?_, hnotified, ?_, ?_⟩,
    ?_, ?_, ?_⟩
  · intro a ha
    rw [haddrs] at ha
    rw [houtside.heap a ha]
    exact hunder.frame a ha
  · intro u hu
    have hin : u.addr ∈ (s.facing t).fleet.map Flying.addr := by
      rw [← haddrs]
      exact List.mem_map_of_mem hu
    obtain ⟨v, hv, hsame⟩ := List.mem_map.mp hin
    rw [← hsame]
    exact hunder.apart v hv
  · rw [hvideo, hunder.video]
    exact congrArg (g.shown ++ ·) hpokes.symm
  · rw [hc.freed, hunder.freed]
    exact hfreed.symm
  · rw [hc.removals]
    exact hunder.removals
  · rw [hc.edx]
    exact hedx
  · rw [hc.edi]
    rcases hpred with hnil | ⟨d, u, hdu, hedi⟩
    · rw [hnil] at hdone
      exact Or.inl (List.map_eq_nil_iff.mp hdone)
    · rw [hdu, List.map_append, List.map_singleton] at hdone
      obtain ⟨d', e, hd', -, he⟩ := List.map_eq_append_iff.mp hdone
      obtain ⟨u', rfl, hu'⟩ := List.map_eq_singleton_iff.mp he
      exact Or.inr ⟨d', u', hd', hedi.trans hu'.symm⟩
  · rw [hlen]
    exact hfuel

/-- A store to the fields of the missile. -/
theorem Serves.stored (h : Serves fuel g s t m) (hc : Carries m m') {f g' : Missile}
    (hg : m.mem.missileAt m.regs.edx = some g')
    (hmem : m'.mem = m.mem.setBlock m.regs.edx (some (.missile { f with next := g'.next })))
    (hvideo : m'.video = m.video) (hnotified : m'.notified = m.notified) :
    Serves fuel g s { t with missile := f } m' := by
  have hlink : links m.mem t.addr = some g'.next := by
    rw [h.edx] at hg
    simp [links, hg]
  obtain ⟨hserving, houtside⟩ := h.serving.set f g'.next hlink
  rw [h.edx] at hmem
  rw [← hmem] at hserving houtside
  refine h.changed hc hserving houtside ?_ rfl rfl rfl hvideo ?_
  · simp [fleet, facing]
  · rw [hnotified]
    exact h.under.notified

/-! ## From label to label -/

/-- The label `k` comes to the label `e`, in a state of `P`. -/
def Leads (k e : Flow) (P : Machine → Prop) (m : Machine) : Prop := ∃ m', k m = e m' ∧ P m'

variable {is : List Code} {k e : Flow} {P : Machine → Prop} {w : Word × Word}

theorem Leads.imp {Q : Machine → Prop} (h : Leads k e P m) (hPQ : ∀ m', P m' → Q m') :
    Leads k e Q m := by
  obtain ⟨m', hrun, hP⟩ := h
  exact ⟨m', hrun, hPQ m' hP⟩

theorem leads_seq (hrun : block is m = some m') (hk : Leads k e P m') : Leads (seq is k) e P m := by
  obtain ⟨m'', hk, hP⟩ := hk
  refine ⟨m'', ?_, hP⟩
  rw [← hk, seq, hrun]
  rfl

section Jumps

variable {taken next : Flow}

theorem leads_je_of_eq (heq : m.compared.1 = m.compared.2) (h : Leads taken e P m) :
    Leads (je taken next) e P m := by
  unfold Leads je
  rw [if_pos heq]
  exact h

theorem leads_je_of_ne (hne : m.compared.1 ≠ m.compared.2) (h : Leads next e P m) :
    Leads (je taken next) e P m := by
  unfold Leads je
  rw [if_neg hne]
  exact h

theorem leads_jne_of_eq (heq : m.compared.1 = m.compared.2) (h : Leads next e P m) :
    Leads (jne taken next) e P m := by
  unfold Leads jne
  rw [if_pos heq]
  exact h

theorem leads_jne_of_ne (hne : m.compared.1 ≠ m.compared.2) (h : Leads taken e P m) :
    Leads (jne taken next) e P m := by
  unfold Leads jne
  rw [if_neg hne]
  exact h

end Jumps

/-- A block that draws. -/
theorem Serves.draw (h : Serves fuel g s t m) (drawn : List (Word × Byte))
    (hrun : ∃ m', block is m = some m' ∧ Carries m m' ∧ m'.mem = m.mem ∧
      m'.notified = m.notified ∧ m'.video = m.video ++ drawn)
    (hk : ∀ m', Serves fuel g { s with pokes := s.pokes ++ drawn } t m' → Leads k e P m') :
    Leads (seq is k) e P m := by
  obtain ⟨m', hrun, hc, hmem, hnotified, hvideo⟩ := hrun
  exact leads_seq hrun (hk m' (h.drawn hc hmem hnotified hvideo))

/-- A block that compares. -/
theorem Serves.test (h : Serves fuel g s t m)
    (hrun : ∃ m', block is m = some m' ∧ Carries m m' ∧ m'.mem = m.mem ∧
      m'.notified = m.notified ∧ m'.video = m.video ∧ m'.compared = w)
    (hk : ∀ m', Serves fuel g s t m' → m'.compared = w → Leads k e P m') :
    Leads (seq is k) e P m := by
  obtain ⟨m', hrun, hc, hmem, hnotified, hvideo, hcompared⟩ := hrun
  have hnone : m'.video = m.video ++ [] := by rw [hvideo, List.append_nil]
  have hsame := h.drawn hc hmem hnotified hnone
  rw [List.append_nil] at hsame
  exact leads_seq hrun (hk m' hsame hcompared)

/-- A block that stores to the missile, and may compare. -/
theorem Serves.write (h : Serves fuel g s t m) {f f' : Missile}
    (hf : m.mem.missileAt m.regs.edx = some f')
    (hrun : ∃ m', block is m = some m' ∧ Carries m m' ∧
      m'.mem = m.mem.setBlock m.regs.edx (some (.missile { f with next := f'.next })) ∧
      m'.notified = m.notified ∧ m'.video = m.video ∧ m'.compared = w)
    (hk : ∀ m', Serves fuel g s { t with missile := f } m' → m'.compared = w → Leads k e P m') :
    Leads (seq is k) e P m := by
  obtain ⟨m', hrun, hc, hmem, hnotified, hvideo, hcompared⟩ := hrun
  exact leads_seq hrun (hk m' (h.stored hc hf hmem hvideo hnotified) hcompared)

/-- The test of a field against a constant. -/
theorem Serves.testField (h : Serves fuel g s t m) (c : Word) (field : Field) (hnext : field ≠ .next)
    (hk : ∀ m', Serves fuel g s t m' → m'.compared = (t.missile.get field, c) → Leads k e P m') :
    Leads (seq [cmpl (.imm c) (.field field .edx)] k) e P m := by
  obtain ⟨v, hf⟩ := h.missile
  refine h.test ?_ hk
  have hget : Missile.get { t.missile with next := v } field = t.missile.get field := by
    cases field with
    | next => exact absurd rfl hnext
    | _ => rfl
  simp [hf, hget]
  exact ⟨rfl, rfl, rfl, rfl⟩

/-- The call of `missile_explode`, with `%edx` saved around it. -/
theorem leads_explode (h : Serves fuel g s t m)
    (hk : ∀ m', Serves fuel g { s.blast t with notified := s.notified }
        { t with missile := lit t.missile } m' →
      m'.compared = (BitVec.ofNat 32 (s.casualties t.missile), 0) → Leads k e P m') :
    Leads (seq [pushl edx, pushl edx, ccall (missileExplode fuel), addEsp, popl edx,
      cmpl (.imm 0) eax] k) e P m := by
  let m₁ : Machine := { m with stack := t.addr :: t.addr :: m.stack }
  have hserving₁ : Serving m₁.mem s t := h.serving
  obtain ⟨mem', hcall, hserving, houtside⟩ :=
    missileExplode_blast (t.addr :: m.stack) hserving₁ h.fuel
  have hedx : m.regs.edx = t.addr := h.edx
  simp only [m₁] at hcall
  let m' : Machine := { m with
    mem := mem'
    regs := { m.regs with
      eax := BitVec.ofNat 32 (s.casualties t.missile)
      ecx := m.junk 0 }
    junk := fun i => m.junk (i + 2)
    compared := (BitVec.ofNat 32 (s.casualties t.missile), 0) }
  have hrun : block [pushl edx, pushl edx, ccall (missileExplode fuel), addEsp, popl edx,
      cmpl (.imm 0) eax] m = some m' := by
    simp [hedx, hcall, m']
  have hc : Carries m m' := ⟨rfl, rfl, rfl, rfl⟩
  have hserving' : Serving m'.mem { s.blast t with notified := s.notified }
      { t with missile := lit t.missile } := ⟨hserving.holds, hserving.bases, hserving.score⟩
  refine leads_seq hrun (hk m' (h.changed hc hserving' houtside ?_ ?_ rfl rfl rfl
    h.under.notified) rfl)
  · simp [fleet, facing, blast, Function.comp_def]
  · simp [blast, Function.comp_def]

/-- The call of `missile_explode`, and of `mp1_notify_user` unless it returns zero. -/
theorem leads_explodeNotify (h : Serves fuel g s t m) {notify : List Code}
    (hnotify : ∀ m, ∃ m', block notify m = some m' ∧ Carries m m' ∧ m'.mem = m.mem ∧
      m'.notified = m.notified + 1 ∧ m'.video = m.video)
    (hk : ∀ m', Serves fuel g (s.blast t) { t with missile := lit t.missile } m' →
      Leads k e P m') :
    Leads (seq [pushl edx, pushl edx, ccall (missileExplode fuel), addEsp, popl edx,
      cmpl (.imm 0) eax] (je k (seq notify k))) e P m := by
  have hzero := h.serving.returned_eq_zero t.missile
  refine leads_explode h fun m₁ h₁ hcompared => ?_
  by_cases hcasualties : s.casualties t.missile = 0
  · refine leads_je_of_eq ?_ (hk m₁ ?_)
    · rw [hcompared]
      exact hzero.mpr hcasualties
    · have hsame : s.blast t = { s.blast t with notified := s.notified } := by
        simp [blast, hcasualties]
      rw [hsame]
      exact h₁
  · refine leads_je_of_ne ?_ ?_
    · rw [hcompared]
      exact fun heq => hcasualties (hzero.mp heq)
    · obtain ⟨m₂, hrun, hc, hmem, hnotified, hvideo⟩ := hnotify m₁
      obtain ⟨hunder, hedx, hpred, hfuel⟩ := h₁
      refine leads_seq hrun (hk m₂ ⟨⟨?_, ?_, ?_, ?_, hunder.apart, ?_, ?_, ?_, ?_⟩, ?_, ?_, hfuel⟩)
      · rw [hmem]
        exact hunder.holds
      · rw [hmem]
        exact hunder.bases
      · rw [hmem]
        exact hunder.score
      · rw [hmem]
        exact hunder.frame
      · rw [hvideo]
        exact hunder.video
      · rw [hnotified, hunder.notified]
        simp [blast, facing, hcasualties]
      · rw [hc.freed]
        exact hunder.freed
      · rw [hc.removals]
        exact hunder.removals
      · rw [hc.edx, hedx]
      · rw [hc.edi]
        exact hpred

end Steps

/-! ## The labels of one turn -/

section Labels

variable {fuel : ℕ} {g : Ground} {s : Sky} {t : Flying} {m : Machine}

/-- The missile moves on. -/
theorem startTask3_moves (h : Serves fuel g s t m) : Leads startTask3 endOfLoop
    (Serves fuel g ((s.poke (drawOffset t.missile) 32).poke (drawOffset (moved t.missile))
      t.missile.c) { t with missile := moved t.missile }) m := by
  obtain ⟨v, hf⟩ := h.missile
  refine h.draw [(drawOffset t.missile, 32)] ?_ fun m₁ h₁ => ?_
  · simp [hf, drawOffset, Missile.get, BitVec.add_comm]
    exact ⟨rfl, rfl, rfl, rfl⟩
  obtain ⟨v, hf⟩ := h₁.missile
  refine h₁.write (w := m₁.compared) (f := moved t.missile) hf ?_ fun m₂ h₂ _ => ?_
  · simp [hf, moved, Missile.get, Missile.set, setBlock_setBlock]
    exact ⟨rfl, rfl, rfl, rfl⟩
  obtain ⟨v, hf⟩ := h₂.missile
  refine h₂.draw [(drawOffset (moved t.missile), t.missile.c)] ?_ fun m₃ h₃ => ?_
  · simp [hf, drawOffset, Missile.get, BitVec.add_comm]
    exact ⟨⟨rfl, rfl, rfl, rfl⟩, rfl⟩
  · exact ⟨m₃, rfl, h₃⟩

/-- The missile is drawn as an explosion. -/
theorem skip2_draws (h : Serves fuel g s t m) : Leads skip2 endOfLoop
    (Serves fuel g (s.poke (drawOffset t.missile) 64) t) m := by
  obtain ⟨v, hf⟩ := h.missile
  refine h.draw [(drawOffset t.missile, 64)] ?_ fun m₁ h₁ => ?_
  · simp [hf, drawOffset, Missile.get, BitVec.add_comm]
    exact ⟨rfl, rfl, rfl, rfl⟩
  · exact ⟨m₁, rfl, h₁⟩

theorem exploding_test (h : Serves fuel g s t m) {k e : Flow} {P : Machine → Prop}
    (hk : ∀ m', Serves fuel g s t m' → m'.compared = (t.missile.exploded, 0) → Leads k e P m') :
    Leads (seq [movl (.field .exploded .edx) ebx, cmpl (.imm 0) (.field .exploded .edx)] k)
      e P m := by
  obtain ⟨v, hf⟩ := h.missile
  refine h.test ?_ hk
  simp [hf, Missile.get]
  exact ⟨rfl, rfl, rfl, rfl⟩

/-- A missile that does not explode moves on. -/
theorem exploding_flies (h : Serves fuel g s t m) (hzero : t.missile.exploded = 0) :
    Leads exploding endOfLoop
      (Serves fuel g ((s.poke (drawOffset t.missile) 32).poke (drawOffset (moved t.missile))
        t.missile.c) { t with missile := moved t.missile }) m := by
  refine exploding_test h fun m₁ h₁ hcompared => leads_je_of_eq ?_ (startTask3_moves h₁)
  rw [hcompared]
  exact hzero

/-- A missile that has just begun to explode burns for one tick. -/
theorem exploding_burns (h : Serves fuel g s t m) (hlit : t.missile.exploded = 50) :
    Leads exploding endOfLoop
      (Serves fuel g (s.poke (drawOffset t.missile) 64)
        { t with missile := { t.missile with exploded := 49 } }) m := by
  refine exploding_test h fun m₁ h₁ hcompared => leads_je_of_ne ?_ ?_
  · rw [hcompared, hlit]
    decide
  obtain ⟨v, hf⟩ := h₁.missile
  refine h₁.write (w := (49, 0)) (f := { t.missile with exploded := 49 }) hf ?_
    fun m₂ h₂ hcompared₂ => leads_jne_of_ne ?_ (skip2_draws h₂)
  · simp [hf, hlit, Missile.get, Missile.set]
    exact ⟨rfl, rfl, rfl, rfl⟩
  · rw [hcompared₂]
    decide

/-- The missile is drawn, then `START_TASK2`. -/
theorem startTask2_reaches (h : Serves fuel g s t m) (hzero : t.missile.exploded = 0)
    (htarget : onTarget t.missile = true) : Leads (startTask2 fuel) endOfLoop
      (Serves fuel g ((s.blast t).poke (drawOffset t.missile) 64)
        { t with missile := { t.missile with exploded := 49 } }) m := by
  obtain ⟨hx, hy⟩ : t.missile.destX = t.missile.x.sshiftRight 16 ∧
      t.missile.destY = t.missile.y.sshiftRight 16 := by
    simpa [onTarget] using htarget
  obtain ⟨v, hf⟩ := h.missile
  refine h.test (w := (t.missile.destX, t.missile.x.sshiftRight 16)) ?_ fun m₁ h₁ hcompared₁ =>
    leads_jne_of_eq (by rw [hcompared₁]; exact hx) ?_
  · simp [hf, Missile.get]
    exact ⟨rfl, rfl, rfl, rfl⟩
  obtain ⟨v, hf⟩ := h₁.missile
  refine h₁.test (w := (t.missile.destY, t.missile.y.sshiftRight 16)) ?_ fun m₂ h₂ hcompared₂ =>
    leads_jne_of_eq (by rw [hcompared₂]; exact hy) ?_
  · simp [hf, Missile.get]
    exact ⟨rfl, rfl, rfl, rfl⟩
  refine leads_explodeNotify h₂ ?_ fun m₃ h₃ => ?_
  · intro m
    simp
    exact ⟨rfl, rfl, rfl, rfl⟩
  · have hlit : lit t.missile = { t.missile with exploded := 50 } := by simp [lit, hzero]
    rw [hlit] at h₃
    have hburns := exploding_burns h₃ rfl
    exact hburns

theorem startTask2_flies (h : Serves fuel g s t m) (hzero : t.missile.exploded = 0)
    (htarget : onTarget t.missile = false) : Leads (startTask2 fuel) endOfLoop
      (Serves fuel g ((s.poke (drawOffset t.missile) 32).poke (drawOffset (moved t.missile))
        t.missile.c) { t with missile := moved t.missile }) m := by
  obtain ⟨v, hf⟩ := h.missile
  refine h.test (w := (t.missile.destX, t.missile.x.sshiftRight 16)) ?_ fun m₁ h₁ hcompared₁ => ?_
  · simp [hf, Missile.get]
    exact ⟨rfl, rfl, rfl, rfl⟩
  by_cases hx : t.missile.destX = t.missile.x.sshiftRight 16
  · refine leads_jne_of_eq (by rw [hcompared₁]; exact hx) ?_
    have hy : t.missile.destY ≠ t.missile.y.sshiftRight 16 := by
      simpa [onTarget, hx] using htarget
    obtain ⟨v, hf⟩ := h₁.missile
    refine h₁.test (w := (t.missile.destY, t.missile.y.sshiftRight 16)) ?_ fun m₂ h₂ hcompared₂ =>
      leads_jne_of_ne (by rw [hcompared₂]; exact hy) (exploding_flies h₂ hzero)
    simp [hf, Missile.get]
    exact ⟨rfl, rfl, rfl, rfl⟩
  · exact leads_jne_of_ne (by rw [hcompared₁]; exact hx) (exploding_flies h₁ hzero)

variable (fuel) in
/-- The four comparisons with the bounds. -/
theorem updateCoordinates_run {f : Missile} (hf : m.mem.missileAt m.regs.edx = some f) :
    ∃ w, updateCoordinates fuel m =
      (if failsBounds f then missileRemove else
        seq [imull (.imm 2) eax, imull (.imm 160) ebx, addl ebx eax, movb (.missileC .edx) .cl,
          pushl edx, pushl edx, call mp1Poke, addEsp, popl edx] (startTask2 fuel))
        { m with
          regs := { m.regs with eax := f.x.sshiftRight 16, ebx := f.y.sshiftRight 16 }
          compared := w } := by
  let m₁ : Machine := { m with
    regs := { m.regs with eax := f.x.sshiftRight 16, ebx := f.y.sshiftRight 16 }
    compared := (f.x, 79) }
  have hf₁ : m₁.mem.missileAt m₁.regs.edx = some f := hf
  have hfirst : ∀ k : Flow, seq [movl (.field .x .edx) eax, movl (.field .y .edx) ebx, sarl 16 eax,
      sarl 16 ebx, cmpl (.imm 79) (.field .x .edx)] k m = k m₁ := by
    intro k
    simp [hf, Missile.get, m₁]
  have htest : ∀ (field : Field) (c : Word) (w : Word × Word) (k : Flow),
      seq [cmpl (.imm c) (.field field .edx)] k { m₁ with compared := w } =
        k { m₁ with compared := (f.get field, c) } := by
    intro field c w k
    simp [hf₁]
  have htaken : ∀ (w : Word × Word) (next stays : Flow), w.1.slt w.2 = true →
      failsBounds f = true → jl missileRemove next { m₁ with compared := w } =
        (if failsBounds f then missileRemove else stays) { m₁ with compared := w } := by
    intro w next stays hslt hout
    rw [jl, if_pos hslt, hout]
    rfl
  have hpassed : ∀ (w : Word × Word) (next : Flow), w.1.slt w.2 = false →
      jl missileRemove next { m₁ with compared := w } = next { m₁ with compared := w } := by
    intro w next hslt
    rw [jl, if_neg (by rw [hslt]; exact Bool.false_ne_true)]
  -- the code from each of the four jumps on, as long as none is taken
  have hlower : updateCoordinates fuel m = jl missileRemove _ { m₁ with compared := (f.x, 79) } :=
    hfirst _
  cases h79 : f.x.slt 79 with
  | true =>
      exact ⟨(f.x, 79), hlower.trans (htaken _ _ _ h79 (by rw [failsBounds, h79]; rfl))⟩
  | false =>
      have hleft := (hlower.trans (hpassed _ _ h79)).trans (htest .x 0 _ _)
      cases hx0 : f.x.slt 0 with
      | true =>
          exact ⟨(f.x, 0), hleft.trans (htaken _ _ _ hx0 (by rw [failsBounds, h79, hx0]; rfl))⟩
      | false =>
          have hupper := (hleft.trans (hpassed _ _ hx0)).trans (htest .y 24 _ _)
          cases h24 : f.y.slt 24 with
          | true =>
              exact ⟨(f.y, 24),
                hupper.trans (htaken _ _ _ h24 (by rw [failsBounds, h79, hx0, h24]; rfl))⟩
          | false =>
              have htop := (hupper.trans (hpassed _ _ h24)).trans (htest .y 0 _ _)
              cases hy0 : f.y.slt 0 with
              | true =>
                  exact ⟨(f.y, 0),
                    htop.trans (htaken _ _ _ hy0 (by rw [failsBounds, h79, hx0, h24, hy0]; rfl))⟩
              | false =>
                  have hin : failsBounds f = false := by
                    rw [failsBounds, h79, hx0, h24, hy0]
                    rfl
                  rw [hin]
                  exact ⟨(f.y, 0), htop.trans (hpassed _ _ hy0)⟩

theorem updateCoordinates_leaves (h : Serves fuel g s t m) (hout : failsBounds t.missile = true) :
    Leads (updateCoordinates fuel) missileRemove (Serves fuel g s t) m := by
  obtain ⟨v, hf⟩ := h.missile
  obtain ⟨w, hrun⟩ := updateCoordinates_run fuel hf
  have hout' : failsBounds { t.missile with next := v } = true := hout
  rw [hout', if_pos rfl] at hrun
  obtain ⟨hunder, hedx, hpred, hfuel⟩ := h
  exact ⟨_, hrun, ⟨hunder.holds, hunder.bases, hunder.score, hunder.frame, hunder.apart,
    hunder.video, hunder.notified, hunder.freed, hunder.removals⟩, hedx, hpred, hfuel⟩

theorem updateCoordinates_draws (h : Serves fuel g s t m) (hin : failsBounds t.missile = false)
    {e : Flow} {P : Machine → Prop}
    (hk : ∀ m', Serves fuel g (s.poke (drawOffset t.missile) t.missile.c) t m' →
      Leads (startTask2 fuel) e P m') : Leads (updateCoordinates fuel) e P m := by
  obtain ⟨v, hf⟩ := h.missile
  obtain ⟨w, hrun⟩ := updateCoordinates_run fuel hf
  have hin' : failsBounds { t.missile with next := v } = false := hin
  rw [hin', if_neg Bool.false_ne_true] at hrun
  unfold Leads
  rw [hrun]
  let m₁ : Machine := { m with
    regs := { m.regs with
      eax := t.missile.x.sshiftRight 16
      ebx := t.missile.y.sshiftRight 16 }
    compared := w }
  have hunder := h.under
  have h₁ : Serves fuel g s t m₁ := ⟨⟨hunder.holds, hunder.bases, hunder.score, hunder.frame,
    hunder.apart, hunder.video, hunder.notified, hunder.freed, hunder.removals⟩, h.edx, h.pred,
    h.fuel⟩
  have hf₁ : m₁.mem.missileAt m₁.regs.edx = some { t.missile with next := v } := hf
  refine h₁.draw [(drawOffset t.missile, t.missile.c)] ?_ hk
  simp [hf₁]
  refine ⟨⟨rfl, rfl, rfl, rfl⟩, ?_⟩
  simp [m₁, drawOffset]

theorem dontNotify_run (h : Serves fuel g s t m) :
    (t.missile.exploded = 1 → Leads dontNotify missileRemove (Serves fuel g s
      { t with missile := { t.missile with exploded := t.missile.exploded - 1 } }) m) ∧
    (t.missile.exploded ≠ 1 → Leads dontNotify endOfLoop (Serves fuel g s
      { t with missile := { t.missile with exploded := t.missile.exploded - 1 } }) m) := by
  obtain ⟨v, hf⟩ := h.missile
  have hblock : ∃ m', block [decl (.field .exploded .edx), cmpl (.imm 0) (.field .exploded .edx)]
      m = some m' ∧ Carries m m' ∧ m'.mem = m.mem.setBlock m.regs.edx (some (.missile
        { { t.missile with exploded := t.missile.exploded - 1 } with next := v })) ∧
      m'.notified = m.notified ∧ m'.video = m.video ∧
      m'.compared = (t.missile.exploded - 1, 0) := by
    simp [hf, Missile.get, Missile.set]
    exact ⟨rfl, rfl, rfl, rfl⟩
  constructor
  · intro hone
    refine h.write hf hblock fun m₁ h₁ hcompared => leads_je_of_eq ?_ ⟨m₁, rfl, h₁⟩
    rw [hcompared, hone]
    rfl
  · intro hmore
    refine h.write hf hblock fun m₁ h₁ hcompared => leads_je_of_ne ?_ ⟨m₁, rfl, h₁⟩
    rw [hcompared]
    intro hzero
    have hdone : t.missile.exploded - 1#32 = 0#32 := hzero
    have hone : t.missile.exploded = 1#32 := by bv_omega
    exact hmore hone

/-- An exploding missile stands still, explodes again and burns down. -/
theorem updateMissile_burns (h : Serves fuel g s t m) (hlit : t.missile.exploded ≠ 0) :
    let t' : Flying := { t with
      missile := { t.missile with vx := 0, vy := 0, exploded := t.missile.exploded - 1 } }
    (t.missile.exploded = 1 →
      Leads (updateMissile fuel) missileRemove (Serves fuel g (s.blast t) t') m) ∧
    (t.missile.exploded ≠ 1 →
      Leads (updateMissile fuel) endOfLoop (Serves fuel g (s.blast t) t') m) := by
  intro t'
  have hstart : ∀ {e : Flow} {P : Machine → Prop}, (∀ m', Serves fuel g (s.blast t)
      { t with missile := { t.missile with vx := 0, vy := 0 } } m' → Leads dontNotify e P m') →
      Leads (updateMissile fuel) e P m := by
    intro e P hk
    refine h.testField 0 .exploded (by rintro ⟨⟩) fun m₁ h₁ hcompared => leads_je_of_ne ?_ ?_
    · rw [hcompared]
      exact hlit
    obtain ⟨v, hf⟩ := h₁.missile
    refine h₁.write (w := m₁.compared) (f := { t.missile with vx := 0, vy := 0 }) hf ?_
      fun m₂ h₂ _ => leads_explodeNotify h₂ ?_ fun m₃ h₃ => hk m₃ ?_
    · simp [hf, Missile.set, setBlock_setBlock]
      exact ⟨rfl, rfl, rfl, rfl⟩
    · intro m
      simp
      exact ⟨rfl, rfl, rfl, rfl⟩
    · have hburning : lit { t.missile with vx := 0, vy := 0 } =
          { t.missile with vx := 0, vy := 0 } := if_neg hlit
      rw [hburning] at h₃
      exact h₃
  constructor
  · intro hone
    exact hstart fun m' h' => (dontNotify_run h').1 hone
  · intro hmore
    exact hstart fun m' h' => (dontNotify_run h').2 hmore

theorem serveMissile_of_turn {k : Turn} : turn t.missile = k →
    s.serveMissile t = match k with
      | .burn => s.burn t
      | .leave => s.drop t
      | .reach => s.reach t
      | .fly => s.fly t := by
  rintro rfl
  rfl

/-- **One missile** of the tick does what its turn in the sky is. -/
theorem updateMissile_serves (h : Serves fuel g s t m) :
    (∃ s' t', s.serveMissile t = s'.keep t' ∧
      Leads (updateMissile fuel) endOfLoop (Serves fuel g s' t') m) ∨
    (∃ s' t', s.serveMissile t = s'.drop t' ∧
      Leads (updateMissile fuel) missileRemove (Serves fuel g s' t') m) := by
  by_cases hzero : t.missile.exploded = 0
  · have hstart : ∀ {e : Flow} {P : Machine → Prop},
        (∀ m', Serves fuel g s t m' → Leads (updateCoordinates fuel) e P m') →
        Leads (updateMissile fuel) e P m := by
      intro e P hk
      refine h.testField 0 .exploded (by rintro ⟨⟩) fun m₁ h₁ hcompared =>
        leads_je_of_eq ?_ (hk m₁ h₁)
      rw [hcompared]
      exact hzero
    cases hout : failsBounds t.missile with
    | true =>
        refine Or.inr ⟨s, t, ?_, hstart fun m' h' => updateCoordinates_leaves h' hout⟩
        simp [serveMissile, turn, hzero, hout]
    | false =>
        cases htarget : onTarget t.missile with
        | true =>
            have hturn : turn t.missile = .reach := by simp [turn, hzero, hout, htarget]
            refine Or.inl ⟨{ ((s.poke (drawOffset t.missile) t.missile.c).blast t).poke
                (drawOffset t.missile) 64 with reached := s.reached ++ [t.id] }, _, ?_,
              hstart fun m' h' => updateCoordinates_draws h' hout fun m'' h'' =>
                (startTask2_reaches h'' hzero htarget).imp fun _ h => h.noted (s.reached ++ [t.id])⟩
            exact serveMissile_of_turn hturn
        | false =>
            have hturn : turn t.missile = .fly := by simp [turn, hzero, hout, htarget]
            refine Or.inl ⟨_, _, ?_, hstart fun m' h' => updateCoordinates_draws h' hout
              fun m'' h'' => startTask2_flies h'' hzero htarget⟩
            exact serveMissile_of_turn hturn
  · have hturn : turn t.missile = .burn := if_pos hzero
    obtain ⟨hgone, hburnt⟩ := updateMissile_burns h hzero
    by_cases hone : t.missile.exploded = 1
    · refine Or.inr ⟨_, _, ?_, hgone hone⟩
      exact (serveMissile_of_turn hturn).trans (if_pos hone)
    · refine Or.inl ⟨_, _, ?_, hburnt hone⟩
      exact (serveMissile_of_turn hturn).trans (if_neg hone)

end Labels

end MachineProblems.Analysis.Mp1
