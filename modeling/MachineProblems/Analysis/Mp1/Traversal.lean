import MachineProblems.Analysis.Mp1.Turns

/-!
# The traversal of the list

`update_missiles` walks the list with the next missile on the stack and its predecessor in
`%edi`.  After a removal the traversal goes on behind the successor that
`mp1_missile_remove` left in `%edx`, and that successor is the next predecessor; so the
linkage survives any sequence of removals, and a pass through the loop is a turn in the sky.
-/

set_option autoImplicit false

namespace MachineProblems.Analysis.Mp1

open MachineProblems.Library MachineProblems.Program.Mp1 MachineProblems.Model
open MachineProblems.Model.Sky

/-! ## Execution of `end_of_loop` -/

/-- `m'` has the memory and the trace of `m`. -/
structure Rests (m m' : Machine) : Prop where
  mem : m'.mem = m.mem
  video : m'.video = m.video
  notified : m'.notified = m.notified
  freed : m'.freed = m.freed
  removals : m'.removals = m.removals

theorem At.rests {g : Ground} {s : Sky} {m m' : Machine} (h : At g s m) (hsame : Rests m m') :
    At g s m' := by
  obtain ⟨hmem, hvideo, hnotified, hfreed, hremovals⟩ := hsame
  constructor
  · rw [hmem]
    exact h.holds
  · rw [hmem]
    exact h.bases
  · rw [hmem]
    exact h.score
  · rw [hmem]
    exact h.frame
  · exact h.apart
  · rw [hvideo]
    exact h.video
  · rw [hnotified]
    exact h.notified
  · rw [hfreed]
    exact h.freed
  · rw [hremovals]
    exact h.removals

section EndOfLoop

variable {m : Machine} {f : Missile}

theorem endOfLoop_null (hzero : m.regs.edx = 0#32) :
    ∃ m', endOfLoop m = some (.endOfUpdate, m') ∧ Rests m m' := by
  simp [endOfLoop, endOfUpdate, hzero]
  exact ⟨rfl, rfl, rfl, rfl, rfl⟩

theorem endOfLoop_last (hzero : m.regs.edx ≠ 0#32) (hf : m.mem.missileAt m.regs.edx = some f)
    (hlast : f.next = 0#32) : ∃ m', endOfLoop m = some (.endOfUpdate, m') ∧ Rests m m' := by
  have hget : f.get .next = 0#32 := hlast
  simp [endOfLoop, endOfUpdate, hzero, hf, hget]
  exact ⟨rfl, rfl, rfl, rfl, rfl⟩

theorem endOfLoop_next (hzero : m.regs.edx ≠ 0#32) (hf : m.mem.missileAt m.regs.edx = some f)
    (hnext : f.next ≠ 0#32) :
    ∃ m', endOfLoop m = some (.loopStart, m') ∧ Rests m m' ∧
      m'.stack = f.next :: m.stack ∧ m'.regs.edi = m.regs.edx := by
  have hget : f.get .next ≠ 0#32 := hnext
  simp [endOfLoop, jmpLoopStart, hzero, hf, hget]
  exact ⟨⟨rfl, rfl, rfl, rfl, rfl⟩, rfl⟩

end EndOfLoop

/-! ## One pass -/

/-- The state at `update_missiles_loop_start`: the next missile is on the stack, and its
predecessor in `%edi`. -/
structure Starts (fuel : ℕ) (g : Ground) (s : Sky) (m : Machine) : Prop where
  under : At g s m
  top : ∃ t todo rest, s.todo = t :: todo ∧ m.stack = t.addr :: rest
  pred : s.done = [] ∨ ∃ d u, s.done = d ++ [u] ∧ m.regs.edi = u.addr
  fuel : s.fleet.length < fuel

/-- The end of a pass: the traversal is over, or it goes on. -/
def PassEnds (fuel : ℕ) (g : Ground) (s : Sky) (r : Option (Exit × Machine)) : Prop :=
  (s.todo = [] ∧ ∃ m, r = some (.endOfUpdate, m) ∧ At g s m) ∨
    ∃ m, r = some (.loopStart, m) ∧ Starts fuel g s m

section Pass

variable {fuel : ℕ} {g : Ground} {s : Sky} {t : Flying} {m : Machine}

/-- **`end_of_loop`** with the last missile served in `%edx` goes on behind it. -/
theorem endOfLoop_passEnds (h : At g s m) (hfuel : s.fleet.length < fuel) {d : List Flying}
    {u : Flying} (hdone : s.done = d ++ [u]) (hedx : m.regs.edx = u.addr) :
    PassEnds fuel g s (endOfLoop m) := by
  have hlisted := h.holds.listed
  have hin : u ∈ s.fleet := by simp [fleet, hdone]
  have hzero : m.regs.edx ≠ 0#32 := by
    rw [hedx]
    exact hlisted.ne_null (List.mem_map_of_mem hin)
  have hchain := hlisted.chain
  rw [fleet, hdone, List.append_assoc, List.map_append, List.singleton_append, List.map_cons]
    at hchain
  obtain ⟨p, -, -, c, hc, htodo⟩ := Seg.append_iff.mp hchain
  obtain ⟨f, hf, rfl⟩ := missileAt_of_links hc
  rw [← hedx] at hf
  cases hrest : s.todo with
  | nil =>
      rw [hrest] at htodo
      obtain ⟨m', hrun, hsame⟩ := endOfLoop_last hzero hf htodo
      exact Or.inl ⟨hrest, m', hrun, h.rests hsame⟩
  | cons v rest =>
      rw [hrest] at htodo
      have hv : v ∈ s.fleet := by simp [fleet, hrest]
      have hnext : f.next = v.addr := htodo.1
      have hne : f.next ≠ 0#32 := by
        rw [hnext]
        exact hlisted.ne_null (List.mem_map_of_mem hv)
      obtain ⟨m', hrun, hsame, hstack, hedi⟩ := endOfLoop_next hzero hf hne
      refine Or.inr ⟨m', hrun, h.rests hsame, ⟨v, rest, m.stack, hrest, ?_⟩,
        Or.inr ⟨d, u, hdone, ?_⟩, hfuel⟩
      · rw [hstack, hnext]
      · rw [hedi, hedx]

theorem eraseMissile_run (h : Serves fuel g s t m) : ∃ m', eraseMissile m = some m' ∧
    Serves fuel g (s.poke (eraseOffset t.missile) 32) t m' := by
  obtain ⟨v, hf⟩ := h.missile
  have hrun : ∃ m', eraseMissile m = some m' ∧ Carries m m' ∧ m'.mem = m.mem ∧
      m'.notified = m.notified ∧ m'.video = m.video ++ [(eraseOffset t.missile, 32)] := by
    simp [eraseMissile, hf, eraseOffset, Missile.get, BitVec.add_comm]
    exact ⟨rfl, rfl, rfl, rfl⟩
  obtain ⟨m', hrun, hc, hmem, hnotified, hvideo⟩ := hrun
  exact ⟨m', hrun, h.drawn hc hmem hnotified hvideo⟩

theorem mem_insert {x : Flying} {l l' : List Flying} (h : x ∈ l ++ l') : x ∈ l ++ t :: l' := by
  rw [List.mem_append] at h ⊢
  exact h.imp_right (List.mem_cons_of_mem t)

theorem Unlinked.holds {mem mem' : Memory} {c : Word}
    (h : Unlinked mem mem' (s.done.map Flying.addr) (s.todo.map Flying.addr) t.addr c)
    (hserving : Serving mem s t) : Holds mem' s.fleet where
  listed := by
    rw [fleet, List.map_append]
    exact h.listed
  kept := by
    intro u hu
    obtain ⟨y, hy⟩ := hserving.holds.kept u (mem_insert hu)
    have hkept := h.kept u.addr { u.missile with next := y }
      (hserving.addr_ne (List.mem_append.mp hu)) hy
    exact hkept

/-- The missile is unlinked and freed, and the sky goes on without it. -/
theorem At.unlinked (h : At g (s.facing t) m) {m' : Machine}
    (hspec : RemoveSpec m m' (s.done.map Flying.addr) (s.todo.map Flying.addr) t.addr) :
    At g { s with freed := s.freed ++ [t.addr] } m' := by
  have hserving : Serving m.mem s t := ⟨h.holds, h.bases, h.score⟩
  have hunlinked := hspec.unlinked
  refine ⟨hunlinked.holds hserving, hunlinked.bases.trans h.bases, hunlinked.score.trans h.score,
    ?_, fun u hu => h.apart u (mem_insert hu), hspec.video.trans h.video,
    hspec.notified.trans h.notified, ?_, ?_⟩
  · intro a ha
    by_cases hself : a = t.addr
    · rw [hself, hunlinked.victim]
      exact (h.apart t (List.mem_append_right _ List.mem_cons_self)).symm
    · rw [fleet, List.map_append, List.mem_append, not_or] at ha
      rw [hunlinked.frame a ha.1 hself]
      refine h.frame a ?_
      rw [fleet, facing, List.map_append, List.map_cons, List.mem_append, List.mem_cons]
      rintro (hin | hin | hin)
      · exact ha.1 hin
      · exact hself hin
      · exact ha.2 hin
  · rw [hspec.freed, h.freed]
    rfl
  · obtain ⟨r, hr, hproper, -⟩ := hspec.removals
    rw [hr]
    exact List.forall_mem_append.mpr ⟨h.removals, List.forall_mem_singleton.mpr (Or.inr hproper)⟩

/-- The addresses of the list, with the missile that has its turn. -/
theorem map_facing (s : Sky) (t : Flying) : (s.facing t).fleet.map Flying.addr =
    s.done.map Flying.addr ++ t.addr :: s.todo.map Flying.addr := by
  rw [fleet, facing, List.map_append, List.map_cons]

/-- Behind the missile that has its turn come those that wait for theirs. -/
theorem At.behind (h : At g (s.facing t) m) : ∃ c, links m.mem t.addr = some c ∧
    Seg (links m.mem) c (s.todo.map Flying.addr) 0#32 := by
  have hchain := h.holds.listed.chain
  rw [map_facing] at hchain
  obtain ⟨-, -, -, c, hc, htodo⟩ := Seg.append_iff.mp hchain
  exact ⟨c, hc, htodo⟩

theorem removeMissile_run (h : Serves fuel g s t m) : ∃ m', removeMissile m = some m' ∧
    At g { s with freed := s.freed ++ [t.addr] } m' ∧ links m.mem t.addr = some m'.regs.edx := by
  obtain ⟨v, hf⟩ := h.missile
  obtain ⟨hunder, hedx, hpred, -⟩ := h
  have hlisted := hunder.holds.listed
  rw [map_facing, ← hedx] at hlisted
  have hpred' : s.done.map Flying.addr = [] ∨
      ∃ pre', s.done.map Flying.addr = pre' ++ [m.regs.edi] := by
    rcases hpred with hnil | ⟨d, u, hdu, hedi⟩
    · exact Or.inl (by rw [hnil]; rfl)
    · exact Or.inr ⟨d.map Flying.addr, by rw [hdu, hedi, List.map_append]; rfl⟩
  let m₁ : Machine := { m with
    regs := { m.regs with ebx := v }
    stack := m.regs.edx :: m.regs.edi :: m.stack }
  have hlisted₁ : Listed m₁.mem (s.done.map Flying.addr ++ m₁.regs.edx ::
      s.todo.map Flying.addr) := hlisted
  obtain ⟨m₂, hcall, hspec⟩ := mp1MissileRemove_spec hlisted₁ hpred'
  have hstack : m₂.stack = m.regs.edx :: m.regs.edi :: m.stack := hspec.stack
  let m' : Machine := { m₂ with regs := { m₂.regs with edi := m.regs.edi }, stack := m.stack }
  have hrun : removeMissile m = some m' := by
    simp only [m₁] at hcall
    simp [removeMissile, hf, Missile.get, hcall, hstack, m']
  have hunder₁ : At g (s.facing t) m₁ := ⟨hunder.holds, hunder.bases, hunder.score, hunder.frame,
    hunder.apart, hunder.video, hunder.notified, hunder.freed, hunder.removals⟩
  have hedx₁ : m₁.regs.edx = t.addr := hedx
  rw [hedx₁] at hspec
  have hat := hunder₁.unlinked hspec
  refine ⟨m', hrun, hat.rests ⟨rfl, rfl, rfl, rfl, rfl⟩, hspec.unlinked.next⟩

/-- **`missile_remove`**: the missile goes, and `end_of_loop` passes over its successor. -/
theorem missileRemove_passEnds (h : Serves fuel g s t m) :
    PassEnds fuel g (s.drop t) (missileRemove m) := by
  have hunder := h.under
  have hzero : m.regs.edx ≠ 0#32 := by
    rw [h.edx]
    refine hunder.holds.listed.ne_null ?_
    rw [map_facing]
    simp
  let m₀ : Machine := { m with compared := (m.regs.edx, 0#32) }
  have h₀ : Serves fuel g s t m₀ := ⟨⟨hunder.holds, hunder.bases, hunder.score, hunder.frame,
    hunder.apart, hunder.video, hunder.notified, hunder.freed, hunder.removals⟩, h.edx, h.pred,
    h.fuel⟩
  obtain ⟨m₁, herase, h₁⟩ := eraseMissile_run h₀
  obtain ⟨m₂, hremove, hat, hnext⟩ := removeMissile_run h₁
  have hrun : missileRemove m = endOfLoop m₂ := by
    simp only [m₀] at herase
    simp [missileRemove, hzero, herase, hremove]
  obtain ⟨c, hc, htodo⟩ := h₁.under.behind
  obtain rfl : c = m₂.regs.edx := Option.some.inj (hc.symm.trans hnext)
  have hfleet : (s.drop t).fleet = s.fleet := by
    simp only [fleet, Sky.drop, List.append_assoc, List.take_append_drop]
  have hat' : At g (s.drop t) m₂ := by
    refine ⟨?_, hat.bases, hat.score, ?_, ?_, hat.video, hat.notified, hat.freed, hat.removals⟩
    · rw [hfleet]
      exact hat.holds
    · rw [hfleet]
      exact hat.frame
    · rw [hfleet]
      exact hat.apart
  rw [hrun]
  cases hrest : s.todo with
  | nil =>
      have hnull : m₂.regs.edx = 0#32 := by
        have hseg : Seg (links m₁.mem) m₂.regs.edx (s.todo.map Flying.addr) 0#32 := htodo
        rw [hrest] at hseg
        exact hseg
      obtain ⟨m₃, hover, hsame⟩ := endOfLoop_null hnull
      refine Or.inl ⟨?_, m₃, hover, hat'.rests hsame⟩
      simp [Sky.drop, hrest]
  | cons u rest =>
      have hu : m₂.regs.edx = u.addr := by
        have hseg : Seg (links m₁.mem) m₂.regs.edx (s.todo.map Flying.addr) 0#32 := htodo
        rw [hrest] at hseg
        exact hseg.1
      refine endOfLoop_passEnds hat' ?_ (d := s.done) (u := u) ?_ hu
      · have hlt := h.fuel
        rw [hfleet]
        simp only [fleet, facing, List.length_append, List.length_cons] at hlt ⊢
        omega
      · simp [Sky.drop, hrest]

/-- **One pass** from `update_missiles_loop_start` is a turn in the sky. -/
theorem updateMissilesLoopStart_passEnds (h : Starts fuel g s m) :
    PassEnds fuel g s.pass (updateMissilesLoopStart fuel m) := by
  obtain ⟨t, todo, rest, htodo, hstack⟩ := h.top
  have hunder := h.under
  have hzero : t.addr ≠ 0#32 := by
    refine hunder.holds.listed.ne_null (List.mem_map_of_mem ?_)
    simp [fleet, htodo]
  let m₁ : Machine :=
    { m with regs := { m.regs with edx := t.addr }, stack := rest, compared := (t.addr, 0#32) }
  have hstart : updateMissilesLoopStart fuel m = updateMissile fuel m₁ := by
    simp [updateMissilesLoopStart, hstack, hzero, m₁]
  let s₁ : Sky := { s with todo := todo }
  have hsame : s₁.facing t = s := by
    simp only [s₁, facing, ← htodo]
  have hserves : Serves fuel g s₁ t m₁ := by
    refine ⟨?_, rfl, h.pred, ?_⟩
    · rw [hsame]
      exact ⟨hunder.holds, hunder.bases, hunder.score, hunder.frame, hunder.apart, hunder.video,
        hunder.notified, hunder.freed, hunder.removals⟩
    · rw [hsame]
      exact h.fuel
  have hpass : s.pass = s₁.serveMissile t := by
    rw [Sky.pass, htodo]
  rw [hstart, hpass]
  rcases updateMissile_serves hserves with
    ⟨s', t', hkeep, m₂, hrun, h₂⟩ | ⟨s', t', hdrop, m₂, hrun, h₂⟩
  · -- the missile stays: it is the next predecessor
    rw [hkeep, hrun]
    have hfleet : (s'.keep t').fleet = (s'.facing t').fleet := by
      simp [fleet, facing, keep]
    have hunder₂ := h₂.under
    refine endOfLoop_passEnds ⟨?_, hunder₂.bases, hunder₂.score, ?_, ?_, hunder₂.video,
      hunder₂.notified, hunder₂.freed, hunder₂.removals⟩ ?_ (d := s'.done) rfl h₂.edx
    · rw [hfleet]
      exact hunder₂.holds
    · rw [hfleet]
      exact hunder₂.frame
    · rw [hfleet]
      exact hunder₂.apart
    · rw [hfleet]
      exact h₂.fuel
  · -- the missile goes: its successor is the next predecessor
    rw [hdrop, hrun]
    exact missileRemove_passEnds h₂

/-! ## The loop -/

/-- A turn takes a missile at least. -/
theorem length_pass (s : Sky) : s.pass.todo.length ≤ s.todo.length - 1 := by
  rw [Sky.pass]
  cases htodo : s.todo with
  | nil => simp [htodo]
  | cons t rest =>
      change ({ s with todo := rest }.serveMissile t).todo.length ≤ (t :: rest).length - 1
      rw [serveMissile, List.length_cons, Nat.add_sub_cancel]
      cases turn t.missile with
      | burn =>
          change ({ s with todo := rest }.burn t).todo.length ≤ _
          unfold burn
          split
          · simp [blast, Sky.drop, poke]
          · simp [blast, keep]
      | leave => simp [Sky.drop, poke]
      | reach => simp [Sky.reach, keep, poke, blast]
      | fly => simp [Sky.fly, keep, poke]

theorem pass_of_nil (h : s.todo = []) (n : ℕ) : pass^[n] s = s := by
  induction n with
  | zero => rfl
  | succ n ih =>
      have hstay : s.pass = s := by rw [Sky.pass, h]
      rw [Function.iterate_succ_apply, hstay, ih]

/-- **The traversal** ends, after as many turns as there are missiles to come at most. -/
theorem updateMissilesLoop_passes (n : ℕ) : ∀ {k : ℕ} {s : Sky} {m : Machine},
    Starts fuel g s m → s.todo.length ≤ n → n ≤ k →
    ∃ m', updateMissilesLoop fuel k m = some m' ∧ At g (pass^[n] s) m' := by
  induction n with
  | zero =>
      intro k s m h hlen _
      obtain ⟨t, todo, rest, htodo, -⟩ := h.top
      rw [htodo, List.length_cons] at hlen
      omega
  | succ n ih =>
      intro k s m h hlen hk
      obtain ⟨j, rfl⟩ : ∃ j, k = j + 1 := ⟨k - 1, by omega⟩
      have hless := length_pass s
      rw [Function.iterate_succ_apply]
      rcases updateMissilesLoopStart_passEnds h with ⟨htodo, m', hrun, hat⟩ | ⟨m', hrun, hstarts⟩
      · refine ⟨m', ?_, ?_⟩
        · simp [updateMissilesLoop, hrun]
        · rw [pass_of_nil htodo]
          exact hat
      · obtain ⟨m'', hrest, hat⟩ := ih (k := j) hstarts (by omega) (by omega)
        refine ⟨m'', ?_, hat⟩
        simp [updateMissilesLoop, hrun, hrest]

/-- The machine at the start of the loop of `update_missiles`. -/
def loopEntry (m : Machine) : Machine :=
  { m with
    regs := { m.regs with edx := m.mem.missileList }
    compared := (m.mem.missileList, 0)
    stack := m.mem.missileList :: 0 :: 0 :: m.stack
    ebp := 0 :: 0 :: m.stack }

theorem updateMissiles_run (fuel : ℕ) (m : Machine) (hzero : m.mem.missileList ≠ 0#32) :
    call (updateMissiles fuel) m = (updateMissilesLoop fuel fuel (loopEntry m)).map fun m' =>
      { m' with stack := m.stack, ebp := m.ebp } := by
  simp [call, updateMissiles, framed, hzero, loopEntry, Option.map_eq_bind]

theorem At.startTick (h : At g s m) : At ⟨g.others, m.video, g.earlier⟩ s.startTick m where
  holds := by
    rw [fleet, Sky.startTick, List.nil_append]
    exact h.holds
  bases := h.bases
  score := h.score
  frame := by
    rw [fleet, Sky.startTick, List.nil_append]
    exact h.frame
  apart := by
    rw [fleet, Sky.startTick, List.nil_append]
    exact h.apart
  video := (List.append_nil _).symm
  notified := h.notified
  freed := h.freed
  removals := h.removals

theorem At.starts (h : At g s m) (hfuel : s.fleet.length < fuel)
    (hne : m.mem.missileList ≠ 0#32) :
    Starts fuel ⟨g.others, m.video, g.earlier⟩ s.startTick (loopEntry m) := by
  have htick := h.startTick
  have hchain := h.holds.listed.chain
  refine ⟨htick.rests ⟨rfl, rfl, rfl, rfl, rfl⟩, ?_, Or.inl rfl, ?_⟩
  · cases hfleet : s.fleet with
    | nil =>
        rw [hfleet] at hchain
        exact absurd hchain hne
    | cons t rest =>
        rw [hfleet] at hchain
        have hhead : m.mem.missileList = t.addr := hchain.1
        exact ⟨t, rest, _, hfleet, by rw [← hhead]; rfl⟩
  · rw [fleet, Sky.startTick, List.nil_append]
    exact hfuel

theorem At.fleet_eq_nil (h : At g s m) (hzero : m.mem.missileList = 0#32) : s.fleet = [] := by
  cases hfleet : s.fleet with
  | nil => rfl
  | cons t rest =>
      have hchain := h.holds.listed.chain
      rw [hfleet] at hchain
      have hhead : m.mem.missileList = t.addr := hchain.1
      refine absurd (hhead.symm.trans hzero) (h.holds.listed.ne_null (List.mem_map_of_mem ?_))
      simp [hfleet]

/-- **`update_missiles`** does what a tick does in the sky. -/
theorem updateMissiles_tick (h : At g s m) (hfuel : s.fleet.length < fuel) :
    ∃ m', call (updateMissiles fuel) m = some m' ∧ At ⟨g.others, m.video, g.earlier⟩ s.tick m' ∧
      m'.stack = m.stack := by
  by_cases hzero : m.mem.missileList = 0#32
  · have hfleet := h.fleet_eq_nil hzero
    have htick : s.tick = s.startTick := by
      rw [tick, hfleet]
      rfl
    rw [htick]
    have hat := h.startTick
    simp [call, updateMissiles, framed, hzero]
    exact hat.rests ⟨rfl, rfl, rfl, rfl, rfl⟩
  · obtain ⟨m', hrun, hat⟩ :=
      updateMissilesLoop_passes s.fleet.length (h.starts hfuel hzero) le_rfl hfuel.le
    refine ⟨{ m' with stack := m.stack, ebp := m.ebp }, ?_, ?_, rfl⟩
    · rw [updateMissiles_run fuel m hzero, hrun]
      rfl
    · exact hat.rests ⟨rfl, rfl, rfl, rfl, rfl⟩

end Pass

end MachineProblems.Analysis.Mp1
