import MachineProblems.Program.Mp1.Preemption
import MachineProblems.Analysis.Mp1.Skies

/-!
# The tasklet in the window

`mp1_missile_remove` unlinks an inner missile before it calls `mp1_free`: the list is whole then,
and a tasklet that runs in the window neither touches nor frees the missile.  The head is still
the head when it is freed, and its link is already zero, so that the tasklet finds the missile that
is being freed and none of the others.  `mp1_ioctl_endgame` takes the head off every time.
-/

set_option autoImplicit false

namespace MachineProblems.Analysis.Mp1

open MachineProblems.Library MachineProblems.Program.Mp1 MachineProblems.Model
open MachineProblems.Model.Sky

/-! ## The property -/

/-- A tasklet that interrupts `m` leaves the block `a` alone and frees other blocks only, each of
them once. -/
def Spares (fuel : ℕ) (m : Machine) (a : Word) : Prop :=
  ∀ e : Entry, e.op = .rtcTasklet → ∃ m' freed, enter fuel m e = some m' ∧
    m'.mem.heap a = m.mem.heap a ∧ m'.freed = m.freed ++ freed ∧ freed.Nodup ∧ a ∉ freed

/-- The missile `a` is not in the list of `m`, and all of `others` are; the tasklet spares it as
long as it is allocated, and when it is deallocated. -/
structure Shielded (fuel : ℕ) (m : Machine) (a : Word) (others : List Word) : Prop where
  unlinked : ∃ l, Listed m.mem l ∧ a ∉ l ∧ ∀ b ∈ others, b ∈ l
  before : Spares fuel m a
  after : Spares fuel { m with mem := m.mem.setBlock a none } a

/-- `mp1_missile_remove` is called in `m`; when it calls `mp1_free`, the missile in `%edx` is
shielded. -/
def UnlinkedFirst (fuel : ℕ) (m : Machine) (others : List Word) : Prop :=
  ∃ m', CallsFree { m with stack := 0 :: m.stack } m' m.regs.edx ∧
    Shielded fuel m' m.regs.edx others

/-! ## What a tick frees -/

/-- From `s` to `s'` missiles went, and were freed. -/
def Departs (s s' : Sky) : Prop :=
  ∃ freed, s'.freed = s.freed ++ freed ∧
    (freed ++ s'.fleet.map Flying.addr).Perm (s.fleet.map Flying.addr)

section Departs

variable {s s' s'' : Sky}

theorem Departs.refl (s : Sky) : Departs s s := ⟨[], (List.append_nil _).symm, List.Perm.refl _⟩

theorem Departs.trans (h : Departs s s') (h' : Departs s' s'') : Departs s s'' := by
  obtain ⟨freed, hfreed, hperm⟩ := h
  obtain ⟨freed', hfreed', hperm'⟩ := h'
  refine ⟨freed ++ freed', ?_, ?_⟩
  · rw [hfreed', hfreed, List.append_assoc]
  · rw [List.append_assoc]
    exact (hperm'.append_left freed).trans hperm

theorem Departs.of_addrs (hfreed : s'.freed = s.freed)
    (haddrs : s'.fleet.map Flying.addr = s.fleet.map Flying.addr) : Departs s s' :=
  ⟨[], by rw [hfreed, List.append_nil], by rw [List.nil_append, haddrs]⟩

theorem departs_keep (s : Sky) (t : Flying) (f : Missile) :
    Departs (s.facing t) (s.keep { t with missile := f }) := by
  refine Departs.of_addrs rfl ?_
  simp [fleet, facing, keep]

theorem departs_blast (s : Sky) (t : Flying) :
    Departs (s.facing t) ((s.blast t).facing t) := by
  refine Departs.of_addrs rfl ?_
  have haddrs : Flying.addr ∘ strike t.missile = Flying.addr :=
    funext fun u => strike_addr t.missile u
  simp [fleet, facing, blast, haddrs]

theorem departs_drop (s : Sky) (t : Flying) : Departs (s.facing t) (s.drop t) := by
  refine ⟨[t.addr], rfl, ?_⟩
  have hfleet : (s.drop t).fleet = s.done ++ s.todo := by
    simp only [fleet, Sky.drop, List.append_assoc, List.take_append_drop]
  rw [hfleet, map_facing, List.map_append, List.singleton_append]
  exact List.perm_middle.symm

theorem departs_serveMissile (s : Sky) (t : Flying) :
    Departs (s.facing t) (s.serveMissile t) := by
  rw [serveMissile]
  cases turn t.missile with
  | burn =>
      change Departs (s.facing t) (s.burn t)
      unfold burn
      split
      · exact (departs_blast s t).trans (departs_drop _ t)
      · exact (departs_blast s t).trans (departs_keep _ t _)
  | leave => exact departs_drop s t
  | reach => exact (departs_blast s t).trans (departs_keep (s.blast t) t _)
  | fly => exact departs_keep s t _

theorem departs_pass (s : Sky) : Departs s s.pass := by
  rw [Sky.pass]
  cases htodo : s.todo with
  | nil => exact Departs.refl s
  | cons t rest =>
      have hserved := departs_serveMissile { s with todo := rest } t
      rw [facing, ← htodo] at hserved
      exact hserved

theorem departs_passes (n : ℕ) : ∀ s : Sky, Departs s (Sky.pass^[n] s) := by
  induction n with
  | zero => exact Departs.refl
  | succ n ih =>
      intro s
      rw [Function.iterate_succ_apply]
      exact (departs_pass s).trans (ih s.pass)

theorem departs_tick (s : Sky) : Departs s s.tick := by
  have hstart : Departs s s.startTick := by
    refine ⟨[], (List.append_nil _).symm, ?_⟩
    rw [fleet, Sky.startTick]
    exact List.Perm.refl _
  exact hstart.trans (departs_passes _ _)

end Departs

/-! ## The tasklet -/

theorem spares_of_unlinked {fuel : ℕ} {m : Machine} {l : List Word} {a : Word}
    (hl : Listed m.mem l) (ha : a ∉ l) (hfuel : l.length < fuel) : Spares fuel m a := by
  rintro e he
  obtain ⟨g, s, added, hat, haddrs, -⟩ := exists_sky hl
  have hlen : s.fleet.length < fuel := by
    rw [← haddrs, List.length_map] at hfuel
    exact hfuel
  let m₁ : Machine := { m with regs := e.regs, env := e.env, stack := [0, e.arg], ebp := [] }
  have hat₁ : At g s m₁ := hat.rests ⟨rfl, rfl, rfl, rfl, rfl⟩
  obtain ⟨m', hrun, hat'⟩ := rtcTasklet_run hat₁ hlen (rfl : m₁.stack = 0 :: [e.arg])
  obtain ⟨freed, hfreed, hperm⟩ := departs_tick s
  have henter : enter fuel m e = some m' := by
    unfold enter
    rw [he]
    exact hrun
  have hkept : ∀ b, b ∉ l → m'.mem.heap b = m.mem.heap b := by
    intro b hb
    rw [← haddrs] at hb
    rw [hat.frame b hb]
    apply hat'.frame b
    intro hin
    exact hb (hperm.subset (List.mem_append_right _ hin))
  refine ⟨m', freed, henter, hkept a ha, ?_, ?_, ?_⟩
  · rw [hat'.freed, hat.freed]
    exact hfreed
  · have hnodup := hperm.nodup_iff.mpr (haddrs ▸ hl.chain.nodup hl.links_null)
    exact (List.nodup_append.mp hnodup).1
  · intro hin
    apply ha
    rw [← haddrs]
    exact hperm.subset (List.mem_append_left _ hin)

/-! ## The call -/

/-- The memory when the inner missile `a` is freed: its predecessor `p` has taken over its link. -/
def bypassed (mem : Memory) (p a : Word) (fp fa : Missile) : Memory :=
  (mem.setBlock p (some (.missile (fp.set (fa.get .next) .next)))).setBlock a
    (some (.missile (fa.set 0 .next)))

/-- The memory when the head `a` is freed: its link is gone, and the list still starts with it. -/
def severed (mem : Memory) (a : Word) (fa : Missile) : Memory :=
  mem.setBlock a (some (.missile (fa.set 0 .next)))

/-- The machine `m` after a C function that it called has returned `r`. -/
def returned (m : Machine) (r : Word × Machine) : Machine := { r.2 with
  regs := { m.regs with eax := r.1, ecx := r.2.junk 0, edx := r.2.junk 1 }
  junk := fun i => r.2.junk (i + 2) }

theorem block_append (is js : List Code) (m : Machine) :
    block (is ++ js) m = (block is m).bind (block js) := by
  induction is generalizing m with
  | nil => rfl
  | cons i is ih =>
      change (i m).bind (block (is ++ js)) = ((i m).bind (block is)).bind (block js)
      rw [Option.bind_assoc]
      congr 1
      exact funext ih

/-- The instructions up to the call of a C function lead to the state in which it is called. -/
theorem seq_ccall {α : Type} {before after : List Code} {k : Machine → Option α} {m m' : Machine}
    (h : block before m = some m') (f : List Word → Machine → Option (Word × Machine)) :
    seq (before ++ ccall f :: after) k m =
      (f m'.stack m').bind fun r => seq after k (returned m' r) := by
  change (block (before ++ ccall f :: after) m).bind k = _
  rw [block_append, h, Option.bind_some]
  change (((f m'.stack m').bind fun r => some (returned m' r)).bind (block after)).bind k = _
  rw [Option.bind_assoc, Option.bind_assoc]
  rfl

section Call

variable {m : Machine}

/-- `mp1_missile_remove` before it distinguishes the head. -/
def compared (m : Machine) : Machine := { m with
  compared := (m.regs.edx, m.mem.missileList)
  stack := m.regs.ebx :: m.regs.esi :: m.regs.edi :: 0 :: m.stack
  ebp := 0 :: m.stack }

theorem block_compared (m : Machine) :
    block [pushl edi, pushl esi, pushl ebx, cmpl (.var .mp1MissileList) edx]
      { m with stack := 0 :: m.stack, ebp := 0 :: m.stack } = some (compared m) := by
  simp [compared]

def leave (m m' : Machine) : Option Machine := ret { m' with stack := m.stack, ebp := m.ebp }

theorem unlinkMissileWith_head (free : List Word → Machine → Option (Word × Machine))
    (hhead : m.regs.edx = m.mem.missileList) : unlinkMissileWith free m =
      (seq ([movl (.field .next .edx) esi, movl (.imm 0) (.field .next .edx), pushl edx] ++
        ccall free :: [addEsp, movl esi edx, movl edx (.var .mp1MissileList)]) endDelete
        (compared m)).bind (leave m) := by
  unfold unlinkMissileWith framed
  change ((block _ _).bind _).bind _ = _
  have hjump : (compared m).compared.1 = (compared m).compared.2 := hhead
  rw [block_compared, Option.bind_some, je, if_pos hjump]
  rfl

theorem unlinkMissileWith_inner (free : List Word → Machine → Option (Word × Machine))
    (hinner : m.regs.edx ≠ m.mem.missileList) : unlinkMissileWith free m =
      (seq ([movl (.field .next .edx) esi, movl esi (.field .next .edi),
        movl (.imm 0) (.field .next .edx), pushl edx, pushl edx] ++
        ccall free :: [addEsp, popl edx, movl esi edx]) endDelete (compared m)).bind (leave m) := by
  unfold unlinkMissileWith framed
  change ((block _ _).bind _).bind _ = _
  have hstay : (compared m).compared.1 ≠ (compared m).compared.2 := hinner
  rw [block_compared, Option.bind_some, je, if_neg hstay]
  rfl

theorem callsFree_head {fa : Missile} (hhead : m.regs.edx = m.mem.missileList)
    (ha : m.mem.missileAt m.regs.edx = some fa) :
    ∃ m', CallsFree m m' m.regs.edx ∧ m'.mem = severed m.mem m.regs.edx fa := by
  let m' : Machine := { compared m with
    regs := { m.regs with esi := fa.next }
    stack := m.regs.edx :: (compared m).stack
    mem := severed m.mem m.regs.edx fa }
  have hbefore : block [movl (.field .next .edx) esi, movl (.imm 0) (.field .next .edx), pushl edx]
      (compared m) = some m' := by
    simp [compared, ha, m', severed, Missile.get]
  refine ⟨m', ⟨rfl, fun r => (seq [addEsp, movl esi edx, movl edx (.var .mp1MissileList)] endDelete
    (returned m' r)).bind (leave m), fun free => ?_⟩, rfl⟩
  rw [unlinkMissileWith_head free hhead, seq_ccall hbefore, Option.bind_assoc]

theorem callsFree_inner {fp fa : Missile} (hinner : m.regs.edx ≠ m.mem.missileList)
    (hp : m.mem.missileAt m.regs.edi = some fp) (ha : m.mem.missileAt m.regs.edx = some fa)
    (hpa : m.regs.edi ≠ m.regs.edx) :
    ∃ m', CallsFree m m' m.regs.edx ∧
      m'.mem = bypassed m.mem m.regs.edi m.regs.edx fp fa := by
  let m' : Machine := { compared m with
    regs := { m.regs with esi := fa.next }
    stack := m.regs.edx :: m.regs.edx :: (compared m).stack
    mem := bypassed m.mem m.regs.edi m.regs.edx fp fa }
  have ha' : (m.mem.setBlock m.regs.edi
      (some (.missile (fp.set (fa.get .next) .next)))).missileAt m.regs.edx = some fa := by
    rw [missileAt_setBlock_ne _ hpa.symm, ha]
  have hbefore : block [movl (.field .next .edx) esi, movl esi (.field .next .edi),
      movl (.imm 0) (.field .next .edx), pushl edx, pushl edx] (compared m) = some m' := by
    simp [compared, ha, hp, ha', m', bypassed]
    rfl
  refine ⟨m', ⟨rfl, fun r => (seq [addEsp, popl edx, movl esi edx] endDelete
    (returned m' r)).bind (leave m), fun free => ?_⟩, rfl⟩
  rw [unlinkMissileWith_inner free hinner, seq_ccall hbefore, Option.bind_assoc]

/-- The state in which `mp1_free` is called is determined. -/
theorem callsFree_unique {m' m₁ m₂ : Machine} {a : Word} (h₁ : CallsFree m m₁ a)
    (h₂ : CallsFree m m₂ a) (hrun : unlinkMissile m = some m') : m₁ = m₂ := by
  classical
  obtain ⟨-, rest₁, hrest₁⟩ := h₁
  obtain ⟨-, rest₂, hrest₂⟩ := h₂
  by_contra hne
  -- a function that faults in the first state, and is `mp1_free` in the second
  let free : List Word → Machine → Option (Word × Machine) :=
    fun args x => if x = m₁ then none else mp1Free args x
  have hfaults : unlinkMissileWith free m = none := by
    have hfirst : free m₁.stack m₁ = none := if_pos rfl
    rw [hrest₁ free, hfirst, Option.bind_none]
  have hruns : unlinkMissileWith free m = some m' := by
    have hsecond : free m₂.stack m₂ = mp1Free m₂.stack m₂ := if_neg fun heq => hne heq.symm
    rw [hrest₂ free, hsecond, ← hrest₂, unlinkMissileWith_mp1Free, hrun]
  rw [hfaults] at hruns
  cases hruns

end Call

theorem listed_of_released {mem : Memory} {l : List Word} {a : Word} (ha : a ≠ 0#32)
    (h : Listed (mem.setBlock a none) l) : Listed mem l ∧ a ∉ l := by
  have hout : a ∉ l := by
    intro hin
    have hsome := h.chain.isSome hin
    simp [links, Memory.missileAt] at hsome
  refine ⟨⟨?_, ?_⟩, hout⟩
  · refine h.chain.congr ?_
    intro x hx
    have hne : x ≠ a := by
      rintro rfl
      exact hout hx
    unfold links
    rw [missileAt_setBlock_ne none hne]
  · have hnull := h.null
    rwa [heap_setBlock, Function.update_of_ne ha.symm] at hnull

section Removal

variable {fuel : ℕ} {m : Machine} {post : List Word}

/-- **The head** is still the head when it is freed. -/
theorem not_unlinkedFirst (h : Listed m.mem (m.regs.edx :: post)) :
    ¬ UnlinkedFirst fuel m post := by
  have h' : Listed m.mem ([] ++ m.regs.edx :: post) := h
  have hpred : ([] : List Word) = [] ∨ ∃ pre', [] = pre' ++ [m.regs.edi] := Or.inl rfl
  have hhead : m.regs.edx = m.mem.missileList := h.chain.1.symm
  obtain ⟨hzero, fa, ha, -⟩ := h'.victim hpred
  rintro ⟨m₁, hcalls, ⟨l, hl, hout, -⟩, -, -⟩
  obtain ⟨m₂, hcalls₂, hmem⟩ :=
    callsFree_head (m := { m with stack := 0 :: m.stack }) hhead ha
  obtain ⟨m', hrun, -⟩ := mp1MissileRemove_spec h' hpred
  unfold call mp1MissileRemove at hrun
  obtain ⟨x, hx, -⟩ := Option.bind_eq_some_iff.mp hrun
  obtain rfl := callsFree_unique hcalls hcalls₂ hx
  have hlist : m₁.mem.missileList = m.regs.edx := by
    rw [hmem]
    exact hhead.symm
  have hchain := hl.chain
  rw [hlist] at hchain
  cases l with
  | nil => exact hzero hchain
  | cons y l =>
      apply hout
      rw [hchain.1]
      exact List.mem_cons_self

/-- **An inner missile** is out of the list when it is freed, and all others are in it. -/
theorem unlinkedFirst {pre' : List Word}
    (h : Listed m.mem (pre' ++ m.regs.edi :: m.regs.edx :: post))
    (hfuel : (pre' ++ [m.regs.edi] ++ post).length < fuel) {fp fa : Missile}
    (hzero : m.regs.edx ≠ 0#32) (hinner : m.regs.edx ≠ m.mem.missileList)
    (hpa : m.regs.edi ≠ m.regs.edx) (hp : m.mem.missileAt m.regs.edi = some fp)
    (ha : m.mem.missileAt m.regs.edx = some fa) :
    UnlinkedFirst fuel m (pre' ++ [m.regs.edi] ++ post) := by
  obtain ⟨m₁, hcalls, hmem⟩ :=
    callsFree_inner (m := { m with stack := 0 :: m.stack }) hinner hp ha hpa
  have hreleased := (unlinked_relinked h hp ha hpa).listed
  have hreleased₁ : Listed (m₁.mem.setBlock m.regs.edx none) (pre' ++ [m.regs.edi] ++ post) := by
    rw [hmem]
    exact hreleased
  obtain ⟨hlisted, hout⟩ := listed_of_released hzero hreleased₁
  exact ⟨m₁, hcalls, ⟨_, hlisted, hout, fun b hb => hb⟩, spares_of_unlinked hlisted hout hfuel,
    spares_of_unlinked hreleased₁ hout hfuel⟩

end Removal

/-- **The missile is unlinked first** if and only if it is not the head. -/
theorem unlinkedFirst_iff_notHead {fuel : ℕ} {m : Machine} {pre post : List Word}
    (h : Listed m.mem (pre ++ m.regs.edx :: post))
    (hpred : pre = [] ∨ ∃ pre', pre = pre' ++ [m.regs.edi])
    (hfuel : (pre ++ post).length < fuel) :
    UnlinkedFirst fuel m (pre ++ post) ↔ m.regs.edx ≠ m.mem.missileList := by
  obtain ⟨hzero, fa, ha, ⟨rfl, hhead⟩ | ⟨pre', fp, rfl, hinner, hpa, hp⟩⟩ := h.victim hpred
  · exact iff_of_false (not_unlinkedFirst h) fun hne => hne hhead
  · rw [List.append_assoc, List.singleton_append] at h
    exact iff_of_true (unlinkedFirst h hfuel hzero hinner hpa hp ha) hinner

/-- **`mp1_ioctl_endgame`** takes off the head, again and again. -/
theorem endgame_takes_heads {fuel : ℕ} {m : Machine} {l rest : List Word} {w : Word}
    (hl : Listed m.mem l) (hfuel : l.length < fuel) (hstack : m.stack = w :: rest) :
    ∃ m' rs, mp1IoctlEndgame fuel m = some m' ∧ m'.removals = m.removals ++ rs ∧
      rs.length = l.length ∧ ∀ r ∈ rs, r.victim = r.before.missileList := by
  obtain ⟨g, s, added, hat, haddrs, -⟩ := exists_sky hl
  have hlen : s.fleet.length = l.length := by rw [← haddrs, List.length_map]
  obtain ⟨m', hrun, -, rs, hrs, hcount, hheads⟩ := endgame_run hat (hlen ▸ hfuel) hstack
  exact ⟨m', rs, hrun, hrs, hcount.trans hlen, hheads⟩

/-- Two missiles in flight, and a call of `mp1_missile_remove` for the one in `edx`. -/
def twoInFlight (edi edx : Word) : Machine := { idle with
  regs := { zeroRegs with edi := edi, edx := edx }
  mem := { idle.mem with
    heap := Function.update (Function.update idle.mem.heap
      64 (some (.missile { zeroMissile with next := 128 }))) 128 (some (.missile zeroMissile))
    missileList := 64 } }

theorem listed_twoInFlight (edi edx : Word) : Listed (twoInFlight edi edx).mem [64, 128] :=
  ⟨⟨rfl, 128, rfl, rfl, 0, rfl, rfl⟩, rfl⟩

/-- The first missile is in the list when it is freed. -/
theorem head_not_unlinkedFirst : ¬ UnlinkedFirst 3 (twoInFlight 0 64) [128] :=
  not_unlinkedFirst (listed_twoInFlight 0 64)

theorem unlinkedFirst_iff_notHead_second :
    UnlinkedFirst 3 (twoInFlight 64 128) ([64] ++ []) ↔
      (twoInFlight 64 128).regs.edx ≠ (twoInFlight 64 128).mem.missileList :=
  unlinkedFirst_iff_notHead (listed_twoInFlight 64 128) (Or.inr ⟨[], rfl⟩) (by decide)

end MachineProblems.Analysis.Mp1
