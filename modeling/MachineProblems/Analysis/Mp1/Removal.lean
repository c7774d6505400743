import MachineProblems.Analysis.Mp1.Links

/-!
# Removing a missile from the list

`mp1_missile_remove` takes the missile in `%edx` and its predecessor in `%edi`; it unlinks
the missile, frees it and leaves its successor in `%edx`.
-/

set_option autoImplicit false

namespace MachineProblems.Analysis.Mp1

open MachineProblems.Library MachineProblems.Program.Mp1

/-- A removal that unlinks its victim, keeps the order of all others and frees the victim
once. -/
def ProperRemoval (r : Removal) : Prop :=
  ∃ pre post, Listed r.before (pre ++ r.victim :: post) ∧ Listed r.after (pre ++ post) ∧
    r.freedAfter = r.freedBefore ++ [r.victim] ∧ r.after.heap r.victim = none

/-- `a` is unlinked and freed, and `c` was its successor; of the others at most a link has
changed. -/
structure Unlinked (mem mem' : Memory) (pre post : List Word) (a c : Word) : Prop where
  listed : Listed mem' (pre ++ post)
  victim : mem'.heap a = none
  next : links mem a = some c
  kept : ∀ x f, x ≠ a → mem.missileAt x = some f →
    ∃ w, mem'.missileAt x = some { f with next := w }
  frame : ∀ x, x ∉ pre → x ≠ a → mem'.heap x = mem.heap x
  bases : mem'.baseAlive = mem.baseAlive
  score : mem'.score = mem.score

/-- The memory after the predecessor `p` took over the link of `a`. -/
def relinked (mem : Memory) (p a : Word) (fp fa : Missile) : Memory :=
  ((mem.setBlock p (some (.missile (fp.set (fa.get .next) .next)))).setBlock a
    (some (.missile (fa.set 0 .next)))).setBlock a none

/-- The memory after the head `a` was taken off. -/
def beheaded (mem : Memory) (a : Word) (fa : Missile) : Memory :=
  { (mem.setBlock a (some (.missile (fa.set 0 .next)))).setBlock a none with
    missileList := fa.get .next }

theorem unlinked_relinked {mem : Memory} {pre post : List Word} {p a : Word} {fp fa : Missile}
    (h : Listed mem (pre ++ p :: a :: post)) (hp : mem.missileAt p = some fp)
    (ha : mem.missileAt a = some fa) (hpa : p ≠ a) :
    Unlinked mem (relinked mem p a fp fa) (pre ++ [p]) post a fa.next := by
  have hne : ∀ x, x ≠ p → x ≠ a → (relinked mem p a fp fa).heap x = mem.heap x := by
    intro x hxp hxa
    simp [relinked, hxp, hxa]
  have hlinks : ∀ x, x ≠ p → x ≠ a → links (relinked mem p a fp fa) x = links mem x := by
    intro x hxp hxa
    unfold links Memory.missileAt
    rw [hne x hxp hxa]
  have hnext : links mem a = some fa.next := by simp [links, ha]
  have hredirect : links (relinked mem p a fp fa) p = some fa.next := by
    have hfp : (fp.set (fa.get .next) .next).next = fa.next := rfl
    simp [links, Memory.missileAt, relinked, hpa, hfp]
  have hchain := Seg.unlink h.links_null h.chain hnext hredirect hlinks
  have hnull := h.links_null
  constructor
  · constructor
    · rw [List.append_assoc]
      exact hchain
    · rw [hne]
      · exact h.null
      · rintro rfl
        simp [links, hp] at hnull
      · rintro rfl
        simp [links, ha] at hnull
  · simp [relinked]
  · exact hnext
  · intro x f hx hf
    by_cases hxp : x = p
    · subst hxp
      obtain rfl : f = fp := Option.some.inj (hf.symm.trans hp)
      exact ⟨fa.next, by simp [Memory.missileAt, relinked, hx, Missile.set, Missile.get]⟩
    · exact ⟨f.next, by rw [missileAt_eq_some, hne x hxp hx, ← missileAt_eq_some]; exact hf⟩
  · intro x hx hxa
    exact hne x (fun hxp => hx (by simp [hxp])) hxa
  · rfl
  · rfl

theorem unlinked_beheaded {mem : Memory} {post : List Word} {a : Word} {fa : Missile}
    (h : Listed mem (a :: post)) (ha : mem.missileAt a = some fa) :
    Unlinked mem (beheaded mem a fa) [] post a fa.next := by
  have hne : ∀ x, x ≠ a → (beheaded mem a fa).heap x = mem.heap x := by
    intro x hx
    simp [beheaded, hx]
  have hlinks : ∀ x, x ≠ a → links (beheaded mem a fa) x = links mem x := by
    intro x hx
    unfold links Memory.missileAt
    rw [hne x hx]
  have hnext : links mem a = some fa.next := by simp [links, ha]
  have hnull := h.links_null
  constructor
  · constructor
    · exact Seg.tail h.links_null h.chain hnext hlinks
    · rw [hne]
      · exact h.null
      · rintro rfl
        simp [links, ha] at hnull
  · simp [beheaded]
  · exact hnext
  · intro x f hx hf
    exact ⟨f.next, by rw [missileAt_eq_some, hne x hx, ← missileAt_eq_some]; exact hf⟩
  · exact fun x _ hxa => hne x hxa
  · rfl
  · rfl

/-- The registers, the stack and the trace after `mp1_missile_remove` made `mem'` of the memory
and left `c` in `%edx`. -/
structure RemoveRun (m m' : Machine) (mem' : Memory) (c : Word) : Prop where
  mem : m'.mem = mem'
  edx : m'.regs.edx = c
  freed : m'.freed = m.freed ++ [m.regs.edx]
  video : m'.video = m.video
  notified : m'.notified = m.notified
  removals : m'.removals = m.removals ++
    [⟨m.regs.edx, m.mem, mem', m.freed, m.freed ++ [m.regs.edx]⟩]
  ebx : m'.regs.ebx = m.regs.ebx
  esi : m'.regs.esi = m.regs.esi
  edi : m'.regs.edi = m.regs.edi
  stack : m'.stack = m.stack

theorem call_remove_head {m : Machine} {fa : Missile}
    (hhead : m.regs.edx = m.mem.missileList) (ha : m.mem.missileAt m.regs.edx = some fa)
    (hzero : m.regs.edx ≠ 0#32) :
    ∃ m', call mp1MissileRemove m = some m' ∧
      RemoveRun m m' (beheaded m.mem m.regs.edx fa) fa.next := by
  rw [hhead] at ha hzero
  simp [call, mp1MissileRemove, unlinkMissile, framed, headCase, endDelete, hhead, ha, hzero]
  constructor
  case edx => rfl
  all_goals simp [beheaded, hhead]

theorem call_remove_inner {m : Machine} {fp fa : Missile}
    (hinner : m.regs.edx ≠ m.mem.missileList) (hp : m.mem.missileAt m.regs.edi = some fp)
    (ha : m.mem.missileAt m.regs.edx = some fa) (hpa : m.regs.edi ≠ m.regs.edx)
    (hzero : m.regs.edx ≠ 0#32) :
    ∃ m', call mp1MissileRemove m = some m' ∧
      RemoveRun m m' (relinked m.mem m.regs.edi m.regs.edx fp fa) fa.next := by
  have ha' : (m.mem.setBlock m.regs.edi
      (some (.missile (fp.set (fa.get .next) .next)))).missileAt m.regs.edx = some fa := by
    rw [missileAt_setBlock_ne _ hpa.symm, ha]
  simp [call, mp1MissileRemove, unlinkMissile, framed, endDelete, hinner, ha, hp, hzero, ha']
  constructor
  case edx => rfl
  all_goals simp [relinked]

/-- What `mp1_missile_remove` does for the missile `a` between `pre` and `post`. -/
structure RemoveSpec (m m' : Machine) (pre post : List Word) (a : Word) : Prop where
  unlinked : Unlinked m.mem m'.mem pre post a m'.regs.edx
  freed : m'.freed = m.freed ++ [a]
  video : m'.video = m.video
  notified : m'.notified = m.notified
  removals : ∃ r, m'.removals = m.removals ++ [r] ∧ ProperRemoval r ∧ r.victim = a ∧
    r.before = m.mem
  ebx : m'.regs.ebx = m.regs.ebx
  esi : m'.regs.esi = m.regs.esi
  edi : m'.regs.edi = m.regs.edi
  stack : m'.stack = m.stack

theorem RemoveRun.spec {m m' : Machine} {mem' : Memory} {pre post : List Word} {c : Word}
    (hrun : RemoveRun m m' mem' c) (hbefore : Listed m.mem (pre ++ m.regs.edx :: post))
    (hmem : Unlinked m.mem mem' pre post m.regs.edx c) :
    RemoveSpec m m' pre post m.regs.edx where
  unlinked := by
    rw [hrun.mem, hrun.edx]
    exact hmem
  freed := hrun.freed
  video := hrun.video
  notified := hrun.notified
  removals := ⟨_, hrun.removals, ⟨pre, post, hbefore, hmem.listed, rfl, hmem.victim⟩, rfl, rfl⟩
  ebx := hrun.ebx
  esi := hrun.esi
  edi := hrun.edi
  stack := hrun.stack

/-- A missile of the list is the head, or the predecessor is another one. -/
theorem Listed.victim {mem : Memory} {pre post : List Word} {a p : Word}
    (h : Listed mem (pre ++ a :: post)) (hpred : pre = [] ∨ ∃ pre', pre = pre' ++ [p]) :
    a ≠ 0#32 ∧ ∃ fa, mem.missileAt a = some fa ∧
      (pre = [] ∧ a = mem.missileList ∨ ∃ pre' fp, pre = pre' ++ [p] ∧ a ≠ mem.missileList ∧
        p ≠ a ∧ mem.missileAt p = some fp) := by
  have hmissile : ∀ x ∈ pre ++ a :: post, ∃ f, mem.missileAt x = some f := by
    intro x hx
    obtain ⟨c, hc⟩ := Option.isSome_iff_exists.mp (h.chain.isSome hx)
    obtain ⟨f, hf, -⟩ := missileAt_of_links hc
    exact ⟨f, hf⟩
  obtain ⟨fa, ha⟩ := hmissile a (by simp)
  refine ⟨h.ne_null (by simp), fa, ha, ?_⟩
  have hnodup := h.chain.nodup h.links_null
  rcases hpred with rfl | ⟨pre', rfl⟩
  · exact Or.inl ⟨rfl, h.chain.1.symm⟩
  · obtain ⟨fp, hp⟩ := hmissile p (by simp)
    rw [List.append_assoc, List.singleton_append] at h hnodup
    have htail := (List.nodup_append.mp hnodup).2.1
    have hpa : p ≠ a := by
      rintro rfl
      exact (List.nodup_cons.mp htail).1 List.mem_cons_self
    refine Or.inr ⟨pre', fp, rfl, ?_, hpa, hp⟩
    intro heq
    cases pre' with
    | nil =>
        have hfirst : mem.missileList = p := h.chain.1
        exact hpa (heq.trans hfirst).symm
    | cons x pre' =>
        have hfirst : mem.missileList = x := h.chain.1
        rw [heq, hfirst] at hnodup
        exact (List.nodup_cons.mp hnodup).1 (by simp)

/-- **`mp1_missile_remove`** on a missile of the list, with the predecessor in `%edi` unless the
missile is the head. -/
theorem mp1MissileRemove_spec {m : Machine} {pre post : List Word}
    (h : Listed m.mem (pre ++ m.regs.edx :: post))
    (hpred : pre = [] ∨ ∃ pre', pre = pre' ++ [m.regs.edi]) :
    ∃ m', call mp1MissileRemove m = some m' ∧ RemoveSpec m m' pre post m.regs.edx := by
  obtain ⟨hzero, fa, ha, ⟨rfl, hhead⟩ | ⟨pre', fp, rfl, hinner, hpa, hp⟩⟩ := h.victim hpred
  · obtain ⟨m', hcall, hrun⟩ := call_remove_head hhead ha hzero
    exact ⟨m', hcall, hrun.spec h (unlinked_beheaded h ha)⟩
  · obtain ⟨m', hcall, hrun⟩ := call_remove_inner hinner hp ha hpa hzero
    refine ⟨m', hcall, hrun.spec h ?_⟩
    rw [List.append_assoc, List.singleton_append] at h
    exact unlinked_relinked h hp ha hpa

/-! ## The loop of mp1_ioctl_endgame -/

/-- The machine at the call in the loop. -/
def endgameCall (m : Machine) (f : Missile) : Machine :=
  { m with
    compared := (m.regs.edx, 0#32)
    regs := { m.regs with esi := f.get .next }
    stack := m.regs.edx :: m.regs.ebx :: m.stack }

/-- One round, around the call. -/
theorem endgameLoop_round {n : ℕ} {m m' : Machine} {f : Missile} (hzero : m.regs.edx ≠ 0#32)
    (hf : m.mem.missileAt m.regs.edx = some f)
    (hcall : call mp1MissileRemove (endgameCall m f) = some m')
    (hstack : m'.stack = m.regs.edx :: m.regs.ebx :: m.stack) :
    endgameLoop (n + 1) m = endgameLoop n { m' with
      regs := { m'.regs with ebx := m'.regs.edx, edx := m'.regs.esi }
      stack := m.stack } := by
  simp only [endgameCall] at hcall
  simp [endgameLoop, hzero, hf, hcall, hstack]

end MachineProblems.Analysis.Mp1
