import MachineProblems.Library.Chain
import MachineProblems.Library.Frames
import MachineProblems.Model.CleanupDuty

/-!
# Cleanups that clean up

A cleanup function may push, pop and do cleanups itself, while an outer `pop_cleanup` still holds
its node.  As a node is off the stack before its function is called, and freed after, what the
calls do to the nodes is at any depth what may happen to a stack of cleanups; and as each push is
paid for by a bound, the calls end, with nothing left on the stack and nothing left allocated.
-/

set_option autoImplicit false

namespace MachineProblems.Analysis.Adventure

open MachineProblems.Library MachineProblems.Program.Adventure MachineProblems.Model

variable {σ Fn Arg : Type}

/-! ## The nodes in memory -/

/-- The link behind a pointer. -/
def cleanupLink (heap : ℕ → Option (Cleanup Fn Arg)) : Option ℕ → Option (Option ℕ)
  | none => none
  | some c => (heap c).map Cleanup.next

theorem link_push {m : Cleaning σ Fn Arg} {stack : List ℕ}
    (h : Seg (cleanupLink m.heap) m.cleanupStack (stack.map some) none)
    (hnone : m.heap m.fresh = none) (fn : Fn) (arg : Arg) :
    Seg (cleanupLink (pushCleanup m fn arg).heap) (pushCleanup m fn arg).cleanupStack
      ((m.fresh :: stack).map some) none := by
  refine h.push (x := some m.fresh) ?_ ?_ ?_
  · simp [cleanupLink, hnone]
  · simp [cleanupLink, pushCleanup]
  · intro p hp
    cases p with
    | none => rfl
    | some c =>
        have hc : c ≠ m.fresh := fun heq => hp (congrArg some heq)
        simp [cleanupLink, pushCleanup, hc]

/-- The nodes that calls of `pop_cleanup` have yet to free. -/
def held : List (Frame σ Fn Arg) → List ℕ
  | [] => []
  | .doCleanups :: frames => held frames
  | .free c :: frames => c :: held frames
  | .run _ :: frames => held frames

/-- What memory has of a node, whether a call holds it, and what has become of it. -/
structure NodeKept (node : Option (Cleanup Fn Arg)) (isHeld : Prop) (p : Phase) : Prop where
  alloc : node.isSome ↔ p = .waiting ∨ isHeld
  held : isHeld ↔ p = .popped false ∨ p = .called
  settled : p ≠ .popped true

/-- The nodes in memory are those on the stack and those that a call holds. -/
structure Orderly (stack : List ℕ) (m : Cleaning σ Fn Arg) (d : CleanupDuty) : Prop where
  trace : CleanupDuty.Trace (.start stack) m.log d
  stacked : CleanupDuty.Stacked d
  chain : Seg (cleanupLink m.heap) m.cleanupStack (d.stack.map some) none
  nodes : ∀ c, NodeKept (m.heap c) (c ∈ held m.frames) (d.phase c)
  nodup : (held m.frames).Nodup
  fresh : ∀ c, m.fresh ≤ c → d.phase c = .unborn

section Orderly

variable {stack : List ℕ} {m : Cleaning σ Fn Arg} {d : CleanupDuty}

/-- What the calls do with other memory does not matter. -/
theorem Orderly.continue (h : Orderly stack m d) (env : σ) (frames : List (Frame σ Fn Arg))
    (hheld : held frames = held m.frames) :
    Orderly stack { m with env := env, frames := frames } d where
  trace := h.trace
  stacked := h.stacked
  chain := h.chain
  nodes := by
    intro c
    show NodeKept (m.heap c) (c ∈ held frames) (d.phase c)
    rw [hheld]
    exact h.nodes c
  nodup := by
    show (held frames).Nodup
    rw [hheld]
    exact h.nodup
  fresh := h.fresh

/-- **`push_cleanup`** puts a new node on the stack. -/
theorem Orderly.push (h : Orderly stack m d) (fn : Fn) (arg : Arg) :
    Orderly stack (pushCleanup m fn arg)
      ⟨m.fresh :: d.stack, Function.update d.phase m.fresh .waiting⟩ := by
  have hunborn : d.phase m.fresh = .unborn := h.fresh m.fresh (le_refl _)
  have hnext : CleanupDuty.Next d (.push m.fresh) _ := .push m.fresh hunborn
  obtain ⟨halloc, hheld, -⟩ := h.nodes m.fresh
  have hnotHeld : m.fresh ∉ held m.frames := by
    rw [hheld, hunborn]
    simp
  have hnone : m.heap m.fresh = none := by
    rw [← Option.not_isSome_iff_eq_none, halloc, hunborn]
    simp [hnotHeld]
  refine ⟨h.trace.next hnext, h.stacked.next hnext, link_push h.chain hnone fn arg, ?_, h.nodup, ?_⟩
  · intro c
    show NodeKept (Function.update m.heap m.fresh _ c) (c ∈ held m.frames)
      (Function.update d.phase m.fresh .waiting c)
    by_cases hc : c = m.fresh
    · subst hc
      constructor <;> simp [hnotHeld]
    · rw [Function.update_of_ne hc, Function.update_of_ne hc]
      exact h.nodes c
  · intro c hc
    have hlt : m.fresh + 1 ≤ c := hc
    show Function.update d.phase m.fresh .waiting c = .unborn
    rw [Function.update_of_ne (by omega)]
    exact h.fresh c (by omega)

/-- A call that frees its node, which is not on the stack. -/
theorem Orderly.free {c : ℕ} {frames : List (Frame σ Fn Arg)} (h : Orderly stack m d)
    (hframes : m.frames = .free c :: frames) :
    ∃ m' d', freeCleanup { m with frames := frames } c = some m' ∧ Orderly stack m' d' ∧
      m'.frames = frames ∧ m'.cleanupStack = m.cleanupStack ∧ d'.stack = d.stack ∧
      m'.log = m.log ++ [.free c] := by
  have hheldEq : held m.frames = c :: held frames := by
    rw [hframes]
    rfl
  have hheld : c ∈ held m.frames := by
    rw [hheldEq]
    exact List.mem_cons_self
  have hnodup := h.nodup
  rw [hheldEq] at hnodup
  obtain ⟨hnot, hnodup⟩ := List.nodup_cons.mp hnodup
  obtain ⟨node, hnode⟩ := Option.isSome_iff_exists.mp ((h.nodes c).alloc.mpr (Or.inr hheld))
  obtain ⟨executed, hnext⟩ : ∃ executed, CleanupDuty.Next d (.free c)
      ⟨d.stack, Function.update d.phase c (.freed executed)⟩ := by
    rcases (h.nodes c).held.mp hheld with hphase | hphase
    · exact ⟨false, .skip c hphase⟩
    · exact ⟨true, .free c hphase⟩
  have hwaits : c ∉ d.stack := by
    rw [h.stacked.mem_iff]
    rcases (h.nodes c).held.mp hheld with hphase | hphase <;> simp [hphase]
  refine ⟨{ m with
      frames := frames
      heap := Function.update m.heap c none
      log := m.log ++ [.free c] },
    ⟨d.stack, Function.update d.phase c (.freed executed)⟩, ?_, ?_, rfl, rfl, rfl, rfl⟩
  · unfold freeCleanup
    show (m.heap c).bind _ = _
    rw [hnode, Option.bind_some]
  · refine ⟨h.trace.next hnext, h.stacked.next hnext, ?_, ?_, hnodup, ?_⟩
    · refine h.chain.congr ?_
      intro p hp
      obtain ⟨c', hc', rfl⟩ := List.mem_map.mp hp
      have hne : c' ≠ c := by
        rintro rfl
        exact hwaits hc'
      simp [cleanupLink, hne]
    · intro c'
      show NodeKept (Function.update m.heap c none c') (c' ∈ held frames)
        (Function.update d.phase c (.freed executed) c')
      by_cases hc : c' = c
      · subst hc
        constructor <;> simp [hnot]
      · have hsame : c' ∈ held frames ↔ c' ∈ held m.frames := by simp [hheldEq, hc]
        rw [Function.update_of_ne hc, Function.update_of_ne hc, hsame]
        exact h.nodes c'
    · intro c' hc'
      show Function.update d.phase c (.freed executed) c' = .unborn
      have hunborn := h.fresh c' hc'
      have hne : c' ≠ c := by
        rintro rfl
        rcases (h.nodes c').held.mp hheld with hphase | hphase <;> simp [hphase] at hunborn
      rw [Function.update_of_ne hne]
      exact hunborn

/-- The top of the stack. -/
theorem Orderly.top {c : ℕ} (h : Orderly stack m d) (hc : m.cleanupStack = some c) :
    ∃ node rest, m.heap c = some node ∧ d.stack = c :: rest ∧ d.phase c = .waiting ∧
      c ∉ held m.frames ∧ Seg (cleanupLink m.heap) node.next (rest.map some) none := by
  have hchain := h.chain
  cases hstack : d.stack with
  | nil =>
      rw [hstack, hc] at hchain
      cases hchain
  | cons c' rest =>
      rw [hstack, hc] at hchain
      obtain ⟨heq, next, hnext, hrest⟩ := hchain
      obtain rfl : c = c' := Option.some.inj heq
      obtain ⟨node, hnode, rfl⟩ := Option.map_eq_some_iff.mp hnext
      have hwaits : d.phase c = .waiting := by
        rw [← h.stacked.mem_iff, hstack]
        exact List.mem_cons_self
      refine ⟨node, rest, hnode, rfl, hwaits, ?_, hrest⟩
      rw [(h.nodes c).held, hwaits]
      simp

/-- **`pop_cleanup`** takes the top node off the stack and holds it. -/
theorem Orderly.unlink {c : ℕ} {node : Cleanup Fn Arg} {rest : List ℕ} (h : Orderly stack m d)
    (hnode : m.heap c = some node) (hstack : d.stack = c :: rest) (hwaits : d.phase c = .waiting)
    (hheld : c ∉ held m.frames)
    (hrest : Seg (cleanupLink m.heap) node.next (rest.map some) none)
    (p : Phase) (hp : p = .popped false ∨ p = .called) (events : List NodeEvent)
    (htrace : CleanupDuty.Trace d events ⟨rest, Function.update d.phase c p⟩)
    (hstacked : CleanupDuty.Stacked ⟨rest, Function.update d.phase c p⟩)
    (frames : List (Frame σ Fn Arg)) (hframes : held frames = c :: held m.frames) :
    Orderly stack
      { m with cleanupStack := node.next, log := m.log ++ events, frames := frames }
      ⟨rest, Function.update d.phase c p⟩ where
  trace := CleanupDuty.trace_append_iff.mpr ⟨d, h.trace, htrace⟩
  stacked := hstacked
  chain := hrest
  nodes := by
    intro c'
    show NodeKept (m.heap c') (c' ∈ held frames) (Function.update d.phase c p c')
    by_cases hc : c' = c
    · subst hc
      have hmem : c' ∈ held frames := by
        rw [hframes]
        exact List.mem_cons_self
      rw [Function.update_self]
      refine ⟨?_, iff_of_true hmem hp, ?_⟩
      · simp [hnode, hmem]
      · rcases hp with rfl | rfl <;> simp
    · have hsame : c' ∈ held frames ↔ c' ∈ held m.frames := by simp [hframes, hc]
      rw [Function.update_of_ne hc, hsame]
      exact h.nodes c'
  nodup := by
    show (held frames).Nodup
    rw [hframes]
    exact List.nodup_cons.mpr ⟨hheld, h.nodup⟩
  fresh := by
    intro c' hc'
    show Function.update d.phase c p c' = .unborn
    have hunborn := h.fresh c' hc'
    have hne : c' ≠ c := by
      rintro rfl
      simp [hwaits] at hunborn
    rw [Function.update_of_ne hne]
    exact hunborn

theorem Orderly.pop (code : Fn → Arg → σ → CleanupCode σ Fn Arg) (execute : ℤ)
    (h : Orderly stack m d) (hc : m.cleanupStack ≠ none) :
    ∃ m' d' gs, popCleanup code m execute = some m' ∧ Orderly stack m' d' ∧
      m'.frames = gs ++ m.frames ∧ d.stack.length = d'.stack.length + 1 ∧
      CleanupDuty.pushes m'.log = CleanupDuty.pushes m.log := by
  obtain ⟨c, hc⟩ := Option.ne_none_iff_exists'.mp hc
  obtain ⟨node, rest, hnode, hstack, hwaits, hheld, hrest⟩ := h.top hc
  unfold popCleanup
  simp only [hc, hnode, Option.bind_eq_bind, Option.bind_some]
  by_cases hexecute : execute = 0
  · have hpop : CleanupDuty.Next d (.pop c false) _ := .pop c false rest hstack hwaits
    have hnew := h.unlink hnode hstack hwaits hheld hrest (.popped false) (Or.inl rfl)
      [.pop c false] ⟨_, hpop, rfl⟩ (h.stacked.next hpop) (.free c :: m.frames) rfl
    refine ⟨_, _, [.free c], ?_, hnew, rfl, ?_, ?_⟩
    · simp [hexecute]
    · rw [hstack]
      rfl
    · simp [CleanupDuty.pushes]
  · have hpop : CleanupDuty.Next d (.pop c true) _ := .pop c true rest hstack hwaits
    have hcall : CleanupDuty.Next ⟨rest, Function.update d.phase c (.popped true)⟩ (.call c)
        ⟨rest, Function.update d.phase c .called⟩ := by
      have hnext := CleanupDuty.Next.call (d := ⟨rest, Function.update d.phase c (.popped true)⟩) c
        (Function.update_self c _ _)
      rw [Function.update_idem] at hnext
      exact hnext
    have hnew := h.unlink hnode hstack hwaits hheld hrest .called (Or.inr rfl)
      [.pop c true, .call c] ⟨_, hpop, _, hcall, rfl⟩ ((h.stacked.next hpop).next hcall)
      (.run (code node.fn node.arg) :: .free c :: m.frames) rfl
    refine ⟨_, _, [.run (code node.fn node.arg), .free c], ?_, hnew, rfl, ?_, ?_⟩
    · simp [hexecute]
    · rw [hstack]
      rfl
    · simp [CleanupDuty.pushes]

end Orderly

/-! ## The frames -/

/-- What a function that calls `do_cleanups` leaves to do instead of itself. -/
inductive Within : Frame σ Fn Arg → Frame σ Fn Arg → Prop
  | loop (rest : σ → CleanupCode σ Fn Arg) : Within .doCleanups (.run rest)
  | rest {rest rest' : σ → CleanupCode σ Fn Arg} {env env' : σ} :
      rest env = .doCleanups env' rest' → Within (.run rest') (.run rest)

theorem acc_doCleanups : Acc (Within : Frame σ Fn Arg → Frame σ Fn Arg → Prop) .doCleanups :=
  Acc.intro _ fun _ h => nomatch h

theorem acc_rest (now : CleanupCode σ Fn Arg) (env : σ) (rest : σ → CleanupCode σ Fn Arg)
    (h : now = .doCleanups env rest) : Acc Within (.run rest) := by
  induction now generalizing env rest with
  | done env' => cases h
  | pushCleanup env' fn arg rest' ih => cases h
  | popCleanup env' execute rest' ih => cases h
  | doCleanups env' rest' ih =>
      cases h
      refine Acc.intro _ fun f hf => ?_
      cases hf with
      | loop => exact acc_doCleanups
      | rest hrest => exact ih _ _ _ hrest

/-- A function calls `do_cleanups` finitely often before it returns. -/
theorem within_wellFounded : WellFounded (Within : Frame σ Fn Arg → Frame σ Fn Arg → Prop) := by
  refine ⟨fun f => ?_⟩
  cases f with
  | doCleanups => exact acc_doCleanups
  | free c => exact Acc.intro _ fun _ h => nomatch h
  | run rest =>
      refine Acc.intro _ fun g hg => ?_
      cases hg with
      | loop => exact acc_doCleanups
      | rest hrest => exact acc_rest _ _ _ hrest

/-- `do_cleanups` was called first, and once it has returned the stack is empty. -/
def Rooted (m : Cleaning σ Fn Arg) : Prop :=
  (∃ frames, m.frames = frames ++ [.doCleanups]) ∨ m.frames = [] ∧ m.cleanupStack = none

/-- The first call is the last frame. -/
theorem Rooted.cons {m : Cleaning σ Fn Arg} {f : Frame σ Fn Arg}
    {frames : List (Frame σ Fn Arg)} (h : Rooted m) (hframes : m.frames = f :: frames) :
    f = .doCleanups ∧ frames = [] ∨ ∃ before, frames = before ++ [.doCleanups] := by
  rcases h with ⟨before, hbefore⟩ | ⟨hnil, -⟩
  · rw [hframes] at hbefore
    cases before with
    | nil => exact Or.inl (List.cons.inj hbefore)
    | cons g before =>
        rw [List.cons_append] at hbefore
        exact Or.inr ⟨before, (List.cons.inj hbefore).2⟩
  · rw [hframes] at hnil
    cases hnil

theorem Rooted.step {m m' : Cleaning σ Fn Arg} {f : Frame σ Fn Arg}
    {frames : List (Frame σ Fn Arg)} (h : Rooted m) (hframes : m.frames = f :: frames)
    (hf : f ≠ .doCleanups) (above : List (Frame σ Fn Arg))
    (hframes' : m'.frames = above ++ frames) : Rooted m' := by
  rcases h.cons hframes with ⟨hloop, -⟩ | ⟨before, hbefore⟩
  · exact absurd hloop hf
  · refine Or.inl ⟨above ++ before, ?_⟩
    rw [hframes', hbefore, List.append_assoc]

/-- More is to be done first. -/
theorem Rooted.before {m m' : Cleaning σ Fn Arg} {f : Frame σ Fn Arg}
    {frames above : List (Frame σ Fn Arg)} (h : Rooted m) (hframes : m.frames = f :: frames)
    (hframes' : m'.frames = above ++ m.frames) : Rooted m' := by
  rcases h with ⟨before, hbefore⟩ | ⟨hnil, -⟩
  · refine Or.inl ⟨above ++ before, ?_⟩
    rw [hframes', hbefore, List.append_assoc]
  · rw [hframes] at hnil
    cases hnil

/-- A loop of `do_cleanups` has ended. -/
theorem Rooted.ended {m m' : Cleaning σ Fn Arg} {frames : List (Frame σ Fn Arg)} (h : Rooted m)
    (hframes : m.frames = .doCleanups :: frames) (hframes' : m'.frames = frames)
    (hempty : m'.cleanupStack = none) : Rooted m' := by
  rcases h.cons hframes with ⟨-, hnil⟩ | ⟨before, hbefore⟩
  · exact Or.inr ⟨hframes'.trans hnil, hempty⟩
  · exact Or.inl ⟨before, hframes'.trans hbefore⟩

/-- A function is about to call `pop_cleanup`. -/
def AtPop (m : Cleaning σ Fn Arg) : Prop :=
  ∃ rest frames env execute rest',
    m.frames = .run rest :: frames ∧ rest m.env = .popCleanup env execute rest'

section Step

variable (code : Fn → Arg → σ → CleanupCode σ Fn Arg) (start : Cleaning σ Fn Arg)
  (stack : List ℕ) (n : ℕ)

/-- The run has come to `m`, with everything in order. -/
structure OnCourse (m : Cleaning σ Fn Arg) : Prop where
  reached : Reaches (cleaningStep code) start m
  orderly : ∃ d, Orderly stack m d
  rooted : Rooted m

/-- The cleanups that may still be pushed, twice, and those that stand. -/
def cleanupsLeft (m : Cleaning σ Fn Arg) : ℕ :=
  2 * (n - CleanupDuty.pushes m.log) + (CleanupDuty.standing stack m.log).length

/-- A step from the top frame that brings the end nearer. -/
abbrev Advances (m : Cleaning σ Fn Arg) (f : Frame σ Fn Arg) (frames : List (Frame σ Fn Arg)) :
    Prop :=
  ∃ t above, Descends (cleaningStep code) Cleaning.frames (cleanupsLeft stack n) Within
    (OnCourse code start stack) m f frames t above

variable {code start stack n} {m : Cleaning σ Fn Arg} {d : CleanupDuty}
  {frames : List (Frame σ Fn Arg)}

theorem cleanupsLeft_eq (h : Orderly stack m d) :
    cleanupsLeft stack n m = 2 * (n - CleanupDuty.pushes m.log) + d.stack.length := by
  rw [cleanupsLeft, h.trace.standing_eq]

theorem doCleanups_advances (h : OnCourse code start stack m)
    (hframes : m.frames = .doCleanups :: frames) :
    Advances code start stack n m .doCleanups frames := by
  obtain ⟨hreach, ⟨d, horder⟩, hrooted⟩ := h
  by_cases hempty : m.cleanupStack = none
  · have hstep : cleaningStep code m = some { m with frames := frames } := by
      rw [cleaningStep, hframes]
      exact if_pos hempty
    have hnew := horder.continue m.env frames (by rw [hframes]; rfl)
    have hcourse : OnCourse code start stack { m with frames := frames } :=
      ⟨hreach.next hstep, ⟨d, hnew⟩, hrooted.ended hframes rfl hempty⟩
    exact ⟨_, [], .done hstep hcourse rfl rfl⟩
  · obtain ⟨t, d', above, hpop, hnew, htframes, hlength, hsame⟩ := horder.pop code 1 hempty
    have hstep : cleaningStep code m = some t := by
      rw [cleaningStep, hframes]
      exact (if_neg hempty).trans hpop
    have hcourse : OnCourse code start stack t :=
      ⟨hreach.next hstep, ⟨d', hnew⟩, hrooted.before hframes htframes⟩
    refine ⟨t, above ++ [.doCleanups], hstep, hcourse, ?_, Or.inl ?_⟩
    · rw [htframes, hframes, List.append_assoc]
      rfl
    · rw [cleanupsLeft_eq horder, cleanupsLeft_eq hnew, hsame]
      omega

theorem free_advances {c : ℕ} (h : OnCourse code start stack m)
    (hframes : m.frames = .free c :: frames) :
    Advances code start stack n m (.free c) frames := by
  obtain ⟨hreach, ⟨d, horder⟩, hrooted⟩ := h
  obtain ⟨t, d', hfree, hnew, htframes, -, hstack, hlog⟩ := horder.free hframes
  have hstep : cleaningStep code m = some t := by
    rw [cleaningStep, hframes]
    exact hfree
  have hcourse : OnCourse code start stack t :=
    ⟨hreach.next hstep, ⟨d', hnew⟩,
      hrooted.step hframes (fun hf => by cases hf) [] htframes⟩
  refine ⟨t, [], .done hstep hcourse htframes ?_⟩
  rw [cleanupsLeft_eq horder, cleanupsLeft_eq hnew, hstack, hlog]
  simp [CleanupDuty.pushes]

theorem run_advances {rest : σ → CleanupCode σ Fn Arg}
    (hpops : ∀ t, Reaches (cleaningStep code) start t → AtPop t → t.cleanupStack ≠ none)
    (hpushes : ∀ t, Reaches (cleaningStep code) start t → CleanupDuty.pushes t.log ≤ n)
    (h : OnCourse code start stack m) (hframes : m.frames = .run rest :: frames) :
    Advances code start stack n m (.run rest) frames := by
  obtain ⟨hreach, ⟨d, horder⟩, hrooted⟩ := h
  have hheld : held frames = held m.frames := by
    rw [hframes]
    rfl
  have hrun : ∀ {t : Cleaning σ Fn Arg} (above : List (Frame σ Fn Arg)),
      t.frames = above ++ frames → Rooted t :=
    fun above htframes => hrooted.step hframes (fun hf => by cases hf) above htframes
  cases hnow : rest m.env with
  | done env =>
      have hstep : cleaningStep code m = some { m with env := env, frames := frames } := by
        rw [cleaningStep, hframes]
        simp only [hnow]
      have hcourse : OnCourse code start stack { m with env := env, frames := frames } :=
        ⟨hreach.next hstep, ⟨d, horder.continue env frames hheld⟩, hrun [] rfl⟩
      exact ⟨_, [], .done hstep hcourse rfl rfl⟩
  | pushCleanup env fn arg rest' =>
      let before : Cleaning σ Fn Arg := { m with env := env, frames := .run rest' :: frames }
      have hstep : cleaningStep code m = some (pushCleanup before fn arg) := by
        rw [cleaningStep, hframes]
        simp only [hnow]
        rfl
      have hreach' := hreach.next hstep
      have hnew := (horder.continue env (.run rest' :: frames) hheld).push fn arg
      have hcourse : OnCourse code start stack (pushCleanup before fn arg) :=
        ⟨hreach', ⟨_, hnew⟩, hrun [.run rest'] rfl⟩
      refine ⟨_, [.run rest'], hstep, hcourse, rfl, Or.inl ?_⟩
      -- the bound leaves room for this push
      have hroom := hpushes _ hreach'
      have hone : CleanupDuty.pushes (pushCleanup before fn arg).log =
          CleanupDuty.pushes m.log + 1 := by
        simp [CleanupDuty.pushes, pushCleanup, before]
      rw [cleanupsLeft_eq horder, cleanupsLeft_eq hnew, hone]
      rw [hone] at hroom
      simp only [List.length_cons]
      omega
  | popCleanup env execute rest' =>
      have hfull := hpops m hreach ⟨rest, frames, env, execute, rest', hframes, hnow⟩
      have hbefore := horder.continue env (.run rest' :: frames) hheld
      obtain ⟨t, d', above, hpop, hnew, htframes, hlength, hsame⟩ :=
        hbefore.pop code execute hfull
      have hstep : cleaningStep code m = some t := by
        rw [cleaningStep, hframes]
        simp only [hnow]
        exact hpop
      have hall : t.frames = (above ++ [.run rest']) ++ frames := by
        rw [htframes, List.append_assoc]
        rfl
      refine ⟨t, above ++ [.run rest'], hstep, ⟨hreach.next hstep, ⟨d', hnew⟩, hrun _ hall⟩, hall,
        Or.inl ?_⟩
      have hlog : CleanupDuty.pushes t.log = CleanupDuty.pushes m.log := hsame
      rw [cleanupsLeft_eq horder, cleanupsLeft_eq hnew, hlog]
      omega
  | doCleanups env rest' =>
      have hstep : cleaningStep code m =
          some { m with env := env, frames := .doCleanups :: .run rest' :: frames } := by
        rw [cleaningStep, hframes]
        simp only [hnow]
      have hnew := horder.continue env (.doCleanups :: .run rest' :: frames) hheld
      refine ⟨_, [.doCleanups, .run rest'], hstep,
        ⟨hreach.next hstep, ⟨d, hnew⟩, hrun [.doCleanups, .run rest'] rfl⟩, rfl,
        Or.inr ⟨rfl, fun g hg => ?_⟩⟩
      rcases List.mem_cons.mp hg with rfl | hg
      · exact .loop rest
      · obtain rfl := List.mem_singleton.mp hg
        exact .rest hnow

/-- **Every step** of what is left to do is possible, keeps the order, and brings the end nearer. -/
theorem cleaningStep_advances
    (hpops : ∀ t, Reaches (cleaningStep code) start t → AtPop t → t.cleanupStack ≠ none)
    (hpushes : ∀ t, Reaches (cleaningStep code) start t → CleanupDuty.pushes t.log ≤ n)
    (f : Frame σ Fn Arg) (h : OnCourse code start stack m) (hframes : m.frames = f :: frames) :
    Advances code start stack n m f frames := by
  cases f with
  | doCleanups => exact doCleanups_advances h hframes
  | free c => exact free_advances h hframes
  | run rest => exact run_advances hpops hpushes h hframes

end Step

/-! ## The cleanup stack -/

/-- The nodes in memory are those of `stack`, linked in this order from the top. -/
structure CleanupStack (stack : List ℕ) (m : Cleaning σ Fn Arg) : Prop where
  chain : Seg (cleanupLink m.heap) m.cleanupStack (stack.map some) none
  alloc : ∀ c, (m.heap c).isSome ↔ c ∈ stack
  fresh : ∀ c ∈ stack, c < m.fresh

/-- `do_cleanups` is called. -/
def callDoCleanups (m : Cleaning σ Fn Arg) : Cleaning σ Fn Arg :=
  { m with frames := [.doCleanups], log := [] }

section CleanupStack

variable {stack : List ℕ} {m : Cleaning σ Fn Arg}

theorem CleanupStack.nodup (h : CleanupStack stack m) : stack.Nodup :=
  List.Nodup.of_map some (h.chain.nodup rfl)

theorem CleanupStack.orderly (h : CleanupStack stack m) :
    Orderly stack (callDoCleanups m) (.start stack) where
  trace := rfl
  stacked := CleanupDuty.stacked_start h.nodup
  chain := h.chain
  nodes := by
    intro c
    show NodeKept (m.heap c) (c ∈ []) (if c ∈ stack then .waiting else .unborn)
    have halloc := h.alloc c
    by_cases hc : c ∈ stack
    · rw [if_pos hc]
      constructor <;> simp [halloc, hc]
    · rw [if_neg hc]
      constructor <;> simp [halloc, hc]
  nodup := List.nodup_nil
  fresh := by
    intro c hc
    have hfresh : m.fresh ≤ c := hc
    refine if_neg fun hmem => ?_
    exact absurd (h.fresh c hmem) (by omega)

theorem CleanupStack.onCourse (code : Fn → Arg → σ → CleanupCode σ Fn Arg)
    (h : CleanupStack stack m) : OnCourse code (callDoCleanups m) stack (callDoCleanups m) where
  reached := Reaches.refl _
  orderly := ⟨_, h.orderly⟩
  rooted := Or.inl ⟨[], rfl⟩

/-- Every stack comes from the empty one. -/
theorem cleanupStack_nil (h : m.cleanupStack = none) (hheap : ∀ c, m.heap c = none) :
    CleanupStack [] m where
  chain := h
  alloc := fun c => by simp [hheap c]
  fresh := fun c hc => absurd hc List.not_mem_nil

theorem CleanupStack.push (h : CleanupStack stack m) (fn : Fn) (arg : Arg) :
    CleanupStack (m.fresh :: stack) (pushCleanup m fn arg) := by
  have hnot : m.fresh ∉ stack := fun hmem => Nat.lt_irrefl _ (h.fresh _ hmem)
  have hnone : m.heap m.fresh = none := by
    rw [← Option.not_isSome_iff_eq_none, h.alloc]
    exact hnot
  refine ⟨link_push h.chain hnone fn arg, fun c => ?_, fun c hc => ?_⟩
  · show (Function.update m.heap m.fresh _ c).isSome ↔ c ∈ m.fresh :: stack
    by_cases hc : c = m.fresh
    · subst hc
      simp
    · rw [Function.update_of_ne hc, h.alloc]
      simp [hc]
  · show c < m.fresh + 1
    rcases List.mem_cons.mp hc with rfl | hmem
    · exact Nat.lt_succ_self _
    · exact (h.fresh c hmem).trans (Nat.lt_succ_self _)

end CleanupStack

/-! ## do_cleanups -/

/-- When nothing is left to do, nothing is left. -/
theorem Orderly.done {stack : List ℕ} {m : Cleaning σ Fn Arg} {d : CleanupDuty}
    (h : Orderly stack m d) (hframes : m.frames = []) (hempty : m.cleanupStack = none) :
    (∀ c, m.heap c = none) ∧ CleanupDuty.CleanedUp stack m.log := by
  have hstack : d.stack = [] := by
    have hchain := h.chain
    rw [hempty] at hchain
    cases hd : d.stack with
    | nil => rfl
    | cons c rest =>
        rw [hd] at hchain
        cases hchain.1
  have hwaits : ∀ c, d.phase c ≠ .waiting := by
    intro c hc
    rw [← h.stacked.mem_iff, hstack] at hc
    cases hc
  have hheld : ∀ c, c ∉ held m.frames := by
    rw [hframes]
    exact fun c => List.not_mem_nil
  constructor
  · intro c
    rw [← Option.not_isSome_iff_eq_none, (h.nodes c).alloc]
    simp [hwaits c, hheld c]
  · refine h.trace.cleanedUp fun c => ?_
    have hnot := mt (h.nodes c).held.mpr (hheld c)
    have hsettled := (h.nodes c).settled
    cases hphase : d.phase c with
    | unborn => exact Or.inl rfl
    | waiting => exact absurd hphase (hwaits c)
    | popped executed => cases executed <;> simp [hphase] at hnot hsettled
    | called => simp [hphase] at hnot
    | freed executed => exact Or.inr ⟨executed, rfl⟩

/-- **Cleanups run once, in order, also when they nest.**  Whatever the cleanup functions do, as
long as they pop from a stack that is not empty and do not push without end: every step finds its
node allocated, and `do_cleanups` ends, with the stack empty, no node left, and every cleanup that
was on the stack or pushed meanwhile popped from the top, called unless it was popped without, and
freed once. -/
theorem do_cleanups_once_in_order (code : Fn → Arg → σ → CleanupCode σ Fn Arg)
    (m : Cleaning σ Fn Arg) (stack : List ℕ) (hstack : CleanupStack stack m)
    (hpops : ∀ t, Reaches (cleaningStep code) (callDoCleanups m) t → AtPop t →
      t.cleanupStack ≠ none)
    (hpushes : ∃ n, ∀ t, Reaches (cleaningStep code) (callDoCleanups m) t →
      CleanupDuty.pushes t.log ≤ n) :
    (∀ t, Reaches (cleaningStep code) (callDoCleanups m) t → t.frames ≠ [] →
      ∃ u, cleaningStep code t = some u) ∧
    ∃ t, Reaches (cleaningStep code) (callDoCleanups m) t ∧ t.frames = [] ∧
      t.cleanupStack = none ∧ (∀ c, t.heap c = none) ∧ CleanupDuty.CleanedUp stack t.log := by
  obtain ⟨n, hpushes⟩ := hpushes
  have hadvance : ∀ t f frames, OnCourse code (callDoCleanups m) stack t →
      t.frames = f :: frames → Advances code (callDoCleanups m) stack n t f frames :=
    fun _ f _ h hframes => cleaningStep_advances hpops hpushes f h hframes
  have hstart := hstack.onCourse code
  constructor
  · intro t hreach hleft
    have hcourse : OnCourse code (callDoCleanups m) stack t := by
      refine hreach.invariant hstart fun t u _ h hstep => ?_
      cases hframes : t.frames with
      | nil =>
          rw [cleaningStep, hframes] at hstep
          cases hstep
      | cons f frames =>
          obtain ⟨u', above, hdescends⟩ := hadvance t f frames h hframes
          obtain rfl := Option.some.inj (hdescends.step.symm.trans hstep)
          exact hdescends.good
    obtain ⟨f, frames, hframes⟩ := List.exists_cons_of_ne_nil hleft
    obtain ⟨u, above, hdescends⟩ := hadvance t f frames hcourse hframes
    exact ⟨u, hdescends.step⟩
  · obtain ⟨t, hreach, ⟨-, ⟨d, horder⟩, hrooted⟩, hframes, -⟩ :=
      returns_frames within_wellFounded hadvance hstart
    have hempty : t.cleanupStack = none := by
      rcases hrooted with ⟨frames, hsome⟩ | ⟨-, hempty⟩
      · rw [hframes] at hsome
        simp at hsome
      · exact hempty
    obtain ⟨hheap, hclean⟩ := horder.done hframes hempty
    exact ⟨t, hreach, hframes, hempty, hheap, hclean⟩

/-- Two cleanup functions: one returns at once, the other pushes it and pops it without executing
it, pushes it again and panics. -/
def panicCode : Bool → Unit → Unit → CleanupCode Unit Bool Unit
  | false, _, env => .done env
  | true, _, env =>
      .pushCleanup env false () fun env => .popCleanup env 0 fun env =>
        .pushCleanup env false () fun env => .doCleanups env .done

/-- No cleanups. -/
def noCleanups : Cleaning Unit Bool Unit := ⟨fun _ => none, 0, none, (), [], []⟩

/-- At most two pushes so far, and no call that is about to pop from an empty stack. -/
def panicCheck (t : Cleaning Unit Bool Unit) : Bool :=
  decide (CleanupDuty.pushes t.log ≤ 2) &&
    match t.frames with
    | .run rest :: _ =>
        match rest t.env with
        | .popCleanup _ _ _ => t.cleanupStack.isSome
        | _ => true
    | _ => true

theorem do_cleanups_once_in_order_panic :
    ∃ t, Reaches (cleaningStep panicCode)
        (callDoCleanups (pushCleanup (pushCleanup noCleanups false ()) true ())) t ∧
      t.frames = [] ∧ t.cleanupStack = none ∧ (∀ c, t.heap c = none) ∧
      CleanupDuty.CleanedUp [1, 0] t.log := by
  have hempty : CleanupStack [] noCleanups := cleanupStack_nil rfl fun _ => rfl
  have hstack := (hempty.push false ()).push true ()
  have hcheck : ∀ t, Reaches (cleaningStep panicCode)
      (callDoCleanups (pushCleanup (pushCleanup noCleanups false ()) true ())) t →
      panicCheck t = true :=
    fun t h => Reaches.of_checkRun (n := 20) (by decide) h
  refine (do_cleanups_once_in_order panicCode _ [1, 0] hstack ?_ ⟨2, ?_⟩).2
  · rintro t h ⟨rest, frames, env, execute, rest', hframes, hnow⟩
    obtain ⟨-, hfull⟩ := Bool.and_eq_true_iff.mp (hcheck t h)
    rw [hframes] at hfull
    simp only [hnow] at hfull
    exact Option.isSome_iff_ne_none.mp hfull
  · intro t h
    exact of_decide_eq_true (Bool.and_eq_true_iff.mp (hcheck t h)).1

end MachineProblems.Analysis.Adventure
