import MachineProblems.Program.Adventure.Cleanup
import Mathlib.Data.List.Count

/-!
# What becomes of a cleanup

A stack of cleanups, and what has become of each node: it waits on the stack, it was popped and its
function called or not, and it was freed.  A log of events that the stack accepts tells that every
cleanup is popped from the top, called if it was to be, and freed at the end.
-/

set_option autoImplicit false

namespace MachineProblems.Model

open MachineProblems.Program.Adventure

/-- What has become of a node. -/
inductive Phase where
  | unborn
  | waiting
  | popped (executed : Bool)
  | called
  | freed (executed : Bool)
  deriving DecidableEq

namespace Phase

/-- How often the node was popped to be executed (`true`) or not (`false`). -/
def pops (executed : Bool) : Phase → ℕ
  | unborn => 0
  | waiting => 0
  | popped e => if e = executed then 1 else 0
  | called => if executed then 1 else 0
  | freed e => if e = executed then 1 else 0

/-- How often its function was called. -/
def calls : Phase → ℕ
  | called => 1
  | freed executed => if executed then 1 else 0
  | _ => 0

/-- How often it was freed. -/
def frees : Phase → ℕ
  | freed _ => 1
  | _ => 0

end Phase

/-- The stack, from the top, and the nodes. -/
structure CleanupDuty where
  stack : List ℕ
  phase : ℕ → Phase

namespace CleanupDuty

/-- At the start every node on the stack waits. -/
def start (stack : List ℕ) : CleanupDuty where
  stack := stack
  phase := fun c => if c ∈ stack then .waiting else .unborn

/-- What may happen: a new node is pushed, the top node is popped, a node that was popped to be
executed is called, and a node is freed that was called or need not be. -/
inductive Next (d : CleanupDuty) : NodeEvent → CleanupDuty → Prop
  | push (c : ℕ) : d.phase c = .unborn →
      Next d (.push c) ⟨c :: d.stack, Function.update d.phase c .waiting⟩
  | pop (c : ℕ) (executed : Bool) (rest : List ℕ) : d.stack = c :: rest → d.phase c = .waiting →
      Next d (.pop c executed) ⟨rest, Function.update d.phase c (.popped executed)⟩
  | call (c : ℕ) : d.phase c = .popped true →
      Next d (.call c) ⟨d.stack, Function.update d.phase c .called⟩
  | skip (c : ℕ) : d.phase c = .popped false →
      Next d (.free c) ⟨d.stack, Function.update d.phase c (.freed false)⟩
  | free (c : ℕ) : d.phase c = .called →
      Next d (.free c) ⟨d.stack, Function.update d.phase c (.freed true)⟩

/-- One event after the other. -/
def Trace : CleanupDuty → List NodeEvent → CleanupDuty → Prop
  | d, [], d' => d = d'
  | d, e :: log, d' => ∃ d₁, Next d e d₁ ∧ Trace d₁ log d'

section Trace

variable {d d' : CleanupDuty} {log : List NodeEvent} {stack : List ℕ}

theorem trace_append_iff {log' : List NodeEvent} :
    Trace d (log ++ log') d' ↔ ∃ d₁, Trace d log d₁ ∧ Trace d₁ log' d' := by
  induction log generalizing d with
  | nil =>
      constructor
      · intro h
        exact ⟨d, rfl, h⟩
      · rintro ⟨d₁, rfl, h⟩
        exact h
  | cons e log ih =>
      constructor
      · rintro ⟨d₂, hnext, h⟩
        obtain ⟨d₁, hlog, hlog'⟩ := ih.mp h
        exact ⟨d₁, ⟨d₂, hnext, hlog⟩, hlog'⟩
      · rintro ⟨d₁, ⟨d₂, hnext, hlog⟩, hlog'⟩
        exact ⟨d₂, hnext, ih.mpr ⟨d₁, hlog, hlog'⟩⟩

theorem Trace.next (h : Trace d log d') {e : NodeEvent} {d'' : CleanupDuty}
    (hnext : Next d' e d'') : Trace d (log ++ [e]) d'' :=
  trace_append_iff.mpr ⟨d', h, d'', hnext, rfl⟩

/-- An event of a trace, and the duties it met. -/
theorem Trace.at {before after : List NodeEvent} {e : NodeEvent}
    (h : Trace d (before ++ e :: after) d') :
    ∃ d₁ d₂, Trace d before d₁ ∧ Next d₁ e d₂ := by
  obtain ⟨d₁, hbefore, d₂, hnext, -⟩ := trace_append_iff.mp h
  exact ⟨d₁, d₂, hbefore, hnext⟩

/-- **The rule of the trace**: an invariant of the duties and what has happened so far. -/
theorem Trace.invariant {I : List NodeEvent → CleanupDuty → Prop} (seen : List NodeEvent)
    (hstart : I seen d) (hnext : ∀ seen d e d', I seen d → Next d e d' → I (seen ++ [e]) d')
    (h : Trace d log d') : I (seen ++ log) d' := by
  induction log generalizing d seen with
  | nil =>
      obtain rfl : d = d' := h
      rw [List.append_nil]
      exact hstart
  | cons e log ih =>
      obtain ⟨d₁, he, hrest⟩ := h
      rw [List.append_cons]
      exact ih (seen ++ [e]) (hnext seen d e d₁ hstart he) hrest

/-! ## The nodes on the stack -/

/-- The nodes that wait are those on the stack, each once. -/
structure Stacked (d : CleanupDuty) : Prop where
  nodup : d.stack.Nodup
  mem_iff : ∀ c, c ∈ d.stack ↔ d.phase c = .waiting

theorem stacked_start (h : stack.Nodup) : Stacked (start stack) where
  nodup := h
  mem_iff := by
    intro c
    by_cases hc : c ∈ stack <;> simp [start, hc]

/-- A node that does not wait goes into a phase in which it does not wait either. -/
theorem Stacked.update (h : Stacked d) {c : ℕ} {p : Phase} (hc : d.phase c ≠ .waiting)
    (hp : p ≠ .waiting) : Stacked ⟨d.stack, Function.update d.phase c p⟩ where
  nodup := h.nodup
  mem_iff := by
    intro c'
    show c' ∈ d.stack ↔ Function.update d.phase c p c' = .waiting
    rw [h.mem_iff]
    by_cases heq : c' = c
    · subst heq
      rw [Function.update_self]
      exact iff_of_false hc hp
    · rw [Function.update_of_ne heq]

theorem Stacked.next {e : NodeEvent} (h : Stacked d) (hnext : Next d e d') : Stacked d' := by
  cases hnext with
  | push c hc =>
      have hnot : c ∉ d.stack := by
        rw [h.mem_iff, hc]
        decide
      refine ⟨List.nodup_cons.mpr ⟨hnot, h.nodup⟩, fun c' => ?_⟩
      show c' ∈ c :: d.stack ↔ Function.update d.phase c .waiting c' = .waiting
      rw [List.mem_cons, h.mem_iff]
      by_cases heq : c' = c
      · subst heq
        simp
      · simp [heq]
  | pop c executed rest hrest hc =>
      have hnodup := h.nodup
      rw [hrest] at hnodup
      obtain ⟨hnot, hnodup⟩ := List.nodup_cons.mp hnodup
      refine ⟨hnodup, fun c' => ?_⟩
      show c' ∈ rest ↔ Function.update d.phase c (.popped executed) c' = .waiting
      by_cases heq : c' = c
      · subst heq
        simp [hnot]
      · rw [Function.update_of_ne heq, ← h.mem_iff, hrest, List.mem_cons]
        simp [heq]
  | call c hc => exact h.update (by rw [hc]; decide) (by decide)
  | skip c hc => exact h.update (by rw [hc]; decide) (by decide)
  | free c hc => exact h.update (by rw [hc]; decide) (by decide)

theorem Trace.stacked (h : Trace (start stack) log d) (hstack : stack.Nodup) : Stacked d :=
  h.invariant (I := fun _ d => Stacked d) [] (stacked_start hstack)
    fun _ _ _ _ hd hnext => hd.next hnext

/-! ## The events of a node -/

/-- The events so far are those that the phases tell of. -/
structure Tallied (seen : List NodeEvent) (d : CleanupDuty) : Prop where
  pops : ∀ c executed, seen.count (.pop c executed) = (d.phase c).pops executed
  calls : ∀ c, seen.count (.call c) = (d.phase c).calls
  frees : ∀ c, seen.count (.free c) = (d.phase c).frees

theorem tallied_start (stack : List ℕ) : Tallied [] (start stack) := by
  constructor
  all_goals
    intro c
    by_cases hc : c ∈ stack <;> simp [start, hc, Phase.pops, Phase.calls, Phase.frees]

/-- The node of an event. -/
def node : NodeEvent → ℕ
  | .push c => c
  | .pop c _ => c
  | .call c => c
  | .free c => c

/-- An event counts for its node. -/
theorem count_next {seen : List NodeEvent} {x e : NodeEvent} {p : Phase} (w : Phase → ℕ)
    (hseen : seen.count x = w (d.phase (node x)))
    (hsame : node x = node e → w p = w (d.phase (node e)) + [e].count x) :
    (seen ++ [e]).count x = w (Function.update d.phase (node e) p (node x)) := by
  rw [List.count_append, hseen]
  by_cases hx : node x = node e
  · rw [hx, Function.update_self, hsame hx]
  · have hnot : [e].count x = 0 := by
      rw [List.count_eq_zero, List.mem_singleton]
      rintro rfl
      exact hx rfl
    rw [Function.update_of_ne hx, hnot, Nat.add_zero]

theorem Tallied.update {seen : List NodeEvent} {e : NodeEvent} {p : Phase} {stack : List ℕ}
    (h : Tallied seen d)
    (hpops : ∀ executed, p.pops executed =
      (d.phase (node e)).pops executed + [e].count (.pop (node e) executed))
    (hcalls : p.calls = (d.phase (node e)).calls + [e].count (.call (node e)))
    (hfrees : p.frees = (d.phase (node e)).frees + [e].count (.free (node e))) :
    Tallied (seen ++ [e]) ⟨stack, Function.update d.phase (node e) p⟩ where
  pops := by
    intro c executed
    refine count_next (Phase.pops executed) (h.pops c executed) fun hc => ?_
    rw [show c = node e from hc]
    exact hpops executed
  calls := by
    intro c
    refine count_next Phase.calls (h.calls c) fun hc => ?_
    rw [show c = node e from hc]
    exact hcalls
  frees := by
    intro c
    refine count_next Phase.frees (h.frees c) fun hc => ?_
    rw [show c = node e from hc]
    exact hfrees

theorem Tallied.next {seen : List NodeEvent} {e : NodeEvent} (h : Tallied seen d)
    (hnext : Next d e d') : Tallied (seen ++ [e]) d' := by
  cases hnext with
  | push c hc =>
      apply h.update (e := .push c) <;>
        simp [node, hc, Phase.pops, Phase.calls, Phase.frees]
  | pop c executed rest hrest hc =>
      apply h.update (e := .pop c executed) <;>
        simp [node, hc, Phase.pops, Phase.calls, Phase.frees, List.count_singleton]
  | call c hc =>
      apply h.update (e := .call c) <;>
        simp [node, hc, Phase.pops, Phase.calls, Phase.frees, eq_comm]
  | skip c hc =>
      apply h.update (e := .free c) <;>
        simp [node, hc, Phase.pops, Phase.calls, Phase.frees]
  | free c hc =>
      apply h.update (e := .free c) <;>
        simp [node, hc, Phase.pops, Phase.calls, Phase.frees, eq_comm]

theorem Trace.tallied (h : Trace (start stack) log d) : Tallied log d :=
  h.invariant (I := Tallied) [] (tallied_start stack)
    fun _ _ _ _ hd hnext => hd.next hnext

/-- The nodes that were on the stack or pushed are those that have a phase. -/
theorem Trace.born_iff (h : Trace (start stack) log d) (c : ℕ) :
    c ∈ stack ∨ .push c ∈ log ↔ d.phase c ≠ .unborn := by
  refine h.invariant []
    (I := fun seen d => c ∈ stack ∨ .push c ∈ seen ↔ d.phase c ≠ .unborn) ?_ ?_
  · by_cases hc : c ∈ stack <;> simp [start, hc]
  · intro seen d e d' hd hnext
    rw [List.mem_append, ← or_assoc, hd, List.mem_singleton]
    cases hnext with
    | push c' hc' => by_cases heq : c = c' <;> simp [heq]
    | pop c' executed rest hrest hc' => by_cases heq : c = c' <;> simp [heq, hc']
    | call c' hc' => by_cases heq : c = c' <;> simp [heq, hc']
    | skip c' hc' => by_cases heq : c = c' <;> simp [heq, hc']
    | free c' hc' => by_cases heq : c = c' <;> simp [heq, hc']

/-- What stands on the stack after the events, whatever order they come in. -/
def standing (stack : List ℕ) (log : List NodeEvent) : List ℕ :=
  log.foldl (fun l e =>
    match e with
    | .push c => c :: l
    | .pop c _ => l.erase c
    | .call _ => l
    | .free _ => l) stack

theorem Trace.standing_eq (h : Trace (start stack) log d) : standing stack log = d.stack := by
  refine h.invariant (I := fun seen d => standing stack seen = d.stack) [] rfl ?_
  intro seen d e d' hd hnext
  have happend : standing stack (seen ++ [e]) = standing (standing stack seen) [e] :=
    List.foldl_append
  rw [happend, hd]
  cases hnext with
  | push c hc => rfl
  | pop c executed rest hrest hc =>
      show d.stack.erase c = rest
      rw [hrest, List.erase_cons_head]
  | call c hc => rfl
  | skip c hc => rfl
  | free c hc => rfl

/-- How many cleanups were pushed. -/
def pushes (log : List NodeEvent) : ℕ :=
  log.countP fun e =>
    match e with
    | .push _ => true
    | .pop _ _ => false
    | .call _ => false
    | .free _ => false

/-! ## Everything is done -/

/-- Every cleanup that was on the stack or pushed was popped once, from the top of all that still
stood, called after that if it was to be executed, and freed once at the end. -/
structure CleanedUp (stack : List ℕ) (log : List NodeEvent) : Prop where
  popped : ∀ c, c ∈ stack ∨ .push c ∈ log →
    log.count (.pop c true) + log.count (.pop c false) = 1
  called : ∀ c, log.count (.call c) = log.count (.pop c true)
  freed : ∀ c, c ∈ stack ∨ .push c ∈ log → log.count (.free c) = 1
  top : ∀ before c executed after, log = before ++ .pop c executed :: after →
    (standing stack before).head? = some c
  started : ∀ before c after, log = before ++ .call c :: after → .pop c true ∈ before
  last : ∀ before c after, log = before ++ .free c :: after →
    .call c ∈ before ∨ .pop c false ∈ before

theorem Trace.cleanedUp (h : Trace (start stack) log d)
    (hdone : ∀ c, d.phase c = .unborn ∨ ∃ executed, d.phase c = .freed executed) :
    CleanedUp stack log := by
  have htally := h.tallied
  constructor
  · intro c hc
    obtain ⟨executed, hphase⟩ := (hdone c).resolve_left ((h.born_iff c).mp hc)
    rw [htally.pops, htally.pops, hphase]
    cases executed <;> rfl
  · intro c
    rw [htally.calls, htally.pops]
    rcases hdone c with hphase | ⟨executed, hphase⟩
    · rw [hphase]
      rfl
    · rw [hphase]
      cases executed <;> rfl
  · intro c hc
    obtain ⟨executed, hphase⟩ := (hdone c).resolve_left ((h.born_iff c).mp hc)
    rw [htally.frees, hphase]
    rfl
  · rintro before c executed after rfl
    obtain ⟨d₁, d₂, hbefore, hnext⟩ := h.at
    rw [hbefore.standing_eq]
    cases hnext with
    | pop _ _ rest hrest _ => rw [hrest, List.head?_cons]
  · rintro before c after rfl
    obtain ⟨d₁, d₂, hbefore, hnext⟩ := h.at
    rw [← List.count_pos_iff, hbefore.tallied.pops]
    cases hnext with
    | call _ hc =>
        rw [hc]
        decide
  · rintro before c after rfl
    obtain ⟨d₁, d₂, hbefore, hnext⟩ := h.at
    rw [← List.count_pos_iff, ← List.count_pos_iff, hbefore.tallied.calls,
      hbefore.tallied.pops]
    cases hnext with
    | skip _ hc =>
        rw [hc]
        exact Or.inr (by decide)
    | free _ hc =>
        rw [hc]
        exact Or.inl (by decide)

end Trace

end CleanupDuty

end MachineProblems.Model
