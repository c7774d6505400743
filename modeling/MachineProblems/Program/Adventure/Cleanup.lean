import Mathlib.Data.Int.Notation
import Mathlib.Data.Nat.Notation
import Mathlib.Logic.Function.Basic

/-!
# The cleanup stack

`push_cleanup`, `pop_cleanup` and `do_cleanups` of `mp2/assert.c`.  A cleanup function runs on
memory of its own, of type `σ`, and may call the three while it runs; a panic within it does so
through `do_cleanups`.  What is left to do is a stack of frames.  A node is known by the number of
its allocation, which finds memory, and `log` keeps what happened to the nodes.
-/

set_option autoImplicit false

namespace MachineProblems.Program.Adventure

/-- `cleanup_t`. -/
structure Cleanup (Fn Arg : Type) where
  fn : Fn
  arg : Arg
  next : Option ℕ

/-- What a cleanup function does up to its next call, the memory it leaves, and how it goes on. -/
inductive CleanupCode (σ Fn Arg : Type) where
  | done (env : σ)
  | pushCleanup (env : σ) (fn : Fn) (arg : Arg) (rest : σ → CleanupCode σ Fn Arg)
  | popCleanup (env : σ) (execute : ℤ) (rest : σ → CleanupCode σ Fn Arg)
  | doCleanups (env : σ) (rest : σ → CleanupCode σ Fn Arg)

/-- What is left of a call: `do_cleanups` from the test of its loop on, `pop_cleanup` from its
`free (c)` on, or a cleanup function. -/
inductive Frame (σ Fn Arg : Type) where
  | doCleanups
  | free (c : ℕ)
  | run (rest : σ → CleanupCode σ Fn Arg)

/-- What happens to a node. -/
inductive NodeEvent where
  | push (c : ℕ)
  | pop (c : ℕ) (executed : Bool)
  | call (c : ℕ)
  | free (c : ℕ)
  deriving DecidableEq

/-- The nodes that are allocated, the number of allocations, `cleanup_stack`, the memory of the
cleanup functions, what is left to do, and what happened. -/
structure Cleaning (σ Fn Arg : Type) where
  heap : ℕ → Option (Cleanup Fn Arg)
  fresh : ℕ
  cleanupStack : Option ℕ
  env : σ
  frames : List (Frame σ Fn Arg)
  log : List NodeEvent

section Calls

variable {σ Fn Arg : Type} (code : Fn → Arg → σ → CleanupCode σ Fn Arg)

/-- `push_cleanup`. -/
def pushCleanup (m : Cleaning σ Fn Arg) (fn : Fn) (arg : Arg) : Cleaning σ Fn Arg :=
  let c := m.fresh
  { m with
    heap := Function.update m.heap c (some ⟨fn, arg, m.cleanupStack⟩)
    fresh := m.fresh + 1
    cleanupStack := some c
    log := m.log ++ [.push c] }

/-- `pop_cleanup` up to its `free (c)`; an assertion that fails and a node that is not allocated
are faults. -/
def popCleanup (m : Cleaning σ Fn Arg) (execute : ℤ) : Option (Cleaning σ Fn Arg) := do
  let c ← m.cleanupStack
  let node ← m.heap c
  let m := { m with
    cleanupStack := node.next
    log := m.log ++ [NodeEvent.pop c (execute ≠ 0)] }
  if execute ≠ 0 then
    some { m with
      frames := .run (code node.fn node.arg) :: .free c :: m.frames
      log := m.log ++ [NodeEvent.call c] }
  else some { m with frames := .free c :: m.frames }

/-- `free (c)`. -/
def freeCleanup (m : Cleaning σ Fn Arg) (c : ℕ) : Option (Cleaning σ Fn Arg) := do
  let _ ← m.heap c
  some { m with
    heap := Function.update m.heap c none
    log := m.log ++ [.free c] }

/-- One step of what is left to do. -/
def cleaningStep (m : Cleaning σ Fn Arg) : Option (Cleaning σ Fn Arg) :=
  match m.frames with
  | [] => none
  | .doCleanups :: frames =>
      if m.cleanupStack = none then some { m with frames := frames }
      else popCleanup code m 1
  | .free c :: frames => freeCleanup { m with frames := frames } c
  | .run rest :: frames =>
      match rest m.env with
      | .done env => some { m with env := env, frames := frames }
      | .pushCleanup env fn arg rest =>
          some (pushCleanup { m with env := env, frames := .run rest :: frames } fn arg)
      | .popCleanup env execute rest =>
          popCleanup code { m with env := env, frames := .run rest :: frames } execute
      | .doCleanups env rest =>
          some { m with env := env, frames := .doCleanups :: .run rest :: frames }

end Calls

end MachineProblems.Program.Adventure
