import MachineProblems.Library.Ring
import Mathlib.Data.List.Basic

/-!
# Bounded queues with their history

A `Fifo` is known by the elements it has accepted and those that were removed from it; what is
accepted and not yet removed is its queue, and the bound on the queue's length is a field.  `offer`
accepts what there is room for and `remove` takes the oldest elements.  A ring represents a queue if
it holds its elements; `fill` is then `offer` and `drain` is `remove`.
-/

set_option autoImplicit false

namespace MachineProblems.Library

/-- A queue of at most `bound` elements, with all that went through it. -/
structure Fifo (α : Type) (bound : ℕ) where
  accepted : List α
  removed : List α
  taken : removed <+: accepted
  bounded : accepted.length ≤ removed.length + bound

namespace Fifo

variable {α : Type} {bound : ℕ}

/-- The queue that nothing has gone through. -/
def empty : Fifo α bound := ⟨[], [], List.prefix_refl [], Nat.zero_le _⟩

/-- The elements accepted and not yet removed, oldest first. -/
def queue (f : Fifo α bound) : List α := f.accepted.drop f.removed.length

/-- **First in, first out**: what was removed is the first part of what was accepted. -/
theorem removed_append_queue (f : Fifo α bound) : f.removed ++ f.queue = f.accepted := by
  obtain ⟨rest, hrest⟩ := f.taken
  rw [queue, ← hrest, List.drop_left]

theorem length_queue (f : Fifo α bound) : f.queue.length + f.removed.length = f.accepted.length := by
  have hlen := congrArg List.length f.removed_append_queue
  rw [List.length_append] at hlen
  omega

theorem length_queue_le (f : Fifo α bound) : f.queue.length ≤ bound := by
  have hlen := f.length_queue
  have hbound := f.bounded
  omega

/-- Accept the elements that there is room for. -/
def offer (f : Fifo α bound) (xs : List α) : Fifo α bound where
  accepted := f.accepted ++ xs.take (bound - f.queue.length)
  removed := f.removed
  taken := f.taken.trans (List.prefix_append _ _)
  bounded := by
    have hlen := f.length_queue
    have hle := f.length_queue_le
    have htake := List.length_take_le (bound - f.queue.length) xs
    rw [List.length_append]
    omega

/-- Remove the oldest elements, at most `n` of them. -/
def remove (f : Fifo α bound) (n : ℕ) : Fifo α bound where
  accepted := f.accepted
  removed := f.removed ++ f.queue.take n
  taken := by
    have hprefix : f.removed ++ f.queue.take n <+: f.removed ++ f.queue :=
      (List.prefix_append_right_inj _).mpr (List.take_prefix n f.queue)
    rwa [f.removed_append_queue] at hprefix
  bounded := by
    have hbound := f.bounded
    rw [List.length_append]
    omega

@[simp] theorem queue_empty : (empty : Fifo α bound).queue = [] := rfl

@[simp] theorem queue_offer (f : Fifo α bound) (xs : List α) :
    (f.offer xs).queue = f.queue ++ xs.take (bound - f.queue.length) := by
  have hlen := f.length_queue
  show (f.accepted ++ _).drop f.removed.length = f.accepted.drop f.removed.length ++ _
  exact List.drop_append_of_le_length (by omega)

@[simp] theorem queue_remove (f : Fifo α bound) (n : ℕ) :
    (f.remove n).queue = f.queue.drop n := by
  show f.accepted.drop (f.removed ++ f.queue.take n).length = f.queue.drop n
  rw [List.length_append, ← List.drop_drop, List.length_take]
  show f.queue.drop (min n f.queue.length) = f.queue.drop n
  rcases Nat.le_total n f.queue.length with hle | hle
  · rw [Nat.min_eq_left hle]
  · rw [Nat.min_eq_right hle, List.drop_length, List.drop_eq_nil_of_le hle]

end Fifo

namespace Ring

variable {α : Type} {cap : ℕ} {r : Ring α cap} {f : Fifo α (cap - 1)}

/-- The ring holds the elements of the queue. -/
def Represents (r : Ring α cap) (f : Fifo α (cap - 1)) : Prop := r.contents = f.queue

theorem Represents.used (h : r.Represents f) : r.used = f.queue.length := by
  rw [← length_contents, h]

theorem Represents.room (h : r.Represents f) : r.room = cap - 1 - f.queue.length := by
  have hused := h.used
  unfold Ring.room
  omega

/-- **Filling the ring** offers the elements to the queue. -/
theorem Represents.fill (h : r.Represents f) (xs : List α) :
    (r.fill xs).1.Represents (f.offer xs) := by
  rw [Represents, contents_fill, h, h.room, Fifo.queue_offer]

/-- **Draining the ring** removes the elements from the queue. -/
theorem Represents.drain (h : r.Represents f) (n : ℕ) :
    (r.drain n).2.Represents (f.remove n) := by
  rw [Represents, contents_drain, h, Fifo.queue_remove]

end Ring

end MachineProblems.Library
