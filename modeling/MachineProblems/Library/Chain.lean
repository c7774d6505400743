import Mathlib.Data.List.Nodup
import Mathlib.Data.List.Infix

/-!
# Chains of pointers

`step p` follows the link stored behind the pointer `p`; `none` is a pointer that must not
be followed.  `Seg step a l b` says that following links from `a` passes the pointers
`l` and arrives at `b`.  When `b` itself cannot be followed, `l` is determined by `a` and
has no repetition: a chain to the null pointer is finite and acyclic.
-/

set_option autoImplicit false

namespace MachineProblems.Library

variable {P : Type}

/-- Following links from `a` passes `l` and arrives at `b`. -/
def Seg (step : P → Option P) : P → List P → P → Prop
  | a, [], b => a = b
  | a, x :: l, b => a = x ∧ ∃ c, step x = some c ∧ Seg step c l b

namespace Seg

variable {step step' : P → Option P} {a b : P} {l l' : List P}

@[simp] theorem nil_iff : Seg step a [] b ↔ a = b := Iff.rfl

@[simp] theorem cons_iff {x : P} :
    Seg step a (x :: l) b ↔ a = x ∧ ∃ c, step x = some c ∧ Seg step c l b := Iff.rfl

theorem append_iff : Seg step a (l ++ l') b ↔ ∃ c, Seg step a l c ∧ Seg step c l' b := by
  induction l generalizing a with
  | nil =>
      constructor
      · intro h
        exact ⟨a, rfl, h⟩
      · rintro ⟨c, rfl, h⟩
        exact h
  | cons x l ih =>
      constructor
      · rintro ⟨rfl, c, hc, h⟩
        obtain ⟨d, hl, hl'⟩ := ih.mp h
        exact ⟨d, ⟨rfl, c, hc, hl⟩, hl'⟩
      · rintro ⟨d, ⟨rfl, c, hc, hl⟩, hl'⟩
        exact ⟨rfl, c, hc, ih.mpr ⟨d, hl, hl'⟩⟩

/-- The pointers passed tell where a chain starts. -/
theorem start_eq {a' : P} (h : Seg step a l b) (h' : Seg step' a' l b) : a = a' := by
  cases l with
  | nil => exact Eq.trans h h'.symm
  | cons x l => exact h.1.trans h'.1.symm

/-- Every pointer passed can be followed. -/
theorem isSome (h : Seg step a l b) {x : P} (hx : x ∈ l) : (step x).isSome := by
  induction l generalizing a with
  | nil => cases hx
  | cons y l ih =>
      obtain ⟨-, c, hc, hl⟩ := h
      rcases List.mem_cons.mp hx with rfl | hx
      · simp [hc]
      · exact ih hl hx

/-- Links outside the segment do not matter. -/
theorem congr (hstep : ∀ x ∈ l, step' x = step x) (h : Seg step a l b) : Seg step' a l b := by
  induction l generalizing a with
  | nil => exact h
  | cons y l ih =>
      obtain ⟨rfl, c, hc, hl⟩ := h
      refine ⟨rfl, c, ?_, ih (fun x hx => hstep x (List.mem_cons_of_mem _ hx)) hl⟩
      rw [hstep a List.mem_cons_self, hc]

/-- **Determinism**: the chain to a pointer that cannot be followed is unique. -/
theorem unique (hb : step b = none) (h : Seg step a l b) (h' : Seg step a l' b) : l = l' := by
  induction l generalizing a l' with
  | nil =>
      obtain rfl : a = b := h
      cases l' with
      | nil => rfl
      | cons y l' =>
          obtain ⟨rfl, c, hc, -⟩ := h'
          rw [hb] at hc
          cases hc
  | cons x l ih =>
      obtain ⟨rfl, c, hc, hl⟩ := h
      cases l' with
      | nil =>
          obtain rfl : a = b := h'
          rw [hb] at hc
          cases hc
      | cons y l' =>
          obtain ⟨rfl, d, hd, hl'⟩ := h'
          obtain rfl : c = d := Option.some.inj (hc.symm.trans hd)
          rw [ih hl hl']

/-- **Acyclicity**: a chain to a pointer that cannot be followed has no repetition. -/
theorem nodup (hb : step b = none) (h : Seg step a l b) : l.Nodup := by
  induction l generalizing a with
  | nil => exact List.nodup_nil
  | cons x l ih =>
      obtain ⟨rfl, c, hc, hl⟩ := id h
      refine List.nodup_cons.mpr ⟨fun hmem => ?_, ih hl⟩
      -- a second pass through `a` would start a second, shorter chain
      obtain ⟨l₁, l₂, rfl⟩ := List.append_of_mem hmem
      obtain ⟨d, -, hd⟩ := append_iff.mp hl
      obtain ⟨rfl, -⟩ := id hd
      have hlen := congrArg List.length (unique hb hd h)
      simp only [List.length_cons, List.length_append] at hlen
      omega

/-- **Pushing** a pointer that could not be followed before, redirected to the start. -/
theorem push {x : P} (h : Seg step a l b) (hx : step x = none) (hx' : step' x = some a)
    (hother : ∀ y, y ≠ x → step' y = step y) : Seg step' x (x :: l) b := by
  refine ⟨rfl, a, hx', congr (fun y hy => hother y ?_) h⟩
  rintro rfl
  have hsome := isSome h hy
  rw [hx] at hsome
  cases hsome

/-- **Unlinking** the pointer behind `p`: redirect `p` to where `x` pointed. -/
theorem unlink {p x c : P} {pre post : List P} (hb : step b = none)
    (h : Seg step a (pre ++ p :: x :: post) b) (hc : step x = some c) (hp : step' p = some c)
    (hother : ∀ y, y ≠ p → y ≠ x → step' y = step y) :
    Seg step' a (pre ++ p :: post) b := by
  have hnodup := nodup hb h
  rw [List.nodup_append] at hnodup
  obtain ⟨-, htail, hdisj⟩ := hnodup
  obtain ⟨hpnot, htail'⟩ := List.nodup_cons.mp htail
  obtain ⟨hxnot, -⟩ := List.nodup_cons.mp htail'
  obtain ⟨d, hpre, hrest⟩ := append_iff.mp h
  obtain ⟨rfl, e, he, rfl, f, hf, hpost⟩ := hrest
  obtain rfl : c = f := Option.some.inj (hc.symm.trans hf)
  refine append_iff.mpr ⟨d, ?_, rfl, c, hp, ?_⟩
  · refine congr (fun y hy => hother y ?_ ?_) hpre
    · exact hdisj y hy d List.mem_cons_self
    · exact hdisj y hy e (by simp)
  · refine congr (fun y hy => hother y ?_ ?_) hpost
    · rintro rfl
      exact hpnot (List.mem_cons_of_mem _ hy)
    · rintro rfl
      exact hxnot hy

/-- Dropping the first pointer of a chain. -/
theorem tail {x c : P} {post : List P} (hb : step b = none) (h : Seg step a (x :: post) b)
    (hc : step x = some c) (hother : ∀ y, y ≠ x → step' y = step y) : Seg step' c post b := by
  obtain ⟨hxnot, -⟩ := List.nodup_cons.mp (nodup hb h)
  obtain ⟨rfl, d, hd, hpost⟩ := h
  obtain rfl : c = d := Option.some.inj (hc.symm.trans hd)
  refine congr (fun y hy => hother y ?_) hpost
  rintro rfl
  exact hxnot hy

end Seg

end MachineProblems.Library
