import Mathlib.Data.List.Basic
import Mathlib.Logic.Function.Basic

/-!
# Lists of effects

A device is driven by effects on its state, one after the other.  `drive` runs a list of them;
what each of them keeps, the list keeps, and so does every part of the list that has run when
somebody looks (`drive_invariant`, `drive_interrupted`).  A loop of effects has the rule of a
counting loop (`drive_range`, `drive_flatMap_range`).  A bank of registers is a function that
is updated from a table of keys and values (`bank`).
-/

set_option autoImplicit false

namespace MachineProblems.Library

variable {σ α : Type}

/-- The effects of a list, one after the other. -/
def drive (effects : List (σ → σ)) (s : σ) : σ := effects.foldl (fun s effect => effect s) s

@[simp] theorem drive_nil (s : σ) : drive [] s = s := rfl

@[simp] theorem drive_cons (effect : σ → σ) (effects : List (σ → σ)) (s : σ) :
    drive (effect :: effects) s = drive effects (effect s) := rfl

theorem drive_append (effects effects' : List (σ → σ)) (s : σ) :
    drive (effects ++ effects') s = drive effects' (drive effects s) :=
  List.foldl_append

/-- **The invariant rule**: what every effect keeps, the list keeps. -/
theorem drive_invariant {I : σ → Prop} {effects : List (σ → σ)} {s : σ} (hs : I s)
    (hkeep : ∀ effect ∈ effects, ∀ s, I s → I (effect s)) : I (drive effects s) := by
  induction effects generalizing s with
  | nil => exact hs
  | cons effect effects ih =>
      rw [List.forall_mem_cons] at hkeep
      exact ih (hkeep.1 s hs) hkeep.2

/-- **The rule of interruption**: what every effect keeps holds whenever the list is interrupted. -/
theorem drive_interrupted {I : σ → Prop} {effects before : List (σ → σ)} {s : σ} (hs : I s)
    (hkeep : ∀ effect ∈ effects, ∀ s, I s → I (effect s)) (hbefore : before <+: effects) :
    I (drive before s) :=
  drive_invariant hs fun effect heffect => hkeep effect (hbefore.subset heffect)

/-- An interruption of two lists is in the first one, or behind it in the second one. -/
theorem prefix_append_cases {before effects effects' : List α}
    (h : before <+: effects ++ effects') :
    before <+: effects ∨ ∃ rest, before = effects ++ rest ∧ rest <+: effects' := by
  by_cases hle : before.length ≤ effects.length
  · exact Or.inl (List.prefix_of_prefix_length_le h (List.prefix_append effects effects') hle)
  · have hpre := List.prefix_of_prefix_length_le (List.prefix_append effects effects') h (by omega)
    obtain ⟨rest, rfl⟩ := hpre
    exact Or.inr ⟨rest, rfl, (List.prefix_append_right_inj effects).mp h⟩

/-- **The rule of a bracket**: what the opening establishes and the middle keeps holds wherever the
list is interrupted between its opening and its closing. -/
theorem drive_bracket {I : σ → Prop} {opening middle closing before : List (σ → σ)} {s : σ}
    (hopening : I (drive opening s)) (hkeep : ∀ effect ∈ middle, ∀ s, I s → I (effect s))
    (hbefore : before <+: opening ++ middle ++ closing) (hfirst : opening.length ≤ before.length)
    (hlast : before.length ≤ opening.length + middle.length) : I (drive before s) := by
  rw [← List.length_append] at hlast
  have hinside : before <+: opening ++ middle :=
    List.prefix_of_prefix_length_le hbefore (List.prefix_append (opening ++ middle) closing) hlast
  rcases prefix_append_cases hinside with hshort | ⟨rest, rfl, hrest⟩
  · rw [List.IsPrefix.eq_of_length_le hshort hfirst]
    exact hopening
  · rw [drive_append]
    exact drive_interrupted hopening hkeep hrest

/-- **The loop rule**: an invariant indexed by the effects done. -/
theorem drive_range {I : ℕ → σ → Prop} {effect : ℕ → σ → σ} {s : σ} {n : ℕ} (h0 : I 0 s)
    (hstep : ∀ k t, k < n → I k t → I (k + 1) (effect k t)) :
    I n (drive ((List.range n).map effect) s) := by
  induction n with
  | zero => exact h0
  | succ n ih =>
      rw [List.range_succ, List.map_append, drive_append]
      exact hstep n _ (by omega) (ih fun k t hk => hstep k t (by omega))

/-- The loop rule, where a round is a list of effects. -/
theorem drive_flatMap_range {I : ℕ → σ → Prop} {effects : ℕ → List (σ → σ)} {s : σ} {n : ℕ}
    (h0 : I 0 s) (hstep : ∀ k t, k < n → I k t → I (k + 1) (drive (effects k) t)) :
    I n (drive ((List.range n).flatMap effects) s) := by
  induction n with
  | zero => exact h0
  | succ n ih =>
      rw [List.range_succ, List.flatMap_append, drive_append, List.flatMap_singleton]
      exact hstep n _ (by omega) (ih fun k t hk => hstep k t (by omega))

/-! ## Banks of registers -/

section Bank

variable {κ ν : Type} [DecidableEq κ]

/-- The registers after the writes of a table. -/
def bank (f : κ → ν) (table : List (κ × ν)) : κ → ν :=
  table.foldl (fun f entry => Function.update f entry.1 entry.2) f

@[simp] theorem bank_nil (f : κ → ν) : bank f [] = f := rfl

@[simp] theorem bank_cons (f : κ → ν) (entry : κ × ν) (table : List (κ × ν)) :
    bank f (entry :: table) = bank (Function.update f entry.1 entry.2) table := rfl

theorem bank_append (f : κ → ν) (table table' : List (κ × ν)) :
    bank f (table ++ table') = bank (bank f table) table' :=
  List.foldl_append

/-- A register that is not in the table keeps its value. -/
theorem bank_of_notMem {f : κ → ν} {table : List (κ × ν)} {k : κ}
    (h : k ∉ table.map Prod.fst) : bank f table k = f k := by
  induction table generalizing f with
  | nil => rfl
  | cons entry table ih =>
      rw [List.map_cons, List.mem_cons, not_or] at h
      rw [bank_cons, ih h.2, Function.update_of_ne h.1]

/-- A register that is in the table once gets its value from it. -/
theorem bank_of_mem {f : κ → ν} {table : List (κ × ν)} (hnodup : (table.map Prod.fst).Nodup)
    {k : κ} {x : ν} (h : (k, x) ∈ table) : bank f table k = x := by
  induction table generalizing f with
  | nil => exact absurd h List.not_mem_nil
  | cons entry table ih =>
      rw [List.map_cons, List.nodup_cons] at hnodup
      rcases List.mem_cons.mp h with rfl | hrest
      · rw [bank_cons, bank_of_notMem hnodup.1, Function.update_self]
      · exact ih hnodup.2 hrest

end Bank

end MachineProblems.Library
