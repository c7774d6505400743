import Mathlib.Logic.Relation
import Mathlib.Order.WellFounded

/-!
# Machines with a stack of frames

A machine takes one step at a time, and what is left to do is a stack of frames.  Where each step
works on the top frame, and puts frames in its place that are smaller, or lowers a potential that
no step raises, every frame is done after finitely many steps.
-/

set_option autoImplicit false

namespace MachineProblems.Library

variable {σ F : Type}

/-- The configurations that a run comes to. -/
def Reaches (step : σ → Option σ) : σ → σ → Prop :=
  Relation.ReflTransGen fun s t => step s = some t

namespace Reaches

variable {step : σ → Option σ} {s t u : σ}

theorem refl (s : σ) : Reaches step s s := Relation.ReflTransGen.refl

theorem trans (h : Reaches step s t) (h' : Reaches step t u) : Reaches step s u :=
  Relation.ReflTransGen.trans h h'

theorem next (h : Reaches step s t) (hstep : step t = some u) : Reaches step s u :=
  Relation.ReflTransGen.tail h hstep

/-- What every step from the run keeps holds wherever the run comes to. -/
theorem invariant {I : σ → Prop} (hs : I s)
    (hkeep : ∀ t u, Reaches step s t → I t → step t = some u → I u) (h : Reaches step s t) :
    I t := by
  induction h with
  | refl => exact hs
  | tail hreach hstep ih => exact hkeep _ _ hreach ih hstep

/-- The configurations of a run that ends after less than `n` steps are all `ok`. -/
def checkRun (step : σ → Option σ) (ok : σ → Bool) : ℕ → σ → Bool
  | 0, _ => false
  | n + 1, s => ok s && (step s).all (checkRun step ok n)

theorem of_checkRun {ok : σ → Bool} {n : ℕ} (hcheck : checkRun step ok n s = true)
    (h : Reaches step s t) : ok t = true := by
  induction n generalizing s with
  | zero => cases hcheck
  | succ n ih =>
      obtain ⟨hok, hrest⟩ := Bool.and_eq_true_iff.mp hcheck
      rcases Relation.ReflTransGen.cases_head h with rfl | ⟨u, hstep, hreach⟩
      · exact hok
      · rw [hstep] at hrest
        exact ih hrest hreach

end Reaches

section Frames

variable {step : σ → Option σ} {frames : σ → List F} {potential : σ → ℕ}
  {smaller : F → F → Prop} {good : σ → Prop}

/-- The frames above `fs` are done at some time, and the potential has not gone up. -/
def Returns (step : σ → Option σ) (frames : σ → List F) (potential : σ → ℕ) (good : σ → Prop)
    (s : σ) (fs : List F) : Prop :=
  ∃ t, Reaches step s t ∧ good t ∧ frames t = fs ∧ potential t ≤ potential s

/-- A step on the top frame: smaller frames in its place, or a lower potential. -/
structure Descends (step : σ → Option σ) (frames : σ → List F) (potential : σ → ℕ)
    (smaller : F → F → Prop) (good : σ → Prop) (s : σ) (f : F) (fs : List F) (t : σ)
    (gs : List F) : Prop where
  step : step s = some t
  good : good t
  frames : frames t = gs ++ fs
  lower : potential t < potential s ∨ potential t = potential s ∧ ∀ g ∈ gs, smaller g f

/-- The frame is done, and nothing comes in its place. -/
theorem Descends.done {s t : σ} {f : F} {fs : List F} (hstep : step s = some t) (hgood : good t)
    (hframes : frames t = fs) (hsame : potential t = potential s) :
    Descends step frames potential smaller good s f fs t [] where
  step := hstep
  good := hgood
  frames := hframes
  lower := Or.inr ⟨hsame, fun _ hg => absurd hg List.not_mem_nil⟩

theorem Returns.of_reaches {s t : σ} {fs : List F} (h : Reaches step s t)
    (hless : potential t ≤ potential s) (ht : Returns step frames potential good t fs) :
    Returns step frames potential good s fs := by
  obtain ⟨u, htu, hgood, hframes, hle⟩ := ht
  exact ⟨u, h.trans htu, hgood, hframes, hle.trans hless⟩

/-- Frames that are done one by one are done together. -/
theorem returns_all {n : ℕ} {fs : List F} (gs : List F)
    (heach : ∀ g ∈ gs, ∀ s fs, good s → potential s ≤ n → frames s = g :: fs →
      Returns step frames potential good s fs)
    {s : σ} (hs : good s) (hn : potential s ≤ n) (hframes : frames s = gs ++ fs) :
    Returns step frames potential good s fs := by
  induction gs generalizing s with
  | nil => exact ⟨s, Reaches.refl s, hs, hframes, le_refl _⟩
  | cons g gs ih =>
      obtain ⟨t, hst, ht, hrest, hle⟩ := heach g List.mem_cons_self s (gs ++ fs) hs hn hframes
      have hothers := ih (fun g' hg' => heach g' (List.mem_cons_of_mem g hg')) ht
        (hle.trans hn) hrest
      exact hothers.of_reaches hst hle

/-- **The rule of the frames**: where each step descends, every frame is done. -/
theorem returns (hwf : WellFounded smaller)
    (hstep : ∀ s f fs, good s → frames s = f :: fs →
      ∃ t gs, Descends step frames potential smaller good s f fs t gs)
    (n : ℕ) (f : F) (s : σ) (fs : List F) (hs : good s) (hn : potential s ≤ n)
    (hframes : frames s = f :: fs) : Returns step frames potential good s fs := by
  induction n using Nat.strongRecOn generalizing f s fs with
  | _ n ihn =>
      induction f using hwf.induction generalizing s fs with
      | _ f ihf =>
          obtain ⟨t, gs, h⟩ := hstep s f fs hs hframes
          have hst : Reaches step s t := (Reaches.refl s).next h.step
          rcases h.lower with hless | ⟨heq, hsmaller⟩
          · -- all frames are done from a lower potential, whatever they are
            refine Returns.of_reaches hst hless.le ?_
            apply returns_all gs (fun g _ => ihn (potential t) (hless.trans_le hn) g) h.good
              (le_refl _) h.frames
          · refine Returns.of_reaches hst heq.le ?_
            refine returns_all (n := n) gs (fun g hg => ?_) h.good (heq.le.trans hn) h.frames
            intro s fs hs hn hframes
            exact ihf g (hsmaller g hg) s fs hs hn hframes

/-- All the frames of the machine are done. -/
theorem returns_frames (hwf : WellFounded smaller)
    (hstep : ∀ s f fs, good s → frames s = f :: fs →
      ∃ t gs, Descends step frames potential smaller good s f fs t gs)
    {s : σ} (hs : good s) : Returns step frames potential good s [] := by
  apply returns_all (n := potential s) (frames s) (fun g _ => ?_) hs (le_refl _)
    (List.append_nil _).symm
  exact returns hwf hstep (potential s) g

end Frames

end MachineProblems.Library
