import Mathlib.Data.List.Basic

/-!
# Runs of a partial step function

A component is a step function `step : σ → ι → Option σ`: `none` is a fault (a wild
access, a dereferenced null pointer, a loop that does not stop).  `run step s ops`
feeds it the inputs `ops` one after the other.  Everything said of a component over
time goes through the rules below: what a step keeps, a run keeps (`run_invariant`), and
what a step keeps without faulting, a run keeps without faulting (`run_total`).
`everyStep P s ops` says that `P` holds of every state and input the run comes to;
`run_iff_everyStep` and `everyStep_congr` find the condition on the steps under which a
property survives, and `everyStep_of_invariant` draws it from an invariant.
-/

set_option autoImplicit false

namespace MachineProblems.Library

variable {σ ι : Type}

/-- The state after the inputs `ops`, or `none` as soon as one step faults. -/
def run (step : σ → ι → Option σ) : σ → List ι → Option σ
  | s, [] => some s
  | s, i :: ops => (step s i).bind fun t => run step t ops

@[simp] theorem run_nil (step : σ → ι → Option σ) (s : σ) : run step s [] = some s := rfl

@[simp] theorem run_cons (step : σ → ι → Option σ) (s : σ) (i : ι) (ops : List ι) :
    run step s (i :: ops) = (step s i).bind fun t => run step t ops := rfl

/-- **The invariant rule**: what every step keeps, every run keeps. -/
theorem run_invariant {step : σ → ι → Option σ} {I : σ → Prop}
    (hstep : ∀ s i t, I s → step s i = some t → I t)
    {s t : σ} {ops : List ι} (hs : I s) (hrun : run step s ops = some t) : I t := by
  induction ops generalizing s with
  | nil =>
      obtain rfl := Option.some.inj hrun
      exact hs
  | cons i ops ih =>
      obtain ⟨u, hu, hrest⟩ := Option.bind_eq_some_iff.mp hrun
      exact ih (hstep s i u hs hu) hrest

/-- **The rule of what a run has seen**: an invariant of the inputs taken so far. -/
theorem run_collects {step : σ → ι → Option σ} {I : List ι → σ → Prop}
    (hstep : ∀ seen s i t, I seen s → step s i = some t → I (seen ++ [i]) t)
    {s t : σ} {seen ops : List ι} (hs : I seen s) (hrun : run step s ops = some t) :
    I (seen ++ ops) t := by
  induction ops generalizing s seen with
  | nil =>
      obtain rfl := Option.some.inj hrun
      rw [List.append_nil]
      exact hs
  | cons i ops ih =>
      obtain ⟨u, hu, hrest⟩ := Option.bind_eq_some_iff.mp hrun
      rw [List.append_cons]
      exact ih (hstep seen s i u hs hu) hrest

/-- A loop over a list that may fail is a run. -/
theorem foldlM_eq_run (step : σ → ι → Option σ) (s : σ) (ops : List ι) :
    ops.foldlM step s = run step s ops := by
  induction ops generalizing s with
  | nil => rfl
  | cons i ops ih =>
      rw [List.foldlM_cons, run_cons]
      exact congrArg _ (funext ih)

/-- A step function that faults less often has more runs. -/
theorem run_mono {step step' : σ → ι → Option σ}
    (hstep : ∀ s i t, step s i = some t → step' s i = some t) {s t : σ} {ops : List ι}
    (hrun : run step s ops = some t) : run step' s ops = some t := by
  induction ops generalizing s with
  | nil => exact hrun
  | cons i ops ih =>
      obtain ⟨u, hu, hrest⟩ := Option.bind_eq_some_iff.mp hrun
      rw [run_cons, hstep s i u hu, Option.bind_some]
      exact ih hrest

theorem run_append (step : σ → ι → Option σ) (s : σ) (ops ops' : List ι) :
    run step s (ops ++ ops') = (run step s ops).bind fun t => run step t ops' := by
  simp only [← foldlM_eq_run]
  exact List.foldlM_append

/-- **The progress rule**: where no step from an `I`-state on an admissible input
faults, no run over admissible inputs does, and it ends in an `I`-state. -/
theorem run_total {step : σ → ι → Option σ} {I : σ → Prop} {ok : ι → Prop}
    (hstep : ∀ s i, I s → ok i → ∃ t, step s i = some t ∧ I t)
    {s : σ} {ops : List ι} (hs : I s) (hops : ∀ i ∈ ops, ok i) :
    ∃ t, run step s ops = some t ∧ I t := by
  induction ops generalizing s with
  | nil => exact ⟨s, rfl, hs⟩
  | cons i ops ih =>
      obtain ⟨u, hu, hI⟩ := hstep s i hs (hops i (by simp))
      obtain ⟨t, ht, hIt⟩ := ih hI fun j hj => hops j (by simp [hj])
      exact ⟨t, by simp [hu, ht], hIt⟩

/-- **The progress rule of what a run has seen**: the invariant, and what makes an input admissible,
may depend on the inputs taken so far. -/
theorem run_total_collects {step : σ → ι → Option σ} {I : List ι → σ → Prop}
    {ok : List ι → ι → Prop}
    (hstep : ∀ seen s i, I seen s → ok seen i → ∃ t, step s i = some t ∧ I (seen ++ [i]) t)
    {s : σ} {seen ops : List ι} (hs : I seen s)
    (hops : ∀ before i after, ops = before ++ i :: after → ok (seen ++ before) i) :
    ∃ t, run step s ops = some t ∧ I (seen ++ ops) t := by
  induction ops generalizing s seen with
  | nil => exact ⟨s, rfl, by rwa [List.append_nil]⟩
  | cons i ops ih =>
      have hi := hops [] i ops rfl
      rw [List.append_nil] at hi
      obtain ⟨u, hu, hI⟩ := hstep seen s i hs hi
      obtain ⟨t, ht, hIt⟩ := ih hI fun before j after hsplit => by
        have hj := hops (i :: before) j after (by rw [hsplit]; rfl)
        rwa [List.append_cons] at hj
      refine ⟨t, by simp [hu, ht], ?_⟩
      rwa [List.append_cons]

/-- **The goal rule**: where every `I`-state outside of the goal has an admissible step that leads
to an `I`-state of smaller measure, a run over admissible inputs reaches the goal. -/
theorem run_reaches {step : σ → ι → Option σ} {I Q : σ → Prop} {ok : ι → Prop} (μ : σ → ℕ)
    (hstep : ∀ s, I s → ¬ Q s → ∃ i t, ok i ∧ step s i = some t ∧ I t ∧ μ t < μ s)
    {s : σ} (hs : I s) :
    ∃ ops t, (∀ i ∈ ops, ok i) ∧ run step s ops = some t ∧ Q t := by
  induction hn : μ s using Nat.strongRecOn generalizing s with
  | _ n ih =>
      by_cases hQ : Q s
      · exact ⟨[], s, fun i hi => absurd hi List.not_mem_nil, rfl, hQ⟩
      · obtain ⟨i, u, hi, hu, hI, hless⟩ := hstep s hs hQ
        obtain ⟨ops, t, hops, hrun, ht⟩ := ih (μ u) (hn ▸ hless) hI rfl
        refine ⟨i :: ops, t, List.forall_mem_cons.mpr ⟨hi, hops⟩, ?_, ht⟩
        rw [run_cons, hu, Option.bind_some, hrun]

/-- **The rule of the used-up measure**: where no admissible step raises the measure before the goal
is reached, where each helpful one lowers it, and where the goal is kept, a run with more helpful
steps than the measure allows has come to the goal. -/
theorem run_exhausts {step : σ → ι → Option σ} {I Q : σ → Prop} {ok : ι → Prop} {helps : ι → Bool}
    (μ : σ → ℕ) (hstep : ∀ s i t, I s → ok i → step s i = some t → I t)
    (hkeep : ∀ s i t, I s → ok i → Q s → step s i = some t → Q t)
    (hless : ∀ s i t, I s → ok i → ¬ Q s → step s i = some t →
      Q t ∨ μ t + (if helps i then 1 else 0) ≤ μ s)
    {s t : σ} {ops : List ι} (hs : I s) (hops : ∀ i ∈ ops, ok i) (hrun : run step s ops = some t)
    (hmany : μ s < ops.countP helps) : Q t := by
  -- `c` counts the helpful steps taken before
  have hend : ∀ (ops : List ι) (c : ℕ) (u : σ), I u → (Q u ∨ μ u + c ≤ μ s) →
      (∀ i ∈ ops, ok i) → run step u ops = some t → Q t ∨ μ t + (c + ops.countP helps) ≤ μ s := by
    intro ops
    induction ops with
    | nil =>
        intro c u _ hc _ hut
        obtain rfl := Option.some.inj hut
        simpa using hc
    | cons i ops ih =>
        intro c u hu hc hops hut
        rw [List.forall_mem_cons] at hops
        obtain ⟨v, hv, hrest⟩ := Option.bind_eq_some_iff.mp hut
        have hcount : (i :: ops).countP helps =
            (if helps i then 1 else 0) + ops.countP helps := by
          rw [List.countP_cons, Nat.add_comm]
        rw [hcount, ← Nat.add_assoc c]
        apply ih _ v (hstep u i v hu hops.1 hv) _ hops.2 hrest
        by_cases hQ : Q u
        · exact Or.inl (hkeep u i v hu hops.1 hQ hv)
        · have hlow := hc.resolve_left hQ
          exact (hless u i v hu hops.1 hQ hv).imp_right fun h => by omega
  exact (hend ops 0 s hs (Or.inr (Nat.le_refl _)) hops hrun).resolve_right fun h => by omega

/-! ## Conditions on the steps of a run -/

/-- `P` holds of every state of the run together with the input it takes there. -/
def everyStep (step : σ → ι → Option σ) (P : σ → ι → Prop) : σ → List ι → Prop
  | _, [] => True
  | s, i :: ops => P s i ∧ ∀ t, step s i = some t → everyStep step P t ops

/-- A run whose next state is known. -/
theorem everyStep_cons {step : σ → ι → Option σ} {P : σ → ι → Prop} {s t : σ} {i : ι}
    {ops : List ι} (hi : P s i) (hstep : step s i = some t) (hops : everyStep step P t ops) :
    everyStep step P s (i :: ops) := by
  refine ⟨hi, fun u hu => ?_⟩
  obtain rfl : t = u := Option.some.inj (hstep.symm.trans hu)
  exact hops

theorem everyStep_imp {step : σ → ι → Option σ} {P Q : σ → ι → Prop}
    (hPQ : ∀ s i, P s i → Q s i) {s : σ} {ops : List ι} (hops : everyStep step P s ops) :
    everyStep step Q s ops := by
  induction ops generalizing s with
  | nil => trivial
  | cons i ops ih => exact ⟨hPQ s i hops.1, fun t ht => ih (hops.2 t ht)⟩

/-- What an invariant implies holds at every step of a run over admissible inputs. -/
theorem everyStep_of_invariant {step : σ → ι → Option σ} {I : σ → Prop} {A : ι → Prop}
    {P : σ → ι → Prop} (hstep : ∀ s i t, I s → A i → step s i = some t → I t)
    (hP : ∀ s i, I s → A i → P s i) {s : σ} {ops : List ι} (hs : I s) (hops : ∀ i ∈ ops, A i) :
    everyStep step P s ops := by
  induction ops generalizing s with
  | nil => trivial
  | cons i ops ih =>
      have hi := hops i List.mem_cons_self
      refine ⟨hP s i hs hi, fun t ht => ?_⟩
      exact ih (hstep s i t hs hi ht) fun j hj => hops j (List.mem_cons_of_mem _ hj)

/-- **The invariant rule under a condition**: what every step keeps that meets the condition, a run
keeps that meets it at every step. -/
theorem run_of_everyStep {step : σ → ι → Option σ} {I : σ → Prop} {P : σ → ι → Prop}
    (hstep : ∀ s i t, I s → P s i → step s i = some t → I t) {s t : σ} {ops : List ι} (hs : I s)
    (hops : everyStep step P s ops) (hrun : run step s ops = some t) : I t := by
  induction ops generalizing s with
  | nil =>
      obtain rfl := Option.some.inj hrun
      exact hs
  | cons i ops ih =>
      obtain ⟨u, hu, hrest⟩ := Option.bind_eq_some_iff.mp hrun
      exact ih (hstep s i u hs hops.1 hu) (hops.2 u hu) hrest

/-- **The progress rule with a clock**: the invariant may speak of the number of steps taken,
and the condition on an input may depend on the state that takes it. -/
theorem run_total_clocked {step : σ → ι → Option σ} {I : ℕ → σ → Prop} {P : σ → ι → Prop} {n : ℕ}
    (hstep : ∀ k s i, k < n → I k s → P s i → ∃ t, step s i = some t ∧ I (k + 1) t)
    {k : ℕ} {s : σ} {ops : List ι} (hs : I k s) (hops : everyStep step P s ops)
    (hn : k + ops.length ≤ n) : ∃ t, run step s ops = some t ∧ I (k + ops.length) t := by
  induction ops generalizing k s with
  | nil => exact ⟨s, rfl, hs⟩
  | cons i ops ih =>
      rw [List.length_cons] at hn ⊢
      obtain ⟨u, hu, hI⟩ := hstep k s i (by omega) hs hops.1
      obtain ⟨t, ht, hIt⟩ := ih hI (hops.2 u hu) (by omega)
      refine ⟨t, by simp [hu, ht], ?_⟩
      rw [show k + (ops.length + 1) = k + 1 + ops.length by omega]
      exact hIt

/-- The same rule for the runs that come to their end. -/
theorem run_clocked {step : σ → ι → Option σ} {I : ℕ → σ → Prop} {P : σ → ι → Prop} {n : ℕ}
    (hstep : ∀ k s i t, k < n → I k s → P s i → step s i = some t → I (k + 1) t)
    {k : ℕ} {s t : σ} {ops : List ι} (hs : I k s) (hops : everyStep step P s ops)
    (hrun : run step s ops = some t) (hn : k + ops.length ≤ n) : I (k + ops.length) t := by
  induction ops generalizing k s with
  | nil =>
      obtain rfl := Option.some.inj hrun
      exact hs
  | cons i ops ih =>
      rw [List.length_cons] at hn ⊢
      obtain ⟨u, hu, hrest⟩ := Option.bind_eq_some_iff.mp hrun
      have hnext := ih (hstep k s i u (by omega) hs hops.1 hu) (hops.2 u hu) hrest (by omega)
      rw [show k + (ops.length + 1) = k + 1 + ops.length by omega]
      exact hnext

/-- One more step at the end of a run. -/
theorem everyStep_concat {step : σ → ι → Option σ} {P : σ → ι → Prop} {s t : σ} {i : ι}
    {ops : List ι} (hops : everyStep step P s ops) (hrun : run step s ops = some t)
    (hi : P t i) : everyStep step P s (ops ++ [i]) := by
  induction ops generalizing s with
  | nil =>
      obtain rfl := Option.some.inj hrun
      exact ⟨hi, fun _ _ => trivial⟩
  | cons j ops ih =>
      obtain ⟨u, hu, hrest⟩ := Option.bind_eq_some_iff.mp hrun
      refine ⟨hops.1, fun u' hu' => ?_⟩
      obtain rfl := Option.some.inj (hu.symm.trans hu')
      exact ih (hops.2 u hu) hrest

/-- What holds at every step holds at the last one. -/
theorem everyStep_last {step : σ → ι → Option σ} {P : σ → ι → Prop} {s t : σ} {i : ι}
    {ops : List ι} (hops : everyStep step P s (ops ++ [i])) (hrun : run step s ops = some t) :
    P t i := by
  induction ops generalizing s with
  | nil =>
      obtain rfl := Option.some.inj hrun
      exact hops.1
  | cons j ops ih =>
      obtain ⟨u, hu, hrest⟩ := Option.bind_eq_some_iff.mp hrun
      exact ih (hops.2 u hu) hrest

/-- Conditions that agree on the states of an invariant agree along a run; the invariant need
last only as long as they hold. -/
theorem everyStep_congr {step : σ → ι → Option σ} {I : σ → Prop} {P Q : σ → ι → Prop}
    (hstep : ∀ s i t, I s → Q s i → step s i = some t → I t)
    (hPQ : ∀ s i, I s → (P s i ↔ Q s i)) {s : σ} {ops : List ι} (hs : I s) :
    everyStep step P s ops ↔ everyStep step Q s ops := by
  induction ops generalizing s with
  | nil => exact Iff.rfl
  | cons i ops ih =>
      unfold everyStep
      rw [hPQ s i hs]
      refine and_congr_right fun hQ => forall_congr' fun t => ?_
      exact imp_congr_right fun ht => ih (hstep s i t hs hQ ht)

/-- **The rule for a property that is never regained**: when a step from a `Q`-state
ends in a `Q`-state exactly if `P`, and no step leads back to `Q`, a run ends in a
`Q`-state exactly if `P` held at every step. -/
theorem run_iff_everyStep {step : σ → ι → Option σ} {I Q : σ → Prop} {P : σ → ι → Prop}
    (hstep : ∀ s i t, I s → step s i = some t → I t)
    (hiff : ∀ s i t, I s → Q s → step s i = some t → (Q t ↔ P s i))
    (hlost : ∀ s i t, I s → ¬ Q s → step s i = some t → ¬ Q t)
    {s t : σ} {ops : List ι} (hs : I s) (hQ : Q s) (hrun : run step s ops = some t) :
    Q t ↔ everyStep step P s ops := by
  induction ops generalizing s with
  | nil =>
      obtain rfl := Option.some.inj hrun
      exact ⟨fun _ => trivial, fun _ => hQ⟩
  | cons i ops ih =>
      obtain ⟨u, hu, hrest⟩ := Option.bind_eq_some_iff.mp hrun
      have hIu := hstep s i u hs hu
      by_cases hQu : Q u
      · have hP := (hiff s i u hs hQ hu).mp hQu
        rw [ih hIu hQu hrest]
        constructor
        · intro h
          refine ⟨hP, fun u' hu' => ?_⟩
          obtain rfl := Option.some.inj (hu.symm.trans hu')
          exact h
        · intro h
          exact h.2 u hu
      · -- once lost, the property stays lost to the end of the run
        let Lost : σ → Prop := fun s => I s ∧ ¬ Q s
        have hkeep : ∀ s i t, Lost s → step s i = some t → Lost t :=
          fun s i t h hst => ⟨hstep s i t h.1 hst, hlost s i t h.1 h.2 hst⟩
        have hend : Lost t := run_invariant hkeep ⟨hIu, hQu⟩ hrest
        refine ⟨fun h => absurd h hend.2, fun h => ?_⟩
        exact absurd ((hiff s i u hs hQ hu).mpr h.1) hQu

/-! ## Runs seen through a function -/

section View

variable {τ : Type} {step : σ → ι → Option σ} {step' : τ → ι → Option τ} {view : σ → τ}
  {I : σ → Prop}

/-- **The simulation rule**: where `view` takes every step to a step, it takes every run to a
run. -/
theorem run_view (hI : ∀ s i t, I s → step s i = some t → I t)
    (hview : ∀ s i, I s → (step s i).map view = step' (view s) i) {s : σ} (hs : I s)
    (ops : List ι) : (run step s ops).map view = run step' (view s) ops := by
  induction ops generalizing s with
  | nil => rfl
  | cons i ops ih =>
      rw [run_cons, run_cons, ← hview s i hs]
      cases hu : step s i with
      | none => rfl
      | some u => exact ih (hI s i u hs hu)

/-- What holds at every step of the one run holds at every step of the other. -/
theorem everyStep_view {P : τ → ι → Prop} (hI : ∀ s i t, I s → step s i = some t → I t)
    (hview : ∀ s i, I s → (step s i).map view = step' (view s) i) {s : σ} (hs : I s)
    (ops : List ι) :
    everyStep step (fun s i => P (view s) i) s ops ↔ everyStep step' P (view s) ops := by
  induction ops generalizing s with
  | nil => exact Iff.rfl
  | cons i ops ih =>
      refine and_congr_right fun _ => ?_
      constructor
      · intro h v hv
        rw [← hview s i hs] at hv
        obtain ⟨u, hu, rfl⟩ := Option.map_eq_some_iff.mp hv
        exact (ih (hI s i u hs hu)).mp (h u hu)
      · intro h u hu
        refine (ih (hI s i u hs hu)).mpr (h (view u) ?_)
        rw [← hview s i hs, hu, Option.map_some]

end View

/-! ## Steps that never fault -/

/-- Where a step from an `I`-state ends in an `I`-state exactly for the inputs that are `ok`, a run
stays in `I`-states exactly if all its inputs are. -/
theorem foldl_prefixes_iff {step : σ → ι → σ} {I : σ → Prop} {ok : ι → Prop}
    (hstep : ∀ s i, I s → (I (step s i) ↔ ok i)) {s : σ} (hs : I s) (ops : List ι) :
    (∀ before, before <+: ops → I (before.foldl step s)) ↔ ∀ i ∈ ops, ok i := by
  induction ops generalizing s with
  | nil =>
      refine iff_of_true (fun before h => ?_) fun i hi => absurd hi List.not_mem_nil
      rw [List.prefix_nil.mp h]
      exact hs
  | cons i ops ih =>
      rw [List.forall_mem_cons]
      constructor
      · intro h
        have hi : I (step s i) := h [i] (List.prefix_append [i] ops)
        refine ⟨(hstep s i hs).mp hi, (ih hi).mp fun before hbefore => ?_⟩
        exact h (i :: before) (List.cons_prefix_cons.mpr ⟨rfl, hbefore⟩)
      · rintro ⟨hok, hrest⟩ before hbefore
        cases before with
        | nil => exact hs
        | cons j before =>
            obtain ⟨rfl, htail⟩ := List.cons_prefix_cons.mp hbefore
            exact (ih ((hstep s j hs).mpr hok)).mpr hrest before htail

end MachineProblems.Library
