import MachineProblems.Analysis.Mp1.Skies

/-!
# Notifications

The user is notified of an explosion exactly if it has casualties, so a tick notifies exactly
if it changes the score or a base: a score that counts no missile twice does not come round, and
a base that is dead stays dead.
-/

set_option autoImplicit false

namespace MachineProblems.Analysis.Mp1

open MachineProblems.Library MachineProblems.Program.Mp1 MachineProblems.Model
open MachineProblems.Model.Sky

/-! ## Casualties -/

section Casualties

variable {f : Missile} {bases : Fin 3 → Byte}

/-- An explosion touches no base but to kill it. -/
theorem bombed_or (f : Missile) (bases : Fin 3 → Byte) (i : Fin 3) :
    (bombed f bases).2 i = bases i ∨ (bombed f bases).2 i = 0 := by
  unfold bombed
  cases targetBase f with
  | none => exact Or.inl rfl
  | some j =>
      by_cases hij : i = j
      · subst hij
        exact Or.inr (by simp)
      · exact Or.inl (by simp [hij])

theorem bombed_eq_zero (h : (bombed f bases).1 = 0) : (bombed f bases).2 = bases := by
  unfold bombed at h ⊢
  cases htarget : targetBase f with
  | none => rfl
  | some i =>
      rw [htarget] at h
      have hdead : bases i = 0 := by
        by_contra hne
        have hcounted : (if bases i ≠ 0 then 1 else 0) = 0 := h
        rw [if_pos hne] at hcounted
        cases hcounted
      change Function.update bases i 0 = bases
      rw [← hdead, Function.update_eq_self]

theorem bombed_ne_zero (h : (bombed f bases).1 ≠ 0) :
    ∃ i, bases i ≠ 0 ∧ (bombed f bases).2 i = 0 := by
  unfold bombed at h ⊢
  cases htarget : targetBase f with
  | none =>
      rw [htarget] at h
      exact absurd rfl h
  | some i =>
      rw [htarget] at h
      refine ⟨i, ?_, Function.update_self i 0 bases⟩
      intro hdead
      simp [hdead] at h

end Casualties

/-! ## The account of notifications -/

/-- Since the sky `s₀`, in which nobody was hit, the notifications agree with what has changed. -/
structure Told (s₀ s : Sky) : Prop where
  bases : ∀ i, s.bases i = s₀.bases i ∨ s.bases i = 0
  le : s₀.notified ≤ s.notified
  told : s₀.notified < s.notified ↔ s.hits ≠ [] ∨ s.bases ≠ s₀.bases

section Steps

variable {s₀ s s' : Sky} {t : Flying}

/-- Steps that hit nobody. -/
theorem Told.of_eq (h : Told s₀ s) (hbases : s'.bases = s.bases) (hhits : s'.hits = s.hits)
    (hnotified : s'.notified = s.notified) : Told s₀ s' where
  bases := by
    rw [hbases]
    exact h.bases
  le := by
    rw [hnotified]
    exact h.le
  told := by
    rw [hbases, hhits, hnotified]
    exact h.told

/-- **An explosion** is told exactly if it has casualties. -/
theorem Told.blast (h : Told s₀ s) : Told s₀ (s.blast t) := by
  have hbases : ∀ i, (s.blast t).bases i = s₀.bases i ∨ (s.blast t).bases i = 0 := by
    intro i
    rcases bombed_or t.missile s.bases i with hsame | hdead
    · change (bombed t.missile s.bases).2 i = _ ∨ (bombed t.missile s.bases).2 i = 0
      rw [hsame]
      exact h.bases i
    · exact Or.inr hdead
  have hhits : (s.blast t).hits =
      s.hits ++ (struck t.missile s.fleet).map fun u => (t.id, u.id) := rfl
  have hafter : (s.blast t).bases = (bombed t.missile s.bases).2 := rfl
  by_cases hnone : s.casualties t.missile = 0
  · have hnotified : (s.blast t).notified = s.notified := if_pos hnone
    obtain ⟨hbombed, hstruck⟩ := Nat.add_eq_zero_iff.mp hnone
    have hsame : (s.blast t).hits = s.hits := by
      rw [hhits, List.length_eq_zero_iff.mp hstruck, List.map_nil, List.append_nil]
    exact h.of_eq (bombed_eq_zero hbombed) hsame hnotified
  · have hnotified : (s.blast t).notified = s.notified + 1 := if_neg hnone
    have hle := h.le
    refine ⟨hbases, by omega, iff_of_true (by omega) ?_⟩
    by_cases hstruck : struck t.missile s.fleet = []
    · have hbombed : (bombed t.missile s.bases).1 ≠ 0 := by
        intro hzero
        refine hnone ?_
        rw [casualties, hzero, hstruck]
        rfl
      obtain ⟨i, halive, hdead⟩ := bombed_ne_zero hbombed
      refine Or.inr fun hsame => ?_
      rcases h.bases i with hfirst | hzero
      · refine halive ?_
        rw [hfirst, ← hsame, hafter, hdead]
      · exact halive hzero
    · refine Or.inl ?_
      rw [hhits]
      simp [hstruck]

theorem Told.serveMissile (h : Told s₀ s) : Told s₀ (s.serveMissile t) := by
  rw [Sky.serveMissile]
  cases turn t.missile with
  | burn =>
      change Told s₀ (s.burn t)
      unfold burn
      split
      · exact h.blast.of_eq rfl rfl rfl
      · exact h.blast.of_eq rfl rfl rfl
  | leave => exact h.of_eq rfl rfl rfl
  | reach =>
      have hpoke : Told s₀ (s.poke (drawOffset t.missile) t.missile.c) := h.of_eq rfl rfl rfl
      exact hpoke.blast.of_eq rfl rfl rfl
  | fly => exact h.of_eq rfl rfl rfl

theorem Told.pass (h : Told s₀ s) : Told s₀ s.pass := by
  rw [Sky.pass]
  cases s.todo with
  | nil => exact h
  | cons t rest =>
      refine Told.serveMissile ?_
      exact h.of_eq rfl rfl rfl

theorem Told.passes (h : Told s₀ s) (n : ℕ) : Told s₀ (Sky.pass^[n] s) := by
  induction n generalizing s with
  | zero => exact h
  | succ n ih =>
      rw [Function.iterate_succ_apply]
      exact ih h.pass

end Steps

/-- **A tick** notifies exactly if it hits somebody or kills a base. -/
theorem told_tick {s : Sky} (hhits : s.hits = []) : Told s s.tick := by
  have hstart : Told s s.startTick := by
    refine ⟨fun i => Or.inl rfl, le_rfl, iff_of_false (lt_irrefl _) ?_⟩
    rintro (hne | hne)
    · exact hne hhits
    · exact hne rfl
  exact hstart.passes s.fleet.length

/-! ## The machine -/

/-- A count below `2 ^ 32` that is added to the score changes it. -/
theorem score_changed {score : Word} {n : ℕ} (hn : n < 2 ^ 32) :
    score + BitVec.ofNat 32 n ≠ score ↔ n ≠ 0 := by
  rw [not_iff_not]
  constructor
  · intro hsame
    have hnat := congrArg BitVec.toNat hsame
    have hlt := score.isLt
    rw [BitVec.toNat_add, BitVec.toNat_ofNat] at hnat
    omega
  · rintro rfl
    exact BitVec.add_zero score

/-- The counter of a missile other than `p` has changed. -/
def OtherLit (p : Word) (mem mem' : Memory) : Prop :=
  ∃ a f f', a ≠ p ∧ mem.missileAt a = some f ∧ mem'.missileAt a = some f' ∧
    f'.exploded ≠ f.exploded

theorem Serving.otherLit_struck {mem mem' : Memory} {s : Sky} {t : Flying} (h : Serving mem s t)
    (h' : Serving mem' (s.blast t) { t with missile := lit t.missile })
    (houtside : Outside mem mem' ((s.done ++ t :: s.todo).map Flying.addr))
    (hlit : OtherLit t.addr mem mem') : struck t.missile s.fleet ≠ [] := by
  obtain ⟨a, f, f', hne, hf, hf', hchanged⟩ := hlit
  intro hnone
  by_cases hin : a ∈ (s.done ++ t :: s.todo).map Flying.addr
  · obtain ⟨u, hu, rfl⟩ := List.mem_map.mp hin
    have hother : u ∈ s.fleet := by
      rcases List.mem_append.mp hu with hu | hu
      · exact List.mem_append_left _ hu
      · rcases List.mem_cons.mp hu with rfl | hu
        · exact absurd rfl hne
        · exact List.mem_append_right _ hu
    have hspared : strike t.missile u = u := by
      refine strike_of_not fun hdestroys => ?_
      have hstruck : u ∈ struck t.missile s.fleet := List.mem_filter.mpr ⟨hother, hdestroys⟩
      rw [hnone] at hstruck
      cases hstruck
    have hu' : u ∈ ((s.blast t).facing { t with missile := lit t.missile }).fleet := by
      rcases List.mem_append.mp hother with hd | hd
      · exact List.mem_append_left _ (List.mem_map.mpr ⟨u, hd, hspared⟩)
      · exact List.mem_append_right _ (List.mem_cons_of_mem _ (List.mem_map.mpr ⟨u, hd, hspared⟩))
    obtain ⟨w, hw⟩ := h.holds.kept u hu
    obtain ⟨w', hw'⟩ := h'.holds.kept u hu'
    rw [hf] at hw
    rw [hf'] at hw'
    obtain rfl := Option.some.inj hw
    obtain rfl := Option.some.inj hw'
    exact hchanged rfl
  · have hsame : mem'.missileAt a = mem.missileAt a := by
      unfold Memory.missileAt
      rw [houtside.heap a hin]
    rw [hf, hf'] at hsame
    obtain rfl := Option.some.inj hsame
    exact hchanged rfl

/-- **`missile_explode`** returns zero exactly if it changes no base, not the score and the
counter of no missile but its own. -/
theorem missileExplode_reports {fuel : ℕ} {m : Machine} {l : List Word} (hl : Listed m.mem l)
    (hfuel : l.length < fuel) {p : Word} (hp : p ∈ l) (args : List Word) :
    ∃ v mem', missileExplode fuel (p :: args) m = some (v, { m with mem := mem' }) ∧
      (v ≠ 0 ↔ mem'.baseAlive ≠ m.mem.baseAlive ∨ mem'.score ≠ m.mem.score ∨
        OtherLit p m.mem mem') := by
  obtain ⟨g, s, added, hat, haddrs, -⟩ := exists_sky hl
  rw [← haddrs] at hp
  obtain ⟨t, ht, rfl⟩ := List.mem_map.mp hp
  obtain ⟨d, e, hsplit⟩ := List.append_of_mem ht
  let s₁ : Sky := { s with done := d, todo := e }
  have hserving : Serving m.mem s₁ t := by
    refine ⟨?_, hat.bases, hat.score⟩
    change Holds m.mem (d ++ t :: e)
    rw [← hsplit]
    exact hat.holds
  have hlen : (s₁.done ++ t :: s₁.todo).length < fuel := by
    change (d ++ t :: e).length < fuel
    rw [← hsplit, ← List.length_map, haddrs]
    exact hfuel
  obtain ⟨mem', hrun, hserving', houtside⟩ := missileExplode_blast args hserving hlen
  refine ⟨_, mem', hrun, ?_⟩
  have hreturned : BitVec.ofNat 32 (s₁.casualties t.missile) ≠ 0#32 ↔
      s₁.casualties t.missile ≠ 0 := not_congr (hserving.returned_eq_zero t.missile)
  have hstruck : (struck t.missile s₁.fleet).length < 2 ^ 32 := by
    have hle : (struck t.missile s₁.fleet).length ≤ s₁.casualties t.missile := Nat.le_add_left _ _
    have hlt := hserving.casualties_lt t.missile
    omega
  have hscore : mem'.score =
      m.mem.score + BitVec.ofNat 32 (struck t.missile s₁.fleet).length := by
    rw [hserving'.score, hserving.score]
    rfl
  have hbases : mem'.baseAlive = (bombed t.missile m.mem.baseAlive).2 := by
    rw [hserving'.bases, hserving.bases]
    rfl
  rw [hscore, hbases, score_changed hstruck]
  refine hreturned.trans ?_
  rw [casualties, ← hserving.bases]
  constructor
  · intro hsome
    by_cases hbombed : (bombed t.missile m.mem.baseAlive).1 = 0
    · rw [hbombed, Nat.zero_add] at hsome
      exact Or.inr (Or.inl hsome)
    · obtain ⟨i, halive, hdead⟩ := bombed_ne_zero hbombed
      refine Or.inl fun hsame => halive ?_
      rw [← hsame, hdead]
  · rintro (hchanged | hhit | hlit)
    · intro hzero
      exact hchanged (bombed_eq_zero (Nat.add_eq_zero_iff.mp hzero).1)
    · omega
    · have hne := hserving.otherLit_struck hserving' houtside hlit
      have hpos := List.length_pos_iff.mpr hne
      omega

/-- **`update_missiles`** notifies exactly if it changes the score or a base. -/
theorem updateMissiles_notifies {fuel : ℕ} {m : Machine} {l : List Word} (hl : Listed m.mem l)
    (hfuel : l.length < fuel) : ∃ m', call (updateMissiles fuel) m = some m' ∧
      (m.notified < m'.notified ↔
        m'.mem.score ≠ m.mem.score ∨ m'.mem.baseAlive ≠ m.mem.baseAlive) := by
  obtain ⟨g, s, added, hat, haddrs, -, hhits, htally, hadded⟩ := exists_sky hl
  have hlen : s.fleet.length < fuel := by
    rw [← haddrs, List.length_map] at hfuel
    exact hfuel
  obtain ⟨m', hrun, hat', -⟩ := updateMissiles_tick hat hlen
  have htold := told_tick hhits
  have hcount := htally.tick
  have hfew : s.tick.hits.length < 2 ^ 32 := by
    have hle := hcount.hits_le.trans List.countP_le_length
    have hlt := hl.length_lt
    omega
  refine ⟨m', hrun, ?_⟩
  rw [hat'.notified, hat.notified, htold.told, hat'.bases, hat.bases, hat'.score, hcount.score,
    score_changed hfew]
  simp [List.length_eq_zero_iff]

/-- **The player is told of every change**, by every tick and by every explosion in it. -/
theorem changes_notified {fuel : ℕ} {m : Machine} {l : List Word} (hl : Listed m.mem l)
    (hfuel : l.length < fuel) :
    (∃ m', call (updateMissiles fuel) m = some m' ∧
      (m.notified < m'.notified ↔
        m'.mem.score ≠ m.mem.score ∨ m'.mem.baseAlive ≠ m.mem.baseAlive)) ∧
    ∀ p ∈ l, ∀ args, ∃ v mem',
      missileExplode fuel (p :: args) m = some (v, { m with mem := mem' }) ∧
      (v ≠ 0 ↔ mem'.baseAlive ≠ m.mem.baseAlive ∨ mem'.score ≠ m.mem.score ∨
        OtherLit p m.mem mem') :=
  ⟨updateMissiles_notifies hl hfuel, fun _ hp args => missileExplode_reports hl hfuel hp args⟩

/-- A driver with one missile of the enemy, at address 64 in row 24. -/
def oneEnemy : Machine := { idle with mem := { idle.mem with
  heap := Function.update idle.mem.heap 64
    (some (.missile ⟨0, 0x140000, 0x180000, 0, 0, 20, 24, 0, 101⟩))
  missileList := 64
  baseAlive := fun _ => 1 } }

theorem changes_notified_oneEnemy :
    (∃ m', call (updateMissiles 2) oneEnemy = some m' ∧
      (oneEnemy.notified < m'.notified ↔
        m'.mem.score ≠ oneEnemy.mem.score ∨ m'.mem.baseAlive ≠ oneEnemy.mem.baseAlive)) ∧
    ∀ p ∈ [(64 : Word)], ∀ args, ∃ v mem',
      missileExplode 2 (p :: args) oneEnemy = some (v, { oneEnemy with mem := mem' }) ∧
      (v ≠ 0 ↔ mem'.baseAlive ≠ oneEnemy.mem.baseAlive ∨ mem'.score ≠ oneEnemy.mem.score ∨
        OtherLit p oneEnemy.mem mem') := by
  have hl : Listed oneEnemy.mem [64] := ⟨⟨rfl, 0, rfl, rfl⟩, rfl⟩
  exact changes_notified hl (by decide)

end MachineProblems.Analysis.Mp1
