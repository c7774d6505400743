import MachineProblems.Model.Sky
import MachineProblems.Library.Run
import Mathlib.Data.List.Nodup
import Mathlib.Data.List.Perm.Subperm

/-!
# Who was hit by whom

The account of hits in the sky: no missile is hit twice, since a missile that has been hit
burns, and the counter of a burning missile never comes back to zero while it is in the list.
-/

set_option autoImplicit false

namespace MachineProblems.Analysis.Mp1

open MachineProblems.Program.Mp1 MachineProblems.Model MachineProblems.Model.Sky

/-- The missile with the number `i` was added with the character `c`. -/
def OfKind (added : List Missile) (c : Byte) (i : ℕ) : Prop := ∃ f, added[i]? = some f ∧ f.c = c

theorem OfKind.append {added : List Missile} {c : Byte} {i : ℕ} (h : OfKind added c i)
    (more : List Missile) : OfKind (added ++ more) c i := by
  obtain ⟨f, hf, hc⟩ := h
  refine ⟨f, ?_, hc⟩
  rw [List.getElem?_append_left (List.getElem?_eq_some_iff.mp hf).1]
  exact hf

theorem OfKind.lt {added : List Missile} {c : Byte} {i : ℕ} (h : OfKind added c i) :
    i < added.length := by
  obtain ⟨f, hf, -⟩ := h
  exact (List.getElem?_eq_some_iff.mp hf).1

/-- The accounts are in order: the missiles added were `added`, and the score was `first` when
the account of hits was opened. -/
structure Tally (added : List Missile) (first : Word) (s : Sky) : Prop where
  born : s.born = added.length
  ids : (s.fleet.map Flying.id).Nodup
  kinds : ∀ u ∈ s.fleet, OfKind added u.missile.c u.id
  score : s.score = first + BitVec.ofNat 32 s.hits.length
  pairs : ∀ h ∈ s.hits, h.1 ≠ h.2 ∧ OfKind added 42 h.1 ∧ OfKind added 101 h.2
  once : (s.hits.map Prod.snd).Nodup
  unhit : ∀ u ∈ s.fleet, u.missile.exploded = 0 → u.id ∉ s.hits.map Prod.snd
  unreached : ∀ u ∈ s.fleet, u.missile.exploded = 0 → u.id ∉ s.reached
  apart : ∀ h ∈ s.hits, h.2 ∉ s.reached
  past : ∀ i ∈ s.reached, i < s.born

/-! ## Explosions -/

section Strike

variable {f : Missile} {u : Flying}

@[simp] theorem strike_id (f : Missile) (u : Flying) : (strike f u).id = u.id := by
  unfold strike
  split <;> rfl

@[simp] theorem strike_c (f : Missile) (u : Flying) : (strike f u).missile.c = u.missile.c := by
  unfold strike
  split <;> rfl

/-- What it takes to destroy a missile. -/
theorem destroys_kinds {g : Missile} (h : destroys f g = true) :
    f.c = 42 ∧ g.c = 101 ∧ g.exploded = 0 := by
  have hall := of_decide_eq_true h
  exact ⟨hall.2.2.2.2.2.2, hall.2.2.2.2.2.1, hall.2.2.2.2.1⟩

theorem strike_of_destroys (h : destroys f u.missile = true) :
    strike f u = { u with missile := { u.missile with exploded := 50 } } := if_pos h

theorem strike_of_not (h : ¬ destroys f u.missile = true) : strike f u = u := if_neg h

/-- **The missiles struck** are those whose counter the explosion takes from 0 to 50. -/
theorem mem_struck_iff {l : List Flying} : u ∈ struck f l ↔
    u ∈ l ∧ u.missile.exploded = 0 ∧ (strike f u).missile.exploded = 50 := by
  unfold struck
  rw [List.mem_filter]
  constructor
  · rintro ⟨hu, hdestroys⟩
    refine ⟨hu, (destroys_kinds hdestroys).2.2, ?_⟩
    rw [strike_of_destroys hdestroys]
  · rintro ⟨hu, hzero, hfifty⟩
    refine ⟨hu, ?_⟩
    by_contra hnot
    rw [strike_of_not hnot, hzero] at hfifty
    exact absurd hfifty (by decide)

end Strike

section Steps

variable {added : List Missile} {first : Word} {s s' : Sky} {t : Flying}

/-- The accounts do not change, and missiles may go. -/
theorem Tally.of_sublist (h : Tally added first s) (hfleet : s'.fleet.Sublist s.fleet)
    (hborn : s'.born = s.born) (hscore : s'.score = s.score) (hhits : s'.hits = s.hits)
    (hreached : s'.reached = s.reached) : Tally added first s' where
  born := hborn.trans h.born
  ids := h.ids.sublist (hfleet.map _)
  kinds := fun u hu => h.kinds u (hfleet.subset hu)
  score := by
    rw [hscore, hhits]
    exact h.score
  pairs := by
    rw [hhits]
    exact h.pairs
  once := by
    rw [hhits]
    exact h.once
  unhit := by
    rw [hhits]
    exact fun u hu => h.unhit u (hfleet.subset hu)
  unreached := by
    rw [hreached]
    exact fun u hu => h.unreached u (hfleet.subset hu)
  apart := by
    rw [hhits, hreached]
    exact h.apart
  past := by
    rw [hreached, hborn]
    exact h.past

/-- The missile that has its turn changes, but not its number and its character, and its counter
does not come back to zero. -/
theorem Tally.replace (h : Tally added first (s.facing t)) {f : Missile} (hc : f.c = t.missile.c)
    (hcounter : f.exploded = 0 → t.missile.exploded = 0) :
    Tally added first (s.facing { t with missile := f }) := by
  have hmem : ∀ {P : Flying → Prop}, (∀ u ∈ (s.facing t).fleet, P u) →
      P { t with missile := f } → ∀ u ∈ (s.facing { t with missile := f }).fleet, P u := by
    intro P hold hnew u hu
    rcases List.mem_append.mp hu with hu | hu
    · exact hold u (List.mem_append_left _ hu)
    · rcases List.mem_cons.mp hu with rfl | hu
      · exact hnew
      · exact hold u (List.mem_append_right _ (List.mem_cons_of_mem _ hu))
  have hself : t ∈ (s.facing t).fleet := List.mem_append_right _ List.mem_cons_self
  have hids : (s.facing { t with missile := f }).fleet.map Flying.id =
      (s.facing t).fleet.map Flying.id := by simp [fleet, facing]
  refine ⟨h.born, ?_, hmem h.kinds ?_, h.score, h.pairs, h.once, hmem h.unhit ?_,
    hmem h.unreached ?_, h.apart, h.past⟩
  · rw [hids]
    exact h.ids
  · rw [hc]
    exact h.kinds t hself
  · exact fun hzero => h.unhit t hself (hcounter hzero)
  · exact fun hzero => h.unreached t hself (hcounter hzero)

theorem Tally.ids_inj (h : Tally added first s) {u v : Flying} (hu : u ∈ s.fleet)
    (hv : v ∈ s.fleet) (hid : u.id = v.id) : u = v :=
  List.inj_on_of_nodup_map h.ids hu hv hid

/-- The number of the missile that has its turn is no other's. -/
theorem Tally.id_ne (h : Tally added first (s.facing t)) {u : Flying} (hu : u ∈ s.fleet) :
    t.id ≠ u.id := by
  have hids := h.ids
  rw [fleet, facing, List.map_append, List.map_cons, List.nodup_append, List.nodup_cons] at hids
  obtain ⟨-, ⟨htodo, -⟩, hdone⟩ := hids
  rcases List.mem_append.mp hu with hu | hu
  · exact (hdone _ (List.mem_map_of_mem hu) _ List.mem_cons_self).symm
  · intro heq
    exact htodo (heq ▸ List.mem_map_of_mem hu)

theorem mem_blast_fleet {u : Flying} (hu : u ∈ ((s.blast t).facing t).fleet) :
    u = t ∨ ∃ v ∈ s.fleet, u = strike t.missile v := by
  rcases List.mem_append.mp hu with hu | hu
  · obtain ⟨v, hv, rfl⟩ := List.mem_map.mp hu
    exact Or.inr ⟨v, List.mem_append_left _ hv, rfl⟩
  · rcases List.mem_cons.mp hu with rfl | hu
    · exact Or.inl rfl
    · obtain ⟨v, hv, rfl⟩ := List.mem_map.mp hu
      exact Or.inr ⟨v, List.mem_append_right _ hv, rfl⟩

/-- **An explosion** counts every missile that it destroys, and each for the first time. -/
theorem Tally.blast (h : Tally added first (s.facing t)) :
    Tally added first ((s.blast t).facing t) := by
  have hrest : ∀ v ∈ s.fleet, v ∈ (s.facing t).fleet := by
    intro v hv
    rcases List.mem_append.mp hv with hv | hv
    · exact List.mem_append_left _ hv
    · exact List.mem_append_right _ (List.mem_cons_of_mem _ hv)
  have hvictims : ((s.blast t).hits.map Prod.snd) =
      s.hits.map Prod.snd ++ (struck t.missile s.fleet).map Flying.id := by
    simp [Sky.blast, Function.comp_def]
  have hstruck : ∀ v ∈ struck t.missile s.fleet,
      v ∈ s.fleet ∧ destroys t.missile v.missile = true := fun v hv => List.mem_filter.mp hv
  have hself : t ∈ (s.facing t).fleet := List.mem_append_right _ List.mem_cons_self
  have hnew : ∀ v ∈ s.fleet, ¬ destroys t.missile v.missile = true →
      v.id ∉ (struck t.missile s.fleet).map Flying.id := by
    intro v hv hnot hin
    obtain ⟨w, hw, hid⟩ := List.mem_map.mp hin
    obtain ⟨hwfleet, hdestroys⟩ := hstruck w hw
    obtain rfl : w = v := h.ids_inj (hrest w hwfleet) (hrest v hv) hid
    exact hnot hdestroys
  constructor
  case born => exact h.born
  case ids =>
    have hids : ((s.blast t).facing t).fleet.map Flying.id =
        (s.facing t).fleet.map Flying.id := by
      simp [fleet, facing, Sky.blast, Function.comp_def]
    rw [hids]
    exact h.ids
  case kinds =>
    intro u hu
    rcases mem_blast_fleet hu with rfl | ⟨v, hv, rfl⟩
    · exact h.kinds u hself
    · rw [strike_c, strike_id]
      exact h.kinds v (hrest v hv)
  case score =>
    change s.score + BitVec.ofNat 32 (struck t.missile s.fleet).length = _
    have hscore : s.score = first + BitVec.ofNat 32 s.hits.length := h.score
    have hlen : (s.blast t).hits.length = s.hits.length + (struck t.missile s.fleet).length := by
      simp [Sky.blast]
    change _ = first + BitVec.ofNat 32 (s.blast t).hits.length
    rw [hscore, hlen, BitVec.ofNat_add, BitVec.add_assoc]
  case pairs =>
    intro p hp
    rcases List.mem_append.mp hp with hp | hp
    · exact h.pairs p hp
    · obtain ⟨v, hv, rfl⟩ := List.mem_map.mp hp
      obtain ⟨hvfleet, hdestroys⟩ := hstruck v hv
      obtain ⟨hstar, henemy, -⟩ := destroys_kinds hdestroys
      refine ⟨h.id_ne hvfleet, ?_, ?_⟩
      · rw [← hstar]
        exact h.kinds t hself
      · rw [← henemy]
        exact h.kinds v (hrest v hvfleet)
  case once =>
    change ((s.blast t).hits.map Prod.snd).Nodup
    rw [hvictims, List.nodup_append]
    refine ⟨h.once, ?_, ?_⟩
    · have hsub : (struck t.missile s.fleet).Sublist (s.facing t).fleet := by
        refine List.filter_sublist.trans ?_
        exact List.Sublist.append (List.Sublist.refl _) (List.sublist_cons_self _ _)
      exact h.ids.sublist (hsub.map _)
    · rintro i hi j hj rfl
      obtain ⟨v, hv, rfl⟩ := List.mem_map.mp hj
      obtain ⟨hvfleet, hdestroys⟩ := hstruck v hv
      exact h.unhit v (hrest v hvfleet) (destroys_kinds hdestroys).2.2 hi
  case unhit =>
    intro u hu hzero
    change u.id ∉ (s.blast t).hits.map Prod.snd
    rw [hvictims, List.mem_append, not_or]
    rcases mem_blast_fleet hu with rfl | ⟨v, hv, rfl⟩
    · refine ⟨h.unhit u hself hzero, ?_⟩
      intro hin
      obtain ⟨w, hw, hid⟩ := List.mem_map.mp hin
      exact h.id_ne (hstruck w hw).1 hid.symm
    · by_cases hdestroys : destroys t.missile v.missile = true
      · rw [strike_of_destroys hdestroys] at hzero
        cases hzero
      · rw [strike_of_not hdestroys] at hzero ⊢
        exact ⟨h.unhit v (hrest v hv) hzero, hnew v hv hdestroys⟩
  case unreached =>
    intro u hu hzero
    rcases mem_blast_fleet hu with rfl | ⟨v, hv, rfl⟩
    · exact h.unreached u hself hzero
    · by_cases hdestroys : destroys t.missile v.missile = true
      · rw [strike_of_destroys hdestroys] at hzero
        cases hzero
      · rw [strike_of_not hdestroys] at hzero ⊢
        exact h.unreached v (hrest v hv) hzero
  case apart =>
    intro p hp
    rcases List.mem_append.mp hp with hp | hp
    · exact h.apart p hp
    · obtain ⟨v, hv, rfl⟩ := List.mem_map.mp hp
      obtain ⟨hvfleet, hdestroys⟩ := hstruck v hv
      exact h.unreached v (hrest v hvfleet) (destroys_kinds hdestroys).2.2
  case past => exact h.past

/-- The missile has reached its destination: it burns, and was not hit before. -/
theorem Tally.mark (h : Tally added first (s.facing t)) (hzero : t.missile.exploded = 0)
    {f : Missile} (hc : f.c = t.missile.c) (hlit : f.exploded ≠ 0) :
    Tally added first (({ s with reached := s.reached ++ [t.id] } : Sky).facing
      { t with missile := f }) := by
  have hnew := h.replace hc fun h0 => absurd h0 hlit
  have hself : t ∈ (s.facing t).fleet := List.mem_append_right _ List.mem_cons_self
  have hnot := h.unhit t hself hzero
  refine ⟨hnew.born, hnew.ids, hnew.kinds, hnew.score, hnew.pairs, hnew.once, hnew.unhit, ?_, ?_,
    ?_⟩
  · intro u hu hburns
    change u.id ∉ s.reached ++ [t.id]
    rw [List.mem_append, List.mem_singleton, not_or]
    refine ⟨hnew.unreached u hu hburns, ?_⟩
    rcases List.mem_append.mp hu with hu | hu
    · exact (h.id_ne (List.mem_append_left _ hu)).symm
    · rcases List.mem_cons.mp hu with rfl | hu
      · exact absurd hburns hlit
      · exact (h.id_ne (List.mem_append_right _ hu)).symm
  · intro p hp
    change p.2 ∉ s.reached ++ [t.id]
    rw [List.mem_append, List.mem_singleton, not_or]
    refine ⟨h.apart p hp, ?_⟩
    intro heq
    exact hnot (heq ▸ List.mem_map_of_mem hp)
  · intro i hi
    rcases List.mem_append.mp hi with hi | hi
    · exact h.past i hi
    · rw [List.mem_singleton.mp hi]
      have hlt := (h.kinds t hself).lt
      have hborn : s.born = added.length := h.born
      change t.id < s.born
      omega

/-! ## A turn -/

theorem Tally.keep (h : Tally added first (s.facing t)) : Tally added first (s.keep t) := by
  refine h.of_sublist ?_ rfl rfl rfl rfl
  have hsame : (s.keep t).fleet = (s.facing t).fleet := by
    simp only [fleet, facing, Sky.keep, List.append_assoc, List.singleton_append]
  rw [hsame]

theorem Tally.drop (h : Tally added first (s.facing t)) : Tally added first (s.drop t) := by
  refine h.of_sublist ?_ rfl rfl rfl rfl
  have hsame : (s.drop t).fleet = s.fleet := by
    simp only [fleet, Sky.drop, List.append_assoc, List.take_append_drop]
  rw [hsame]
  exact List.Sublist.append (List.Sublist.refl _) (List.sublist_cons_self _ _)

/-- The account of hits does not read the bytes drawn. -/
theorem Tally.poke (h : Tally added first (s.facing t)) (offset : Word) (b : Byte) :
    Tally added first ((s.poke offset b).facing t) :=
  h.of_sublist (List.Sublist.refl _) rfl rfl rfl rfl

/-- **One turn** keeps the accounts in order. -/
theorem Tally.serveMissile (h : Tally added first (s.facing t)) :
    Tally added first (s.serveMissile t) := by
  rw [Sky.serveMissile]
  cases hturn : turn t.missile with
  | burn =>
      have hlit : t.missile.exploded ≠ 0 := by
        intro hzero
        simp only [turn, hzero, ne_eq, not_true_eq_false, if_false] at hturn
        split_ifs at hturn
      change Tally added first (s.burn t)
      unfold burn
      by_cases hone : t.missile.exploded = 1
      · rw [if_pos hone]
        exact h.blast.drop
      · rw [if_neg hone]
        let f : Missile :=
          { t.missile with vx := 0, vy := 0, exploded := t.missile.exploded - 1 }
        refine (h.blast.replace (f := f) rfl ?_).keep
        -- a counter other than 1 does not come to zero
        intro hdown
        have hdown' : t.missile.exploded - 1#32 = 0#32 := hdown
        have hone' : ¬ t.missile.exploded = 1#32 := hone
        exact absurd (by bv_omega) hone'
  | leave => exact h.drop
  | reach =>
      have hzero : t.missile.exploded = 0 := by
        by_contra hlit
        rw [turn, if_pos hlit] at hturn
        cases hturn
      have hblast := (h.poke (drawOffset t.missile) t.missile.c).blast
      have hmark := hblast.mark hzero (f := { t.missile with exploded := 49 }) rfl (by rintro ⟨⟩)
      exact (hmark.poke (drawOffset t.missile) 64).keep
  | fly =>
      have hpokes := ((h.poke (drawOffset t.missile) t.missile.c).poke (drawOffset t.missile)
        32).poke (drawOffset (moved t.missile)) t.missile.c
      exact (hpokes.replace (f := moved t.missile) rfl fun hzero => hzero).keep

theorem Tally.pass (h : Tally added first s) : Tally added first s.pass := by
  rw [Sky.pass]
  cases htodo : s.todo with
  | nil => exact h
  | cons t rest =>
      refine Tally.serveMissile (s := { s with todo := rest }) ?_
      have hsame : ({ s with todo := rest } : Sky).facing t = s := by
        simp only [facing, ← htodo]
      rw [hsame]
      exact h

theorem Tally.passes (h : Tally added first s) (n : ℕ) : Tally added first (Sky.pass^[n] s) := by
  induction n generalizing s with
  | zero => exact h
  | succ n ih =>
      rw [Function.iterate_succ_apply]
      exact ih h.pass

theorem Tally.tick (h : Tally added first s) : Tally added first s.tick := by
  have hstart : Tally added first s.startTick := h.of_sublist (List.Sublist.refl _) rfl rfl rfl rfl
  exact hstart.passes s.fleet.length

/-! ## The commands -/

theorem tally_restart (s : Sky) : Tally [] 0 s.restart where
  born := rfl
  ids := List.nodup_nil
  kinds := by
    intro u hu
    cases hu
  score := rfl
  pairs := by
    intro h hh
    cases hh
  once := List.nodup_nil
  unhit := by
    intro u hu
    cases hu
  unreached := by
    intro u hu
    cases hu
  apart := by
    intro h hh
    cases hh
  past := by
    intro i hi
    cases hi

/-- A new missile gets a number that no account has seen. -/
theorem Tally.launch (h : Tally added first s) (addr : Word) (f : Missile) :
    Tally (added ++ [f]) first (s.launch addr f) := by
  have hfleet : (s.launch addr f).fleet = ⟨s.born, addr, f⟩ :: s.fleet := by
    simp [fleet, Sky.launch]
  have hborn : s.born = added.length := h.born
  have hself : OfKind (added ++ [f]) f.c s.born := by
    refine ⟨f, ?_, rfl⟩
    rw [hborn]
    exact List.getElem?_concat_length
  have hvictim : s.born ∉ s.hits.map Prod.snd := by
    intro hin
    obtain ⟨p, hp, heq⟩ := List.mem_map.mp hin
    have hlt := (h.pairs p hp).2.2.lt
    omega
  have hreached : s.born ∉ s.reached := by
    intro hin
    exact absurd (h.past _ hin) (Nat.lt_irrefl _)
  constructor
  case born =>
    change s.born + 1 = _
    rw [hborn, List.length_append, List.length_singleton]
  case ids =>
    rw [hfleet, List.map_cons, List.nodup_cons]
    refine ⟨?_, h.ids⟩
    intro hin
    obtain ⟨u, hu, hid⟩ := List.mem_map.mp hin
    have hlt := (h.kinds u hu).lt
    have hid' : u.id = s.born := hid
    omega
  case kinds =>
    rw [hfleet]
    intro u hu
    rcases List.mem_cons.mp hu with rfl | hu
    · exact hself
    · exact (h.kinds u hu).append _
  case score => exact h.score
  case pairs =>
    intro p hp
    obtain ⟨hne, hstar, henemy⟩ := h.pairs p hp
    exact ⟨hne, hstar.append _, henemy.append _⟩
  case once => exact h.once
  case unhit =>
    rw [hfleet]
    intro u hu hzero
    rcases List.mem_cons.mp hu with rfl | hu
    · exact hvictim
    · exact h.unhit u hu hzero
  case unreached =>
    rw [hfleet]
    intro u hu hzero
    rcases List.mem_cons.mp hu with rfl | hu
    · exact hreached
    · exact h.unreached u hu hzero
  case apart => exact h.apart
  case past =>
    intro i hi
    have hlt := h.past i hi
    change i < s.born + 1
    omega

theorem Tally.clear (h : Tally added first s) : Tally added first s.clear :=
  h.of_sublist (List.nil_sublist _) rfl rfl rfl rfl

/-- The missiles added by a sequence of calls. -/
def addedBy (rs : List Request) : List Missile :=
  (rs.filter fun r => r.command = .addmissile).map fun r => r.env.userMissile

/-- **Any sequence of calls** other than `mp1_ioctl_startgame` keeps the accounts in order. -/
theorem Tally.after (rs : List Request) : ∀ {added : List Missile} {s : Sky},
    Tally added first s → (∀ r ∈ rs, r.command ≠ .startgame) →
    Tally (added ++ addedBy rs) first (s.after rs) := by
  induction rs with
  | nil =>
      intro added s h _
      rw [addedBy, List.filter_nil, List.map_nil, List.append_nil]
      exact h
  | cons r rs ih =>
      intro added s h hrs
      have hr := hrs r List.mem_cons_self
      have hrest : ∀ r ∈ rs, r.command ≠ .startgame := fun r hr => hrs r (List.mem_cons_of_mem _ hr)
      have hstep : (s.after (r :: rs)) = (s.command r).after rs := rfl
      rw [hstep, Sky.command]
      cases hcommand : r.command with
      | startgame => exact absurd hcommand hr
      | addmissile =>
          have hadded : addedBy (r :: rs) = r.env.userMissile :: addedBy rs := by
            simp [addedBy, hcommand]
          rw [hadded, List.append_cons]
          exact ih (h.launch _ _) hrest
      | movexhairs =>
          have hadded : addedBy (r :: rs) = addedBy rs := by simp [addedBy, hcommand]
          rw [hadded]
          exact ih h hrest
      | getstatus =>
          have hadded : addedBy (r :: rs) = addedBy rs := by simp [addedBy, hcommand]
          rw [hadded]
          exact ih (h.of_sublist (List.Sublist.refl _) rfl rfl rfl rfl) hrest
      | endgame =>
          have hadded : addedBy (r :: rs) = addedBy rs := by simp [addedBy, hcommand]
          rw [hadded]
          exact ih h.clear hrest
      | rtcTasklet =>
          have hadded : addedBy (r :: rs) = addedBy rs := by simp [addedBy, hcommand]
          rw [hadded]
          exact ih h.tick hrest

/-- There are no more hits than missiles of the enemy. -/
theorem Tally.hits_le (h : Tally added first s) :
    s.hits.length ≤ added.countP fun f => f.c == 101 := by
  let enemies := (added.zipIdx.filter fun p => p.1.c == 101).map Prod.snd
  have hsub : s.hits.map Prod.snd ⊆ enemies := by
    intro i hi
    obtain ⟨p, hp, rfl⟩ := List.mem_map.mp hi
    obtain ⟨f, hf, hc⟩ := (h.pairs p hp).2.2
    refine List.mem_map.mpr ⟨(f, p.2), List.mem_filter.mpr ⟨?_, ?_⟩, rfl⟩
    · exact List.mk_mem_zipIdx_iff_getElem?.mpr hf
    · simp [hc]
  have hcount : enemies.length = added.countP fun f => f.c == 101 := by
    rw [List.length_map, ← List.countP_eq_length_filter]
    conv_rhs => rw [← List.zipIdx_map_fst 0 added]
    rw [List.countP_map]
    rfl
  calc s.hits.length = (s.hits.map Prod.snd).length := (List.length_map _).symm
    _ ≤ enemies.length := (h.once.subperm hsub).length_le
    _ = added.countP fun f => f.c == 101 := hcount

end Steps

end MachineProblems.Analysis.Mp1
