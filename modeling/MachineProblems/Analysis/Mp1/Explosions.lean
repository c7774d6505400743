import MachineProblems.Analysis.Mp1.Links
import MachineProblems.Model.Sky
import Mathlib.Algebra.Group.Nat.Defs
import Mathlib.Data.Fintype.Card

/-!
# Explosions

`missile_explode` walks the list of missiles in the memory and does to each what the explosion
does to it in the sky; the number that it returns is that of the casualties.
-/

set_option autoImplicit false

namespace MachineProblems.Analysis.Mp1

open MachineProblems.Library MachineProblems.Program.Mp1 MachineProblems.Model
open MachineProblems.Model.Sky

/-- The block at the missile's address holds its fields, with some link. -/
def Kept (mem : Memory) (u : Flying) : Prop :=
  ∃ w, mem.missileAt u.addr = some { u.missile with next := w }

/-- The list in the memory is the fleet. -/
structure Holds (mem : Memory) (fleet : List Flying) : Prop where
  listed : Listed mem (fleet.map Flying.addr)
  kept : ∀ u ∈ fleet, Kept mem u

/-- What code that leaves the list alone may change: fields of the missiles of the fleet. -/
structure Outside (mem mem' : Memory) (addrs : List Word) : Prop where
  shape : shape mem' = shape mem
  heap : ∀ a, a ∉ addrs → mem'.heap a = mem.heap a

theorem Outside.refl (mem : Memory) (addrs : List Word) : Outside mem mem addrs :=
  ⟨rfl, fun _ _ => rfl⟩

theorem Outside.trans {mem₁ mem₂ mem₃ : Memory} {addrs : List Word} (h : Outside mem₁ mem₂ addrs)
    (h' : Outside mem₂ mem₃ addrs) : Outside mem₁ mem₃ addrs where
  shape := h'.shape.trans h.shape
  heap := fun a ha => (h'.heap a ha).trans (h.heap a ha)

theorem Outside.mono {mem mem' : Memory} {addrs more : List Word} (h : Outside mem mem' addrs)
    (hsub : ∀ a ∈ addrs, a ∈ more) : Outside mem mem' more where
  shape := h.shape
  heap := fun a ha => h.heap a fun hin => ha (hsub a hin)

theorem Kept.of_heap {mem mem' : Memory} {u : Flying} (h : Kept mem u)
    (hheap : mem'.heap u.addr = mem.heap u.addr) : Kept mem' u := by
  unfold Kept Memory.missileAt
  rw [hheap]
  exact h

/-! ## The loop -/

/-- The missile at `p`, of fields `f`, destroys the missile `u`. -/
def hit (p : Word) (f : Missile) (u : Flying) : Bool := decide (u.addr ≠ p) && destroys f u.missile

/-- A missile after the walk. -/
def struckAt (p : Word) (f : Missile) (u : Flying) : Flying :=
  if hit p f u then { u with missile := { u.missile with exploded := 50 } } else u

theorem missileExplodeLoop_hits {p : Word} {f : Missile} (l : List Flying) :
    ∀ {fuel : ℕ} {i n : Word} {mem : Memory}, l.length < fuel →
      Seg (links mem) i (l.map Flying.addr) 0 → links mem 0 = none →
      (∃ w, mem.missileAt p = some { f with next := w }) → (∀ u ∈ l, Kept mem u) →
      ∃ mem', missileExplodeLoop p fuel i (n, mem) =
          some (n + BitVec.ofNat 32 (l.filter (hit p f)).length, mem') ∧
        Outside mem mem' (l.map Flying.addr) ∧ (∀ u ∈ l, Kept mem' (struckAt p f u)) ∧
        mem'.baseAlive = mem.baseAlive ∧
        mem'.score = mem.score + BitVec.ofNat 32 (l.filter (hit p f)).length := by
  induction l with
  | nil =>
      intro fuel i n mem hfuel hchain _ _ _
      obtain rfl : i = 0 := hchain
      obtain ⟨k, rfl⟩ : ∃ k, fuel = k + 1 := ⟨fuel - 1, by rw [List.length_nil] at hfuel; omega⟩
      refine ⟨mem, ?_, Outside.refl _ _, ?_, rfl, ?_⟩
      · simp [missileExplodeLoop]
      · intro u hu
        cases hu
      · simp
  | cons u l ih =>
      intro fuel i n mem hfuel hchain hnull hp hkept
      obtain ⟨k, rfl⟩ : ∃ k, fuel = k + 1 := ⟨fuel - 1, by rw [List.length_cons] at hfuel; omega⟩
      have hnodup := hchain.nodup hnull
      rw [List.map_cons, List.nodup_cons] at hnodup
      obtain ⟨hfresh, -⟩ := hnodup
      obtain ⟨rfl, c, hc, hrest⟩ := hchain
      obtain ⟨w, hu⟩ := hkept u List.mem_cons_self
      obtain ⟨v, hv⟩ := hp
      obtain rfl : w = c := by simpa [links, hu] using hc
      have hi : u.addr ≠ 0 := by
        intro hzero
        rw [← hzero, hc] at hnull
        cases hnull
      have hlen : l.length < k := by
        rw [List.length_cons] at hfuel
        omega
      have hlater : ∀ x ∈ l, x.addr ≠ u.addr := by
        intro x hx heq
        exact hfresh (heq ▸ List.mem_map_of_mem hx)
      have htest : (decide (u.addr ≠ p) &&
          destroys { f with next := v } { u.missile with next := w }) = hit p f u := rfl
      cases hhit : hit p f u with
      | false =>
          obtain ⟨mem', hrun, houtside, hkept', hbases, hscore⟩ := ih (n := n) hlen hrest hnull
            ⟨v, hv⟩ fun x hx => hkept x (List.mem_cons_of_mem _ hx)
          refine ⟨mem', ?_, houtside.mono ?_, ?_, hbases, ?_⟩
          · simp only [missileExplodeLoop, hi, if_false, hu, hv, Option.bind_eq_bind,
              Option.bind_some, htest, hhit, Bool.false_eq_true]
            rw [List.filter_cons_of_neg (by simp [hhit])]
            exact hrun
          · exact fun a ha => List.mem_cons_of_mem _ ha
          · intro x hx
            rcases List.mem_cons.mp hx with rfl | hx
            · have hsame : struckAt p f x = x := by simp [struckAt, hhit]
              rw [hsame]
              exact Kept.of_heap ⟨w, hu⟩ (houtside.heap _ hfresh)
            · exact hkept' x hx
          · rw [List.filter_cons_of_neg (by simp [hhit]), hscore]
      | true =>
          -- a hit stores `exploded` and counts
          let mem₁ : Memory :=
            { mem.setBlock u.addr (some (.missile { u.missile with next := w, exploded := 50 })) with
              score := mem.score + 1 }
          have hshape : shape mem₁ = shape mem := shape_setBlock hu rfl
          have hlinks : links mem₁ = links mem := congrArg Shape.links hshape
          have hp₁ : ∃ w, mem₁.missileAt p = some { f with next := w } := by
            refine ⟨v, ?_⟩
            have hne : p ≠ u.addr := by
              rintro rfl
              simp [hit] at hhit
            exact (missileAt_setBlock_ne _ hne).trans hv
          have hkept₁ : ∀ x ∈ l, Kept mem₁ x := by
            intro x hx
            obtain ⟨y, hy⟩ := hkept x (List.mem_cons_of_mem _ hx)
            exact ⟨y, (missileAt_setBlock_ne _ (hlater x hx)).trans hy⟩
          have hrest₁ : Seg (links mem₁) w (l.map Flying.addr) 0 := by
            rw [hlinks]
            exact hrest
          have hnull₁ : links mem₁ 0 = none := by
            rw [hlinks]
            exact hnull
          obtain ⟨mem', hrun, houtside, hkept', hbases, hscore⟩ :=
            ih (n := n + 1) hlen hrest₁ hnull₁ hp₁ hkept₁
          have hcount : ∀ x : Word, x + 1 + BitVec.ofNat 32 (l.filter (hit p f)).length =
              x + BitVec.ofNat 32 ((u :: l).filter (hit p f)).length := by
            intro x
            rw [List.filter_cons_of_pos hhit, List.length_cons, BitVec.add_assoc, Nat.add_comm,
              BitVec.ofNat_add]
            rfl
          refine ⟨mem', ?_, ?_, ?_, hbases, ?_⟩
          · simp only [missileExplodeLoop, hi, if_false, hu, hv, Option.bind_eq_bind,
              Option.bind_some, htest, hhit, if_true]
            rw [← hcount]
            exact hrun
          · refine Outside.trans ⟨hshape, ?_⟩
              (houtside.mono fun a ha => List.mem_cons_of_mem _ ha)
            intro a ha
            have hne : a ≠ u.addr := fun heq => ha (heq ▸ List.mem_cons_self)
            simp [mem₁, hne]
          · intro x hx
            rcases List.mem_cons.mp hx with rfl | hx
            · have hstruck : struckAt p f x =
                  { x with missile := { x.missile with exploded := 50 } } := by
                simp [struckAt, hhit]
              rw [hstruck]
              have hself : Kept mem₁ { x with missile := { x.missile with exploded := 50 } } :=
                ⟨w, missileAt_setBlock_self _ _ _⟩
              exact hself.of_heap (houtside.heap _ hfresh)
            · exact hkept' x hx
          · rw [hscore, ← hcount]

/-! ## missile_explode -/

/-- The missile `t` has its turn, and `s` is the sky without it. -/
structure Serving (mem : Memory) (s : Sky) (t : Flying) : Prop where
  holds : Holds mem (s.done ++ t :: s.todo)
  bases : mem.baseAlive = s.bases
  score : mem.score = s.score

/-- The missile that explodes: its counter is set unless it runs. -/
def lit (f : Missile) : Missile := if f.exploded = 0 then { f with exploded := 50 } else f

@[simp] theorem strike_addr (f : Missile) (u : Flying) : (strike f u).addr = u.addr := by
  unfold strike
  split <;> rfl

theorem destroys_lit (f : Missile) : destroys (lit f) = destroys f := by
  funext u
  unfold lit
  split <;> rfl

theorem explodeBase_eq (x y : ℤ) (mem : Memory) : explodeBase x y mem =
    match baseAt x y with
    | some i => killBase i mem
    | none => (0, mem) := by
  unfold explodeBase baseAt
  split_ifs <;> rfl

/-- The bases of the memory after an explosion of `f`. -/
theorem explodeBase_bombed (f : Missile) (mem : Memory) :
    (if f.c = 101 then explodeBase (cell f.x) (cell f.y) mem else (0, mem)) =
      (BitVec.ofNat 32 (bombed f mem.baseAlive).1,
        { mem with baseAlive := (bombed f mem.baseAlive).2 }) := by
  unfold bombed targetBase
  by_cases hc : f.c = 101
  · rw [if_pos hc, if_pos hc, explodeBase_eq]
    cases baseAt (cell f.x) (cell f.y) with
    | none => rfl
    | some i =>
        dsimp only [killBase]
        by_cases hi : mem.baseAlive i ≠ 0
        · rw [if_pos hi, if_pos hi]
          rfl
        · rw [if_neg hi, if_neg hi]
          rfl
  · rw [if_neg hc, if_neg hc]
    rfl

section Blast

variable {mem : Memory} {s : Sky} {t : Flying}

/-- No other missile lies in the block of the one that has its turn. -/
theorem Serving.addr_ne (h : Serving mem s t) {u : Flying} (hu : u ∈ s.done ∨ u ∈ s.todo) :
    u.addr ≠ t.addr := by
  have hnodup := h.holds.listed.chain.nodup h.holds.listed.links_null
  rw [List.map_append, List.map_cons, List.nodup_append, List.nodup_cons] at hnodup
  obtain ⟨-, ⟨htodo, -⟩, hdone⟩ := hnodup
  rcases hu with hu | hu
  · exact hdone _ (List.mem_map_of_mem hu) _ List.mem_cons_self
  · intro heq
    exact htodo (heq ▸ List.mem_map_of_mem hu)

theorem Serving.filter_hit (h : Serving mem s t) (f : Missile) :
    ((s.done ++ t :: s.todo).filter (hit t.addr f)) = struck f s.fleet := by
  have hsame : ∀ u, u ∈ s.done ∨ u ∈ s.todo → hit t.addr f u = destroys f u.missile := by
    intro u hu
    simp [hit, h.addr_ne hu]
  have hself : ¬ hit t.addr f t = true := by simp [hit]
  unfold struck fleet
  rw [List.filter_append, List.filter_append, List.filter_cons_of_neg hself]
  congr 1
  · exact List.filter_congr fun u hu => hsame u (Or.inl hu)
  · exact List.filter_congr fun u hu => hsame u (Or.inr hu)

theorem Serving.struckAt_eq (h : Serving mem s t) (f : Missile) {u : Flying}
    (hu : u ∈ s.done ∨ u ∈ s.todo) : struckAt t.addr f u = strike f u := by
  simp [struckAt, strike, hit, h.addr_ne hu]

/-- Storing other fields of the missile that has its turn. -/
theorem Serving.set (h : Serving mem s t) (f : Missile) (w : Word)
    (hw : links mem t.addr = some w) :
    Serving (mem.setBlock t.addr (some (.missile { f with next := w }))) s { t with missile := f } ∧
      Outside mem (mem.setBlock t.addr (some (.missile { f with next := w })))
        ((s.done ++ t :: s.todo).map Flying.addr) := by
  obtain ⟨g, hg, rfl⟩ := missileAt_of_links hw
  have hshape : shape (mem.setBlock t.addr (some (.missile { f with next := g.next }))) =
      shape mem := shape_setBlock hg rfl
  constructor
  · refine ⟨⟨?_, ?_⟩, h.bases, h.score⟩
    · have haddrs : (s.done ++ { t with missile := f } :: s.todo).map Flying.addr =
          (s.done ++ t :: s.todo).map Flying.addr := by simp
      rw [haddrs]
      exact h.holds.listed.of_shape hshape
    · have hother : ∀ u, u ∈ s.done ∨ u ∈ s.todo →
          Kept (mem.setBlock t.addr (some (.missile { f with next := g.next }))) u := by
        intro u hu
        have hin : u ∈ s.done ++ t :: s.todo := by
          rcases hu with hu | hu <;> simp [hu]
        obtain ⟨y, hy⟩ := h.holds.kept u hin
        exact ⟨y, (missileAt_setBlock_ne _ (h.addr_ne hu)).trans hy⟩
      intro u hu
      rcases List.mem_append.mp hu with hu | hu
      · exact hother u (Or.inl hu)
      · rcases List.mem_cons.mp hu with rfl | hu
        · exact ⟨g.next, missileAt_setBlock_self _ _ _⟩
        · exact hother u (Or.inr hu)
  · refine ⟨hshape, ?_⟩
    intro a ha
    have hne : a ≠ t.addr := by
      rintro rfl
      simp at ha
    simp [hne]

theorem Serving.link (h : Serving mem s t) : ∃ w, links mem t.addr = some w ∧
    mem.missileAt t.addr = some { t.missile with next := w } := by
  obtain ⟨w, hw⟩ := h.holds.kept t (by simp)
  exact ⟨w, by simp [links, hw], hw⟩

/-- The missile that explodes is lit. -/
theorem Serving.light (h : Serving mem s t) {f : Missile}
    (hf : mem.missileAt t.addr = some f) : ∃ mem₁,
      (if f.exploded = 0 then mem.setBlock t.addr (some (.missile { f with exploded := 50 }))
        else mem) = mem₁ ∧
      Serving mem₁ s { t with missile := lit t.missile } ∧
      Outside mem mem₁ ((s.done ++ t :: s.todo).map Flying.addr) := by
  obtain ⟨w, hw, hmissile⟩ := h.link
  obtain rfl : f = { t.missile with next := w } := Option.some.inj (hf.symm.trans hmissile)
  refine ⟨_, rfl, ?_⟩
  by_cases hzero : t.missile.exploded = 0
  · rw [if_pos hzero, lit, if_pos hzero]
    exact h.set { t.missile with exploded := 50 } w hw
  · rw [if_neg hzero, lit, if_neg hzero]
    exact ⟨h, Outside.refl _ _⟩

/-- **`missile_explode`** does to the list and the bases what the explosion does to the sky, and
returns the number of casualties. -/
theorem missileExplode_blast {m : Machine} {fuel : ℕ} (args : List Word)
    (h : Serving m.mem s t) (hfuel : (s.done ++ t :: s.todo).length < fuel) :
    ∃ mem', missileExplode fuel (t.addr :: args) m =
        some (BitVec.ofNat 32 (s.casualties t.missile), { m with mem := mem' }) ∧
      Serving mem' (s.blast t) { t with missile := lit t.missile } ∧
      Outside m.mem mem' ((s.done ++ t :: s.todo).map Flying.addr) := by
  obtain ⟨w, -, hmissile⟩ := h.link
  obtain ⟨mem₁, hmem₁, hserving₁, houtside₁⟩ := h.light hmissile
  -- the bases come first
  let bases := bombed t.missile mem₁.baseAlive
  let mem₂ : Memory := { mem₁ with baseAlive := bases.2 }
  have hlisted := hserving₁.holds.listed
  have hchain : Seg (links mem₂) mem₁.missileList ((s.done ++
      { t with missile := lit t.missile } :: s.todo).map Flying.addr) 0 := hlisted.chain
  have hp : ∃ v, mem₂.missileAt t.addr = some { lit t.missile with next := v } :=
    hserving₁.holds.kept { t with missile := lit t.missile } (by simp)
  have hlen : (s.done ++ { t with missile := lit t.missile } :: s.todo).length < fuel := by
    simpa using hfuel
  obtain ⟨mem', hrun, houtside, hkept, hbases, hscore⟩ :=
    missileExplodeLoop_hits (n := BitVec.ofNat 32 bases.1) _ hlen hchain hlisted.links_null hp
      hserving₁.holds.kept
  have hhits := hserving₁.filter_hit (lit t.missile)
  have hstruck : struck (lit t.missile) s.fleet = struck t.missile s.fleet := by
    unfold struck
    rw [destroys_lit]
  have hstrike : strike (lit t.missile) = strike t.missile := by
    unfold strike
    rw [destroys_lit]
  rw [hhits, hstruck] at hrun hscore
  have hsame : mem₁.baseAlive = s.bases := hserving₁.bases
  have hcasualties : BitVec.ofNat 32 bases.1 + BitVec.ofNat 32 (struck t.missile s.fleet).length =
      BitVec.ofNat 32 (s.casualties t.missile) := by
    rw [← BitVec.ofNat_add, casualties, ← hsame]
  rw [hcasualties] at hrun
  have haddrs : ((s.blast t).done ++ { t with missile := lit t.missile } :: (s.blast t).todo).map
      Flying.addr = (s.done ++ { t with missile := lit t.missile } :: s.todo).map Flying.addr := by
    simp [blast, Function.comp_def]
  refine ⟨mem', ?_, ⟨⟨?_, ?_⟩, ?_, ?_⟩, ?_⟩
  · simp only [missileExplode, List.getElem?_cons_zero, Option.bind_eq_bind, Option.bind_some,
      hmissile]
    simp only [hmem₁]
    have hstart := explodeBase_bombed { t.missile with next := w } mem₁
    rw [hstart]
    exact congrArg (fun r => r.bind fun v => some (v.1, { m with mem := v.2 })) hrun
  · rw [haddrs]
    exact hlisted.of_shape houtside.shape
  · intro u hu
    rcases List.mem_append.mp hu with hu | hu
    · obtain ⟨v, hv, rfl⟩ := List.mem_map.mp hu
      rw [← hstrike, ← hserving₁.struckAt_eq (lit t.missile) (Or.inl hv)]
      exact hkept v (by simp [hv])
    · rcases List.mem_cons.mp hu with rfl | hu
      · have hself := hkept { t with missile := lit t.missile } (by simp)
        have hnot : struckAt t.addr (lit t.missile) { t with missile := lit t.missile } =
            { t with missile := lit t.missile } := by simp [struckAt, hit]
        rw [hnot] at hself
        exact hself
      · obtain ⟨v, hv, rfl⟩ := List.mem_map.mp hu
        rw [← hstrike, ← hserving₁.struckAt_eq (lit t.missile) (Or.inr hv)]
        exact hkept v (by simp [hv])
  · rw [hbases, blast, ← hsame]
  · have hscore₁ : mem₂.score = s.score := hserving₁.score
    rw [hscore, hscore₁, blast]
  · refine houtside₁.trans ?_
    have hbase : Outside mem₁ mem₂ ((s.done ++ t :: s.todo).map Flying.addr) :=
      ⟨rfl, fun _ _ => rfl⟩
    refine hbase.trans (houtside.mono ?_)
    simp

/-! ## The number of casualties -/

theorem Listed.length_lt {l : List Word} (h : Listed mem l) : l.length < 2 ^ 32 := by
  have hzero : (0 : Word) ∉ l := fun hin => h.ne_null hin rfl
  have hnodup : ((0 : Word) :: l).Nodup := List.nodup_cons.mpr ⟨hzero, h.chain.nodup h.links_null⟩
  have hfin := hnodup.map (f := BitVec.toFin) fun a b hab => BitVec.toFin_inj.mp hab
  have hcard := hfin.length_le_card
  rw [List.length_map, List.length_cons, Fintype.card_fin] at hcard
  omega

/-- An explosion destroys a base or enemies, never both. -/
theorem casualties_le (s : Sky) (f : Missile) : s.casualties f ≤ max 1 s.fleet.length := by
  unfold casualties bombed struck
  have hstruck := List.length_filter_le (fun u => destroys f u.missile) s.fleet
  by_cases hc : f.c = 101
  · have hnone : s.fleet.filter (fun u => destroys f u.missile) = [] := by
      rw [List.filter_eq_nil_iff]
      intro u _
      simp [destroys, hc]
    rw [hnone]
    split
    · split <;> simp
    · simp
  · have htarget : targetBase f = none := if_neg hc
    rw [htarget]
    simp only [Nat.zero_add]
    omega

theorem Serving.casualties_lt (h : Serving mem s t) (f : Missile) : s.casualties f < 2 ^ 32 := by
  have hle := casualties_le s f
  have hlt := h.holds.listed.length_lt
  simp only [List.length_map, List.length_append, List.length_cons] at hlt
  simp only [fleet, List.length_append] at hle
  omega

/-- The value that `missile_explode` returns is zero exactly if there was no casualty. -/
theorem Serving.returned_eq_zero (h : Serving mem s t) (f : Missile) :
    BitVec.ofNat 32 (s.casualties f) = 0#32 ↔ s.casualties f = 0 := by
  constructor
  · intro hzero
    have hnat := congrArg BitVec.toNat hzero
    rw [BitVec.toNat_ofNat, Nat.mod_eq_of_lt (h.casualties_lt f)] at hnat
    exact hnat
  · intro hzero
    rw [hzero]

end Blast

end MachineProblems.Analysis.Mp1
