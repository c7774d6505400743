import MachineProblems.Analysis.Mp1.Service
import Mathlib.Data.List.Forall2

/-!
# What a missile draws

The bytes that one turn of a missile puts on the screen follow from its fields.  An offset is the
column and 80 times the row, doubled; an offset that is computed with unsigned shifts is on the
screen only where the coordinates are not negative.  A missile off the screen is taken out of the
list in its turn only if its counter runs out or it fails the bounds test, which compares
fixed-point coordinates with columns and rows.
-/

set_option autoImplicit false

namespace MachineProblems.Analysis.Mp1

open MachineProblems.Library MachineProblems.Program.Mp1 MachineProblems.Model
open MachineProblems.Model.Sky

/-! ## The property -/

/-- The missile is at one of the 80 columns and 25 rows. -/
def OnCells (f : Missile) : Prop :=
  0 ≤ cell f.x ∧ cell f.x ≤ 79 ∧ 0 ≤ cell f.y ∧ cell f.y ≤ 24

instance (f : Missile) : Decidable (OnCells f) :=
  inferInstanceAs (Decidable (0 ≤ cell f.x ∧ cell f.x ≤ 79 ∧ 0 ≤ cell f.y ∧ cell f.y ≤ 24))

/-- The missile at `a` was taken out of the list and freed. -/
def Removed (mem : Memory) (a : Word) : Prop := mem.heap a = none ∧ ∃ l, Listed mem l ∧ a ∉ l

/-- The turn that starts in `p` writes to the screen only, and takes a missile off the screen out
of the list. -/
def TurnOnScreen (fuel : ℕ) (p : Machine) : Prop :=
  ∃ a f exit p' drawn, p.stack.head? = some a ∧ p.mem.missileAt a = some f ∧
    updateMissilesLoopStart fuel p = some (exit, p') ∧ p'.video = p.video ++ drawn ∧
    (∀ b ∈ drawn, OnScreen b.1) ∧ (¬ OnCells f → Removed p'.mem a)

/-- Every turn of the tick that a call of the driver makes is on the screen. -/
def TickOnScreen (fuel : ℕ) (m : Machine) (r : Request) : Prop :=
  r.command = .rtcTasklet → ∀ p ∈ turnsOf fuel (tickEntry (entered m r)), TurnOnScreen fuel p

/-! ## The condition -/

/-- Column `c` of row `r` is in the text screen; a column beyond the last goes on in the next
row. -/
def InText (c r : ℤ) : Prop := 0 ≤ c + 80 * r ∧ c + 80 * r < 2000

instance (c r : ℤ) : Decidable (InText c r) :=
  inferInstanceAs (Decidable (0 ≤ c + 80 * r ∧ c + 80 * r < 2000))

/-- A missile on the screen does not leave the text screen when it flies on; a missile off the
screen goes, and its coordinates as unsigned numbers are in the text screen. -/
structure Fits (f : Missile) : Prop where
  flies : OnCells f → turn f = .fly → InText (cell (f.x + f.vx)) (cell (f.y + f.vy))
  leaves : ¬ OnCells f → goes f = true ∧ InText (f.x.toNat / 65536) (f.y.toNat / 65536)

/-- Every missile fits when it has its turn in the tick. -/
def TickFits (fuel : ℕ) (m : Machine) (r : Request) : Prop :=
  r.command = .rtcTasklet → ∀ p ∈ turnsOf fuel (tickEntry (entered m r)),
    ∀ a f, p.stack.head? = some a → p.mem.missileAt a = some f → Fits f

/-! ## Offsets -/

theorem cell_eq (v : Word) : cell v = v.toInt / 65536 := by
  rw [cell, BitVec.toInt_sshiftRight, Int.shiftRight_eq_div_pow]
  rfl

theorem onScreen_iff {a b : Word} (ha : -65536 ≤ a.toInt ∧ a.toInt ≤ 65536)
    (hb : -65536 ≤ b.toInt ∧ b.toInt ≤ 65536) :
    OnScreen (a * 2 + b * 160) ↔ InText a.toInt b.toInt := by
  have hoffset : (a * 2 + b * 160).toInt = a.toInt * 2 + b.toInt * 160 := by
    have htwo : (2 : Word).toInt = 2 := rfl
    have hrow : (160 : Word).toInt = 160 := rfl
    rw [BitVec.toInt_add, BitVec.toInt_mul, BitVec.toInt_mul, htwo, hrow, Int.add_bmod_bmod,
      Int.bmod_add_bmod]
    apply Int.bmod_eq_of_le <;> omega
  unfold OnScreen InText
  rw [BitVec.toInt_eq_toNat_cond] at hoffset
  split at hoffset <;> omega

theorem sshiftRight_bounds (v : Word) : -65536 ≤ (v.sshiftRight 16).toInt ∧
    (v.sshiftRight 16).toInt ≤ 65536 := by
  have hcell : (v.sshiftRight 16).toInt = v.toInt / 65536 := cell_eq v
  have hlow := BitVec.le_toInt v
  have hhigh := BitVec.toInt_lt (x := v)
  omega

theorem drawOffset_onScreen (f : Missile) :
    OnScreen (drawOffset f) ↔ InText (cell f.x) (cell f.y) :=
  onScreen_iff (sshiftRight_bounds f.x) (sshiftRight_bounds f.y)

theorem toInt_ushiftRight (v : Word) : (v >>> 16).toInt = v.toNat / 65536 := by
  rw [BitVec.toInt_ushiftRight_of_lt (by decide), Nat.shiftRight_eq_div_pow]
  rfl

theorem eraseOffset_onScreen (f : Missile) :
    OnScreen (eraseOffset f) ↔ InText (f.x.toNat / 65536) (f.y.toNat / 65536) := by
  have hx := toInt_ushiftRight f.x
  have hy := toInt_ushiftRight f.y
  have hlx := f.x.isLt
  have hly := f.y.isLt
  rw [← hx, ← hy]
  apply onScreen_iff <;> omega

/-- A missile on the screen is drawn on it. -/
theorem OnCells.inText {f : Missile} (h : OnCells f) : InText (cell f.x) (cell f.y) := by
  obtain ⟨hleft, hright, htop, hbottom⟩ := h
  unfold InText
  omega

/-- On the screen the unsigned coordinates are the signed ones. -/
theorem OnCells.inText_unsigned {f : Missile} (h : OnCells f) :
    InText (f.x.toNat / 65536) (f.y.toNat / 65536) := by
  obtain ⟨hleft, hright, htop, hbottom⟩ := h
  rw [cell_eq] at hleft hright htop hbottom
  have hx := BitVec.toInt_eq_toNat_cond f.x
  have hy := BitVec.toInt_eq_toNat_cond f.y
  have hlx := f.x.isLt
  have hly := f.y.isLt
  unfold InText
  split at hx <;> split at hy <;> omega

/-! ## The bytes of a turn -/

/-- What a missile puts on the screen in its turn. -/
def strokes (f : Missile) : List (Word × Byte) :=
  match turn f with
  | .burn => if f.exploded = 1 then [(eraseOffset f, 32)] else []
  | .leave => [(eraseOffset f, 32)]
  | .reach => [(drawOffset f, f.c), (drawOffset f, 64)]
  | .fly => [(drawOffset f, f.c), (drawOffset f, 32), (drawOffset (moved f), f.c)]

theorem pokes_pass {s : Sky} {t : Flying} {rest : List Flying} (h : s.todo = t :: rest) :
    s.pass.pokes = s.pokes ++ strokes t.missile := by
  have hpass : s.pass = { s with todo := rest }.serveMissile t := by rw [Sky.pass, h]
  rw [hpass, serveMissile, strokes]
  cases turn t.missile with
  | burn =>
      change (Sky.burn _ t).pokes = _
      unfold burn
      split
      · rfl
      · exact (List.append_nil _).symm
  | leave => rfl
  | reach => simp [Sky.reach, keep, poke, blast]
  | fly => simp [Sky.fly, keep, poke]

theorem fits_of_goes {f : Missile} (h : goes f = true) :
    Fits f ↔ InText (f.x.toNat / 65536) (f.y.toNat / 65536) := by
  constructor
  · intro hfits
    by_cases hon : OnCells f
    · exact hon.inText_unsigned
    · exact (hfits.leaves hon).2
  · intro htext
    refine ⟨?_, fun _ => ⟨h, htext⟩⟩
    intro _ hfly
    obtain ⟨hzero, hin, -⟩ := (turn_eq_fly f).mp hfly
    simp [goes, hzero, hin] at h

theorem fits_of_stays {f : Missile} (h : goes f = false) : Fits f ↔
    OnCells f ∧ (turn f = .fly → InText (cell (f.x + f.vx)) (cell (f.y + f.vy))) := by
  constructor
  · intro hfits
    have hon : OnCells f := by
      by_contra hoff
      rw [(hfits.leaves hoff).1] at h
      cases h
    exact ⟨hon, hfits.flies hon⟩
  · rintro ⟨hon, hfly⟩
    exact ⟨fun _ => hfly, fun hoff => absurd hon hoff⟩

/-- **A turn is on the screen** if and only if its missile fits. -/
theorem strokes_onScreen (f : Missile) :
    (∀ b ∈ strokes f, OnScreen b.1) ∧ (¬ OnCells f → goes f = true) ↔ Fits f := by
  cases hgoes : goes f with
  | true =>
      -- a missile that goes is erased
      have hstrokes : strokes f = [(eraseOffset f, 32)] := by
        unfold strokes
        cases hturn : turn f with
        | burn =>
            have hlit : f.exploded ≠ 0#32 := (turn_eq_burn f).mp hturn
            have hone : f.exploded = 1 := by simpa [goes, hlit] using hgoes
            exact if_pos hone
        | leave => rfl
        | reach =>
            obtain ⟨hzero, hin, -⟩ := (turn_eq_reach f).mp hturn
            simp [goes, hzero, hin] at hgoes
        | fly =>
            obtain ⟨hzero, hin, -⟩ := (turn_eq_fly f).mp hturn
            simp [goes, hzero, hin] at hgoes
      rw [fits_of_goes hgoes, hstrokes, List.forall_mem_singleton, eraseOffset_onScreen]
      exact and_iff_left fun _ => rfl
  | false =>
      rw [fits_of_stays hgoes, and_comm]
      have hoff : (¬ OnCells f → false = true) ↔ OnCells f := by simp
      rw [hoff]
      refine and_congr_right fun hon => ?_
      have hdrawn : OnScreen (drawOffset f) := (drawOffset_onScreen f).mpr hon.inText
      unfold strokes
      cases hturn : turn f with
      | burn =>
          have hone : ¬ f.exploded = 1 := by
            intro hone
            rw [goes, hone] at hgoes
            cases hgoes
          rw [if_neg hone]
          exact iff_of_true (fun b hb => absurd hb List.not_mem_nil) (by rintro ⟨⟩)
      | leave =>
          obtain ⟨hzero, hout⟩ := (turn_eq_leave f).mp hturn
          simp [goes, hzero, hout] at hgoes
      | reach => exact iff_of_true (by simp [hdrawn]) (by rintro ⟨⟩)
      | fly =>
          have hnext := drawOffset_onScreen (moved f)
          simp only [List.forall_mem_cons, List.not_mem_nil, false_implies, implies_true, and_true]
          simp only [hdrawn, true_and, hnext, forall_const]
          exact Iff.rfl

/-! ## The turns of a tick -/

section Ticks

variable {fuel : ℕ} {g : Ground} {s : Sky} {m : Machine}

theorem Starts.turnOnScreen_iff (h : Starts fuel g s m) {t : Flying} {rest : List Flying}
    (htodo : s.todo = t :: rest) : TurnOnScreen fuel m ↔ Fits t.missile := by
  obtain ⟨hstack, w, hw⟩ := h.missile htodo
  obtain ⟨exit, m', hrun, hat⟩ := (updateMissilesLoopStart_passEnds h).at
  have hvideo : m'.video = m.video ++ strokes t.missile := by
    rw [hat.video, h.under.video, pokes_pass htodo, List.append_assoc]
  have hremoved : Removed m'.mem t.addr ↔ goes t.missile = true := by
    rcases pass_advances htodo with ⟨hstays, f, hf, -⟩ | ⟨hgoes, hgone⟩
    · obtain ⟨y, hy⟩ := hat.holds.kept _ hf
      refine iff_of_false ?_ (by rw [hstays]; exact Bool.false_ne_true)
      rintro ⟨hnone, -⟩
      have hsome := missileAt_eq_some.mp hy
      rw [hnone] at hsome
      cases hsome
    · obtain ⟨hout, hnone⟩ := h.freed htodo hat hgone
      exact iff_of_true ⟨hnone, _, hat.holds.listed, hout⟩ hgoes
  rw [← strokes_onScreen, ← hremoved]
  constructor
  · rintro ⟨a, f, exit', p', drawn, hhead, hf, hrun', hdrawn, hscreen, hoff⟩
    obtain rfl : t.addr = a := Option.some.inj (hstack.symm.trans hhead)
    obtain rfl : _ = f := Option.some.inj (hw.symm.trans hf)
    obtain ⟨rfl, rfl⟩ := Prod.mk.inj (Option.some.inj (hrun.symm.trans hrun'))
    have hsame : strokes t.missile = drawn := List.append_cancel_left (hvideo.symm.trans hdrawn)
    rw [hsame]
    exact ⟨hscreen, hoff⟩
  · rintro ⟨hscreen, hoff⟩
    exact ⟨t.addr, _, exit, m', _, hstack, hw, hrun, hvideo, hscreen, hoff⟩

theorem turnsOnScreen_iff (h : At g s m) (hfuel : s.fleet.length < fuel) :
    (∀ p ∈ turnsOf fuel m, TurnOnScreen fuel p) ↔ ∀ p ∈ turnsOf fuel m,
      ∀ a f, p.stack.head? = some a → p.mem.missileAt a = some f → Fits f := by
  have hiff : ∀ p ∈ turnsOf fuel m, TurnOnScreen fuel p ↔
      ∀ a f, p.stack.head? = some a → p.mem.missileAt a = some f → Fits f := by
    have hturns := (turnsOf_served h hfuel).imp (S := fun p a => (TurnOnScreen fuel p ↔
      ∀ a f, p.stack.head? = some a → p.mem.missileAt a = some f → Fits f) ∧ True) (by
        rintro p a ⟨s', t, rest, hp, htodo, -⟩
        refine ⟨?_, trivial⟩
        obtain ⟨hstack, w, hw⟩ := hp.missile htodo
        rw [hp.turnOnScreen_iff htodo]
        constructor
        · intro hfits a f hhead hf
          obtain rfl : t.addr = a := Option.some.inj (hstack.symm.trans hhead)
          obtain rfl : _ = f := Option.some.inj (hw.symm.trans hf)
          exact ⟨hfits.flies, hfits.leaves⟩
        · intro hall
          have hfits := hall t.addr _ hstack hw
          exact ⟨hfits.flies, hfits.leaves⟩)
    exact ((List.forall₂_and_left _ _).mp hturns).1
  exact forall₂_congr hiff

theorem tick_iff {others : Word → Option Block} (h : Under others s m)
    (hfuel : s.fleet.length < fuel) (r : Request) :
    TickOnScreen fuel m r ↔ TickFits fuel m r := by
  have htick : At ⟨others, m.video, []⟩ { s with pokes := [] } (tickEntry (entered m r)) :=
    At.rests h ⟨rfl, rfl, rfl, rfl, rfl⟩
  exact imp_congr_right fun _ => turnsOnScreen_iff htick hfuel

theorem ticks_iff (rs : List Request) : ∀ {others : Word → Option Block} {s : Sky} {m : Machine},
    Under others s m → everyStep (serve fuel) Granted m rs → s.fleet.length + rs.length < fuel →
    (everyStep (serve fuel) (TickOnScreen fuel) m rs ↔
      everyStep (serve fuel) (TickFits fuel) m rs) := by
  induction rs with
  | nil => exact fun _ _ _ => Iff.rfl
  | cons r rs ih =>
      intro others s m h hgranted hfuel
      rw [List.length_cons] at hfuel
      have hlt : s.fleet.length < fuel := by omega
      refine and_congr (tick_iff h hlt r) (forall_congr' fun t => imp_congr_right fun ht => ?_)
      have hfed : ¬ Starved r := by
        intro hstarved
        rw [serve_starved h hgranted.1 hstarved] at ht
        cases ht
      obtain ⟨t', ht', hunder⟩ := serve_under h hgranted.1 hfed hlt
      obtain rfl : t = t' := Option.some.inj (ht.symm.trans ht')
      have hgrows := length_command s r
      exact ih hunder (hgranted.2 t ht) (by omega)

end Ticks

/-- **Missiles are drawn on the screen** in every tick of a run if and only if every missile fits
when it has its turn. -/
theorem onScreen_iff_fits {fuel : ℕ} {m : Machine} (hload : Loaded m) {rs : List Request}
    (hgranted : everyStep (serve fuel) Granted m rs) (hfuel : rs.length < fuel) :
    everyStep (serve fuel) (TickOnScreen fuel) m rs ↔ everyStep (serve fuel) (TickFits fuel) m rs := by
  have hlen : (clearSky m).fleet.length + rs.length < fuel := by
    have hzero : (clearSky m).fleet.length = 0 := rfl
    omega
  exact ticks_iff rs hload.under hgranted hlen

/-- An enemy that falls by one row in a tick, on the last row of the screen. -/
def lastRow : Missile := ⟨0, 0x280000, 0x180000, 0, 0x10000, 10, 24, 0, 101⟩

/-- The enemy is added, and the clock ticks. -/
def fallingOut : List Request :=
  [⟨.addmissile, 4096, zeroRegs, { kernel with userMissile := lastRow }⟩,
    ⟨.rtcTasklet, 0, zeroRegs, kernel⟩]

theorem granted_fallingOut : everyStep (serve 4) Granted idle fallingOut :=
  ⟨⟨Or.inr rfl, rfl⟩, fun _ _ => ⟨trivial, fun _ _ => trivial⟩⟩

/-- The enemy is drawn below the last row. -/
theorem fallingOut_leaves : ¬ everyStep (serve 4) (TickOnScreen 4) idle fallingOut := by
  have hload : Loaded idle := ⟨rfl, rfl, rfl⟩
  rw [ticks_iff fallingOut hload.under granted_fallingOut (by decide)]
  rintro ⟨-, hrest⟩
  let m₁ : Machine :=
    entered idle ⟨.addmissile, 4096, zeroRegs, { kernel with userMissile := lastRow }⟩
  have hstack : m₁.stack = 0 :: 4096 :: [] := rfl
  obtain ⟨m₂, hadd, hpushed, -⟩ := addmissile_run hstack (by decide) (by rfl)
  obtain ⟨hfits, -⟩ := hrest m₂ hadd
  let m₃ : Machine := tickEntry (entered m₂ ⟨.rtcTasklet, 0, zeroRegs, kernel⟩)
  have hmem : m₃.mem = pushed m₁.mem 64 lastRow := hpushed
  have hlist : m₃.mem.missileList = 64 := by
    rw [hmem]
    rfl
  have hp : loopEntry m₃ ∈ turnsOf 4 m₃ := by
    have hne : ¬ m₃.mem.missileList = 0 := by
      rw [hlist]
      decide
    unfold turnsOf
    rw [if_neg hne]
    exact List.mem_cons_self
  have hmissile : m₃.mem.missileAt 64 = some lastRow := by
    rw [hmem]
    rfl
  have hfit := hfits rfl (loopEntry m₃) hp 64 lastRow (congrArg some hlist) hmissile
  have hbad := hfit.flies (by decide) (by decide)
  exact absurd hbad (by decide)

theorem onScreen_iff_fits_fallingOut :
    everyStep (serve 4) (TickOnScreen 4) idle fallingOut ↔
      everyStep (serve 4) (TickFits 4) idle fallingOut :=
  onScreen_iff_fits ⟨rfl, rfl, rfl⟩ granted_fallingOut (by decide)

end MachineProblems.Analysis.Mp1
