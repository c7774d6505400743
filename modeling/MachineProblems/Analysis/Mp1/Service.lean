import MachineProblems.Analysis.Mp1.Skies

/-!
# Who has a turn

A pass through the loop of `update_missiles` serves one missile, and a missile that goes in its
turn takes its successor with it: `missile_remove` leaves the successor in `%edx`, and
`end_of_loop` goes on behind it.  So every missile has its turn if and only if no missile goes
that another one follows.  Which missiles go can be told when the tick starts: a missile that is
hit before its turn does not leave the screen in it.
-/

set_option autoImplicit false

namespace MachineProblems.Analysis.Mp1

open MachineProblems.Library MachineProblems.Program.Mp1 MachineProblems.Model
open MachineProblems.Model.Sky

/-! ## The turns of a tick -/

section Turns

variable (fuel : ℕ)

/-- The states at `update_missiles_loop_start`, from `m` on. -/
def loopStarts : ℕ → Machine → List Machine
  | 0, _ => []
  | n + 1, m =>
      m :: match updateMissilesLoopStart fuel m with
        | some (.loopStart, m') => loopStarts n m'
        | _ => []

/-- The states at `update_missiles_loop_start` in a run of `update_missiles`. -/
def turnsOf (m : Machine) : List Machine :=
  if m.mem.missileList = 0 then [] else loopStarts fuel fuel (loopEntry m)

/-- The missile `f` was decremented, moved or exploded at its destination. -/
def Advanced (f f' : Missile) : Prop :=
  (f.exploded ≠ 0 ∧ f'.exploded = f.exploded - 1 ∧ f'.x = f.x ∧ f'.y = f.y) ∨
    (f'.x = f.x + f.vx ∧ f'.y = f.y + f.vy ∧ f'.exploded = f.exploded) ∨
    (f.exploded = 0 ∧ onTarget f = true ∧ f'.exploded = 49)

/-- The missile `f` was processed, and `block` is left of it. -/
def Processed (f : Missile) (block : Option Block) : Prop :=
  block = none ∨ ∃ f', block = some (.missile f') ∧ Advanced f f'

/-- The turn that starts in `p` is the turn of the missile at `a`, and processes it. -/
def HasTurn (p : Machine) (a : Word) : Prop :=
  p.stack.head? = some a ∧ ∃ f exit p', p.mem.missileAt a = some f ∧
    updateMissilesLoopStart fuel p = some (exit, p') ∧ Processed f (p'.mem.heap a)

/-- The missile at `a` has one turn, and no other. -/
def ServedOnce (turns : List Machine) (a : Word) : Prop :=
  ∃ before p after, turns = before ++ p :: after ∧ HasTurn fuel p a ∧
    ∀ q ∈ before ++ after, q.stack.head? ≠ some a

end Turns

/-! ## The condition -/

/-- The missile `f` is destroyed in the turn of one of `fs`. -/
def hitBy (fs : List Missile) (f : Missile) : Bool := fs.any fun g => bursts g && destroys g f

/-- What the turns of `fs` leave of a missile that waits for its own. -/
def leftBy (fs : List Missile) (f : Missile) : Missile :=
  if hitBy fs f then { f with exploded := 50 } else f

/-- No missile goes that another one follows: it is the last, or hit before its turn. -/
def Orderly (fs : List Missile) : Prop :=
  ∀ before f after, fs = before ++ f :: after → after ≠ [] → goes f = true → hitBy before f = true

/-- `Orderly` behind missiles that have had their turn. -/
def OrderlyBehind (earlier fs : List Missile) : Prop :=
  ∀ before f after, fs = before ++ f :: after → after ≠ [] → goes f = true →
    hitBy (earlier ++ before) f = true

theorem orderlyBehind_cons {earlier fs : List Missile} {f : Missile} :
    OrderlyBehind earlier (f :: fs) ↔
      (fs ≠ [] → goes f = true → hitBy earlier f = true) ∧ OrderlyBehind (earlier ++ [f]) fs := by
  constructor
  · intro h
    constructor
    · intro hne hgoes
      have hhit := h [] f fs rfl hne hgoes
      rwa [List.append_nil] at hhit
    · rintro before g after rfl hne hgoes
      rw [List.append_assoc]
      exact h (f :: before) g after rfl hne hgoes
  · rintro ⟨hfirst, hrest⟩ before g after heq hne hgoes
    cases before with
    | nil =>
        obtain ⟨rfl, rfl⟩ := List.cons.inj heq
        rw [List.append_nil]
        exact hfirst hne hgoes
    | cons b before =>
        obtain ⟨rfl, rfl⟩ := List.cons.inj heq
        have hhit := hrest before g after rfl hne hgoes
        rwa [List.append_assoc] at hhit

/-- A missile that is hit does not explode others: it is an enemy. -/
theorem hitBy_c {fs : List Missile} {f : Missile} (h : hitBy fs f = true) : f.c = 101 := by
  obtain ⟨g, -, hg⟩ := List.any_eq_true.mp h
  exact (destroys_kinds (Bool.and_eq_true_iff.mp hg).2).2.1

theorem leftBy_nil : leftBy [] = id := rfl

theorem goes_leftBy {fs : List Missile} {f : Missile} :
    goes (leftBy fs f) = (goes f && !hitBy fs f) := by
  unfold leftBy
  cases hitBy fs f with
  | true => simp [goes]
  | false => simp

/-- The turn of one more missile. -/
theorem leftBy_concat (fs : List Missile) (f u : Missile) :
    (if bursts (leftBy fs f) && destroys (leftBy fs f) (leftBy fs u) then
      { leftBy fs u with exploded := 50 } else leftBy fs u) = leftBy (fs ++ [f]) u := by
  have hconcat : hitBy (fs ++ [f]) u = (hitBy fs u || bursts f && destroys f u) := by
    simp [hitBy]
  cases hu : hitBy fs u with
  | true =>
      simp [leftBy, hconcat, hu]
  | false =>
      have hleft : leftBy fs u = u := by simp [leftBy, hu]
      -- only an interceptor destroys, and an interceptor is never hit
      have hsame : (bursts (leftBy fs f) && destroys (leftBy fs f) u) =
          (bursts f && destroys f u) := by
        cases hf : hitBy fs f with
        | false => simp [leftBy, hf]
        | true =>
            have hc := hitBy_c hf
            simp [destroys, leftBy, hf, hc]
      rw [hleft, hsame]
      simp only [leftBy, hconcat, hu, Bool.false_or]

/-! ## The turns in the sky -/

section Sky

variable {s : Sky} {t : Flying} {rest : List Flying}

/-- The missiles that wait for their turn after that of `t`. -/
theorem todo_pass (h : s.todo = t :: rest) : s.pass.todo =
    (if goes t.missile then rest.drop 1 else rest).map
      fun u => if bursts t.missile then strike t.missile u else u := by
  have hpass : s.pass = { s with todo := rest }.serveMissile t := by rw [Sky.pass, h]
  rw [hpass, serveMissile, turn]
  by_cases hburn : t.missile.exploded = 0#32
  · by_cases hleave : failsBounds t.missile
    · simp [hburn, hleave, goes, bursts, Sky.drop, poke]
    · by_cases hreach : onTarget t.missile
      · simp [hburn, hleave, hreach, goes, bursts, Sky.reach, keep, poke, blast]
      · simp [hburn, hleave, hreach, goes, bursts, Sky.fly, keep, poke]
  · by_cases hlast : t.missile.exploded = 1#32
    · simp [hlast, goes, bursts, Sky.burn, Sky.drop, poke, blast]
    · simp [hburn, hlast, goes, bursts, Sky.burn, keep, blast]

/-- The addresses of the missiles that have a turn, in `n` turns at most. -/
def served : ℕ → Sky → List Word
  | 0, _ => []
  | n + 1, s =>
      match s.todo with
      | [] => []
      | t :: _ => t.addr :: served n s.pass

theorem served_cons (h : s.todo = t :: rest) (n : ℕ) :
    served (n + 1) s = t.addr :: served n s.pass := by
  rw [served, h]

theorem addrs_pass (h : s.todo = t :: rest) : s.pass.todo.map Flying.addr =
    (if goes t.missile then rest.drop 1 else rest).map Flying.addr := by
  rw [todo_pass h, List.map_map]
  apply List.map_congr_left
  intro u _
  rw [Function.comp_apply]
  split
  · exact strike_addr t.missile u
  · rfl

theorem missiles_pass (h : s.todo = t :: rest) : s.pass.todo.map Flying.missile =
    ((if goes t.missile then rest.drop 1 else rest).map Flying.missile).map fun f =>
      if bursts t.missile && destroys t.missile f then { f with exploded := 50 } else f := by
  rw [todo_pass h, List.map_map, List.map_map]
  apply List.map_congr_left
  intro u _
  rw [Function.comp_apply, Function.comp_apply]
  cases bursts t.missile with
  | false => rfl
  | true => cases hd : destroys t.missile u.missile <;> simp [strike, hd]

theorem served_sublist (n : ℕ) : ∀ s : Sky, (served n s).Sublist (s.todo.map Flying.addr) := by
  induction n with
  | zero => exact fun s => List.nil_sublist _
  | succ n ih =>
      intro s
      cases htodo : s.todo with
      | nil =>
          rw [served, htodo]
          exact List.nil_sublist _
      | cons t rest =>
          rw [served_cons htodo, List.map_cons]
          have hpass := ih s.pass
          rw [addrs_pass htodo] at hpass
          apply List.Sublist.cons_cons
          refine hpass.trans (List.Sublist.map _ ?_)
          split
          · exact List.drop_sublist 1 rest
          · exact List.Sublist.refl rest

/-- **Every missile has its turn** if and only if no missile goes that another one follows. -/
theorem served_eq_iff (n : ℕ) : ∀ {s : Sky} {earlier fs : List Missile},
    s.todo.length ≤ n → s.todo.map Flying.missile = fs.map (leftBy earlier) →
    (served n s = s.todo.map Flying.addr ↔ OrderlyBehind earlier fs) := by
  induction n with
  | zero =>
      intro s earlier fs hlen hfs
      have htodo : s.todo = [] := List.eq_nil_of_length_eq_zero (Nat.le_zero.mp hlen)
      rw [htodo, List.map_nil] at hfs
      obtain rfl := List.map_eq_nil_iff.mp hfs.symm
      rw [htodo]
      refine iff_of_true rfl ?_
      intro before f after heq
      cases before <;> cases heq
  | succ n ih =>
      intro s earlier fs hlen hfs
      cases htodo : s.todo with
      | nil =>
          rw [htodo, List.map_nil] at hfs
          obtain rfl := List.map_eq_nil_iff.mp hfs.symm
          rw [served, htodo]
          refine iff_of_true rfl ?_
          intro before f after heq
          cases before <;> cases heq
      | cons t rest =>
          rw [htodo, List.map_cons] at hfs
          obtain ⟨f, fs, rfl, ht, hrest⟩ := List.map_eq_cons_iff.mp hfs.symm
          have hgoes : goes t.missile = (goes f && !hitBy earlier f) := by
            rw [← ht, goes_leftBy]
          rw [served_cons htodo, List.map_cons, List.cons_inj_right, orderlyBehind_cons]
          cases hgo : goes t.missile with
          | false =>
              -- the missile stays, and the next turn is that of its successor
              have haddrs := addrs_pass htodo
              have hpass := todo_pass htodo
              rw [hgo] at haddrs hpass hgoes
              have hlen' : s.pass.todo.length ≤ n := by
                rw [htodo, List.length_cons] at hlen
                rw [hpass, List.length_map]
                simpa using hlen
              have hfields : s.pass.todo.map Flying.missile =
                  fs.map (leftBy (earlier ++ [f])) := by
                rw [missiles_pass htodo, hgo, if_neg Bool.false_ne_true, ← hrest, List.map_map, ← ht]
                apply List.map_congr_left
                intro u _
                exact leftBy_concat earlier f u
              rw [← ih hlen' hfields, haddrs]
              have hfirst : fs ≠ [] → goes f = true → hitBy earlier f = true := by
                intro _ hf
                rw [hf] at hgoes
                simpa using hgoes
              exact ⟨fun h => ⟨hfirst, h⟩, fun h => h.2⟩
          | true =>
              -- the missile goes, and its successor has no turn
              rw [hgo] at hgoes
              obtain ⟨hf, hhit⟩ := Bool.and_eq_true_iff.mp hgoes.symm
              rw [Bool.not_eq_true'] at hhit
              have haddrs := addrs_pass htodo
              rw [hgo, if_pos rfl] at haddrs
              have hless := (served_sublist n s.pass).length_le
              rw [haddrs, List.length_map, List.length_drop] at hless
              cases fs with
              | nil =>
                  obtain rfl := List.map_eq_nil_iff.mp hrest.symm
                  have hnone : served n s.pass = [] :=
                    List.eq_nil_of_length_eq_zero (by simpa using hless)
                  refine iff_of_true hnone ⟨fun h => absurd rfl h, ?_⟩
                  intro before u after heq
                  cases before <;> cases heq
              | cons u fs =>
                  refine iff_of_false ?_ ?_
                  · intro hall
                    have hlong := congrArg List.length hall
                    have hmany := congrArg List.length hrest
                    rw [List.length_map] at hlong
                    rw [List.length_map, List.length_map, List.length_cons] at hmany
                    omega
                  · rintro ⟨hfirst, -⟩
                    have hcontra := hfirst (List.cons_ne_nil u fs) hf
                    rw [hhit] at hcontra
                    cases hcontra

/-- What a turn does to the missile that has it: it advances, or it is out of the list. -/
theorem pass_advances (h : s.todo = t :: rest) :
    (goes t.missile = false ∧
      ∃ f, { t with missile := f } ∈ s.pass.fleet ∧ Advanced t.missile f) ∨
    (goes t.missile = true ∧
      (s.pass.fleet.map Flying.addr).Sublist
        (s.done.map Flying.addr ++ rest.map Flying.addr)) := by
  have hpass : s.pass = { s with todo := rest }.serveMissile t := by rw [Sky.pass, h]
  have hself : ∀ (s' : Sky) (u : Flying), u ∈ (s'.keep u).fleet := by
    intro s' u
    simp [fleet, keep]
  rw [hpass, serveMissile]
  cases hturn : turn t.missile with
  | burn =>
      have hlit : t.missile.exploded ≠ 0#32 := (turn_eq_burn t.missile).mp hturn
      change (_ ∧ ∃ f, _ ∈ (Sky.burn _ t).fleet ∧ _) ∨
        (_ ∧ ((Sky.burn _ t).fleet.map Flying.addr).Sublist _)
      unfold burn
      by_cases hone : t.missile.exploded = 1
      · rw [if_pos hone]
        have haddrs : Flying.addr ∘ strike t.missile = Flying.addr :=
          funext fun u => strike_addr t.missile u
        refine Or.inr ⟨by simp [goes, hone], ?_⟩
        simp only [fleet, Sky.drop, poke, blast, List.append_assoc, List.take_append_drop,
          List.map_append, List.map_map, haddrs]
        exact List.Sublist.refl _
      · rw [if_neg hone]
        have hone' : ¬ t.missile.exploded = 1#32 := hone
        exact Or.inl ⟨by simp [goes, hone', hlit], _, hself _ _, Or.inl ⟨hlit, rfl, rfl, rfl⟩⟩
  | leave =>
      obtain ⟨hzero, hout⟩ := (turn_eq_leave t.missile).mp hturn
      refine Or.inr ⟨by simp [goes, hzero, hout], ?_⟩
      simp only [fleet, Sky.drop, poke, List.append_assoc, List.take_append_drop, List.map_append]
      exact List.Sublist.refl _
  | reach =>
      obtain ⟨hzero, hin, htarget⟩ := (turn_eq_reach t.missile).mp hturn
      exact Or.inl ⟨by simp [goes, hzero, hin], _, hself _ _, Or.inr (Or.inr ⟨hzero, htarget, rfl⟩)⟩
  | fly =>
      obtain ⟨hzero, hin, -⟩ := (turn_eq_fly t.missile).mp hturn
      exact Or.inl ⟨by simp [goes, hzero, hin], _, hself _ _, Or.inr (Or.inl ⟨rfl, rfl, rfl⟩)⟩

end Sky

/-! ## The turns of the machine -/

section Machine

variable {fuel : ℕ} {g : Ground} {s : Sky} {m : Machine}

/-- A pass, however it ends, is a turn in the sky. -/
theorem PassEnds.at {r : Option (Exit × Machine)} (h : PassEnds fuel g s r) :
    ∃ exit m', r = some (exit, m') ∧ At g s m' := by
  rcases h with ⟨-, m', hr, hat⟩ | ⟨m', hr, hstarts⟩
  · exact ⟨.endOfUpdate, m', hr, hat⟩
  · exact ⟨.loopStart, m', hr, hstarts.under⟩

/-- The missile that has its turn, in the memory. -/
theorem Starts.missile (h : Starts fuel g s m) {t : Flying} {rest : List Flying}
    (htodo : s.todo = t :: rest) : m.stack.head? = some t.addr ∧
      ∃ w, m.mem.missileAt t.addr = some { t.missile with next := w } := by
  obtain ⟨u, todo, stack, htop, hstack⟩ := h.top
  obtain ⟨rfl, rfl⟩ := List.cons.inj (htodo.symm.trans htop)
  refine ⟨by rw [hstack]; rfl, h.under.holds.kept t ?_⟩
  simp [fleet, htodo]

/-- The block of a missile that went in its turn belongs to nobody any more. -/
theorem Starts.freed (h : Starts fuel g s m) {t : Flying} {rest : List Flying}
    (htodo : s.todo = t :: rest) {m' : Machine} (hat : At g s.pass m')
    (hgone : (s.pass.fleet.map Flying.addr).Sublist
      (s.done.map Flying.addr ++ rest.map Flying.addr)) :
    t.addr ∉ s.pass.fleet.map Flying.addr ∧ m'.mem.heap t.addr = none := by
  have hunder := h.under
  have hnodup := hunder.holds.listed.chain.nodup hunder.holds.listed.links_null
  rw [fleet, htodo, List.map_append, List.map_cons, List.nodup_middle, List.nodup_cons] at hnodup
  have hout : t.addr ∉ s.pass.fleet.map Flying.addr := fun hmem => hnodup.1 (hgone.subset hmem)
  refine ⟨hout, ?_⟩
  rw [hat.frame t.addr hout]
  apply hunder.apart t
  simp [fleet, htodo]

/-- **The missile on the stack has its turn.** -/
theorem Starts.hasTurn (h : Starts fuel g s m) {t : Flying} {rest : List Flying}
    (htodo : s.todo = t :: rest) : HasTurn fuel m t.addr := by
  obtain ⟨hstack, w, hw⟩ := h.missile htodo
  obtain ⟨exit, m', hrun, hat⟩ := (updateMissilesLoopStart_passEnds h).at
  refine ⟨hstack, { t.missile with next := w }, exit, m', hw, hrun, ?_⟩
  rcases pass_advances htodo with ⟨-, f, hf, hadvanced⟩ | ⟨-, hgone⟩
  · obtain ⟨y, hy⟩ := hat.holds.kept _ hf
    exact Or.inr ⟨{ f with next := y }, missileAt_eq_some.mp hy, hadvanced⟩
  · exact Or.inl (h.freed htodo hat hgone).2

/-- **The turns of the machine** are the turns in the sky. -/
theorem loopStarts_served (n : ℕ) : ∀ {s : Sky} {m : Machine}, Starts fuel g s m →
    List.Forall₂ (fun p a => ∃ s' t rest, Starts fuel g s' p ∧ s'.todo = t :: rest ∧ t.addr = a)
      (loopStarts fuel n m) (served n s) := by
  induction n with
  | zero => exact fun _ => List.Forall₂.nil
  | succ n ih =>
      intro s m h
      obtain ⟨t, rest, stack, htodo, -⟩ := h.top
      rw [served_cons htodo, loopStarts]
      refine List.Forall₂.cons ⟨s, t, rest, h, htodo, rfl⟩ ?_
      rcases updateMissilesLoopStart_passEnds h with ⟨hnil, m', hrun, -⟩ | ⟨m', hrun, hstarts⟩
      · rw [hrun]
        cases n with
        | zero => exact List.Forall₂.nil
        | succ n =>
            rw [served, hnil]
            exact List.Forall₂.nil
      · rw [hrun]
        exact ih hstarts

theorem heads_of_turns {turns : List Machine} {addrs : List Word}
    (h : List.Forall₂ (HasTurn fuel) turns addrs) :
    turns.map (fun p => p.stack.head?) = addrs.map some := by
  induction h with
  | nil => rfl
  | cons hturn _ ih => rw [List.map_cons, List.map_cons, hturn.1, ih]

/-- Whoever is among those that have a turn has one, and no other. -/
theorem servedOnce_iff {turns : List Machine} {addrs : List Word}
    (h : List.Forall₂ (HasTurn fuel) turns addrs) (hnodup : addrs.Nodup) (a : Word) :
    ServedOnce fuel turns a ↔ a ∈ addrs := by
  induction h with
  | nil =>
      refine iff_of_false ?_ List.not_mem_nil
      rintro ⟨before, p, after, heq, -⟩
      cases before <;> cases heq
  | @cons p b turns addrs hturn hturns ih =>
      obtain ⟨hb, hrest⟩ := List.nodup_cons.mp hnodup
      by_cases hself : a = b
      · subst hself
        refine iff_of_true ⟨[], p, turns, rfl, hturn, ?_⟩ List.mem_cons_self
        intro q hq hhead
        have hin : q.stack.head? ∈ turns.map fun p => p.stack.head? := List.mem_map_of_mem hq
        rw [hhead, heads_of_turns hturns] at hin
        exact hb (by simpa using hin)
      · rw [List.mem_cons, or_iff_right hself, ← ih hrest]
        have hhead : p.stack.head? ≠ some a := by
          rw [hturn.1]
          exact fun heq => hself (Option.some.inj heq).symm
        constructor
        · rintro ⟨before, q, after, heq, hq, hothers⟩
          cases before with
          | nil =>
              obtain ⟨rfl, -⟩ := List.cons.inj heq
              exact absurd hq.1 hhead
          | cons r before =>
              obtain ⟨-, rfl⟩ := List.cons.inj heq
              exact ⟨before, q, after, rfl, hq, fun x hx => hothers x (List.mem_cons_of_mem r hx)⟩
        · rintro ⟨before, q, after, rfl, hq, hothers⟩
          exact ⟨p :: before, q, after, rfl, hq, List.forall_mem_cons.mpr ⟨hhead, hothers⟩⟩

/-- The turns of a tick. -/
theorem turnsOf_served (h : At g s m) (hfuel : s.fleet.length < fuel) :
    List.Forall₂ (fun p a => ∃ s' t rest,
        Starts fuel ⟨g.others, m.video, g.earlier⟩ s' p ∧ s'.todo = t :: rest ∧ t.addr = a)
      (turnsOf fuel m) (served fuel s.startTick) := by
  unfold turnsOf
  by_cases hzero : m.mem.missileList = 0
  · rw [if_pos hzero]
    have htodo : s.startTick.todo = [] := h.fleet_eq_nil hzero
    have hnone := served_sublist fuel s.startTick
    rw [htodo, List.map_nil, List.sublist_nil] at hnone
    rw [hnone]
    exact List.Forall₂.nil
  · rw [if_neg hzero]
    exact loopStarts_served fuel (h.starts hfuel hzero)

theorem allServed_iff {l : List Word} {fs : List Missile} (hl : Listed m.mem l)
    (hfuel : l.length < fuel) (hfs : l.map m.mem.missileAt = fs.map some) :
    (∀ a ∈ l, ServedOnce fuel (turnsOf fuel m) a) ↔ Orderly fs := by
  obtain ⟨g, s, added, hat, haddrs, hfleet, -⟩ := exists_sky hl
  have hlen : s.fleet.length < fuel := by
    rw [← haddrs, List.length_map] at hfuel
    exact hfuel
  have hmissiles : s.fleet.map Flying.missile = fs := by
    apply List.map_injective_iff.mpr (Option.some_injective Missile)
    rw [← hfs, ← haddrs, List.map_map, List.map_map]
    apply List.map_congr_left
    intro u hu
    exact (hfleet u hu).symm
  have hturns : List.Forall₂ (HasTurn fuel) (turnsOf fuel m) (served fuel s.startTick) := by
    refine (turnsOf_served hat hlen).imp ?_
    rintro p a ⟨s', t, rest, hp, htop, rfl⟩
    exact hp.hasTurn htop
  have htodo : s.startTick.todo = s.fleet := rfl
  have hsub := served_sublist fuel s.startTick
  rw [htodo, haddrs] at hsub
  have hnodup := hl.chain.nodup hl.links_null
  have honce := servedOnce_iff hturns (hnodup.sublist hsub)
  have hserved : served fuel s.startTick = l ↔ Orderly fs := by
    rw [← haddrs]
    have hstart : s.startTick.todo.map Flying.missile = fs.map (leftBy []) := by
      rw [htodo, hmissiles, leftBy_nil, List.map_id]
    exact served_eq_iff fuel hlen.le hstart
  rw [← hserved]
  constructor
  · intro hall
    apply hsub.eq_of_length_le
    have hsubset : l ⊆ served fuel s.startTick := fun a ha => (honce a).mp (hall a ha)
    exact (List.subperm_of_subset hnodup hsubset).length_le
  · intro heq a ha
    rw [honce, heq]
    exact ha

end Machine

/-- **Every missile is served once** in a tick if and only if no missile goes that another one
follows, unless it is hit first. -/
theorem servedOnce_iff_orderly {fuel : ℕ} {m : Machine} {l : List Word} {fs : List Missile}
    (hl : Listed m.mem l) (hfuel : l.length < fuel) (hfs : l.map m.mem.missileAt = fs.map some) :
    (∃ m', call (updateMissiles fuel) m = some m') ∧
      ((∀ a ∈ l, ServedOnce fuel (turnsOf fuel m) a) ↔ Orderly fs) := by
  obtain ⟨g, s, added, hat, haddrs, -⟩ := exists_sky hl
  have hlen : s.fleet.length < fuel := by
    rw [← haddrs, List.length_map] at hfuel
    exact hfuel
  obtain ⟨m', hrun, -⟩ := updateMissiles_tick hat hlen
  exact ⟨⟨m', hrun⟩, allServed_iff hl hfuel hfs⟩

/-- An interceptor that burns for the last tick, and an enemy behind it. -/
def lastFlame : List Missile :=
  [⟨128, 0x140000, 0x50000, 0, 0, 20, 5, 1, 42⟩, ⟨0, 0x300000, 0x50000, 0, 16, 48, 24, 0, 101⟩]

def burningOut : Machine := { idle with mem := { idle.mem with
  heap := Function.update (Function.update idle.mem.heap
    64 (some (.missile ⟨128, 0x140000, 0x50000, 0, 0, 20, 5, 1, 42⟩)))
    128 (some (.missile ⟨0, 0x300000, 0x50000, 0, 16, 48, 24, 0, 101⟩))
  missileList := 64 } }

theorem listed_burningOut : Listed burningOut.mem [64, 128] :=
  ⟨⟨rfl, 128, rfl, rfl, 0, rfl, rfl⟩, rfl⟩

/-- The enemy has no turn in the tick in which the interceptor goes. -/
theorem burningOut_skips : ¬ ∀ a ∈ [(64 : Word), 128], ServedOnce 3 (turnsOf 3 burningOut) a := by
  have hfs : [(64 : Word), 128].map burningOut.mem.missileAt = lastFlame.map some := rfl
  rw [allServed_iff listed_burningOut (by decide) hfs]
  intro horderly
  have hhit := horderly [] _ _ rfl (List.cons_ne_nil _ _) (by decide)
  cases hhit

theorem servedOnce_iff_orderly_burningOut :
    (∃ m', call (updateMissiles 3) burningOut = some m') ∧
      ((∀ a ∈ [(64 : Word), 128], ServedOnce 3 (turnsOf 3 burningOut) a) ↔ Orderly lastFlame) :=
  servedOnce_iff_orderly listed_burningOut (by decide) rfl

end MachineProblems.Analysis.Mp1
