import MachineProblems.Analysis.Adventure.Handling

/-!
# The inventory

The inventory is a room that the player looks into from another room and leaves for that room.
While it is not too full each object in it has a place of its own, and a new object gets the
first place that is free.
-/

set_option autoImplicit false

namespace MachineProblems.Analysis.Adventure

open MachineProblems.Library MachineProblems.Program.Adventure MachineProblems.Program.PhotoFile
  MachineProblems.Model

variable {disk : Disk} {rands : ℕ → ℕ} {P : Photo → Prop} {w w' : World} {r : RoomId}

/-! ## Names in play -/

/-- The game is in order, and the objects have their names. -/
structure Stocked (P : Photo → Prop) (p : Play) : Prop where
  playing : Playing P p
  titled : Titled p.world

theorem stocked_start {w₀ : World} (hbuild : buildWorld disk rands = some w₀) :
    Stocked (OnDisk disk) ⟨w₀, some startInRoom⟩ :=
  ⟨playing_start hbuild, (buildWorld_built hbuild).title⟩

/-- A message changes nothing of this. -/
theorem Stocked.of_sameBut {rptr : Option RoomId} (h : Stocked P ⟨w, rptr⟩) (hw : SameBut w w') :
    Stocked P ⟨w', rptr⟩ := by
  obtain ⟨⟨hsound, hgated, hwon⟩, htitled⟩ := h
  have hquest : quest w' rptr = quest w rptr := quest_sameBut hw rptr
  refine ⟨⟨hsound.of_sameBut hw, ?_, ?_⟩, ?_⟩
  · rw [hquest]
    exact hgated
  · rw [hquest]
    exact hwon
  · exact htitled.of_name fun a => by rw [object_sameBut hw]

/-- A call of the player does to the objects what the call may do. -/
theorem Stocked.handles {p p' : Play} (h : Stocked P p) {call : Call}
    (hstep : playStep p call = some p') :
    Handles (given call) (gained call) p.world p'.world := by
  obtain ⟨w, rptr⟩ := p
  cases rptr with
  | none =>
      obtain rfl := Option.some.inj hstep
      exact .sheds (sheds_of_object rfl)
  | some r =>
      obtain ⟨out, hrun, rfl⟩ := Option.map_eq_some_iff.mp hstep
      exact perform_handled h.playing.sound h.titled h.playing.gated call out hrun

theorem playStep_stocked {p p' : Play} {call : Call} (h : Stocked P p)
    (hstep : playStep p call = some p') : Stocked P p' := by
  obtain ⟨q, hstep', hq⟩ := playStep_playing h.playing call
  obtain rfl := Option.some.inj (hstep.symm.trans hstep')
  exact ⟨hq, h.titled.of_name (h.handles hstep).name⟩

/-! ## The way in -/

/-- The command leads into the inventory from there only. -/
def Outside (r : RoomId) (result : Option Outcome) : Prop :=
  ∀ out, result = some out → out.rptr = some .inventory → r = .inventory

theorem outside_ite {c : Prop} [Decidable c] {t e : Option Outcome}
    (ht : Outside r t) (he : Outside r e) : Outside r (if c then t else e) := by
  split
  · exact ht
  · exact he

theorem outside_bind {α : Type} (x : Option α) {k : α → Option Outcome}
    (hk : ∀ a, Outside r (k a)) : Outside r (x >>= k) := by
  intro out hout
  obtain ⟨a, -, hout⟩ := Option.bind_eq_some_iff.mp hout
  exact hk a out hout

/-- The player stays. -/
theorem outside_here (w : World) (a : TcAction) : Outside r (some ⟨w, some r, a⟩) := by
  intro out hout hrptr
  obtain rfl := Option.some.inj hout
  exact Option.some.inj hrptr

theorem outside_stay (w : World) (s : String) (a : TcAction) : Outside r (stay w r s a) :=
  outside_here _ a

/-- The player goes somewhere else. -/
theorem outside_away {w : World} {rptr : Option RoomId} (hrptr : rptr ≠ some .inventory)
    (a : TcAction) : Outside r (some ⟨w, rptr, a⟩) := by
  intro out hout hinv
  obtain rfl := Option.some.inj hout
  exact absurd hinv hrptr

theorem typedCmd_outside {c : CmdId} (hc : c ≠ .inventory) (w : World) (r : RoomId)
    (arg : Text) : Outside r (typedCmd c w r arg) := by
  cases c
  case inventory => exact absurd rfl hc
  -- the others end in messages, changes of the world, and rooms named in the code
  all_goals
    repeat' first
      | exact outside_stay _ _ _
      | exact outside_here _ _
      | exact outside_away (by decide) _
      | apply outside_ite
      | refine outside_bind _ fun _ => ?_
      | split

theorem tryToMove_outside {link : Room → Option RoomId}
    (hlink : ∀ dest, link (w.room r) = some dest → dest ≠ .inventory) :
    Outside r (tryToMove link w r) := by
  unfold tryToMove
  cases hdest : link (w.room r) with
  | some dest => exact outside_away (fun heq => hlink dest hdest (Option.some.inj heq)) _
  | none => exact outside_ite (outside_stay _ _ _) (outside_stay _ _ _)

theorem tryToEnter_outside (hlink : ∀ dest, (w.room r).enter = some dest → dest ≠ .inventory) :
    Outside r (tryToEnter w r) := by
  unfold tryToEnter
  cases hdest : (w.room r).enter with
  | some dest => exact outside_away (fun heq => hlink dest hdest (Option.some.inj heq)) _
  | none =>
      repeat' first
        | exact outside_stay _ _ _
        | exact outside_away (by decide) _
        | apply outside_ite
        | refine outside_bind _ fun _ => ?_

/-- **The inventory is opened by its command only.** -/
theorem perform_outside (hg : Gated (quest w (some r))) {call : Call}
    (hcall : ∀ arg, call ≠ .typed .inventory arg) : Outside r (perform call w r) := by
  have hlink : ∀ dest, (w.room r).left = some dest ∨ (w.room r).enter = some dest ∨
      (w.room r).right = some dest → dest ≠ .inventory :=
    fun dest hdest => (hg.follow rfl hdest).1
  cases call with
  | moveLeft => exact tryToMove_outside fun dest hdest => hlink dest (Or.inl hdest)
  | enter => exact tryToEnter_outside fun dest hdest => hlink dest (Or.inr (Or.inl hdest))
  | moveRight => exact tryToMove_outside fun dest hdest => hlink dest (Or.inr (Or.inr hdest))
  | typed c arg =>
      refine typedCmd_outside ?_ w r arg
      rintro rfl
      exact hcall arg rfl

/-! ## The way back -/

/-- While the player looks into the inventory, nothing changes its way back. -/
theorem enter_inventory_deed {q q' : Quest} (hdeed : q.Deed q') (hr : q.rptr = some .inventory) :
    q'.enter .inventory = q.enter .inventory := by
  cases hdeed
  case openInventory r hr' hne =>
    rw [hr] at hr'
    exact absurd (Option.some.inj hr').symm hne
  all_goals simp

/-- The player has opened the inventory in the room `r`, and has looked into it ever since. -/
def OpenedIn (p₀ : Play) (calls : List Call) (p : Play) (r : RoomId) : Prop :=
  ∃ before arg after q q', calls = before ++ .typed .inventory arg :: after ∧
    run playStep p₀ before = some q ∧ q.rptr = some r ∧
    playStep q (.typed .inventory arg) = some q' ∧ run playStep q' after = some p ∧
    everyStep playStep (fun q _ => q.rptr = some .inventory) q' after

/-- The way back leads to the real room `r`. -/
structure Detour (P : Photo → Prop) (r : RoomId) (p : Play) : Prop where
  stocked : Stocked P p
  back : (p.world.room .inventory).enter = some r
  real : r ≠ .inventory

/-- One call that ends in the inventory. -/
theorem playStep_detour {p p' : Play} {call : Call} (h : Stocked P p)
    (hstep : playStep p call = some p') (hin : p'.rptr = some .inventory) :
    (p.rptr = some .inventory ∧
        (p'.world.room .inventory).enter = (p.world.room .inventory).enter) ∨
      ∃ r arg, p.rptr = some r ∧ call = .typed .inventory arg ∧ Detour P r p' := by
  have h' := playStep_stocked h hstep
  obtain ⟨w, rptr⟩ := p
  cases rptr with
  | none =>
      obtain rfl := Option.some.inj hstep
      cases hin
  | some r =>
      obtain ⟨out, hrun, rfl⟩ := Option.map_eq_some_iff.mp hstep
      by_cases hr : r = .inventory
      · subst hr
        have hdeed := (perform_follows h.playing.sound hrun).deed
        exact Or.inl ⟨rfl, enter_inventory_deed hdeed rfl⟩
      · by_cases hcall : ∃ arg, call = .typed .inventory arg
        · obtain ⟨arg, rfl⟩ := hcall
          refine Or.inr ⟨r, arg, rfl, rfl, h', ?_, hr⟩
          have hopen : typedCmdInventory w r = some out := hrun
          rw [typedCmdInventory, if_neg hr] at hopen
          obtain rfl := Option.some.inj hopen
          simp
        · have hnot : ∀ arg, call ≠ .typed .inventory arg := fun arg heq => hcall ⟨arg, heq⟩
          exact absurd (perform_outside h.playing.gated hnot out hrun hin) hr

/-- **The history**: in the inventory, the way back is where it was last opened. -/
theorem run_detour {p₀ p : Play} {calls : List Call} (h₀ : Stocked P p₀)
    (hout : p₀.rptr ≠ some .inventory) (hrun : run playStep p₀ calls = some p)
    (hin : p.rptr = some .inventory) : ∃ r, OpenedIn p₀ calls p r ∧ Detour P r p := by
  let History : List Call → Play → Prop := fun seen q => run playStep p₀ seen = some q ∧
    Stocked P q ∧ (q.rptr = some .inventory → ∃ r, OpenedIn p₀ seen q r ∧ Detour P r q)
  have hstep : ∀ seen q call q', History seen q → playStep q call = some q' →
      History (seen ++ [call]) q' := by
    rintro seen q call q' ⟨hseen, hq, hhistory⟩ hstep
    have hq' := playStep_stocked hq hstep
    refine ⟨by simp [run_append, hseen, hstep], hq', fun hin => ?_⟩
    rcases playStep_detour hq hstep hin with ⟨hstay, henter⟩ | ⟨r, arg, hr, rfl, hdetour⟩
    · obtain ⟨r, ⟨before, arg, after, m, m', hsplit, hbefore, hm, hopen, hafter, hinside⟩,
        hdetour⟩ := hhistory hstay
      refine ⟨r, ⟨before, arg, after ++ [call], m, m', ?_, hbefore, hm, hopen, ?_, ?_⟩, hq', ?_,
        hdetour.real⟩
      · rw [hsplit]
        simp
      · simp [run_append, hafter, hstep]
      · exact everyStep_concat hinside hafter hstay
      · exact henter.trans hdetour.back
    · exact ⟨r, ⟨seen, arg, [], q, q', rfl, hseen, hr, hstep, rfl, trivial⟩, hdetour⟩
  have hstart : History [] p₀ := ⟨rfl, h₀, fun heq => absurd heq hout⟩
  exact (run_collects hstep hstart hrun).2.2 hin

/-- The way back stays while the player looks into the inventory. -/
theorem run_inside {p q : Play} {calls : List Call} {r : RoomId} (h : Detour P r p)
    (hrun : run playStep p calls = some q)
    (hinside : everyStep playStep (fun q _ => q.rptr = some .inventory) p calls) :
    Detour P r q := by
  refine run_of_everyStep (fun m call m' hm hr hstep => ?_) h hinside hrun
  refine ⟨playStep_stocked hm.stocked hstep, ?_, hm.real⟩
  obtain ⟨w, rptr⟩ := m
  obtain rfl : rptr = some .inventory := hr
  obtain ⟨out, hcall, rfl⟩ := Option.map_eq_some_iff.mp hstep
  exact (enter_inventory_deed (perform_follows hm.stocked.playing.sound hcall).deed rfl).trans
    hm.back

/-- What a player finds who looks into the inventory from the room `r`. -/
structure View (p : Play) (r : RoomId) : Prop where
  close : ∀ arg, ∃ p', playStep p (.typed .inventory arg) = some p' ∧ p'.rptr = some r
  leave : ∃ p', playStep p .enter = some p' ∧ p'.rptr = some r
  drop : ∀ arg, ∃ p', playStep p (.typed .drop arg) = some p' ∧
    ∀ o, loc p'.world o = loc p.world o ∨
      loc p.world o = some .inventory ∧ loc p'.world o = some r
  get : ∀ arg, ∃ p', playStep p (.typed .get arg) = some p' ∧
    ∀ o ∈ backpack p'.world, o ∈ backpack p.world ∨ loc p.world o = some r ∨
      loc p.world o = none

theorem Detour.view {p : Play} (h : Detour P r p) (hin : p.rptr = some .inventory) :
    View p r := by
  obtain ⟨w, rptr⟩ := p
  obtain rfl : rptr = some .inventory := hin
  have hback : (w.room .inventory).enter = some r := h.back
  have hsound := h.stocked.playing.sound
  have hstanding : (quest w (some .inventory)).standing = some r := hback
  refine ⟨fun arg => ?_, ?_, fun arg => ?_, fun arg => ?_⟩
  · refine ⟨⟨w, some r⟩, ?_, rfl⟩
    simp [playStep, perform, typedCmd, typedCmdInventory, hback]
  · refine ⟨⟨arriveIn w r, some r⟩, ?_, rfl⟩
    simp [playStep, perform, tryToEnter, hback]
  · obtain ⟨out, hrun, -, hdrop⟩ := typedCmdDrop_drops hsound hstanding h.real arg
    refine ⟨⟨out.world, out.rptr⟩, congrArg (Option.map _) hrun, fun a => ?_⟩
    rcases hdrop with hobject | ⟨o, hcarried, hsheds, hplace⟩
    · exact Or.inl (stays_of_object hobject a).1
    · by_cases ha : a = o
      · subst ha
        exact Or.inr ⟨hcarried, hplace⟩
      · exact Or.inl (hsheds.stays a ha).1
  · obtain ⟨out, hrun, -, htakes⟩ :=
      typedCmdGet_takes hsound h.stocked.titled hstanding arg
    exact ⟨⟨out.world, out.rptr⟩, congrArg (Option.map _) hrun,
      fun a ha => htakes.source h.stocked.playing.gated ha⟩

/-- **The inventory is a detour**: it leads back to the room where it was last opened, however
long the player looks into it, and objects are taken from that room and dropped there. -/
theorem inventory_detour {w₀ : World} (hbuild : buildWorld disk rands = some w₀)
    {calls : List Call} {p : Play} (hrun : run playStep ⟨w₀, some startInRoom⟩ calls = some p)
    (hin : p.rptr = some .inventory) :
    ∃ r, r ≠ .inventory ∧ (p.world.room .inventory).enter = some r ∧
      OpenedIn ⟨w₀, some startInRoom⟩ calls p r ∧
      ∀ more q, run playStep p more = some q →
        everyStep playStep (fun q _ => q.rptr = some .inventory) p more →
        q.rptr = some .inventory → (q.world.room .inventory).enter = some r ∧ View q r := by
  obtain ⟨r, hopened, hdetour⟩ := run_detour (stocked_start hbuild)
    (fun heq => absurd (Option.some.inj heq) (by decide)) hrun hin
  refine ⟨r, hdetour.real, hdetour.back, hopened, fun more q hmore hinside hq => ?_⟩
  have hdetour' := run_inside hdetour hmore hinside
  exact ⟨hdetour'.back, hdetour'.view hq⟩

theorem inventory_detour_blankDisk : ∃ w₀ p r, buildWorld blankDisk (fun _ => 0) = some w₀ ∧
    run playStep ⟨w₀, some startInRoom⟩ [.moveLeft, .typed .inventory [], .typed .get []] =
      some p ∧ (p.world.room .inventory).enter = some r ∧ r ≠ .inventory := by
  obtain ⟨w₀, hbuild⟩ := buildWorld_blankDisk
  have hopens : ((buildWorld blankDisk fun _ => 0).bind fun w =>
      (run playStep ⟨w, some startInRoom⟩ [.moveLeft, .typed .inventory [], .typed .get []]).map
        fun p => decide (p.rptr = some .inventory)) = some true := by
    decide +kernel
  rw [hbuild, Option.bind_some] at hopens
  obtain ⟨p, hrun, hin⟩ := Option.map_eq_some_iff.mp hopens
  obtain ⟨r, hreal, hback, -⟩ := inventory_detour hbuild hrun (of_decide_eq_true hin)
  exact ⟨w₀, p, r, hbuild, hrun, hback, hreal⟩

/-! ## Places -/

/-- The objects in the inventory. -/
def carried (w : World) : List ObjId :=
  (objData.map ObjData.id).filter fun o => (w.object o).loc = some .inventory

theorem mem_carried {o : ObjId} : o ∈ carried w ↔ o ∈ backpack w := by
  simp [carried, mem_objData, backpack, loc]

/-- The inventory holds no more objects than it has places. -/
def Roomy (w : World) : Prop := (carried w).length ≤ 12

/-- The call does not overfill the inventory. -/
def LeavesRoomy (p : Play) (call : Call) : Prop :=
  ∀ p', playStep p call = some p' → Roomy p'.world

/-- Each object in the inventory has a place of its own. -/
def Slotted (w : World) : Prop := Packed grid (backpack w) (spot w)

section Stows

variable {w₁ : World} {o : ObjId}

/-- The places that the others have. -/
theorem Stows.others (h : Stows w₁ w' o) (hnew : o ∉ backpack w₁) :
    spot w' '' (backpack w' \ {o}) = spot w₁ '' backpack w₁ := by
  have hmem : ∀ a, a ∈ backpack w' \ {o} ↔ a ∈ backpack w₁ := by
    intro a
    constructor
    · rintro ⟨ha, hne⟩
      exact (h.stays a hne).1.symm.trans ha
    · intro ha
      have hne : a ≠ o := by
        rintro rfl
        exact hnew ha
      exact ⟨(h.stays a hne).1.trans ha, hne⟩
  ext c
  constructor
  · rintro ⟨a, ha, rfl⟩
    exact ⟨a, (hmem a).mp ha, (h.stays a ha.2).2.symm⟩
  · rintro ⟨a, ha, rfl⟩
    have ha' := (hmem a).mpr ha
    exact ⟨a, ha', (h.stays a ha'.2).2⟩

/-- Where there is room, the new object gets the first free place. -/
theorem Stows.firstFree (h : Stows w₁ w' o) (hnew : o ∉ backpack w₁) (hroomy : Roomy w') :
    FirstFree grid (spot w₁ '' backpack w₁) (spot w' o) := by
  rcases h.pocketed with hfree | hfull
  · exact hfree
  · -- twelve others and the new object are too many
    have hothers : ∀ a ∈ backpack w₁, a ∈ (Adventure.carried w').erase o := by
      intro a ha
      have hne : a ≠ o := by
        rintro rfl
        exact hnew ha
      exact (List.mem_erase_of_ne hne).mpr (mem_carried.mpr ((h.stays a hne).1.trans ha))
    have hle := length_le_of_full (by decide) hfull hothers
    have hmem : o ∈ Adventure.carried w' := mem_carried.mpr h.carried
    have hgrid : grid.length = 12 := rfl
    have hpos := List.length_pos_of_mem hmem
    rw [List.length_erase_of_mem hmem] at hle
    unfold Roomy at hroomy
    omega

end Stows

theorem Handles.slotted {objs into : Set ObjId} (h : Handles objs into w w') (hw : Slotted w)
    (hroomy : Roomy w') : Slotted w' := by
  cases h with
  | sheds h => exact hw.lighten h.lighter
  | stows w₁ o _ hsheds hnew hstows =>
      have hnew₁ : o ∉ backpack w₁ := fun hin => hnew (hsheds.lighter o hin).1
      have hw₁ : Slotted w₁ := Packed.lighten hw hsheds.lighter
      refine hw₁.add (fun a ha hne => ?_) (hstows.firstFree hnew₁ hroomy)
      obtain ⟨hloc, hspot⟩ := hstows.stays a hne
      exact ⟨hloc.symm.trans ha, hspot⟩

/-- A new object in the inventory has the first place that the others leave. -/
theorem Handles.firstFree {objs into : Set ObjId} (h : Handles objs into w w')
    (hroomy : Roomy w') {o : ObjId} (hin : o ∈ backpack w') (hnew : o ∉ backpack w) :
    FirstFree grid (spot w' '' (backpack w' \ {o})) (spot w' o) := by
  cases h with
  | sheds h => exact absurd (h.lighter o hin).1 hnew
  | stows w₁ a _ hsheds _ hstows =>
      have hnew₁ : o ∉ backpack w₁ := fun hin₁ => hnew (hsheds.lighter o hin₁).1
      obtain rfl : o = a := by
        by_contra hne
        exact hnew₁ ((hstows.stays o hne).1.symm.trans hin)
      rw [hstows.others hnew₁]
      exact hstows.firstFree hnew₁ hroomy

theorem Built.slotted {w₀ : World} (h : Built disk w₀) : Slotted w₀ := by
  have hempty : ∀ o, startingPlace o ≠ some .inventory := by
    intro o
    cases o <;> decide
  have hbag : backpack w₀ = ∅ := by
    ext o
    simp [backpack, h.loc, hempty o]
  unfold Slotted
  rw [hbag]
  exact packed_empty grid (spot w₀)

/-- **The places in the inventory do not collide** as long as it holds no more than twelve
objects, and each new object gets the first place that is free. -/
theorem inventory_slotted {w₀ : World} (hbuild : buildWorld disk rands = some w₀)
    {calls : List Call} (hroomy : everyStep playStep LeavesRoomy ⟨w₀, some startInRoom⟩ calls)
    {p : Play} (hrun : run playStep ⟨w₀, some startInRoom⟩ calls = some p) :
    (∀ o ∈ backpack p.world, spot p.world o ∈ grid) ∧
      (∀ o ∈ backpack p.world, ∀ o' ∈ backpack p.world, o ≠ o' →
        spot p.world o ≠ spot p.world o') ∧
      ∀ call p', playStep p call = some p' → Roomy p'.world →
        ∀ o ∈ backpack p'.world, o ∉ backpack p.world →
          FirstFree grid (spot p'.world '' (backpack p'.world \ {o})) (spot p'.world o) := by
  let Good : Play → Prop := fun p => Stocked (OnDisk disk) p ∧ Slotted p.world
  have hstep : ∀ q call q', Good q → LeavesRoomy q call → playStep q call = some q' →
      Good q' := by
    rintro q call q' ⟨hq, hslotted⟩ hleaves hstep
    exact ⟨playStep_stocked hq hstep, (hq.handles hstep).slotted hslotted (hleaves q' hstep)⟩
  have hstart : Good ⟨w₀, some startInRoom⟩ :=
    ⟨stocked_start hbuild, (buildWorld_built hbuild).slotted⟩
  obtain ⟨hp, hslotted⟩ := run_of_everyStep hstep hstart hroomy hrun
  refine ⟨hslotted.inside, fun o ho o' ho' hne heq => hne (hslotted.apart ho ho' heq), ?_⟩
  exact fun call p' hcall hroomy' o hin hnew => (hp.handles hcall).firstFree hroomy' hin hnew

theorem inventory_slotted_blankDisk : ∃ w₀ p, buildWorld blankDisk (fun _ => 0) = some w₀ ∧
    run playStep ⟨w₀, some startInRoom⟩ [.moveLeft, .typed .get "bunnysuit".toList] = some p ∧
      ObjId.bunnysuit ∈ backpack p.world ∧ spot p.world .bunnysuit ∈ grid := by
  obtain ⟨w₀, hbuild⟩ := buildWorld_blankDisk
  have hgets : ((buildWorld blankDisk fun _ => 0).bind fun w =>
      (playStep ⟨w, some startInRoom⟩ .moveLeft).bind fun p =>
        (playStep p (.typed .get "bunnysuit".toList)).map fun q =>
          decide ((carried p.world).length ≤ 12 ∧ carried q.world = [.bunnysuit])) =
      some true := by
    decide +kernel
  rw [hbuild, Option.bind_some] at hgets
  obtain ⟨p, hmove, hgets⟩ := Option.bind_eq_some_iff.mp hgets
  obtain ⟨q, hget, hgets⟩ := Option.map_eq_some_iff.mp hgets
  obtain ⟨hp, hq⟩ := of_decide_eq_true hgets
  have hroomy : everyStep playStep LeavesRoomy ⟨w₀, some startInRoom⟩
      [.moveLeft, .typed .get "bunnysuit".toList] := by
    refine ⟨fun p' hp' => ?_, fun p' hp' => ⟨fun q' hq' => ?_, fun _ _ => trivial⟩⟩
    · obtain rfl := Option.some.inj (hmove.symm.trans hp')
      exact hp
    · obtain rfl := Option.some.inj (hmove.symm.trans hp')
      obtain rfl := Option.some.inj (hget.symm.trans hq')
      simp [Roomy, hq]
  have hrun : run playStep ⟨w₀, some startInRoom⟩
      [.moveLeft, .typed .get "bunnysuit".toList] = some q := by
    rw [run_cons, hmove, Option.bind_some, run_cons, hget, Option.bind_some, run_nil]
  have hin : ObjId.bunnysuit ∈ backpack q.world := by
    rw [← mem_carried, hq]
    exact List.mem_singleton_self _
  exact ⟨w₀, q, hbuild, hrun, hin, (inventory_slotted hbuild hroomy hrun).1 _ hin⟩

/-! ## What `get` takes -/

/-- Nothing in the rooms, of the objects or of the flags has changed. -/
def Untouched (w w' : World) : Prop :=
  w'.room = w.room ∧ w'.object = w.object ∧ w'.playerFlags = w.playerFlags

/-- One object came into the inventory, its name is the argument, and every object with another
name is where it was. -/
def Fetches (w w' : World) (arg : Text) : Prop :=
  ∃ o, o ∉ backpack w ∧ o ∈ backpack w' ∧ named w arg o ∧
    (∀ a ∈ backpack w', a = o ∨ a ∈ backpack w) ∧
    ∀ a, (w.object a).name ≠ (w.object o).name → Stays w w' a

theorem untouched_sameBut (h : SameBut w w') : Untouched w w' := by
  obtain ⟨rands, msg, rfl⟩ := h
  exact ⟨rfl, rfl, rfl⟩

/-- One object is put into the inventory after others with its name were taken away. -/
theorem Stows.fetches {w₁ : World} {o : ObjId} {objs : Set ObjId} {arg : Text}
    (h : Stows w₁ w' o) (hsheds : Sheds objs w w₁)
    (hobjs : ∀ a ∈ objs, (w.object a).name = (w.object o).name) (hnew : o ∉ backpack w)
    (hnamed : named w arg o) : Fetches w w' arg := by
  refine ⟨o, hnew, h.carried, hnamed, fun a ha => ?_, fun a ha => ?_⟩
  · by_cases hao : a = o
    · exact Or.inl hao
    · exact Or.inr (hsheds.lighter a ((h.stays a hao).1.symm.trans ha)).1
  · have hao : a ≠ o := by
      rintro rfl
      exact ha rfl
    exact (hsheds.stays a fun hin => ha (hobjs a hin)).trans (h.stays a hao)

/-- The battery from the car was asked for exactly if it is taken by its name. -/
theorem unplugs_iff {w₁ : World} {src : RoomId} (ht : Titled w)
    (hg : Gated (quest w (some r))) (hplug : Plugged w src) (hsheds : Sheds {.battCar} w w₁)
    (hstows : Stows w₁ w' .battEmpty) (arg : Text) :
    Untouched w w' ∨ Fetches w w' arg ↔ strcasecmp "battery" arg := by
  have hnew : ObjId.battEmpty ∉ backpack w :=
    fun hin => Option.some_ne_none _ (hin.symm.trans (hplug.battEmpty hg))
  have hnamed : named w arg .battEmpty = strcasecmp "battery" arg := ht.named_eq (by decide) arg
  constructor
  · rintro (⟨-, hobject, -⟩ | ⟨o, hout, hin, harg, -⟩)
    · exact absurd ((stays_of_object hobject _).1.symm.trans hstows.carried) hnew
    · obtain rfl : o = .battEmpty := by
        by_contra hne
        exact hout (hsheds.lighter o ((hstows.stays o hne).1.symm.trans hin)).1
      rwa [← hnamed]
  · intro harg
    refine Or.inr (hstows.fetches hsheds ?_ hnew (hnamed.trans harg))
    rintro a rfl
    rw [ht ⟨.battCar, "battery", "images/batteryincar.obj", none, -1, -1⟩ (by simp [objData]),
      ht ⟨.battEmpty, "battery", "images/battery.obj", none, -1, -1⟩ (by simp [objData])]

/-- **`get` takes what was asked for**, unless the player stands at the car with the battery
still in it and asks for something else: then it takes the battery. -/
theorem get_named_iff {w₀ : World} (hbuild : buildWorld disk rands = some w₀)
    {calls : List Call} {p : Play} (hrun : run playStep ⟨w₀, some startInRoom⟩ calls = some p)
    (hr : p.rptr = some r) (arg : Text) :
    ∃ out, typedCmdGet p.world r arg = some out ∧
      ((Untouched p.world out.world ∨ Fetches p.world out.world arg) ↔
        ¬ ((quest p.world p.rptr).standing = some .carSite ∧
          (p.world.object .battCar).loc = some .carSite ∧ ¬ strcasecmp "battery" arg)) := by
  have hstep : ∀ q call q', Stocked (OnDisk disk) q → playStep q call = some q' →
      Stocked (OnDisk disk) q' := fun _ _ _ hq hcall => playStep_stocked hq hcall
  have hp := run_invariant hstep (stocked_start hbuild) hrun
  obtain ⟨w, rptr⟩ := p
  obtain rfl : rptr = some r := hr
  have hg := hp.playing.gated
  obtain ⟨src, hsrc⟩ := hg.anchored.standing
  obtain ⟨out, hget, -, htakes⟩ := typedCmdGet_takes hp.playing.sound hp.titled hsrc arg
  refine ⟨out, hget, ?_⟩
  -- without the battery in the car the condition is met
  have hfree : ¬ Plugged w src → ¬ ((quest w (some r)).standing = some .carSite ∧
      (w.object .battCar).loc = some .carSite ∧ ¬ strcasecmp "battery" arg) := by
    rintro hplug ⟨hsite, hcar, -⟩
    exact hplug ⟨Option.some.inj (hsrc.symm.trans hsite), hcar⟩
  cases htakes with
  | nothing hplug hsame => exact iff_of_true (Or.inl (untouched_sameBut hsame)) (hfree hplug)
  | picks w₁ o hplug hsame hnamed hloc hstows =>
      have hnew : o ∉ backpack w := by
        intro hin
        rcases hloc with hloc | hloc
        · exact (hg.here src hsrc).1 (Option.some.inj (hloc.symm.trans hin))
        · exact Option.some_ne_none _ (hin.symm.trans hloc)
      have hsheds : Sheds ∅ w w₁ := sheds_of_object (object_sameBut hsame)
      have hfetches : Fetches w out.world arg :=
        hstows.fetches hsheds (fun _ ha => ha.elim) hnew hnamed
      exact iff_of_true (Or.inr hfetches) (hfree hplug)
  | unplugs w₁ hplug hsheds hstows =>
      obtain ⟨rfl, hcar⟩ := hplug
      have hcar' : (w.object .battCar).loc = some .carSite := hcar
      rw [unplugs_iff hp.titled hg ⟨rfl, hcar⟩ hsheds hstows arg]
      simp [hsrc, hcar']

theorem get_named_iff_bunnysuit : ∃ w₀ p out, buildWorld blankDisk (fun _ => 0) = some w₀ ∧
    run playStep ⟨w₀, some startInRoom⟩ [.moveLeft] = some p ∧
      typedCmdGet p.world .almamater "bunnysuit".toList = some out ∧
        (Untouched p.world out.world ∨ Fetches p.world out.world "bunnysuit".toList) := by
  obtain ⟨w₀, hbuild⟩ := buildWorld_blankDisk
  have hmoves : ((buildWorld blankDisk fun _ => 0).bind fun w =>
      (run playStep ⟨w, some startInRoom⟩ [.moveLeft]).map
        fun p => decide (p.rptr = some .almamater)) = some true := by
    decide +kernel
  rw [hbuild, Option.bind_some] at hmoves
  obtain ⟨p, hrun, hmoves⟩ := Option.map_eq_some_iff.mp hmoves
  have hr : p.rptr = some .almamater := of_decide_eq_true hmoves
  obtain ⟨out, hget, hiff⟩ := get_named_iff hbuild hrun hr "bunnysuit".toList
  refine ⟨w₀, p, out, hbuild, hrun, hget, hiff.mpr ?_⟩
  rintro ⟨hsite, -⟩
  rw [hr] at hsite
  exact absurd (Option.some.inj hsite) (by decide)

/-- A way to the car with its key, which is used there. -/
def carRun : List Call :=
  walk "RRRERRE" ++ [.typed .get "key".toList] ++ walk "ERRERLRLEE" ++
    [.typed .use "car".toList]

/-- At the opened car a player who asks for a fish gets the battery. -/
theorem get_fish_battery : ∃ w₀ p out, buildWorld blankDisk (fun _ => 0) = some w₀ ∧
    run playStep ⟨w₀, some startInRoom⟩ carRun = some p ∧ p.rptr = some .carSite ∧
      typedCmdGet p.world .carSite "fish".toList = some out ∧
        ¬ (Untouched p.world out.world ∨ Fetches p.world out.world "fish".toList) := by
  obtain ⟨w₀, hbuild⟩ := buildWorld_blankDisk
  have hgets : ((buildWorld blankDisk fun _ => 0).bind fun w =>
      (run playStep ⟨w, some startInRoom⟩ carRun).bind fun p =>
        (typedCmdGet p.world .carSite "fish".toList).map fun out =>
          decide (p.rptr = some .carSite ∧ carried p.world = [] ∧
            carried out.world = [.battEmpty] ∧
            named p.world "fish".toList .battEmpty = false)) = some true := by
    decide +kernel
  rw [hbuild, Option.bind_some] at hgets
  obtain ⟨p, hrun, hgets⟩ := Option.bind_eq_some_iff.mp hgets
  obtain ⟨out, hget, hgets⟩ := Option.map_eq_some_iff.mp hgets
  obtain ⟨hr, hbefore, hafter, hname⟩ := of_decide_eq_true hgets
  refine ⟨w₀, p, out, hbuild, hrun, hr, hget, ?_⟩
  rintro (⟨-, hobject, -⟩ | ⟨o, -, hin, hnamed, -⟩)
  · unfold carried at hbefore hafter
    rw [hobject, hbefore] at hafter
    cases hafter
  · rw [← mem_carried, hafter, List.mem_singleton] at hin
    rw [hin, hname] at hnamed
    cases hnamed

end MachineProblems.Analysis.Adventure
