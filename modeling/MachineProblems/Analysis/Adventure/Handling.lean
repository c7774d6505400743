import MachineProblems.Analysis.Adventure.Playing

/-!
# What the commands do to the objects

A command takes some objects away from where they are, and may then put one into the inventory.
For each command it is known in advance which objects these can be; all others stay where they
are, down to the position in the room.
-/

set_option autoImplicit false

namespace MachineProblems.Analysis.Adventure

open MachineProblems.Library MachineProblems.Program.Adventure MachineProblems.Program.PhotoFile
  MachineProblems.Model

variable {P : Photo → Prop} {w w₁ w' : World} {r : RoomId} {o : ObjId} {objs into : Set ObjId}

/-! ## Taking away and putting into the inventory -/

/-- The object is where it was. -/
def Stays (w w' : World) (a : ObjId) : Prop := loc w' a = loc w a ∧ spot w' a = spot w a

/-- Some of `objs` were taken away or put elsewhere, but none into the inventory. -/
structure Sheds (objs : Set ObjId) (w w' : World) : Prop where
  name : ∀ a, (w'.object a).name = (w.object a).name
  stays : ∀ a, a ∉ objs → Stays w w' a
  lighter : ∀ a ∈ backpack w', a ∈ backpack w ∧ spot w' a = spot w a

/-- The object was put into the inventory. -/
structure Stows (w w' : World) (o : ObjId) : Prop where
  name : ∀ a, (w'.object a).name = (w.object a).name
  stays : ∀ a, a ≠ o → Stays w w' a
  carried : o ∈ backpack w'
  pocketed : Pocketed w w' o grid

theorem stays_of_object (hobject : w'.object = w.object) (a : ObjId) : Stays w w' a := by
  unfold Stays loc spot
  rw [hobject]
  exact ⟨rfl, rfl⟩

theorem object_sameBut (h : SameBut w w₁) : w₁.object = w.object := by
  obtain ⟨rands, msg, rfl⟩ := h
  rfl

theorem Stays.trans {w₂ : World} {a : ObjId} (h : Stays w w₁ a) (h' : Stays w₁ w₂ a) :
    Stays w w₂ a :=
  ⟨h'.1.trans h.1, h'.2.trans h.2⟩

theorem sheds_of_object (hobject : w'.object = w.object) : Sheds objs w w' where
  name := by
    intro a
    rw [hobject]
  stays := fun a _ => stays_of_object hobject a
  lighter := by
    intro a ha
    obtain ⟨hloc, hspot⟩ := stays_of_object hobject a
    exact ⟨hloc.symm.trans ha, hspot⟩

theorem Sheds.trans {w₂ : World} (h : Sheds objs w w₁) (h' : Sheds objs w₁ w₂) :
    Sheds objs w w₂ where
  name := fun a => (h'.name a).trans (h.name a)
  stays := fun a ha => (h.stays a ha).trans (h'.stays a ha)
  lighter := by
    intro a ha
    obtain ⟨ha₁, hspot₁⟩ := h'.lighter a ha
    obtain ⟨ha₀, hspot₀⟩ := h.lighter a ha₁
    exact ⟨ha₀, hspot₁.trans hspot₀⟩

theorem Moved.stays {dest : Option RoomId} (h : Moved w w' o dest) {a : ObjId} (ha : a ≠ o) :
    Stays w w' a := by
  obtain ⟨hx, hy⟩ := h.spot a ha
  constructor
  · rw [h.loc, Function.update_of_ne ha]
  · unfold Adventure.spot
    rw [hx, hy]

theorem Moved.sheds {dest : Option RoomId} (h : Moved w w' o dest)
    (hdest : dest ≠ some .inventory) (ho : o ∈ objs) : Sheds objs w w' where
  name := name_of_scenery h.scenery
  stays := by
    intro a ha
    apply h.stays
    rintro rfl
    exact ha ho
  lighter := by
    intro a ha
    have hne : a ≠ o := by
      rintro rfl
      apply hdest
      rw [← Function.update_self a dest (Adventure.loc w), ← h.loc]
      exact ha
    obtain ⟨hloc, hspot⟩ := h.stays hne
    exact ⟨hloc.symm.trans ha, hspot⟩

theorem removeObject_sheds (h : Sound P w) (ho : o ∈ objs) :
    ∃ w', removeObject w o = some w' ∧ Sound P w' ∧ Sheds objs w w' := by
  obtain ⟨s, hs⟩ := h.contained
  obtain ⟨w', hrun, hmoved, hc⟩ := removeObject_spec hs o
  have hsound := (hmoved.brings h.furnished hc).sound
  exact ⟨w', hrun, hsound, hmoved.sheds (Option.some_ne_none _).symm ho⟩

theorem insertObjectAt_sheds (h : Sound P w) {dest : RoomId} (hdest : dest ≠ .inventory)
    (ho : o ∈ objs) (x y : ℤ) :
    ∃ w', insertObjectAt w o dest x y = some w' ∧ Sheds objs w w' := by
  obtain ⟨s, hs⟩ := h.contained
  obtain ⟨w', hrun, hmoved, -⟩ := insertObjectAt_spec hs o dest x y
  exact ⟨w', hrun, hmoved.sheds (fun heq => hdest (Option.some.inj heq)) ho⟩

theorem moveObjectToInventory_stows (h : Sound P w) (o : ObjId) :
    ∃ w', moveObjectToInventory w o = some w' ∧ Stows w w' o := by
  obtain ⟨s, hs⟩ := h.contained
  obtain ⟨w', hrun, hmoved, -, hpocketed⟩ := moveObjectToInventory_spec h.furnished hs o
  refine ⟨w', hrun, name_of_scenery hmoved.scenery, fun _ ha => hmoved.stays ha, ?_, hpocketed⟩
  have hloc : loc w' o = some .inventory := by
    rw [hmoved.loc, Function.update_self]
  exact hloc

/-! ## Handling -/

/-- Some of `objs` were taken away or put elsewhere, and then at most one of `into`, which was
not in the inventory, was put there. -/
inductive Handles (objs into : Set ObjId) (w w' : World) : Prop
  | sheds (h : Sheds objs w w')
  | stows (w₁ : World) (o : ObjId) (ho : o ∈ into) (hsheds : Sheds objs w w₁)
      (hnew : o ∉ backpack w) (hstows : Stows w₁ w' o)

/-- The command does this to the objects if it does not fault. -/
def Handled (objs into : Set ObjId) (w : World) (result : Option Outcome) : Prop :=
  ∀ out, result = some out → Handles objs into w out.world

theorem Stows.of_object {w₂ : World} (h : Stows w w' o) (hobject : w₂.object = w'.object) :
    Stows w w₂ o := by
  have hloc : loc w₂ = loc w' := by
    funext a
    rw [loc, hobject, loc]
  have hspot : spot w₂ = spot w' := by
    funext a
    rw [spot, hobject, spot]
  obtain ⟨hname, hstays, hcarried, hpocketed⟩ := h
  refine ⟨?_, ?_, ?_, ?_⟩
  · rw [hobject]
    exact hname
  · unfold Stays
    rw [hloc, hspot]
    exact hstays
  · unfold backpack
    rw [hloc]
    exact hcarried
  · unfold Pocketed
    rw [hspot]
    exact hpocketed

theorem Handles.of_object {w₂ : World} (h : Handles objs into w w')
    (hobject : w₂.object = w'.object) : Handles objs into w w₂ := by
  cases h with
  | sheds h => exact .sheds (h.trans (sheds_of_object hobject))
  | stows w₁ o ho hsheds hnew hstows =>
      exact .stows w₁ o ho hsheds hnew (hstows.of_object hobject)

/-- An object that is not among `objs` stays in the inventory. -/
theorem Handles.keeps (h : Handles objs into w w') (ho : o ∉ objs) (hin : o ∈ backpack w) :
    o ∈ backpack w' := by
  cases h with
  | sheds h => exact (h.stays o ho).1.trans hin
  | stows w₁ a _ hsheds hnew hstows =>
      have hne : o ≠ a := by
        rintro rfl
        exact hnew hin
      exact ((hsheds.stays o ho).trans (hstows.stays o hne)).1.trans hin

/-- An object that is not among `into` does not get into the inventory. -/
theorem Handles.admits (h : Handles objs into w w') (ho : o ∉ into) (hin : o ∈ backpack w') :
    o ∈ backpack w := by
  cases h with
  | sheds h => exact (h.lighter o hin).1
  | stows w₁ a ha hsheds _ hstows =>
      have hne : o ≠ a := by
        rintro rfl
        exact ho ha
      exact (hsheds.lighter o ((hstows.stays o hne).1.symm.trans hin)).1

theorem Handles.name (h : Handles objs into w w') (a : ObjId) :
    (w'.object a).name = (w.object a).name := by
  cases h with
  | sheds h => exact h.name a
  | stows w₁ _ _ hsheds _ hstows => exact (hstows.name a).trans (hsheds.name a)

theorem handled_ite {c : Prop} [Decidable c] {t e : Option Outcome}
    (ht : c → Handled objs into w t) (he : ¬ c → Handled objs into w e) :
    Handled objs into w (if c then t else e) := by
  split
  · next hc => exact ht hc
  · next hc => exact he hc

theorem handled_some (h : Handles objs into w w₁) {out : Outcome}
    (hobject : out.world.object = w₁.object) : Handled objs into w (some out) := by
  intro out' hout
  obtain rfl := Option.some.inj hout
  exact h.of_object hobject

/-- No object was touched. -/
theorem handled_idle {out : Outcome} (hobject : out.world.object = w.object) :
    Handled objs into w (some out) :=
  handled_some (.sheds (sheds_of_object rfl)) hobject

theorem handled_stay {s : String} {a : TcAction} : Handled objs into w (stay w r s a) :=
  handled_idle rfl

/-! ## get -/

/-- The objects have the names that the table gives them. -/
def Titled (w : World) : Prop := ∀ d ∈ objData, (w.object d.id).name = some d.name

theorem Titled.of_name (h : Titled w)
    (hname : ∀ a, (w'.object a).name = (w.object a).name) : Titled w' :=
  fun d hd => (hname d.id).trans (h d hd)

theorem Titled.named_eq (h : Titled w) {name : String}
    (hname : ∀ d ∈ objData, d.id = o → d.name = name) (arg : Text) :
    named w arg o = strcasecmp name arg := by
  obtain ⟨d, hd, rfl⟩ := List.mem_map.mp (mem_objData o)
  unfold named
  rw [h d hd, hname d hd rfl]

/-- A book is checked out in the reserves only, by its name; else it is the battery. -/
theorem objSpecialGet_cases {src : RoomId} {arg : Text} {special : ObjId}
    (hrun : objSpecialGet w src arg = some (w', some special)) :
    src = .reserve ∧ strcasecmp "book" arg ∨
      special = .battEmpty ∧ removeObject w .battCar = some w' := by
  by_cases hbook : src = .reserve ∧ strcasecmp "book" arg
  · exact Or.inl hbook
  · rw [objSpecialGet, if_neg hbook] at hrun
    split at hrun
    · obtain ⟨w₁, hremove, hrun⟩ := Option.bind_eq_some_iff.mp hrun
      simp only [Option.some.injEq, Prod.mk.injEq] at hrun
      obtain ⟨rfl, rfl⟩ := hrun
      exact Or.inr ⟨rfl, hremove⟩
    · simp at hrun

/-- The battery in the car, which `get` unplugs for a player who stands there. -/
def Plugged (w : World) (src : RoomId) : Prop :=
  src = .carSite ∧ loc w .battCar = some .carSite

/-- What `get` does for a player who stands in the room `src`. -/
inductive Takes (w : World) (src : RoomId) (arg : Text) (w' : World) : Prop
  | nothing (hplug : ¬ Plugged w src) (hsame : SameBut w w')
  | picks (w₁ : World) (o : ObjId) (hplug : ¬ Plugged w src) (hsame : SameBut w w₁)
      (hnamed : named w arg o) (hloc : loc w o = some src ∨ loc w o = none)
      (hstows : Stows w₁ w' o)
  | unplugs (w₁ : World) (hplug : Plugged w src) (hsheds : Sheds {.battCar} w w₁)
      (hstows : Stows w₁ w' .battEmpty)

/-- A book that is not checked out. -/
theorem takes_book (h : Sound P w) (ht : Titled w) {src : RoomId} {arg : Text}
    {special : ObjId} (hrun : objSpecialGet w src arg = some (w₁, some special))
    (hbook : special = .bookC ∨ special = .bookWode) (hsame : SameBut w w₁)
    (hlimbo : loc w special = none) :
    ∃ w', moveObjectToInventory w₁ special = some w' ∧ Takes w src arg w' := by
  have hne : special ≠ .battEmpty := by
    rintro rfl
    rcases hbook with hbook | hbook <;> cases hbook
  obtain ⟨rfl, harg⟩ := (objSpecialGet_cases hrun).resolve_right fun hbatt => hne hbatt.1
  have hplug : ¬ Plugged w .reserve := fun hplug => absurd hplug.1 (by decide)
  have hnamed : named w arg special := by
    rcases hbook with rfl | rfl
    · exact (ht.named_eq (by decide) arg).trans harg
    · exact (ht.named_eq (by decide) arg).trans harg
  obtain ⟨w', hmove, hstows⟩ := moveObjectToInventory_stows (h.of_sameBut hsame) special
  exact ⟨w', hmove, .picks w₁ special hplug hsame hnamed (Or.inr hlimbo) hstows⟩

/-- **`get`** takes an object of that name that is there, or a book, or the car's battery. -/
theorem typedCmdGet_takes (h : Sound P w) (ht : Titled w) {src : RoomId}
    (hsrc : (quest w (some r)).standing = some src) (arg : Text) :
    ∃ out, typedCmdGet w r arg = some out ∧ out.rptr = some r ∧ Takes w src arg out.world := by
  have hwhere := enter_of_standing hsrc
  obtain ⟨w₁, special, hrun, hspecial⟩ := objSpecialGet_spec h src arg
  unfold typedCmdGet
  simp only [hwhere, hrun, Option.bind_eq_bind, Option.bind_some]
  cases hspecial with
  | plain hcar =>
      have hplug : ¬ Plugged w src := by
        rintro ⟨rfl, hloc⟩
        exact hcar hloc rfl
      obtain ⟨s, hs⟩ := h.contained
      simp only [findInRoom_eq h.furnished.name (hs.lists src), Option.bind_some]
      cases hfind : (s src).find? (named w arg) with
      | none => exact ⟨_, rfl, rfl, .nothing hplug (sameBut_showStatus w _)⟩
      | some o =>
          have hloc : loc w o = some src :=
            (hs.agrees.mem_iff o src).mp (List.mem_of_find?_eq_some hfind)
          dsimp only
          split
          · exact ⟨_, rfl, rfl, .nothing hplug (sameBut_showStatus w _)⟩
          · obtain ⟨w', hmove, hstows⟩ := moveObjectToInventory_stows h o
            rw [hmove, Option.bind_some]
            exact ⟨_, rfl, rfl, .picks w o hplug (SameBut.refl w) (List.find?_some hfind)
              (Or.inl hloc) hstows⟩
  | bookC _ hsame hfed hloc =>
      obtain ⟨w', hmove, htakes⟩ := takes_book h ht hrun (Or.inl rfl) hsame hloc
      simp only [Option.bind_some, reduceCtorEq, false_and, if_false, hmove]
      exact ⟨_, rfl, rfl, htakes⟩
  | bookWode _ hsame hloc =>
      obtain ⟨w', hmove, htakes⟩ := takes_book h ht hrun (Or.inr rfl) hsame hloc
      simp only [Option.bind_some, reduceCtorEq, false_and, if_false, hmove]
      exact ⟨_, rfl, rfl, htakes⟩
  | battery _ hunplug hcar hloc =>
      obtain ⟨w₂, hremove, hsound, hsheds⟩ := removeObject_sheds h (Set.mem_singleton .battCar)
      obtain ⟨-, hremove'⟩ := (objSpecialGet_cases hrun).resolve_left fun hbook => by
        subst hcar
        exact absurd hbook.1 (by decide)
      obtain rfl := Option.some.inj (hremove'.symm.trans hremove)
      obtain ⟨w', hmove, hstows⟩ := moveObjectToInventory_stows hsound .battEmpty
      simp only [Option.bind_some, reduceCtorEq, false_and, if_false, hmove]
      exact ⟨_, rfl, rfl, .unplugs w₁ ⟨hcar, hloc⟩ hsheds hstows⟩

/-! ## All commands -/

/-- The objects that a call may take away or put elsewhere. -/
def given : Call → Set ObjId
  | .typed .charge _ => {.battEmpty}
  | .typed .drink _ => {.mtnDew}
  | .typed .drop _ => Set.univ
  | .typed .fix _ => {.gpsBad, .gpsSpec}
  | .typed .flash _ => {.robotDead}
  | .typed .get _ => {.battCar}
  | .typed .install _ => {.battFull, .mimoCard}
  | .typed .use _ => {.carKey, .battCar, .fish}
  | .typed .wear _ => {.bunnysuit}
  | _ => ∅

/-- The objects that a call may put into the inventory. -/
def gained : Call → Set ObjId
  | .typed .buy _ => {.mtnDew}
  | .typed .charge _ => {.battFull}
  | .typed .fix _ => {.gpsGood}
  | .typed .flash _ => {.robotLive}
  | .typed .get _ => Set.univ
  | .typed .use _ => {.tux}
  | _ => ∅

theorem object_arriveIn (w : World) (dest : RoomId) : (arriveIn w dest).object = w.object := by
  unfold arriveIn
  split_ifs <;> rfl

theorem tryToMove_handled (link : Room → Option RoomId) (w : World) (r : RoomId) :
    Handled objs into w (tryToMove link w r) := by
  unfold tryToMove
  cases link (w.room r) with
  | some dest => exact handled_idle (object_arriveIn w dest)
  | none => exact handled_ite (fun _ => handled_stay) fun _ => handled_stay

theorem tryToEnter_handled (w : World) (r : RoomId) : Handled objs into w (tryToEnter w r) := by
  unfold tryToEnter
  cases (w.room r).enter with
  | some dest => exact handled_idle (object_arriveIn w dest)
  | none =>
      refine handled_ite (fun _ => ?_) fun _ => handled_ite (fun _ => ?_) fun _ =>
        handled_ite (fun _ => ?_) fun _ => handled_ite (fun _ => ?_) fun _ =>
        handled_ite (fun _ => ?_) fun _ => handled_ite (fun _ => handled_stay) fun _ =>
        handled_stay
      · exact handled_ite (fun _ => handled_idle rfl) fun _ => handled_stay
      · exact handled_ite (fun _ => handled_idle rfl) fun _ => handled_stay
      · exact handled_ite (fun _ => handled_idle rfl) fun _ => handled_stay
      · exact handled_ite (fun _ => handled_idle rfl) fun _ =>
          handled_ite (fun _ => handled_stay) fun _ => handled_stay
      · cases advice[w.randMod 8]? with
        | none =>
            intro out hout
            cases hout
        | some s => exact handled_idle rfl

theorem not_carried_of_not_atHand (h : ¬ Program.Adventure.atHand w r o) : o ∉ backpack w :=
  fun hin => h (Or.inl hin)

/-- The rest of a command leaves the objects alone. -/
def Leaves (k : World → Option Outcome) : Prop :=
  ∀ w out, k w = some out → out.world.object = w.object

theorem leaves_stay {f : World → World} (hf : ∀ w, (f w).object = w.object) {s : String}
    {a : TcAction} : Leaves fun w => stay (f w) r s a := by
  intro w out hout
  obtain rfl := Option.some.inj hout
  exact hf w

/-- One object is used up. -/
theorem remove_handled (h : Sound P w) {old : ObjId} (hold : old ∈ objs)
    {k : World → Option Outcome} (hk : Leaves k) :
    Handled objs into w ((removeObject w old).bind k) := by
  obtain ⟨w₁, hremove, -, hsheds⟩ := removeObject_sheds h hold
  intro out hout
  rw [hremove, Option.bind_some] at hout
  exact .sheds (hsheds.trans (sheds_of_object (hk w₁ out hout)))

/-- A new object comes into the inventory. -/
theorem move_handled (h : Sound P w₁) (hsheds : Sheds objs w w₁) {new : ObjId}
    (hnew : new ∈ into) (hfresh : new ∉ backpack w) {k : World → Option Outcome}
    (hk : Leaves k) : Handled objs into w ((moveObjectToInventory w₁ new).bind k) := by
  obtain ⟨w₂, hmove, hstows⟩ := moveObjectToInventory_stows h new
  intro out hout
  rw [hmove, Option.bind_some] at hout
  exact .stows w₁ new hnew hsheds hfresh (hstows.of_object (hk w₂ out hout))

/-- One object is used up for another. -/
theorem exchange_handled (h : Sound P w) {old new : ObjId} (hold : old ∈ objs)
    (hnew : new ∈ into) (hfresh : new ∉ backpack w) {k : World → Option Outcome}
    (hk : Leaves k) : Handled objs into w ((removeObject w old).bind fun w =>
      (moveObjectToInventory w new).bind k) := by
  obtain ⟨w₁, hremove, hsound, hsheds⟩ := removeObject_sheds h hold
  rw [hremove, Option.bind_some]
  exact move_handled hsound hsheds hnew hfresh hk

theorem typedCmdBuy_handled (h : Sound P w) (arg : Text) :
    Handled ∅ {.mtnDew} w (typedCmdBuy w r arg) := by
  unfold typedCmdBuy
  refine handled_ite (fun _ => ?_) fun _ => handled_ite (fun _ => ?_) fun _ => handled_stay
  · refine handled_ite (fun _ => handled_stay) fun _ =>
      handled_ite (fun _ => handled_stay) fun hdew => ?_
    have hsame : SameBut w (if (w.object .mtnDew).loc ≠ none then
        showStatus w "Last one get stolen?  Ok...here we go..."
        else showStatus w "You buy a Dew.") :=
      .ite (sameBut_showStatus w _) (sameBut_showStatus w _)
    refine move_handled (h.of_sameBut hsame) (sheds_of_object (object_sameBut hsame))
      (Set.mem_singleton _) (not_carried_of_not_atHand hdew) fun _ _ hout => ?_
    obtain rfl := Option.some.inj hout
    rfl
  · exact handled_ite (fun _ => handled_stay) fun _ =>
      handled_ite (fun _ => handled_stay) fun _ => handled_idle rfl

theorem typedCmdCharge_handled (h : Sound P w) (arg : Text) :
    Handled {.battEmpty} {.battFull} w (typedCmdCharge w r arg) := by
  unfold typedCmdCharge
  refine handled_ite (fun _ => handled_stay) fun _ =>
    handled_ite (fun _ => handled_stay) fun _ =>
    handled_ite (fun _ => handled_stay) fun _ =>
    handled_ite (fun _ => handled_stay) fun hfull => ?_
  exact exchange_handled h (Set.mem_singleton _) (Set.mem_singleton _)
    (not_carried_of_not_atHand hfull) (leaves_stay fun _ => rfl)

theorem typedCmdDo_handled (w : World) (r : RoomId) (arg : Text) :
    Handled objs into w (typedCmdDo w r arg) := by
  unfold typedCmdDo
  exact handled_ite (fun _ => handled_stay) fun _ =>
    handled_ite (fun _ => handled_stay) fun _ =>
    handled_ite (fun _ => handled_stay) fun _ =>
    handled_ite (fun _ => handled_stay) fun _ =>
    handled_ite (fun _ => handled_stay) fun _ => handled_idle rfl

theorem typedCmdDrink_handled (h : Sound P w) (arg : Text) :
    Handled {.mtnDew} into w (typedCmdDrink w r arg) := by
  unfold typedCmdDrink
  refine handled_ite (fun _ => handled_stay) fun _ =>
    handled_ite (fun _ => handled_stay) fun _ => ?_
  exact remove_handled h (Set.mem_singleton _) (leaves_stay fun _ => rfl)

/-- **`drop`** leaves the object in the room where the player stands. -/
theorem typedCmdDrop_drops (h : Sound P w) {dest : RoomId}
    (hdest : (quest w (some r)).standing = some dest) (hne : dest ≠ .inventory) (arg : Text) :
    ∃ out, typedCmdDrop w r arg = some out ∧ out.rptr = some r ∧
      (out.world.object = w.object ∨
        ∃ o ∈ backpack w, Sheds {o} w out.world ∧ loc out.world o = some dest) := by
  rcases typedCmdDrop_spec h hdest arg with heq | ⟨o, w₁, w₂, hloc, hsame, hrun, heq⟩
  · exact ⟨_, heq, rfl, Or.inl rfl⟩
  · obtain ⟨s₁, hs₁⟩ := (h.of_sameBut hsame).contained
    obtain ⟨w', hrun', hmoved, -⟩ :=
      insertObject_spec (h.of_sameBut hsame).furnished hs₁ o dest
    obtain rfl := Option.some.inj (hrun.symm.trans hrun')
    have hplace : loc w₂ o = some dest := by
      rw [hmoved.loc, Function.update_self]
    have hsheds : Sheds {o} w₁ w₂ :=
      hmoved.sheds (fun heq => hne (Option.some.inj heq)) (Set.mem_singleton o)
    have hall : Sheds {o} w w₂ := (sheds_of_object (object_sameBut hsame)).trans hsheds
    exact ⟨_, heq, rfl, Or.inr ⟨o, hloc, hall, hplace⟩⟩

theorem typedCmdDrop_handled (h : Sound P w) (hg : Gated (quest w (some r))) (arg : Text) :
    Handled Set.univ into w (typedCmdDrop w r arg) := by
  obtain ⟨dest, hdest⟩ := hg.anchored.standing
  obtain ⟨out, hrun, -, hdrop⟩ := typedCmdDrop_drops h hdest (hg.here dest hdest).1 arg
  rw [hrun]
  rcases hdrop with hobject | ⟨o, -, hsheds, -⟩
  · exact handled_idle hobject
  · refine handled_some (.sheds ⟨hsheds.name, ?_, hsheds.lighter⟩) rfl
    exact fun a ha => absurd (Set.mem_univ a) ha

theorem typedCmdFix_handled (h : Sound P w) (arg : Text) :
    Handled {.gpsBad, .gpsSpec} {.gpsGood} w (typedCmdFix w r arg) := by
  unfold typedCmdFix
  refine handled_ite (fun _ => handled_stay) fun _ =>
    handled_ite (fun _ => handled_stay) fun hgood =>
    handled_ite (fun _ => handled_stay) fun _ =>
    handled_ite (fun _ => handled_stay) fun _ =>
    handled_ite (fun _ => handled_stay) fun _ => ?_
  have hbad : ObjId.gpsBad ∈ ({.gpsBad, .gpsSpec} : Set ObjId) := by simp
  have hspec : ObjId.gpsSpec ∈ ({.gpsBad, .gpsSpec} : Set ObjId) := by simp
  obtain ⟨w₁, hremove₁, h₁, hsheds₁⟩ := removeObject_sheds h hbad
  obtain ⟨w₂, hremove₂, h₂, hsheds₂⟩ := removeObject_sheds h₁ hspec
  simp only [hremove₁, hremove₂, Option.bind_eq_bind, Option.bind_some]
  exact move_handled h₂ (hsheds₁.trans hsheds₂) (Set.mem_singleton _)
    (not_carried_of_not_atHand hgood) (leaves_stay fun _ => rfl)

theorem typedCmdFlash_handled (h : Sound P w) (arg : Text) :
    Handled {.robotDead} {.robotLive} w (typedCmdFlash w r arg) := by
  unfold typedCmdFlash
  refine handled_ite (fun _ => handled_stay) fun _ =>
    handled_ite (fun _ => handled_stay) fun _ =>
    handled_ite (fun _ => handled_stay) fun _ =>
    handled_ite (fun _ => handled_stay) fun hlive => ?_
  exact exchange_handled h (Set.mem_singleton _) (Set.mem_singleton _)
    (not_carried_of_not_atHand hlive) (leaves_stay fun _ => rfl)

/-- The battery that is to be had from the car is nowhere yet. -/
theorem Plugged.battEmpty {src : RoomId} (h : Plugged w src) (hg : Gated (quest w (some r))) :
    loc w .battEmpty = none := by
  rcases hg.items.battCar with hnone | ⟨-, hnone, -⟩
  · exact absurd (h.2.symm.trans hnone) (Option.some_ne_none _)
  · exact hnone

/-- What `get` puts into the inventory was in the room, or nowhere. -/
theorem Takes.source {src : RoomId} {arg : Text} (h : Takes w src arg w')
    (hg : Gated (quest w (some r))) {a : ObjId} (ha : a ∈ backpack w') :
    a ∈ backpack w ∨ loc w a = some src ∨ loc w a = none := by
  cases h with
  | nothing _ hsame => exact Or.inl ((stays_of_object (object_sameBut hsame) a).1.symm.trans ha)
  | picks w₁ o _ hsame _ hloc hstows =>
      by_cases hao : a = o
      · subst hao
        exact Or.inr hloc
      · have hstays := (stays_of_object (object_sameBut hsame) a).trans (hstows.stays a hao)
        exact Or.inl (hstays.1.symm.trans ha)
  | unplugs w₁ hplug hsheds hstows =>
      by_cases hao : a = .battEmpty
      · subst hao
        exact Or.inr (Or.inr (hplug.battEmpty hg))
      · exact Or.inl (hsheds.lighter a ((hstows.stays a hao).1.symm.trans ha)).1

/-- What `get` puts into the inventory was not there. -/
theorem Takes.handles {src : RoomId} {arg : Text} (h : Takes w src arg w')
    (hg : Gated (quest w (some r))) (hne : src ≠ .inventory) :
    Handles {.battCar} Set.univ w w' := by
  cases h with
  | nothing _ hsame => exact .sheds (sheds_of_object (object_sameBut hsame))
  | picks w₁ o _ hsame _ hloc hstows =>
      refine .stows w₁ o (Set.mem_univ o) (sheds_of_object (object_sameBut hsame)) ?_ hstows
      intro hin
      rcases hloc with hloc | hloc
      · exact hne (Option.some.inj (hloc.symm.trans hin))
      · exact Option.some_ne_none _ (hin.symm.trans hloc)
  | unplugs w₁ hplug hsheds hstows =>
      refine .stows w₁ .battEmpty (Set.mem_univ _) hsheds ?_ hstows
      exact fun hin => Option.some_ne_none _ (hin.symm.trans (hplug.battEmpty hg))

theorem typedCmdGet_handled (h : Sound P w) (ht : Titled w) (hg : Gated (quest w (some r)))
    (arg : Text) : Handled {.battCar} Set.univ w (typedCmdGet w r arg) := by
  obtain ⟨src, hsrc⟩ := hg.anchored.standing
  obtain ⟨out, hrun, -, htakes⟩ := typedCmdGet_takes h ht hsrc arg
  rw [hrun]
  exact handled_some (htakes.handles hg (hg.here src hsrc).1) rfl

theorem typedCmdGo_handled (w : World) (r : RoomId) (arg : Text) :
    Handled objs into w (typedCmdGo w r arg) := by
  unfold typedCmdGo
  refine handled_ite (fun _ => ?_) fun _ => handled_ite (fun _ => ?_) fun _ =>
    handled_ite (fun _ => ?_) fun _ => handled_stay
  · refine handled_ite (fun _ => handled_stay) fun _ =>
      handled_ite (fun _ => handled_stay) fun _ =>
      handled_ite (fun _ => ?_) fun _ => handled_ite (fun _ => ?_) fun _ => handled_idle rfl
    · exact handled_ite (fun _ => handled_stay) fun _ => handled_stay
    · exact handled_ite (fun _ => handled_stay) fun _ => handled_stay
  · refine handled_ite (fun _ => handled_stay) fun _ =>
      handled_ite (fun _ => handled_stay) fun _ =>
      handled_ite (fun _ => ?_) fun _ => handled_idle rfl
    exact handled_ite (fun _ => handled_stay) fun _ => handled_stay
  · exact handled_ite (fun _ => handled_stay) fun _ =>
      handled_ite (fun _ => handled_stay) fun _ => handled_idle rfl

theorem typedCmdInstall_handled (h : Sound P w) (arg : Text) :
    Handled {.battFull, .mimoCard} into w (typedCmdInstall w r arg) := by
  unfold typedCmdInstall
  refine handled_ite (fun _ => ?_) fun _ => handled_ite (fun _ => ?_) fun _ => handled_stay
  · refine handled_ite (fun _ => handled_stay) fun _ =>
      handled_ite (fun _ => handled_stay) fun _ =>
      handled_ite (fun _ => handled_stay) fun _ => ?_
    exact remove_handled h (Set.mem_insert _ _)
      (leaves_stay (f := fun w => doPhotoSwap (playerSetFlag w .carFixed) r .car) fun _ => rfl)
  · refine handled_ite (fun _ => handled_stay) fun _ =>
      handled_ite (fun _ => handled_stay) fun _ => ?_
    exact remove_handled h (Set.mem_insert_of_mem _ (Set.mem_singleton _))
      (leaves_stay (f := fun w => setEnter w .cockpit .overWill) fun _ => rfl)

theorem typedCmdInventory_handled (w : World) (r : RoomId) :
    Handled objs into w (typedCmdInventory w r) := by
  unfold typedCmdInventory
  exact handled_ite (fun _ => handled_idle rfl) fun _ => handled_idle rfl

theorem typedCmdSigh_handled (w : World) (r : RoomId) :
    Handled objs into w (typedCmdSigh w r) := by
  unfold typedCmdSigh
  exact handled_ite (fun _ => handled_stay) fun _ => handled_idle rfl

/-- With the fish at hand the penguin is where it always was. -/
theorem tux_not_carried (hg : Gated (quest w (some r)))
    (hfish : Program.Adventure.atHand w r .fish) : ObjId.tux ∉ backpack w := by
  have hsome : loc w .fish ≠ none := by
    rcases hfish with hloc | hloc
    · exact fun hnone => Option.some_ne_none _ (hloc.symm.trans hnone)
    · exact fun hnone => Option.some_ne_none _ (hloc.symm.trans hnone)
  intro hin
  have hlured : (quest w (some r)).flag .luredTux := by
    apply hg.items.tux
    intro hlab
    exact absurd (Option.some.inj (hin.symm.trans hlab)) (by decide)
  exact hsome (hg.items.lured hlured).1

theorem typedCmdUse_handled (h : Sound P w) (hg : Gated (quest w (some r))) (arg : Text) :
    Handled {.carKey, .battCar, .fish} {.tux} w (typedCmdUse w r arg) := by
  unfold typedCmdUse
  refine handled_ite (fun _ => ?_) fun _ => handled_ite (fun _ => ?_) fun _ => handled_stay
  · refine handled_ite (fun _ => handled_stay) fun _ =>
      handled_ite (fun _ => handled_stay) fun _ =>
      handled_ite (fun _ => handled_stay) fun hroom =>
      handled_ite (fun _ => handled_stay) fun _ =>
      handled_ite (fun _ => handled_stay) fun _ =>
      handled_ite (fun _ => handled_stay) fun _ => ?_
    obtain rfl := not_not.mp hroom
    have hkey : ObjId.carKey ∈ ({.carKey, .battCar, .fish} : Set ObjId) := by simp
    have hcar : ObjId.battCar ∈ ({.carKey, .battCar, .fish} : Set ObjId) := by simp
    have hsite : RoomId.carSite ≠ .inventory := by decide
    obtain ⟨w₁, hremove, h₁, hsheds₁⟩ := removeObject_sheds (h.doPhotoSwap .carSite .car) hkey
    obtain ⟨w₂, hinsert, hsheds₂⟩ := insertObjectAt_sheds h₁ hsite hcar 265 122
    simp only [hremove, hinsert, Option.bind_eq_bind, Option.bind_some]
    have hswapped : Sheds {.carKey, .battCar, .fish} w (doPhotoSwap w .carSite .car) :=
      sheds_of_object rfl
    intro out hout
    obtain rfl := Option.some.inj hout
    exact .sheds (hswapped.trans (hsheds₁.trans (hsheds₂.trans (sheds_of_object rfl))))
  · refine handled_ite (fun _ => handled_stay) fun hfish =>
      handled_ite (fun _ => handled_stay) fun _ => ?_
    exact exchange_handled h (by simp) (Set.mem_singleton _)
      (tux_not_carried hg (not_not.mp hfish))
      (leaves_stay (f := fun w => playerSetFlag w .luredTux) fun _ => rfl)

theorem typedCmdWear_handled (h : Sound P w) (arg : Text) :
    Handled {.bunnysuit} into w (typedCmdWear w r arg) := by
  unfold typedCmdWear
  refine handled_ite (fun _ => handled_stay) fun _ =>
    handled_ite (fun _ => handled_stay) fun _ => ?_
  exact remove_handled h (Set.mem_singleton _)
    (leaves_stay (f := fun w => playerSetFlag w .wearingSuit) fun _ => rfl)

/-- **What a call does to the objects.** -/
theorem perform_handled (h : Sound P w) (ht : Titled w) (hg : Gated (quest w (some r)))
    (call : Call) : Handled (given call) (gained call) w (perform call w r) := by
  cases call with
  | moveLeft => exact tryToMove_handled Room.left w r
  | enter => exact tryToEnter_handled w r
  | moveRight => exact tryToMove_handled Room.right w r
  | typed c arg =>
      cases c with
      | buy => exact typedCmdBuy_handled h arg
      | charge => exact typedCmdCharge_handled h arg
      | doIt => exact typedCmdDo_handled w r arg
      | drink => exact typedCmdDrink_handled h arg
      | drop => exact typedCmdDrop_handled h hg arg
      | fix => exact typedCmdFix_handled h arg
      | flash => exact typedCmdFlash_handled h arg
      | get => exact typedCmdGet_handled h ht hg arg
      | go => exact typedCmdGo_handled w r arg
      | install => exact typedCmdInstall_handled h arg
      | inventory => exact typedCmdInventory_handled w r
      | sigh => exact typedCmdSigh_handled w r
      | use => exact typedCmdUse_handled h hg arg
      | wear => exact typedCmdWear_handled h arg

end MachineProblems.Analysis.Adventure
