import MachineProblems.Analysis.Adventure.Contents

/-!
# Moving objects

Removing an object unlinks it from the chain of its room through a pointer to a pointer;
inserting it puts it in front of the chain of the new room.  On the shelves these are taking and
putting, and nothing else in the world is touched.
-/

set_option autoImplicit false

namespace MachineProblems.Analysis.Adventure

open MachineProblems.Library MachineProblems.Program.Adventure MachineProblems.Program.PhotoFile

/-! ## Stores -/

section Stores

variable (w : World) (r : RoomId) (room : Room) (o : ObjId) (object : Object)

@[simp] theorem object_setRoom : (w.setRoom r room).object = w.object := rfl

@[simp] theorem room_setRoom : (w.setRoom r room).room = Function.update w.room r room := rfl

@[simp] theorem room_setObject : (w.setObject o object).room = w.room := rfl

@[simp] theorem object_setObject :
    (w.setObject o object).object = Function.update w.object o object := rfl

theorem scenery_setRoom (h : { room with contents := none } =
    { w.room r with contents := none }) : scenery (w.setRoom r room) = scenery w := by
  have hroom : (fun a => { (w.setRoom r room).room a with contents := none }) =
      fun a => { w.room a with contents := none } := by
    funext a
    by_cases ha : a = r
    · subst ha
      simpa using h
    · simp [ha]
  unfold scenery
  rw [hroom]
  rfl

theorem scenery_setObject (hname : object.name = (w.object o).name)
    (himg : object.img = (w.object o).img) : scenery (w.setObject o object) = scenery w := by
  have hobject : (fun a => { (w.setObject o object).object a with
      next := none, loc := none, x := 0, y := 0 }) =
      fun a => { w.object a with next := none, loc := none, x := 0, y := 0 } := by
    funext a
    by_cases ha : a = o
    · subst ha
      simp [hname, himg]
    · simp [ha]
  unfold scenery
  rw [hobject]
  rfl

end Stores

/-! ## remove_object -/

/-- The pointer that points behind `pre`, on a walk that starts at `find`. -/
def lastSlot : Slot → List ObjId → Slot
  | find, [] => find
  | _, p :: pre => lastSlot (.next p) pre

theorem lastSlot_concat (find : Slot) (pre : List ObjId) (p : ObjId) :
    lastSlot find (pre ++ [p]) = .next p := by
  induction pre generalizing find with
  | nil => rfl
  | cons q pre ih => exact ih (.next q)

/-- The walk stops in front of the object and stores its successor there. -/
theorem removeLoop_eq {w : World} {o : ObjId} {post : List ObjId} (pre : List ObjId) :
    ∀ {n : ℕ} {find : Slot}, Chained w (w.load find) (pre ++ o :: post) → o ∉ pre →
      pre.length < n →
      removeLoop w o n find = some (w.store (w.object o).next (lastSlot find pre)) := by
  induction pre with
  | nil =>
      intro n find hl _ hn
      obtain ⟨k, rfl⟩ : ∃ k, n = k + 1 := ⟨n - 1, by rw [List.length_nil] at hn; omega⟩
      have hhead : w.load find = some o := (Chained.cons_iff.mp hl).1
      simp [removeLoop, hhead, lastSlot]
  | cons p pre ih =>
      intro n find hl hnot hn
      rw [List.length_cons] at hn
      obtain ⟨k, rfl⟩ : ∃ k, n = k + 1 := ⟨n - 1, by omega⟩
      obtain ⟨hhead, hrest⟩ := Chained.cons_iff.mp hl
      obtain ⟨hne, hnot'⟩ := not_or.mp (mt List.mem_cons.mpr hnot)
      have hloop : removeLoop w o k (.next p) =
          some (w.store (w.object o).next (lastSlot (.next p) pre)) := ih hrest hnot' (by omega)
      simp [removeLoop, hhead, hne, hloop, lastSlot]

section Remove

variable {w : World} {o : ObjId}

/-- The object `o` between `pre` and `post` is unlinked from its room. -/
structure Unlinked (w w' : World) (r : RoomId) (pre post : List ObjId) : Prop where
  scenery : scenery w' = scenery w
  lists : Lists w' r (pre ++ post)
  other : ∀ r' l, r' ≠ r → Lists w r' l → (∀ p ∈ pre, p ∉ l) → Lists w' r' l
  object : ∀ a, { w'.object a with next := none } = { w.object a with next := none }

theorem unlinked_head {r : RoomId} {post : List ObjId} (h : Lists w r (o :: post)) :
    Unlinked w (w.store (w.object o).next (.contents r)) r [] post where
  scenery := scenery_setRoom w r _ rfl
  lists := by
    have hpost := (Chained.cons_iff.mp h).2
    unfold Lists
    simp only [World.store, room_setRoom, Function.update_self, List.nil_append]
    exact hpost.congr fun _ _ => rfl
  other := by
    intro r' l hr hl _
    unfold Lists
    simp only [World.store, room_setRoom, Function.update_of_ne hr]
    exact hl.congr fun _ _ => rfl
  object := fun _ => rfl

theorem unlinked_inner {r : RoomId} {pre post : List ObjId} {p : ObjId}
    (h : Lists w r (pre ++ p :: o :: post)) :
    Unlinked w (w.store (w.object o).next (.next p)) r (pre ++ [p]) post where
  scenery := scenery_setObject w p _ rfl rfl
  lists := by
    unfold Lists Chained at h ⊢
    simp only [World.store, room_setObject, List.append_assoc, List.singleton_append]
    rw [List.map_append, List.map_cons, List.map_cons] at h
    rw [List.map_append, List.map_cons]
    refine Seg.unlink rfl h rfl ?_ ?_
    · simp [successor]
    · intro q hp _
      cases q with
      | none => rfl
      | some a =>
          have ha : a ≠ p := fun heq => hp (congrArg some heq)
          simp [successor, ha]
  other := by
    intro r' l _ hl hnot
    refine hl.congr fun a ha => ?_
    have hap : a ≠ p := by
      rintro rfl
      exact hnot a (by simp) ha
    simp [World.store, hap]
  object := by
    intro a
    by_cases ha : a = p
    · subst ha
      simp [World.store]
    · simp [World.store, ha]

/-- The walk of `remove_object` unlinks the object. -/
theorem removeLoop_unlinked {r : RoomId} {pre post : List ObjId}
    (h : Lists w r (pre ++ o :: post)) :
    ∃ w', removeLoop w o walkFuel (.contents r) = some w' ∧ Unlinked w w' r pre post := by
  have hnot : o ∉ pre := by
    intro hmem
    exact (List.nodup_append.mp h.nodup).2.2 o hmem o List.mem_cons_self rfl
  have hlen : pre.length < walkFuel := by
    have hle := h.length_le
    rw [List.length_append] at hle
    exact Nat.lt_succ_of_le (Nat.le_of_add_right_le hle)
  refine ⟨_, removeLoop_eq pre h hnot hlen, ?_⟩
  rcases List.eq_nil_or_concat pre with rfl | ⟨pre', p, rfl⟩
  · exact unlinked_head h
  · rw [List.concat_eq_append, List.append_assoc] at h
    rw [List.concat_eq_append, lastSlot_concat]
    exact unlinked_inner h

end Remove

variable {w : World} {s : Shelves RoomId ObjId} {o : ObjId}

/-- **`remove_object`** takes the object off its shelf. -/
theorem removeObject_spec (h : Contained w s) (o : ObjId) :
    ∃ w', removeObject w o = some w' ∧ Moved w w' o none ∧ Contained w' (s.take o) := by
  unfold removeObject
  cases hloc : (w.object o).loc with
  | none =>
      have hupdate : Function.update (loc w) o none = loc w := by
        rw [← hloc]
        exact Function.update_eq_self o (loc w)
      have htake : s.take o = s := by
        funext r
        refine h.agrees.take_eq ?_
        rw [loc, hloc]
        exact Option.some_ne_none r |>.symm
      refine ⟨w, rfl, ⟨rfl, hupdate.symm, fun _ _ => ⟨rfl, rfl⟩⟩, ?_⟩
      rw [htake]
      exact h
  | some r =>
      have hmem : o ∈ s r := (h.agrees.mem_iff o r).mpr hloc
      obtain ⟨pre, post, hsplit⟩ := List.append_of_mem hmem
      have hlists := h.lists r
      rw [hsplit] at hlists
      have hpre : o ∉ pre := by
        intro hmem
        exact (List.nodup_append.mp hlists.nodup).2.2 o hmem o List.mem_cons_self rfl
      obtain ⟨w₁, hloop, hw₁⟩ := removeLoop_unlinked hlists
      have hobject : ∀ a, (w₁.object a).loc = (w.object a).loc ∧
          (w₁.object a).x = (w.object a).x ∧ (w₁.object a).y = (w.object a).y := by
        intro a
        have := hw₁.object a
        simp only [Object.mk.injEq, true_and] at this
        exact ⟨this.2.1, this.2.2.1, this.2.2.2.1⟩
      have hlocs : loc (w₁.setObject o { w₁.object o with loc := none }) =
          Function.update (loc w) o none := by
        funext a
        by_cases ha : a = o
        · subst ha
          simp [loc]
        · simp [loc, ha, (hobject a).1]
      refine ⟨w₁.setObject o { w₁.object o with loc := none }, ?_, ⟨?_, hlocs, ?_⟩, ?_, ?_⟩
      · simp [hloop]
      · rw [scenery_setObject]
        · exact hw₁.scenery
        · rfl
        · rfl
      · intro a ha
        simp [ha, (hobject a).2]
      · intro r'
        have hkeep : ∀ l, Lists w₁ r' l →
            Lists (w₁.setObject o { w₁.object o with loc := none }) r' l := by
          intro l hl
          refine hl.congr fun a _ => ?_
          by_cases ha : a = o
          · subst ha
            simp
          · simp [ha]
        refine hkeep _ ?_
        by_cases hr : r' = r
        · subst hr
          rw [Shelves.take_of_split hsplit hpre]
          exact hw₁.lists
        · have hstay : s.take o r' = s r' := by
            refine h.agrees.take_eq ?_
            rw [loc, hloc]
            exact fun heq => hr (Option.some.inj heq).symm
          rw [hstay]
          refine hw₁.other r' _ hr (h.lists r') fun p hp hp' => ?_
          -- an object of `pre` is in `r`, so it is not in `r'`
          have hin : loc w p = some r := (h.agrees.mem_iff p r).mp (by simp [hsplit, hp])
          have hin' : loc w p = some r' := (h.agrees.mem_iff p r').mp hp'
          rw [hin] at hin'
          exact hr (Option.some.inj hin').symm
      · rw [hlocs]
        exact h.agrees.take o

theorem Contained.not_mem {w : World} {s : Shelves RoomId ObjId} {o : ObjId} (h : Contained w s)
    (ho : loc w o = none) (r : RoomId) : o ∉ s r := by
  refine h.agrees.not_mem ?_
  rw [ho]
  exact (Option.some_ne_none r).symm

/-! ## insert_object_at -/

/-- An object in limbo is linked in front of a room's contents. -/
theorem linked_spec (h : Contained w s) (ho : loc w o = none) (r : RoomId) (x y : UInt16) :
    let w₁ := w.setObject o { w.object o with
      x := x, y := y, loc := some r, next := (w.room r).contents }
    let w₂ := w₁.setRoom r { w₁.room r with contents := some o }
    Moved w w₂ o (some r) ∧ Contained w₂ (s.put o r) := by
  intro w₁ w₂
  have hlocs : loc w₂ = Function.update (loc w) o (some r) := by
    funext a
    by_cases ha : a = o
    · subst ha
      simp [loc, w₂, w₁]
    · simp [loc, w₂, w₁, ha]
  have hnext : ∀ r', ∀ a ∈ s r', (w₂.object a).next = (w.object a).next := by
    intro r' a ha
    have hne : a ≠ o := by
      rintro rfl
      exact h.not_mem ho r' ha
    simp [w₂, w₁, hne]
  refine ⟨⟨?_, hlocs, ?_⟩, ?_, ?_⟩
  · calc scenery w₂ = scenery w₁ := scenery_setRoom w₁ r _ rfl
      _ = scenery w := scenery_setObject w o _ rfl rfl
  · intro a ha
    simp [w₂, w₁, ha]
  · intro r'
    unfold Lists
    by_cases hr : r' = r
    · subst hr
      have hself : s.put o r' r' = o :: s r' := Function.update_self r' _ s
      rw [hself, Chained.cons_iff]
      refine ⟨by simp [w₂], ?_⟩
      have hlink : (w₂.object o).next = (w.room r').contents := by simp [w₂, w₁]
      rw [hlink]
      exact (h.lists r').congr (hnext r')
    · have hother : s.put o r r' = s r' := Function.update_of_ne hr _ s
      have hroom : (w₂.room r').contents = (w.room r').contents := by simp [w₂, w₁, hr]
      rw [hother, hroom]
      exact (h.lists r').congr (hnext r')
  · rw [hlocs]
    exact h.agrees.put ho r

theorem Moved.trans {w₁ w₂ w₃ : World} {d d' : Option RoomId} (h : Moved w₁ w₂ o d)
    (h' : Moved w₂ w₃ o d') : Moved w₁ w₃ o d' where
  scenery := h'.scenery.trans h.scenery
  loc := by rw [h'.loc, h.loc, Function.update_idem]
  spot := by
    intro a ha
    obtain ⟨hx, hy⟩ := h.spot a ha
    obtain ⟨hx', hy'⟩ := h'.spot a ha
    exact ⟨hx'.trans hx, hy'.trans hy⟩

/-- The shelves after `o` was moved to `r`. -/
def relocate (s : Shelves RoomId ObjId) (o : ObjId) (r : RoomId) : Shelves RoomId ObjId :=
  (s.take o).put o r

/-- **`insert_object_at`** moves the object to the front of the room's contents. -/
theorem insertObjectAt_spec (h : Contained w s) (o : ObjId) (r : RoomId) (x y : ℤ) :
    ∃ w', insertObjectAt w o r x y = some w' ∧ Moved w w' o (some r) ∧
      Contained w' (relocate s o r) ∧
      (w'.object o).x = UInt16.ofInt x ∧ (w'.object o).y = UInt16.ofInt y := by
  obtain ⟨w₁, hremove, hmoved, hcontained⟩ := removeObject_spec h o
  have hlimbo : loc w₁ o = none := by
    rw [hmoved.loc]
    exact Function.update_self o _ _
  obtain ⟨hmoved', hcontained'⟩ :=
    linked_spec hcontained hlimbo r (UInt16.ofInt x) (UInt16.ofInt y)
  refine ⟨_, ?_, hmoved.trans hmoved', hcontained', ?_, ?_⟩
  · unfold insertObjectAt
    rw [hremove]
    rfl
  · simp
  · simp

/-! ## Scenery -/

section Scenery

variable {w' : World} (hs : scenery w' = scenery w)
include hs

theorem view_of_scenery (r : RoomId) : (w'.room r).view = (w.room r).view := by
  have hroom := congrArg Room.view (congrFun (congrArg World.room hs) r)
  exact hroom

theorem left_of_scenery (r : RoomId) : (w'.room r).left = (w.room r).left := by
  have hroom := congrArg Room.left (congrFun (congrArg World.room hs) r)
  exact hroom

theorem enter_of_scenery (r : RoomId) : (w'.room r).enter = (w.room r).enter := by
  have hroom := congrArg Room.enter (congrFun (congrArg World.room hs) r)
  exact hroom

theorem right_of_scenery (r : RoomId) : (w'.room r).right = (w.room r).right := by
  have hroom := congrArg Room.right (congrFun (congrArg World.room hs) r)
  exact hroom

theorem name_of_scenery (o : ObjId) : (w'.object o).name = (w.object o).name := by
  have hobject := congrArg Object.name (congrFun (congrArg World.object hs) o)
  exact hobject

theorem img_of_scenery (o : ObjId) : (w'.object o).img = (w.object o).img := by
  have hobject := congrArg Object.img (congrFun (congrArg World.object hs) o)
  exact hobject

theorem swapPhoto_of_scenery : w'.swapPhoto = w.swapPhoto := by
  have hswap := congrArg World.swapPhoto hs
  exact hswap

theorem playerFlags_of_scenery : w'.playerFlags = w.playerFlags := by
  have hflags := congrArg World.playerFlags hs
  exact hflags

end Scenery

/-- The photos and object images are there, the objects have names, and every photo is `P`. -/
structure Furnished (P : Photo → Prop) (w : World) : Prop where
  view : ∀ r, ∃ p, (w.room r).view = some p ∧ P p
  swapPhoto : ∀ s, ∃ p, w.swapPhoto s = some p ∧ P p
  name : ∀ o, (w.object o).name.isSome
  img : ∀ o, (w.object o).img.isSome

theorem Furnished.of_scenery {P : Photo → Prop} {w' : World} (h : Furnished P w)
    (hs : scenery w' = scenery w) : Furnished P w' where
  view := by
    intro r
    rw [view_of_scenery hs]
    exact h.view r
  swapPhoto := by
    rw [swapPhoto_of_scenery hs]
    exact h.swapPhoto
  name := by
    intro o
    rw [name_of_scenery hs]
    exact h.name o
  img := by
    intro o
    rw [img_of_scenery hs]
    exact h.img o

/-! ## Random positions -/

/-- `w'` differs from `w` in the random numbers and the message only. -/
def SameBut (w w' : World) : Prop :=
  ∃ rands msg, w' = { w with rands := rands, statusMsg := msg }

theorem SameBut.refl (w : World) : SameBut w w := ⟨_, _, rfl⟩

theorem SameBut.trans {w₁ w₂ w₃ : World} (h : SameBut w₁ w₂) (h' : SameBut w₂ w₃) :
    SameBut w₁ w₃ := by
  obtain ⟨rands, msg, rfl⟩ := h
  obtain ⟨rands', msg', rfl⟩ := h'
  exact ⟨rands', msg', rfl⟩

theorem SameBut.ite {w w₁ w₂ : World} {c : Prop} [Decidable c] (h : SameBut w w₁)
    (h' : SameBut w w₂) : SameBut w (if c then w₁ else w₂) := by
  split
  · exact h
  · exact h'

theorem sameBut_showStatus (w : World) (msg : String) : SameBut w (showStatus w msg) :=
  ⟨_, _, rfl⟩

theorem sameBut_nextRand (w : World) : SameBut w w.nextRand := ⟨_, _, rfl⟩

theorem sameBut_randomBelow (w : World) (range : ℤ) : SameBut w (randomBelow w range).2 := by
  unfold randomBelow
  split
  · exact SameBut.refl w
  · exact sameBut_nextRand w

theorem Contained.of_sameBut {w' : World} (h : Contained w s) (hw : SameBut w w') :
    Contained w' s := by
  obtain ⟨rands, msg, rfl⟩ := hw
  exact ⟨fun r => (h.lists r).congr fun _ _ => rfl, h.agrees⟩

theorem Moved.of_sameBut {w' w'' : World} {d : Option RoomId} (hw : SameBut w w')
    (h : Moved w' w'' o d) : Moved w w'' o d := by
  obtain ⟨rands, msg, rfl⟩ := hw
  exact ⟨h.scenery, h.loc, h.spot⟩

/-! ## insert_object -/

/-- **`insert_object`** moves the object to the front of the room's contents. -/
theorem insertObject_moved {view : Photo} {img : Image} (h : Contained w s) {o : ObjId}
    {r : RoomId} (hview : (w.room r).view = some view) (himg : (w.object o).img = some img) :
    ∃ w', insertObject w o r = some w' ∧ Moved w w' o (some r) ∧
      Contained w' (relocate s o r) := by
  let xs := randomBelow w (view.width - img.width)
  have hxs : SameBut w xs.2 := sameBut_randomBelow w _
  unfold insertObject
  simp only [hview, himg, Option.bind_eq_bind, Option.bind_some]
  split
  · -- the object does not fit into the lowest quarter
    let ys := randomBelow xs.2 (view.height - img.height)
    have hys : SameBut w ys.2 := hxs.trans (sameBut_randomBelow xs.2 _)
    obtain ⟨w', hrun, hmoved, hcontained, -⟩ :=
      insertObjectAt_spec (h.of_sameBut hys) o r xs.1 ys.1
    exact ⟨w', hrun, hmoved.of_sameBut hys, hcontained⟩
  · let ys := randomBelow xs.2 ((view.height : ℤ) / 4 - img.height)
    have hys : SameBut w ys.2 := hxs.trans (sameBut_randomBelow xs.2 _)
    obtain ⟨w', hrun, hmoved, hcontained, -⟩ :=
      insertObjectAt_spec (h.of_sameBut hys) o r xs.1 (ys.1 + 3 * (view.height : ℤ) / 4)
    exact ⟨w', hrun, hmoved.of_sameBut hys, hcontained⟩

theorem insertObject_spec {P : Photo → Prop} (hf : Furnished P w) (h : Contained w s)
    (o : ObjId) (r : RoomId) : ∃ w', insertObject w o r = some w' ∧ Moved w w' o (some r) ∧
      Contained w' (relocate s o r) := by
  obtain ⟨view, hview, -⟩ := hf.view r
  obtain ⟨img, himg⟩ := Option.isSome_iff_exists.mp (hf.img o)
  exact insertObject_moved h hview himg

/-! ## move_object_to_inventory -/

/-- The object was put into the inventory, at the first of `cells` that no other object had,
or the inventory was full. -/
def Pocketed (w w' : World) (o : ObjId) (cells : List (ℕ × ℕ)) : Prop :=
  FirstFree cells (spot w '' backpack w) (spot w' o) ∨ ∀ c ∈ cells, c ∈ spot w '' backpack w

theorem Pocketed.skip {w' : World} {cells : List (ℕ × ℕ)} {c : ℕ × ℕ}
    (h : Pocketed w w' o cells) (hc : c ∈ spot w '' backpack w) : Pocketed w w' o (c :: cells) := by
  rcases h with hfree | hfull
  · exact Or.inl (hfree.skip hc)
  · exact Or.inr (List.forall_mem_cons.mpr ⟨hc, hfull⟩)

/-- The inner loop finds an object in the inventory that sits at `(x, y)`. -/
theorem any_sitsAt_iff (h : Contained w s) (x y : ℕ) :
    (s .inventory).any (sitsAt w x y) ↔ (x, y) ∈ spot w '' backpack w := by
  rw [List.any_eq_true]
  constructor
  · rintro ⟨a, ha, hsits⟩
    obtain ⟨hx, hy⟩ := of_decide_eq_true hsits
    exact ⟨a, (h.agrees.mem_iff a .inventory).mp ha, Prod.ext hx.symm hy.symm⟩
  · rintro ⟨a, ha, hspot⟩
    obtain ⟨hx, hy⟩ := Prod.mk.inj hspot
    exact ⟨a, (h.agrees.mem_iff a .inventory).mpr ha, decide_eq_true ⟨hx.symm, hy.symm⟩⟩

theorem toNat_ofInt {n : ℕ} (hn : n < 2 ^ 16) : (UInt16.ofInt n).toNat = n := by
  have hmod : ((n : ℤ) % 2 ^ 16).toNat = n := by omega
  rw [UInt16.ofInt, hmod, UInt16.toNat_ofNat']
  exact Nat.mod_eq_of_lt hn

theorem gridLoop_spec {P : Photo → Prop} (hf : Furnished P w) (h : Contained w s) (o : ObjId)
    (cells : List (ℕ × ℕ)) (hcells : ∀ c ∈ cells, c.1 < 2 ^ 16 ∧ c.2 < 2 ^ 16) :
    ∃ w', gridLoop w o cells = some w' ∧ Moved w w' o (some .inventory) ∧
      Contained w' (relocate s o .inventory) ∧ Pocketed w w' o cells := by
  induction cells with
  | nil =>
      obtain ⟨w', hrun, hmoved, hcontained⟩ := insertObject_spec hf h o .inventory
      exact ⟨w', hrun, hmoved, hcontained, Or.inr fun _ hc => absurd hc List.not_mem_nil⟩
  | cons cell cells ih =>
      obtain ⟨x, y⟩ := cell
      obtain ⟨⟨hx, hy⟩, hrest⟩ := List.forall_mem_cons.mp hcells
      have hl := h.lists .inventory
      have htaken := any_sitsAt_iff h x y
      rw [gridLoop, conflictLoop_eq _ hl (Nat.lt_succ_of_le hl.length_le)]
      cases hany : (s .inventory).any (sitsAt w x y) with
      | true =>
          obtain ⟨w', hrun, hmoved, hcontained, hpocketed⟩ := ih hrest
          exact ⟨w', hrun, hmoved, hcontained, hpocketed.skip (htaken.mp hany)⟩
      | false =>
          obtain ⟨w', hrun, hmoved, hcontained, hxs, hys⟩ := insertObjectAt_spec h o .inventory x y
          have hspot : spot w' o = (x, y) := by
            rw [spot, hxs, hys, toNat_ofInt hx, toNat_ofInt hy]
          have hfree : (x, y) ∉ spot w '' backpack w := by
            rw [← htaken, hany]
            exact Bool.false_ne_true
          refine ⟨w', hrun, hmoved, hcontained, Or.inl ?_⟩
          rw [hspot]
          exact firstFree_head hfree

/-- **`move_object_to_inventory`** moves the object to the first free place in the inventory. -/
theorem moveObjectToInventory_spec {P : Photo → Prop} (hf : Furnished P w) (h : Contained w s)
    (o : ObjId) : ∃ w', moveObjectToInventory w o = some w' ∧
      Moved w w' o (some .inventory) ∧ Contained w' (relocate s o .inventory) ∧
      Pocketed w w' o grid :=
  gridLoop_spec hf h o grid (by decide)

end MachineProblems.Analysis.Adventure
