import MachineProblems.Analysis.Adventure.Deeds
import MachineProblems.Analysis.Adventure.Gates
import MachineProblems.Library.Run

/-!
# Building the world

`build_world` fills the rooms, then the objects, then the spare photos.  A world that it returns
has its lists in order and every photo, name and image in place, its links are those of the map,
and the quest starts at its beginning.
-/

set_option autoImplicit false

namespace MachineProblems.Analysis.Adventure

open MachineProblems.Library MachineProblems.Program.Adventure MachineProblems.Program.PhotoFile
  MachineProblems.Model

variable {disk : Disk} {rands : ℕ → ℕ}

/-- The photos that the disk holds. -/
def OnDisk (disk : Disk) (p : Photo) : Prop := ∃ file, disk.readPhoto file = some p

/-! ## The rooms -/

/-- The rooms `seen` are built, and nothing else. -/
structure RoomsBuilt (disk : Disk) (seen : List RoomData) (w : World) : Prop where
  room : ∀ d ∈ seen, ∃ view, disk.readPhoto d.filename = some view ∧
    w.room d.id = ⟨some d.name, some view, none, d.left, d.enter, d.right⟩
  contents : ∀ r, (w.room r).contents = none
  object : ∀ o, (w.object o).name = none ∧ (w.object o).loc = none
  flags : w.playerFlags = 0

theorem roomsBuilt_clearedWorld (disk : Disk) (rands : ℕ → ℕ) :
    RoomsBuilt disk [] (clearedWorld rands) where
  room := by
    intro d hd
    cases hd
  contents := fun _ => rfl
  object := fun _ => ⟨rfl, rfl⟩
  flags := rfl

theorem buildRoom_built {seen : List RoomData} {w w' : World} {d : RoomData}
    (h : RoomsBuilt disk seen w) (hrun : buildRoom disk w d = some w') :
    RoomsBuilt disk (seen ++ [d]) w' := by
  unfold buildRoom at hrun
  split at hrun
  · cases hrun
  · next hname =>
      obtain ⟨view, hview, hrun⟩ := Option.bind_eq_some_iff.mp hrun
      obtain rfl := Option.some.inj hrun
      refine ⟨?_, ?_, h.object, h.flags⟩
      · intro e he
        rcases List.mem_append.mp he with he | he
        · obtain ⟨view', hview', hroom⟩ := h.room e he
          -- a room is built once
          have hne : e.id ≠ d.id := by
            intro heq
            rw [← heq, hroom] at hname
            exact hname (Option.some_ne_none _)
          refine ⟨view', hview', ?_⟩
          simpa [hne] using hroom
        · obtain rfl := List.mem_singleton.mp he
          exact ⟨view, hview, by simp⟩
      · intro r
        by_cases hr : r = d.id
        · subst hr
          simp
        · simpa [hr] using h.contents r

/-! ## The objects -/

/-- The objects `seen` are built and stand where the data puts them. -/
structure ObjectsBuilt (disk : Disk) (seen : List ObjData) (w : World) : Prop where
  room : ∀ d ∈ roomData, ∃ view, disk.readPhoto d.filename = some view ∧
    (w.room d.id).view = some view ∧ (w.room d.id).left = d.left ∧
    (w.room d.id).enter = d.enter ∧ (w.room d.id).right = d.right
  contained : ∃ s, Contained w s
  object : ∀ d ∈ seen, (w.object d.id).name.isSome ∧ (w.object d.id).img.isSome ∧
    loc w d.id = d.room
  title : ∀ d ∈ seen, (w.object d.id).name = some d.name
  unbuilt : ∀ o, (w.object o).name = none → loc w o = none
  flags : w.playerFlags = 0

theorem RoomsBuilt.objectsBuilt {w : World} (h : RoomsBuilt disk roomData w) :
    ObjectsBuilt disk [] w where
  room := by
    intro d hd
    obtain ⟨view, hview, hroom⟩ := h.room d hd
    exact ⟨view, hview, by simp [hroom]⟩
  contained := by
    refine ⟨fun _ => [], ?_, ?_, ?_⟩
    · exact fun r => Chained.nil_iff.mpr (h.contents r)
    · exact fun _ => List.nodup_nil
    · intro o r
      simp [loc, h.object o]
  object := by
    intro d hd
    cases hd
  title := by
    intro d hd
    cases hd
  unbuilt := fun o _ => (h.object o).2
  flags := h.flags

/-- An object in limbo gets its data. -/
theorem ObjectsBuilt.fill {seen : List ObjData} {w : World} (h : ObjectsBuilt disk seen w)
    {o : ObjId} (hname : (w.object o).name = none) (name : String) (img : Image) :
    ∃ s, Contained (w.setObject o ⟨some name, none, none, 0, 0, some img⟩) s := by
  obtain ⟨s, hs⟩ := h.contained
  have hlimbo := h.unbuilt o hname
  refine ⟨s, ?_, ?_⟩
  · intro r
    refine (hs.lists r).congr fun a ha => ?_
    have hne : a ≠ o := by
      rintro rfl
      exact hs.not_mem hlimbo r ha
    simp [hne]
  · have hloc : loc (w.setObject o ⟨some name, none, none, 0, 0, some img⟩) = loc w := by
      funext a
      by_cases ha : a = o
      · subst ha
        simpa [loc] using hlimbo.symm
      · simp [loc, ha]
    rw [hloc]
    exact hs.agrees

/-- What placing an object leaves of the data just filled in. -/
theorem ObjectsBuilt.placed {seen : List ObjData} {w w' : World} {d : ObjData} {img : Image}
    (h : ObjectsBuilt disk seen w) (hname : (w.object d.id).name = none)
    (hmoved : Moved (w.setObject d.id ⟨some d.name, none, none, 0, 0, some img⟩) w' d.id d.room)
    (hcontained : ∃ s, Contained w' s) : ObjectsBuilt disk (seen ++ [d]) w' where
  room := by
    intro e he
    rw [view_of_scenery hmoved.scenery, left_of_scenery hmoved.scenery,
      enter_of_scenery hmoved.scenery, right_of_scenery hmoved.scenery]
    exact h.room e he
  contained := hcontained
  object := by
    intro e he
    rw [name_of_scenery hmoved.scenery, img_of_scenery hmoved.scenery, hmoved.loc]
    by_cases heq : e.id = d.id
    · rcases List.mem_append.mp he with he | he
      · have hbuilt := (h.object e he).1
        rw [heq, hname] at hbuilt
        cases hbuilt
      · obtain rfl := List.mem_singleton.mp he
        simp
    · have hmem : e ∈ seen := by
        rcases List.mem_append.mp he with he | he
        · exact he
        · exact absurd (congrArg ObjData.id (List.mem_singleton.mp he)) heq
      simpa [heq, loc] using h.object e hmem
  title := by
    intro e he
    rw [name_of_scenery hmoved.scenery]
    rcases List.mem_append.mp he with he | he
    · have htitle := h.title e he
      have hne : e.id ≠ d.id := by
        intro heq
        rw [heq, hname] at htitle
        cases htitle
      simpa [hne] using htitle
    · obtain rfl := List.mem_singleton.mp he
      simp
  unbuilt := by
    intro o
    rw [name_of_scenery hmoved.scenery, hmoved.loc]
    by_cases ho : o = d.id
    · subst ho
      simp
    · simpa [ho, loc] using h.unbuilt o
  flags := (playerFlags_of_scenery hmoved.scenery).trans h.flags

/-- Where `insert_object` does not fault, it moves the object. -/
theorem insertObject_inv {w w' : World} {s : Shelves RoomId ObjId} {o : ObjId} {r : RoomId}
    (h : Contained w s) (hrun : insertObject w o r = some w') :
    Moved w w' o (some r) ∧ Contained w' (relocate s o r) := by
  obtain ⟨view, hview, hrest⟩ := Option.bind_eq_some_iff.mp hrun
  obtain ⟨img, himg, -⟩ := Option.bind_eq_some_iff.mp hrest
  obtain ⟨w₁, hrun', hmoved, hcontained⟩ := insertObject_moved h hview himg
  obtain rfl := Option.some.inj (hrun.symm.trans hrun')
  exact ⟨hmoved, hcontained⟩

theorem buildObject_built {seen : List ObjData} {w w' : World} {d : ObjData}
    (h : ObjectsBuilt disk seen w) (hrun : buildObject disk w d = some w') :
    ObjectsBuilt disk (seen ++ [d]) w' := by
  unfold buildObject at hrun
  split at hrun
  · cases hrun
  · next hname =>
      obtain ⟨img, himg, hrun⟩ := Option.bind_eq_some_iff.mp hrun
      obtain ⟨s, hs⟩ := h.fill (not_not.mp hname) d.name img
      have hplaced : Moved (w.setObject d.id ⟨some d.name, none, none, 0, 0, some img⟩) w' d.id
          d.room ∧ ∃ s', Contained w' s' := by
        cases hroom : d.room with
        | none =>
            rw [hroom] at hrun
            obtain rfl := Option.some.inj hrun
            refine ⟨⟨rfl, ?_, fun _ _ => ⟨rfl, rfl⟩⟩, s, hs⟩
            exact (Function.update_eq_self_iff.mpr (by simp [loc])).symm
        | some r =>
            rw [hroom] at hrun
            dsimp only at hrun
            split at hrun
            · obtain ⟨w₁, hrun', hmoved, hcontained, -⟩ := insertObjectAt_spec hs d.id r d.x d.y
              obtain rfl := Option.some.inj (hrun.symm.trans hrun')
              exact ⟨hmoved, _, hcontained⟩
            · obtain ⟨hmoved, hcontained⟩ := insertObject_inv hs hrun
              exact ⟨hmoved, _, hcontained⟩
      exact h.placed (not_not.mp hname) hplaced.1 hplaced.2

/-! ## The spare photos -/

/-- The world is as the objects left it, and the spare photos `seen` are read. -/
structure SwapsBuilt (disk : Disk) (w₀ : World) (seen : List (Swap × String)) (w : World) :
    Prop where
  room : w.room = w₀.room
  object : w.object = w₀.object
  flags : w.playerFlags = w₀.playerFlags
  swapPhoto : ∀ d ∈ seen, ∃ p, disk.readPhoto d.2 = some p ∧ w.swapPhoto d.1 = some p

theorem buildSwap_built {w₀ w w' : World} {seen : List (Swap × String)} {d : Swap × String}
    (h : SwapsBuilt disk w₀ seen w) (hrun : buildSwap disk w d = some w') :
    SwapsBuilt disk w₀ (seen ++ [d]) w' := by
  unfold buildSwap at hrun
  split at hrun
  · cases hrun
  · next hfree =>
      obtain ⟨photo, hphoto, hrun⟩ := Option.bind_eq_some_iff.mp hrun
      obtain rfl := Option.some.inj hrun
      refine ⟨h.room, h.object, h.flags, ?_⟩
      intro e he
      rcases List.mem_append.mp he with he | he
      · obtain ⟨p, hp, hswap⟩ := h.swapPhoto e he
        -- a photo is read once
        have hne : e.1 ≠ d.1 := by
          intro heq
          rw [← heq, hswap] at hfree
          exact hfree rfl
        exact ⟨p, hp, by simpa [hne] using hswap⟩
      · obtain rfl := List.mem_singleton.mp he
        exact ⟨photo, hphoto, by simp⟩

/-! ## The world built -/

/-- The room in which the data puts an object. -/
def startingPlace (o : ObjId) : Option RoomId :=
  (objData.find? fun d => d.id = o).bind ObjData.room

theorem startingPlace_spec (o : ObjId) : ∃ d ∈ objData, d.id = o ∧ startingPlace o = d.room := by
  obtain ⟨e, he, rfl⟩ := List.mem_map.mp (mem_objData o)
  have hsome : (objData.find? fun d => d.id = e.id).isSome :=
    List.find?_isSome.mpr ⟨e, he, by simp⟩
  obtain ⟨d, hd⟩ := Option.isSome_iff_exists.mp hsome
  refine ⟨d, List.mem_of_find?_eq_some hd, by simpa using List.find?_some hd, ?_⟩
  rw [startingPlace, hd, Option.bind_some]

/-- What `build_world` returns. -/
structure Built (disk : Disk) (w : World) : Prop where
  sound : Sound (OnDisk disk) w
  left : ∀ d ∈ roomData, (w.room d.id).left = d.left
  enter : ∀ d ∈ roomData, (w.room d.id).enter = d.enter
  right : ∀ d ∈ roomData, (w.room d.id).right = d.right
  loc : loc w = startingPlace
  flags : w.playerFlags = 0
  view : ∀ d ∈ roomData, (w.room d.id).view = disk.readPhoto d.filename
  swapPhoto : ∀ d ∈ swapData, w.swapPhoto d.1 = disk.readPhoto d.2
  title : ∀ d ∈ objData, (w.object d.id).name = some d.name

theorem ObjectsBuilt.built {w₀ w : World} (h : ObjectsBuilt disk objData w₀)
    (hswap : SwapsBuilt disk w₀ swapData w) : Built disk w := by
  have hroom := hswap.room
  have hobject := hswap.object
  obtain ⟨s, hs⟩ := h.contained
  have hobj : ∀ o, (w.object o).name.isSome ∧ (w.object o).img.isSome ∧
      Adventure.loc w o = startingPlace o := by
    intro o
    obtain ⟨d, hd, rfl, hplace⟩ := startingPlace_spec o
    obtain ⟨hname, himg, hloc⟩ := h.object d hd
    rw [hplace, Adventure.loc, hobject]
    exact ⟨hname, himg, hloc⟩
  constructor
  · refine ⟨⟨s, hs.of_contents (fun r => by rw [hroom]) hobject⟩, ?_, ?_, ?_, ?_⟩
    · intro r
      obtain ⟨d, hd, rfl⟩ := mem_roomData r
      obtain ⟨view, hview, hroomView, -⟩ := h.room d hd
      rw [hroom]
      exact ⟨view, hroomView, d.filename, hview⟩
    · intro which
      have hmem : ∃ d ∈ swapData, d.1 = which := by
        cases which <;> decide
      obtain ⟨d, hd, rfl⟩ := hmem
      obtain ⟨p, hp, hphoto⟩ := hswap.swapPhoto d hd
      exact ⟨p, hphoto, d.2, hp⟩
    · exact fun o => (hobj o).1
    · exact fun o => (hobj o).2.1
  · intro d hd
    obtain ⟨view, -, -, hleft, -⟩ := h.room d hd
    rw [hroom, hleft]
  · intro d hd
    obtain ⟨view, -, -, -, henter, -⟩ := h.room d hd
    rw [hroom, henter]
  · intro d hd
    obtain ⟨view, -, -, -, -, hright⟩ := h.room d hd
    rw [hroom, hright]
  · exact funext fun o => (hobj o).2.2
  · rw [hswap.flags, h.flags]
  · intro d hd
    obtain ⟨view, hview, hroomView, -⟩ := h.room d hd
    rw [hroom, hroomView, hview]
  · intro d hd
    obtain ⟨p, hp, hphoto⟩ := hswap.swapPhoto d hd
    rw [hphoto, hp]
  · intro d hd
    rw [hobject, h.title d hd]

/-- **`build_world`** succeeds with a built world. -/
theorem buildWorld_built {w : World} (hrun : buildWorld disk rands = some w) : Built disk w := by
  obtain ⟨w₁, hrooms, hrun⟩ := Option.bind_eq_some_iff.mp hrun
  obtain ⟨w₂, hobjects, hswaps⟩ := Option.bind_eq_some_iff.mp hrun
  rw [foldlM_eq_run] at hrooms hobjects hswaps
  have h₁ : RoomsBuilt disk ([] ++ roomData) w₁ :=
    run_collects (fun _ _ _ _ h hstep => buildRoom_built h hstep)
      (roomsBuilt_clearedWorld disk rands) hrooms
  have h₂ : ObjectsBuilt disk ([] ++ objData) w₂ :=
    run_collects (fun _ _ _ _ h hstep => buildObject_built h hstep) h₁.objectsBuilt hobjects
  have h₃ : SwapsBuilt disk w₂ ([] ++ swapData) w :=
    run_collects (fun _ _ _ _ h hstep => buildSwap_built h hstep)
      ⟨rfl, rfl, rfl, fun d hd => by cases hd⟩ hswaps
  exact h₂.built h₃

theorem two_lt_word : 2 < 65536 := by decide

/-- A disk on which every photo and every object image is blank. -/
def blankDisk : Disk where
  readPhoto := fun _ =>
    some ⟨320, 182, fun _ => none, Vector.replicate _ 0, windowWidth_le, windowHeight_le⟩
  readObjImage := fun _ => some ⟨2, 2, Vector.replicate _ 0, two_lt_word, two_lt_word⟩

theorem buildWorld_blankDisk : ∃ w, buildWorld blankDisk (fun _ => 0) = some w :=
  Option.isSome_iff_exists.mp (by decide +kernel)

/-! ## The start of the quest -/

theorem Built.shut {w : World} (h : Built disk w) : (w.room .cockpit).enter = none := by
  have hshut : ∀ d ∈ roomData, d.id = .cockpit → d.enter = none := by decide
  obtain ⟨d, hd, hid⟩ := mem_roomData .cockpit
  rw [← hid, h.enter d hd, hshut d hd hid]

theorem Built.mapped {w : World} (h : Built disk w) (rptr : Option RoomId) :
    Mapped (quest w rptr) where
  left := h.left
  right := h.right
  enter := fun d hd _ _ => h.enter d hd
  cockpit := Or.inl h.shut

theorem Built.flag {w : World} (h : Built disk w) (f : Flag) : playerFlagIsSet w f = false := by
  rw [playerFlagIsSet_eq, h.flags]
  exact BitVec.getLsbD_zero

theorem items_start : Items startingPlace (fun _ => false) none := by
  constructor <;> decide

/-- **The quest starts behind no guard.** -/
theorem Built.gated {w : World} (h : Built disk w) : Gated (quest w (some startInRoom)) where
  mapped := h.mapped _
  items := by
    have hflag : (quest w (some startInRoom)).flag = fun _ => false := funext h.flag
    have hloc : (quest w (some startInRoom)).loc = startingPlace := h.loc
    have hdoor : (quest w (some startInRoom)).enter .cockpit = none := h.shut
    rw [hflag, hloc, hdoor]
    exact items_start
  here := by
    intro r hr
    obtain rfl : startInRoom = r := by simpa [Quest.standing, quest, startInRoom] using hr
    exact ⟨by decide, trivial⟩
  somewhere := by
    intro _
    simp [Quest.standing, quest, startInRoom]

end MachineProblems.Analysis.Adventure
