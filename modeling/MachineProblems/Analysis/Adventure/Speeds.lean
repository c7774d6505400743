import MachineProblems.Analysis.Adventure.Clamping
import MachineProblems.Analysis.Adventure.Inventory
import MachineProblems.Analysis.Adventure.Playback

/-!
# Scrolling speeds

The game keeps the two scrolling speeds next to the world and corrects them after `get` and
`drop` only.  That is enough, because no other command brings the board or the jetpack into the
inventory or out of it, `get` takes neither out, and `drop` brings neither in.
-/

set_option autoImplicit false

namespace MachineProblems.Analysis.Adventure

open MachineProblems.Library MachineProblems.Program.Adventure MachineProblems.Program.PhotoFile

variable {disk : Disk} {rands : ℕ → ℕ} {P : Photo → Prop} {w w' : World} {g g' : Game}

/-! ## Accelerators -/

/-- Whether the object is in the inventory, as `player_has_board` and `player_has_jetpack` ask. -/
def carries (w : World) (o : ObjId) : Bool := (w.object o).loc == some .inventory

theorem carries_iff {o : ObjId} : carries w o ↔ o ∈ backpack w := beq_iff_eq

/-- The board or the jetpack. -/
def Accelerator (o : ObjId) : Prop := o = .board ∨ o = .jetpack

/-- What `handle_typing` makes of the speed that the object `o` raises. -/
def adjusted (cmd : CmdId) (w : World) (o : ObjId) (speed : ℤ) : ℤ :=
  match cmd with
  | .drop => if carries w o then speed else motionSpeed
  | .get => if carries w o then motionSpeed * 3 else speed
  | _ => speed

theorem adjustSpeeds_adjusted (cmd : CmdId) (g : Game) : adjustSpeeds cmd g =
    { g with
      xSpeed := adjusted cmd g.world .board g.xSpeed
      ySpeed := adjusted cmd g.world .jetpack g.ySpeed } := by
  cases cmd <;> rfl

theorem Accelerator.given {o : ObjId} (ho : Accelerator o) {call : Call}
    (hcall : ∀ arg, call ≠ .typed .drop arg) : o ∉ given call := by
  cases call with
  | typed c arg =>
      cases c
      case drop => exact absurd rfl (hcall arg)
      all_goals rcases ho with rfl | rfl <;> simp [Adventure.given]
  | _ => simp [Adventure.given]

theorem Accelerator.gained {o : ObjId} (ho : Accelerator o) {call : Call}
    (hcall : ∀ arg, call ≠ .typed .get arg) : o ∉ gained call := by
  cases call with
  | typed c arg =>
      cases c
      case get => exact absurd rfl (hcall arg)
      all_goals rcases ho with rfl | rfl <;> simp [Adventure.gained]
  | _ => simp [Adventure.gained]

/-- What neither comes into the inventory nor out of it. -/
theorem Handles.carries_eq {objs into : Set ObjId} (h : Handles objs into w w') {o : ObjId}
    (hobjs : o ∉ objs) (hinto : o ∉ into) : carries w' o = carries w o := by
  rw [Bool.eq_iff_iff, carries_iff, carries_iff]
  exact ⟨h.admits hinto, h.keeps hobjs⟩

/-- **The correction after a command is enough.** -/
theorem adjusted_speedWith {cmd : CmdId} {arg : Text} {o : ObjId} (ho : Accelerator o)
    (h : Handles (given (.typed cmd arg)) (gained (.typed cmd arg)) w w') :
    adjusted cmd w' o (speedWith (carries w o)) = speedWith (carries w' o) := by
  by_cases hdrop : cmd = .drop
  · subst hdrop
    -- what is in the inventory now was there before
    have hin : carries w' o → carries w o := by
      rw [carries_iff, carries_iff]
      exact h.admits (ho.gained fun _ => by simp)
    cases hw' : carries w' o with
    | true => simp [adjusted, hw', hin hw']
    | false => simp [adjusted, hw', speedWith]
  · by_cases hget : cmd = .get
    · subst hget
      have hkeep : carries w o → carries w' o := by
        rw [carries_iff, carries_iff]
        exact h.keeps (ho.given fun _ => by simp)
      cases hw : carries w o with
      | true => simp [adjusted, hkeep hw, speedWith]
      | false => cases hw' : carries w' o <;> simp [adjusted, hw', speedWith]
    · have hobjs : o ∉ given (.typed cmd arg) := ho.given fun _ => by simp [hdrop]
      have hinto : o ∉ gained (.typed cmd arg) := ho.gained fun _ => by simp [hget]
      rw [h.carries_eq hobjs hinto]
      cases cmd <;> first | rfl | contradiction

/-! ## Rounds -/

/-- The speeds are those that the accelerators in the inventory give. -/
structure Paced (P : Photo → Prop) (g : Game) : Prop where
  stocked : Stocked P ⟨g.world, g.place⟩
  xSpeed : g.xSpeed = speedWith (carries g.world .board)
  ySpeed : g.ySpeed = speedWith (carries g.world .jetpack)

/-- The game with another screen, and the same room, world and speeds. -/
structure Redrawn (g g' : Game) : Prop where
  place : g'.place = g.place
  world : g'.world = g.world
  xSpeed : g'.xSpeed = g.xSpeed
  ySpeed : g'.ySpeed = g.ySpeed

theorem Redrawn.refl (g : Game) : Redrawn g g := ⟨rfl, rfl, rfl, rfl⟩

theorem Redrawn.trans {g₁ g₂ g₃ : Game} (h : Redrawn g₁ g₂) (h' : Redrawn g₂ g₃) :
    Redrawn g₁ g₃ :=
  ⟨h'.place.trans h.place, h'.world.trans h.world, h'.xSpeed.trans h.xSpeed,
    h'.ySpeed.trans h.ySpeed⟩

theorem Paced.redrawn (h : Paced P g) (hg : Redrawn g g') : Paced P g' := by
  obtain ⟨hplace, hworld, hx, hy⟩ := hg
  constructor
  · rw [hplace, hworld]
    exact h.stocked
  · rw [hx, hworld]
    exact h.xSpeed
  · rw [hy, hworld]
    exact h.ySpeed

theorem Reviewed.redrawn {mapX mapY : ℕ} (h : Reviewed g g' mapX mapY) : Redrawn g g' :=
  ⟨h.place, h.world, h.xSpeed, h.ySpeed⟩

theorem viewWindow_redrawn (h : viewWindow g = some g') : Redrawn g g' := by
  obtain ⟨s, -, hg⟩ := Option.bind_eq_some_iff.mp h
  obtain rfl := Option.some.inj hg
  exact ⟨rfl, rfl, rfl, rfl⟩

theorem redrawRoom_redrawn (h : redrawRoom g = some g') : Redrawn g g' := by
  unfold redrawRoom at h
  obtain ⟨s, -, hg⟩ := Option.bind_eq_some_iff.mp h
  obtain rfl := Option.some.inj hg
  exact ⟨rfl, rfl, rfl, rfl⟩

theorem prepRoom_redrawn (h : prepRoom g = some g') : Redrawn g g' := by
  obtain ⟨r, -, h⟩ := Option.bind_eq_some_iff.mp h
  obtain ⟨view, -, hg⟩ := Option.bind_eq_some_iff.mp h
  obtain rfl := Option.some.inj hg
  exact ⟨rfl, rfl, rfl, rfl⟩

theorem frame_redrawn (h : frame g = some g') : Redrawn g g' := by
  obtain ⟨g₁, hdraw, hg⟩ := Option.bind_eq_some_iff.mp h
  obtain rfl := Option.some.inj hg
  have hg₁ : Redrawn g g₁ := by
    split at hdraw
    · obtain ⟨g₂, hwindow, hdraw⟩ := Option.bind_eq_some_iff.mp hdraw
      obtain ⟨g₃, hprep, hdraw⟩ := Option.bind_eq_some_iff.mp hdraw
      obtain ⟨g₄, hredraw, hdraw⟩ := Option.bind_eq_some_iff.mp hdraw
      obtain rfl := Option.some.inj hdraw
      have hall := (viewWindow_redrawn hwindow).trans
        ((prepRoom_redrawn hprep).trans (redrawRoom_redrawn hredraw))
      exact ⟨hall.place, hall.world, hall.xSpeed, hall.ySpeed⟩
    · obtain rfl := Option.some.inj hdraw
      exact .refl g
  exact ⟨hg₁.place, hg₁.world, hg₁.xSpeed, hg₁.ySpeed⟩

theorem scroll_redrawn (scroll : Scroll) (h : scroll.move g = some g') : Redrawn g g' := by
  have htail : ∀ {mapX mapY : ℕ} {draw : Game → Screen → Option Screen}, (do
      let g ← viewWindow { g with mapX := mapX, mapY := mapY }
      let screen ← draw g g.screen
      some { g with screen := screen }) = some g' → Redrawn g g' := by
    intro mapX mapY draw hmove
    obtain ⟨hplace, hworld, hx, hy⟩ := (reviewed_tail hmove).redrawn
    exact ⟨hplace, hworld, hx, hy⟩
  cases scroll with
  | down => exact htail h
  | right => exact htail h
  | left =>
      obtain ⟨width, -, hmove⟩ := Option.bind_eq_some_iff.mp h
      exact htail hmove
  | up =>
      obtain ⟨height, -, hmove⟩ := Option.bind_eq_some_iff.mp h
      exact htail hmove

/-- What a call from the game leaves. -/
structure Called (P : Photo → Prop) (g g' : Game) (call : Call) : Prop where
  stocked : Stocked P ⟨g'.world, g'.place⟩
  handles : Handles (given call) (gained call) g.world g'.world
  xSpeed : g'.xSpeed = g.xSpeed
  ySpeed : g'.ySpeed = g.ySpeed

theorem callWorld_called (h : Paced P g) {call : Call} {a : TcAction}
    (hrun : callWorld g call = some (g', a)) : Called P g g' call := by
  obtain ⟨r, hr, hrun⟩ := Option.bind_eq_some_iff.mp hrun
  obtain ⟨out, hperform, hrun⟩ := Option.bind_eq_some_iff.mp hrun
  obtain ⟨rfl, rfl⟩ := Prod.mk.inj (Option.some.inj hrun)
  have hstep : playStep ⟨g.world, g.place⟩ call = some ⟨out.world, out.rptr⟩ := by
    simp [playStep, hr, hperform]
  exact ⟨playStep_stocked h.stocked hstep, h.stocked.handles hstep, rfl, rfl⟩

theorem moveRoom_paced (h : Paced P g) {call : Call} (hcall : ∀ c arg, call ≠ .typed c arg)
    (hrun : moveRoom g call = some g') : Paced P g' := by
  obtain ⟨⟨g₁, a⟩, hcallWorld, hg⟩ := Option.bind_eq_some_iff.mp hrun
  obtain rfl := Option.some.inj hg
  obtain ⟨hstocked, hhandles, hx, hy⟩ := callWorld_called h hcallWorld
  have hsame : ∀ {o}, Accelerator o → carries g₁.world o = carries g.world o :=
    fun ho => hhandles.carries_eq (ho.given (hcall .drop)) (ho.gained (hcall .get))
  refine ⟨hstocked, ?_, ?_⟩
  · exact hx.trans (by rw [h.xSpeed, hsame (Or.inl rfl)])
  · exact hy.trans (by rw [h.ySpeed, hsame (Or.inr rfl)])

theorem executeTyped_paced (h : Paced P g) {cmd : CmdId} {arg : Text} {entered : Bool}
    (hrun : executeTyped g cmd arg = some (g', entered)) : Paced P g' := by
  obtain ⟨⟨g₁, a⟩, hcallWorld, hrun⟩ := Option.bind_eq_some_iff.mp hrun
  obtain ⟨hstocked, hhandles, hx, hy⟩ := callWorld_called h hcallWorld
  have hpaced : Paced P (adjustSpeeds cmd g₁) := by
    rw [adjustSpeeds_adjusted]
    refine ⟨hstocked, ?_, ?_⟩
    · simp only [hx, h.xSpeed]
      exact adjusted_speedWith (Or.inl rfl) hhandles
    · simp only [hy, h.ySpeed]
      exact adjusted_speedWith (Or.inr rfl) hhandles
  dsimp only at hrun
  cases a with
  | redrawRoom =>
      obtain ⟨g₂, hredraw, hg⟩ := Option.bind_eq_some_iff.mp hrun
      obtain ⟨rfl, -⟩ := Prod.mk.inj (Option.some.inj hg)
      exact hpaced.redrawn (redrawRoom_redrawn hredraw)
  | changeRoom =>
      obtain ⟨rfl, -⟩ := Prod.mk.inj (Option.some.inj hrun)
      exact hpaced
  | allowEdit =>
      obtain ⟨rfl, -⟩ := Prod.mk.inj (Option.some.inj hrun)
      exact hpaced
  | discardText =>
      obtain ⟨rfl, -⟩ := Prod.mk.inj (Option.some.inj hrun)
      exact hpaced

theorem handleTyping_paced (h : Paced P g) {text : Text} {entered : Bool}
    (hrun : handleTyping g text = some (g', entered)) : Paced P g' := by
  unfold handleTyping at hrun
  dsimp only at hrun
  split at hrun
  · obtain ⟨rfl, -⟩ := Prod.mk.inj (Option.some.inj hrun)
    exact h
  · split at hrun
    · obtain ⟨rfl, -⟩ := Prod.mk.inj (Option.some.inj hrun)
      exact ⟨h.stocked.of_sameBut (sameBut_showStatus g.world _), h.xSpeed, h.ySpeed⟩
    · exact executeTyped_paced h hrun

theorem command_paced (h : Paced P g) (cmd : Cmd) (hrun : command g cmd = some g') :
    Paced P g' := by
  cases cmd with
  | none =>
      obtain rfl := Option.some.inj hrun
      exact h
  | up => exact h.redrawn (scroll_redrawn .down hrun)
  | right => exact h.redrawn (scroll_redrawn .left hrun)
  | down => exact h.redrawn (scroll_redrawn .up hrun)
  | left => exact h.redrawn (scroll_redrawn .right hrun)
  | moveLeft => exact moveRoom_paced h (fun _ _ => by simp) hrun
  | enter => exact moveRoom_paced h (fun _ _ => by simp) hrun
  | moveRight => exact moveRoom_paced h (fun _ _ => by simp) hrun
  | typed text =>
      obtain ⟨⟨g₁, entered⟩, htyping, hg⟩ := Option.bind_eq_some_iff.mp hrun
      obtain rfl := Option.some.inj hg
      obtain ⟨hstocked, hx, hy⟩ := handleTyping_paced h htyping
      exact ⟨hstocked, hx, hy⟩
  | quit =>
      obtain rfl := Option.some.inj hrun
      exact ⟨h.stocked, h.xSpeed, h.ySpeed⟩

theorem gameRound_paced (g : Game) (cmd : Cmd) (g' : Game) (h : Paced P g)
    (hrun : gameRound g cmd = some g') : Paced P g' := by
  unfold gameRound at hrun
  split at hrun
  · obtain rfl := Option.some.inj hrun
    exact h
  · obtain ⟨g₁, hframe, hrun⟩ := Option.bind_eq_some_iff.mp hrun
    obtain ⟨g₂, hcommand, hrun⟩ := Option.bind_eq_some_iff.mp hrun
    have h₂ := command_paced (h.redrawn (frame_redrawn hframe)) cmd hcommand
    split at hrun
    · obtain rfl := Option.some.inj hrun
      exact ⟨h₂.stocked, h₂.xSpeed, h₂.ySpeed⟩
    · obtain rfl := Option.some.inj hrun
      exact h₂

theorem paced_start {w₀ : World} (hbuild : buildWorld disk rands = some w₀) (screen : Screen) :
    Paced (OnDisk disk) (startGame w₀ startInRoom screen) := by
  have hcarries : ∀ o, carries w₀ o = false := by
    intro o
    have hstart : startingPlace o ≠ some .inventory := by
      cases o <;> decide
    rw [← (buildWorld_built hbuild).loc] at hstart
    exact beq_eq_false_iff_ne.mpr hstart
  refine ⟨stocked_start hbuild, ?_, ?_⟩
  · rw [startGame, hcarries]
    rfl
  · rw [startGame, hcarries]
    rfl

/-- **The scrolling speeds track the accelerators** after every sequence of commands. -/
theorem speeds_track {w₀ : World} (hbuild : buildWorld disk rands = some w₀) (screen : Screen)
    {cmds : List Cmd} (hrun : run gameRound (startGame w₀ startInRoom screen) cmds = some g) :
    g.xSpeed = (if playerHasBoard g.world then motionSpeed * 3 else motionSpeed) ∧
      g.ySpeed = if playerHasJetpack g.world then motionSpeed * 3 else motionSpeed := by
  obtain ⟨-, hx, hy⟩ := run_invariant gameRound_paced (paced_start hbuild screen) hrun
  exact ⟨hx, hy⟩

theorem speeds_track_blankDisk : ∃ w₀, buildWorld blankDisk (fun _ => 0) = some w₀ ∧
    ∃ g, run gameRound (startGame w₀ startInRoom (setModeX (fun _ => 0) fun _ _ => 0))
        [.typed "get board".toList, .enter, .right, .typed "drop board".toList] = some g ∧
      g.xSpeed = if playerHasBoard g.world then motionSpeed * 3 else motionSpeed := by
  obtain ⟨w₀, hbuild⟩ := buildWorld_blankDisk
  have hbuilt := buildWorld_built hbuild
  have hlarge : Sound Large w₀ := hbuilt.sound.mono fun _ => large_blankDisk
  obtain ⟨-, hruns⟩ := frames_show hlarge startInRoom (fun _ => 0) (fun _ _ => 0)
    [.typed "get board".toList, .enter, .right, .typed "drop board".toList]
  obtain ⟨g, hrun⟩ := hruns hbuilt.homed
  exact ⟨w₀, hbuild, g, hrun, (speeds_track hbuild _ hrun).1⟩

end MachineProblems.Analysis.Adventure
