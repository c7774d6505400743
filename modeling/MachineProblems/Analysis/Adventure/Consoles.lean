import MachineProblems.Analysis.Adventure.Copies
import MachineProblems.Analysis.Adventure.PageFlips
import MachineProblems.Program.Adventure.Console

/-!
# What the player sees

The rounds of a game, with all that they send to the card: in every frame the monitor shows the
picture of the player's room in the colours of its photo, and the status bar below it.
-/

set_option autoImplicit false

namespace MachineProblems.Analysis.Adventure

open MachineProblems.Library MachineProblems.Program.Adventure MachineProblems.Program.PhotoFile
  MachineProblems.Program.Quantizer MachineProblems.Model MachineProblems.Model.StatusLine

/-! ## What a command leaves alone -/

theorem setViewWindow_target {s s' : Screen} {x y : ℤ} (h : setViewWindow s x y = some s') :
    s'.targetImg = s.targetImg := by
  unfold setViewWindow at h
  dsimp only at h
  split_ifs at h
  · rw [← Option.some.inj h]
  · rw [← Option.some.inj h]
  all_goals
    obtain ⟨build, -, rfl⟩ := Option.map_eq_some_iff.mp h
    rfl

/-- The page, the room of the photo and the photos are as they were, unless a room is to be
entered. -/
structure Lasting (g g' : Game) : Prop where
  target : g'.screen.targetImg = g.screen.targetImg
  room : g'.curRoom = g.curRoom
  views : g'.enterRoom = false → ∀ a, (g'.world.room a).view = (g.world.room a).view

section Lasting

variable {g g' : Game} {r : RoomId}

/-- Scrolling: the window moves, and some lines are drawn. -/
theorem lasting_tail {draw : Game → Screen → Option Screen}
    (h : (do
      let g ← viewWindow g
      let screen ← draw g g.screen
      some { g with screen := screen }) = some g')
    (hdraw : ∀ g s s', draw g s = some s' → ∃ m, s' = { s with build := m }) :
    Lasting g g' := by
  obtain ⟨g₁, hwindow, htail⟩ := Option.bind_eq_some_iff.mp h
  obtain ⟨s₁, hset, hg₁⟩ := Option.bind_eq_some_iff.mp hwindow
  obtain ⟨s₂, hlines, hg'⟩ := Option.bind_eq_some_iff.mp htail
  obtain rfl := Option.some.inj hg₁
  obtain rfl := Option.some.inj hg'
  obtain ⟨m, rfl⟩ := hdraw _ _ _ hlines
  have htarget := setViewWindow_target hset
  exact ⟨htarget, rfl, fun _ _ => rfl⟩

/-- The photos change with the room only. -/
theorem Follows.views {out : Outcome} (h : Follows Large g.world r out)
    (hstay : out.action ≠ .changeRoom) (a : RoomId) :
    (out.world.room a).view = (g.world.room a).view := by
  cases haction : out.action with
  | changeRoom => exact absurd haction hstay
  | redrawRoom => exact (h.redraw haction).2 a
  | allowEdit => rw [(h.quiet (Or.inl haction)).2.1]
  | discardText => rw [(h.quiet (Or.inr haction)).2.1]

theorem moveRoom_lasting (h : Coherent g) (hr : g.place = some r) {call : Call}
    (hrun : moveRoom g call = some g') : Lasting g g' := by
  unfold moveRoom at hrun
  rcases callWorld_cases h hr call with ⟨out, -, hf, hcalled⟩ | ⟨hnone, -⟩
  · rw [hcalled] at hrun
    obtain rfl := Option.some.inj hrun
    exact ⟨rfl, rfl, fun henter => hf.views (of_decide_eq_false henter)⟩
  · rw [hnone] at hrun
    cases hrun

theorem executeTyped_lasting (h : Coherent g) (hr : g.place = some r) {cmd : CmdId} {arg : Text}
    {entered : Bool} (hrun : executeTyped g cmd arg = some (g', entered)) (again : Bool)
    (hagain : entered = true → again = true) : Lasting g { g' with enterRoom := again } := by
  unfold executeTyped at hrun
  rcases callWorld_cases h hr (.typed cmd arg) with ⟨out, -, hf, hcalled⟩ | ⟨hnone, -⟩
  · obtain ⟨xSpeed, ySpeed, hspeeds, -⟩ := adjustSpeeds_eq h cmd out
    rw [hcalled, Option.bind_eq_bind, Option.bind_some] at hrun
    simp only [hspeeds] at hrun
    cases haction : out.action with
    | changeRoom =>
        rw [haction] at hrun
        obtain ⟨rfl, rfl⟩ := Prod.mk.inj (Option.some.inj hrun)
        refine ⟨rfl, rfl, fun henter => ?_⟩
        have hfalse : again = false := henter
        rw [hagain rfl] at hfalse
        cases hfalse
    | redrawRoom =>
        rw [haction] at hrun
        obtain ⟨g₁, hredraw, hg⟩ := Option.bind_eq_some_iff.mp hrun
        obtain ⟨rfl, rfl⟩ := Prod.mk.inj (Option.some.inj hg)
        obtain ⟨m, rfl⟩ := redrawRoom_frame hredraw
        exact ⟨rfl, rfl, fun _ => hf.views (by rw [haction]; decide)⟩
    | allowEdit =>
        rw [haction] at hrun
        obtain ⟨rfl, rfl⟩ := Prod.mk.inj (Option.some.inj hrun)
        exact ⟨rfl, rfl, fun _ => hf.views (by rw [haction]; decide)⟩
    | discardText =>
        rw [haction] at hrun
        obtain ⟨rfl, rfl⟩ := Prod.mk.inj (Option.some.inj hrun)
        exact ⟨rfl, rfl, fun _ => hf.views (by rw [haction]; decide)⟩
  · rw [hnone] at hrun
    cases hrun

theorem handleTyping_lasting (h : Coherent g) (hr : g.place = some r) {text : Text}
    {entered : Bool} (hrun : handleTyping g text = some (g', entered)) (again : Bool)
    (hagain : entered = true → again = true) : Lasting g { g' with enterRoom := again } := by
  unfold handleTyping at hrun
  dsimp only at hrun
  split at hrun
  · obtain ⟨rfl, rfl⟩ := Prod.mk.inj (Option.some.inj hrun)
    exact ⟨rfl, rfl, fun _ _ => rfl⟩
  · split at hrun
    · obtain ⟨rfl, rfl⟩ := Prod.mk.inj (Option.some.inj hrun)
      exact ⟨rfl, rfl, fun _ _ => rfl⟩
    · exact executeTyped_lasting h hr hrun again hagain

/-- **A command leaves the page** and, unless a room is to be entered, the photo on it. -/
theorem command_lasting (h : Coherent g) (hr : g.place = some r) {cmd : Cmd}
    (hrun : command g cmd = some g') : Lasting g g' := by
  have hrows : ∀ (g : Game) (line : ℕ → ℤ) (n : ℕ) (s s' : Screen),
      drawLines (drawHorizLine (horizLine g)) line n s = some s' →
        ∃ m, s' = { s with build := m } := fun _ _ _ _ _ h =>
          drawLines_frame h drawHorizLine_frame
  have hcolumns : ∀ (g : Game) (line : ℕ → ℤ) (n : ℕ) (s s' : Screen),
      drawLines (drawVertLine (vertLine g)) line n s = some s' →
        ∃ m, s' = { s with build := m } := fun _ _ _ _ _ h =>
          drawLines_frame h drawVertLine_frame
  cases cmd with
  | none =>
      obtain rfl := Option.some.inj hrun
      exact ⟨rfl, rfl, fun _ _ => rfl⟩
  | quit =>
      obtain rfl := Option.some.inj hrun
      exact ⟨rfl, rfl, fun _ _ => rfl⟩
  | up =>
      have hlasting := lasting_tail hrun fun g s s' => hrows g _ _ s s'
      exact ⟨hlasting.target, hlasting.room, hlasting.views⟩
  | right =>
      obtain ⟨width, -, hrun⟩ := Option.bind_eq_some_iff.mp hrun
      have hlasting := lasting_tail hrun fun g s s' => hcolumns g _ _ s s'
      exact ⟨hlasting.target, hlasting.room, hlasting.views⟩
  | down =>
      obtain ⟨height, -, hrun⟩ := Option.bind_eq_some_iff.mp hrun
      have hlasting := lasting_tail hrun fun g s s' => hrows g _ _ s s'
      exact ⟨hlasting.target, hlasting.room, hlasting.views⟩
  | left =>
      have hlasting := lasting_tail hrun fun g s s' => hcolumns g _ _ s s'
      exact ⟨hlasting.target, hlasting.room, hlasting.views⟩
  | moveLeft => exact moveRoom_lasting h hr hrun
  | enter => exact moveRoom_lasting h hr hrun
  | moveRight => exact moveRoom_lasting h hr hrun
  | typed text =>
      obtain ⟨⟨g₁, entered⟩, htyped, hg⟩ := Option.bind_eq_some_iff.mp hrun
      obtain rfl := Option.some.inj hg
      apply handleTyping_lasting h hr htyped
      intro hentered
      rw [hentered, Bool.true_or]

end Lasting

/-! ## Colours -/

/-- The colours of a photo. -/
def HighColours (dac : UInt8 → Rgb) (colours : Fin 192 → Rgb) : Prop :=
  ∀ i : Fin 192, dac (UInt8.ofNat (64 + i)) = colours i

/-- The colours of a photo, as they are printed. -/
def photoColours (unwritten : Photo → Fin 192 → Rgb) (view : Photo) (i : Fin 192) : Rgb :=
  printed ((view.palette i).getD (unwritten view i))

theorem kept_printed (colour : Rgb) : kept (printed colour) = printed colour := by
  simp [kept, printed, UInt8.and_assoc]

/-- The palette of a photo, on a card with whatever colours. -/
theorem drive_prepPalette (v : Vga) (view : Photo) (unwritten : Photo → Fin 192 → Rgb) :
    ∃ dac i part, drive (prepPalette view (unwritten view)) v =
        { v with dac := dac, dacIndex := i, dacPart := part } ∧
      (LowColours v.dac → LowColours dac) ∧ HighColours dac (photoColours unwritten view) := by
  let entries := (List.finRange 192).map fun (i : Fin 192) =>
    (UInt8.ofNat (64 + i), photoColours unwritten view i)
  have hentries : prepPalette view (unwritten view) =
      entries.flatMap fun p => palettePrint p.1 p.2.red p.2.green p.2.blue := by
    rw [List.flatMap_map]
    rfl
  obtain ⟨i, part, hdrive⟩ := drive_prints v entries
  rw [hentries, hdrive]
  refine ⟨_, i, part, rfl, ?_, ?_⟩
  · intro hlow k hk
    rw [bank_of_notMem, hlow k hk]
    simp only [entries, List.map_map, List.mem_map, List.mem_finRange, true_and, not_exists,
      Function.comp_apply]
    intro j heq
    have hnat := congrArg UInt8.toNat heq
    simp only [UInt8.toNat_ofNat'] at hnat
    omega
  · intro k
    apply bank_of_mem
    · simp only [entries, List.map_map]
      apply List.Nodup.map _ (List.nodup_finRange 192)
      intro j j' heq
      have hnat := congrArg UInt8.toNat heq
      simp only [Function.comp_apply, UInt8.toNat_ofNat'] at hnat
      apply Fin.ext
      omega
    · simp only [entries, List.map_map, List.mem_map, List.mem_finRange, true_and]
      refine ⟨k, ?_⟩
      simp only [Function.comp_apply, photoColours, kept_printed]

/-! ## A frame -/

theorem frame_eq (g : Game) : frame g =
    (drawRoom g).bind fun g => some { g with screen := showScreen g.screen } := rfl

theorem enter_target {g g' : Game} (h : ((viewWindow g).bind fun g => (prepRoom g).bind fun g =>
      (redrawRoom g).bind fun g => some { g with enterRoom := false }) = some g') :
    g'.screen.targetImg = g.screen.targetImg := by
  obtain ⟨g₁, hwindow, h⟩ := Option.bind_eq_some_iff.mp h
  obtain ⟨g₂, hprep, h⟩ := Option.bind_eq_some_iff.mp h
  obtain ⟨g₃, hredraw, hg'⟩ := Option.bind_eq_some_iff.mp h
  obtain ⟨s₁, hset, hg₁⟩ := Option.bind_eq_some_iff.mp hwindow
  obtain ⟨r, -, hprep⟩ := Option.bind_eq_some_iff.mp hprep
  obtain ⟨view, -, hg₂⟩ := Option.bind_eq_some_iff.mp hprep
  obtain rfl := Option.some.inj hg₁
  obtain rfl := Option.some.inj hg₂
  obtain ⟨m, rfl⟩ := redrawRoom_frame hredraw
  obtain rfl := Option.some.inj hg'
  have htarget := setViewWindow_target hset
  exact htarget

theorem drawRoom_target {g drawn : Game} (h : drawRoom g = some drawn) :
    drawn.screen.targetImg = g.screen.targetImg := by
  unfold drawRoom at h
  split_ifs at h
  · have htarget := enter_target h
    exact htarget
  · rw [← Option.some.inj h]

/-- The game when the frame is shown. -/
structure Drawn (g drawn : Game) (r : RoomId) : Prop where
  current : Current drawn r
  target : drawn.screen.targetImg = g.screen.targetImg
  world : drawn.world = g.world

section Frame

variable {g : Game} {r : RoomId}

theorem drawRoom_drawn (h : Coherent g) (hr : g.place = some r) :
    ∃ drawn, drawRoom g = some drawn ∧ Drawn g drawn r := by
  unfold drawRoom
  by_cases henter : g.enterRoom = true
  · obtain ⟨s, hrun, -, hcurrent⟩ := enter_current h hr
    have htarget := enter_target hrun
    rw [if_pos henter]
    exact ⟨_, hrun, hcurrent, htarget, rfl⟩
  · rw [if_neg henter]
    exact ⟨g, rfl, h.fresh (Bool.eq_false_iff.mpr henter) r hr, rfl, rfl⟩

/-- **What the monitor shows**: the picture of the room at the player's position, in two lines for
each row, and the image of the status bar below it, in the colours of the photo and of the objects. -/
structure Seen (t : Vga) (g : Game) (r : RoomId) (colours : Fin 192 → Rgb) (image : ℤ → UInt8) :
    Prop where
  picture : ∀ x < 320, ∀ line ≤ 363,
    refPixel g.world r (g.mapX + x : ℕ) (g.mapY + line / 2 : ℕ) = some (t.scanned x line)
  bar : ∀ x < 320, ∀ line, 363 < line → line < 400 →
    t.scanned x line = pixel image x ((line - 364) / 2)
  low : LowColours t.dac
  high : HighColours t.dac colours

end Frame

/-- What holds of the game and the card before every round. -/
structure Wired (unwritten : Photo → Fin 192 → Rgb) (c : Console) : Prop where
  running : Running c.game
  mode : InModeX c.card
  target : IsPage c.game.screen.targetImg
  start : c.card.startAddress = 0 ∨ c.card.startAddress = c.game.screen.targetImg.toNat
  low : LowColours c.card.dac
  high : c.game.enterRoom = false → ∀ r view, c.game.place = some r →
    (c.game.world.room r).view = some view → HighColours c.card.dac (photoColours unwritten view)

section Round

variable {unwritten : Photo → Fin 192 → Rgb} {c : Console}

/-- When a frame is drawn, the card has the colours of the room. -/
theorem enterVga_colours (h : Wired unwritten c) {r : RoomId} (hr : c.game.place = some r)
    {view : Photo} (hview : (c.game.world.room r).view = some view) :
    ∃ palette, enterVga unwritten c.game = some palette ∧
      (∃ dac i part, drive palette c.card =
        { c.card with dac := dac, dacIndex := i, dacPart := part }) ∧
      LowColours (drive palette c.card).dac ∧
      HighColours (drive palette c.card).dac (photoColours unwritten view) := by
  unfold enterVga
  by_cases henter : c.game.enterRoom = true
  · obtain ⟨dac, i, part, hdrive, hlow, hhigh⟩ := drive_prepPalette c.card view unwritten
    refine ⟨prepPalette view (unwritten view), ?_, ⟨dac, i, part, hdrive⟩, ?_, ?_⟩
    · rw [if_pos henter, hr, Option.bind_eq_bind, Option.bind_some, hview]
      rfl
    · rw [hdrive]
      exact hlow h.low
    · rw [hdrive]
      exact hhigh
  · rw [if_neg henter]
    exact ⟨[], rfl, ⟨c.card.dac, c.card.dacIndex, c.card.dacPart, rfl⟩, h.low,
      h.high (Bool.eq_false_iff.mpr henter) r view hr hview⟩

/-- The colours change nothing else. -/
theorem inModeX_colours {v t : Vga} (hv : InModeX v)
    (ht : ∃ dac i part, t = { v with dac := dac, dacIndex := i, dacPart := part }) :
    InModeX t ∧ t.startAddress = v.startAddress ∧
      ∀ x line, t.scanned x line = v.scanned x line := by
  obtain ⟨dac, i, part, rfl⟩ := ht
  exact ⟨⟨⟨hv.planar.window, hv.planar.linear⟩, hv.rowBytes, hv.rowLines, hv.lineCompare⟩, rfl,
    fun _ _ => rfl⟩

/-- **The frame of a round** shows the room and the bar. -/
theorem frameVga_seen (h : Wired unwritten c) {r : RoomId} (hr : c.game.place = some r)
    {view : Photo} (hview : (c.game.world.room r).view = some view) (image : ℤ → UInt8) :
    ∃ accesses drawn, frameVga unwritten c.game image = some accesses ∧
      drawRoom c.game = some drawn ∧ Drawn c.game drawn r ∧ InModeX (drive accesses c.card) ∧
      (drive accesses c.card).startAddress = (showScreen drawn.screen).targetImg.toNat ∧
      Seen (drive accesses c.card) drawn r (photoColours unwritten view) image := by
  obtain ⟨drawn, hdraw, hdrawn⟩ := drawRoom_drawn h.running.coherent hr
  obtain ⟨palette, hpalette, hcolours, hlow, hhigh⟩ := enterVga_colours h hr hview
  have htarget : IsPage drawn.screen.targetImg := hdrawn.target ▸ h.target
  have hpage : (showScreen drawn.screen).targetImg.toNat = 0x05A0 ∨
      (showScreen drawn.screen).targetImg.toNat = 0x45A0 := htarget.flip.toNat
  obtain ⟨hmode, -, -⟩ := inModeX_colours h.mode hcolours
  obtain ⟨hmode₁, hdac₁, hstart₁, hupper₁, -⟩ := showScreen_scanned hmode htarget
  obtain ⟨hmode₂, hdac₂, hstart₂, hkept, hbar⟩ :=
    printStatusBar_scanned hmode₁ (by rw [hstart₁]; exact hpage) image
  refine ⟨palette ++ showScreenVga drawn.screen ++ printStatusBar image, drawn, ?_, hdraw, hdrawn,
    ?_⟩
  · unfold frameVga
    rw [hpalette, hdraw]
    rfl
  rw [drive_append, drive_append]
  refine ⟨hmode₂, hstart₂.trans hstart₁, ?_, hbar, ?_, ?_⟩
  · intro x hx line hline
    rw [hkept _ List.prefix_rfl x hx line hline, hupper₁ x hx line hline]
    have hin : InWindow drawn.screen (drawn.screen.showX + x)
        (drawn.screen.showY + (line / 2 : ℕ)) := by
      have hwidth : scrollXDim = 320 := rfl
      have hheight : scrollYDim = 182 := rfl
      refine ⟨?_, ?_, ?_, ?_⟩ <;> omega
    rw [← hdrawn.current.shown _ _ hin, hdrawn.current.showX, hdrawn.current.showY]
    push_cast
    rfl
  · rw [hdac₂, hdac₁]
    exact hlow
  · rw [hdac₂, hdac₁]
    exact hhigh

/-- The game of a round is the one of `gameRound`, and its card has done the accesses. -/
theorem consoleRound_cases {c' : Console} {input : Cmd × (ℤ → UInt8)}
    (hround : consoleRound unwritten c input = some c') :
    c.game.condition ≠ none ∧ c' = c ∨ c.game.condition = none ∧
      ∃ accesses game, frameVga unwritten c.game input.2 = some accesses ∧
        gameRound c.game input.1 = some game ∧ c' = ⟨game, drive accesses c.card⟩ := by
  unfold consoleRound at hround
  by_cases hover : c.game.condition = none
  · rw [if_neg (not_not.mpr hover)] at hround
    obtain ⟨accesses, hframe, hround⟩ := Option.bind_eq_some_iff.mp hround
    obtain ⟨game, hgame, hc⟩ := Option.bind_eq_some_iff.mp hround
    exact Or.inr ⟨hover, accesses, game, hframe, hgame, (Option.some.inj hc).symm⟩
  · rw [if_pos hover] at hround
    exact Or.inl ⟨hover, (Option.some.inj hround).symm⟩

/-- What the command of a round leaves of its frame. -/
theorem gameRound_lasting {g g' : Game} (h : Running g) (hover : g.condition = none) {r : RoomId}
    (hr : g.place = some r) {drawn : Game} (hdraw : drawRoom g = some drawn) {cmd : Cmd}
    (hround : gameRound g cmd = some g') :
    g'.screen.targetImg = (showScreen drawn.screen).targetImg ∧ g'.curRoom = some r ∧
      (g'.enterRoom = false → ∀ a, (g'.world.room a).view = (g.world.room a).view) := by
  obtain ⟨g₁, hframe, hframed⟩ := frame_framed h.coherent hr
  have hshown : frame g = some { drawn with screen := showScreen drawn.screen } := by
    rw [frame_eq, hdraw, Option.bind_some]
  obtain rfl := Option.some.inj (hframe.symm.trans hshown)
  unfold gameRound at hround
  rw [if_neg (not_not.mpr hover)] at hround
  obtain ⟨g₁, hframe', hround⟩ := Option.bind_eq_some_iff.mp hround
  obtain rfl := Option.some.inj (hframe.symm.trans hframe')
  obtain ⟨g₂, hcommand, hend⟩ := Option.bind_eq_some_iff.mp hround
  have hlasting := command_lasting hframed.coherent (hframed.place.trans hr) hcommand
  have hroom : g₂.curRoom = some r := hlasting.room.trans hframed.current.room
  have hviews : g₂.enterRoom = false → ∀ a, (g₂.world.room a).view = (g.world.room a).view := by
    intro henter a
    rw [hlasting.views henter a, hframed.world]
  split_ifs at hend
  · obtain rfl := Option.some.inj hend
    exact ⟨hlasting.target, hroom, hviews⟩
  · obtain rfl := Option.some.inj hend
    exact ⟨hlasting.target, hroom, hviews⟩

/-- **A round keeps the card with the game**, and shows a page. -/
theorem consoleRound_wired (h : Wired unwritten c) {c' : Console} {input : Cmd × (ℤ → UInt8)}
    (hround : consoleRound unwritten c input = some c') : Wired unwritten c' ∧
      (c.game.condition = none ∨ c.card.startAddress = c.game.screen.targetImg.toNat →
        c'.card.startAddress = c'.game.screen.targetImg.toNat) := by
  rcases consoleRound_cases hround with
    ⟨hover, rfl⟩ | ⟨hover, accesses, game, hframe, hgame, rfl⟩
  · refine ⟨h, ?_⟩
    rintro (hnone | hstart)
    · exact absurd hnone hover
    · exact hstart
  · obtain ⟨r, hr⟩ := Option.ne_none_iff_exists'.mp (h.running.somewhere hover)
    obtain ⟨view, hview, -⟩ := h.running.coherent.sound.furnished.view r
    obtain ⟨accesses', drawn, hframe', hdraw, hdrawn, hmode, hstart, hseen⟩ :=
      frameVga_seen h hr hview input.2
    obtain rfl := Option.some.inj (hframe.symm.trans hframe')
    obtain ⟨htarget, hroom, hviews⟩ := gameRound_lasting h.running hover hr hdraw hgame
    have hrunning : Running game := by
      rcases gameRound_cases h.running input.1 with ⟨g', hgame', hrounded⟩ | ⟨hnone, -⟩
      · obtain rfl := Option.some.inj (hgame.symm.trans hgame')
        exact hrounded.running
      · rw [hnone] at hgame
        cases hgame
    have hpage : IsPage drawn.screen.targetImg := hdrawn.target ▸ h.target
    have hshown : (drive accesses c.card).startAddress = game.screen.targetImg.toNat := by
      rw [hstart, htarget]
    refine ⟨⟨hrunning, hmode, htarget ▸ hpage.flip, Or.inr hshown, hseen.low, ?_⟩,
      fun _ => hshown⟩
    intro henter r' view' hr' hview'
    -- the room is still the one whose photo was drawn
    have hcurrent := hrunning.coherent.fresh henter r' hr'
    obtain rfl := Option.some.inj (hroom.symm.trans hcurrent.room)
    have hsame : view' = view := by
      apply Option.some.inj
      rw [← hview', ← hview]
      exact hviews henter r
    rw [hsame]
    exact hseen.high

/-- The accesses of a palette change the colours only. -/
theorem enterVga_scanned {palette : List Access} (henter : enterVga unwritten c.game = some palette)
    {before : List Access} (hbefore : before <+: palette) : ∃ dac i part,
      drive before c.card = { c.card with dac := dac, dacIndex := i, dacPart := part } := by
  apply drive_interrupted (I := fun t => ∃ dac i part,
    t = { c.card with dac := dac, dacIndex := i, dacPart := part }) _ _ hbefore
  · exact ⟨c.card.dac, c.card.dacIndex, c.card.dacPart, rfl⟩
  · unfold enterVga at henter
    split_ifs at henter
    · obtain ⟨r, -, henter⟩ := Option.bind_eq_some_iff.mp henter
      obtain ⟨view, -, hpalette⟩ := Option.bind_eq_some_iff.mp henter
      obtain rfl := Option.some.inj hpalette
      have hwrite : ∀ val t, (∃ dac i part,
          t = { c.card with dac := dac, dacIndex := i, dacPart := part }) → ∃ dac i part,
          outb 0x03C9 val t = { c.card with dac := dac, dacIndex := i, dacPart := part } := by
        rintro val t ⟨dac, i, part, rfl⟩
        show ∃ dac' i' part', Vga.dacWrite _ val = _
        unfold Vga.dacWrite
        split
        · exact ⟨_, _, _, rfl⟩
        · exact ⟨_, _, _, rfl⟩
      simp only [prepPalette, palettePrint, List.forall_mem_flatMap, List.forall_mem_cons]
      intro k _
      refine ⟨?_, hwrite _, hwrite _, hwrite _, List.forall_mem_nil _⟩
      rintro t ⟨dac, i, part, rfl⟩
      exact ⟨_, _, _, rfl⟩
    · obtain rfl := Option.some.inj henter
      exact List.forall_mem_nil _

/-- **No torn frame** in a round that starts with a page on the screen: the picture is the one
before the round, or the one of the round. -/
theorem frameVga_whole (h : Wired unwritten c)
    (hstart : c.card.startAddress = c.game.screen.targetImg.toNat) {image : ℤ → UInt8}
    {accesses before : List Access} (hframe : frameVga unwritten c.game image = some accesses)
    (hbefore : before <+: accesses) :
    (∀ x < 320, ∀ line ≤ 363, (drive before c.card).scanned x line = c.card.scanned x line) ∨
      ∀ x < 320, ∀ line ≤ 363,
        (drive before c.card).scanned x line = (drive accesses c.card).scanned x line := by
  obtain ⟨palette, henter, hrest⟩ := Option.bind_eq_some_iff.mp hframe
  obtain ⟨drawn, hdraw, hparts⟩ := Option.bind_eq_some_iff.mp hrest
  obtain rfl := Option.some.inj hparts
  have htarget : drawn.screen.targetImg = c.game.screen.targetImg := drawRoom_target hdraw
  have hpage : IsPage drawn.screen.targetImg := htarget ▸ h.target
  obtain ⟨hmode, hstart₀, hsame⟩ :=
    inModeX_colours h.mode (enterVga_scanned henter List.prefix_rfl)
  obtain ⟨hmode₁, -, hstart₁, -, -⟩ := showScreen_scanned hmode hpage
  obtain ⟨-, -, -, hkept, -⟩ :=
    printStatusBar_scanned hmode₁ (by rw [hstart₁]; exact hpage.flip.toNat) image
  have hlast : ∀ x < 320, ∀ line ≤ 363,
      (drive (palette ++ showScreenVga drawn.screen ++ printStatusBar image) c.card).scanned x line =
        (drive (showScreenVga drawn.screen) (drive palette c.card)).scanned x line := by
    intro x hx line hline
    rw [drive_append, drive_append]
    exact hkept _ List.prefix_rfl x hx line hline
  rcases prefix_append_cases hbefore with hearly | ⟨rest, rfl, hbar⟩
  · rcases prefix_append_cases hearly with hpalette | ⟨rest, rfl, hscreen⟩
    · left
      intro x _ line _
      exact (inModeX_colours h.mode (enterVga_scanned henter hpalette)).2.2 x line
    · have hstart' : (drive palette c.card).startAddress = drawn.screen.targetImg.toNat := by
        rw [hstart₀, hstart, htarget]
      rw [drive_append]
      rcases showScreen_whole hmode hpage hstart' hscreen with hold | hnew
      · left
        intro x hx line hline
        rw [hold x hx line (by omega), hsame]
      · right
        intro x hx line hline
        rw [hnew x hx line (by omega), hlast x hx line hline]
  · right
    intro x hx line hline
    rw [hlast x hx line hline, drive_append, drive_append]
    exact hkept rest hbar x hx line hline

end Round

/-! ## Games -/

theorem wired_start {w : World} (hw : Sound Large w) (start : RoomId) (build : ℤ → UInt8)
    (card : Vga) (unwritten : Photo → Fin 192 → Rgb) :
    Wired unwritten (startConsole w start build card) := by
  have hloaded := (modeX_loaded card).1
  unfold startConsole
  generalize drive setModeXVga card = t at hloaded
  obtain ⟨hmode, hstart, -⟩ := hloaded.inModeX
  constructor
  · exact running_start hw start build t.mem
  · exact hmode
  · exact Or.inl rfl
  · exact Or.inl hstart
  · exact hloaded.lowColours
  · intro henter
    cases henter

/-- Where the rooms do not lead to the inventory, a round goes through. -/
theorem consoleRound_runs {unwritten : Photo → Fin 192 → Rgb} {c : Console}
    (h : Wired unwritten c) (hhomed : Homed (quest c.game.world c.game.place))
    (input : Cmd × (ℤ → UInt8)) : ∃ c', consoleRound unwritten c input = some c' ∧
      Wired unwritten c' ∧ Homed (quest c'.game.world c'.game.place) := by
  obtain ⟨c', hround, hhomed'⟩ : ∃ c', consoleRound unwritten c input = some c' ∧
      Homed (quest c'.game.world c'.game.place) := by
    unfold consoleRound
    by_cases hover : c.game.condition = none
    · obtain ⟨r, hr⟩ := Option.ne_none_iff_exists'.mp (h.running.somewhere hover)
      obtain ⟨view, hview, -⟩ := h.running.coherent.sound.furnished.view r
      obtain ⟨accesses, drawn, hframe, -⟩ := frameVga_seen h hr hview input.2
      rw [if_neg (not_not.mpr hover), hframe]
      rcases gameRound_cases h.running input.1 with ⟨g', hgame, hrounded⟩ | ⟨-, r', hr', hnot⟩
      · rw [hgame]
        exact ⟨_, rfl, homed_deed hhomed hrounded.deed⟩
      · -- looking into the inventory without having come from somewhere
        refine absurd ?_ hnot
        rintro rfl
        exact hhomed.back hr'
    · rw [if_pos hover]
      exact ⟨c, rfl, hhomed⟩
  exact ⟨c', hround, (consoleRound_wired h hround).1, hhomed'⟩

/-- A round without a command goes on. -/
theorem gameRound_none {g g' : Game} (h : Running g) (hover : g.condition = none)
    (hround : gameRound g .none = some g') : g'.place = g.place := by
  obtain ⟨r, hr⟩ := Option.ne_none_iff_exists'.mp (h.somewhere hover)
  obtain ⟨g₁, hframe, hframed⟩ := frame_framed h.coherent hr
  have hplace : g₁.place ≠ none := by
    rw [hframed.place, hr]
    exact Option.some_ne_none r
  unfold gameRound at hround
  rw [if_neg (not_not.mpr hover), hframe, Option.bind_eq_bind, Option.bind_some] at hround
  simp only [command, Option.bind_some] at hround
  rw [if_neg fun hwon => hplace hwon.2] at hround
  rw [← Option.some.inj hround, hframed.place]

end MachineProblems.Analysis.Adventure
