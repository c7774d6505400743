import MachineProblems.Analysis.Adventure.Building

/-!
# Playing

What holds in every world that calls can make of a built one: the lists stay in order whatever
the calls and the rooms they are given, and a player who starts where the game starts runs into
no fault and wins with everything accomplished.
-/

set_option autoImplicit false

namespace MachineProblems.Analysis.Adventure

open MachineProblems.Library MachineProblems.Program.Adventure MachineProblems.Program.PhotoFile
  MachineProblems.Model

variable {disk : Disk} {rands : ℕ → ℕ}

/-! ## Runs of calls -/

theorem callStep_sound {P : Photo → Prop} (w : World) (call : Call × RoomId) (w' : World)
    (h : Sound P w) (hstep : callStep w call = some w') : Sound P w' := by
  obtain ⟨out, hrun, rfl⟩ := Option.map_eq_some_iff.mp hstep
  exact (perform_follows h hrun).sound

/-- The player's game: the lists are in order, the quest is behind its gates, and a game that is
won is won with everything accomplished. -/
structure Playing (P : Photo → Prop) (p : Play) : Prop where
  sound : Sound P p.world
  gated : Gated (quest p.world p.rptr)
  won : p.rptr = none → Accomplished (quest p.world p.rptr)

theorem Gated.anchored {w : World} {r : RoomId} (h : Gated (quest w (some r))) :
    Anchored w r := by
  rintro rfl
  have hback : (quest w (some .inventory)).standing = (w.room .inventory).enter := if_pos rfl
  rw [← hback]
  exact h.somewhere (Option.some_ne_none _)

theorem playing_start {w₀ : World} (hbuild : buildWorld disk rands = some w₀) :
    Playing (OnDisk disk) ⟨w₀, some startInRoom⟩ where
  sound := (buildWorld_built hbuild).sound
  gated := (buildWorld_built hbuild).gated
  won := fun hwon => absurd hwon (Option.some_ne_none _)

/-- **Every call of the player** runs and keeps the game in order. -/
theorem playStep_playing {P : Photo → Prop} {p : Play} (h : Playing P p) (call : Call) :
    ∃ p', playStep p call = some p' ∧ Playing P p' := by
  obtain ⟨w, rptr⟩ := p
  cases rptr with
  | none => exact ⟨_, rfl, h⟩
  | some r =>
      obtain ⟨out, hrun, hfollows⟩ := perform_answers h.sound h.gated.anchored call
      refine ⟨⟨out.world, out.rptr⟩, ?_, ?_⟩
      · exact congrArg (Option.map _) hrun
      · refine ⟨hfollows.sound, gated_deed h.gated hfollows.deed, ?_⟩
        exact accomplished_deed h.gated hfollows.deed (Option.some_ne_none r)

theorem play_run {w₀ : World} (hbuild : buildWorld disk rands = some w₀) (calls : List Call) :
    ∃ p, run playStep ⟨w₀, some startInRoom⟩ calls = some p ∧ Playing (OnDisk disk) p := by
  have hany : ∀ call ∈ calls, True := fun _ _ => trivial
  exact run_total (fun _ call h _ => playStep_playing h call) (playing_start hbuild) hany

/-! ## Containment -/

/-- The contents lists of the world end, repeat nothing, share nothing, and say what the
locations of the objects say. -/
structure Containment (w : World) (contents : RoomId → List ObjId) : Prop where
  finite : ∀ r, Lists w r (contents r)
  once : ∀ r, (contents r).Nodup
  apart : ∀ o r r', o ∈ contents r → o ∈ contents r' → r = r'
  mem_iff : ∀ o r, o ∈ contents r ↔ (w.object o).loc = some r

theorem Contained.containment {w : World} {s : Shelves RoomId ObjId} (h : Contained w s) :
    Containment w s where
  finite := h.lists
  once := h.agrees.nodup
  apart := by
    intro o r r' hr hr'
    have hloc := (h.agrees.mem_iff o r).mp hr
    have hloc' := (h.agrees.mem_iff o r').mp hr'
    exact Option.some.inj (hloc.symm.trans hloc')
  mem_iff := h.agrees.mem_iff

/-- **No object is lost, duplicated or in two rooms**, in every world that calls make of a built
world; and the calls of a player all run. -/
theorem contents_contained {w₀ : World} (hbuild : buildWorld disk rands = some w₀) :
    (∀ calls w, run callStep w₀ calls = some w → ∃ contents, Containment w contents) ∧
      ∀ calls, ∃ p, run playStep ⟨w₀, some startInRoom⟩ calls = some p ∧
        ∃ contents, Containment p.world contents := by
  constructor
  · intro calls w hrun
    obtain ⟨s, hs⟩ := (run_invariant callStep_sound (buildWorld_built hbuild).sound hrun).contained
    exact ⟨s, hs.containment⟩
  · intro calls
    obtain ⟨p, hrun, hplaying⟩ := play_run hbuild calls
    obtain ⟨s, hs⟩ := hplaying.sound.contained
    exact ⟨p, hrun, s, hs.containment⟩

theorem contents_contained_blankDisk : ∃ w₀, buildWorld blankDisk (fun _ => 0) = some w₀ ∧
    ∃ w, run callStep w₀ [(.moveLeft, .eastEvrt), (.typed .get "bunnysuit".toList, .almamater)] =
      some w ∧ ∃ contents, Containment w contents := by
  obtain ⟨w₀, hbuild⟩ := buildWorld_blankDisk
  have hruns : ((buildWorld blankDisk fun _ => 0).bind fun w => run callStep w
      [(.moveLeft, .eastEvrt), (.typed .get "bunnysuit".toList, .almamater)]).isSome := by
    decide +kernel
  rw [hbuild, Option.bind_some] at hruns
  obtain ⟨w, hrun⟩ := Option.isSome_iff_exists.mp hruns
  exact ⟨w₀, hbuild, w, hrun, (contents_contained hbuild).1 _ w hrun⟩

/-! ## The win -/

/-- **The game is won only with everything accomplished**: no sequence of calls skips a step. -/
theorem won_accomplished {w₀ : World} (hbuild : buildWorld disk rands = some w₀)
    (calls : List Call) :
    ∃ p, run playStep ⟨w₀, some startInRoom⟩ calls = some p ∧
      (p.rptr = none → (∀ f, playerFlagIsSet p.world f) ∧
        (p.world.room .cockpit).enter = some .overWill ∧
        ∀ o ∈ [ObjId.bunnysuit, .carKey, .gpsBad, .gpsSpec, .robotDead, .battCar, .battEmpty,
          .battFull, .mimoCard, .fish], (p.world.object o).loc = none) := by
  obtain ⟨p, hrun, hplaying⟩ := play_run hbuild calls
  refine ⟨p, hrun, fun hwon => ?_⟩
  obtain ⟨hflags, hdoor, hconsumed⟩ := hplaying.won hwon
  exact ⟨hflags, hdoor, hconsumed⟩

/-- The moves of a walk, `L`, `E` and `R`. -/
def walk (s : String) : List Call :=
  s.toList.map fun c => if c = 'L' then .moveLeft else if c = 'E' then .enter else .moveRight

/-- One way to win: walks, each with the command at its end. -/
def winningRun : List Call :=
  [
    ("L", .get, "bunnysuit"),
    ("RE", .buy, "yogurt"),
    ("ELLER", .wear, "bunnysuit"),
    ("RERRERRRRREER", .get, "icard"),
    ("E", .get, "fish"),
    ("LEE", .get, "gps"),
    ("ERRE", .get, "key"),
    ("ERRRE", .get, "book"),
    ("ELERLERE", .get, "robot"),
    ("ELELREEL", .get, "spec"),
    ("E", .get, "mp2"),
    ("ERELEE", .use, "car"),
    ("", .get, "battery"),
    ("ELRRLRLRRLLEELE", .fix, "gps"),
    ("ELLE", .flash, "robot"),
    ("ERERRRERRRRERLEEREEE", .charge, "battery"),
    ("ERREE", .install, "battery"),
    ("", .go, "allerton"),
    ("LE", .get, "mimo"),
    ("ER", .go, "willard"),
    ("ELL", .install, "mimo"),
    ("ERRE", .use, "fish"),
    ("ELLERRR", .go, "campus"),
    ("ELRRLRLRRLLELELLLE", .drop, "tux"),
    ("", .doIt, "mp2")].flatMap
    fun (route, c, arg) => walk route ++ [.typed c arg.toList]

theorem won_accomplished_winningRun : ∃ w₀ p, buildWorld blankDisk (fun _ => 0) = some w₀ ∧
    run playStep ⟨w₀, some startInRoom⟩ winningRun = some p ∧ p.rptr = none ∧
      ∀ f, playerFlagIsSet p.world f := by
  obtain ⟨w₀, hbuild⟩ := buildWorld_blankDisk
  have hwins : (((buildWorld blankDisk fun _ => 0).bind fun w =>
      run playStep ⟨w, some startInRoom⟩ winningRun).map fun p => decide (p.rptr = none)) =
        some true := by
    decide +kernel
  obtain ⟨p, hrun, haccomplished⟩ := won_accomplished hbuild winningRun
  rw [hbuild, Option.bind_some, hrun, Option.map_some] at hwins
  have hwon : p.rptr = none := of_decide_eq_true (Option.some.inj hwins)
  exact ⟨w₀, p, hbuild, hrun, hwon, (haccomplished hwon).1⟩

/-! ## The result codes -/

/-- What the code that a call in the room `r` returns tells of the screen. -/
structure Truthful (w : World) (r : RoomId) (out : Outcome) : Prop where
  quiet : out.action = .allowEdit ∨ out.action = .discardText →
    out.rptr = some r ∧ ∃ flags msg rands, out.world =
      { w with playerFlags := flags, statusMsg := msg, rands := rands }
  redraw : out.action = .redrawRoom →
    out.rptr = some r ∧ ∀ a, (out.world.room a).view = (w.room a).view
  moved : out.rptr ≠ some r ∨ (∃ a, (out.world.room a).view ≠ (w.room a).view) →
    out.action = .changeRoom
  placed : (∃ o, (out.world.object o).loc ≠ (w.object o).loc ∨
      (out.world.object o).x ≠ (w.object o).x ∨ (out.world.object o).y ≠ (w.object o).y) →
    out.action = .redrawRoom ∨ out.action = .changeRoom

theorem Follows.truthful {P : Photo → Prop} {w : World} {r : RoomId} {out : Outcome}
    (h : Follows P w r out) : Truthful w r out where
  quiet := by
    intro hquiet
    obtain ⟨hrptr, hroom, hobject, hswap⟩ := h.quiet hquiet
    refine ⟨hrptr, out.world.playerFlags, out.world.statusMsg, out.world.rands, ?_⟩
    rw [← hroom, ← hobject, ← hswap]
  redraw := h.redraw
  moved := by
    intro hmoved
    -- the other three codes leave the room and its photo
    have hstays : out.rptr = some r → (∀ a, (out.world.room a).view = (w.room a).view) →
        False := by
      intro hrptr hview
      rcases hmoved with hne | ⟨a, hne⟩
      · exact hne hrptr
      · exact hne (hview a)
    cases haction : out.action with
    | changeRoom => rfl
    | redrawRoom =>
        obtain ⟨hrptr, hview⟩ := h.redraw haction
        exact (hstays hrptr hview).elim
    | allowEdit =>
        obtain ⟨hrptr, hroom, -⟩ := h.quiet (Or.inl haction)
        exact (hstays hrptr fun a => by rw [hroom]).elim
    | discardText =>
        obtain ⟨hrptr, hroom, -⟩ := h.quiet (Or.inr haction)
        exact (hstays hrptr fun a => by rw [hroom]).elim
  placed := by
    rintro ⟨o, hplaced⟩
    have hstays : out.world.object ≠ w.object := by
      intro hobject
      rw [hobject] at hplaced
      simp at hplaced
    cases haction : out.action with
    | changeRoom => exact Or.inr rfl
    | redrawRoom => exact Or.inl rfl
    | allowEdit => exact absurd (h.quiet (Or.inl haction)).2.2.1 hstays
    | discardText => exact absurd (h.quiet (Or.inr haction)).2.2.1 hstays

/-- **Every result code tells the truth** about the room, its photo and the objects. -/
theorem results_truthful {w₀ w : World} (hbuild : buildWorld disk rands = some w₀)
    {calls : List (Call × RoomId)} (hrun : run callStep w₀ calls = some w)
    {call : Call} {r : RoomId} {out : Outcome} (hcall : perform call w r = some out) :
    Truthful w r out := by
  have hsound := run_invariant callStep_sound (buildWorld_built hbuild).sound hrun
  exact (perform_follows hsound hcall).truthful

theorem results_truthful_blankDisk : ∃ w₀, buildWorld blankDisk (fun _ => 0) = some w₀ ∧
    ∃ w, run callStep w₀ [(.typed .get "bunnysuit".toList, .almamater)] = some w ∧
      ∃ out, perform (.typed .drop "bunnysuit".toList) w .almamater = some out ∧
        out.action = .redrawRoom ∧ Truthful w .almamater out := by
  obtain ⟨w₀, hbuild⟩ := buildWorld_blankDisk
  have hdrops : ((buildWorld blankDisk fun _ => 0).bind fun w =>
      (run callStep w [(.typed .get "bunnysuit".toList, .almamater)]).bind fun w =>
        (perform (.typed .drop "bunnysuit".toList) w .almamater).map Outcome.action) =
      some .redrawRoom := by
    decide +kernel
  rw [hbuild, Option.bind_some] at hdrops
  obtain ⟨w, hrun, hdrops⟩ := Option.bind_eq_some_iff.mp hdrops
  obtain ⟨out, hcall, haction⟩ := Option.map_eq_some_iff.mp hdrops
  exact ⟨w₀, hbuild, w, hrun, out, hcall, haction, results_truthful hbuild hrun hcall⟩

end MachineProblems.Analysis.Adventure
