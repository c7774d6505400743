import MachineProblems.Analysis.TuxModule
import MachineProblems.Model.Controller

/-!
# Commands for the Tux controller

What the driver sends as commands rather than bytes, and what is on its way as lists of packets
and of commands.  As long as no packet on its way reports a reset, the commands on their way leave
the controller as it was asked for; and a reset is answered by commands that do so whatever the
controller came up with (`Follows`).
-/

set_option autoImplicit false

namespace MachineProblems.Analysis.TuxFollows

open MachineProblems.Program MachineProblems.Program.Tuxctl
open MachineProblems.Program.LineDiscipline (Packet)
open MachineProblems.Model MachineProblems.Model.Mtcp
open MachineProblems.Analysis.Tuxctl MachineProblems.Analysis.TuxModule

variable (beyond : ℕ → UInt8)

/-! ## Commands -/

/-- The commands that the driver sends. -/
inductive Command
  | biocOn
  | ledUsr
  | clkReset
  | clkUp
  | ledSet (data : Fin 4 → UInt8)

namespace Command

def bytes : Command → List UInt8
  | biocOn => [mtcpBiocOn]
  | ledUsr => [mtcpLedUsr]
  | clkReset => [mtcpClkReset]
  | clkUp => [mtcpClkUp]
  | ledSet data => mtcpLedSet :: 0xF :: List.ofFn data

/-- What a command makes of the displays. -/
def leds (old : Fin 4 → UInt8) : Command → Fin 4 → UInt8
  | ledSet data => data
  | _ => old

/-- Whether the controller reports after a command. -/
def reports (old : Bool) : Command → Bool
  | biocOn => true
  | _ => old

/-- Whether it shows the user-set values. -/
def userMode (old : Bool) : Command → Bool
  | ledUsr => true
  | _ => old

/-- What a command makes of the controller. -/
def apply (c : Controller) (cmd : Command) : Controller :=
  { c with
    leds := cmd.leds c.leds
    reports := cmd.reports c.reports
    userMode := cmd.userMode c.userMode }

end Command

theorem execute_plain {c : Controller} (hlocked : c.locked = false) {b : UInt8}
    (hb : isCommand b = true) (hne : b ≠ mtcpLedSet) (rest : List UInt8) :
    c.execute (b :: rest) = (c.plain b, [Controller.ack], rest) := by
  simp [Controller.execute, hlocked, hb, hne]

theorem setLeds_all (leds data : Fin 4 → UInt8) (rest : List UInt8) :
    Controller.setLeds leds 0xF (List.ofFn data ++ rest) = data := by
  have hall : ((List.finRange 4).filter fun i : Fin 4 => (0xF : UInt8).toNat.testBit i) =
      [0, 1, 2, 3] := by decide
  funext i
  rw [Controller.setLeds, hall]
  match i with
  | 0 | 1 | 2 | 3 => rfl

/-- **The controller executes** the command at the front of the line. -/
theorem execute_command {c : Controller} (hlocked : c.locked = false) (cmd : Command)
    (rest : List UInt8) :
    c.execute (cmd.bytes ++ rest) = (cmd.apply c, [Controller.ack], rest) := by
  cases cmd with
  | biocOn => exact execute_plain hlocked (by decide) (by decide) rest
  | ledUsr => exact execute_plain hlocked (by decide) (by decide) rest
  | clkReset => exact execute_plain hlocked (by decide) (by decide) rest
  | clkUp => exact execute_plain hlocked (by decide) (by decide) rest
  | ledSet data =>
      have hcount : (List.ofFn data).length = ledCount 0xF := List.length_ofFn
      have hlong : ¬ (List.ofFn data ++ rest).length < ledCount 0xF := by
        rw [List.length_append, hcount]
        omega
      have hdrop : (List.ofFn data ++ rest).drop (ledCount 0xF) = rest := List.drop_left' hcount
      simp only [Command.bytes, List.cons_append, Controller.execute, hlocked, Bool.false_eq_true,
        if_false, if_true, hlong, hdrop, setLeds_all, Command.apply, Command.leds,
        Command.reports, Command.userMode]

/-! ## What the driver sends, as commands -/

/-- The data bytes of the display buffer. -/
def ledData (d : Driver) : Fin 4 → UInt8 := fun i => d.ledRegularBuffer.toList.getD (2 + i) 0

theorem toList_of_armed {d : Driver} (h : Armed d) :
    d.ledRegularBuffer.toList = (Command.ledSet (ledData d)).bytes := by
  obtain ⟨h0, h1⟩ := h
  unfold ledData
  generalize d.ledRegularBuffer = v at h0 h1 ⊢
  obtain ⟨⟨bytes⟩, hlen⟩ := v
  match bytes, hlen with
  | [b0, b1, b2, b3, b4, b5], _ =>
      obtain rfl : b0 = mtcpLedSet := h0
      obtain rfl : b1 = 0xF := h1
      rfl

theorem ledData_regularBuf {d : Driver} {arg : UInt32}
    (h : d.ledRegularBuffer = regularBuf beyond arg) : ledData d = ledByte beyond arg := by
  funext i
  rw [ledData, h]
  match i with
  | 0 | 1 | 2 | 3 => rfl

/-- The commands of a call of the driver. -/
def commands (d : Driver) : Event → List Command
  | .packet p => if p.1 = mtcpReset then [.biocOn, .ledSet (ledData d)] else []
  | .ioctl cmd arg _ => (if d.errorFlag ≠ 0 then [.biocOn] else []) ++
      if cmd = tuxInit then [.biocOn, .ledUsr, .clkReset, .clkUp]
      else if cmd = tuxSetLed then [.ledSet (ledByte beyond arg)]
      else []

theorem sent_eq_commands {d : Driver} {e : Event} (h : resets e → Armed d) :
    (sent beyond d e).flatten = ((commands beyond d e).map Command.bytes).flatten := by
  cases e with
  | packet p =>
      rw [sent, commands]
      split_ifs with hreset
      · simp [toList_of_armed (h hreset), Command.bytes]
      · rfl
  | ioctl cmd arg uncopied =>
      have hrecovery : (recovery d).flatten =
          ((if d.errorFlag ≠ 0 then [Command.biocOn] else []).map Command.bytes).flatten := by
        unfold recovery
        split_ifs <;> rfl
      have hanswer : (answer beyond cmd arg).flatten =
          ((if cmd = tuxInit then [Command.biocOn, .ledUsr, .clkReset, .clkUp]
            else if cmd = tuxSetLed then [.ledSet (ledByte beyond arg)]
            else []).map Command.bytes).flatten := by
        unfold answer
        split_ifs <;> rfl
      rw [sent, commands, List.flatten_append, List.map_append, List.flatten_append, hrecovery,
        hanswer]

/-! ## What was asked for -/

/-- The argument of a `TUX_SET_LED`. -/
def setting : Happening → Option UInt32
  | .ioctl cmd arg _ => if cmd = tuxSetLed then some arg else none
  | _ => none

/-- The argument of the last one. -/
def lastSet (hs : List Happening) : Option UInt32 := (hs.filterMap setting).getLast?

theorem lastSet_concat (hs : List Happening) (h : Happening) :
    lastSet (hs ++ [h]) = (setting h).or (lastSet hs) := by
  unfold lastSet
  cases hsetting : setting h <;> simp [List.filterMap_append, hsetting]

/-- After it the controller is to report its buttons: `TUX_INIT`, and a reset. -/
def enables : Happening → Bool
  | .ioctl cmd _ _ => cmd == tuxInit
  | .reset => true
  | _ => false

/-! ## Packets and commands on their way -/

/-- A packet that the controller sends in this system. -/
def Spoken (p : Packet) : Prop :=
  p.1 = mtcpAck ∨ p.1 = mtcpReset ∨ p.1 = mtcpBiocEvent

/-- A reset is on its way. -/
def ResetComing (toPc : List Packet) : Prop := ∃ p ∈ toPc, p.1 = mtcpReset

/-- The buttons after the packets on their way. -/
def buttonsAfter (old : Vector UInt8 2) (toPc : List Packet) : Vector UInt8 2 :=
  toPc.foldl (fun v p => if p.1 = mtcpBiocEvent then #v[p.2.1, p.2.2] else v) old

/-- **The controller follows the driver**, after the events `hs`: where no reset is on its way, the
commands on their way leave it as was asked for. -/
structure Follows (hs : List Happening) (d : Driver) (c : Controller) (toPc : List Packet)
    (toBoard : List Command) (told : UInt8 × UInt8) : Prop where
  unlocked : c.locked = false
  spoken : ∀ p ∈ toPc, Spoken p
  armed : ResetComing toPc → Armed d
  asked : ∀ arg, lastSet hs = some arg → Armed d ∧ ledData d = ledByte beyond arg
  leds : Armed d → ResetComing toPc ∨ toBoard.foldl Command.leds c.leds = ledData d
  reports : hs.any enables = true →
    ResetComing toPc ∨ toBoard.foldl Command.reports c.reports = true
  buttons : buttonsAfter d.buttonBuffer toPc = #v[told.1, told.2]

/-- Reports stay on. -/
theorem foldl_reports (cmds : List Command) : cmds.foldl Command.reports true = true := by
  induction cmds with
  | nil => rfl
  | cons cmd cmds ih => cases cmd <;> exact ih

/-- A packet that the controller sends does not touch the display buffer. -/
theorem leds_spoken {p : Packet} (hp : Spoken p) (d : Driver) :
    (tuxctlHandlePacket d p).ledRegularBuffer = d.ledRegularBuffer := by
  obtain ⟨a, b, c⟩ := p
  have hack : mtcpAck ≠ mtcpError := by decide
  have hreset : mtcpReset ≠ mtcpError ∧ mtcpReset ≠ mtcpAck := by decide
  have hevent : mtcpBiocEvent ≠ mtcpError ∧ mtcpBiocEvent ≠ mtcpAck ∧
    mtcpBiocEvent ≠ mtcpReset := by decide
  rcases hp with h | h | h
  · obtain rfl : a = mtcpAck := h
    simp [tuxctlHandlePacket, hack]
  · obtain rfl : a = mtcpReset := h
    simp [tuxctlHandlePacket, hreset, Driver.put]
  · obtain rfl : a = mtcpBiocEvent := h
    simp [tuxctlHandlePacket, hevent]

/-- **The driver handles a packet.** -/
theorem follows_packet {hs : List Happening} {d : Driver} {c : Controller} {p : Packet}
    {toPc : List Packet} {toBoard : List Command} {told : UInt8 × UInt8}
    (h : Follows beyond hs d c (p :: toPc) toBoard told) :
    Follows beyond hs (tuxctlHandlePacket d p) c toPc
      (toBoard ++ commands beyond d (.packet p)) told := by
  have hleds := leds_spoken (h.spoken p List.mem_cons_self) d
  have hdata : ledData (tuxctlHandlePacket d p) = ledData d := by
    unfold ledData
    rw [hleds]
  have harmed : Armed (tuxctlHandlePacket d p) ↔ Armed d := by
    unfold Armed
    rw [hleds]
  have hcoming : p.1 ≠ mtcpReset → ResetComing (p :: toPc) → ResetComing toPc := by
    rintro hne ⟨q, hq, hreset⟩
    rcases List.mem_cons.mp hq with rfl | hq
    · exact absurd hreset hne
    · exact ⟨q, hq, hreset⟩
  constructor
  · exact h.unlocked
  · exact fun q hq => h.spoken q (List.mem_cons_of_mem _ hq)
  · rintro ⟨q, hq, hreset⟩
    exact harmed.mpr (h.armed ⟨q, List.mem_cons_of_mem _ hq, hreset⟩)
  · intro arg harg
    rw [harmed, hdata]
    exact h.asked arg harg
  · intro ha
    rw [hdata, commands]
    split_ifs with hreset
    · exact Or.inr (by simp [Command.leds])
    · rw [List.append_nil]
      exact (h.leds (harmed.mp ha)).imp_left (hcoming hreset)
  · intro henabled
    rw [commands]
    split_ifs with hreset
    · exact Or.inr (by simp [Command.reports])
    · rw [List.append_nil]
      exact (h.reports henabled).imp_left (hcoming hreset)
  · have hbuttons := h.buttons
    rw [buttonsAfter, List.foldl_cons, ← (pressed d p).buttons] at hbuttons
    exact hbuttons

/-- How much is on its way: a reset makes the driver send two commands, and every command is
acknowledged. -/
def weight (toPc : List Packet) (toBoard : List Command) : ℕ :=
  (toPc.map fun p => if p.1 = mtcpReset then 5 else 1).sum + 2 * toBoard.length

/-- The driver handles the packets at the front of the line, and sends whole commands. -/
theorem follows_packets {hs : List Happening} {d : Driver} {c : Controller}
    {handled toPc : List Packet} {toBoard : List Command} {told : UInt8 × UInt8}
    (h : Follows beyond hs d c (handled ++ toPc) toBoard told) :
    ∃ more, (sentBy beyond d (handled.map .packet)).flatten = (more.map Command.bytes).flatten ∧
      Follows beyond hs (d.drive beyond (handled.map .packet)) c toPc (toBoard ++ more) told ∧
      weight toPc (toBoard ++ more) + handled.length = weight (handled ++ toPc) toBoard := by
  induction handled generalizing d toBoard with
  | nil => exact ⟨[], rfl, by rwa [List.append_nil], by rw [List.append_nil]; rfl⟩
  | cons p handled ih =>
      have hwhole : resets (.packet p) → Armed d :=
        fun hreset => h.armed ⟨p, List.mem_cons_self, hreset⟩
      obtain ⟨more, hmore, hfollows, hweight⟩ := ih (follows_packet beyond h)
      refine ⟨commands beyond d (.packet p) ++ more, ?_, ?_, ?_⟩
      · show (sent beyond d (.packet p) ++ sentBy beyond (tuxctlHandlePacket d p) _).flatten = _
        rw [List.flatten_append, sent_eq_commands beyond hwhole, hmore, List.map_append,
          List.flatten_append]
      · rwa [List.append_assoc] at hfollows
      · have hlen : (commands beyond d (.packet p)).length = if p.1 = mtcpReset then 2 else 0 := by
          rw [commands]
          split_ifs <;> rfl
        rw [List.append_assoc] at hweight
        simp only [weight, List.cons_append, List.map_cons, List.sum_cons, List.length_append,
          List.length_cons, hlen] at hweight ⊢
        split_ifs at hweight ⊢ <;> omega

/-- Only `TUX_SET_LED` sends a command that sets the displays. -/
theorem foldl_leds_commands {cmd : UInt32} (hne : cmd ≠ tuxSetLed) (d : Driver) (arg : UInt32)
    (uncopied : ℕ) (old : Fin 4 → UInt8) :
    (commands beyond d (.ioctl cmd arg uncopied)).foldl Command.leds old = old := by
  rw [commands, if_neg hne]
  split_ifs <;> rfl

/-- `TUX_INIT` turns the reports on, and no command turns them off. -/
theorem foldl_reports_commands (d : Driver) (cmd arg : UInt32) (uncopied : ℕ) {old : Bool}
    (h : cmd = tuxInit ∨ old = true) :
    (commands beyond d (.ioctl cmd arg uncopied)).foldl Command.reports old = true := by
  rcases h with rfl | rfl
  · rw [commands, if_pos rfl]
    split_ifs <;> rfl
  · exact foldl_reports _

/-- **The driver serves an ioctl.** -/
theorem follows_ioctl {hs : List Happening} {d : Driver} {c : Controller} {toPc : List Packet}
    {toBoard : List Command} {told : UInt8 × UInt8}
    (h : Follows beyond hs d c toPc toBoard told) (cmd arg : UInt32) (uncopied : ℕ) :
    Follows beyond (hs ++ [.ioctl cmd arg uncopied]) (d.event beyond (.ioctl cmd arg uncopied)) c
      toPc (toBoard ++ commands beyond d (.ioctl cmd arg uncopied)) told := by
  have hleds := leds_event_ioctl beyond d cmd arg uncopied
  have harmed : Armed d → Armed (d.event beyond (.ioctl cmd arg uncopied)) :=
    fun ha => armed_event beyond ha _
  have hset : cmd = tuxSetLed → Armed (d.event beyond (.ioctl cmd arg uncopied)) ∧
      ledData (d.event beyond (.ioctl cmd arg uncopied)) = ledByte beyond arg := by
    intro hcmd
    rw [if_pos hcmd] at hleds
    exact ⟨armed_of_setsLeds beyond d hcmd, ledData_regularBuf beyond hleds⟩
  have hsame : cmd ≠ tuxSetLed → (Armed (d.event beyond (.ioctl cmd arg uncopied)) ↔ Armed d) ∧
      ledData (d.event beyond (.ioctl cmd arg uncopied)) = ledData d := by
    intro hcmd
    rw [if_neg hcmd] at hleds
    exact ⟨by unfold Armed; rw [hleds], by unfold ledData; rw [hleds]⟩
  constructor
  · exact h.unlocked
  · exact h.spoken
  · exact fun hcoming => harmed (h.armed hcoming)
  · intro arg' harg
    rw [lastSet_concat, setting] at harg
    by_cases hcmd : cmd = tuxSetLed
    · rw [if_pos hcmd, Option.some_or] at harg
      obtain rfl := Option.some.inj harg
      exact hset hcmd
    · rw [if_neg hcmd, Option.none_or] at harg
      rw [(hsame hcmd).1, (hsame hcmd).2]
      exact h.asked arg' harg
  · intro ha
    rw [List.foldl_append]
    by_cases hcmd : cmd = tuxSetLed
    · have hne : cmd ≠ tuxInit := by
        rw [hcmd]
        decide
      have hlast : (if cmd = tuxInit then [Command.biocOn, .ledUsr, .clkReset, .clkUp]
          else if cmd = tuxSetLed then [.ledSet (ledByte beyond arg)]
          else []) = [.ledSet (ledByte beyond arg)] := by rw [if_neg hne, if_pos hcmd]
      rw [(hset hcmd).2, commands, hlast, List.foldl_append]
      exact Or.inr rfl
    · rw [(hsame hcmd).2, foldl_leds_commands beyond hcmd]
      exact h.leds ((hsame hcmd).1.mp ha)
  · intro henabled
    rw [List.any_append, Bool.or_eq_true] at henabled
    rw [List.foldl_append]
    rcases henabled with henabled | henabled
    · refine (h.reports henabled).imp_right fun hon => ?_
      exact foldl_reports_commands beyond d cmd arg uncopied (.inr hon)
    · have hinit : cmd = tuxInit := by simpa [enables] using henabled
      exact Or.inr (foldl_reports_commands beyond d cmd arg uncopied (.inl hinit))
  · rw [Driver.event, buttons_ioctl]
    exact h.buttons

/-! ## The controller's turns -/

/-- An event that asks for nothing. -/
theorem Follows.extend {hs : List Happening} {d : Driver} {c : Controller} {toPc : List Packet}
    {toBoard : List Command} {told : UInt8 × UInt8}
    (h : Follows beyond hs d c toPc toBoard told) {e : Happening} (hsetting : setting e = none)
    (henables : enables e = false) : Follows beyond (hs ++ [e]) d c toPc toBoard told where
  unlocked := h.unlocked
  spoken := h.spoken
  armed := h.armed
  asked := by
    rw [lastSet_concat, hsetting, Option.none_or]
    exact h.asked
  leds := h.leds
  reports := by simpa [henables] using h.reports
  buttons := h.buttons

/-- **The controller executes a command.** -/
theorem follows_execute {hs : List Happening} {d : Driver} {c : Controller} {toPc : List Packet}
    {cmd : Command} {toBoard : List Command} {told : UInt8 × UInt8}
    (h : Follows beyond hs d c toPc (cmd :: toBoard) told) :
    Follows beyond hs d (cmd.apply c) (toPc ++ [Controller.ack]) toBoard told := by
  have hack : mtcpAck ≠ mtcpReset ∧ mtcpAck ≠ mtcpBiocEvent := by decide
  have hcoming : ResetComing (toPc ++ [Controller.ack]) ↔ ResetComing toPc := by
    simp [ResetComing, Controller.ack, hack]
  constructor
  · exact h.unlocked
  · intro p hp
    rcases List.mem_append.mp hp with hp | hp
    · exact h.spoken p hp
    · rw [List.mem_singleton.mp hp]
      exact Or.inl rfl
  · rw [hcoming]
    exact h.armed
  · exact h.asked
  · rw [hcoming]
    exact h.leds
  · rw [hcoming]
    exact h.reports
  · rw [buttonsAfter, List.foldl_append, List.foldl_cons, List.foldl_nil, Controller.ack,
      if_neg hack.2]
    exact h.buttons

/-- **The user presses a button.** -/
theorem follows_press {hs : List Happening} {d : Driver} {c : Controller} {toPc : List Packet}
    {toBoard : List Command} {told : UInt8 × UInt8}
    (h : Follows beyond hs d c toPc toBoard told) (b0 b1 : UInt8) :
    Follows beyond hs d (c.press b0 b1).1 (toPc ++ (c.press b0 b1).2) toBoard
      ((((c.press b0 b1).2.filter fun p => p.1 == mtcpBiocEvent).getLast?.map Prod.snd).getD
        told) := by
  have hne : mtcpBiocEvent ≠ mtcpReset := by decide
  unfold Controller.press
  dsimp only
  split_ifs with hspeaks
  · have hcoming : ResetComing (toPc ++ [(mtcpBiocEvent, b0 ||| 0x80, b1 ||| 0x80)]) ↔
        ResetComing toPc := by simp [ResetComing, hne]
    constructor
    · exact h.unlocked
    · intro p hp
      rcases List.mem_append.mp hp with hp | hp
      · exact h.spoken p hp
      · rw [List.mem_singleton.mp hp]
        exact Or.inr (Or.inr rfl)
    · rw [hcoming]
      exact h.armed
    · exact h.asked
    · rw [hcoming]
      exact h.leds
    · rw [hcoming]
      exact h.reports
    · simp [buttonsAfter]
  · rw [List.append_nil]
    exact ⟨h.unlocked, h.spoken, h.armed, h.asked, h.leds, h.reports, h.buttons⟩

/-- **The controller is reset**, after the displays were set. -/
theorem follows_reset {hs : List Happening} {d : Driver} {c powerUp : Controller}
    {toPc : List Packet} {toBoard : List Command} {told : UInt8 × UInt8}
    (h : Follows beyond hs d c toPc toBoard told) (hup : powerUp.locked = false)
    (hset : (lastSet hs).isSome) :
    Follows beyond (hs ++ [.reset]) d (c.reset powerUp).1 (toPc ++ (c.reset powerUp).2) toBoard
      told := by
  have hne : mtcpReset ≠ mtcpBiocEvent := by decide
  have hcoming : ResetComing (toPc ++ (c.reset powerUp).2) :=
    ⟨(mtcpReset, 0x80, 0x80), List.mem_append_right _ List.mem_cons_self, rfl⟩
  obtain ⟨arg, harg⟩ := Option.isSome_iff_exists.mp hset
  constructor
  · exact hup
  · intro p hp
    rcases List.mem_append.mp hp with hp | hp
    · exact h.spoken p hp
    · rw [List.mem_singleton.mp hp]
      exact Or.inr (Or.inl rfl)
  · exact fun _ => (h.asked arg harg).1
  · rw [lastSet_concat, show setting .reset = none from rfl, Option.none_or]
    exact h.asked
  · exact fun _ => Or.inl hcoming
  · exact fun _ => Or.inl hcoming
  · rw [buttonsAfter, List.foldl_append, Controller.reset, List.foldl_cons, List.foldl_nil,
      if_neg hne]
    exact h.buttons

end MachineProblems.Analysis.TuxFollows
