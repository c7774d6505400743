import MachineProblems.Analysis.TuxLoop

/-!
# A reset of the Tux controller that comes too early

Until the first `TUX_SET_LED` the display buffer is all zeros, and the driver answers a reset with
it.  To a controller in its debug-lockup mode a zero is no command: it ceases to respond
(`early_reset_locks`).
-/

set_option autoImplicit false

namespace MachineProblems.Analysis.TuxLockup

open MachineProblems.Library
open MachineProblems.Program MachineProblems.Program.Tuxctl
open MachineProblems.Program.LineDiscipline (Packet framed bufsize)
open MachineProblems.Model MachineProblems.Model.Mtcp
open MachineProblems.Analysis.Tuxctl MachineProblems.Analysis.TuxModule
open MachineProblems.Analysis.TuxFollows MachineProblems.Analysis.TuxLoop

variable {T : Type} [DecidableEq T] (room : ℕ → ℕ) (beyond : ℕ → UInt8)

/-- A byte that the driver sends before the displays are set: a command, or a zero of the display
buffer. -/
def Idle (b : UInt8) : Prop :=
  b = 0 ∨ b = mtcpBiocOn ∨ b = mtcpLedUsr ∨ b = mtcpClkReset ∨ b = mtcpClkUp

/-- **The controller is doomed** once it was reset: the reset is still on its way, or the zeros that
answer it are, or it has locked up. -/
structure Doomed (hs : List Happening) (d : Driver) (c : Controller) (toPc : List Packet)
    (wire : List UInt8) : Prop where
  spoken : ∀ p ∈ toPc, Spoken p
  blank : d.ledRegularBuffer = #v[0, 0, 0, 0, 0, 0]
  bytes : ∀ b ∈ wire, Idle b
  doom : Happening.reset ∈ hs → ResetComing toPc ∨ c.locked = true ∨ 0 ∈ wire

theorem doomed_packet {hs : List Happening} {d : Driver} {c : Controller} {p : Packet}
    {toPc : List Packet} {wire : List UInt8} (h : Doomed hs d c (p :: toPc) wire) :
    Doomed hs (tuxctlHandlePacket d p) c toPc
      (wire ++ (sent beyond d (.packet p)).flatten) := by
  have hsent : (sent beyond d (.packet p)).flatten =
      if p.1 = mtcpReset then [mtcpBiocOn, 0, 0, 0, 0, 0, 0] else [] := by
    rw [sent, h.blank]
    split_ifs <;> rfl
  rw [hsent]
  constructor
  · exact fun q hq => h.spoken q (List.mem_cons_of_mem _ hq)
  · rw [leds_spoken (h.spoken p List.mem_cons_self), h.blank]
  · intro b hb
    rcases List.mem_append.mp hb with hb | hb
    · exact h.bytes b hb
    · split_ifs at hb
      · simp only [List.mem_cons, List.not_mem_nil, or_false] at hb
        rcases hb with hb | hb | hb | hb | hb | hb | hb
        · exact Or.inr (Or.inl hb)
        all_goals exact Or.inl hb
      · exact absurd hb List.not_mem_nil
  · intro hreset
    split_ifs with hp
    · exact Or.inr (Or.inr (by simp))
    · rw [List.append_nil]
      refine (h.doom hreset).imp_left ?_
      rintro ⟨q, hq, hq'⟩
      rcases List.mem_cons.mp hq with rfl | hq
      · exact absurd hq' hp
      · exact ⟨q, hq, hq'⟩

theorem doomed_packets {hs : List Happening} {d : Driver} {c : Controller}
    {handled toPc : List Packet} {wire : List UInt8}
    (h : Doomed hs d c (handled ++ toPc) wire) :
    Doomed hs (d.drive beyond (handled.map .packet)) c toPc
      (wire ++ (sentBy beyond d (handled.map .packet)).flatten) := by
  induction handled generalizing d wire with
  | nil =>
      rw [List.map_nil, sentBy, List.flatten_nil, List.append_nil]
      exact h
  | cons p handled ih =>
      have hrest := ih (doomed_packet beyond h)
      rw [List.append_assoc, ← List.flatten_append] at hrest
      exact hrest

theorem doomed_ioctl {hs : List Happening} {d : Driver} {c : Controller} {toPc : List Packet}
    {wire : List UInt8} (h : Doomed hs d c toPc wire) {cmd : UInt32} (hcmd : cmd ≠ tuxSetLed)
    (arg : UInt32) (uncopied : ℕ) :
    Doomed hs (d.event beyond (.ioctl cmd arg uncopied)) c toPc
      (wire ++ (sent beyond d (.ioctl cmd arg uncopied)).flatten) := by
  constructor
  · exact h.spoken
  · rw [leds_event_ioctl, if_neg hcmd, h.blank]
  · intro b hb
    rcases List.mem_append.mp hb with hb | hb
    · exact h.bytes b hb
    · rw [sent, recovery, answer, if_neg hcmd] at hb
      split_ifs at hb <;> simp [Idle] at hb ⊢ <;> tauto
  · exact fun hreset => (h.doom hreset).imp_right (Or.imp_right (List.mem_append_left _))

/-- Nothing asks for another reset. -/
theorem Doomed.extend {hs : List Happening} {d : Driver} {c : Controller} {toPc : List Packet}
    {wire : List UInt8} (h : Doomed hs d c toPc wire) {e : Happening} (he : e ≠ .reset) :
    Doomed (hs ++ [e]) d c toPc wire where
  spoken := h.spoken
  blank := h.blank
  bytes := h.bytes
  doom hreset := h.doom (by
    rcases List.mem_append.mp hreset with hreset | hreset
    · exact hreset
    · exact absurd (List.mem_singleton.mp hreset).symm he)

/-- **The controller takes a byte**: a command, or a zero that locks it up. -/
theorem doomed_execute {hs : List Happening} {d : Driver} {c : Controller} {toPc : List Packet}
    {b : UInt8} {wire : List UInt8} (h : Doomed hs d c toPc (b :: wire)) :
    ∃ c' answers, c.execute (b :: wire) = (c', answers, wire) ∧
      (∀ p ∈ answers, p = Controller.ack) ∧ Doomed hs d c' (toPc ++ answers) wire := by
  have hbytes : ∀ b ∈ wire, Idle b := fun b hb => h.bytes b (List.mem_cons_of_mem _ hb)
  have hack : ∀ p ∈ [Controller.ack], p = Controller.ack := fun p hp => List.mem_singleton.mp hp
  have hzero : isCommand 0 = false ∧ (0 : UInt8) ≠ mtcpLedSet := by decide
  by_cases hlocked : c.locked = true
  · refine ⟨c, [], by simp [Controller.execute, hlocked], by simp, ?_⟩
    rw [List.append_nil]
    exact ⟨h.spoken, h.blank, hbytes, fun _ => Or.inr (Or.inl hlocked)⟩
  rw [Bool.not_eq_true] at hlocked
  by_cases hb : b = 0
  · refine ⟨{ c with locked := true }, [], ?_, by simp, ?_⟩
    · simp [hb, Controller.execute, hlocked, hzero]
    · rw [List.append_nil]
      exact ⟨h.spoken, h.blank, hbytes, fun _ => Or.inr (Or.inl rfl)⟩
  have hcommand : isCommand b = true ∧ b ≠ mtcpLedSet := by
    rcases (h.bytes b List.mem_cons_self).resolve_left hb with rfl | rfl | rfl | rfl <;> decide
  refine ⟨c.plain b, [Controller.ack], execute_plain hlocked hcommand.1 hcommand.2 wire, hack, ?_⟩
  have hsame : (c.plain b).locked = c.locked := by
    unfold Controller.plain
    split_ifs <;> rfl
  refine ⟨?_, h.blank, hbytes, fun hreset => ?_⟩
  · intro p hp
    rcases List.mem_append.mp hp with hp | hp
    · exact h.spoken p hp
    · rw [hack p hp]
      exact Or.inl rfl
  · rw [hsame]
    rcases h.doom hreset with ⟨p, hp, hp'⟩ | hl | hw
    · exact Or.inl ⟨p, List.mem_append_left _ hp, hp'⟩
    · exact Or.inr (Or.inl hl)
    · exact Or.inr (Or.inr ((List.mem_cons.mp hw).resolve_left (Ne.symm hb)))

/-- The system after the events `hs`, none of which set the displays. -/
def Unset (hs : List Happening) (tty : T) (s : TuxSystem T) : Prop :=
  ∃ toPc, Streamed room s tty toPc ∧ Doomed hs s.module.driver s.board toPc (s.wire tty)

theorem unset_receive {hs : List Happening} {tty : T} {s : TuxSystem T} (powerUp : Controller)
    (hroom : ∀ n, 6 ≤ room n) (h : Unset room hs tty s) {n : ℕ} (hn : n ≤ 10) :
    ∃ s', s.step room beyond powerUp tty (.receive n) = some s' ∧
      Unset room (hs ++ [.receive n]) tty s' := by
  obtain ⟨toPc, hstreamed, hdoomed⟩ := h
  obtain ⟨s', handled, waiting, hstep, hreceived⟩ :=
    received room beyond powerUp hroom hstreamed hn
  rw [hreceived.split] at hdoomed
  refine ⟨s', hstep, waiting, hreceived.streamed, ?_⟩
  rw [hreceived.driver, hreceived.same.1, hreceived.wire]
  exact (doomed_packets beyond hdoomed).extend (by simp)

theorem unset_execute {hs : List Happening} {tty : T} {s : TuxSystem T} (powerUp : Controller)
    (h : Unset room hs tty s) : ∃ s', s.step room beyond powerUp tty .execute = some s' ∧
      Unset room (hs ++ [.execute]) tty s' := by
  obtain ⟨toPc, hstreamed, hdoomed⟩ := h
  cases hwire : s.wire tty with
  | nil =>
      refine ⟨s, ?_, toPc, hstreamed, hdoomed.extend (by simp)⟩
      simp [TuxSystem.step, hwire, Controller.execute, TuxSystem.speak]
  | cons b wire =>
      rw [hwire] at hdoomed
      obtain ⟨board, answers, hexecute, hanswers, hdoomed'⟩ := doomed_execute hdoomed
      have hpackets : ∀ p ∈ answers, framed p.1 p.2.1 p.2.2 = true := fun p hp => by
        rw [hanswers p hp]
        exact framed_ack _ List.mem_cons_self
      have hspeak := streamed_speak room hstreamed board hpackets
      have hlen := congrArg List.length hwire
      rw [TuxSystem.wire, List.length_drop, List.length_cons] at hlen
      refine ⟨{ s.speak board answers with taken := s.taken + 1 }, ?_, toPc ++ answers,
        ⟨hspeak.stream, hspeak.framed, ?_⟩, ?_⟩
      · simp [TuxSystem.step, hwire, hexecute]
      · show s.taken + 1 ≤ (s.module.ldisc.sent tty).length
        omega
      · have hrest : TuxSystem.wire { s.speak board answers with taken := s.taken + 1 } tty =
            wire := by
          show (s.module.ldisc.sent tty).drop (s.taken + 1) = wire
          rw [← List.drop_drop]
          show (s.wire tty).drop 1 = wire
          rw [hwire]
          rfl
        rw [hrest]
        exact hdoomed'.extend (by simp)

omit [DecidableEq T] in
theorem unset_speak {hs : List Happening} {tty : T} {s : TuxSystem T} {toPc : List Packet}
    (h : Streamed room s tty toPc) {board : Controller} {packets : List Packet}
    (hpackets : ∀ p ∈ packets, framed p.1 p.2.1 p.2.2 = true)
    (hdoomed : Doomed hs s.module.driver board (toPc ++ packets) (s.wire tty)) :
    Unset room hs tty (s.speak board packets) :=
  ⟨toPc ++ packets, streamed_speak room h board hpackets, hdoomed⟩

omit [DecidableEq T] in
theorem unset_press {hs : List Happening} {tty : T} {s : TuxSystem T} (h : Unset room hs tty s)
    (b0 b1 : UInt8) : Unset room (hs ++ [.press b0 b1]) tty
      (s.speak (s.board.press b0 b1).1 (s.board.press b0 b1).2) := by
  obtain ⟨toPc, hstreamed, hdoomed⟩ := h
  refine unset_speak room hstreamed (framed_press s.board b0 b1) ?_
  refine Doomed.extend ⟨?_, hdoomed.blank, hdoomed.bytes, fun hreset => ?_⟩ (by simp)
  · intro p hp
    rcases List.mem_append.mp hp with hp | hp
    · exact hdoomed.spoken p hp
    · exact spoken_press s.board b0 b1 p hp
  · refine (hdoomed.doom hreset).imp_left ?_
    rintro ⟨p, hp, hp'⟩
    exact ⟨p, List.mem_append_left _ hp, hp'⟩

omit [DecidableEq T] in
theorem unset_reset {hs : List Happening} {tty : T} {s : TuxSystem T} (powerUp : Controller)
    (h : Unset room hs tty s) : Unset room (hs ++ [.reset]) tty
      (s.speak (s.board.reset powerUp).1 (s.board.reset powerUp).2) := by
  obtain ⟨toPc, hstreamed, hdoomed⟩ := h
  refine unset_speak room hstreamed (framed_reset s.board powerUp) ?_
  refine ⟨?_, hdoomed.blank, hdoomed.bytes, fun _ => Or.inl ?_⟩
  · intro p hp
    rcases List.mem_append.mp hp with hp | hp
    · exact hdoomed.spoken p hp
    · rw [List.mem_singleton.mp hp]
      exact Or.inr (Or.inl rfl)
  · exact ⟨(mtcpReset, 0x80, 0x80), List.mem_append_right _ List.mem_cons_self, rfl⟩

/-- **The step lemma** for a system whose displays were never set. -/
theorem unset_step {hs : List Happening} {tty : T} {s : TuxSystem T} (powerUp : Controller)
    (hroom : ∀ n, 6 ≤ room n) (h : Unset room hs tty s) {e : Happening}
    (hsetting : setting e = none) (hshort : ∀ n, e = .receive n → n ≤ 10) :
    ∃ s', s.step room beyond powerUp tty e = some s' ∧ Unset room (hs ++ [e]) tty s' := by
  cases e with
  | receive n => exact unset_receive room beyond powerUp hroom h (hshort n rfl)
  | wakeup =>
      obtain ⟨toPc, hstreamed, hdoomed⟩ := h
      obtain ⟨m, hstep, hdriver, hstreamed', hwire⟩ :=
        called room beyond hroom hstreamed .wakeup fun _ => ⟨rfl, rfl⟩
      refine ⟨{ s with module := m }, by simp [TuxSystem.step, hstep], toPc, hstreamed', ?_⟩
      rw [hwire, sentBy, List.flatten_nil, List.append_nil]
      show Doomed _ m.driver _ _ _
      rw [hdriver]
      exact hdoomed.extend (by simp)
  | ioctl cmd arg uncopied =>
      obtain ⟨toPc, hstreamed, hdoomed⟩ := h
      have hcmd : cmd ≠ tuxSetLed := by
        rintro rfl
        simp [setting] at hsetting
      obtain ⟨m, hstep, hdriver, hstreamed', hwire⟩ := called room beyond hroom hstreamed
        (.ioctl cmd arg uncopied) fun _ => ⟨rfl, rfl⟩
      refine ⟨{ s with module := m }, by simp [TuxSystem.step, hstep], toPc, hstreamed', ?_⟩
      rw [hwire, sentBy, sentBy, List.append_nil]
      show Doomed _ m.driver _ _ _
      rw [hdriver]
      exact (doomed_ioctl beyond hdoomed hcmd arg uncopied).extend (by simp)
  | execute => exact unset_execute room beyond powerUp h
  | press b0 b1 => exact ⟨_, rfl, unset_press room h b0 b1⟩
  | reset => exact ⟨_, rfl, unset_reset room powerUp h⟩

end MachineProblems.Analysis.TuxLockup
