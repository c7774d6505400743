import MachineProblems.Analysis.TuxFollows

/-!
# The Tux controller and its module

The module and the controller over a line in each direction, from the load of the module on and in
any order of events.  The bytes on their way back are those of packets, the bytes on their way out
those of commands (`Joined`), so once nothing is on its way the displays are as `TUX_SET_LED` last
asked for them, however often and at whatever moment the controller was reset
(`displays_survive`).
-/

set_option autoImplicit false

namespace MachineProblems.Analysis.TuxLoop

open MachineProblems.Library MachineProblems.Library.FrameScanner
open MachineProblems.Program MachineProblems.Program.Tuxctl
open MachineProblems.Program.LineDiscipline (Packet framed bufsize)
open MachineProblems.Model
open MachineProblems.Analysis.Receive MachineProblems.Analysis.Tuxctl
open MachineProblems.Analysis.TuxModule MachineProblems.Analysis.TuxFollows

variable {T : Type} [DecidableEq T] (room : ℕ → ℕ) (beyond : ℕ → UInt8)

/-! ## The bytes on their way -/

/-- **The line back carries packets**: the bytes kept by the callback and those of the line are the
packets of `toPc`. -/
structure Streamed (s : TuxSystem T) (tty : T) (toPc : List Packet) : Prop where
  stream : ∃ kept, Running room s.module tty ⟨kept, []⟩ ∧
    kept ++ s.line = (toPc.map elements).flatten
  framed : ∀ p ∈ toPc, framed p.1 p.2.1 p.2.2 = true
  taken : s.taken ≤ (s.module.ldisc.sent tty).length

/-- **The lines carry packets and commands.** -/
structure Joined (s : TuxSystem T) (tty : T) (toPc : List Packet) (toBoard : List Command) : Prop
    extends Streamed room s tty toPc where
  wire : s.wire tty = (toBoard.map Command.bytes).flatten

omit [DecidableEq T] in
theorem length_kept_le {m : TuxModule T} {tty : T} {kept queue : List UInt8}
    (h : Running room m tty ⟨kept, queue⟩) : kept.length ≤ 2 := by
  have hkept : carried m.ldisc = kept := h.ends.kept
  rw [← hkept, length_carried h.ends.nSaved]
  exact h.ends.nSaved

omit [DecidableEq T] in
theorem Running.sent_eq {m : TuxModule T} {tty : T} {r : Receiver} (h : Running room m tty r)
    (hroom : ∀ n, 6 ≤ room n) : m.ldisc.sent tty = m.driver.puts.flatten := h.wire.whole hroom

omit [DecidableEq T] in
/-- What a call of the module puts goes to the end of the wire. -/
theorem wire_append {s : TuxSystem T} {tty : T} {r r' : Receiver} {m : TuxModule T}
    {es : List Event} (h : Running room s.module tty r) (h' : Running room m tty r')
    (hroom : ∀ n, 6 ≤ room n) (htaken : s.taken ≤ (s.module.ldisc.sent tty).length)
    (hdriver : m.driver = s.module.driver.drive beyond es) :
    (m.ldisc.sent tty).drop s.taken = s.wire tty ++ (sentBy beyond s.module.driver es).flatten ∧
      s.taken ≤ (m.ldisc.sent tty).length := by
  have hsent : m.ldisc.sent tty =
      s.module.ldisc.sent tty ++ (sentBy beyond s.module.driver es).flatten := by
    rw [Running.sent_eq room h' hroom, Running.sent_eq room h hroom, hdriver, puts_drive,
      List.flatten_append]
  constructor
  · rw [hsent, List.drop_append_of_le_length htaken]
    rfl
  · rw [hsent, List.length_append]
    omega

/-- The system after the events `hs`. -/
def Reached (hs : List Happening) (tty : T) (s : TuxSystem T) : Prop :=
  ∃ toPc toBoard, Joined room s tty toPc toBoard ∧
    Follows beyond hs s.module.driver s.board toPc toBoard s.told

/-- What an event needs: a chunk fits beside the bytes that the callback keeps, and a reset comes
after some `TUX_SET_LED`. -/
def Admissible (hs : List Happening) : Happening → Prop
  | .receive n => n ≤ 10
  | .reset => (lastSet hs).isSome
  | _ => True

theorem length_elements (toPc : List Packet) :
    ((toPc.map elements).flatten).length = 3 * toPc.length := by
  induction toPc with
  | nil => rfl
  | cons p toPc ih =>
      rw [List.map_cons, List.flatten_cons, List.length_append, ih, List.length_cons, elements]
      simp only [List.length_cons, List.length_nil]
      omega

/-- What an interrupt that takes `n` bytes makes of the system: the driver handles the packets that
are complete, and what it puts goes to the end of the wire. -/
structure Received (s s' : TuxSystem T) (tty : T) (n : ℕ) (toPc handled waiting : List Packet) :
    Prop where
  split : toPc = handled ++ waiting
  streamed : Streamed room s' tty waiting
  driver : s'.module.driver = s.module.driver.drive beyond (handled.map .packet)
  same : s'.board = s.board ∧ s'.told = s.told
  wire : s'.wire tty =
    s.wire tty ++ (sentBy beyond s.module.driver (handled.map .packet)).flatten
  progress : n = 10 → toPc ≠ [] → handled ≠ []

/-- **An interrupt.** -/
theorem received {tty : T} {s : TuxSystem T} {toPc : List Packet} (powerUp : Controller)
    (hroom : ∀ n, 6 ≤ room n) (h : Streamed room s tty toPc) {n : ℕ} (hn : n ≤ 10) :
    ∃ s' handled waiting, s.step room beyond powerUp tty (.receive n) = some s' ∧
      Received room beyond s s' tty n toPc handled waiting := by
  obtain ⟨kept, hrunning, hstream⟩ := h.stream
  have hcp : (s.line.take n).length ≤ 10 := (List.length_take_le n s.line).trans hn
  have hscan := Receiver.receive_short (length_kept_le room hrunning) hcp
  obtain ⟨m, hstep, hdriver, hnext⟩ :=
    step_running room beyond hrunning (.receive (s.line.take n))
  simp only [events, next, hscan] at hdriver hnext
  have hcut : (kept ++ s.line.take n) ++ s.line.drop n = (toPc.map elements).flatten := by
    rw [List.append_assoc, List.take_append_drop, hstream]
  obtain ⟨hsplit, hrest⟩ := packets_of_frames framed h.framed hcut
  obtain ⟨hwire, htaken⟩ := wire_append room beyond hrunning hnext hroom h.taken hdriver
  refine ⟨{ s with module := m, line := s.line.drop n }, _, _, by simp [TuxSystem.step, hstep],
    hsplit, ⟨⟨_, hnext, hrest⟩, ?_, htaken⟩, hdriver, ⟨rfl, rfl⟩, hwire, ?_⟩
  · exact fun p hp => h.framed p (List.mem_of_mem_drop hp)
  · rintro rfl hne hnone
    -- ten bytes, or all that are left, hold a packet
    have hpos : 0 < toPc.length := List.length_pos_iff.mpr hne
    have hkept := length_kept_le room hrunning
    have hleft := length_leftover_le framed (kept ++ s.line.take 10)
    have hlength := congrArg List.length hrest
    have htotal := congrArg List.length hstream
    rw [hnone, List.length_append, length_elements, List.length_drop, List.length_drop,
      List.length_nil] at hlength
    rw [List.length_append, length_elements] at htotal
    omega

/-- The driver answers with whole commands. -/
theorem receive_joined {hs : List Happening} {tty : T} {s : TuxSystem T} {toPc : List Packet}
    {toBoard : List Command} (powerUp : Controller) (hroom : ∀ n, 6 ≤ room n)
    (hjoined : Joined room s tty toPc toBoard)
    (hfollows : Follows beyond hs s.module.driver s.board toPc toBoard s.told) {n : ℕ}
    (hn : n ≤ 10) : ∃ s' waiting toBoard', s.step room beyond powerUp tty (.receive n) = some s' ∧
      Joined room s' tty waiting toBoard' ∧
      Follows beyond hs s'.module.driver s'.board waiting toBoard' s'.told ∧
      waiting.length ≤ toPc.length ∧ weight waiting toBoard' ≤ weight toPc toBoard ∧
      (n = 10 → toPc ≠ [] → weight waiting toBoard' < weight toPc toBoard) := by
  obtain ⟨s', handled, waiting, hstep, hreceived⟩ :=
    received room beyond powerUp hroom hjoined.toStreamed hn
  rw [hreceived.split] at hfollows
  obtain ⟨more, hmore, hfollows', hweight⟩ := follows_packets beyond hfollows
  rw [← hreceived.split] at hweight
  have hcount := congrArg List.length hreceived.split
  rw [List.length_append] at hcount
  refine ⟨s', waiting, toBoard ++ more, hstep, ⟨hreceived.streamed, ?_⟩, ?_, by omega, by omega,
    ?_⟩
  · rw [hreceived.wire, hjoined.wire, hmore, List.map_append, List.flatten_append]
  · rw [hreceived.driver, hreceived.same.1, hreceived.same.2]
    exact hfollows'
  · intro hten hne
    have hpos := List.length_pos_iff.mpr (hreceived.progress hten hne)
    omega

theorem reached_receive {hs : List Happening} {tty : T} {s : TuxSystem T} (powerUp : Controller)
    (hroom : ∀ n, 6 ≤ room n) (h : Reached room beyond hs tty s) {n : ℕ} (hn : n ≤ 10) :
    ∃ s', s.step room beyond powerUp tty (.receive n) = some s' ∧
      Reached room beyond (hs ++ [.receive n]) tty s' := by
  obtain ⟨toPc, toBoard, hjoined, hfollows⟩ := h
  obtain ⟨s', waiting, toBoard', hstep, hjoined', hfollows', -⟩ :=
    receive_joined room beyond powerUp hroom hjoined hfollows hn
  exact ⟨s', hstep, waiting, toBoard', hjoined', hfollows'.extend beyond rfl rfl⟩

/-- **A call of the kernel** that receives nothing: what the driver puts goes to the end of the
wire. -/
theorem called {tty : T} {s : TuxSystem T} {toPc : List Packet} (hroom : ∀ n, 6 ≤ room n)
    (h : Streamed room s tty toPc) (call : TuxModule.Call) {es : List Event}
    (hes : ∀ r, events r call = es ∧ next r call = r) :
    ∃ m, s.module.step room beyond tty call = some m ∧
      m.driver = s.module.driver.drive beyond es ∧
      Streamed room { s with module := m } tty toPc ∧
      TuxSystem.wire { s with module := m } tty =
        s.wire tty ++ (sentBy beyond s.module.driver es).flatten := by
  obtain ⟨kept, hrunning, hstream⟩ := h.stream
  obtain ⟨m, hstep, hdriver, hnext⟩ := step_running room beyond hrunning call
  rw [(hes _).1] at hdriver
  rw [(hes _).2] at hnext
  obtain ⟨hwire, htaken⟩ := wire_append room beyond hrunning hnext hroom h.taken hdriver
  exact ⟨m, hstep, hdriver, ⟨⟨kept, hnext, hstream⟩, h.framed, htaken⟩, hwire⟩

theorem reached_wakeup {hs : List Happening} {tty : T} {s : TuxSystem T} (powerUp : Controller)
    (hroom : ∀ n, 6 ≤ room n) (h : Reached room beyond hs tty s) :
    ∃ s', s.step room beyond powerUp tty .wakeup = some s' ∧
      Reached room beyond (hs ++ [.wakeup]) tty s' := by
  obtain ⟨toPc, toBoard, hjoined, hfollows⟩ := h
  obtain ⟨m, hstep, hdriver, hstreamed, hwire⟩ :=
    called room beyond hroom hjoined.toStreamed .wakeup fun _ => ⟨rfl, rfl⟩
  refine ⟨{ s with module := m }, by simp [TuxSystem.step, hstep], toPc, toBoard,
    ⟨hstreamed, ?_⟩, ?_⟩
  · rw [hwire, hjoined.wire]
    exact List.append_nil _
  · rw [hdriver]
    exact hfollows.extend beyond rfl rfl

theorem reached_ioctl {hs : List Happening} {tty : T} {s : TuxSystem T} (powerUp : Controller)
    (hroom : ∀ n, 6 ≤ room n) (h : Reached room beyond hs tty s) (cmd arg : UInt32)
    (uncopied : ℕ) :
    ∃ s', s.step room beyond powerUp tty (.ioctl cmd arg uncopied) = some s' ∧
      Reached room beyond (hs ++ [.ioctl cmd arg uncopied]) tty s' := by
  obtain ⟨toPc, toBoard, hjoined, hfollows⟩ := h
  obtain ⟨m, hstep, hdriver, hstreamed, hwire⟩ := called room beyond hroom hjoined.toStreamed
    (.ioctl cmd arg uncopied) fun _ => ⟨rfl, rfl⟩
  have hnone : resets (.ioctl cmd arg uncopied) → Armed s.module.driver :=
    fun hreset => hreset.elim
  have hsent : (sentBy beyond s.module.driver [.ioctl cmd arg uncopied]).flatten =
      ((commands beyond s.module.driver (.ioctl cmd arg uncopied)).map Command.bytes).flatten := by
    rw [sentBy, sentBy, List.append_nil, sent_eq_commands beyond hnone]
  refine ⟨{ s with module := m }, by simp [TuxSystem.step, hstep], toPc,
    toBoard ++ commands beyond s.module.driver (.ioctl cmd arg uncopied), ⟨hstreamed, ?_⟩, ?_⟩
  · rw [hwire, hjoined.wire, hsent, List.map_append, List.flatten_append]
  · rw [hdriver]
    exact follows_ioctl beyond hfollows cmd arg uncopied

omit [DecidableEq T] in
/-- What the controller sends goes to the end of the line. -/
theorem streamed_speak {tty : T} {s : TuxSystem T} {toPc : List Packet}
    (h : Streamed room s tty toPc) (board : Controller) {packets : List Packet}
    (hpackets : ∀ p ∈ packets, framed p.1 p.2.1 p.2.2 = true) :
    Streamed room (s.speak board packets) tty (toPc ++ packets) := by
  obtain ⟨kept, hrunning, hstream⟩ := h.stream
  refine ⟨⟨kept, hrunning, ?_⟩, ?_, h.taken⟩
  · rw [TuxSystem.speak, ← List.append_assoc, hstream, List.map_append, List.flatten_append]
  · intro p hp
    exact (List.mem_append.mp hp).elim (h.framed p) (hpackets p)

/-- Setting the high bit sets it. -/
theorem or_high (b : UInt8) : (b ||| 0x80) &&& 0x80 ≠ 0 := by
  have habsorb : ∀ x y : Bool, ((x || y) && y) = y := by decide
  have hsame : (b ||| 0x80) &&& 0x80 = 0x80 := by
    apply UInt8.toBitVec_inj.mp
    apply BitVec.eq_of_getElem_eq
    intro i hi
    rw [UInt8.toBitVec_and, UInt8.toBitVec_or, BitVec.getElem_and, BitVec.getElem_or]
    exact habsorb _ _
  rw [hsame]
  decide

/-- A report is a packet. -/
theorem framed_press (c : Controller) (b0 b1 : UInt8) :
    ∀ p ∈ (c.press b0 b1).2, framed p.1 p.2.1 p.2.2 = true := by
  have hevent : mtcpBiocEvent &&& 0x80 = 0 := by decide
  intro p hp
  unfold Controller.press at hp
  dsimp only at hp
  split_ifs at hp
  · rw [List.mem_singleton.mp hp]
    simp [framed, hevent, or_high b0, or_high b1]
  · exact absurd hp List.not_mem_nil

theorem spoken_press (c : Controller) (b0 b1 : UInt8) : ∀ p ∈ (c.press b0 b1).2, Spoken p := by
  intro p hp
  unfold Controller.press at hp
  dsimp only at hp
  split_ifs at hp
  · rw [List.mem_singleton.mp hp]
    exact Or.inr (Or.inr rfl)
  · exact absurd hp List.not_mem_nil

theorem framed_reset (c powerUp : Controller) :
    ∀ p ∈ (c.reset powerUp).2, framed p.1 p.2.1 p.2.2 = true := by
  intro p hp
  rw [List.mem_singleton.mp hp]
  decide

theorem reached_press {hs : List Happening} {tty : T} {s : TuxSystem T} (powerUp : Controller)
    (h : Reached room beyond hs tty s) (b0 b1 : UInt8) :
    ∃ s', s.step room beyond powerUp tty (.press b0 b1) = some s' ∧
      Reached room beyond (hs ++ [.press b0 b1]) tty s' := by
  obtain ⟨toPc, toBoard, hjoined, hfollows⟩ := h
  refine ⟨s.speak (s.board.press b0 b1).1 (s.board.press b0 b1).2, rfl, _, _,
    ⟨streamed_speak room hjoined.toStreamed _ (framed_press s.board b0 b1), hjoined.wire⟩, ?_⟩
  exact (follows_press beyond hfollows b0 b1).extend beyond rfl rfl

theorem reached_reset {hs : List Happening} {tty : T} {s : TuxSystem T} {powerUp : Controller}
    (h : Reached room beyond hs tty s) (hup : powerUp.locked = false)
    (hset : (lastSet hs).isSome) :
    ∃ s', s.step room beyond powerUp tty .reset = some s' ∧
      Reached room beyond (hs ++ [.reset]) tty s' := by
  obtain ⟨toPc, toBoard, hjoined, hfollows⟩ := h
  exact ⟨s.speak (s.board.reset powerUp).1 (s.board.reset powerUp).2, rfl, _, _,
    ⟨streamed_speak room hjoined.toStreamed _ (framed_reset s.board powerUp), hjoined.wire⟩,
    follows_reset beyond hfollows hup hset⟩

/-- An acknowledgement is a packet. -/
theorem framed_ack : ∀ p ∈ [Controller.ack], framed p.1 p.2.1 p.2.2 = true := by
  intro p hp
  rw [List.mem_singleton.mp hp]
  decide

/-- **The controller takes its turn** and executes a command if there is one. -/
theorem execute_joined {hs : List Happening} {tty : T} {s : TuxSystem T} {toPc : List Packet}
    {toBoard : List Command} (powerUp : Controller) (hjoined : Joined room s tty toPc toBoard)
    (hfollows : Follows beyond hs s.module.driver s.board toPc toBoard s.told) :
    ∃ s' toPc' toBoard', s.step room beyond powerUp tty .execute = some s' ∧
      Joined room s' tty toPc' toBoard' ∧
      Follows beyond hs s'.module.driver s'.board toPc' toBoard' s'.told ∧
      weight toPc' toBoard' ≤ weight toPc toBoard ∧
      (toBoard ≠ [] → weight toPc' toBoard' < weight toPc toBoard) := by
  cases toBoard with
  | nil =>
      have hwire : s.wire tty = [] := hjoined.wire
      refine ⟨s, toPc, [], ?_, hjoined, hfollows, le_rfl, fun h => absurd rfl h⟩
      simp [TuxSystem.step, hwire, Controller.execute, TuxSystem.speak]
  | cons cmd toBoard =>
      have hwire : s.wire tty = cmd.bytes ++ (toBoard.map Command.bytes).flatten := hjoined.wire
      have hexecute := execute_command hfollows.unlocked cmd (toBoard.map Command.bytes).flatten
      have hlen : cmd.bytes.length + s.taken ≤ (s.module.ldisc.sent tty).length := by
        have htaken := hjoined.taken
        have hdrop := congrArg List.length hwire
        rw [TuxSystem.wire, List.length_drop, List.length_append] at hdrop
        omega
      have hspeak := streamed_speak room hjoined.toStreamed (cmd.apply s.board) framed_ack
      have hless : weight (toPc ++ [Controller.ack]) toBoard < weight toPc (cmd :: toBoard) := by
        have hack : mtcpAck ≠ mtcpReset := by decide
        simp only [weight, List.map_append, List.sum_append, List.map_cons, List.map_nil,
          List.sum_cons, List.sum_nil, Controller.ack, if_neg hack, List.length_cons]
        omega
      refine ⟨{ s.speak (cmd.apply s.board) [Controller.ack] with
        taken := s.taken + cmd.bytes.length }, toPc ++ [Controller.ack], toBoard, ?_,
        ⟨⟨hspeak.stream, hspeak.framed, ?_⟩, ?_⟩, ?_, hless.le, fun _ => hless⟩
      · simp [TuxSystem.step, hwire, hexecute]
      · show s.taken + cmd.bytes.length ≤ (s.module.ldisc.sent tty).length
        omega
      · show (s.module.ldisc.sent tty).drop (s.taken + cmd.bytes.length) = _
        rw [← List.drop_drop]
        show (s.wire tty).drop _ = _
        rw [hwire, List.drop_left]
      · have hack : mtcpAck ≠ mtcpBiocEvent := by decide
        have htold : (s.speak (cmd.apply s.board) [Controller.ack]).told = s.told := by
          simp [TuxSystem.speak, Controller.ack, hack]
        show Follows beyond _ _ _ _ _ (s.speak (cmd.apply s.board) [Controller.ack]).told
        rw [htold]
        exact follows_execute beyond hfollows

theorem reached_execute {hs : List Happening} {tty : T} {s : TuxSystem T} (powerUp : Controller)
    (h : Reached room beyond hs tty s) :
    ∃ s', s.step room beyond powerUp tty .execute = some s' ∧
      Reached room beyond (hs ++ [.execute]) tty s' := by
  obtain ⟨toPc, toBoard, hjoined, hfollows⟩ := h
  obtain ⟨s', toPc', toBoard', hstep, hjoined', hfollows', -⟩ :=
    execute_joined room beyond powerUp hjoined hfollows
  exact ⟨s', hstep, toPc', toBoard', hjoined', hfollows'.extend beyond rfl rfl⟩

/-- **The step lemma.** -/
theorem reached_step {hs : List Happening} {tty : T} {s : TuxSystem T} {powerUp : Controller}
    (hroom : ∀ n, 6 ≤ room n) (hup : powerUp.locked = false) (h : Reached room beyond hs tty s)
    {e : Happening} (he : Admissible hs e) :
    ∃ s', s.step room beyond powerUp tty e = some s' ∧ Reached room beyond (hs ++ [e]) tty s' := by
  cases e with
  | receive n => exact reached_receive room beyond powerUp hroom h he
  | wakeup => exact reached_wakeup room beyond powerUp hroom h
  | ioctl cmd arg uncopied => exact reached_ioctl room beyond powerUp hroom h cmd arg uncopied
  | execute => exact reached_execute room beyond powerUp h
  | press b0 b1 => exact reached_press room beyond powerUp h b0 b1
  | reset => exact reached_reset room beyond h hup he

theorem reached_opened (tty : T) (rxBuf txBuf : Vector UInt8 bufsize) {board : Controller}
    (hboard : board.locked = false) :
    Reached room beyond [] tty (TuxSystem.opened tty rxBuf txBuf board) := by
  refine ⟨[], [], ⟨⟨⟨[], opened_running room tty rxBuf txBuf, rfl⟩, ?_, Nat.zero_le _⟩, rfl⟩, ?_⟩
  · exact fun p hp => absurd hp List.not_mem_nil
  · constructor
    · exact hboard
    · exact fun p hp => absurd hp List.not_mem_nil
    · rintro ⟨p, hp, -⟩
      exact absurd hp List.not_mem_nil
    · exact fun arg harg => absurd harg (by simp [lastSet])
    · rintro ⟨h, -⟩
      have hzero : (0 : UInt8) = mtcpLedSet := h
      exact absurd hzero (by decide)
    · exact fun h => absurd h (by decide)
    · rfl

/-! ## Nothing on its way -/

/-- **The controller is as asked for**: the displays hold the bytes of the last `TUX_SET_LED`, the
controller reports its buttons if it was ever to, and the driver has its last report. -/
structure AsAsked (hs : List Happening) (s : TuxSystem T) : Prop where
  leds : ∀ arg, lastSet hs = some arg → s.board.leds = ledByte beyond arg
  reports : hs.any enables = true → s.board.reports = true
  buttons : s.module.driver.buttonBuffer = #v[s.told.1, s.told.2]

theorem bytes_ne_nil (cmd : Command) : cmd.bytes ≠ [] := by
  cases cmd <;> exact List.cons_ne_nil _ _

omit [DecidableEq T] in
/-- An empty line carries no packet, not even a part of one. -/
theorem toPc_of_settled {tty : T} {s : TuxSystem T} {toPc : List Packet}
    (h : Streamed room s tty toPc) (hline : s.line = []) : toPc = [] := by
  obtain ⟨kept, hrunning, hstream⟩ := h.stream
  have hlen := congrArg List.length hstream
  have hkept := length_kept_le room hrunning
  rw [List.length_append, length_elements, hline, List.length_nil] at hlen
  exact List.length_eq_zero_iff.mp (by omega)

omit [DecidableEq T] in
/-- A settled system has no packet and no command on its way. -/
theorem settled_iff {tty : T} {s : TuxSystem T} {toPc : List Packet} {toBoard : List Command}
    (h : Joined room s tty toPc toBoard) : s.Settled tty ↔ toPc = [] ∧ toBoard = [] := by
  constructor
  · rintro ⟨hwire, hline⟩
    refine ⟨toPc_of_settled room h.toStreamed hline, ?_⟩
    rw [h.wire] at hwire
    cases toBoard with
    | nil => rfl
    | cons cmd toBoard =>
        rw [List.map_cons, List.flatten_cons, List.append_eq_nil_iff] at hwire
        exact absurd hwire.1 (bytes_ne_nil cmd)
  · rintro ⟨rfl, rfl⟩
    obtain ⟨kept, -, hstream⟩ := h.stream
    exact ⟨h.wire, (List.append_eq_nil_iff.mp hstream).2⟩

omit [DecidableEq T] in
theorem asAsked_of_settled {hs : List Happening} {tty : T} {s : TuxSystem T}
    (h : Reached room beyond hs tty s) (hsettled : s.Settled tty) : AsAsked beyond hs s := by
  obtain ⟨toPc, toBoard, hjoined, hfollows⟩ := h
  obtain ⟨rfl, rfl⟩ := (settled_iff room hjoined).mp hsettled
  have hnone : ¬ ResetComing [] := by
    rintro ⟨p, hp, -⟩
    exact absurd hp List.not_mem_nil
  constructor
  · intro arg harg
    obtain ⟨harmed, hdata⟩ := hfollows.asked arg harg
    exact ((hfollows.leds harmed).resolve_left hnone).trans hdata
  · exact fun henabled => (hfollows.reports henabled).resolve_left hnone
  · exact hfollows.buttons

/-! ## What is on its way arrives -/

/-- A turn of each: an interrupt that takes ten bytes, and a command executed. -/
def round : List Happening := [.receive 10, .execute]

/-- **A round** brings something to its end. -/
theorem round_joined {hs : List Happening} {tty : T} {s : TuxSystem T} {toPc : List Packet}
    {toBoard : List Command} (powerUp : Controller) (hroom : ∀ n, 6 ≤ room n)
    (hjoined : Joined room s tty toPc toBoard)
    (hfollows : Follows beyond hs s.module.driver s.board toPc toBoard s.told) :
    ∃ s' toPc' toBoard', run (TuxSystem.step room beyond powerUp tty) s round = some s' ∧
      Joined room s' tty toPc' toBoard' ∧
      Follows beyond hs s'.module.driver s'.board toPc' toBoard' s'.told ∧
      weight toPc' toBoard' ≤ weight toPc toBoard - 1 := by
  obtain ⟨s₁, waiting, toBoard₁, hstep, hjoined₁, hfollows₁, hle, hweight, hless⟩ :=
    receive_joined room beyond powerUp hroom hjoined hfollows le_rfl
  obtain ⟨s', toPc', toBoard', hstep', hjoined', hfollows', hweight', hless'⟩ :=
    execute_joined room beyond powerUp hjoined₁ hfollows₁
  refine ⟨s', toPc', toBoard', by simp [round, hstep, hstep'], hjoined', hfollows', ?_⟩
  by_cases hpc : toPc = []
  · by_cases hboard : toBoard₁ = []
    · have hwaiting : waiting = [] := by
        rw [hpc] at hle
        exact List.length_eq_zero_iff.mp (Nat.le_zero.mp hle)
      have hzero : weight waiting toBoard₁ = 0 := by
        rw [hwaiting, hboard]
        rfl
      omega
    · have := hless' hboard
      omega
  · have := hless rfl hpc
    omega

/-- **The system settles** when the kernel and the user leave it alone. -/
theorem rounds_settle {hs : List Happening} {tty : T} {s : TuxSystem T} (powerUp : Controller)
    (hroom : ∀ n, 6 ≤ room n) (h : Reached room beyond hs tty s) :
    ∃ k s', run (TuxSystem.step room beyond powerUp tty) s (List.replicate k round).flatten =
      some s' ∧ s'.Settled tty ∧ Reached room beyond hs tty s' := by
  obtain ⟨toPc, toBoard, hjoined, hfollows⟩ := h
  induction hw : weight toPc toBoard using Nat.strongRecOn generalizing s toPc toBoard with
  | _ w ih =>
      by_cases hsettled : s.Settled tty
      · exact ⟨0, s, rfl, hsettled, toPc, toBoard, hjoined, hfollows⟩
      · have hpos : 0 < weight toPc toBoard := by
          rw [settled_iff room hjoined] at hsettled
          by_contra hzero
          refine hsettled ?_
          cases toPc with
          | nil =>
              cases toBoard with
              | nil => exact ⟨rfl, rfl⟩
              | cons cmd toBoard =>
                  simp only [weight, List.length_cons] at hzero
                  omega
          | cons p toPc =>
              simp only [weight, List.map_cons, List.sum_cons] at hzero
              split_ifs at hzero <;> omega
        obtain ⟨s₁, toPc₁, toBoard₁, hround, hjoined₁, hfollows₁, hweight⟩ :=
          round_joined room beyond powerUp hroom hjoined hfollows
        obtain ⟨k, s', hrun, hdone⟩ := ih _ (by omega) _ _ hjoined₁ hfollows₁ rfl
        refine ⟨k + 1, s', ?_, hdone⟩
        rw [List.replicate_succ, List.flatten_cons, run_append, hround, Option.bind_some, hrun]

/-- A controller that comes up with dark displays and its clock. -/
def dark : Controller := ⟨fun _ => 0, false, false, (0x8F, 0x8F), false⟩

end MachineProblems.Analysis.TuxLoop
