import MachineProblems.Model.Mtcp
import Mathlib.Tactic.SplitIfs
import Mathlib.Data.List.Induction

/-!
# What the Tux driver sends

A call of the driver appends to what it has sent a list of byte strings that depends only on the
state before the call (`puts_event`), so a run sends the concatenation of such lists.  Two results
follow.  The strings sent since the module was loaded are whole commands exactly if no reset comes
before the first `TUX_SET_LED`: until then the display buffer that a reset replays is all zeros
(`sends_commands_iff`).  And an error is answered once exactly if no second ioctl follows it,
since nothing clears `error_flag` (`recovers_once_iff`).
-/

set_option autoImplicit false

namespace MachineProblems.Analysis.Tuxctl

open MachineProblems.Program.LineDiscipline (Packet)
open MachineProblems.Program.Tuxctl
open MachineProblems.Model.Mtcp

variable (beyond : ℕ → UInt8)

/-! ## One call -/

/-- The call sent nothing, raised no error and left the header of the display buffer alone. -/
def Quiet (s t : Driver) : Prop :=
  t.puts = s.puts ∧ t.errorFlag = s.errorFlag ∧
    t.ledRegularBuffer[0] = s.ledRegularBuffer[0] ∧
    t.ledRegularBuffer[1] = s.ledRegularBuffer[1]

/-- The display buffer with its four data bytes replaced. -/
def shown (s : Driver) (d0 d1 d2 d3 : UInt8) : Vector UInt8 6 :=
  #v[s.ledRegularBuffer[0], s.ledRegularBuffer[1], d0, d1, d2, d3]

theorem quiet_storeLeds {pos : Fin 5} (hpos : 2 ≤ (pos : ℕ)) (s : Driver) (x y : UInt8) :
    Quiet s (s.storeLeds pos x y) := by
  refine ⟨rfl, rfl, ?_, ?_⟩
  all_goals
    simp only [Driver.storeLeds]
    rw [Vector.getElem_set_ne (h := by omega), Vector.getElem_set_ne (h := by omega)]

theorem quiet_processRcvdPckt (op : UInt8) {pos : Fin 5} (hpos : 2 ≤ (pos : ℕ)) (s : Driver)
    (a b c : UInt8) : Quiet s (processRcvdPckt op pos s a b c) := by
  unfold processRcvdPckt
  split_ifs
  iterate 4 exact quiet_storeLeds hpos s _ _
  exact ⟨rfl, rfl, rfl, rfl⟩

/-- What a packet can do to the driver: raise the error, make it replay the display buffer, or
neither. -/
def Handled (s : Driver) (a : UInt8) (t : Driver) : Prop :=
  (a = mtcpError ∧ t = { s with errorFlag := 1 }) ∨
  (a = mtcpReset ∧ t =
    { s with
      regularBuffer := s.regularBuffer.set 0 mtcpBiocOn Nat.two_pos
      puts := s.puts ++ [[mtcpBiocOn]] ++ [s.ledRegularBuffer.toList]
      resetFlag := 0
      ackFlag := 0 }) ∨
  (a ≠ mtcpError ∧ a ≠ mtcpReset ∧ Quiet s t)

/-- **Every packet does one of the three.** -/
theorem handled (s : Driver) (p : Packet) : Handled s p.1 (tuxctlHandlePacket s p) := by
  obtain ⟨a, b, c⟩ := p
  have hpckt0 : Quiet s (processRcvdPckt0 s a b c) :=
    quiet_processRcvdPckt 0x50 (by decide) s a b c
  have hpckt1 : Quiet s (processRcvdPckt1 s a b c) :=
    quiet_processRcvdPckt 0x54 (by decide) s a b c
  have hsame : Quiet s s := ⟨rfl, rfl, rfl, rfl⟩
  have hne : mtcpAck ≠ mtcpReset := by decide
  unfold tuxctlHandlePacket
  apply iteInduction (motive := Handled s a)
  · exact fun herr => .inl ⟨herr, rfl⟩
  intro herr
  apply iteInduction (motive := Handled s a)
  · exact fun hack => .inr (.inr ⟨herr, hack ▸ hne, hsame⟩)
  intro _
  apply iteInduction (motive := Handled s a)
  · exact fun hreset => .inr (.inl ⟨hreset, by simp [Driver.put]⟩)
  intro hreset
  have hquiet {t : Driver} (ht : Quiet s t) : Handled s a t := .inr (.inr ⟨herr, hreset, ht⟩)
  apply iteInduction (motive := Handled s a)
  · exact fun _ => hquiet ⟨rfl, rfl, rfl, rfl⟩
  iterate 4
    refine fun _ => iteInduction (motive := Handled s a) (fun _ => hquiet hpckt0) ?_
  iterate 4
    refine fun _ => iteInduction (motive := Handled s a) (fun _ => hquiet hpckt1) ?_
  exact fun _ => hquiet hsame

/-- What the error branch sends. -/
def recovery (s : Driver) : List (List UInt8) := if s.errorFlag ≠ 0 then [[mtcpBiocOn]] else []

theorem puts_errorBranch (s : Driver) : (errorBranch s).puts = s.puts ++ recovery s := by
  unfold errorBranch recovery
  split_ifs <;> simp [Driver.put]

theorem errorFlag_errorBranch (s : Driver) : (errorBranch s).errorFlag = s.errorFlag := by
  unfold errorBranch
  split_ifs <;> rfl

theorem leds_errorBranch (s : Driver) :
    (errorBranch s).ledRegularBuffer = s.ledRegularBuffer := by
  unfold errorBranch
  split_ifs <;> rfl

/-- What a command sends after the error branch. -/
def answer (cmd arg : UInt32) : List (List UInt8) :=
  if cmd = tuxInit then [[mtcpBiocOn], [mtcpLedUsr], [mtcpClkReset], [mtcpClkUp]]
  else if cmd = tuxSetLed then [(regularBuf beyond arg).toList]
  else []

theorem puts_ioctl (s : Driver) (cmd arg : UInt32) (uncopied : ℕ) :
    (tuxctlIoctl beyond s cmd arg uncopied).1.puts =
      s.puts ++ recovery s ++ answer beyond cmd arg := by
  have hb : tuxButtons ≠ tuxSetLed := by decide
  simp only [tuxctlIoctl, answer, ← puts_errorBranch]
  by_cases hinit : cmd = tuxInit
  · simp only [if_pos hinit, Driver.put, List.append_assoc]
    rfl
  by_cases hbuttons : cmd = tuxButtons
  · have hset : cmd ≠ tuxSetLed := hbuttons ▸ hb
    simp only [if_neg hinit, if_pos hbuttons, if_neg hset, List.append_nil]
  by_cases hset : cmd = tuxSetLed
  · simp only [if_neg hinit, if_neg hbuttons, if_pos hset, Driver.put]
  · simp only [if_neg hinit, if_neg hbuttons, if_neg hset, List.append_nil]

theorem errorFlag_put (s : Driver) (buf : List UInt8) : (s.put buf).errorFlag = s.errorFlag := rfl

theorem errorFlag_ioctl (s : Driver) (cmd arg : UInt32) (uncopied : ℕ) :
    (tuxctlIoctl beyond s cmd arg uncopied).1.errorFlag = s.errorFlag := by
  simp only [tuxctlIoctl]
  split_ifs <;> simp only [errorFlag_put, errorFlag_errorBranch]

theorem leds_put (s : Driver) (buf : List UInt8) :
    (s.put buf).ledRegularBuffer = s.ledRegularBuffer := rfl

theorem leds_ioctl (s : Driver) (cmd arg : UInt32) (uncopied : ℕ) :
    (tuxctlIoctl beyond s cmd arg uncopied).1.ledRegularBuffer =
      if cmd = tuxSetLed then regularBuf beyond arg else s.ledRegularBuffer := by
  have hi : tuxInit ≠ tuxSetLed := by decide
  have hb : tuxButtons ≠ tuxSetLed := by decide
  by_cases hset : cmd = tuxSetLed
  · simp only [tuxctlIoctl, hset, if_neg hi.symm, if_neg hb.symm, if_pos]
  · simp only [tuxctlIoctl, if_neg hset]
    split_ifs <;> simp only [leds_put, leds_errorBranch]

/-! ## Runs -/

/-- What one call sends. -/
def sent (s : Driver) : Event → List (List UInt8)
  | .packet p => if p.1 = mtcpReset then [[mtcpBiocOn], s.ledRegularBuffer.toList] else []
  | .ioctl cmd arg _ => recovery s ++ answer beyond cmd arg

theorem puts_event (s : Driver) (e : Event) :
    (s.event beyond e).puts = s.puts ++ sent beyond s e := by
  cases e with
  | packet p =>
      show (tuxctlHandlePacket s p).puts = _
      have hne : mtcpError ≠ mtcpReset := by decide
      obtain ⟨herr, ht⟩ | ⟨hreset, ht⟩ | ⟨-, hreset, hquiet⟩ := handled s p
      · rw [ht, sent, herr, if_neg hne, List.append_nil]
      · rw [ht, sent, if_pos hreset, List.append_assoc]
        rfl
      · rw [hquiet.1, sent, if_neg hreset, List.append_nil]
  | ioctl cmd arg uncopied =>
      rw [sent, ← List.append_assoc]
      exact puts_ioctl beyond s cmd arg uncopied

/-- What a run sends. -/
def sentBy (s : Driver) : List Event → List (List UInt8)
  | [] => []
  | e :: events => sent beyond s e ++ sentBy (s.event beyond e) events

theorem puts_drive (s : Driver) (events : List Event) :
    (s.drive beyond events).puts = s.puts ++ sentBy beyond s events := by
  induction events generalizing s with
  | nil => exact (List.append_nil _).symm
  | cons e events ih =>
      show ((s.event beyond e).drive beyond events).puts = _
      rw [ih, puts_event, sentBy, List.append_assoc]

/-! ## Whole commands -/

/-- `TUX_SET_LED`. -/
def setsLeds : Event → Prop
  | .packet _ => False
  | .ioctl cmd _ _ => cmd = tuxSetLed

/-- A reset packet. -/
def resets : Event → Prop
  | .packet p => p.1 = mtcpReset
  | .ioctl _ _ _ => False

/-- The display buffer starts like an `MTCP_LED_SET` command for all four displays. -/
def Armed (s : Driver) : Prop :=
  s.ledRegularBuffer[0] = mtcpLedSet ∧ s.ledRegularBuffer[1] = 0xF

/-- The display buffer starts with a zero, as when the module is loaded. -/
def Blank (s : Driver) : Prop := s.ledRegularBuffer[0] = 0

theorem header_packet (s : Driver) (p : Packet) :
    (tuxctlHandlePacket s p).ledRegularBuffer[0] = s.ledRegularBuffer[0] ∧
      (tuxctlHandlePacket s p).ledRegularBuffer[1] = s.ledRegularBuffer[1] := by
  obtain ⟨-, ht⟩ | ⟨-, ht⟩ | ⟨-, -, hquiet⟩ := handled s p
  · rw [ht]
    exact ⟨rfl, rfl⟩
  · rw [ht]
    exact ⟨rfl, rfl⟩
  · exact hquiet.2.2

theorem leds_event_ioctl (s : Driver) (cmd arg : UInt32) (uncopied : ℕ) :
    (s.event beyond (.ioctl cmd arg uncopied)).ledRegularBuffer =
      if cmd = tuxSetLed then regularBuf beyond arg else s.ledRegularBuffer :=
  leds_ioctl beyond s cmd arg uncopied

/-- Once armed, the buffer stays so: the answers to a poll go behind its header. -/
theorem armed_event {s : Driver} (h : Armed s) (e : Event) : Armed (s.event beyond e) := by
  cases e with
  | packet p =>
      obtain ⟨h0, h1⟩ := header_packet s p
      exact ⟨h0.trans h.1, h1.trans h.2⟩
  | ioctl cmd arg uncopied =>
      unfold Armed
      rw [leds_event_ioctl]
      split_ifs
      · exact ⟨rfl, rfl⟩
      · exact h

/-- `TUX_SET_LED` arms the buffer. -/
theorem armed_of_setsLeds (s : Driver) {e : Event} (he : setsLeds e) :
    Armed (s.event beyond e) := by
  cases e with
  | packet p => exact he.elim
  | ioctl cmd arg uncopied =>
      have hset : cmd = tuxSetLed := he
      unfold Armed
      rw [leds_event_ioctl, if_pos hset]
      exact ⟨rfl, rfl⟩

/-- Nothing else does. -/
theorem blank_event {s : Driver} (h : Blank s) {e : Event} (he : ¬ setsLeds e) :
    Blank (s.event beyond e) := by
  cases e with
  | packet p => exact (header_packet s p).1.trans h
  | ioctl cmd arg uncopied =>
      have hset : cmd ≠ tuxSetLed := he
      unfold Blank
      rw [leds_event_ioctl, if_neg hset]
      exact h

/-- A command that is one byte. -/
theorem commands_plain {b : UInt8} (hb : isCommand b = true) (hne : b ≠ mtcpLedSet) :
    Commands [b] := Commands.plain hb hne Commands.none

/-- Six bytes that start with `MTCP_LED_SET` and the mask of all four displays. -/
theorem commands_leds {v : Vector UInt8 6} (h0 : v[0] = mtcpLedSet) (h1 : v[1] = 0xF) :
    Commands v.toList := by
  obtain ⟨⟨bytes⟩, hlen⟩ := v
  match bytes, hlen with
  | [b0, b1, b2, b3, b4, b5], _ =>
      obtain rfl : b0 = mtcpLedSet := h0
      obtain rfl : b1 = 0xF := h1
      exact Commands.ledSet (show [b2, b3, b4, b5].length = ledCount 0xF from rfl) Commands.none

theorem commands_recovery (s : Driver) : Commands (recovery s).flatten := by
  unfold recovery
  split_ifs
  · exact commands_plain (by decide) (by decide)
  · exact Commands.none

theorem commands_answer (cmd arg : UInt32) : Commands (answer beyond cmd arg).flatten := by
  unfold answer
  split_ifs
  · exact .plain (by decide) (by decide) (.plain (by decide) (by decide)
      (.plain (by decide) (by decide) (commands_plain (by decide) (by decide))))
  · rw [List.flatten_cons, List.flatten_nil, List.append_nil]
    exact commands_leds rfl rfl
  · exact Commands.none

theorem commands_append {xs ys : List UInt8} (hx : Commands xs) (hy : Commands ys) :
    Commands (xs ++ ys) := hx.append_iff.mpr hy

/-- A call sends whole commands, unless it replays a buffer that was never filled. -/
theorem commands_sent {s : Driver} {e : Event} (h : resets e → Armed s) :
    Commands (sent beyond s e).flatten := by
  cases e with
  | packet p =>
      rw [sent]
      split_ifs with hreset
      · obtain ⟨h0, h1⟩ := h hreset
        simp only [List.flatten_cons, List.flatten_nil, List.append_nil]
        exact commands_append (commands_plain (by decide) (by decide)) (commands_leds h0 h1)
      · exact Commands.none
  | ioctl cmd arg uncopied =>
      rw [sent, List.flatten_append]
      exact commands_append (commands_recovery s) (commands_answer beyond cmd arg)

/-- What a reset makes a blank driver send is no sequence of commands, whatever follows. -/
theorem not_commands_replay {s : Driver} (h : Blank s) {e : Event} (he : resets e)
    (more : List UInt8) : ¬ Commands ((sent beyond s e).flatten ++ more) := by
  cases e with
  | ioctl cmd arg uncopied => exact he.elim
  | packet p =>
      have hreset : p.1 = mtcpReset := he
      have hon : Commands [mtcpBiocOn] := commands_plain (by decide) (by decide)
      rw [sent, if_pos hreset, List.flatten_cons, List.flatten_cons, List.flatten_nil,
        List.append_nil, List.append_assoc, hon.append_iff]
      have h0 : s.ledRegularBuffer[0] = 0 := h
      generalize s.ledRegularBuffer = v at h0 ⊢
      obtain ⟨⟨bytes⟩, hlen⟩ := v
      match bytes, hlen with
      | b0 :: rest, _ =>
          obtain rfl : b0 = 0 := h0
          exact fun hall => absurd (Commands.head hall) (by decide)

theorem commands_of_armed {s : Driver} (h : Armed s) (events : List Event) :
    Commands (sentBy beyond s events).flatten := by
  induction events generalizing s with
  | nil => exact Commands.none
  | cons e events ih =>
      rw [sentBy, List.flatten_append]
      exact commands_append (commands_sent beyond fun _ => h) (ih (armed_event beyond h e))

/-- Every reset comes after some `TUX_SET_LED`. -/
def ResetsCovered (events : List Event) : Prop :=
  ∀ before e after, events = before ++ e :: after → resets e → ∃ earlier ∈ before, setsLeds earlier

theorem resetsCovered_cons {e : Event} (he : ¬ setsLeds e) (events : List Event) :
    ResetsCovered (e :: events) ↔ ¬ resets e ∧ ResetsCovered events := by
  constructor
  · intro h
    refine ⟨fun hreset => ?_, fun before f after hsplit hf => ?_⟩
    · obtain ⟨earlier, hmem, _⟩ := h [] e events rfl hreset
      exact absurd hmem List.not_mem_nil
    · obtain ⟨earlier, hmem, hset⟩ := h (e :: before) f after (by rw [hsplit]; rfl) hf
      cases hmem with
      | head => exact absurd hset he
      | tail _ hmem => exact ⟨earlier, hmem, hset⟩
  · rintro ⟨hreset, h⟩ before f after hsplit hf
    cases before with
    | nil =>
        obtain ⟨rfl, -⟩ := List.cons.inj hsplit
        exact absurd hf hreset
    | cons g before =>
        obtain ⟨rfl, hrest⟩ := List.cons.inj hsplit
        obtain ⟨earlier, hmem, hset⟩ := h before f after hrest hf
        exact ⟨earlier, List.mem_cons_of_mem _ hmem, hset⟩

theorem resetsCovered_of_setsLeds {e : Event} (he : setsLeds e) (events : List Event) :
    ResetsCovered (e :: events) := by
  rintro before f after hsplit hf
  cases before with
  | nil =>
      obtain ⟨rfl, -⟩ := List.cons.inj hsplit
      cases e with
      | packet p => exact he.elim
      | ioctl cmd arg uncopied => exact hf.elim
  | cons g before =>
      obtain ⟨rfl, -⟩ := List.cons.inj hsplit
      exact ⟨e, List.mem_cons_self, he⟩

theorem commands_of_blank {s : Driver} (h : Blank s) (events : List Event) :
    Commands (sentBy beyond s events).flatten ↔ ResetsCovered events := by
  induction events generalizing s with
  | nil => exact iff_of_true Commands.none fun before _ _ hnil => by simp at hnil
  | cons e events ih =>
      rw [sentBy, List.flatten_append]
      by_cases he : setsLeds e
      · have hnot : resets e → Armed s := fun hreset => by
          cases e with
          | packet p => exact he.elim
          | ioctl cmd arg uncopied => exact hreset.elim
        rw [(commands_sent beyond hnot).append_iff]
        exact iff_of_true (commands_of_armed beyond (armed_of_setsLeds beyond s he) events)
          (resetsCovered_of_setsLeds he events)
      · rw [resetsCovered_cons he]
        by_cases hreset : resets e
        · exact iff_of_false (not_commands_replay beyond h hreset _) fun hno => hno.1 hreset
        · rw [(commands_sent beyond fun hyes => absurd hyes hreset).append_iff,
            ih (blank_event beyond h he), and_iff_right hreset]

/-- **Well-formed commands**: what the driver passes to `tuxctl_ldisc_put` from module load on is
a sequence of whole commands exactly if every reset comes after some `TUX_SET_LED`. -/
theorem sends_commands_iff (events : List Event) :
    Commands (Driver.load.drive beyond events).puts.flatten ↔ ResetsCovered events := by
  have hload : (Driver.load.drive beyond events).puts = sentBy beyond Driver.load events :=
    puts_drive beyond Driver.load events
  rw [hload]
  exact commands_of_blank beyond (show Blank Driver.load from rfl) events

/-- A reset that comes first makes the driver send six zeros. -/
theorem sends_zeros_on_first_reset :
    (Driver.load.drive (fun _ => 0) [.packet (mtcpReset, 0x80, 0x80)]).puts.flatten =
        [mtcpBiocOn, 0, 0, 0, 0, 0, 0] ∧
      ¬ Commands (Driver.load.drive (fun _ => 0) [.packet (mtcpReset, 0x80, 0x80)]).puts.flatten := by
  have hputs : (Driver.load.drive (fun _ => 0) [.packet (mtcpReset, 0x80, 0x80)]).puts.flatten =
      [mtcpBiocOn, 0, 0, 0, 0, 0, 0] := by decide
  have hon : Commands [mtcpBiocOn] := commands_plain (by decide) (by decide)
  refine ⟨hputs, ?_⟩
  rw [hputs]
  exact fun h => absurd (hon.append_iff.mp h).head (by decide)

/-! ## One recovery per error -/

/-- An error packet. -/
def isError : Event → Bool
  | .packet p => p.1 == mtcpError
  | .ioctl _ _ _ => false

/-- A call of `tuxctl_ioctl`. -/
def isIoctl : Event → Bool
  | .packet _ => false
  | .ioctl _ _ _ => true

/-- How many bytes the error branch sends in a run. -/
def recoveries (s : Driver) : List Event → ℕ
  | [] => 0
  | e :: events =>
      (if isIoctl e then (recovery s).flatten.length else 0) + recoveries (s.event beyond e) events

theorem recoveries_concat (s : Driver) (events : List Event) (f : Event) :
    recoveries beyond s (events ++ [f]) = recoveries beyond s events +
      if isIoctl f then (recovery (s.drive beyond events)).flatten.length else 0 := by
  induction events generalizing s with
  | nil => exact Nat.add_comm _ _
  | cons e events ih =>
      show _ + recoveries beyond _ (events ++ [f]) = _ + recoveries beyond _ events + _
      rw [ih, Nat.add_assoc]
      rfl

/-- Nothing clears `error_flag`. -/
theorem errorFlag_event (s : Driver) (e : Event) :
    (s.event beyond e).errorFlag ≠ 0 ↔ isError e = true ∨ s.errorFlag ≠ 0 := by
  cases e with
  | ioctl cmd arg uncopied =>
      show (tuxctlIoctl beyond s cmd arg uncopied).1.errorFlag ≠ 0 ↔ _
      rw [errorFlag_ioctl]
      simp [isError]
  | packet p =>
      show (tuxctlHandlePacket s p).errorFlag ≠ 0 ↔ _
      have hne : mtcpReset ≠ mtcpError := by decide
      simp only [isError, beq_iff_eq]
      obtain ⟨herr, ht⟩ | ⟨hreset, ht⟩ | ⟨herr, -, hquiet⟩ := handled s p
      · rw [ht]
        exact iff_of_true (Nat.one_ne_zero) (.inl herr)
      · rw [ht, hreset]
        exact ⟨.inr, fun h => h.resolve_left hne⟩
      · rw [hquiet.2.1]
        exact ⟨.inr, fun h => h.resolve_left herr⟩

/-- The flag is up exactly if an error packet was handled. -/
theorem errorFlag_drive (s : Driver) (events : List Event) :
    (s.drive beyond events).errorFlag ≠ 0 ↔ (∃ e ∈ events, isError e = true) ∨ s.errorFlag ≠ 0 := by
  induction events generalizing s with
  | nil => simp [Driver.drive]
  | cons e events ih =>
      show ((s.event beyond e).drive beyond events).errorFlag ≠ 0 ↔ _
      rw [ih, errorFlag_event, List.exists_mem_cons_iff, or_assoc, or_left_comm]

theorem recovery_eq_nil (s : Driver) : recovery s = [] ↔ s.errorFlag = 0 := by
  unfold recovery
  split_ifs with h <;> simp_all

/-- The error branch is taken exactly if an error packet was handled since the module was
loaded. -/
theorem recovers_iff (events : List Event) :
    recovery (Driver.load.drive beyond events) ≠ [] ↔ ∃ e ∈ events, isError e = true := by
  rw [Ne, recovery_eq_nil]
  refine (errorFlag_drive beyond Driver.load events).trans ?_
  exact or_iff_left fun h => h rfl

/-- **One recovery per error**: up to every moment the error branch has sent no more bytes than
errors came, and after an ioctl that answered an error no other answers one until the next. -/
def RecoversOnce (events : List Event) : Prop :=
  (∀ before, before <+: events → recoveries beyond Driver.load before ≤ before.countP isError) ∧
  ∀ before e mid f after, events = before ++ e :: (mid ++ f :: after) →
    isIoctl e = true → isIoctl f = true →
    recovery (Driver.load.drive beyond before) ≠ [] → (∀ g ∈ mid, isError g = false) →
    recovery (Driver.load.drive beyond (before ++ e :: mid)) = []

/-- Between two ioctls that follow an error comes another error. -/
def ErrorsApart (events : List Event) : Prop :=
  ∀ before e mid f after, events = before ++ e :: (mid ++ f :: after) →
    isIoctl e = true → isIoctl f = true → (∃ g ∈ before, isError g = true) →
    ∃ g ∈ mid, isError g = true

theorem ErrorsApart.of_prefix {events more : List Event} (h : ErrorsApart (events ++ more)) :
    ErrorsApart events := by
  rintro before e mid f after rfl
  refine h before e mid f (after ++ more) ?_
  simp

/-- An error came, and no ioctl after the last one. -/
def Unanswered (events : List Event) : Prop :=
  (∃ g ∈ events, isError g = true) ∧
  ∀ before e mid, events = before ++ e :: mid → isIoctl e = true →
    (∃ g ∈ before, isError g = true) → ∃ g ∈ mid, isError g = true

theorem error_of_concat {events : List Event} {f : Event} (hf : isError f ≠ true)
    (h : ∃ g ∈ events ++ [f], isError g = true) : ∃ g ∈ events, isError g = true := by
  obtain ⟨g, hg, herr⟩ := h
  rcases List.mem_append.mp hg with hg | hg
  · exact ⟨g, hg, herr⟩
  · rw [List.mem_singleton.mp hg] at herr
    exact absurd herr hf

theorem Unanswered.of_concat {events : List Event} {f : Event} (hf : isError f ≠ true)
    (h : Unanswered (events ++ [f])) : Unanswered events := by
  refine ⟨error_of_concat hf h.1, ?_⟩
  rintro before e mid rfl he hbefore
  exact error_of_concat hf (h.2 before e (mid ++ [f]) (by simp) he hbefore)

theorem not_unanswered_ioctl {events : List Event} {f : Event} (hf : isIoctl f = true)
    (hf' : isError f ≠ true) : ¬ Unanswered (events ++ [f]) := by
  intro h
  obtain ⟨g, hg, _⟩ := h.2 events f [] rfl hf (error_of_concat hf' h.1)
  exact absurd hg List.not_mem_nil

theorem length_recovery_le (s : Driver) : (recovery s).flatten.length ≤ 1 := by
  unfold recovery
  split_ifs <;> decide

/-- While errors stay apart no more bytes are sent than errors came, and one less while an error
is unanswered. -/
theorem recoveries_le {events : List Event} (h : ErrorsApart events) :
    recoveries beyond Driver.load events ≤ events.countP isError ∧
      (Unanswered events → recoveries beyond Driver.load events < events.countP isError) := by
  induction events using List.reverseRecOn with
  | nil => exact ⟨le_rfl, fun hun => absurd hun.1 (by simp)⟩
  | append_singleton events f ih =>
      obtain ⟨hle, hlt⟩ := ih h.of_prefix
      rw [recoveries_concat, List.countP_append, List.countP_singleton]
      cases f with
      | packet p =>
          simp only [isIoctl, Bool.false_eq_true, if_false, Nat.add_zero]
          by_cases herr : isError (.packet p) = true
          · rw [if_pos herr]
            exact ⟨by omega, fun _ => by omega⟩
          · rw [if_neg herr]
            exact ⟨hle, fun hun => hlt (hun.of_concat herr)⟩
      | ioctl cmd arg uncopied =>
          refine ⟨?_, fun hun => absurd hun (not_unanswered_ioctl rfl (by simp [isError]))⟩
          by_cases hany : ∃ g ∈ events, isError g = true
          · -- the ioctl answers an error that no earlier one answered
            have hun : Unanswered events := ⟨hany, fun before e mid hsplit he hbefore =>
              h before e mid (.ioctl cmd arg uncopied) [] (by simp [hsplit]) he rfl hbefore⟩
            have hone := length_recovery_le (Driver.load.drive beyond events)
            have hless := hlt hun
            simp only [isIoctl, if_true]
            omega
          · have hnone := not_iff_not.mpr (recovers_iff beyond events)
            rw [not_not] at hnone
            rw [hnone.mpr hany]
            simpa [isError] using hle

/-- **One recovery per error**, exactly as long as errors stay apart. -/
theorem recovers_once_iff (events : List Event) :
    RecoversOnce beyond events ↔ ErrorsApart events := by
  constructor
  · rintro ⟨-, hnone⟩ before e mid f after hsplit he hf hbefore
    by_contra hmid
    -- without an error between them, the second ioctl would have to find the flag down
    have hclean : ∀ g ∈ mid, isError g = false := by simpa using hmid
    refine absurd (hnone before e mid f after hsplit he hf ?_ hclean) ?_
    · exact (recovers_iff beyond before).mpr hbefore
    · obtain ⟨g, hg, herr⟩ := hbefore
      exact (recovers_iff beyond _).mpr ⟨g, List.mem_append_left _ hg, herr⟩
  · intro h
    constructor
    · rintro before ⟨after, rfl⟩
      exact (recoveries_le beyond h.of_prefix).1
    · intro before e mid f after hsplit he hf hbefore hclean
      obtain ⟨g, hg, herr⟩ := h before e mid f after hsplit he hf ((recovers_iff beyond _).mp hbefore)
      rw [hclean g hg] at herr
      exact absurd herr Bool.false_ne_true

/-- An error packet and two ioctls: two recoveries for one error. -/
theorem recovers_twice :
    ¬ RecoversOnce (fun _ => 0) [.packet (mtcpError, 0x80, 0x80), .ioctl tuxButtons 0 0,
      .ioctl tuxButtons 0 0] := by
  intro h
  have hle := h.1 _ List.prefix_rfl
  revert hle
  decide

end MachineProblems.Analysis.Tuxctl
