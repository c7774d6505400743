import MachineProblems.Analysis.Transmit
import MachineProblems.Model.Sender

/-!
# Transmissions beside each other

What the unlocked steps of the transmit path can do to the bytes.  Whatever calls run beside each
other, no byte is duplicated, and none is lost exactly if the serial driver takes all that it is
given (`conserved_iff`).  Calls may overtake each other between the drain and the write, so the
order is kept only while no call drains the ring that another has drained and not written yet
(`order_kept`).  But where the driver has room for the ring, a call drains whole puts, and
overtaking never breaks up a command (`commands_whole`).
-/

set_option autoImplicit false

namespace MachineProblems.Analysis.Transmission

open MachineProblems.Library MachineProblems.Program.LineDiscipline
open MachineProblems.Program.Transmission MachineProblems.Analysis.Transmit
open MachineProblems.Model
open MachineProblems.Model.Mtcp (Commands)

variable {T : Type} [DecidableEq T]

/-! ## One call alone -/

theorem drained_eq {s : Ldisc T} {tty : T} {data : LdiscData} (h : s.discData tty = some data)
    (room : ℕ) : drained s tty room =
      some (s.setData tty (some { data with tx := (data.tx.drain (room + 1)).2 }),
        data.tx.contents.take (room + 1)) := by
  have hloop : wakeupLoop room bufsize 0 data.tx = data.tx.drain (room + 1) :=
    wakeupLoop_eq_drain room bufsize 0 data.tx data.tx.used_lt.le
  simp [drained, h, hloop, Ring.drain_fst]

/-- A wakeup that nothing comes between is `tuxctl_ldisc_write_wakeup`. -/
theorem wakeup_alone (tty : T) (s : Ldisc T) (room : ℕ) :
    tuxctlLdiscWriteWakeup s tty room =
      (drained s tty room).map fun p => written p.1 tty p.2 room := by
  show (s.discData tty).bind _ = ((s.discData tty).bind _).map _
  cases s.discData tty <;> rfl

/-- The steps of a put that nothing comes between are `tuxctl_ldisc_put`. -/
theorem put_alone (tty : T) (s : Ldisc T) (buf accepted : List UInt8) (room : ℕ) :
    run (Calls.step tty) ⟨s, [], accepted⟩
        [.put buf, .go 0 0, .go 0 room, .go 0 0, .go 0 room] =
      (tuxctlLdiscPut s tty buf room).map fun p =>
        ⟨p.1, [.done], accepted ++ buf.take (buf.length - p.2)⟩ := by
  rw [tuxctlLdiscPut_eq]
  cases hqueue : tuxctlLdiscQueue s tty buf with
  | none => simp [Calls.step, hqueue]
  | some p =>
      cases hdrained : drained p.1 tty room with
      | none => simp [Calls.step, hqueue, hdrained, wakeup_alone]
      | some q => simp [Calls.step, hqueue, hdrained, wakeup_alone]

/-! ## The line discipline is a sender -/

/-- The bytes queued for a tty. -/
def queued (s : Ldisc T) (tty : T) : List UInt8 :=
  ((s.discData tty).map fun data => data.tx.contents).getD []

/-- The sender that the line discipline is for one tty. -/
def view (tty : T) (s : Calls T) : Sender :=
  ⟨queued s.ldisc tty, s.ldisc.sent tty, s.places, s.accepted⟩

/-- The tty is open. -/
def Open (tty : T) (s : Calls T) : Prop := (s.ldisc.discData tty).isSome

theorem queued_setData (s : Ldisc T) (tty : T) (data : LdiscData) :
    queued (s.setData tty (some data)) tty = data.tx.contents := by
  simp [queued, Ldisc.setData]

/-- **The refinement**: a turn of the line discipline is a turn of the sender. -/
theorem step_view {tty : T} {s : Calls T} (h : Open tty s) (turn : CallTurn) :
    (s.step tty turn).map (view tty) = (view tty s).step turn := by
  obtain ⟨data, hdata⟩ := Option.isSome_iff_exists.mp h
  have hqueued : queued s.ldisc tty = data.tx.contents := by simp [queued, hdata]
  cases turn with
  | put buf => rfl
  | wakeup => rfl
  | go i k =>
      cases hplace : s.places[i]? with
      | none => simp [Calls.step, Sender.step, view, hplace]
      | some place =>
          cases place with
          | fill buf =>
              have hqueue : tuxctlLdiscQueue s.ldisc tty buf =
                  some (s.ldisc.setData tty (some { data with tx := (data.tx.fill buf).1 }),
                    (buf.drop data.tx.room).length) := by
                simp [tuxctlLdiscQueue, hdata, Ring.fill_snd]
              have htake : buf.take (buf.length - (buf.drop data.tx.room).length) =
                  buf.take data.tx.room := by
                rw [List.length_drop, List.take_eq_take_iff]
                omega
              have hstored : Sender.stored ⟨data.tx.contents, s.ldisc.sent tty, s.places,
                  s.accepted⟩ buf = buf.take data.tx.room := by
                rw [Sender.stored, Ring.length_contents]
                rfl
              simp only [Calls.step, Sender.step, hplace, hqueue, htake, hstored, view,
                Option.bind_eq_bind, Option.bind_some, Option.map_some, queued_setData,
                Ring.contents_fill, hqueued]
              rfl
          | ask => simp [Calls.step, Sender.step, view, hplace]
          | drain room =>
              simp only [Calls.step, Sender.step, hplace, drained_eq hdata, view,
                Option.bind_eq_bind, Option.bind_some, Option.map_some, queued_setData,
                Ring.contents_drain, hqueued]
              rfl
          | write buf =>
              have htake : driverWrite k buf = buf.take k := by
                rw [driverWrite, List.take_eq_take_iff]
                omega
              simp only [Calls.step, Sender.step, hplace, written, htake, view,
                Option.bind_eq_bind, Option.bind_some, Option.map_some, Function.update_self]
              rfl
          | done => simp [Calls.step, Sender.step, view, hplace]

theorem open_step {tty : T} {s t : Calls T} {turn : CallTurn} (h : Open tty s)
    (hstep : s.step tty turn = some t) : Open tty t := by
  obtain ⟨data, hdata⟩ := Option.isSome_iff_exists.mp h
  cases turn with
  | put buf =>
      obtain rfl := Option.some.inj hstep
      exact h
  | wakeup =>
      obtain rfl := Option.some.inj hstep
      exact h
  | go i k =>
      obtain ⟨place, -, hstep⟩ := Option.bind_eq_some_iff.mp hstep
      cases place with
      | fill buf =>
          obtain ⟨p, hqueue, hstep⟩ := Option.bind_eq_some_iff.mp hstep
          obtain rfl := Option.some.inj hstep
          simp only [tuxctlLdiscQueue, hdata, Option.bind_eq_bind, Option.bind_some,
            Option.some.injEq] at hqueue
          simp [Open, ← hqueue, Ldisc.setData]
      | ask =>
          obtain rfl := Option.some.inj hstep
          exact h
      | drain room =>
          obtain ⟨p, hdrained, hstep⟩ := Option.bind_eq_some_iff.mp hstep
          obtain rfl := Option.some.inj hstep
          rw [drained_eq hdata, Option.some.injEq] at hdrained
          simp [Open, ← hdrained, Ldisc.setData]
      | write buf =>
          obtain rfl := Option.some.inj hstep
          exact h
      | done => cases hstep

theorem run_sender {tty : T} {s t : Calls T} (h : Open tty s) {turns : List CallTurn}
    (hrun : run (Calls.step tty) s turns = some t) :
    run Sender.step (view tty s) turns = some (view tty t) := by
  rw [← run_view (fun _ _ _ hs hstep => open_step hs hstep)
    (fun _ turn hs => step_view hs turn) h, hrun, Option.map_some]

/-- A condition on every turn, seen by the sender. -/
theorem everyStep_sender {tty : T} {s : Calls T} (h : Open tty s)
    {P : Sender → CallTurn → Prop} (turns : List CallTurn) :
    everyStep (Calls.step tty) (fun s turn => P (view tty s) turn) s turns ↔
      everyStep Sender.step P (view tty s) turns :=
  everyStep_view (fun _ _ _ hs hstep => open_step hs hstep) (fun _ turn hs => step_view hs turn) h
    turns

/-! ## What holds of every schedule -/

/-- **Nothing twice, and what is lost.**  Whatever calls of `tuxctl_ldisc_put` and
`tuxctl_ldisc_write_wakeup` run beside each other on an open line that lost nothing, no byte is on
the wire, in hand or queued more often than it was accepted; and every byte is there as often as it
was accepted exactly if the serial driver took all it was given in every `write`. -/
theorem conserved_iff {tty : T} {s t : Calls T} (hopen : Open tty s) (hkept : (view tty s).Kept)
    {turns : List CallTurn} (hrun : run (Calls.step tty) s turns = some t) :
    (view tty t).Sound ∧ ((view tty t).Kept ↔
      everyStep (Calls.step tty) (fun s turn => (view tty s).TakesAll turn) s turns) := by
  rw [everyStep_sender hopen]
  exact Sender.kept_run_iff hkept (run_sender hopen hrun)

/-- **The order** of the bytes is that in which they were accepted, as long as no call drains the
ring while another has drained it and not written yet, and the serial driver takes all it is
given. -/
theorem order_kept {tty : T} {s t : Calls T} (hopen : Open tty s) (horder : (view tty s).InOrder)
    {turns : List CallTurn} (hrun : run (Calls.step tty) s turns = some t)
    (hturns : everyStep (Calls.step tty)
      (fun s turn => (view tty s).NoOvertaking turn ∧ (view tty s).TakesAll turn) s turns) :
    (view tty t).present = t.accepted := by
  rw [everyStep_sender hopen (P := fun s turn => s.NoOvertaking turn ∧ s.TakesAll turn)] at hturns
  exact (Sender.inOrder_run horder (run_sender hopen hrun) hturns).present

/-- **Commands stay whole**: where every put is a sequence of whole commands that fits the ring,
every drain empties it and the serial driver takes all it is given, the wire carries whole commands
at every moment, whatever calls overtake each other, and no byte is lost or duplicated. -/
theorem commands_whole {tty : T} {s t : Calls T} (hopen : Open tty s) (hkept : (view tty s).Kept)
    (hwhole : (view tty s).Whole) {turns : List CallTurn}
    (hrun : run (Calls.step tty) s turns = some t)
    (hturns : everyStep (Calls.step tty) (fun s turn => (view tty s).Roomy turn) s turns) :
    Commands (t.ldisc.sent tty) ∧ (view tty t).Kept := by
  rw [everyStep_sender hopen] at hturns
  have hrun' := run_sender hopen hrun
  exact ⟨(Sender.whole_run hwhole hrun' hturns).wire, Sender.kept_run hkept hrun' hturns⟩

/-! ## A line just opened -/

/-- One tty, just opened, and no call yet. -/
def idleLine : Calls Unit := ⟨openedLine, [], []⟩

theorem view_idleLine : view () idleLine = ⟨[], [], [], []⟩ := by
  have hcontents : queued openedLine () = [] := by decide
  rw [view, idleLine, hcontents]
  rfl

/-- Two puts, the second of which overtakes the first between its drain and its write. -/
def overtaking : List CallTurn :=
  [.put [0xC3], .put [0xC8], .go 0 0, .go 0 8, .go 0 0, .go 1 0, .go 1 8, .go 1 0, .go 1 1, .go 0 1]

theorem open_idleLine : Open () idleLine := by
  apply Option.isSome_iff_exists.mpr
  exact ⟨_, rfl⟩

theorem kept_idleLine : (view () idleLine).Kept := by
  rw [view_idleLine]
  exact List.Perm.refl []

theorem conserved_iff_overtaking :
    ∃ t, run (Calls.step ()) idleLine overtaking = some t ∧ (view () t).Sound ∧
      ((view () t).Kept ↔ everyStep (Calls.step ())
        (fun s turn => (view () s).TakesAll turn) idleLine overtaking) := by
  obtain ⟨t, hrun⟩ : ∃ t, run (Calls.step ()) idleLine overtaking = some t := ⟨_, rfl⟩
  exact ⟨t, hrun, conserved_iff open_idleLine kept_idleLine hrun⟩

/-- Two puts after each other. -/
def inTurn : List CallTurn :=
  [.put [0xC3], .put [0xC8], .go 0 0, .go 0 8, .go 0 0, .go 0 1, .go 1 0, .go 1 8, .go 1 0, .go 1 1]

theorem order_kept_inTurn :
    ∃ t, run (Calls.step ()) idleLine inTurn = some t ∧ (view () t).present = t.accepted := by
  obtain ⟨t, hrun⟩ : ∃ t, run (Calls.step ()) idleLine inTurn = some t := ⟨_, rfl⟩
  refine ⟨t, hrun, order_kept open_idleLine ?_ hrun ?_⟩
  · rw [view_idleLine]
    exact ⟨rfl, 0, fun j p hp => by simp at hp⟩
  · rw [everyStep_sender open_idleLine
      (P := fun s turn => s.NoOvertaking turn ∧ s.TakesAll turn), view_idleLine]
    simp [inTurn, everyStep, Sender.step, Sender.NoOvertaking, Sender.TakesAll, Sender.hands,
      Sender.inHand, Sender.stored, bufsize]

theorem commands_whole_overtaking :
    ∃ t, run (Calls.step ()) idleLine overtaking = some t ∧ Commands (t.ldisc.sent ()) ∧
      (view () t).Kept := by
  obtain ⟨t, hrun⟩ : ∃ t, run (Calls.step ()) idleLine overtaking = some t := ⟨_, rfl⟩
  refine ⟨t, hrun, commands_whole open_idleLine kept_idleLine ?_ hrun ?_⟩
  · rw [view_idleLine]
    exact ⟨.none, .none, fun p hp => absurd hp List.not_mem_nil⟩
  · rw [everyStep_sender open_idleLine, view_idleLine]
    have h0 : Commands [0xC3] := .plain rfl (by decide) .none
    have h1 : Commands [0xC8] := .plain rfl (by decide) .none
    simp [overtaking, everyStep, Sender.step, Sender.Roomy, Sender.stored, h0, h1, bufsize]

end MachineProblems.Analysis.Transmission
