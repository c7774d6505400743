import MachineProblems.Library.Run
import MachineProblems.Program.LineDiscipline

/-!
# What the line discipline transmits

`wakeupLoop` takes one byte more out of the ring than the driver announced room for, so
a wakeup that finds more bytes queued than the driver takes loses the byte at the end
of its buffer.  The account kept here is of the bytes a tty's puts accepted against
the bytes that the driver took or that are still queued: the latter are always a
subsequence of the former (nothing is duplicated or reordered), and they are all of them
exactly while no wakeup found more bytes than room.
-/

set_option autoImplicit false

namespace MachineProblems.Analysis.Transmit

open MachineProblems.Library MachineProblems.Program.LineDiscipline

variable {T : Type} [DecidableEq T]

/-! ## One wakeup -/

/-- **The loop's bound**: `buf` receives `room + 1` bytes when there are that many. -/
theorem wakeupLoop_eq_drain (room fuel n : ℕ) (tx : Ring UInt8 bufsize)
    (hfuel : tx.used ≤ fuel) : wakeupLoop room fuel n tx = tx.drain (room + 1 - n) := by
  induction fuel generalizing n tx with
  | zero =>
      have hempty : tx.isEmpty = true := by
        rw [Ring.isEmpty_iff]
        omega
      cases room + 1 - n with
      | zero => rfl
      | succ k => simp [wakeupLoop, Ring.drain, hempty]
  | succ fuel ih =>
      by_cases hn : n ≤ room
      · rw [show room + 1 - n = (room - n) + 1 by omega]
        cases hempty : tx.isEmpty with
        | true => simp [wakeupLoop, Ring.drain, hempty]
        | false =>
            have hpos : 0 < tx.used := by
              have := mt tx.isEmpty_iff.mpr (by simp [hempty])
              omega
            have hpop := tx.used_pop hpos
            have hrec := ih (n + 1) tx.pop (by omega)
            rw [show room + 1 - (n + 1) = room - n by omega] at hrec
            simp [wakeupLoop, Ring.drain, hn, hempty, hrec]
      · rw [show room + 1 - n = 0 by omega]
        simp [wakeupLoop, Ring.drain, hn]

/-- The bytes of `tty` that the driver took or that are still queued. -/
def delivered (s : Ldisc T) (tty : T) : List UInt8 :=
  s.sent tty ++ ((s.discData tty).map fun data => data.tx.contents).getD []

omit [DecidableEq T] in
theorem delivered_of_open {s : Ldisc T} {tty : T} {data : LdiscData}
    (h : s.discData tty = some data) : delivered s tty = s.sent tty ++ data.tx.contents := by
  simp [delivered, h]

/-- **What a wakeup delivers** of the bytes queued: all but the one behind `room`. -/
theorem delivered_wakeup {s : Ldisc T} {tty : T} {data : LdiscData}
    (h : s.discData tty = some data) (room : ℕ) :
    ∃ t tx, tuxctlLdiscWriteWakeup s tty room = some t ∧
      t.discData tty = some { data with tx := tx } ∧
      delivered t tty =
        s.sent tty ++ (data.tx.contents.take room ++ data.tx.contents.drop (room + 1)) := by
  have hloop : wakeupLoop room bufsize 0 data.tx = data.tx.drain (room + 1) :=
    wakeupLoop_eq_drain room bufsize 0 data.tx data.tx.used_lt.le
  have htake : driverWrite room (data.tx.contents.take (room + 1)) =
      data.tx.contents.take room := by
    unfold driverWrite
    rw [List.take_take, List.length_take, List.take_eq_take_iff]
    omega
  let tx := (data.tx.drain (room + 1)).2
  let s' := s.setData tty (some { data with tx := tx })
  let taken := data.tx.contents.take room
  refine ⟨{ s' with sent := Function.update s'.sent tty (s'.sent tty ++ taken) }, tx, ?_, ?_, ?_⟩
  · simp [tuxctlLdiscWriteWakeup, h, hloop, Ring.drain_fst, htake, s', tx, taken]
  · simp [Ldisc.setData, s']
  · simp [delivered, Ldisc.setData, Ring.contents_drain, s', tx, taken]

/-- A put is the wakeup over the ring with the accepted bytes appended. -/
theorem delivered_put {s : Ldisc T} {tty : T} {data : LdiscData}
    (h : s.discData tty = some data) (buf : List UInt8) (room : ℕ) :
    ∃ t data' left, tuxctlLdiscPut s tty buf room = some (t, left) ∧
      t.discData tty = some data' ∧ buf.length - left = min data.tx.room buf.length ∧
      delivered t tty =
        s.sent tty ++ ((data.tx.contents ++ buf.take data.tx.room).take room ++
          (data.tx.contents ++ buf.take data.tx.room).drop (room + 1)) := by
  let filled : LdiscData := { data with tx := (data.tx.fill buf).1 }
  have hopen : (s.setData tty (some filled)).discData tty = some filled := by
    simp [Ldisc.setData]
  obtain ⟨t, tx, hrun, hdata, hdel⟩ := delivered_wakeup hopen room
  refine ⟨t, _, (data.tx.fill buf).2.length, ?_, hdata, ?_, ?_⟩
  · simp [tuxctlLdiscPut, h, filled] at hrun ⊢
    simp [hrun]
  · rw [Ring.fill_snd, List.length_drop]
    omega
  · rw [hdel]
    simp [filled, Ring.contents_fill, Ldisc.setData]

/-! ## Runs of puts and wakeups -/

/-- What may happen on the transmit side; `room` is what `write_room` returns at the
wakeup that the operation makes. -/
inductive TxOp where
  | put (buf : List UInt8) (room : ℕ)
  | wakeup (room : ℕ)

/-- One operation on `tty`, with the bytes that the puts accepted so far: of each put
the first `n` minus its result. -/
def txStep (tty : T) : Ldisc T × List UInt8 → TxOp → Option (Ldisc T × List UInt8)
  | (s, accepted), .put buf room => do
      let (t, left) ← tuxctlLdiscPut s tty buf room
      some (t, accepted ++ buf.take (buf.length - left))
  | (s, accepted), .wakeup room => do
      let t ← tuxctlLdiscWriteWakeup s tty room
      some (t, accepted)

/-- The driver's room covers the bytes queued when the wakeup of `op` begins. -/
def roomCovers (tty : T) (s : Ldisc T) (op : TxOp) : Prop :=
  ∀ data, s.discData tty = some data →
    match op with
    | .put buf room => data.tx.used + min data.tx.room buf.length ≤ room
    | .wakeup room => data.tx.used ≤ room

/-- The line is open and has delivered a subsequence of what was accepted. -/
def TxInv (tty : T) (p : Ldisc T × List UInt8) : Prop :=
  (p.1.discData tty).isSome ∧ (delivered p.1 tty).Sublist p.2

/-- Every accepted byte was taken by the driver or is still queued, in order. -/
def NothingLost (tty : T) (p : Ldisc T × List UInt8) : Prop := delivered p.1 tty = p.2

/-- Leaving out the element at index `k` keeps a list exactly if there is none. -/
theorem take_append_drop_succ_eq {α : Type} (l : List α) (k : ℕ) :
    l.take k ++ l.drop (k + 1) = l ↔ l.length ≤ k := by
  constructor
  · intro h
    have hlen := congrArg List.length h
    rw [List.length_append, List.length_take, List.length_drop] at hlen
    omega
  · intro h
    rw [List.take_of_length_le h, List.drop_eq_nil_of_le (by omega), List.append_nil]

theorem take_append_drop_succ_sublist {α : Type} (l : List α) (k : ℕ) :
    (l.take k ++ l.drop (k + 1)).Sublist l := by
  conv_rhs => rw [← List.take_append_drop k l]
  refine (List.Sublist.refl _).append ?_
  rw [← List.drop_drop]
  exact List.drop_sublist 1 _

/-- **The step lemma**: an operation on an open line appends the bytes it accepts to
what was delivered and drops the byte at index `room` of the queue. -/
theorem txStep_spec {tty : T} {p : Ldisc T × List UInt8} (hp : TxInv tty p) (op : TxOp) :
    ∃ (data data' : LdiscData) (new : List UInt8) (room : ℕ) (t : Ldisc T),
      p.1.discData tty = some data ∧ t.discData tty = some data' ∧
      txStep tty p op = some (t, p.2 ++ new) ∧
      delivered p.1 tty = p.1.sent tty ++ data.tx.contents ∧
      delivered t tty = p.1.sent tty ++ ((data.tx.contents ++ new).take room ++
        (data.tx.contents ++ new).drop (room + 1)) ∧
      (roomCovers tty p.1 op ↔ (data.tx.contents ++ new).length ≤ room) := by
  obtain ⟨s, accepted⟩ := p
  obtain ⟨data, hdata⟩ := Option.isSome_iff_exists.mp hp.1
  have hopen : s.discData tty = some data := hdata
  cases op with
  | put buf room =>
      obtain ⟨t, data', left, hput, hdata', hleft, hdel⟩ := delivered_put hopen buf room
      have hnew : buf.take (buf.length - left) = buf.take data.tx.room := by
        rw [hleft, List.take_eq_take_iff]
        omega
      refine ⟨data, data', buf.take data.tx.room, room, t, hopen, hdata', ?_,
        delivered_of_open hopen, hdel, ?_⟩
      · simp [txStep, hput, hnew]
      · simp [roomCovers, hopen]
  | wakeup room =>
      obtain ⟨t, tx, hwake, hdata', hdel⟩ := delivered_wakeup hopen room
      refine ⟨data, _, [], room, t, hopen, hdata', ?_, delivered_of_open hopen, ?_, ?_⟩
      · simp [txStep, hwake]
      · rw [List.append_nil]
        exact hdel
      · simp [roomCovers, hopen]

theorem txStep_inv {tty : T} {p : Ldisc T × List UInt8} (hp : TxInv tty p) (op : TxOp) :
    ∃ q, txStep tty p op = some q ∧ TxInv tty q := by
  obtain ⟨data, data', new, room, t, -, hdata', hstep, hbefore, hafter, -⟩ := txStep_spec hp op
  refine ⟨(t, p.2 ++ new), hstep, by simp [hdata'], ?_⟩
  have hsub := hp.2
  rw [hbefore] at hsub
  calc (delivered t tty).Sublist (p.1.sent tty ++ (data.tx.contents ++ new)) := by
        rw [hafter]
        exact (List.Sublist.refl _).append (take_append_drop_succ_sublist _ _)
    List.Sublist _ (p.2 ++ new) := by
        rw [← List.append_assoc]
        exact hsub.append (List.Sublist.refl new)

/-- From a line that lost nothing, an operation loses nothing exactly if the room
covers the queue. -/
theorem nothingLost_step_iff {tty : T} {p q : Ldisc T × List UInt8} {op : TxOp}
    (hp : TxInv tty p) (hkept : NothingLost tty p) (hstep : txStep tty p op = some q) :
    NothingLost tty q ↔ roomCovers tty p.1 op := by
  obtain ⟨data, data', new, room, t, -, -, hstep', hbefore, hafter, hroom⟩ := txStep_spec hp op
  obtain rfl := Option.some.inj (hstep'.symm.trans hstep)
  rw [hroom, ← take_append_drop_succ_eq]
  unfold NothingLost at hkept ⊢
  rw [hbefore] at hkept
  change delivered t tty = p.2 ++ new ↔ _
  rw [hafter, ← hkept, List.append_assoc, List.append_right_inj]

/-- A lost byte stays lost. -/
theorem lost_step {tty : T} {p q : Ldisc T × List UInt8} {op : TxOp}
    (hp : TxInv tty p) (hlost : ¬ NothingLost tty p) (hstep : txStep tty p op = some q) :
    ¬ NothingLost tty q := by
  obtain ⟨data, data', new, room, t, -, -, hstep', hbefore, hafter, -⟩ := txStep_spec hp op
  obtain rfl := Option.some.inj (hstep'.symm.trans hstep)
  have hsub := hp.2
  have hshort : (delivered p.1 tty).length < p.2.length := by
    refine lt_of_le_of_ne hsub.length_le fun hlen => hlost ?_
    exact hsub.eq_of_length hlen
  intro hkept
  have hlen := congrArg List.length hkept
  have hdrop := (take_append_drop_succ_sublist (data.tx.contents ++ new) room).length_le
  have h1 : (delivered t tty).length ≤ (delivered p.1 tty).length + new.length := by
    rw [hafter, hbefore]
    simp only [List.length_append] at hdrop ⊢
    omega
  have h2 : (delivered t tty).length = p.2.length + new.length :=
    hlen.trans List.length_append
  omega

/-- **Transmission over whole runs.**  From an open line that lost nothing, no sequence
of puts and wakeups faults; what was delivered is a subsequence of what was accepted; and
it is all of it exactly if the driver's room covered the queue at every wakeup. -/
theorem nothingLost_iff_roomCovers {tty : T} {p : Ldisc T × List UInt8}
    (hopen : (p.1.discData tty).isSome) (hstart : NothingLost tty p) (ops : List TxOp) :
    ∃ q, run (txStep tty) p ops = some q ∧ (delivered q.1 tty).Sublist q.2 ∧
      (NothingLost tty q ↔ everyStep (txStep tty) (fun p op => roomCovers tty p.1 op) p ops) := by
  have hinv : TxInv tty p := ⟨hopen, hstart ▸ List.Sublist.refl _⟩
  have htotal : ∀ p op, TxInv tty p → True → ∃ q, txStep tty p op = some q ∧ TxInv tty q :=
    fun p op hp _ => txStep_inv hp op
  obtain ⟨q, hrun, hq⟩ := run_total htotal hinv fun op _ => trivial
  refine ⟨q, hrun, hq.2, ?_⟩
  refine run_iff_everyStep ?_ ?_ ?_ hinv hstart hrun
  · intro p op q hp hstep
    obtain ⟨q', hstep', hq'⟩ := txStep_inv hp op
    obtain rfl := Option.some.inj (hstep'.symm.trans hstep)
    exact hq'
  · intro p op q hp hkept hstep
    exact nothingLost_step_iff hp hkept hstep
  · intro p op q hp hlost hstep
    exact lost_step hp hlost hstep

/-! ## A driver without room -/

/-- One tty, just opened over zeroed arrays. -/
def openedLine : Ldisc Unit :=
  (tuxctlLdiscOpen ⟨fun _ => none, Vector.replicate 2 0, 0, [], fun _ => [], fun _ => []⟩ ()
    (some (Vector.replicate bufsize 0, Vector.replicate bufsize 0))).1

theorem nothingLost_iff_roomCovers_opened :
    ∃ q, run (txStep ()) (openedLine, []) [.put [1, 2] 2, .wakeup 0] = some q ∧
      (delivered q.1 ()).Sublist q.2 ∧
      (NothingLost () q ↔ everyStep (txStep ()) (fun p op => roomCovers () p.1 op)
        (openedLine, []) [.put [1, 2] 2, .wakeup 0]) :=
  nothingLost_iff_roomCovers (by decide) (by unfold NothingLost; decide) _

/-- Two bytes put while the driver has no room: the first is gone. -/
theorem put_without_room_loses :
    ∃ q, run (txStep ()) (openedLine, []) [.put [1, 2] 0] = some q ∧
      q.2 = [1, 2] ∧ delivered q.1 () = [2] ∧ ¬ NothingLost () q := by
  refine ⟨_, rfl, ?_, ?_, ?_⟩
  · decide
  · decide
  · unfold NothingLost
    decide

end MachineProblems.Analysis.Transmit
