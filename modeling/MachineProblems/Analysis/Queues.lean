import MachineProblems.Library.Fifo
import MachineProblems.Analysis.Transmit
import MachineProblems.Analysis.Sessions

/-!
# The rings of the line discipline are queues

Every part of `tuxctl-ld.c` that holds the lock is one step here, so a run is any interleaving of the
serial driver, the callback and the Tux driver on any number of ttys.  Beside each ring runs the
queue of what it has accepted and handed out since its tty was opened, and after every run the ring
represents its queue.
-/

set_option autoImplicit false

namespace MachineProblems.Analysis.Queues

open MachineProblems.Library MachineProblems.Program.LineDiscipline
open MachineProblems.Analysis.Receive MachineProblems.Analysis.Transmit
open MachineProblems.Analysis.Receive

variable {T : Type} [DecidableEq T]

/-- The queue beside a ring. -/
abbrev ByteQueue : Type := Fifo UInt8 (bufsize - 1)

/-- The module with the queues of its rings. -/
structure Line (T : Type) where
  ldisc : Ldisc T
  rx : T → ByteQueue
  tx : T → ByteQueue

/-- The locked parts: of `rcv_buf` and of `put` the producers' loops, of the callback all of it. -/
inductive LineOp (T : Type) where
  | openTty (tty : T) (kmalloc : Option (Vector UInt8 bufsize × Vector UInt8 bufsize))
  | closeTty (tty : T)
  | store (tty : T) (cp : List UInt8)
  | callback (tty : T)
  | get (tty : T) (n : ℕ)
  | queue (tty : T) (buf : List UInt8)
  | wakeup (tty : T) (room : ℕ)

/-- The queues of `tty` become `rx` and `tx`. -/
def Line.renew (p : Line T) (tty : T) (s : Ldisc T) (rx tx : ByteQueue) : Line T :=
  ⟨s, Function.update p.rx tty rx, Function.update p.tx tty tx⟩

/-- One step; a tty that is not open takes no bytes. -/
def Line.step (p : Line T) : LineOp T → Option (Line T)
  | .openTty tty kmalloc =>
      let (s, ret) := tuxctlLdiscOpen p.ldisc tty kmalloc
      if ret = 0 then some (p.renew tty s Fifo.empty Fifo.empty) else some { p with ldisc := s }
  | .closeTty tty => some { p with ldisc := tuxctlLdiscClose p.ldisc tty }
  | .store tty cp =>
      match tuxctlLdiscStore p.ldisc tty cp with
      | none => some p
      | some (s, _) => some (p.renew tty s ((p.rx tty).offer cp) (p.tx tty))
  | .callback tty => do
      let s ← tuxctlLdiscDataCallback p.ldisc tty
      some (p.renew tty s ((p.rx tty).remove (12 - p.ldisc.nSaved)) (p.tx tty))
  | .get tty n => do
      let (s, _) ← tuxctlLdiscGet p.ldisc tty n
      some (p.renew tty s ((p.rx tty).remove n) (p.tx tty))
  | .queue tty buf => do
      let (s, _) ← tuxctlLdiscQueue p.ldisc tty buf
      some (p.renew tty s (p.rx tty) ((p.tx tty).offer buf))
  | .wakeup tty room => do
      let s ← tuxctlLdiscWriteWakeup p.ldisc tty room
      some (p.renew tty s (p.rx tty) ((p.tx tty).remove (room + 1)))

/-- The module as it is loaded. -/
def idle : Line T := ⟨loaded.ldisc, fun _ => Fifo.empty, fun _ => Fifo.empty⟩

/-- Every ring of an open tty represents its queue. -/
structure Tracks (p : Line T) : Prop where
  nSaved : p.ldisc.nSaved ≤ 2
  rx : ∀ tty data, p.ldisc.discData tty = some data → data.rx.Represents (p.rx tty)
  tx : ∀ tty data, p.ldisc.discData tty = some data → data.tx.Represents (p.tx tty)

/-! ## One step -/

section Step

variable {p q : Line T} {tty : T} {s : Ldisc T}

/-- A ring that still represents its queue, after one tty was given new data. -/
theorem represents_update {discData : T → Option LdiscData} {queue : T → ByteQueue}
    {ring : LdiscData → Ring UInt8 bufsize} {data : LdiscData} {f : ByteQueue}
    (h : ∀ u other, discData u = some other → (ring other).Represents (queue u))
    (hnew : (ring data).Represents f) {u : T} {other : LdiscData}
    (hu : Function.update discData tty (some data) u = some other) :
    (ring other).Represents (Function.update queue tty f u) := by
  by_cases hut : u = tty
  · subst hut
    rw [Function.update_self] at hu ⊢
    obtain rfl := Option.some.inj hu
    exact hnew
  · rw [Function.update_of_ne hut] at hu ⊢
    exact h u other hu

/-- **A step on one tty** keeps the others' rings and their queues. -/
theorem Tracks.renew (h : Tracks p) {data : LdiscData} {rx tx : ByteQueue}
    (hopen : s.discData = Function.update p.ldisc.discData tty (some data)) (hn : s.nSaved ≤ 2)
    (hrx : data.rx.Represents rx) (htx : data.tx.Represents tx) : Tracks (p.renew tty s rx tx) := by
  refine ⟨hn, fun u other hu => ?_, fun u other hu => ?_⟩
  · have hdata : s.discData u = some other := hu
    rw [hopen] at hdata
    exact represents_update h.rx hrx hdata
  · have hdata : s.discData u = some other := hu
    rw [hopen] at hdata
    exact represents_update h.tx htx hdata

/-- A step that stores a changed pair of rings. -/
theorem Tracks.setData (h : Tracks p) {data : LdiscData} {rx tx : ByteQueue}
    (hrx : data.rx.Represents rx) (htx : data.tx.Represents tx) :
    Tracks (p.renew tty (p.ldisc.setData tty (some data)) rx tx) :=
  h.renew rfl h.nSaved hrx htx

theorem Tracks.opened (h : Tracks p)
    (kmalloc : Option (Vector UInt8 bufsize × Vector UInt8 bufsize))
    (hstep : p.step (.openTty tty kmalloc) = some q) : Tracks q := by
  cases kmalloc with
  | none =>
      obtain rfl := Option.some.inj hstep
      exact h
  | some bufs =>
      obtain rfl := Option.some.inj hstep
      exact h.setData (contents_freshRing bufs.1) (contents_freshRing bufs.2)

theorem Tracks.closed (h : Tracks p) (hstep : p.step (.closeTty tty) = some q) : Tracks q := by
  obtain rfl := Option.some.inj hstep
  have hsame : ∀ u data, (tuxctlLdiscClose p.ldisc tty).discData u = some data →
      p.ldisc.discData u = some data := by
    intro u data hu
    have hut : u ≠ tty := by
      rintro rfl
      have hnone : (tuxctlLdiscClose p.ldisc u).discData u = none := Function.update_self _ _ _
      cases hnone.symm.trans hu
    exact (Function.update_of_ne hut _ _).symm.trans hu
  exact ⟨h.nSaved, fun u data hu => h.rx u data (hsame u data hu),
    fun u data hu => h.tx u data (hsame u data hu)⟩

/-- A callback that returns was made on an open tty. -/
theorem callback_opened {s t : Ldisc T} (h : tuxctlLdiscDataCallback s tty = some t) :
    ∃ data, s.discData tty = some data := by
  unfold tuxctlLdiscDataCallback at h
  obtain ⟨kept, -, h⟩ := Option.bind_eq_some_iff.mp h
  obtain ⟨⟨s₁, got⟩, hget, -⟩ := Option.bind_eq_some_iff.mp h
  obtain ⟨data, hopen, -⟩ := Option.bind_eq_some_iff.mp hget
  exact ⟨data, hopen⟩

/-- **The callback** removes from the receive queue what it takes out of the ring. -/
theorem Tracks.callback (h : Tracks p) (hcallback : tuxctlLdiscDataCallback p.ldisc tty = some s) :
    Tracks (p.renew tty s ((p.rx tty).remove (12 - p.ldisc.nSaved)) (p.tx tty)) := by
  obtain ⟨data, hopen⟩ := callback_opened hcallback
  obtain ⟨t, ht, hspec⟩ := dataCallback_spec hopen h.nSaved
  obtain rfl := Option.some.inj (ht.symm.trans hcallback)
  obtain ⟨rx, hdata, hrx⟩ := hspec.opened
  have hdiscData : t.discData =
      Function.update p.ldisc.discData tty (some { data with rx := rx }) := by
    funext u
    by_cases hut : u = tty
    · subst hut
      rw [Function.update_self, hdata]
    · rw [Function.update_of_ne hut]
      exact dataCallback_other hut ht
  refine h.renew hdiscData hspec.nSaved ?_ (h.tx tty data hopen)
  show rx.contents = _
  rw [hrx, Fifo.queue_remove, h.rx tty data hopen]

/-- **Every step** keeps the rings in line with their queues. -/
theorem Tracks.step (h : Tracks p) {op : LineOp T} (hstep : p.step op = some q) : Tracks q := by
  cases op with
  | openTty tty kmalloc => exact h.opened kmalloc hstep
  | closeTty tty => exact h.closed hstep
  | store tty cp =>
      cases hopen : p.ldisc.discData tty with
      | none =>
          have hnone : tuxctlLdiscStore p.ldisc tty cp = none := by
            unfold tuxctlLdiscStore
            rw [hopen]
            rfl
          simp only [Line.step, hnone] at hstep
          obtain rfl := Option.some.inj hstep
          exact h
      | some data =>
          have hsome : tuxctlLdiscStore p.ldisc tty cp = some (p.ldisc.setData tty
              (some { data with rx := (data.rx.fill cp).1 }),
              cp.length - (data.rx.fill cp).2.length) := by
            unfold tuxctlLdiscStore
            rw [hopen]
            rfl
          simp only [Line.step, hsome] at hstep
          obtain rfl := Option.some.inj hstep
          exact h.setData ((h.rx tty data hopen).fill cp) (h.tx tty data hopen)
  | callback tty =>
      obtain ⟨s, hcallback, hq⟩ := Option.bind_eq_some_iff.mp hstep
      obtain rfl := Option.some.inj hq
      exact h.callback hcallback
  | get tty n =>
      obtain ⟨⟨s, bytes⟩, hget, hq⟩ := Option.bind_eq_some_iff.mp hstep
      obtain rfl := Option.some.inj hq
      obtain ⟨data, hopen, hs⟩ := Option.bind_eq_some_iff.mp hget
      obtain ⟨rfl, -⟩ := Prod.mk.inj (Option.some.inj hs)
      exact h.renew rfl h.nSaved ((h.rx tty data hopen).drain n) (h.tx tty data hopen)
  | queue tty buf =>
      obtain ⟨⟨s, left⟩, hqueue, hq⟩ := Option.bind_eq_some_iff.mp hstep
      obtain rfl := Option.some.inj hq
      obtain ⟨data, hopen, hs⟩ := Option.bind_eq_some_iff.mp hqueue
      obtain ⟨rfl, -⟩ := Prod.mk.inj (Option.some.inj hs)
      exact h.setData (h.rx tty data hopen) ((h.tx tty data hopen).fill buf)
  | wakeup tty room =>
      obtain ⟨s, hwakeup, hq⟩ := Option.bind_eq_some_iff.mp hstep
      obtain rfl := Option.some.inj hq
      obtain ⟨data, hopen, hs⟩ := Option.bind_eq_some_iff.mp hwakeup
      obtain rfl := Option.some.inj hs
      have hloop : wakeupLoop room bufsize 0 data.tx = data.tx.drain (room + 1) :=
        wakeupLoop_eq_drain room bufsize 0 data.tx data.tx.used_lt.le
      have htx := (h.tx tty data hopen).drain (room + 1)
      rw [← hloop] at htx
      exact h.renew rfl h.nSaved (h.rx tty data hopen) htx

end Step

/-! ## Whole runs -/

omit [DecidableEq T] in
theorem idle_tracks : Tracks (idle : Line T) :=
  ⟨Nat.zero_le 2, fun _ _ h => absurd h (by rintro ⟨⟩), fun _ _ h => absurd h (by rintro ⟨⟩)⟩

/-- The ring is within its array and holds the queue. -/
structure Holds (r : Ring UInt8 bufsize) (f : ByteQueue) : Prop where
  start : r.start < 64
  stop : r.stop < 64
  contents : r.contents = f.queue
  used : r.used = f.queue.length

theorem holds_of_represents {r : Ring UInt8 bufsize} {f : ByteQueue} (h : r.Represents f) :
    Holds r f :=
  ⟨r.start_lt, r.stop_lt, h, h.used⟩

/-- What a producer does to its ring: it appends the bytes there is room for. -/
def Appends (r r' : Ring UInt8 bufsize) (bytes : List UInt8) : Prop :=
  r'.contents = r.contents ++ bytes.take (min bytes.length (63 - r.used))

/-- What a consumer does to its ring: it takes the oldest bytes. -/
structure Takes (r r' : Ring UInt8 bufsize) (n : ℕ) (bytes : List UInt8) : Prop where
  bytes : bytes = r.contents.take (min n r.used)
  rest : r'.contents = r.contents.drop (min n r.used)

theorem room_eq (r : Ring UInt8 bufsize) : r.room = 63 - r.used := by
  show 64 - r.used - 1 = 63 - r.used
  omega

theorem appends_fill (r : Ring UInt8 bufsize) (bytes : List UInt8) :
    Appends r (r.fill bytes).1 bytes := by
  have htake : bytes.take r.room = bytes.take (min bytes.length (63 - r.used)) := by
    rw [room_eq, List.take_eq_take_iff]
    omega
  rw [Appends, Ring.contents_fill, htake]

theorem length_fill_snd (r : Ring UInt8 bufsize) (bytes : List UInt8) :
    (r.fill bytes).2.length = bytes.length - min bytes.length (63 - r.used) := by
  rw [Ring.fill_snd, List.length_drop, room_eq]
  omega

theorem takes_drain (r : Ring UInt8 bufsize) (n : ℕ) : Takes r (r.drain n).2 n (r.drain n).1 := by
  have hlen := r.length_contents
  constructor
  · rw [Ring.drain_fst, List.take_eq_take_iff]
    omega
  · rw [Ring.contents_drain]
    rcases Nat.le_total n r.used with hle | hle
    · rw [Nat.min_eq_left hle]
    · rw [Nat.min_eq_right hle, List.drop_eq_nil_of_le (by omega), List.drop_eq_nil_of_le (by omega)]

/-- **The rings are bounded queues**: in every state that a run comes to, each ring of an open tty
holds what it has accepted and not yet handed out; `rcv_buf` and `put` append what there is room
for, `put` returning the number of bytes left over, and `get` takes the oldest bytes. -/
theorem rings_are_queues {ops : List (LineOp T)} {p : Line T}
    (hrun : run Line.step idle ops = some p) {tty : T} {data : LdiscData}
    (hopen : p.ldisc.discData tty = some data) :
    Holds data.rx (p.rx tty) ∧ Holds data.tx (p.tx tty) ∧
      (∀ cp, ∃ t data', tuxctlLdiscRcvBuf p.ldisc tty cp = tuxctlLdiscDataCallback t tty ∧
        tuxctlLdiscStore p.ldisc tty cp = some (t, min cp.length (63 - data.rx.used)) ∧
        t.discData tty = some data' ∧ Appends data.rx data'.rx cp ∧ data'.tx = data.tx) ∧
      (∀ buf room, ∃ t data' left, tuxctlLdiscPut p.ldisc tty buf room =
          (tuxctlLdiscWriteWakeup t tty room).map (fun u => (u, left)) ∧
        left = buf.length - min buf.length (63 - data.tx.used) ∧
        t.discData tty = some data' ∧ Appends data.tx data'.tx buf ∧ data'.rx = data.rx) ∧
      (∀ n, ∃ t data' bytes, tuxctlLdiscGet p.ldisc tty n = some (t, bytes) ∧
        t.discData tty = some data' ∧ Takes data.rx data'.rx n bytes ∧ data'.tx = data.tx) := by
  have htracks : Tracks p := run_invariant (fun _ _ _ h hstep => h.step hstep) idle_tracks hrun
  refine ⟨holds_of_represents (htracks.rx tty data hopen),
    holds_of_represents (htracks.tx tty data hopen), fun cp => ?_, fun buf room => ?_, fun n => ?_⟩
  · let t := p.ldisc.setData tty (some { data with rx := (data.rx.fill cp).1 })
    have hstore : tuxctlLdiscStore p.ldisc tty cp =
        some (t, min cp.length (63 - data.rx.used)) := by
      have hcount : cp.length - (data.rx.fill cp).2.length =
          min cp.length (63 - data.rx.used) := by
        rw [length_fill_snd]
        omega
      simp only [tuxctlLdiscStore, hopen, Option.bind_eq_bind, Option.bind_some, hcount, t]
    have hrcv : tuxctlLdiscRcvBuf p.ldisc tty cp = tuxctlLdiscDataCallback t tty := by
      simp only [tuxctlLdiscRcvBuf, hstore]
    exact ⟨t, _, hrcv, hstore, Function.update_self _ _ _, appends_fill _ _, rfl⟩
  · let t := p.ldisc.setData tty (some { data with tx := (data.tx.fill buf).1 })
    have hqueue : tuxctlLdiscQueue p.ldisc tty buf = some (t, (data.tx.fill buf).2.length) := by
      simp only [tuxctlLdiscQueue, hopen, Option.bind_eq_bind, Option.bind_some, t]
    refine ⟨t, _, (data.tx.fill buf).2.length, ?_, length_fill_snd _ _, Function.update_self _ _ _,
      appends_fill _ _, rfl⟩
    rw [tuxctlLdiscPut_eq, hqueue, Option.bind_some]
  · let s := p.ldisc.setData tty (some { data with rx := (data.rx.drain n).2 })
    let t := { s with handed := Function.update s.handed tty (s.handed tty ++ (data.rx.drain n).1) }
    have hget : tuxctlLdiscGet p.ldisc tty n = some (t, (data.rx.drain n).1) := by
      simp only [tuxctlLdiscGet, hopen, Option.bind_eq_bind, Option.bind_some, t, s]
    exact ⟨t, { data with rx := (data.rx.drain n).2 }, _, hget, Function.update_self _ _ _,
      takes_drain _ _, rfl⟩

/-- A byte is received and handed out, another one waits to be sent. -/
def shortRun : List (LineOp Unit) :=
  [.openTty () (some (Vector.replicate 64 0, Vector.replicate 64 0)), .store () [1, 2], .get () 1,
    .queue () [3]]

theorem rings_are_queues_short : ∃ (p : Line Unit) (data : LdiscData),
    run Line.step idle shortRun = some p ∧ p.ldisc.discData () = some data ∧
      Holds data.rx (p.rx ()) ∧ Holds data.tx (p.tx ()) := by
  have hrun : (run Line.step idle shortRun).isSome := rfl
  obtain ⟨p, hp⟩ := Option.isSome_iff_exists.mp hrun
  have hopened : ((run Line.step idle shortRun).bind fun p => p.ldisc.discData ()).isSome := rfl
  rw [hp, Option.bind_some] at hopened
  obtain ⟨data, hdata⟩ := Option.isSome_iff_exists.mp hopened
  have hqueues := rings_are_queues hp hdata
  exact ⟨p, data, hp, hdata, hqueues.1, hqueues.2.1⟩

end MachineProblems.Analysis.Queues
