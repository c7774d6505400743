import MachineProblems.Analysis.Sessions
import MachineProblems.Analysis.Transmit
import MachineProblems.Analysis.Tuxctl
import MachineProblems.Program.TuxModule

/-!
# The Tux controller module, end to end

The module is the line discipline and the driver side by side: an interrupt receives what the line
discipline alone would (`dataCallback_eq`), the driver sees the packets that a receiver emits and
the ioctls in between (`driverEvents`), and the serial driver takes a subsequence of the bytes that
the driver puts, or all of them where it always has room for the longest put (`Wire`).
-/

set_option autoImplicit false

namespace MachineProblems.Analysis.TuxModule

open MachineProblems.Library MachineProblems.Library.FrameScanner
open MachineProblems.Program MachineProblems.Program.LineDiscipline
open MachineProblems.Program.Tuxctl MachineProblems.Program.TuxModule
open MachineProblems.Model (Receiver)
open MachineProblems.Model.Mtcp (Commands)
open MachineProblems.Analysis.Receive MachineProblems.Analysis.Transmit
open MachineProblems.Analysis.Tuxctl

variable {T : Type} [DecidableEq T] (room : ℕ → ℕ) (beyond : ℕ → UInt8)

/-! ## A put changes the transmit side only -/

/-- The serial driver took `taken`, and `tx` is what is left to transmit. -/
def transmit (s : Ldisc T) (tty : T) (data : LdiscData) (taken : List UInt8)
    (tx : Ring UInt8 bufsize) : Ldisc T :=
  { s.setData tty (some { data with tx := tx }) with
    sent := Function.update s.sent tty (s.sent tty ++ taken) }

theorem wakeup_eq {s : Ldisc T} {tty : T} {data : LdiscData} (h : s.discData tty = some data)
    (k : ℕ) : tuxctlLdiscWriteWakeup s tty k =
      some (transmit s tty data (data.tx.contents.take k) (data.tx.drain (k + 1)).2) := by
  have hloop : wakeupLoop k bufsize 0 data.tx = data.tx.drain (k + 1) :=
    wakeupLoop_eq_drain k bufsize 0 data.tx data.tx.used_lt.le
  have htake : driverWrite k (data.tx.contents.take (k + 1)) = data.tx.contents.take k := by
    unfold driverWrite
    rw [List.take_take, List.length_take, List.take_eq_take_iff]
    omega
  simp [tuxctlLdiscWriteWakeup, h, hloop, Ring.drain_fst, htake, transmit, Ldisc.setData]

/-- What is queued after a put of `buf`, before its wakeup. -/
def queued (data : LdiscData) (buf : List UInt8) : List UInt8 :=
  data.tx.contents ++ buf.take data.tx.room

theorem put_eq {s : Ldisc T} {tty : T} {data : LdiscData} (h : s.discData tty = some data)
    (buf : List UInt8) (k : ℕ) : tuxctlLdiscPut s tty buf k =
      some (transmit s tty data ((queued data buf).take k) ((data.tx.fill buf).1.drain (k + 1)).2,
        (data.tx.fill buf).2.length) := by
  let filled : LdiscData := { data with tx := (data.tx.fill buf).1 }
  have hopen : (s.setData tty (some filled)).discData tty = some filled := by
    simp [Ldisc.setData]
  have hqueued : filled.tx.contents = queued data buf := Ring.contents_fill _ _
  have hqueue : tuxctlLdiscQueue s tty buf =
      some (s.setData tty (some filled), (data.tx.fill buf).2.length) := by
    simp [tuxctlLdiscQueue, h, filled]
  have hsame : transmit (s.setData tty (some filled)) tty filled ((queued data buf).take k)
      (filled.tx.drain (k + 1)).2 =
      transmit s tty data ((queued data buf).take k) (filled.tx.drain (k + 1)).2 := by
    simp [transmit, Ldisc.setData, filled]
  rw [tuxctlLdiscPut_eq, hqueue, Option.bind_some, wakeup_eq hopen, hqueued, hsame,
    Option.map_some]

/-- The bytes kept by the callback replaced. -/
def keep (saved : Vector UInt8 2) (n : ℕ) (m : TuxModule T) : TuxModule T :=
  { m with ldisc := { m.ldisc with saved := saved, nSaved := n } }

theorem put_keep (saved : Vector UInt8 2) (n : ℕ) (tty : T) (m : TuxModule T) (buf : List UInt8) :
    put room tty (keep saved n m) buf = (put room tty m buf).map (keep saved n) := by
  cases h : m.ldisc.discData tty with
  | none => simp [put, tuxctlLdiscPut, keep, h]
  | some data =>
      have hkeep : (keep saved n m).ldisc.discData tty = some data := h
      simp only [put, put_eq h, put_eq hkeep]
      rfl

/-- What commutes with every step of a loop commutes with the loop. -/
theorem foldlM_map {α β : Type} {f : β → α → Option β} {g : β → β}
    (h : ∀ b a, f (g b) a = (f b a).map g) (b : β) (as : List α) :
    as.foldlM f (g b) = (as.foldlM f b).map g := by
  induction as generalizing b with
  | nil => rfl
  | cons a as ih =>
      rw [List.foldlM_cons, List.foldlM_cons, h]
      cases f b a with
      | none => rfl
      | some b => exact ih b

/-- The driver has handled a packet and put nothing yet. -/
def seen (tty : T) (m : TuxModule T) (packet : Packet) : TuxModule T :=
  { m with
    ldisc := { m.ldisc with handled := m.ldisc.handled ++ [(tty, packet)] }
    driver := tuxctlHandlePacket m.driver packet }

theorem handlePacket_eq (tty : T) (m : TuxModule T) (packet : Packet) :
    handlePacket room tty m packet =
      (sent beyond m.driver (.packet packet)).foldlM (put room tty) (seen tty m packet) := by
  have hputs : (tuxctlHandlePacket m.driver packet).puts =
      m.driver.puts ++ sent beyond m.driver (.packet packet) :=
    puts_event beyond m.driver (.packet packet)
  have hdrop : (tuxctlHandlePacket m.driver packet).puts.drop m.driver.puts.length =
      sent beyond m.driver (.packet packet) := by
    rw [hputs, List.drop_left]
  rw [← hdrop]
  rfl

theorem handlePacket_keep (saved : Vector UInt8 2) (n : ℕ) (tty : T) (m : TuxModule T)
    (packet : Packet) : handlePacket room tty (keep saved n m) packet =
      (handlePacket room tty m packet).map (keep saved n) := by
  rw [handlePacket_eq room (fun _ => 0), handlePacket_eq room (fun _ => 0)]
  exact foldlM_map (put_keep room saved n tty) (seen tty m packet) _

/-! ## The callback hands its packets to the driver -/

/-- The loop that collects packets starts with none. -/
theorem packetLoop_out (packet : List UInt8) (n fuel i : ℕ) (out : List Packet) :
    LineDiscipline.packetLoop packet n fuel i out =
      (LineDiscipline.packetLoop packet n fuel i []).map fun p => (p.1, out ++ p.2) := by
  induction fuel generalizing i out with
  | zero =>
      unfold LineDiscipline.packetLoop
      split_ifs <;> simp
  | succ fuel ih =>
      unfold LineDiscipline.packetLoop
      split_ifs with h
      · cases packet[i]? with
        | none => rfl
        | some p0 =>
        cases packet[i + 1]? with
        | none => rfl
        | some p1 =>
        cases packet[i + 2]? with
        | none => rfl
        | some p2 =>
            simp only [Option.bind_eq_bind, Option.bind_some]
            split_ifs
            · rw [ih (i + 3) (out ++ _), ih (i + 3) ([] ++ _), Option.map_map]
              simp [Function.comp_def]
            · exact ih (i + 1) out
      · simp

/-- **The packet loop** of the module: that of the line discipline, and then the handler for every
packet that it collects. -/
theorem packetLoop_eq_foldlM (tty : T) (packet : List UInt8) (n fuel i : ℕ) (m : TuxModule T) :
    TuxModule.packetLoop room tty packet n fuel i m =
      (LineDiscipline.packetLoop packet n fuel i []).bind fun p =>
        (p.2.foldlM (handlePacket room tty) m).map fun m => (p.1, m) := by
  induction fuel generalizing i m with
  | zero =>
      unfold TuxModule.packetLoop LineDiscipline.packetLoop
      split_ifs <;> rfl
  | succ fuel ih =>
      unfold TuxModule.packetLoop LineDiscipline.packetLoop
      split_ifs with h
      · cases packet[i]? with
        | none => rfl
        | some p0 =>
        cases packet[i + 1]? with
        | none => rfl
        | some p1 =>
        cases packet[i + 2]? with
        | none => rfl
        | some p2 =>
            simp only [Option.bind_eq_bind, Option.bind_some]
            split_ifs
            · rw [packetLoop_out, Option.bind_map]
              simp only [ih, Function.comp_def, List.nil_append, List.singleton_append,
                List.foldlM_cons]
              cases handlePacket room tty m (p0, p1, p2) with
              | none => exact (Option.bind_fun_none _).symm
              | some m => rfl
            · exact ih (i + 1) m
      · rfl

/-- A loop of handlers leaves the kept bytes alone. -/
theorem saved_handlers {tty : T} {m m' : TuxModule T} {out : List Packet}
    (h : out.foldlM (handlePacket room tty) m = some m') : m'.ldisc.saved = m.ldisc.saved := by
  have hkeep := foldlM_map (handlePacket_keep room m.ldisc.saved m.ldisc.nSaved tty) m out
  have hself : keep m.ldisc.saved m.ldisc.nSaved m = m := rfl
  rw [hself, h, Option.map_some] at hkeep
  exact congrArg (fun m => m.ldisc.saved) (Option.some.inj hkeep)

/-- Taking received bytes leaves the rest of the callback's variables alone. -/
theorem get_frame {s t : Ldisc T} {tty : T} {n : ℕ} {got : List UInt8}
    (h : tuxctlLdiscGet s tty n = some (t, got)) :
    t.nSaved = s.nSaved ∧ t.handled = s.handled := by
  obtain ⟨data, -, hget⟩ := Option.bind_eq_some_iff.mp h
  obtain ⟨rfl, -⟩ := Prod.mk.inj (Option.some.inj hget)
  exact ⟨rfl, rfl⟩

/-- **The callback** is that of the line discipline, and then the handler for every packet. -/
theorem dataCallback_eq {tty : T} {m : TuxModule T} {s : Ldisc T}
    (h : tuxctlLdiscDataCallback m.ldisc tty = some s) : dataCallback room m tty =
      (packetsSince m.ldisc s).foldlM (handlePacket room tty)
        { m with ldisc := { s with handled := m.ldisc.handled } } := by
  unfold tuxctlLdiscDataCallback at h
  obtain ⟨kept, hkept, h⟩ := Option.bind_eq_some_iff.mp h
  obtain ⟨⟨s₁, got⟩, hget, h⟩ := Option.bind_eq_some_iff.mp h
  obtain ⟨hn, hhandled⟩ := get_frame hget
  dsimp only at h
  split_ifs at h with hlong
  · cases h
  obtain ⟨⟨i, out⟩, hloop, h⟩ := Option.bind_eq_some_iff.mp h
  obtain ⟨saved, hsave, h⟩ := Option.bind_eq_some_iff.mp h
  obtain rfl := Option.some.inj h
  let m₁ : TuxModule T := { m with ldisc := s₁ }
  let n := s₁.nSaved + got.length
  have hout : packetsSince m.ldisc { s₁ with
      saved := saved
      nSaved := n - i
      handled := s₁.handled ++ out.map fun p => (tty, p) } = out := by
    rw [packetsSince_of_append (congrArg (· ++ _) hhandled), List.map_map]
    exact List.map_id out
  have hstart : { m with ldisc := { s₁ with
      saved := saved
      nSaved := n - i
      handled := m.ldisc.handled } } = keep saved (n - i) m₁ := by
    rw [← hhandled]
    rfl
  have hmodule := packetLoop_eq_foldlM room tty (kept ++ got) n n 0 m₁
  simp only [n, hloop, Option.bind_some] at hmodule
  rw [hout]
  refine Eq.trans ?_ (congrArg (fun m => out.foldlM (handlePacket room tty) m) hstart.symm)
  rw [foldlM_map (handlePacket_keep room saved (n - i) tty)]
  rw [← hn] at hkept hget
  simp only [dataCallback, ← hn, hkept, hget, Option.bind_eq_bind, Option.bind_some, hlong,
    if_false]
  rw [hmodule]
  cases hrun : out.foldlM (handlePacket room tty) m₁ with
  | none => rfl
  | some m' =>
      have hsaved : m'.ldisc.saved = s₁.saved := saved_handlers room hrun
      simp only [Option.map_some, Option.bind_some, hsaved, hsave]
      rfl

/-! ## The transmit side -/

/-- **The wire** carries a subsequence of the bytes put, and all of them where the serial driver
always has room for the longest put. -/
structure Wire (s : Ldisc T) (tty : T) (puts : List (List UInt8)) : Prop where
  kept : (delivered s tty).Sublist puts.flatten
  whole : (∀ n, 6 ≤ room n) → s.sent tty = puts.flatten
  empty : (∀ n, 6 ≤ room n) → ∀ data, s.discData tty = some data → data.tx.contents = []

/-- The tty's end of the module is the receiver, and the strings of `puts` were put. -/
structure Linked (m : TuxModule T) (tty : T) (r : Receiver) (puts : List (List UInt8)) : Prop where
  ends : Ends m.ldisc tty r
  wire : Wire room m.ldisc tty puts

theorem ends_transmit {s : Ldisc T} {tty : T} {r : Receiver} {data : LdiscData}
    (h : Ends s tty r) (hopen : s.discData tty = some data) (taken : List UInt8)
    (tx : Ring UInt8 bufsize) : Ends (transmit s tty data taken tx) tty r := by
  obtain ⟨⟨data', hdata', hqueue⟩, hkept, hn⟩ := h
  obtain rfl := Option.some.inj (hopen.symm.trans hdata')
  exact ⟨⟨{ data with tx := tx }, by simp [transmit, Ldisc.setData], hqueue⟩, hkept, hn⟩

theorem delivered_transmit (s : Ldisc T) (tty : T) (data : LdiscData) (taken : List UInt8)
    (tx : Ring UInt8 bufsize) :
    delivered (transmit s tty data taken tx) tty = s.sent tty ++ taken ++ tx.contents := by
  simp [delivered, transmit, Ldisc.setData]

theorem sent_transmit (s : Ldisc T) (tty : T) (data : LdiscData) (taken : List UInt8)
    (tx : Ring UInt8 bufsize) :
    (transmit s tty data taken tx).sent tty = s.sent tty ++ taken := by
  simp [transmit, Ldisc.setData]

/-- What a wakeup with `k` bytes of room makes of a queue: all but the byte behind `k`. -/
theorem wire_transmit {s : Ldisc T} {tty : T} {data : LdiscData} {puts : List (List UInt8)}
    (h : Wire room s tty puts) (hopen : s.discData tty = some data) (new : List UInt8)
    (hnew : new.length ≤ 6) {k : ℕ} (hk : (∀ n, 6 ≤ room n) → 6 ≤ k) {tx : Ring UInt8 bufsize}
    (htx : tx.contents = (data.tx.contents ++ new.take data.tx.room).drop (k + 1)) :
    Wire room (transmit s tty data ((data.tx.contents ++ new.take data.tx.room).take k) tx) tty
      (puts ++ [new]) := by
  have hflat : (puts ++ [new]).flatten = puts.flatten ++ new := by simp
  have hroom : (∀ n, 6 ≤ room n) → data.tx.contents ++ new.take data.tx.room = new := by
    intro hr
    have hempty := h.empty hr data hopen
    have hused : data.tx.used = 0 := by rw [← Ring.length_contents, hempty, List.length_nil]
    have hfits : new.length ≤ data.tx.room := by
      simp only [Ring.room, hused, bufsize]
      omega
    rw [hempty, List.nil_append, List.take_of_length_le hfits]
  constructor
  · rw [delivered_transmit, htx, hflat, List.append_assoc]
    have hsub := h.kept
    rw [delivered_of_open hopen] at hsub
    calc (s.sent tty ++ ((data.tx.contents ++ new.take data.tx.room).take k ++
          (data.tx.contents ++ new.take data.tx.room).drop (k + 1))).Sublist
          (s.sent tty ++ (data.tx.contents ++ new.take data.tx.room)) :=
          (List.Sublist.refl _).append (take_append_drop_succ_sublist _ _)
      List.Sublist _ (puts.flatten ++ new) := by
          rw [← List.append_assoc]
          exact hsub.append (List.take_sublist _ _)
  · intro hr
    have hfits : new.length ≤ k := hnew.trans (hk hr)
    rw [sent_transmit, hroom hr, List.take_of_length_le hfits, h.whole hr, hflat]
  · intro hr data' hdata'
    have hfits : new.length ≤ k + 1 := (hnew.trans (hk hr)).trans (Nat.le_succ k)
    simp only [transmit, Ldisc.setData, Function.update_self, Option.some.injEq] at hdata'
    rw [← hdata', htx, hroom hr, List.drop_eq_nil_of_le hfits]

/-- **A put.** -/
theorem put_linked {m : TuxModule T} {tty : T} {r : Receiver} {puts : List (List UInt8)}
    (h : Linked room m tty r puts) {buf : List UInt8} (hbuf : buf.length ≤ 6) :
    ∃ m', put room tty m buf = some m' ∧ m'.driver = m.driver ∧
      Linked room m' tty r (puts ++ [buf]) := by
  obtain ⟨data, hopen, -⟩ := h.ends.opened
  have hput := put_eq hopen buf (room m.asked)
  refine ⟨{ m with
    ldisc := transmit m.ldisc tty data ((queued data buf).take (room m.asked))
      ((data.tx.fill buf).1.drain (room m.asked + 1)).2
    asked := m.asked + 1 }, by simp [put, hput], rfl, ends_transmit h.ends hopen _ _, ?_⟩
  refine wire_transmit room h.wire hopen buf hbuf (fun hr => hr _) ?_
  rw [Ring.contents_drain, Ring.contents_fill]

theorem puts_linked {m : TuxModule T} {tty : T} {r : Receiver} {puts : List (List UInt8)}
    (h : Linked room m tty r puts) {bufs : List (List UInt8)} (hbufs : ∀ b ∈ bufs, b.length ≤ 6) :
    ∃ m', bufs.foldlM (put room tty) m = some m' ∧ m'.driver = m.driver ∧
      Linked room m' tty r (puts ++ bufs) := by
  induction bufs generalizing m puts with
  | nil => exact ⟨m, rfl, rfl, by rwa [List.append_nil]⟩
  | cons buf bufs ih =>
      obtain ⟨m₁, hput, hdriver, hlinked⟩ := put_linked room h (hbufs buf List.mem_cons_self)
      obtain ⟨m', hrest, hdriver', hlinked'⟩ :=
        ih hlinked fun b hb => hbufs b (List.mem_cons_of_mem _ hb)
      refine ⟨m', by simp [hput, hrest], hdriver'.trans hdriver, ?_⟩
      rwa [List.append_assoc, List.singleton_append] at hlinked'

/-- **A wakeup.** -/
theorem writeWakeup_linked {m : TuxModule T} {tty : T} {r : Receiver} {puts : List (List UInt8)}
    (h : Linked room m tty r puts) : ∃ m', writeWakeup room m tty = some m' ∧
      m'.driver = m.driver ∧ Linked room m' tty r puts := by
  obtain ⟨data, hopen, -⟩ := h.ends.opened
  have hwake := wakeup_eq hopen (room m.asked)
  refine ⟨{ m with
    ldisc := transmit m.ldisc tty data (data.tx.contents.take (room m.asked))
      (data.tx.drain (room m.asked + 1)).2
    asked := m.asked + 1 }, by simp [writeWakeup, hwake], rfl, ends_transmit h.ends hopen _ _, ?_⟩
  have hrest : (data.tx.drain (room m.asked + 1)).2.contents =
      (data.tx.contents ++ [].take data.tx.room).drop (room m.asked + 1) := by
    rw [Ring.contents_drain, List.take_nil, List.append_nil]
  have hwire := wire_transmit room h.wire hopen [] (Nat.zero_le 6) (fun hr => hr _) hrest
  rw [List.take_nil, List.append_nil] at hwire
  exact ⟨by simpa using hwire.kept, by simpa using hwire.whole, hwire.empty⟩

/-! ## One call of the module -/

/-- No string that the driver puts is longer than a command for all four displays. -/
theorem length_sent_le (s : Driver) (e : Event) : ∀ buf ∈ sent beyond s e, buf.length ≤ 6 := by
  cases e with
  | packet p =>
      intro buf hbuf
      rw [sent] at hbuf
      split_ifs at hbuf
      · rcases List.mem_pair.mp hbuf with rfl | rfl
        · exact Nat.le_of_ble_eq_true rfl
        · exact (Vector.length_toList).le
      · exact absurd hbuf List.not_mem_nil
  | ioctl cmd arg uncopied =>
      intro buf hbuf
      rw [sent, List.mem_append] at hbuf
      rcases hbuf with hbuf | hbuf
      · unfold recovery at hbuf
        split_ifs at hbuf
        · rw [List.mem_singleton.mp hbuf]
          exact Nat.le_of_ble_eq_true rfl
        · exact absurd hbuf List.not_mem_nil
      · unfold answer at hbuf
        split_ifs at hbuf
        · have hone : buf.length = 1 := by
            simp only [List.mem_cons, List.not_mem_nil, or_false] at hbuf
            rcases hbuf with rfl | rfl | rfl | rfl <;> rfl
          omega
        · rw [List.mem_singleton.mp hbuf]
          exact (Vector.length_toList).le
        · exact absurd hbuf List.not_mem_nil

/-- Everything that the driver put went to the line discipline. -/
abbrev Running (m : TuxModule T) (tty : T) (r : Receiver) : Prop :=
  Linked room m tty r m.driver.puts

/-- **A packet.** -/
theorem handlePacket_running {m : TuxModule T} {tty : T} {r : Receiver} (h : Running room m tty r)
    (packet : Packet) : ∃ m', handlePacket room tty m packet = some m' ∧
      m'.driver = tuxctlHandlePacket m.driver packet ∧ Running room m' tty r := by
  have hseen : Linked room (seen tty m packet) tty r m.driver.puts :=
    ⟨⟨h.ends.opened, h.ends.kept, h.ends.nSaved⟩, ⟨h.wire.kept, h.wire.whole, h.wire.empty⟩⟩
  obtain ⟨m', hputs, hdriver, hlinked⟩ := puts_linked room hseen
    (length_sent_le (fun _ => 0) m.driver (.packet packet))
  refine ⟨m', (handlePacket_eq room _ tty m packet).trans hputs, hdriver, ?_⟩
  unfold Running
  rw [hdriver]
  rwa [← puts_event] at hlinked

theorem handlers_running {m : TuxModule T} {tty : T} {r : Receiver} (h : Running room m tty r)
    (packets : List Packet) : ∃ m', packets.foldlM (handlePacket room tty) m = some m' ∧
      m'.driver = m.driver.drive beyond (packets.map .packet) ∧ Running room m' tty r := by
  induction packets generalizing m with
  | nil => exact ⟨m, rfl, rfl, h⟩
  | cons p packets ih =>
      obtain ⟨m₁, hfirst, hdriver, hrunning⟩ := handlePacket_running room h p
      obtain ⟨m', hrest, hdriver', hrunning'⟩ := ih hrunning
      refine ⟨m', by simp [hfirst, hrest], ?_, hrunning'⟩
      rw [hdriver', hdriver]
      rfl

/-- The line discipline's callback leaves the transmit side alone. -/
structure SameTransmit (s t : Ldisc T) (tty : T) : Prop where
  sent : t.sent tty = s.sent tty
  queue : (t.discData tty).map LdiscData.tx = (s.discData tty).map LdiscData.tx

theorem store_transmit {s t : Ldisc T} {tty : T} {cp : List UInt8} {c : ℕ}
    (h : tuxctlLdiscStore s tty cp = some (t, c)) : SameTransmit s t tty := by
  obtain ⟨data, hopen, hstore⟩ := Option.bind_eq_some_iff.mp h
  obtain ⟨rfl, -⟩ := Prod.mk.inj (Option.some.inj hstore)
  exact ⟨rfl, by simp [Ldisc.setData, hopen]⟩

theorem dataCallback_transmit {s t : Ldisc T} {tty : T}
    (h : tuxctlLdiscDataCallback s tty = some t) : SameTransmit s t tty := by
  unfold tuxctlLdiscDataCallback at h
  obtain ⟨kept, -, h⟩ := Option.bind_eq_some_iff.mp h
  obtain ⟨⟨s₁, got⟩, hget, h⟩ := Option.bind_eq_some_iff.mp h
  have hsame : SameTransmit s s₁ tty := by
    obtain ⟨data, hopen, hget⟩ := Option.bind_eq_some_iff.mp hget
    obtain ⟨rfl, -⟩ := Prod.mk.inj (Option.some.inj hget)
    exact ⟨rfl, by simp [Ldisc.setData, hopen]⟩
  dsimp only at h
  split_ifs at h
  · cases h
  obtain ⟨⟨i, out⟩, -, h⟩ := Option.bind_eq_some_iff.mp h
  obtain ⟨saved, -, h⟩ := Option.bind_eq_some_iff.mp h
  obtain rfl := Option.some.inj h
  exact ⟨hsame.sent, hsame.queue⟩

omit [DecidableEq T] in
theorem Wire.of_same {s t : Ldisc T} {tty : T} {puts : List (List UInt8)}
    (h : Wire room s tty puts) (hsame : SameTransmit s t tty) : Wire room t tty puts := by
  have hdel : delivered t tty = delivered s tty := by
    have hqueue := congrArg (Option.map Ring.contents) hsame.queue
    rw [Option.map_map, Option.map_map] at hqueue
    exact congrArg₂ (· ++ ·) hsame.sent (congrArg (·.getD []) hqueue)
  constructor
  · rw [hdel]
    exact h.kept
  · rw [hsame.sent]
    exact h.whole
  · intro hr data hdata
    have hqueue := hsame.queue
    rw [hdata, Option.map_some] at hqueue
    obtain ⟨data', hdata', htx⟩ := Option.map_eq_some_iff.mp hqueue.symm
    rw [← htx]
    exact h.empty hr data' hdata'

/-- **An interrupt.** -/
theorem rcvBuf_running {m : TuxModule T} {tty : T} {r : Receiver} (h : Running room m tty r)
    (cp : List UInt8) : ∃ m', rcvBuf room m tty cp = some m' ∧
      m'.driver = m.driver.drive beyond ((r.receive cp).2.map .packet) ∧
      Running room m' tty (r.receive cp).1 := by
  obtain ⟨data, hopen, -⟩ := h.ends.opened
  obtain ⟨rx, hstore, -⟩ := store_spec hopen cp
  obtain ⟨t, hrcv, ht⟩ := rcvBuf_received h.ends cp
  have hcall : tuxctlLdiscDataCallback (m.ldisc.setData tty (some { data with rx := rx })) tty =
      some t := by
    rw [← hrcv, tuxctlLdiscRcvBuf, hstore]
  have hpackets : packetsSince m.ldisc t = (r.receive cp).2 := by
    rw [packetsSince_of_append ht.handled, List.map_map]
    exact List.map_id _
  let m₁ : TuxModule T := { m with ldisc := { t with handled := m.ldisc.handled } }
  have hwire : Wire room t tty m.driver.puts :=
    (h.wire.of_same room (store_transmit hstore)).of_same room (dataCallback_transmit hcall)
  have hstart : Running room m₁ tty (r.receive cp).1 :=
    ⟨⟨ht.ends.opened, ht.ends.kept, ht.ends.nSaved⟩, ⟨hwire.kept, hwire.whole, hwire.empty⟩⟩
  obtain ⟨m', hrun, hdriver, hrunning⟩ := handlers_running room beyond hstart (r.receive cp).2
  refine ⟨m', ?_, hdriver, hrunning⟩
  rw [rcvBuf, hstore]
  refine (dataCallback_eq room hcall).trans (Eq.trans ?_ hrun)
  exact congrArg (fun ps => List.foldlM (handlePacket room tty) m₁ ps) hpackets

/-- **An ioctl.** -/
theorem ioctl_running {m : TuxModule T} {tty : T} {r : Receiver} (h : Running room m tty r)
    (cmd arg : UInt32) (uncopied : ℕ) :
    ∃ m', ioctl room beyond m tty cmd arg uncopied =
        some (m', (tuxctlIoctl beyond m.driver cmd arg uncopied).2) ∧
      m'.driver = m.driver.event beyond (.ioctl cmd arg uncopied) ∧ Running room m' tty r := by
  let driver := (tuxctlIoctl beyond m.driver cmd arg uncopied).1
  have hlinked : Linked room { m with driver := driver } tty r m.driver.puts := ⟨h.ends, h.wire⟩
  obtain ⟨m', hputs, hdriver, hlinked'⟩ := puts_linked room hlinked
    (length_sent_le beyond m.driver (.ioctl cmd arg uncopied))
  have hsent := puts_event beyond m.driver (.ioctl cmd arg uncopied)
  have hdrop : driver.puts.drop m.driver.puts.length =
      sent beyond m.driver (.ioctl cmd arg uncopied) := by
    show (m.driver.event beyond (.ioctl cmd arg uncopied)).puts.drop _ = _
    rw [hsent, List.drop_left]
  have hall : putAll room m tty driver = some m' := by
    unfold putAll
    rw [hdrop, hputs]
  refine ⟨m', ?_, hdriver, ?_⟩
  · show (putAll room m tty driver).bind _ = _
    rw [hall]
    rfl
  · unfold Running
    rw [hdriver]
    rwa [← hsent] at hlinked'

/-! ## Runs of the module -/

/-- The receiver after a call. -/
def next (r : Receiver) : Call → Receiver
  | .receive cp => (r.receive cp).1
  | _ => r

/-- The calls of the driver that a call of the module makes. -/
def events (r : Receiver) : Call → List Event
  | .receive cp => (r.receive cp).2.map .packet
  | .wakeup => []
  | .ioctl cmd arg uncopied => [.ioctl cmd arg uncopied]

/-- Those that a sequence of calls makes. -/
def driverEvents : Receiver → List Call → List Event
  | _, [] => []
  | r, call :: calls => events r call ++ driverEvents (next r call) calls

/-- **The step lemma.** -/
theorem step_running {m : TuxModule T} {tty : T} {r : Receiver} (h : Running room m tty r)
    (call : Call) : ∃ m', step room beyond tty m call = some m' ∧
      m'.driver = m.driver.drive beyond (events r call) ∧
      Running room m' tty (next r call) := by
  cases call with
  | receive cp => exact rcvBuf_running room beyond h cp
  | wakeup =>
      obtain ⟨m', hstep, hdriver, hlinked⟩ := writeWakeup_linked room h
      refine ⟨m', hstep, hdriver, ?_⟩
      rw [← hdriver] at hlinked
      exact hlinked
  | ioctl cmd arg uncopied =>
      obtain ⟨m', hstep, hdriver, hrunning⟩ := ioctl_running room beyond h cmd arg uncopied
      exact ⟨m', by rw [step, hstep]; rfl, hdriver, hrunning⟩

/-- **The module is its receiver and its driver**: no sequence of calls faults, the driver sees the
packets that the receiver emits and the ioctls in between, and the wire carries what it puts. -/
theorem run_running {m : TuxModule T} {tty : T} {r : Receiver} (h : Running room m tty r)
    (calls : List Call) : ∃ m', run (step room beyond tty) m calls = some m' ∧
      m'.driver = m.driver.drive beyond (driverEvents r calls) ∧
      Running room m' tty (calls.foldl next r) := by
  induction calls generalizing m r with
  | nil => exact ⟨m, rfl, rfl, h⟩
  | cons call calls ih =>
      obtain ⟨m₁, hfirst, hdriver, hrunning⟩ := step_running room beyond h call
      obtain ⟨m', hrest, hdriver', hrunning'⟩ := ih hrunning
      refine ⟨m', by simp [hfirst, hrest], ?_, hrunning'⟩
      rw [hdriver', hdriver, driverEvents, Driver.drive, Driver.drive, Driver.drive,
        List.foldl_append]

theorem opened_running (tty : T) (rxBuf txBuf : Vector UInt8 bufsize) :
    Running room (opened tty rxBuf txBuf) tty Receiver.fresh := by
  have hdata : (opened tty rxBuf txBuf).ldisc.discData tty =
      some ⟨freshRing rxBuf, freshRing txBuf⟩ := by
    simp [opened, tuxctlLdiscOpen, Ldisc.setData]
  have hempty (cells : Vector UInt8 bufsize) : (freshRing cells).contents = [] :=
    Ring.contents_of_isEmpty _ rfl
  refine ⟨⟨⟨_, hdata, hempty rxBuf⟩, rfl, Nat.zero_le 2⟩, ⟨?_, fun _ => rfl, ?_⟩⟩
  · rw [delivered_of_open hdata, hempty txBuf]
    exact List.Sublist.refl _
  · intro _ data h
    obtain rfl := Option.some.inj (hdata.symm.trans h)
    exact hempty txBuf

/-! ## The buttons -/

/-- What a packet does to the buttons: a button event replaces them. -/
structure Pressed (s t : Driver) (p : Packet) : Prop where
  buttons : t.buttonBuffer = if p.1 = mtcpBiocEvent then #v[p.2.1, p.2.2] else s.buttonBuffer
  copies : t.copies = s.copies

theorem pressed_processRcvdPckt (op : UInt8) (pos : Fin 5) (s : Driver) (a b c : UInt8) :
    (processRcvdPckt op pos s a b c).buttonBuffer = s.buttonBuffer ∧
      (processRcvdPckt op pos s a b c).copies = s.copies := by
  unfold processRcvdPckt
  split_ifs <;> exact ⟨rfl, rfl⟩

/-- **Only a button event** changes the buttons. -/
theorem pressed (s : Driver) (p : Packet) : Pressed s (tuxctlHandlePacket s p) p := by
  obtain ⟨a, b, c⟩ := p
  have hother {t : Driver} (hne : a ≠ mtcpBiocEvent) (hb : t.buttonBuffer = s.buttonBuffer)
      (hc : t.copies = s.copies) : Pressed s t (a, b, c) := ⟨by rw [if_neg hne, hb], hc⟩
  have hpckt0 (hne : a ≠ mtcpBiocEvent) : Pressed s (processRcvdPckt0 s a b c) (a, b, c) :=
    hother hne (pressed_processRcvdPckt 0x50 2 s a b c).1 (pressed_processRcvdPckt 0x50 2 s a b c).2
  have hpckt1 (hne : a ≠ mtcpBiocEvent) : Pressed s (processRcvdPckt1 s a b c) (a, b, c) :=
    hother hne (pressed_processRcvdPckt 0x54 4 s a b c).1 (pressed_processRcvdPckt 0x54 4 s a b c).2
  unfold tuxctlHandlePacket
  apply iteInduction (motive := fun t => Pressed s t (a, b, c))
  · exact fun herr => hother (by rw [herr]; decide) rfl rfl
  intro _
  apply iteInduction (motive := fun t => Pressed s t (a, b, c))
  · exact fun hack => hother (by rw [hack]; decide) rfl rfl
  intro _
  apply iteInduction (motive := fun t => Pressed s t (a, b, c))
  · exact fun hreset => hother (by rw [hreset]; decide) rfl rfl
  intro _
  apply iteInduction (motive := fun t => Pressed s t (a, b, c))
  · exact fun hevent => ⟨(if_pos hevent).symm, rfl⟩
  intro hne
  iterate 4
    apply iteInduction (motive := fun t => Pressed s t (a, b, c)) (fun _ => hpckt0 hne)
    intro _
  iterate 4
    apply iteInduction (motive := fun t => Pressed s t (a, b, c)) (fun _ => hpckt1 hne)
    intro _
  exact hother hne rfl rfl

/-- The data of the last button event among the packets, and zeros before the first. -/
def lastEvent (packets : List Packet) : UInt8 × UInt8 :=
  ((packets.filter fun p => p.1 == mtcpBiocEvent).getLast?.map Prod.snd).getD (0, 0)

theorem lastEvent_concat (packets : List Packet) (p : Packet) :
    lastEvent (packets ++ [p]) = if p.1 = mtcpBiocEvent then p.2 else lastEvent packets := by
  unfold lastEvent
  split_ifs with h <;> simp [List.filter_append, h]

/-- The driver holds the data of the last button event of the packets handled so far. -/
def Holds (s : Driver) (packets : List Packet) : Prop :=
  s.buttonBuffer = #v[(lastEvent packets).1, (lastEvent packets).2]

theorem holds_packet {s : Driver} {packets : List Packet} (h : Holds s packets) (p : Packet) :
    Holds (tuxctlHandlePacket s p) (packets ++ [p]) := by
  unfold Holds
  rw [(pressed s p).buttons, lastEvent_concat]
  split_ifs
  · rfl
  · exact h

theorem holds_packets {s : Driver} {packets : List Packet} (h : Holds s packets)
    (more : List Packet) :
    Holds (s.drive beyond (more.map .packet)) (packets ++ more) ∧
      (s.drive beyond (more.map .packet)).copies = s.copies := by
  induction more generalizing s packets with
  | nil => exact ⟨by rwa [List.append_nil], rfl⟩
  | cons p more ih =>
      obtain ⟨hholds, hcopies⟩ := ih (holds_packet h p)
      rw [List.append_assoc, List.singleton_append] at hholds
      exact ⟨hholds, hcopies.trans (pressed s p).copies⟩

/-- The word for the buttons of the last event. -/
def word (packets : List Packet) : UInt32 :=
  buttonWord (lastEvent packets).1 (lastEvent packets).2

/-- What an ioctl copies to the user. -/
def copied (packets : List Packet) (cmd arg : UInt32) : List (UInt32 × UInt32) :=
  if cmd = tuxButtons then [(arg, word packets)] else []

theorem buttons_errorBranch (s : Driver) :
    (errorBranch s).buttonBuffer = s.buttonBuffer ∧ (errorBranch s).copies = s.copies := by
  unfold errorBranch
  split_ifs <;> exact ⟨rfl, rfl⟩

theorem buttons_put (s : Driver) (buf : List UInt8) :
    (s.put buf).buttonBuffer = s.buttonBuffer ∧ (s.put buf).copies = s.copies := ⟨rfl, rfl⟩

/-- An ioctl does not change the buttons. -/
theorem buttons_ioctl (s : Driver) (cmd arg : UInt32) (uncopied : ℕ) :
    (tuxctlIoctl beyond s cmd arg uncopied).1.buttonBuffer = s.buttonBuffer := by
  simp only [tuxctlIoctl]
  split_ifs <;> simp only [buttons_put, buttons_errorBranch]

/-- `TUX_BUTTONS` copies the buttons, and nothing else copies anything. -/
theorem copies_ioctl {s : Driver} {packets : List Packet} (h : Holds s packets) (cmd arg : UInt32)
    (uncopied : ℕ) : (tuxctlIoctl beyond s cmd arg uncopied).1.copies =
      s.copies ++ copied packets cmd arg := by
  have hib : tuxInit ≠ tuxButtons := by decide
  have hbuffer : s.buttonBuffer = #v[(lastEvent packets).1, (lastEvent packets).2] := h
  unfold copied
  simp only [tuxctlIoctl]
  by_cases hinit : cmd = tuxInit
  · simp only [if_pos hinit, if_neg (hinit ▸ hib), buttons_put, buttons_errorBranch,
      List.append_nil]
  by_cases hbuttons : cmd = tuxButtons
  · rw [if_neg hinit, if_pos hbuttons, if_pos hbuttons]
    simp [buttons_errorBranch, hbuffer, word]
  rw [if_neg hinit, if_neg hbuttons, if_neg hbuttons, List.append_nil]
  split_ifs <;> simp only [buttons_put, buttons_errorBranch]

/-- **What `TUX_BUTTONS` is to report**: the buttons of the last event in the bytes received. -/
def readings (bytes : List UInt8) : List Call → List (UInt32 × UInt32)
  | [] => []
  | .receive cp :: calls => readings (bytes ++ cp) calls
  | .wakeup :: calls => readings bytes calls
  | .ioctl cmd arg _ :: calls => copied (packets framed bytes) cmd arg ++ readings bytes calls

/-- Every chunk fits beside the bytes that the callback keeps. -/
def Short (calls : List Call) : Prop := ∀ cp, Call.receive cp ∈ calls → cp.length ≤ 10

theorem readings_drive {s : Driver} {bytes : List UInt8} {calls : List Call}
    (h : Holds s (packets framed bytes)) (hshort : Short calls) :
    (s.drive beyond (driverEvents ⟨leftover framed bytes, []⟩ calls)).copies =
      s.copies ++ readings bytes calls := by
  induction calls generalizing s bytes with
  | nil => exact (List.append_nil _).symm
  | cons call calls ih =>
      have hrest : Short calls := fun cp hcp => hshort cp (List.mem_cons_of_mem _ hcp)
      cases call with
      | receive cp =>
          have hstep := Receiver.receive_short (length_leftover_le framed bytes)
            (hshort cp List.mem_cons_self)
          obtain ⟨hholds, hcopies⟩ :=
            holds_packets beyond h (packets framed (leftover framed bytes ++ cp))
          rw [← packets_append] at hholds
          have hmore := ih hholds hrest
          rw [hcopies] at hmore
          simp only [driverEvents, events, next, hstep, ← leftover_append, Driver.drive,
            List.foldl_append]
          exact hmore
      | wakeup => exact ih h hrest
      | ioctl cmd arg uncopied =>
          have hholds : Holds (s.event beyond (.ioctl cmd arg uncopied)) (packets framed bytes) :=
            (buttons_ioctl beyond s cmd arg uncopied).trans h
          have hcopies : (s.event beyond (.ioctl cmd arg uncopied)).copies = _ :=
            copies_ioctl beyond h cmd arg uncopied
          have hmore := ih hholds hrest
          rw [hcopies, List.append_assoc] at hmore
          exact hmore

/-- **The buttons, end to end.**  Whatever the kernel calls the module for, as long as no chunk is
longer than ten bytes, no call faults and every `TUX_BUTTONS` copies the buttons of the last event
in the bytes received so far, however these were cut into chunks. -/
theorem reports_last_event (tty : T) (rxBuf txBuf : Vector UInt8 bufsize) {calls : List Call}
    (hshort : Short calls) :
    ∃ m, run (step room beyond tty) (opened tty rxBuf txBuf) calls = some m ∧
      m.driver.copies = readings [] calls := by
  obtain ⟨m, hrun, hdriver, -⟩ :=
    run_running room beyond (opened_running room tty rxBuf txBuf) calls
  have hload : Holds Driver.load (packets framed []) := rfl
  refine ⟨m, hrun, ?_⟩
  rw [hdriver]
  exact readings_drive beyond hload hshort

/-- One tty, and a button event in two pieces. -/
theorem reports_last_event_pieces :
    ∃ m, run (step (fun _ => 64) (fun _ => 0) ()) (opened () (Vector.replicate _ 0)
        (Vector.replicate _ 0)) [.ioctl tuxButtons 7 0, .receive [0x41, 0x8E], .receive [0x8F],
        .ioctl tuxButtons 7 0] = some m ∧
      m.driver.copies = readings [] [.ioctl tuxButtons 7 0, .receive [0x41, 0x8E],
        .receive [0x8F], .ioctl tuxButtons 7 0] :=
  reports_last_event _ _ _ _ _ (by simp [Short])

example : readings [] [.ioctl tuxButtons 7 0, .receive [0x41, 0x8E], .receive [0x8F],
    .ioctl tuxButtons 7 0] = [(7, 0), (7, 0xFE)] := by decide

/-! ## The commands -/

/-- **The commands, end to end.**  Where the serial driver always has room for the longest put, no
sequence of calls faults, the serial driver takes every byte that the driver puts, in order, and it
takes whole commands exactly if no reset is received before the first `TUX_SET_LED`. -/
theorem takes_commands_iff (hroom : ∀ n, 6 ≤ room n) (tty : T) (rxBuf txBuf : Vector UInt8 bufsize)
    (calls : List Call) :
    ∃ m, run (step room beyond tty) (opened tty rxBuf txBuf) calls = some m ∧
      m.ldisc.sent tty = m.driver.puts.flatten ∧
      (Commands (m.ldisc.sent tty) ↔ ResetsCovered (driverEvents Receiver.fresh calls)) := by
  obtain ⟨m, hrun, hdriver, hlinked⟩ :=
    run_running room beyond (opened_running room tty rxBuf txBuf) calls
  have hsent : m.ldisc.sent tty = m.driver.puts.flatten := hlinked.wire.whole hroom
  have hputs : m.driver.puts = sentBy beyond Driver.load (driverEvents Receiver.fresh calls) := by
    rw [hdriver]
    exact puts_drive beyond Driver.load _
  refine ⟨m, hrun, hsent, ?_⟩
  rw [hsent, hputs]
  exact commands_of_blank beyond (show Blank Driver.load from rfl) _

/-- A reset behind a `TUX_SET_LED`, to a serial driver with room for a page. -/
theorem takes_commands_iff_page :
    ∃ m, run (step (fun _ => 4096) (fun _ => 0) ()) (opened () (Vector.replicate _ 0)
        (Vector.replicate _ 0)) [.ioctl tuxSetLed 0x000F1234 0, .receive [0x46, 0x80, 0x80]] =
        some m ∧
      m.ldisc.sent () = m.driver.puts.flatten ∧
      (Commands (m.ldisc.sent ()) ↔ ResetsCovered (driverEvents Receiver.fresh
        [.ioctl tuxSetLed 0x000F1234 0, .receive [0x46, 0x80, 0x80]])) :=
  takes_commands_iff (fun _ => 4096) _ (fun _ => by decide) _ _ _ _

end MachineProblems.Analysis.TuxModule
