import MachineProblems.Library.Run
import MachineProblems.Library.FrameScanner
import MachineProblems.Program.LineDiscipline

/-!
# What the line discipline receives

The callback joins the bytes it kept to at most twelve minus that many bytes of the
ring, scans them and keeps what the scanner leaves over.  Two accounts follow.  Over
the bytes handed to the callbacks, the packets handled are the scanner's, wherever the
stream was cut.  Over the bytes *accepted* into the ring they need not be: one call scans
twelve bytes, and a packet behind them waits for the next interrupt.
-/

set_option autoImplicit false

namespace MachineProblems.Analysis.Receive

open MachineProblems.Library MachineProblems.Library.FrameScanner
open MachineProblems.Program.LineDiscipline

variable {T : Type} [DecidableEq T]

/-! ## The loops of the callback -/

/-- The bytes that the callback kept. -/
def carried (s : Ldisc T) : List UInt8 := s.saved.toList.take s.nSaved

theorem mapM_getElem_range {m : ℕ} (v : Vector UInt8 m) (n : ℕ) (h : n ≤ m) :
    (List.range n).mapM (fun i => v[i]?) = some (v.toList.take n) := by
  induction n with
  | zero => rfl
  | succ n ih =>
      have hget : v[n]? = some v[n] := Vector.getElem?_eq_getElem (by omega)
      rw [List.range_succ, List.mapM_append, ih (by omega), List.mapM_cons, hget]
      rw [List.take_succ_eq_append_getElem (by rwa [Vector.length_toList])]
      simp

omit [DecidableEq T] in
theorem length_carried {s : Ldisc T} (h : s.nSaved ≤ 2) : (carried s).length = s.nSaved := by
  simp [carried, h]

/-- **The packet loop is the scanner** from the index it stands at. -/
theorem packetLoop_eq (packet : List UInt8) (fuel i : ℕ) (out : List Packet)
    (hi : i ≤ packet.length) (hfuel : packet.length - i ≤ fuel) :
    packetLoop packet packet.length fuel i out =
      some (packet.length - (leftover framed (packet.drop i)).length,
        out ++ packets framed (packet.drop i)) := by
  have hshort : ¬ i + 2 < packet.length → (packet.drop i).length ≤ 2 := by
    intro h
    rw [List.length_drop]
    omega
  induction fuel generalizing i out with
  | zero =>
      have hlen : (packet.drop i).length ≤ 2 := hshort (by omega)
      rw [packets_of_short _ hlen, leftover_of_short _ hlen]
      simp only [packetLoop, show ¬ i + 2 < packet.length by omega, if_false, List.length_drop,
        List.append_nil, Option.some.injEq, Prod.mk.injEq, and_true]
      omega
  | succ fuel ih =>
      by_cases h : i + 2 < packet.length
      · have h0 : packet[i]? = some packet[i] := List.getElem?_eq_getElem (by omega)
        have h1 : packet[i + 1]? = some packet[i + 1] := List.getElem?_eq_getElem (by omega)
        have h2 : packet[i + 2]? = some packet[i + 2] := List.getElem?_eq_getElem h
        have hdrop : packet.drop i =
            packet[i] :: packet[i + 1] :: packet[i + 2] :: packet.drop (i + 3) := by
          rw [List.drop_eq_getElem_cons (by omega), List.drop_eq_getElem_cons (by omega),
            List.drop_eq_getElem_cons (by omega)]
        have hdrop' : packet.drop (i + 1) =
            packet[i + 1] :: packet[i + 2] :: packet.drop (i + 3) := by
          rw [List.drop_eq_getElem_cons (by omega), List.drop_eq_getElem_cons (by omega)]
        simp only [packetLoop, h, if_true, h0, h1, h2, Option.bind_eq_bind, Option.bind_some]
        rw [hdrop]
        cases hf : framed packet[i] packet[i + 1] packet[i + 2] with
        | true =>
            rw [if_pos rfl, ih (i + 3) _ (by omega) (by omega) (by rw [List.length_drop]; omega)]
            simp [packets, leftover, hf]
        | false =>
            rw [if_neg (by simp), ih (i + 1) _ (by omega) (by omega)
              (by rw [List.length_drop]; omega), hdrop']
            simp [packets, leftover, hf]
      · have hlen := hshort h
        rw [packets_of_short _ hlen, leftover_of_short _ hlen]
        simp only [packetLoop, h, if_false, List.length_drop, List.append_nil,
          Option.some.injEq, Prod.mk.injEq, and_true]
        omega

/-- Storing at most two bytes stays inside `saved`. -/
theorem saveFrom_eq (saved : Vector UInt8 2) (j : ℕ) (bs : List UInt8)
    (h : j + bs.length ≤ 2) :
    ∃ kept, saveFrom saved j bs = some kept ∧
      kept.toList.take (j + bs.length) = saved.toList.take j ++ bs := by
  induction bs generalizing saved j with
  | nil => exact ⟨saved, rfl, by simp⟩
  | cons b bs ih =>
      rw [List.length_cons] at h
      have hj : j < 2 := by omega
      obtain ⟨kept, hsave, hkept⟩ := ih (saved.set j b) (j + 1) (by omega)
      refine ⟨kept, by simp [saveFrom, hj, hsave], ?_⟩
      rw [List.length_cons, show j + (bs.length + 1) = j + 1 + bs.length by omega, hkept]
      rw [Vector.toList_set, List.take_succ_eq_append_getElem (by simp; omega),
        List.take_set_of_le (Nat.le_refl j)]
      simp

/-! ## One callback -/

/-- What a receive-side step may change for `tty`: its ring, and the callback's trace. -/
structure CallbackSpec (s t : Ldisc T) (tty : T) (data : LdiscData) (got : List UInt8) :
    Prop where
  opened : ∃ rx, t.discData tty = some { data with rx := rx } ∧
    rx.contents = data.rx.contents.drop (12 - s.nSaved)
  handed : t.handed tty = s.handed tty ++ got
  handled : t.handled = s.handled ++ (packets framed (carried s ++ got)).map fun p => (tty, p)
  carried : carried t = leftover framed (carried s ++ got)
  nSaved : t.nSaved ≤ 2

/-- **The callback**, on an open tty: it takes at most `12 - n_saved` bytes, handles the
packets of what it kept and took, and keeps what the scanner leaves over. -/
theorem dataCallback_spec {s : Ldisc T} {tty : T} {data : LdiscData}
    (hopen : s.discData tty = some data) (hn : s.nSaved ≤ 2) :
    ∃ t, tuxctlLdiscDataCallback s tty = some t ∧
      CallbackSpec s t tty data (data.rx.contents.take (12 - s.nSaved)) := by
  let got := data.rx.contents.take (12 - s.nSaved)
  let packet := carried s ++ got
  let rest := leftover framed packet
  let rx := (data.rx.drain (12 - s.nSaved)).2
  have hpacket : s.nSaved + got.length = packet.length := by
    rw [List.length_append, length_carried hn]
  have hgot : got.length ≤ 12 - s.nSaved := List.length_take_le _ _
  have hrest : rest.length ≤ packet.length := (leftover_suffix framed packet).length_le
  have hloop : packetLoop packet packet.length packet.length 0 [] =
      some (packet.length - rest.length, packets framed packet) := by
    have := packetLoop_eq packet packet.length 0 [] (Nat.zero_le _) (by omega)
    rwa [List.drop_zero, List.nil_append] at this
  obtain ⟨kept, hsave, hkept⟩ :=
    saveFrom_eq s.saved 0 rest (by simpa using length_leftover_le framed packet)
  have hget : tuxctlLdiscGet s tty (12 - s.nSaved) =
      some ({ s.setData tty (some { data with rx := rx }) with
        handed := Function.update s.handed tty (s.handed tty ++ got) }, got) := by
    simp [tuxctlLdiscGet, hopen, Ldisc.setData, rx, got, Ring.drain_fst]
  refine ⟨{ s.setData tty (some { data with rx := rx }) with
    handed := Function.update s.handed tty (s.handed tty ++ got)
    saved := kept
    nSaved := rest.length
    handled := s.handled ++ (packets framed packet).map fun p => (tty, p) }, ?_, ?_⟩
  · have hlt : ¬ 12 < packet.length := by omega
    have hread : (List.range s.nSaved).mapM (fun i => s.saved[i]?) = some (carried s) :=
      mapM_getElem_range s.saved s.nSaved hn
    have hdrop : packet.drop (packet.length - rest.length) = rest := drop_eq_leftover framed packet
    have hlen : packet.length - (packet.length - rest.length) = rest.length := by omega
    simp only [tuxctlLdiscDataCallback, hread, hget, hpacket, hloop, hsave, Option.bind_eq_bind,
      Option.bind_some, hlt, if_false, hdrop, hlen, packet, Ldisc.setData]
  · constructor
    · exact ⟨rx, by simp [Ldisc.setData], Ring.contents_drain _ _⟩
    · simp [got]
    · rfl
    · rw [Nat.zero_add, List.take_zero, List.nil_append] at hkept
      exact hkept
    · exact length_leftover_le framed packet

/-- Storing arrivals touches nothing but the ring. -/
theorem store_spec {s : Ldisc T} {tty : T} {data : LdiscData}
    (hopen : s.discData tty = some data) (cp : List UInt8) :
    ∃ rx, tuxctlLdiscStore s tty cp =
        some (s.setData tty (some { data with rx := rx }), min data.rx.room cp.length) ∧
      rx.contents = data.rx.contents ++ cp.take data.rx.room := by
  refine ⟨(data.rx.fill cp).1, ?_, Ring.contents_fill _ _⟩
  simp only [tuxctlLdiscStore, hopen, Option.bind_eq_bind, Option.bind_some, Ring.fill_snd,
    List.length_drop, Option.some.injEq, Prod.mk.injEq, true_and]
  omega

/-! ## Framing across callbacks -/

/-- What may happen on the receive side of one tty. -/
inductive RxOp where
  | arrive (cp : List UInt8)
  | callback

def rxStep (tty : T) (s : Ldisc T) : RxOp → Option (Ldisc T)
  | .arrive cp => (tuxctlLdiscStore s tty cp).map Prod.fst
  | .callback => tuxctlLdiscDataCallback s tty

/-- The packets handled so far. -/
def packetsHandled (s : Ldisc T) : List Packet := s.handled.map Prod.snd

/-- The callback's trace is that of the scanner over the bytes handed to it. -/
structure FramingInv (tty : T) (s : Ldisc T) : Prop where
  isOpen : (s.discData tty).isSome
  nSaved_le : s.nSaved ≤ 2
  carried_eq : carried s = leftover framed (s.handed tty)
  handled_eq : packetsHandled s = packets framed (s.handed tty)

omit [DecidableEq T] in
/-- **The step lemma**: the scanner may stop after any handed byte and go on with its
leftover. -/
theorem framingInv_callback {tty : T} {s t : Ldisc T} {data : LdiscData} {got : List UInt8}
    (hs : FramingInv tty s) (ht : CallbackSpec s t tty data got) : FramingInv tty t where
  isOpen := by
    obtain ⟨rx, hdata, -⟩ := ht.opened
    simp [hdata]
  nSaved_le := ht.nSaved
  carried_eq := by
    rw [ht.carried, ht.handed, hs.carried_eq, ← leftover_append]
  handled_eq := by
    have hmap : packetsHandled t = packetsHandled s ++ packets framed (carried s ++ got) := by
      simp [packetsHandled, ht.handled]
    rw [hmap, ht.handed, hs.handled_eq, hs.carried_eq, ← packets_append]

theorem framingInv_step {tty : T} {s : Ldisc T} (hs : FramingInv tty s) (op : RxOp) :
    ∃ t, rxStep tty s op = some t ∧ FramingInv tty t := by
  obtain ⟨data, hopen⟩ := Option.isSome_iff_exists.mp hs.isOpen
  cases op with
  | arrive cp =>
      obtain ⟨rx, hstore, -⟩ := store_spec hopen cp
      refine ⟨s.setData tty (some { data with rx := rx }), by simp [rxStep, hstore], ?_⟩
      exact ⟨by simp [Ldisc.setData], hs.nSaved_le, hs.carried_eq, hs.handled_eq⟩
  | callback =>
      obtain ⟨t, hcall, ht⟩ := dataCallback_spec hopen hs.nSaved_le
      exact ⟨t, hcall, framingInv_callback hs ht⟩

/-- The state in which a tty's stream begins: open, nothing handed out, nothing kept. -/
structure StreamStart (tty : T) (s : Ldisc T) : Prop where
  isOpen : (s.discData tty).isSome
  nSaved : s.nSaved = 0
  handled : s.handled = []
  handed : s.handed tty = []

omit [DecidableEq T] in
theorem StreamStart.framingInv {tty : T} {s : Ldisc T} (h : StreamStart tty s) :
    FramingInv tty s where
  isOpen := h.isOpen
  nSaved_le := by simp [h.nSaved]
  carried_eq := by simp [carried, h.nSaved, h.handed, leftover]
  handled_eq := by simp [packetsHandled, h.handled, h.handed, packets]

/-- **Framing over whole runs.**  From a fresh stream, no interleaving of arrivals and
callbacks faults, and over the bytes handed to the callbacks the packets handled are the
scanner's, the bytes kept are its leftover, and there are at most two of them. -/
theorem framing_over_runs {tty : T} {s : Ldisc T} (hstart : StreamStart tty s)
    (ops : List RxOp) :
    ∃ t, run (rxStep tty) s ops = some t ∧
      packetsHandled t = packets framed (t.handed tty) ∧
      t.saved.toList.take t.nSaved = leftover framed (t.handed tty) ∧ t.nSaved ≤ 2 := by
  have hstep : ∀ s op, FramingInv tty s → True → ∃ t, rxStep tty s op = some t ∧
      FramingInv tty t := fun s op hs _ => framingInv_step hs op
  obtain ⟨t, hrun, ht⟩ := run_total hstep hstart.framingInv fun op _ => trivial
  exact ⟨t, hrun, ht.handled_eq, ht.carried_eq, ht.nSaved_le⟩

/-- One tty, just opened over zeroed arrays. -/
def freshStream : Ldisc Unit :=
  (tuxctlLdiscOpen ⟨fun _ => none, Vector.replicate 2 0, 0, [], fun _ => [], fun _ => []⟩ ()
    (some (Vector.replicate bufsize 0, Vector.replicate bufsize 0))).1

theorem framing_over_runs_freshStream :
    ∃ t, run (rxStep ()) freshStream [.arrive [0x10, 0x80], .callback, .arrive [0x81],
        .callback] = some t ∧
      packetsHandled t = packets framed (t.handed ()) ∧
      t.saved.toList.take t.nSaved = leftover framed (t.handed ()) ∧ t.nSaved ≤ 2 :=
  framing_over_runs ⟨rfl, rfl, rfl, rfl⟩ _

/-! ## Packets behind the twelfth byte -/

/-- One interrupt on an open tty, with the bytes accepted into the ring so far. -/
def rcvStep (tty : T) : Ldisc T × List UInt8 → List UInt8 → Option (Ldisc T × List UInt8)
  | (s, accepted), cp => do
      let (_, c) ← tuxctlLdiscStore s tty cp
      let t ← tuxctlLdiscRcvBuf s tty cp
      some (t, accepted ++ cp.take c)

/-- The bytes before the callback of an interrupt that brings `cp`: those it kept, those
queued and those accepted. -/
def pending (tty : T) (s : Ldisc T) (cp : List UInt8) : List UInt8 :=
  carried s ++ ((s.discData tty).map fun data =>
    data.rx.contents ++ cp.take data.rx.room).getD []

/-- No complete packet of the pending bytes reaches behind the first twelve. -/
def withinTwelve (tty : T) (s : Ldisc T) (cp : List UInt8) : Prop :=
  packets framed (pending tty s cp) = packets framed ((pending tty s cp).take 12)

omit [DecidableEq T] in
/-- Every complete packet accepted so far has been handled. -/
def Prompt (p : Ldisc T × List UInt8) : Prop :=
  packetsHandled p.1 = packets framed p.2

/-- The accepted bytes are the handed ones and those still queued. -/
structure ReceiveInv (tty : T) (p : Ldisc T × List UInt8) : Prop where
  framing : FramingInv tty p.1
  accepted : ∀ data, p.1.discData tty = some data → p.2 = p.1.handed tty ++ data.rx.contents

/-- **The step lemma**: an interrupt leaves no complete packet behind exactly if none
reached behind the twelfth pending byte. -/
theorem rcvStep_spec {tty : T} {p : Ldisc T × List UInt8} (hp : ReceiveInv tty p)
    (cp : List UInt8) :
    ∃ q, rcvStep tty p cp = some q ∧ ReceiveInv tty q ∧
      (Prompt q ↔ withinTwelve tty p.1 cp) := by
  obtain ⟨s, accepted⟩ := p
  obtain ⟨data, hdata⟩ := Option.isSome_iff_exists.mp hp.framing.isOpen
  have hopen : s.discData tty = some data := hdata
  have hacc : accepted = s.handed tty ++ data.rx.contents := hp.accepted data hopen
  obtain ⟨rx, hstore, hrx⟩ := store_spec hopen cp
  let stored := s.setData tty (some { data with rx := rx })
  have hstored : stored.discData tty = some { data with rx := rx } := by
    simp [stored, Ldisc.setData]
  obtain ⟨t, hcall, ht⟩ := dataCallback_spec hstored hp.framing.nSaved_le
  have hframing : FramingInv tty stored :=
    ⟨by simp [hstored], hp.framing.nSaved_le, hp.framing.carried_eq, hp.framing.handled_eq⟩
  have htake : cp.take (min data.rx.room cp.length) = cp.take data.rx.room := by
    rw [List.take_eq_take_iff]
    omega
  refine ⟨(t, accepted ++ cp.take data.rx.room), ?_, ⟨framingInv_callback hframing ht, ?_⟩, ?_⟩
  · simp only [rcvStep, tuxctlLdiscRcvBuf, hstore, Option.bind_eq_bind, Option.bind_some, htake]
    exact congrArg (Option.bind · _) hcall
  · intro data' hdata'
    obtain ⟨rx', hrx', hqueue⟩ := ht.opened
    obtain rfl := Option.some.inj (hrx'.symm.trans hdata')
    rw [ht.handed, hqueue, List.append_assoc, List.take_append_drop, hacc, hrx,
      List.append_assoc]
    rfl
  · have hpending : pending tty s cp = carried s ++ rx.contents := by
      simp [pending, hopen, hrx]
    have htwelve : (pending tty s cp).take 12 = carried s ++ rx.contents.take (12 - s.nSaved) := by
      have hlen : (carried s).length = s.nSaved := length_carried hp.framing.nSaved_le
      have hn : s.nSaved ≤ 2 := hp.framing.nSaved_le
      rw [hpending, List.take_append, List.take_of_length_le (by omega), hlen]
    have hdone : packetsHandled t = packets framed (s.handed tty) ++
        packets framed (carried s ++ rx.contents.take (12 - s.nSaved)) := by
      rw [(framingInv_callback hframing ht).handled_eq, ht.handed, packets_append,
        ← hframing.carried_eq]
      rfl
    have hall : packets framed (accepted ++ cp.take data.rx.room) =
        packets framed (s.handed tty) ++ packets framed (carried s ++ rx.contents) := by
      rw [hacc, List.append_assoc, ← hrx, packets_append, ← hp.framing.carried_eq]
    unfold Prompt withinTwelve
    rw [hdone, hall, htwelve, hpending, List.append_right_inj]
    exact eq_comm

/-- The property of an interrupt that `Prompt` holds when it returns. -/
def promptAfter (tty : T) (p : Ldisc T × List UInt8) (cp : List UInt8) : Prop :=
  ∀ q, rcvStep tty p cp = some q → Prompt q

/-- **Promptness over whole runs.**  From a fresh stream over an empty ring, no sequence
of interrupts faults, and every one of them returns with every complete accepted packet
handled exactly if every one found no complete packet behind the twelfth pending byte. -/
theorem prompt_iff_withinTwelve {tty : T} {s : Ldisc T} (hstart : StreamStart tty s)
    (hempty : ∀ data, s.discData tty = some data → data.rx.contents = [])
    (chunks : List (List UInt8)) :
    (∃ q, run (rcvStep tty) (s, []) chunks = some q ∧ ReceiveInv tty q) ∧
      (everyStep (rcvStep tty) (promptAfter tty) (s, []) chunks ↔
        everyStep (rcvStep tty) (fun p cp => withinTwelve tty p.1 cp) (s, []) chunks) := by
  have hinv : ReceiveInv tty (s, []) := by
    refine ⟨hstart.framingInv, fun data hdata => ?_⟩
    simp [hempty data hdata, hstart.handed]
  constructor
  · refine run_total (fun p cp hp _ => ?_) hinv fun cp _ => trivial
    obtain ⟨q, hstep, hq, -⟩ := rcvStep_spec hp cp
    exact ⟨q, hstep, hq⟩
  · refine everyStep_congr (fun p cp q hp _ hstep => ?_) (fun p cp hp => ?_) hinv
    · obtain ⟨q', hstep', hq', -⟩ := rcvStep_spec hp cp
      obtain rfl := Option.some.inj (hstep'.symm.trans hstep)
      exact hq'
    · obtain ⟨q', hstep', -, hiff⟩ := rcvStep_spec hp cp
      rw [← hiff]
      constructor
      · intro h
        exact h q' hstep'
      · intro h q hstep
        obtain rfl := Option.some.inj (hstep'.symm.trans hstep)
        exact h

theorem prompt_iff_withinTwelve_freshStream :
    (∃ q, run (rcvStep ()) (freshStream, []) [[0x10], [0x80, 0x81]] = some q ∧
      ReceiveInv () q) ∧
      (everyStep (rcvStep ()) (promptAfter ()) (freshStream, []) [[0x10], [0x80, 0x81]] ↔
        everyStep (rcvStep ()) (fun p cp => withinTwelve () p.1 cp) (freshStream, [])
          [[0x10], [0x80, 0x81]]) :=
  prompt_iff_withinTwelve ⟨rfl, rfl, rfl, rfl⟩ (by decide) _

/-- Five packets in one chunk: the fifth is not handled when the interrupt returns. -/
theorem fifth_packet_waits :
    ∃ q, rcvStep () (freshStream, []) ((List.replicate 5 [0x10, 0x80, 0x81]).flatten) = some q ∧
      (packets framed q.2).length = 5 ∧ (packetsHandled q.1).length = 4 ∧ ¬ Prompt q := by
  refine ⟨_, rfl, ?_, ?_, ?_⟩
  · decide
  · decide
  · unfold Prompt
    decide

end MachineProblems.Analysis.Receive
