import MachineProblems.Analysis.Receive
import MachineProblems.Model.Receiver

/-!
# Sessions of the line discipline

A session of a tty lasts from a `tuxctl_ldisc_open` to the next `tuxctl_ldisc_close`.  The bytes
the callback keeps are the module's and outlive both, so a session starts with whatever another
left.  As long as every callback finds nothing kept by another session, each session's packets are
those of a module that has been opened for the first time; and for the next session it is decided
when it opens: some stream tells it from a first one exactly if bytes are kept.
-/

set_option autoImplicit false

namespace MachineProblems.Analysis.Receive

open MachineProblems.Library MachineProblems.Library.FrameScanner
open MachineProblems.Program.LineDiscipline
open MachineProblems.Model (Receiver)

variable {T : Type} [DecidableEq T]

/-! ## The callback is the receiver -/

/-- The tty's end of the module is the receiver. -/
structure Ends (s : Ldisc T) (tty : T) (r : Receiver) : Prop where
  opened : ∃ data, s.discData tty = some data ∧ data.rx.contents = r.queue
  kept : carried s = r.kept
  nSaved : s.nSaved ≤ 2

/-- A callback leaves the other ttys alone. -/
theorem dataCallback_other {s t : Ldisc T} {tty u : T} (hu : u ≠ tty)
    (h : tuxctlLdiscDataCallback s tty = some t) : t.discData u = s.discData u := by
  unfold tuxctlLdiscDataCallback at h
  obtain ⟨kept, -, h⟩ := Option.bind_eq_some_iff.mp h
  obtain ⟨⟨s₁, got⟩, hget, h⟩ := Option.bind_eq_some_iff.mp h
  have hother : s₁.discData u = s.discData u := by
    obtain ⟨data, -, hget⟩ := Option.bind_eq_some_iff.mp hget
    obtain ⟨rfl, -⟩ := Prod.mk.inj (Option.some.inj hget)
    exact Function.update_of_ne hu _ _
  dsimp only at h
  split_ifs at h
  · cases h
  obtain ⟨⟨i, out⟩, -, h⟩ := Option.bind_eq_some_iff.mp h
  obtain ⟨saved, -, h⟩ := Option.bind_eq_some_iff.mp h
  obtain rfl := Option.some.inj h
  exact hother

/-- What an interrupt on one tty does to the module, for the receiver that is the tty's end. -/
structure Received (s t : Ldisc T) (tty : T) (r : Receiver) (cp : List UInt8) : Prop where
  ends : Ends t tty (r.receive cp).1
  handled : t.handled = s.handled ++ (r.receive cp).2.map fun p => (tty, p)
  others : ∀ u, u ≠ tty → t.discData u = s.discData u

/-- **An interrupt is a chunk received.** -/
theorem rcvBuf_received {s : Ldisc T} {tty : T} {r : Receiver} (h : Ends s tty r)
    (cp : List UInt8) : ∃ t, tuxctlLdiscRcvBuf s tty cp = some t ∧ Received s t tty r cp := by
  obtain ⟨⟨data, hopen, hqueue⟩, hkept, hn⟩ := h
  obtain ⟨rx, hstore, hrx⟩ := store_spec hopen cp
  let stored := s.setData tty (some { data with rx := rx })
  have hstored : stored.discData tty = some { data with rx := rx } := by
    simp [stored, Ldisc.setData]
  obtain ⟨t, hcall, ht⟩ := dataCallback_spec hstored hn
  have hlength : r.kept.length = s.nSaved := by rw [← hkept, length_carried hn]
  have hroom : data.rx.room = bufsize - r.queue.length - 1 := by
    rw [← hqueue, Ring.length_contents]
    rfl
  have hcontents : rx.contents = r.queue ++ cp.take (bufsize - r.queue.length - 1) := by
    rw [hrx, hqueue, hroom]
  have hbytes : carried stored ++ rx.contents.take (12 - stored.nSaved) =
      r.kept ++ (r.queue ++ cp.take (bufsize - r.queue.length - 1)).take (12 - r.kept.length) := by
    rw [hlength, ← hcontents, ← hkept]
    rfl
  refine ⟨t, ?_, ⟨?_, ?_, ht.nSaved⟩, ?_, ?_⟩
  · simp only [tuxctlLdiscRcvBuf, hstore]
    exact hcall
  · obtain ⟨rx', hdata, hdrop⟩ := ht.opened
    refine ⟨_, hdata, ?_⟩
    show rx'.contents = _
    rw [hdrop, Receiver.receive, ← hcontents, hlength]
    rfl
  · rw [ht.carried, hbytes]
    rfl
  · rw [ht.handled, hbytes]
    rfl
  · intro u hu
    rw [dataCallback_other hu hcall]
    exact Function.update_of_ne hu _ _

/-- An interrupt on a tty that is not open does nothing. -/
theorem rcvBuf_closed {s : Ldisc T} {tty : T} (h : s.discData tty = none) (cp : List UInt8) :
    tuxctlLdiscRcvBuf s tty cp = some s := by
  simp only [tuxctlLdiscRcvBuf, tuxctlLdiscStore, h]
  rfl

/-! ## The packets of a stream -/

/-- The packets handled between two states. -/
def packetsSince (s t : Ldisc T) : List Packet := (t.handled.drop s.handled.length).map Prod.snd

omit [DecidableEq T] in
theorem packetsSince_of_append {s t : Ldisc T} {more : List (T × Packet)}
    (h : t.handled = s.handled ++ more) : packetsSince s t = more.map Prod.snd := by
  rw [packetsSince, h, List.drop_left]

/-- The packets handled for a sequence of chunks received on one tty. -/
def streamPackets (s : Ldisc T) (tty : T) (chunks : List (List UInt8)) : Option (List Packet) :=
  (run (fun s cp => tuxctlLdiscRcvBuf s tty cp) s chunks).map (packetsSince s)

/-- The packets handled for a sequence of chunks after a first open. -/
def firstPackets (chunks : List (List UInt8)) : Option (List Packet) :=
  streamPackets freshStream () chunks

theorem streamPackets_eq {s : Ldisc T} {tty : T} {r : Receiver} (h : Ends s tty r)
    (chunks : List (List UInt8)) : streamPackets s tty chunks = some (r.receiveAll chunks) := by
  have hrun : ∃ t, run (fun s cp => tuxctlLdiscRcvBuf s tty cp) s chunks = some t ∧
      t.handled = s.handled ++ (r.receiveAll chunks).map fun p => (tty, p) := by
    induction chunks generalizing s r with
    | nil => exact ⟨s, rfl, (List.append_nil _).symm⟩
    | cons cp chunks ih =>
        obtain ⟨u, hstep, hends, hhandled, -⟩ := rcvBuf_received h cp
        obtain ⟨t, hrest, hmore⟩ := ih hends
        refine ⟨t, by simp [hstep, hrest], ?_⟩
        rw [hmore, hhandled, Receiver.receiveAll, List.map_append, List.append_assoc]
  obtain ⟨t, hrun, hhandled⟩ := hrun
  rw [streamPackets, hrun, Option.map_some, packetsSince_of_append hhandled, List.map_map]
  exact congrArg some (List.map_id _)

theorem firstPackets_eq (chunks : List (List UInt8)) :
    firstPackets chunks = some (Receiver.fresh.receiveAll chunks) := by
  apply streamPackets_eq
  exact ⟨⟨_, rfl, by decide⟩, rfl, by decide⟩

/-! ## Sessions -/

/-- The module, the chunks received in every open session with the packets handled for them, and
the tty whose open session ran the last callback. -/
structure Sessions (T : Type) where
  ldisc : Ldisc T
  session : T → Option (List (List UInt8) × List Packet)
  owner : Option T

/-- The calls of the line discipline; an open allocates its buffers or fails to. -/
inductive LdiscOp (T : Type) where
  | openTty (tty : T) (kmalloc : Option (Vector UInt8 bufsize × Vector UInt8 bufsize))
  | closeTty (tty : T)
  | receive (tty : T) (cp : List UInt8)

/-- The session of `tty` becomes `session`, and no longer owns the bytes kept. -/
def Sessions.restart (p : Sessions T) (tty : T) (ldisc : Ldisc T)
    (session : Option (List (List UInt8) × List Packet)) : Sessions T :=
  ⟨ldisc, Function.update p.session tty session, if p.owner = some tty then none else p.owner⟩

/-- One call. -/
def Sessions.step (p : Sessions T) : LdiscOp T → Option (Sessions T)
  | .openTty tty kmalloc =>
      let (s, ret) := tuxctlLdiscOpen p.ldisc tty kmalloc
      if ret = 0 then some (p.restart tty s (some ([], []))) else some { p with ldisc := s }
  | .closeTty tty => some (p.restart tty (tuxctlLdiscClose p.ldisc tty) none)
  | .receive tty cp => do
      let s ← tuxctlLdiscRcvBuf p.ldisc tty cp
      match p.session tty with
      | none => some { p with ldisc := s }
      | some (chunks, handled) =>
          some ⟨s, Function.update p.session tty
            (some (chunks ++ [cp], handled ++ packetsSince p.ldisc s)), some tty⟩

/-- The module as it is loaded. -/
def loaded : Sessions T where
  ldisc := ⟨fun _ => none, Vector.replicate 2 0, 0, [], fun _ => [], fun _ => []⟩
  session := fun _ => none
  owner := none

/-- What holds of the module whatever is kept: the open ttys are those with a session. -/
structure Sound (p : Sessions T) : Prop where
  nSaved : p.ldisc.nSaved ≤ 2
  opened : ∀ tty, (p.ldisc.discData tty).isSome = (p.session tty).isSome

/-- **The call finds no foreign bytes**: a chunk received by a session that did not run the last
callback finds nothing kept. -/
def NothingForeign (p : Sessions T) : LdiscOp T → Prop
  | .receive tty _ => p.owner = some tty ∨ p.ldisc.nSaved = 0
  | _ => True

/-- Every session is where a receiver is that has received its chunks since it was fresh. -/
structure Clean (p : Sessions T) : Prop where
  sound : Sound p
  handled : ∀ tty chunks handled, p.session tty = some (chunks, handled) →
    handled = Receiver.fresh.receiveAll chunks
  queue : ∀ tty chunks handled data, p.session tty = some (chunks, handled) →
    p.ldisc.discData tty = some data → data.rx.contents = (Receiver.fresh.after chunks).queue
  kept : ∀ tty chunks handled, p.session tty = some (chunks, handled) →
    (Receiver.fresh.after chunks).kept = if p.owner = some tty then carried p.ldisc else []

omit [DecidableEq T] in
/-- An open tty is the end of some receiver. -/
theorem ends_of_opened {s : Ldisc T} {tty : T} {data : LdiscData} (hn : s.nSaved ≤ 2)
    (hopen : s.discData tty = some data) : Ends s tty ⟨carried s, data.rx.contents⟩ :=
  ⟨⟨data, hopen, rfl⟩, rfl, hn⟩

theorem contents_freshRing (cells : Vector UInt8 bufsize) : (freshRing cells).contents = [] := rfl

/-- **An open**: a fresh ring and a session in which nothing was received, or no change. -/
theorem step_openTty (p : Sessions T) (tty : T)
    (kmalloc : Option (Vector UInt8 bufsize × Vector UInt8 bufsize)) :
    p.step (.openTty tty kmalloc) = some p ∨ ∃ data : LdiscData, data.rx.contents = [] ∧
      p.step (.openTty tty kmalloc) =
        some (p.restart tty (p.ldisc.setData tty (some data)) (some ([], []))) := by
  cases kmalloc with
  | none => exact .inl rfl
  | some buffers =>
      obtain ⟨rxBuf, txBuf⟩ := buffers
      exact .inr ⟨⟨freshRing rxBuf, freshRing txBuf⟩, contents_freshRing rxBuf, rfl⟩

theorem restart_sound {p : Sessions T} (h : Sound p) (tty : T) {data : Option LdiscData}
    {session : Option (List (List UInt8) × List Packet)} (hsome : data.isSome = session.isSome) :
    Sound (p.restart tty (p.ldisc.setData tty data) session) := by
  refine ⟨h.nSaved, fun u => ?_⟩
  by_cases hu : u = tty
  · subst hu
    simp only [Sessions.restart, Ldisc.setData, Function.update_self]
    exact hsome
  · simp only [Sessions.restart, Ldisc.setData, Function.update_of_ne hu]
    exact h.opened u

/-- The receive step of an open session. -/
theorem step_receive {p : Sessions T} {tty : T} {chunks : List (List UInt8)}
    {handled : List Packet} (hsession : p.session tty = some (chunks, handled)) {r : Receiver}
    (h : Ends p.ldisc tty r) (cp : List UInt8) : ∃ t, Received p.ldisc t tty r cp ∧
      p.step (.receive tty cp) = some ⟨t, Function.update p.session tty
        (some (chunks ++ [cp], handled ++ (r.receive cp).2)), some tty⟩ := by
  obtain ⟨t, hrcv, hreceived⟩ := rcvBuf_received h cp
  have hsince : packetsSince p.ldisc t = (r.receive cp).2 := by
    rw [packetsSince_of_append hreceived.handled, List.map_map]
    exact List.map_id _
  refine ⟨t, hreceived, ?_⟩
  simp only [Sessions.step, hrcv, hsession, hsince, Option.bind_eq_bind, Option.bind_some]

/-- On a tty that is not open it does nothing. -/
theorem step_receive_closed {p : Sessions T} (h : Sound p) {tty : T}
    (hsession : p.session tty = none) (cp : List UInt8) :
    p.step (.receive tty cp) = some p := by
  have hclosed : p.ldisc.discData tty = none := by
    have hsome := h.opened tty
    rw [hsession] at hsome
    exact Option.isSome_eq_false_iff.mp hsome |> Option.isNone_iff_eq_none.mp
  simp only [Sessions.step, rcvBuf_closed hclosed, hsession, Option.bind_eq_bind, Option.bind_some]

omit [DecidableEq T] in
/-- The tty of an open session is open. -/
theorem Sound.data {p : Sessions T} (h : Sound p) {tty : T}
    {session : List (List UInt8) × List Packet} (hsession : p.session tty = some session) :
    ∃ data, p.ldisc.discData tty = some data := by
  have hsome := h.opened tty
  rw [hsession] at hsome
  exact Option.isSome_iff_exists.mp hsome

/-- **No call faults.** -/
theorem sound_step {p : Sessions T} (h : Sound p) (op : LdiscOp T) :
    ∃ q, p.step op = some q ∧ Sound q := by
  cases op with
  | openTty tty kmalloc =>
      obtain hsame | ⟨data, -, hopen⟩ := step_openTty p tty kmalloc
      · exact ⟨p, hsame, h⟩
      · exact ⟨_, hopen, restart_sound h tty rfl⟩
  | closeTty tty => exact ⟨_, rfl, restart_sound h tty rfl⟩
  | receive tty cp =>
      cases hsession : p.session tty with
      | none => exact ⟨p, step_receive_closed h hsession cp, h⟩
      | some session =>
          obtain ⟨chunks, handled⟩ := session
          obtain ⟨data, hdata⟩ := h.data hsession
          obtain ⟨t, hreceived, hstep⟩ := step_receive hsession (ends_of_opened h.nSaved hdata) cp
          refine ⟨_, hstep, hreceived.ends.nSaved, fun u => ?_⟩
          by_cases hu : u = tty
          · subst hu
            obtain ⟨data', hdata', -⟩ := hreceived.ends.opened
            simp [hdata']
          · simp only [hreceived.others u hu, Function.update_of_ne hu]
            exact h.opened u

theorem restart_clean {p : Sessions T} (h : Clean p) (tty : T) {data : Option LdiscData}
    {session : Option (List (List UInt8) × List Packet)} (hsome : data.isSome = session.isSome)
    (hempty : ∀ d, data = some d → d.rx.contents = [])
    (hfresh : ∀ s, session = some s → s = ([], [])) :
    Clean (p.restart tty (p.ldisc.setData tty data) session) := by
  have hsession : ∀ u chunks handled,
      (p.restart tty (p.ldisc.setData tty data) session).session u = some (chunks, handled) →
      (u = tty ∧ chunks = [] ∧ handled = []) ∨
        (u ≠ tty ∧ p.session u = some (chunks, handled)) := by
    intro u chunks handled hu
    by_cases heq : u = tty
    · subst heq
      simp only [Sessions.restart, Function.update_self] at hu
      obtain ⟨rfl, rfl⟩ := Prod.mk.inj (hfresh _ hu)
      exact .inl ⟨rfl, rfl, rfl⟩
    · simp only [Sessions.restart, Function.update_of_ne heq] at hu
      exact .inr ⟨heq, hu⟩
  constructor
  · exact restart_sound h.sound tty hsome
  · intro u chunks handled hu
    obtain ⟨-, rfl, rfl⟩ | ⟨-, hold⟩ := hsession u chunks handled hu
    · rfl
    · exact h.handled u chunks handled hold
  · intro u chunks handled d hu hd
    obtain ⟨rfl, rfl, -⟩ | ⟨hne, hold⟩ := hsession u chunks handled hu
    · simp only [Sessions.restart, Ldisc.setData, Function.update_self] at hd
      exact hempty d hd
    · simp only [Sessions.restart, Ldisc.setData, Function.update_of_ne hne] at hd
      exact h.queue u chunks handled d hold hd
  · intro u chunks handled hu
    have hcarried : carried (p.ldisc.setData tty data) = carried p.ldisc := rfl
    obtain ⟨rfl, rfl, -⟩ | ⟨hne, hold⟩ := hsession u chunks handled hu
    · have hnot : (p.restart u (p.ldisc.setData u data) session).owner ≠ some u := by
        simp only [Sessions.restart]
        split_ifs with howner
        · exact (Option.some_ne_none u).symm
        · exact howner
      rw [if_neg hnot]
      rfl
    · have howner : (p.restart tty (p.ldisc.setData tty data) session).owner = some u ↔
          p.owner = some u := by
        simp only [Sessions.restart]
        split_ifs with htty
        · rw [htty]
          exact iff_of_false not_false fun heq => hne (Option.some.inj heq).symm
        · rfl
      simp only [howner]
      exact h.kept u chunks handled hold

/-- After a chunk the session that received it owns the bytes kept, and no other misses any. -/
theorem receive_clean {p : Sessions T} (h : Clean p) {tty : T} {chunks : List (List UInt8)}
    {handled : List Packet} {cp : List UInt8} {t : Ldisc T}
    (hsession : p.session tty = some (chunks, handled))
    (hzero : p.ldisc.nSaved = 0 → carried p.ldisc = [])
    (hop : p.owner = some tty ∨ p.ldisc.nSaved = 0)
    (ht : Received p.ldisc t tty (Receiver.fresh.after chunks) cp) :
    Clean (⟨t, Function.update p.session tty
      (some (chunks ++ [cp], handled ++ ((Receiver.fresh.after chunks).receive cp).2)),
      some tty⟩ : Sessions T) := by
  have hcases : ∀ u chunks' handled', Function.update p.session tty
      (some (chunks ++ [cp], handled ++ ((Receiver.fresh.after chunks).receive cp).2)) u =
        some (chunks', handled') →
      (u = tty ∧ chunks' = chunks ++ [cp] ∧
        handled' = handled ++ ((Receiver.fresh.after chunks).receive cp).2) ∨
      (u ≠ tty ∧ p.session u = some (chunks', handled')) := by
    intro u chunks' handled' hu
    by_cases heq : u = tty
    · subst heq
      rw [Function.update_self] at hu
      obtain ⟨rfl, rfl⟩ := Prod.mk.inj (Option.some.inj hu)
      exact .inl ⟨rfl, rfl, rfl⟩
    · rw [Function.update_of_ne heq] at hu
      exact .inr ⟨heq, hu⟩
  obtain ⟨data, hdata, hqueue⟩ := ht.ends.opened
  constructor
  · refine ⟨ht.ends.nSaved, fun u => ?_⟩
    by_cases hu : u = tty
    · subst hu
      simp [hdata]
    · simp only [ht.others u hu, Function.update_of_ne hu]
      exact h.sound.opened u
  · intro u chunks' handled' hu
    obtain ⟨-, rfl, rfl⟩ | ⟨-, hold⟩ := hcases u chunks' handled' hu
    · rw [Receiver.receiveAll_concat, h.handled tty chunks handled hsession]
    · exact h.handled u chunks' handled' hold
  · intro u chunks' handled' d hu hd
    obtain ⟨rfl, rfl, -⟩ | ⟨hne, hold⟩ := hcases u chunks' handled' hu
    · obtain rfl := Option.some.inj (hdata.symm.trans hd)
      rw [Receiver.after_concat]
      exact hqueue
    · exact h.queue u chunks' handled' d hold ((ht.others u hne).symm.trans hd)
  · intro u chunks' handled' hu
    obtain ⟨rfl, rfl, -⟩ | ⟨hne, hold⟩ := hcases u chunks' handled' hu
    · rw [if_pos rfl, Receiver.after_concat]
      exact ht.ends.kept.symm
    · have hnot : some tty ≠ some u := fun heq => hne (Option.some.inj heq).symm
      rw [if_neg hnot, h.kept u chunks' handled' hold]
      split_ifs with howner
      · -- the other tty owned the bytes kept, and there were none
        refine hzero (hop.resolve_left ?_)
        rw [howner]
        exact hnot.symm
      · rfl

/-- **A call that finds no foreign bytes** keeps every session at its receiver. -/
theorem clean_step {p q : Sessions T} {op : LdiscOp T} (h : Clean p) (hop : NothingForeign p op)
    (hstep : p.step op = some q) : Clean q := by
  cases op with
  | openTty tty kmalloc =>
      obtain hsame | ⟨data, hempty, hopen⟩ := step_openTty p tty kmalloc
      · obtain rfl := Option.some.inj (hsame.symm.trans hstep)
        exact h
      · obtain rfl := Option.some.inj (hopen.symm.trans hstep)
        refine restart_clean h tty rfl (fun d hd => ?_) fun s hs => (Option.some.inj hs).symm
        obtain rfl := Option.some.inj hd
        exact hempty
  | closeTty tty =>
      obtain rfl := Option.some.inj hstep
      exact restart_clean h tty rfl (fun d hd => by cases hd) fun s hs => by cases hs
  | receive tty cp =>
      cases hsession : p.session tty with
      | none =>
          rw [step_receive_closed h.sound hsession] at hstep
          obtain rfl := Option.some.inj hstep
          exact h
      | some session =>
          obtain ⟨chunks, handled⟩ := session
          obtain ⟨data, hdata⟩ := h.sound.data hsession
          have hzero : p.ldisc.nSaved = 0 → carried p.ldisc = [] := fun hn => by
            rw [carried, hn, List.take_zero]
          have hends : Ends p.ldisc tty (Receiver.fresh.after chunks) := by
            refine ⟨⟨data, hdata, h.queue tty chunks handled data hsession hdata⟩, ?_,
              h.sound.nSaved⟩
            rw [h.kept tty chunks handled hsession]
            split_ifs with howner
            · rfl
            · exact hzero (hop.resolve_left howner)
          obtain ⟨t, hreceived, hnext⟩ := step_receive hsession hends cp
          obtain rfl := Option.some.inj (hnext.symm.trans hstep)
          exact receive_clean h hsession hzero hop hreceived

theorem clean_loaded : Clean (loaded : Sessions T) := by
  refine ⟨⟨Nat.zero_le 2, fun _ => rfl⟩, ?_, ?_, ?_⟩
  · intro tty chunks handled h
    cases h
  · intro tty chunks handled data h
    cases h
  · intro tty chunks handled h
    cases h

end MachineProblems.Analysis.Receive
