import MachineProblems.Program.LineDiscipline
import MachineProblems.Library.FrameScanner

/-!
# A receiver of packets

What one tty's end of the line discipline does with the chunks it receives, without rings, module
state and other ttys: it queues what there is room for, joins at most twelve bytes of the queue to
those it kept, emits their packets and keeps what the scanner leaves over.  The results are about
a receiver that starts with bytes kept from somewhere else: it is told from a fresh one by some
stream (`receiveAll_iff_nothingKept`), and as long as its chunks are short exactly by those streams
with which the foreign bytes begin a packet (`receiveAll_iff_not_begins`).
-/

set_option autoImplicit false

namespace MachineProblems.Model

open MachineProblems.Library.FrameScanner
open MachineProblems.Program.LineDiscipline (Packet bufsize framed)

/-- The bytes kept by the scanner, and those queued before it. -/
structure Receiver where
  kept : List UInt8
  queue : List UInt8

namespace Receiver

/-- Nothing kept, nothing queued. -/
def fresh : Receiver := ⟨[], []⟩

/-- One chunk: the receiver afterwards and the packets emitted. -/
def receive (r : Receiver) (cp : List UInt8) : Receiver × List Packet :=
  let queue := r.queue ++ cp.take (bufsize - r.queue.length - 1)
  let bytes := r.kept ++ queue.take (12 - r.kept.length)
  (⟨leftover framed bytes, queue.drop (12 - r.kept.length)⟩, packets framed bytes)

/-- The receiver after a sequence of chunks. -/
def after (r : Receiver) (chunks : List (List UInt8)) : Receiver :=
  chunks.foldl (fun r cp => (r.receive cp).1) r

/-- The packets emitted for a sequence of chunks. -/
def receiveAll : Receiver → List (List UInt8) → List Packet
  | _, [] => []
  | r, cp :: chunks => (r.receive cp).2 ++ (r.receive cp).1.receiveAll chunks

theorem receiveAll_concat (r : Receiver) (chunks : List (List UInt8)) (cp : List UInt8) :
    r.receiveAll (chunks ++ [cp]) = r.receiveAll chunks ++ ((r.after chunks).receive cp).2 := by
  induction chunks generalizing r with
  | nil => exact List.append_nil _
  | cons c chunks ih =>
      show _ ++ receiveAll _ (chunks ++ [cp]) = _ ++ receiveAll _ chunks ++ _
      rw [ih, List.append_assoc]
      rfl

theorem after_concat (r : Receiver) (chunks : List (List UInt8)) (cp : List UInt8) :
    r.after (chunks ++ [cp]) = ((r.after chunks).receive cp).1 := by
  rw [after, List.foldl_append]
  rfl

/-! ## Short chunks -/

/-- A chunk of at most ten bytes never waits in the queue. -/
theorem receive_short {kept cp : List UInt8} (hkept : kept.length ≤ 2) (hcp : cp.length ≤ 10) :
    receive ⟨kept, []⟩ cp =
      (⟨leftover framed (kept ++ cp), []⟩, packets framed (kept ++ cp)) := by
  have hroom : cp.take (bufsize - 0 - 1) = cp := List.take_of_length_le (by simp [bufsize]; omega)
  have htake : cp.take (12 - kept.length) = cp := List.take_of_length_le (by omega)
  have hdrop : cp.drop (12 - kept.length) = [] := List.drop_eq_nil_of_le (by omega)
  simp only [receive, List.nil_append, List.length_nil, hroom, htake, hdrop]

/-- **Short chunks** are scanned as one stream, behind the bytes kept. -/
theorem receiveAll_short {chunks : List (List UInt8)} (hshort : ∀ cp ∈ chunks, cp.length ≤ 10)
    {kept : List UInt8} (hkept : kept.length ≤ 2) :
    receiveAll ⟨kept, []⟩ chunks = packets framed (kept ++ chunks.flatten) := by
  induction chunks generalizing kept with
  | nil =>
      rw [List.flatten_nil, List.append_nil, packets_of_short framed hkept]
      rfl
  | cons cp chunks ih =>
      rw [receiveAll, receive_short hkept (hshort cp List.mem_cons_self),
        ih (fun c hc => hshort c (List.mem_cons_of_mem _ hc)) (length_leftover_le framed _),
        List.flatten_cons, ← List.append_assoc, packets_append framed (kept ++ cp)]

/-! ## Foreign bytes -/

/-- A byte that starts a packet has its first bit clear, the others have it set. -/
theorem framed_bits {a b c : UInt8} (h : framed a b c = true) :
    a &&& 0x80 = 0 ∧ b &&& 0x80 ≠ 0 ∧ c &&& 0x80 ≠ 0 := by
  simpa [framed, and_assoc] using h

/-- No packet starts with a byte that can follow another in a packet. -/
theorem packets_cons_high {b : UInt8} (hb : b &&& 0x80 ≠ 0) (rest : List UInt8) :
    packets framed (b :: rest) = packets framed rest := by
  match rest with
  | [] => rfl
  | [_] => rfl
  | c :: d :: rest =>
      have hnot : framed b c d = false := by
        by_contra h
        exact hb (framed_bits ((Bool.not_eq_false _).mp h)).1
      rw [packets, hnot]
      rfl

/-- The byte starts a packet in front of the stream. -/
def starts (a : UInt8) : List UInt8 → Bool
  | b :: c :: _ => framed a b c
  | _ => false

/-- One byte more in front: a packet more exactly if it starts one. -/
theorem packets_cons (a : UInt8) (rest : List UInt8) :
    ∃ more, packets framed (a :: rest) = more ++ packets framed rest ∧
      more.length = if starts a rest then 1 else 0 := by
  match rest with
  | [] => exact ⟨[], rfl, rfl⟩
  | [_] => exact ⟨[], rfl, rfl⟩
  | b :: c :: rest =>
      by_cases h : framed a b c = true
      · obtain ⟨-, hb, hc⟩ := framed_bits h
        refine ⟨[(a, b, c)], ?_, by rw [starts, if_pos h]; rfl⟩
        rw [packets, if_pos h, packets_cons_high hb, packets_cons_high hc]
        rfl
      · refine ⟨[], ?_, by rw [starts, if_neg h]; rfl⟩
        rw [packets, if_neg h]
        rfl

/-- A packet begins in the first part of a stream. -/
def Begins (kept stream : List UInt8) : Prop :=
  ∃ before a after, kept = before ++ a :: after ∧ starts a (after ++ stream) = true

theorem begins_cons (a : UInt8) (kept stream : List UInt8) :
    Begins (a :: kept) stream ↔ starts a (kept ++ stream) = true ∨ Begins kept stream := by
  constructor
  · rintro ⟨before, b, after, heq, hstarts⟩
    cases before with
    | nil =>
        obtain ⟨rfl, rfl⟩ := List.cons.inj heq
        exact .inl hstarts
    | cons x before =>
        obtain ⟨-, htail⟩ := List.cons.inj heq
        exact .inr ⟨before, b, after, htail, hstarts⟩
  · rintro (hstarts | ⟨before, b, after, rfl, hstarts⟩)
    · exact ⟨[], a, kept, rfl, hstarts⟩
    · exact ⟨a :: before, b, after, rfl, hstarts⟩

/-- Bytes in front of a stream only add packets, and none exactly if no packet begins in them. -/
theorem packets_append_kept (kept stream : List UInt8) :
    ∃ more, packets framed (kept ++ stream) = more ++ packets framed stream ∧
      (more = [] ↔ ¬ Begins kept stream) := by
  induction kept with
  | nil =>
      refine ⟨[], rfl, iff_of_true rfl ?_⟩
      rintro ⟨before, a, after, heq, -⟩
      exact absurd heq (by simp)
  | cons a kept ih =>
      obtain ⟨more, hmore, hnil⟩ := ih
      obtain ⟨first, hfirst, hlength⟩ := packets_cons a (kept ++ stream)
      refine ⟨first ++ more, ?_, ?_⟩
      · rw [List.cons_append, hfirst, hmore, List.append_assoc]
      · rw [List.append_eq_nil_iff, hnil, begins_cons, not_or, ← List.length_eq_zero_iff, hlength]
        refine and_congr_left' ?_
        split_ifs with h <;> simp [h]

/-- **Foreign bytes and short chunks**: a receiver that kept bytes from somewhere else emits the
packets of a fresh one exactly if no packet begins in those bytes. -/
theorem receiveAll_iff_not_begins {chunks : List (List UInt8)}
    (hshort : ∀ cp ∈ chunks, cp.length ≤ 10) {kept : List UInt8} (hkept : kept.length ≤ 2) :
    receiveAll ⟨kept, []⟩ chunks = fresh.receiveAll chunks ↔ ¬ Begins kept chunks.flatten := by
  have hfresh : fresh.receiveAll chunks = packets framed chunks.flatten :=
    receiveAll_short hshort (Nat.zero_le 2)
  obtain ⟨more, hmore, hnil⟩ := packets_append_kept kept chunks.flatten
  rw [receiveAll_short hshort hkept, hfresh, hmore, ← hnil]
  exact List.append_left_eq_self

/-- Twelve bytes that are four packets. -/
def fourPackets : List UInt8 := (List.replicate 4 [0x00, 0x80, 0x80]).flatten

/-- No packet begins in front of a byte that starts one. -/
theorem not_begins_low {kept : List UInt8} (hkept : kept.length ≤ 2) (b : UInt8)
    (rest : List UInt8) : ¬ Begins kept (0x00 :: b :: rest) := by
  have hnil : ¬ Begins [] (0x00 :: b :: rest) := by
    rintro ⟨before, a, after, heq, -⟩
    exact absurd heq (by simp)
  match kept, hkept with
  | [], _ => exact hnil
  | [x], _ =>
      rw [begins_cons, not_or]
      exact ⟨by simp [starts, framed], hnil⟩
  | [x, y], _ =>
      rw [begins_cons, begins_cons, not_or, not_or]
      exact ⟨by simp [starts, framed], by simp [starts, framed], hnil⟩

/-- **Foreign bytes and any stream**: a receiver that kept bytes from somewhere else emits the
packets of a fresh one, whatever it receives, exactly if it kept none. -/
theorem receiveAll_iff_nothingKept {kept : List UInt8} (hkept : kept.length ≤ 2) :
    (∀ chunks, receiveAll ⟨kept, []⟩ chunks = fresh.receiveAll chunks) ↔ kept = [] := by
  constructor
  · intro h
    by_contra hne
    have hpos : 1 ≤ kept.length := List.length_pos_iff.mpr hne
    -- the kept bytes take the place of the end of the fourth packet
    have hchunk : receiveAll ⟨kept, []⟩ [fourPackets] =
        packets framed (kept ++ fourPackets.take (12 - kept.length)) := by
      rw [receiveAll, receiveAll, List.append_nil]
      rfl
    obtain ⟨more, hmore, hnil⟩ :=
      packets_append_kept kept (fourPackets.take (12 - kept.length))
    have hthree : (packets framed (fourPackets.take (12 - kept.length))).length = 3 := by
      rcases (by omega : kept.length = 1 ∨ kept.length = 2) with hlength | hlength
      · rw [hlength]; decide
      · rw [hlength]; decide
    have hnone : more = [] := by
      rw [hnil]
      rcases (by omega : kept.length = 1 ∨ kept.length = 2) with hlength | hlength
      · rw [hlength]; exact not_begins_low hkept _ _
      · rw [hlength]; exact not_begins_low hkept _ _
    have hfour : (fresh.receiveAll [fourPackets]).length = 4 := by decide
    rw [← h [fourPackets], hchunk, hmore, hnone, List.nil_append, hthree] at hfour
    exact absurd hfour (by decide)
  · rintro rfl chunks
    rfl

end Receiver

end MachineProblems.Model
