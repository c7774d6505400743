import MachineProblems.Library.Run
import MachineProblems.Model.Mtcp
import MachineProblems.Program.Transmission
import Mathlib.Data.List.Count
import Mathlib.Data.List.Perm.Basic

/-!
# A sender with many hands

The transmit path of the line discipline without rings and ttys: a bounded queue, the calls that
fill and drain it, and the wire.  Between its drain and its write a call has bytes in hand that are
neither queued nor on the wire.  Whatever the calls do, the wire, the hands and the queue together
hold no byte twice (`Sender.count_turned`); the results about runs are built on what one turn does.
-/

set_option autoImplicit false

namespace MachineProblems.Model

open MachineProblems.Library
open MachineProblems.Program.LineDiscipline (bufsize)
open MachineProblems.Program.Transmission
open MachineProblems.Model.Mtcp (Commands)

/-- The bytes queued, the bytes on the wire, the calls and the bytes accepted so far. -/
structure Sender where
  queue : List UInt8
  wire : List UInt8
  places : List Place
  accepted : List UInt8

namespace Sender

/-- What the queue takes of a put. -/
def stored (s : Sender) (buf : List UInt8) : List UInt8 := buf.take (bufsize - s.queue.length - 1)

/-- One turn. -/
def step (s : Sender) : CallTurn → Option Sender
  | .put buf => some { s with places := s.places ++ [.fill buf] }
  | .wakeup => some { s with places := s.places ++ [.ask] }
  | .go i k => do
      match ← s.places[i]? with
      | .fill buf =>
          some ⟨s.queue ++ s.stored buf, s.wire, s.places.set i .ask, s.accepted ++ s.stored buf⟩
      | .ask => some { s with places := s.places.set i (.drain k) }
      | .drain room =>
          some { s with
            queue := s.queue.drop (room + 1)
            places := s.places.set i (.write (s.queue.take (room + 1))) }
      | .write buf =>
          some { s with wire := s.wire ++ buf.take k, places := s.places.set i .done }
      | .done => none

/-- The bytes that a call has in hand. -/
def inHand : Place → List UInt8
  | .write buf => buf
  | _ => []

/-- The bytes in hand of all calls. -/
def hands (s : Sender) : List UInt8 := s.places.flatMap inHand

/-! ## What a turn does -/

/-- What a turn can do. -/
inductive Turned (s : Sender) : CallTurn → Sender → Prop
  | put (buf : List UInt8) : Turned s (.put buf) { s with places := s.places ++ [.fill buf] }
  | wakeup : Turned s .wakeup { s with places := s.places ++ [.ask] }
  | fill {i k : ℕ} {buf : List UInt8} : s.places[i]? = some (.fill buf) →
      Turned s (.go i k)
        ⟨s.queue ++ s.stored buf, s.wire, s.places.set i .ask, s.accepted ++ s.stored buf⟩
  | ask {i k : ℕ} : s.places[i]? = some .ask →
      Turned s (.go i k) { s with places := s.places.set i (.drain k) }
  | drain {i k room : ℕ} : s.places[i]? = some (.drain room) →
      Turned s (.go i k) { s with
        queue := s.queue.drop (room + 1)
        places := s.places.set i (.write (s.queue.take (room + 1))) }
  | write {i k : ℕ} {buf : List UInt8} : s.places[i]? = some (.write buf) →
      Turned s (.go i k) { s with
        wire := s.wire ++ buf.take k
        places := s.places.set i .done }

theorem turned {s t : Sender} {turn : CallTurn} (h : s.step turn = some t) : Turned s turn t := by
  cases turn with
  | put buf =>
      obtain rfl := Option.some.inj h
      exact .put buf
  | wakeup =>
      obtain rfl := Option.some.inj h
      exact .wakeup
  | go i k =>
      obtain ⟨place, hplace, h⟩ := Option.bind_eq_some_iff.mp h
      cases place with
      | fill buf =>
          obtain rfl := Option.some.inj h
          exact .fill hplace
      | ask =>
          obtain rfl := Option.some.inj h
          exact .ask hplace
      | drain room =>
          obtain rfl := Option.some.inj h
          exact .drain hplace
      | write buf =>
          obtain rfl := Option.some.inj h
          exact .write hplace
      | done => cases h

/-! ## Hands -/

/-- A call that goes on puts down what it had in hand and picks up what it has now. -/
theorem count_hands_set {places : List Place} {i : ℕ} {p : Place} (h : places[i]? = some p)
    (q : Place) (b : UInt8) :
    ((places.set i q).flatMap inHand).count b + (inHand p).count b =
      (places.flatMap inHand).count b + (inHand q).count b := by
  induction places generalizing i with
  | nil => simp at h
  | cons r places ih =>
      cases i with
      | zero =>
          obtain rfl := Option.some.inj h
          simp only [List.set_cons_zero, List.flatMap_cons, List.count_append]
          omega
      | succ i =>
          have hrest := ih h
          simp only [List.set_cons_succ, List.flatMap_cons, List.count_append]
          omega

/-- Nothing in hand before and after. -/
theorem hands_set_nil {places : List Place} {i : ℕ} {p q : Place} (h : places[i]? = some p)
    (hp : inHand p = []) (hq : inHand q = []) :
    (places.set i q).flatMap inHand = places.flatMap inHand := by
  induction places generalizing i with
  | nil => rfl
  | cons r places ih =>
      cases i with
      | zero =>
          obtain rfl := Option.some.inj h
          simp only [List.set_cons_zero, List.flatMap_cons, hp, hq]
      | succ i => simp only [List.set_cons_succ, List.flatMap_cons, ih h]

/-- No call but the `i`-th has anything in hand. -/
def Alone (places : List Place) (i : ℕ) : Prop :=
  ∀ j p, places[j]? = some p → inHand p ≠ [] → j = i

theorem hands_of_alone {places : List Place} {i : ℕ} {p : Place} (h : places[i]? = some p)
    (halone : Alone places i) : places.flatMap inHand = inHand p := by
  induction places generalizing i with
  | nil => simp at h
  | cons r places ih =>
      cases i with
      | zero =>
          obtain rfl := Option.some.inj h
          have hrest : places.flatMap inHand = [] := by
            rw [List.flatMap_eq_nil_iff]
            intro q hq
            obtain ⟨j, hj⟩ := List.getElem?_of_mem hq
            by_contra hne
            exact absurd (halone (j + 1) q hj hne) (Nat.succ_ne_zero j)
          rw [List.flatMap_cons, hrest, List.append_nil]
      | succ i =>
          have hfirst : inHand r = [] := by
            by_contra hne
            exact absurd (halone 0 r rfl hne) (Nat.succ_ne_zero i).symm
          rw [List.flatMap_cons, hfirst, List.nil_append]
          exact ih h fun j q hj hne => Nat.succ.inj (halone (j + 1) q hj hne)

/-! ## Nothing twice, nothing lost -/

/-- Everything that was accepted and is not lost: on the wire, in hand or queued. -/
def present (s : Sender) : List UInt8 := s.wire ++ s.hands ++ s.queue

/-- A write takes everything that the call has in hand. -/
def TakesAll (s : Sender) : CallTurn → Prop
  | .go i k => ∀ buf, s.places[i]? = some (.write buf) → buf.length ≤ k
  | _ => True

/-- What a turn adds and what it loses. -/
theorem count_turned {s t : Sender} {turn : CallTurn} (h : Turned s turn t) :
    ∃ added lost : List UInt8, t.accepted = s.accepted ++ added ∧
      (∀ b, t.present.count b + lost.count b = s.present.count b + added.count b) ∧
      (lost = [] ↔ s.TakesAll turn) := by
  cases h with
  | put buf =>
      refine ⟨[], [], (List.append_nil _).symm, fun b => ?_, iff_of_true rfl trivial⟩
      simp [present, hands, inHand]
  | wakeup =>
      refine ⟨[], [], (List.append_nil _).symm, fun b => ?_, iff_of_true rfl trivial⟩
      simp [present, hands, inHand]
  | @fill i k buf hplace =>
      refine ⟨s.stored buf, [], rfl, fun b => ?_, iff_of_true rfl fun buf' h => ?_⟩
      · have hset := hands_set_nil hplace (q := .ask) rfl rfl
        simp only [present, hands, hset, List.count_append, List.count_nil]
        omega
      · rw [hplace] at h
        cases h
  | @ask i k hplace =>
      refine ⟨[], [], (List.append_nil _).symm, fun b => ?_, iff_of_true rfl fun buf' h => ?_⟩
      · have hset := hands_set_nil hplace (q := .drain k) rfl rfl
        simp only [present, hands, hset]
      · rw [hplace] at h
        cases h
  | @drain i k room hplace =>
      refine ⟨[], [], (List.append_nil _).symm, fun b => ?_, iff_of_true rfl fun buf' h => ?_⟩
      · have hset := count_hands_set hplace (.write (s.queue.take (room + 1))) b
        have hcut := congrArg (List.count b) (List.take_append_drop (room + 1) s.queue)
        rw [List.count_append] at hcut
        simp only [present, hands, List.count_append, inHand, List.count_nil] at hset ⊢
        omega
      · rw [hplace] at h
        cases h
  | @write i k buf hplace =>
      refine ⟨[], buf.drop k, (List.append_nil _).symm, fun b => ?_, ?_⟩
      · have hset := count_hands_set hplace .done b
        have hcut := congrArg (List.count b) (List.take_append_drop k buf)
        rw [List.count_append] at hcut
        simp only [present, hands, List.count_append, inHand, List.count_nil] at hset ⊢
        omega
      · rw [List.drop_eq_nil_iff]
        constructor
        · intro hle buf' h
          obtain rfl : buf = buf' := by simpa [hplace] using h
          exact hle
        · exact fun h => h buf hplace

/-- No byte is present more often than it was accepted. -/
def Sound (s : Sender) : Prop := ∀ b, s.present.count b ≤ s.accepted.count b

/-- Every byte is present as often as it was accepted. -/
def Kept (s : Sender) : Prop := s.present.Perm s.accepted

theorem kept_iff {s : Sender} : s.Kept ↔ ∀ b, s.present.count b = s.accepted.count b :=
  List.perm_iff_count

theorem sound_turned {s t : Sender} {turn : CallTurn} (hs : s.Sound) (h : Turned s turn t) :
    t.Sound := by
  obtain ⟨added, lost, haccepted, hcount, -⟩ := count_turned h
  intro b
  have hb := hs b
  have hturn := hcount b
  rw [haccepted, List.count_append]
  omega

/-- From a sender that lost nothing, a turn loses nothing exactly if it takes everything. -/
theorem kept_turned_iff {s t : Sender} {turn : CallTurn} (hs : s.Kept) (h : Turned s turn t) :
    t.Kept ↔ s.TakesAll turn := by
  obtain ⟨added, lost, haccepted, hcount, hlost⟩ := count_turned h
  rw [kept_iff] at hs
  rw [← hlost, kept_iff]
  constructor
  · intro ht
    refine List.eq_nil_iff_forall_not_mem.mpr fun b hb => ?_
    have hpos := List.count_pos_iff.mpr hb
    have hsame := ht b
    rw [haccepted, List.count_append] at hsame
    have := hs b
    have := hcount b
    omega
  · rintro rfl b
    have hb := hcount b
    rw [List.count_nil, Nat.add_zero, hs b] at hb
    rw [haccepted, List.count_append, hb]

/-- What is lost stays lost. -/
theorem not_kept_turned {s t : Sender} {turn : CallTurn} (hsound : s.Sound) (hs : ¬ s.Kept)
    (h : Turned s turn t) : ¬ t.Kept := by
  obtain ⟨added, lost, haccepted, hcount, -⟩ := count_turned h
  rw [kept_iff] at hs ⊢
  obtain ⟨b, hb⟩ := not_forall.mp hs
  intro ht
  have hsame := ht b
  rw [haccepted, List.count_append] at hsame
  have := hsound b
  have := hcount b
  omega

/-- **Nothing lost** in a run, exactly if every write in it takes everything. -/
theorem kept_run_iff {s t : Sender} {turns : List CallTurn} (hs : s.Kept)
    (hrun : run step s turns = some t) :
    t.Sound ∧ (t.Kept ↔ everyStep step TakesAll s turns) := by
  have hsound : s.Sound := fun b => (kept_iff.mp hs b).le
  constructor
  · exact run_invariant (fun s turn t hs h => sound_turned hs (turned h)) hsound hrun
  · exact run_iff_everyStep (fun s turn t hs h => sound_turned hs (turned h))
      (fun s turn t _ hs h => kept_turned_iff hs (turned h))
      (fun s turn t hsound hs h => not_kept_turned hsound hs (turned h)) hsound hs hrun

/-! ## The order -/

/-- A call drains the queue only while no call has anything in hand. -/
def NoOvertaking (s : Sender) : CallTurn → Prop
  | .go i _ => ∀ room, s.places[i]? = some (.drain room) → s.hands = []
  | _ => True

/-- **In order**: the wire, the hands and the queue are what was accepted, and at most one call has
anything in hand. -/
structure InOrder (s : Sender) : Prop where
  present : s.present = s.accepted
  alone : ∃ i, Alone s.places i

theorem alone_append {places : List Place} {i : ℕ} (h : Alone places i) {p : Place}
    (hp : inHand p = []) : Alone (places ++ [p]) i := by
  intro j q hq hne
  rcases Nat.lt_or_ge j places.length with hj | hj
  · rw [List.getElem?_append_left hj] at hq
    exact h j q hq hne
  · have hmem := List.mem_of_getElem? (List.getElem?_append_right hj ▸ hq)
    rw [List.mem_singleton.mp hmem] at hne
    exact absurd hp hne

theorem alone_set {places : List Place} {i n : ℕ} (h : Alone places n) {q : Place}
    (hq : inHand q = []) : Alone (places.set i q) n := by
  intro j p hp hne
  rw [List.getElem?_set] at hp
  split_ifs at hp with hij hlen
  · obtain rfl := Option.some.inj hp
    exact absurd hq hne
  · exact h j p hp hne

/-- **The order is kept** by a turn that overtakes nothing and loses nothing. -/
theorem inOrder_turned {s t : Sender} {turn : CallTurn} (hs : s.InOrder)
    (hovertakes : s.NoOvertaking turn) (htakes : s.TakesAll turn) (h : Turned s turn t) :
    t.InOrder := by
  obtain ⟨n, halone⟩ := hs.alone
  have hpresent := hs.present
  cases h with
  | put buf =>
      refine ⟨?_, n, alone_append halone rfl⟩
      simpa [present, hands, inHand] using hpresent
  | wakeup =>
      refine ⟨?_, n, alone_append halone rfl⟩
      simpa [present, hands, inHand] using hpresent
  | @fill i k buf hplace =>
      refine ⟨?_, n, alone_set halone rfl⟩
      have hset := hands_set_nil hplace (q := .ask) rfl rfl
      simp only [present, hands, hset] at hpresent ⊢
      rw [← List.append_assoc, hpresent]
  | @ask i k hplace =>
      refine ⟨?_, n, alone_set halone rfl⟩
      have hset := hands_set_nil hplace (q := .drain k) rfl rfl
      simp only [present, hands, hset] at hpresent ⊢
      exact hpresent
  | @drain i k room hplace =>
      have hnone : s.hands = [] := hovertakes room hplace
      have hlen : i < s.places.length := (List.getElem?_eq_some_iff.mp hplace).1
      have halone' : Alone (s.places.set i (.write (s.queue.take (room + 1)))) i := by
        intro j p hp hne
        rw [List.getElem?_set] at hp
        split_ifs at hp with hij
        · exact hij.symm
        · have hall := List.flatMap_eq_nil_iff.mp hnone p (List.mem_of_getElem? hp)
          exact absurd hall hne
      refine ⟨?_, i, halone'⟩
      have hhands := hands_of_alone (List.getElem?_set_self hlen) halone'
      rw [Sender.present, hnone, List.append_nil] at hpresent
      simp only [Sender.present, hands, hhands, inHand]
      rw [List.append_assoc, List.take_append_drop, hpresent]
  | @write i k buf hplace =>
      refine ⟨?_, n, alone_set halone rfl⟩
      have hall : buf.take k = buf := List.take_of_length_le (htakes buf hplace)
      have hlen : i < s.places.length := (List.getElem?_eq_some_iff.mp hplace).1
      by_cases hbuf : buf = []
      · have hset := hands_set_nil hplace (q := .done) hbuf rfl
        simp only [present, hands, hset, hbuf, List.take_nil, List.append_nil] at hpresent ⊢
        exact hpresent
      · obtain rfl : i = n := halone i _ hplace hbuf
        have hbefore : s.hands = buf := hands_of_alone hplace halone
        have hafter : (s.places.set i .done).flatMap inHand = [] :=
          hands_of_alone (List.getElem?_set_self hlen) (alone_set halone rfl)
        simp only [present, hbefore] at hpresent
        simp only [present, hands, hafter, hall, List.append_nil]
        exact hpresent

/-- **In order** over a run. -/
theorem inOrder_run {s t : Sender} {turns : List CallTurn} (hs : s.InOrder)
    (hrun : run step s turns = some t)
    (hturns : everyStep step (fun s turn => s.NoOvertaking turn ∧ s.TakesAll turn) s turns) :
    t.InOrder :=
  run_of_everyStep (fun _ _ _ hs hok h => inOrder_turned hs hok.1 hok.2 (turned h)) hs hturns
    hrun

/-! ## Commands -/

/-- Every put is a sequence of whole commands for which the queue has room; a drain empties the
queue and a write takes everything. -/
def Roomy (s : Sender) : CallTurn → Prop
  | .put buf => Commands buf
  | .wakeup => True
  | .go i k => (∀ buf, s.places[i]? = some (.fill buf) → buf.length < bufsize - s.queue.length) ∧
      (∀ room, s.places[i]? = some (.drain room) → s.queue.length ≤ room + 1) ∧
      ∀ buf, s.places[i]? = some (.write buf) → buf.length ≤ k

/-- What a call is about to queue or to write. -/
def carries : Place → List UInt8
  | .fill buf => buf
  | .write buf => buf
  | _ => []

/-- **Whole commands** everywhere. -/
structure Whole (s : Sender) : Prop where
  wire : Commands s.wire
  queue : Commands s.queue
  places : ∀ p ∈ s.places, Commands (carries p)

theorem places_set {places : List Place} (h : ∀ p ∈ places, Commands (carries p)) {i : ℕ}
    {q : Place} (hq : Commands (carries q)) : ∀ p ∈ places.set i q, Commands (carries p) := by
  intro p hp
  rcases List.mem_or_eq_of_mem_set hp with hp | rfl
  · exact h p hp
  · exact hq

theorem places_append {places : List Place} (h : ∀ p ∈ places, Commands (carries p)) {q : Place}
    (hq : Commands (carries q)) : ∀ p ∈ places ++ [q], Commands (carries p) := by
  intro p hp
  rcases List.mem_append.mp hp with hp | hp
  · exact h p hp
  · rw [List.mem_singleton.mp hp]
    exact hq

/-- **Commands stay whole**, whatever overtakes what. -/
theorem whole_turned {s t : Sender} {turn : CallTurn} (hs : s.Whole) (hroomy : s.Roomy turn)
    (h : Turned s turn t) : t.Whole := by
  cases h with
  | put buf => exact ⟨hs.wire, hs.queue, places_append hs.places hroomy⟩
  | wakeup => exact ⟨hs.wire, hs.queue, places_append hs.places .none⟩
  | @fill i k buf hplace =>
      have hbuf : Commands buf := hs.places _ (List.mem_of_getElem? hplace)
      have hstored : s.stored buf = buf := by
        have hlt := hroomy.1 buf hplace
        exact List.take_of_length_le (by omega)
      refine ⟨hs.wire, ?_, places_set hs.places .none⟩
      rw [hstored]
      exact hs.queue.append_iff.mpr hbuf
  | @ask i k hplace => exact ⟨hs.wire, hs.queue, places_set hs.places .none⟩
  | @drain i k room hplace =>
      have hroom := hroomy.2.1 room hplace
      refine ⟨hs.wire, ?_, places_set hs.places ?_⟩
      · rw [List.drop_eq_nil_of_le hroom]
        exact .none
      · rw [carries, List.take_of_length_le hroom]
        exact hs.queue
  | @write i k buf hplace =>
      have hbuf : Commands buf := hs.places _ (List.mem_of_getElem? hplace)
      refine ⟨?_, hs.queue, places_set hs.places .none⟩
      rw [List.take_of_length_le (hroomy.2.2 buf hplace)]
      exact hs.wire.append_iff.mpr hbuf

/-- Where there is room everywhere, nothing is lost. -/
theorem kept_run {s t : Sender} {turns : List CallTurn} (hs : s.Kept)
    (hrun : run step s turns = some t) (hturns : everyStep step Roomy s turns) : t.Kept := by
  refine run_of_everyStep (fun s turn t hs hok h => ?_) hs hturns hrun
  refine (kept_turned_iff hs (turned h)).mpr ?_
  cases turn with
  | put buf => trivial
  | wakeup => trivial
  | go i k => exact hok.2.2

theorem whole_run {s t : Sender} {turns : List CallTurn} (hs : s.Whole)
    (hrun : run step s turns = some t) (hturns : everyStep step Roomy s turns) : t.Whole :=
  run_of_everyStep (fun _ _ _ hs hok h => whole_turned hs hok (turned h)) hs hturns hrun

end Sender

end MachineProblems.Model
