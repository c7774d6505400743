import MachineProblems.Library.Run
import MachineProblems.Program.Adventure.StatusThread
import Mathlib.Data.List.Basic
import Mathlib.Tactic.Linarith

/-!
# The life of a status message

Whatever the order in which the main thread, the helper and the clock take their steps, a reader of
`status_msg` sees a whole message, no message is left behind while the helper sleeps through it,
and a message stays for its 1.5 seconds unless the helper had already given up waiting for the one
before it.
-/

set_option autoImplicit false

namespace MachineProblems.Analysis.Adventure

open MachineProblems.Library MachineProblems.Program.Adventure.StatusThread

/-! ## Steps -/

/-- What a step can do, by who takes it. -/
inductive Moves (s : Threads) : Event → Threads → Prop
  | enter (next : Section) (hmain : s.main = .outside) :
      Moves s (.enter next) { s with main := .locking next }
  | lock (next : Section) (hmain : s.main = .locking next) (hfree : s.msgLock = none) :
      Moves s .main { s with msgLock := some .main, main := next.begin }
  | copy (m : Message) (i : ℕ) (hmain : s.main = .copying m i) (hi : i < msgLen) :
      Moves s .main { s.put i (m.bytes.getD i 0) with main := .copying m (i + 1) }
  | terminate (m : Message) (i : ℕ) (hmain : s.main = .copying m i) (hi : ¬ i < msgLen) :
      Moves s .main
        { s.put msgLen 0 with main := .signalling, message := m.bytes.take msgLen }
  | signal (hmain : s.main = .signalling) :
      Moves s .main { s with
        main := .unlocking
        helper := s.helper.signalled
        postedAt := s.clock
        overtaken := s.helper.gaveUp }
  | leave (hmain : s.main = .reading ∨ s.main = .asking) :
      Moves s .main { s with main := .unlocking }
  | unlock (hmain : s.main = .unlocking) :
      Moves s .main { s with msgLock := none, main := .outside }
  | helperLock (hhelper : s.helper = .locking ∨ s.helper = .woken) (hfree : s.msgLock = none) :
      Moves s .helper { s with msgLock := some .helper, helper := .checking }
  | wait (hhelper : s.helper = .checking) (hempty : s.get 0 = 0) :
      Moves s .helper { s with msgLock := none, helper := .waiting }
  | find (hhelper : s.helper = .checking) (hfull : s.get 0 ≠ 0) :
      Moves s .helper { s with helper := .timing }
  | arm (hhelper : s.helper = .timing) :
      Moves s .helper { s with helper := .armed s.clock.wakeUp }
  | sleep (ts : Timespec) (hhelper : s.helper = .armed ts) :
      Moves s .helper { s with msgLock := none, helper := .sleeping ts }
  | again (hhelper : s.helper = .roused false) (hfree : s.msgLock = none) :
      Moves s .helper { s with msgLock := some .helper, helper := .timing }
  | giveUp (hhelper : s.helper = .roused true) (hfree : s.msgLock = none) :
      Moves s .helper { s with msgLock := some .helper, helper := .clearing }
  | erase (hhelper : s.helper = .clearing) :
      Moves s .helper
        { s.put 0 0 with helper := .unlocking, message := [], overtaken := false }
  | helperUnlock (hhelper : s.helper = .unlocking) :
      Moves s .helper { s with msgLock := none, helper := .locking }
  | timeout (ts : Timespec) (hhelper : s.helper = .sleeping ts)
      (hover : ts.nanos ≤ s.clock.nanos) :
      Moves s .timeout { s with helper := .roused true }
  | wakeWaiting (hhelper : s.helper = .waiting) : Moves s .spurious { s with helper := .woken }
  | wakeSleeping (ts : Timespec) (hhelper : s.helper = .sleeping ts) :
      Moves s .spurious { s with helper := .roused false }
  | time (clock : Timespec) (hlater : s.clock.nanos ≤ clock.nanos) :
      Moves s (.time clock) { s with clock := clock }

theorem acquire_cases {s t : Threads} {p : Party} (h : s.acquire p = some t) :
    s.msgLock = none ∧ t = { s with msgLock := some p } := by
  unfold Threads.acquire at h
  split at h
  · next hfree => exact ⟨hfree, (Option.some.inj h).symm⟩
  · cases h

theorem mainStep_moves {s t : Threads} (h : mainStep s = some t) : Moves s .main t := by
  unfold mainStep at h
  split at h
  · cases h
  · next next hmain =>
      obtain ⟨u, hu, hut⟩ := Option.bind_eq_some_iff.mp h
      obtain ⟨hfree, rfl⟩ := acquire_cases hu
      obtain rfl := Option.some.inj hut
      exact .lock next hmain hfree
  · next m i hmain =>
      split at h
      · next hi =>
          obtain rfl := Option.some.inj h
          exact .copy m i hmain hi
      · next hi =>
          obtain rfl := Option.some.inj h
          exact .terminate m i hmain hi
  · next hmain =>
      obtain rfl := Option.some.inj h
      exact .signal hmain
  · next hmain =>
      obtain rfl := Option.some.inj h
      exact .leave (Or.inl hmain)
  · next hmain =>
      obtain rfl := Option.some.inj h
      exact .leave (Or.inr hmain)
  · next hmain =>
      obtain rfl := Option.some.inj h
      exact .unlock hmain

theorem helperStep_moves {s t : Threads} (h : helperStep s = some t) : Moves s .helper t := by
  unfold helperStep at h
  split at h
  · next hhelper =>
      obtain ⟨u, hu, hut⟩ := Option.bind_eq_some_iff.mp h
      obtain ⟨hfree, rfl⟩ := acquire_cases hu
      obtain rfl := Option.some.inj hut
      exact .helperLock (Or.inl hhelper) hfree
  · next hhelper =>
      split at h
      · next hempty =>
          obtain rfl := Option.some.inj h
          exact .wait hhelper hempty
      · next hfull =>
          obtain rfl := Option.some.inj h
          exact .find hhelper hfull
  · cases h
  · next hhelper =>
      obtain ⟨u, hu, hut⟩ := Option.bind_eq_some_iff.mp h
      obtain ⟨hfree, rfl⟩ := acquire_cases hu
      obtain rfl := Option.some.inj hut
      exact .helperLock (Or.inr hhelper) hfree
  · next hhelper =>
      obtain rfl := Option.some.inj h
      exact .arm hhelper
  · next ts hhelper =>
      obtain rfl := Option.some.inj h
      exact .sleep ts hhelper
  · cases h
  · next timedOut hhelper =>
      obtain ⟨u, hu, hut⟩ := Option.bind_eq_some_iff.mp h
      obtain ⟨hfree, rfl⟩ := acquire_cases hu
      obtain rfl := Option.some.inj hut
      cases timedOut with
      | false => exact .again hhelper hfree
      | true => exact .giveUp hhelper hfree
  · next hhelper =>
      obtain rfl := Option.some.inj h
      exact .erase hhelper
  · next hhelper =>
      obtain rfl := Option.some.inj h
      exact .helperUnlock hhelper

theorem timeout_moves {s t : Threads} (h : timeout s = some t) : Moves s .timeout t := by
  unfold timeout at h
  split at h
  · next ts hhelper =>
      split at h
      · next hover =>
          obtain rfl := Option.some.inj h
          exact .timeout ts hhelper hover
      · cases h
  · cases h

theorem spurious_moves {s t : Threads} (h : spurious s = some t) : Moves s .spurious t := by
  unfold spurious at h
  split at h
  · next hhelper =>
      obtain rfl := Option.some.inj h
      exact .wakeWaiting hhelper
  · next ts hhelper =>
      obtain rfl := Option.some.inj h
      exact .wakeSleeping ts hhelper
  · cases h

theorem step_moves {s t : Threads} {e : Event} (h : step s e = some t) : Moves s e t := by
  cases e with
  | enter next =>
      simp only [step] at h
      split at h
      · next hmain =>
          obtain rfl := Option.some.inj h
          exact .enter next hmain
      · cases h
  | main => exact mainStep_moves h
  | helper => exact helperStep_moves h
  | timeout => exact timeout_moves h
  | spurious => exact spurious_moves h
  | time clock =>
      simp only [step] at h
      split at h
      · next hlater =>
          obtain rfl := Option.some.inj h
          exact .time clock hlater
      · cases h

/-! ## The lock -/

/-- Where the main thread holds `msg_lock`. -/
def mainHolds : MainAt → Bool
  | .outside | .locking _ => false
  | .copying _ _ | .signalling | .reading | .asking | .unlocking => true

/-- Where the helper holds `msg_lock`. -/
def helperHolds : HelperAt → Bool
  | .checking | .timing | .armed _ | .clearing | .unlocking => true
  | .locking | .waiting | .woken | .sleeping _ | .roused _ => false

/-- The lock is held by the thread that is in a critical section. -/
structure Locked (s : Threads) : Prop where
  main : mainHolds s.main = true ↔ s.msgLock = some .main
  helper : helperHolds s.helper = true ↔ s.msgLock = some .helper

theorem mainHolds_begin (next : Section) : mainHolds next.begin = true := by
  cases next <;> rfl

theorem helperHolds_signalled (h : HelperAt) : helperHolds h.signalled = helperHolds h := by
  cases h <;> rfl

theorem Locked.moves {s t : Threads} {e : Event} (h : Locked s) (hmove : Moves s e t) :
    Locked t := by
  obtain ⟨hmainLock, hhelperLock⟩ := h
  cases hmove with
  | lock next hmain hfree =>
      constructor
      · simp [mainHolds_begin]
      · simp_all
  | signal hmain =>
      constructor
      · simp_all [mainHolds]
      · rw [helperHolds_signalled]
        exact hhelperLock
  | leave hmain =>
      constructor
      · rw [← hmainLock]
        rcases hmain with hreading | hasking
        · simp [hreading, mainHolds]
        · simp [hasking, mainHolds]
      · exact hhelperLock
  | _ => constructor <;> simp_all [Threads.put, mainHolds, helperHolds]

/-- Never are both threads in a critical section. -/
theorem Locked.exclusive {s : Threads} (h : Locked s) (hmain : mainHolds s.main = true) :
    helperHolds s.helper = false := by
  by_contra hhelper
  rw [Bool.not_eq_false] at hhelper
  have hlock := h.main.mp hmain
  rw [h.helper.mp hhelper] at hlock
  cases hlock

/-! ## The text -/

section Text

variable (s : Threads)

theorem get_put (i j : ℕ) (c : UInt8) :
    (s.put i c).get j = if i = j ∧ i < msgLen + 1 then c else s.get j := by
  unfold Threads.get Threads.put
  rw [Vector.getElem?_setIfInBounds]
  by_cases hij : i = j
  · by_cases hi : i < msgLen + 1
    · rw [if_pos hij, if_pos hi, if_pos ⟨hij, hi⟩]
      rfl
    · rw [if_pos hij, if_neg hi, if_neg fun h => hi h.2, Vector.getElem?_eq_none (by omega)]
  · rw [if_neg hij, if_neg fun h => hij h.1]

theorem toList_put (i : ℕ) (c : UInt8) :
    (s.put i c).statusMsg.toList = s.statusMsg.toList.set i c := by
  simp [Threads.put]

theorem toList_getElem? {j : ℕ} (hj : j < msgLen + 1) :
    s.statusMsg.toList[j]? = some (s.get j) := by
  simp [Threads.get, hj]

/-- The string ends at the first zero. -/
theorem takeWhile_text {l w : List UInt8} (hw : 0 ∉ w) (hl : w ++ [0] <+: l) :
    l.takeWhile (· ≠ 0) = w := by
  obtain ⟨rest, rfl⟩ := hl
  rw [List.append_assoc, List.takeWhile_append_of_pos]
  · simp
  · intro c hc
    apply decide_eq_true
    rintro rfl
    exact hw hc

/-- What `strncpy` and the assignment behind it make of the array. -/
theorem shown_terminated {m : Message} (hcopied : ∀ j < msgLen, s.get j = m.bytes.getD j 0) :
    (s.put msgLen 0).shown = m.bytes.take msgLen := by
  have hzero : 0 ∉ m.bytes.take msgLen := fun h => m.nonzero (List.mem_of_mem_take h)
  apply takeWhile_text hzero
  rw [List.prefix_iff_eq_take]
  apply List.ext_getElem?
  intro j
  have hget : ∀ k < msgLen + 1, (s.put msgLen 0).statusMsg.toList[k]? =
      some (if k < msgLen then m.bytes.getD k 0 else 0) := by
    intro k hk
    rw [toList_getElem? _ hk, get_put]
    split_ifs with hend hk' hk'
    · omega
    · rfl
    · rw [hcopied k hk']
    · omega
  rw [List.getElem?_take, List.getElem?_append]
  have hlen : (m.bytes.take msgLen).length = min msgLen m.bytes.length := List.length_take
  rw [List.length_append, List.length_singleton, hlen]
  split_ifs with hin hshort hshort
  · rw [hget j (by omega), if_pos (by omega), List.getElem?_take_of_lt (by omega)]
    rw [List.getD_eq_getElem?_getD, List.getElem?_eq_getElem (by omega)]
    rfl
  · rw [List.getElem?_take, if_neg (by omega)]
  · rw [hget j (by omega)]
    have hj : j = min msgLen m.bytes.length := by omega
    subst hj
    simp only [Nat.sub_self, List.getElem?_cons_zero, Option.some.injEq]
    split_ifs with hlt
    · rw [List.getD_eq_getElem?_getD, List.getElem?_eq_none (by omega)]
      rfl
    · rfl
  · rw [List.getElem?_eq_none]
    simp only [List.length_singleton]
    omega

theorem shown_erased : (s.put 0 0).shown = [] := by
  apply takeWhile_text List.not_mem_nil
  rw [toList_put]
  cases hl : s.statusMsg.toList with
  | nil =>
      have hlen := s.statusMsg.length_toList
      simp [hl] at hlen
  | cons c rest => simp

/-- An empty string starts with the zero. -/
theorem shown_eq_nil_iff : s.shown = [] ↔ s.get 0 = 0 := by
  have hget := toList_getElem? s (show 0 < msgLen + 1 by omega)
  unfold Threads.shown
  cases hl : s.statusMsg.toList with
  | nil => simp [hl] at hget
  | cons c rest =>
      rw [hl, List.getElem?_cons_zero, Option.some.injEq] at hget
      subst hget
      by_cases hzero : s.get 0 = 0
      · simp [hzero]
      · simp [hzero]

end Text

/-- The array holds a message whole, or the part of the next one that is copied. -/
structure Written (s : Threads) : Prop where
  copied : ∀ m i, s.main = .copying m i → i ≤ msgLen ∧ ∀ j < i, s.get j = m.bytes.getD j 0
  whole : (∀ m i, s.main ≠ .copying m i) → s.shown = s.message

theorem Written.of_same {s t : Threads} (h : Written s) (hmsg : t.statusMsg = s.statusMsg)
    (hmain : t.main = s.main) (hmessage : t.message = s.message) : Written t where
  copied := by
    unfold Threads.get
    rw [hmsg, hmain]
    exact h.copied
  whole := by
    unfold Threads.shown
    rw [hmsg, hmain, hmessage]
    exact h.whole

/-- The main thread goes on without having copied anything. -/
theorem Written.of_whole {s t : Threads} (h : Written s) (hmsg : t.statusMsg = s.statusMsg)
    (hmessage : t.message = s.message) (hs : ∀ m i, s.main ≠ .copying m i)
    (ht : ∀ m i, t.main = .copying m i → i = 0) : Written t where
  copied := by
    intro m i hmain
    obtain rfl := ht m i hmain
    exact ⟨Nat.zero_le _, fun j hj => absurd hj (Nat.not_lt_zero j)⟩
  whole := by
    intro _
    unfold Threads.shown
    rw [hmsg, hmessage]
    exact h.whole hs

theorem Written.moves {s t : Threads} {e : Event} (h : Written s) (hlocked : Locked s)
    (hmove : Moves s e t) : Written t := by
  cases hmove with
  | copy m i hmain hi =>
      refine ⟨?_, fun hnot => absurd rfl (hnot m (i + 1))⟩
      intro m' i' hmain'
      obtain ⟨rfl, rfl⟩ := MainAt.copying.inj hmain'
      refine ⟨hi, fun j hj => ?_⟩
      show (s.put i (m.bytes.getD i 0)).get j = m.bytes.getD j 0
      rw [get_put]
      split_ifs with hij
      · rw [hij.1]
      · exact (h.copied m i hmain).2 j (by omega)
  | terminate m i hmain hi =>
      refine ⟨fun m' i' hmain' => (by cases hmain'), fun _ => ?_⟩
      obtain ⟨hle, hcopied⟩ := h.copied m i hmain
      have hend : i = msgLen := by omega
      subst hend
      exact shown_terminated s hcopied
  | erase hhelper =>
      have hnot : ∀ m i, s.main ≠ .copying m i := by
        intro m i hmain
        have hout := hlocked.exclusive (by rw [hmain]; rfl)
        rw [hhelper] at hout
        cases hout
      refine ⟨fun m i hmain => absurd hmain (hnot m i), fun _ => ?_⟩
      exact shown_erased s
  | enter next hmain => refine h.of_whole rfl rfl ?_ ?_ <;> simp_all
  | lock next hmain hfree =>
      refine h.of_whole rfl rfl (by simp_all) ?_
      · intro m i hbegin
        cases next with
        | showStatus m' => exact (MainAt.copying.inj hbegin).2.symm
        | draw => cases hbegin
        | getCommand => cases hbegin
  | signal hmain => refine h.of_whole rfl rfl ?_ ?_ <;> simp_all
  | leave hmain =>
      refine h.of_whole rfl rfl ?_ ?_
      · rcases hmain with hmain | hmain <;> simp_all
      · simp
  | unlock hmain => refine h.of_whole rfl rfl ?_ ?_ <;> simp_all
  | _ => exact h.of_same rfl rfl rfl

/-! ## Waking the helper -/

/-- Where the main thread is in `show_status`, and has not yet signalled. -/
def posting : MainAt → Bool
  | .copying _ _ | .signalling => true
  | _ => false

/-- The helper waits for a message only as long as there is none, or none signalled. -/
def Alert (s : Threads) : Prop := s.helper = .waiting → s.get 0 ≠ 0 → posting s.main = true

theorem Alert.moves {s t : Threads} {e : Event} (h : Alert s) (hmove : Moves s e t) :
    Alert t := by
  intro hwaiting hfull
  cases hmove with
  | copy m i hmain hi => rfl
  | terminate m i hmain hi => rfl
  | signal hmain =>
      cases hhelper : s.helper <;> simp_all [HelperAt.signalled]
  | wait hhelper hempty => exact absurd hempty hfull
  | erase hhelper => cases hwaiting
  | enter next hmain =>
      have hposting := h hwaiting hfull
      rw [hmain] at hposting
      cases hposting
  | lock next hmain hfree =>
      have hposting := h hwaiting hfull
      rw [hmain] at hposting
      cases hposting
  | leave hmain =>
      have hposting := h hwaiting hfull
      rcases hmain with hmain | hmain <;> rw [hmain] at hposting <;> cases hposting
  | unlock hmain =>
      have hposting := h hwaiting hfull
      rw [hmain] at hposting
      cases hposting
  | time clock hlater => exact h hwaiting hfull
  | _ => cases hwaiting

/-! ## The time of a message -/

theorem nanos_wakeUp (ts : Timespec) : ts.wakeUp.nanos = ts.nanos + 1500000000 := by
  unfold Timespec.wakeUp Timespec.nanos
  split_ifs <;> dsimp only <;> omega

/-- The message has had its 1.5 seconds. -/
def Due (s : Threads) : Prop := s.postedAt.nanos + 1500000000 ≤ s.clock.nanos

/-- The helper wakes up no earlier than 1.5 seconds after the last signal, and erases a message
before that only if it was posted behind the helper's back. -/
structure Timed (s : Threads) : Prop where
  posted : s.postedAt.nanos ≤ s.clock.nanos
  set : ∀ ts, s.helper = .armed ts ∨ s.helper = .sleeping ts →
    s.postedAt.nanos + 1500000000 ≤ ts.nanos
  late : s.helper = .roused true ∨ s.helper = .clearing → s.overtaken = true ∨ Due s
  overtaken : s.overtaken = true → s.helper = .roused true ∨ s.helper = .clearing

theorem Timed.moves {s t : Threads} {e : Event} (h : Timed s) (hlocked : Locked s)
    (hmove : Moves s e t) : Timed t := by
  obtain ⟨hposted, hset, hlate, hovertaken⟩ := h
  cases hmove with
  | signal hmain =>
      have hout := hlocked.exclusive (by rw [hmain]; rfl)
      refine ⟨le_refl _, ?_, ?_, ?_⟩
      · cases hhelper : s.helper <;> simp_all [HelperAt.signalled, helperHolds]
      · cases hhelper : s.helper <;> simp_all [HelperAt.signalled, HelperAt.gaveUp, helperHolds]
      · cases hhelper : s.helper <;> simp_all [HelperAt.signalled, HelperAt.gaveUp]
  | arm hhelper =>
      refine ⟨hposted, ?_, by simp, ?_⟩
      · intro ts hts
        have hwake : ts = s.clock.wakeUp := by simpa [eq_comm] using hts
        rw [hwake, nanos_wakeUp]
        show s.postedAt.nanos + 1500000000 ≤ _
        omega
      · simp_all
  | timeout ts hhelper hover =>
      refine ⟨hposted, by simp, fun _ => Or.inr ?_, fun _ => Or.inl rfl⟩
      exact le_trans (hset ts (Or.inr hhelper)) hover
  | time clock hlater =>
      refine ⟨le_trans hposted hlater, hset, ?_, hovertaken⟩
      exact fun hgone => (hlate hgone).imp_right fun hdue => le_trans hdue hlater
  | sleep ts hhelper =>
      refine ⟨hposted, ?_, by simp, by simp_all⟩
      intro ts' hts
      have hsame : ts = ts' := by simpa using hts
      exact hset ts' (Or.inl (hsame ▸ hhelper))
  | giveUp hhelper hfree =>
      exact ⟨hposted, by simp, fun _ => hlate (Or.inl hhelper), fun _ => Or.inr rfl⟩
  | erase hhelper => exact ⟨hposted, by simp, by simp, by simp⟩
  | helperLock hhelper hfree => rcases hhelper with hhelper | hhelper <;> constructor <;> simp_all
  | enter next hmain => exact ⟨hposted, hset, hlate, hovertaken⟩
  | lock next hmain hfree => exact ⟨hposted, hset, hlate, hovertaken⟩
  | copy m i hmain hi => exact ⟨hposted, hset, hlate, hovertaken⟩
  | terminate m i hmain hi => exact ⟨hposted, hset, hlate, hovertaken⟩
  | leave hmain => exact ⟨hposted, hset, hlate, hovertaken⟩
  | unlock hmain => exact ⟨hposted, hset, hlate, hovertaken⟩
  | _ => constructor <;> simp_all

/-! ## Runs -/

/-- What holds between any two steps. -/
structure Sane (s : Threads) : Prop where
  locked : Locked s
  written : Written s
  alert : Alert s
  timed : Timed s

theorem sane_start (clock : Timespec) : Sane (start clock) where
  locked := by constructor <;> simp [start, mainHolds, helperHolds]
  written := by
    refine ⟨by simp [start], fun _ => ?_⟩
    show (start clock).shown = []
    rw [shown_eq_nil_iff]
    rfl
  alert := by simp [Alert, start]
  timed := by constructor <;> simp [start]

theorem Sane.after {s t : Threads} {e : Event} (h : Sane s) (hstep : step s e = some t) :
    Sane t := by
  have hmove := step_moves hstep
  refine ⟨?_, ?_, ?_, ?_⟩
  · exact h.locked.moves hmove
  · exact h.written.moves h.locked hmove
  · exact h.alert.moves hmove
  · exact h.timed.moves h.locked hmove

/-- A state that the threads come to. -/
def Reached (s : Threads) : Prop := ∃ clock events, run step (start clock) events = some s

theorem Reached.sane {s : Threads} (h : Reached s) : Sane s := by
  obtain ⟨clock, events, hrun⟩ := h
  exact run_invariant (fun u e v hu huv => hu.after huv) (sane_start clock) hrun

/-! ## What a reader sees -/

/-- Where the main thread is in `show_status`, up to the signal. -/
def inShowStatus : MainAt → Bool
  | .locking (.showStatus _) => true
  | m => posting m

/-- The message in the last call of `show_status`. -/
def lastCall (events : List Event) : Option Message :=
  events.foldl (fun last e => match e with
    | .enter (.showStatus m) => some m
    | _ => last) none

theorem lastCall_concat (events : List Event) (e : Event) :
    lastCall (events ++ [e]) = match e with
      | .enter (.showStatus m) => some m
      | _ => lastCall events := by
  unfold lastCall
  rw [List.foldl_append]
  rfl

/-- The call in progress is the last one, and so is the one that has left a message. -/
structure Posted (events : List Event) (s : Threads) : Prop where
  inside : ∀ m, s.main = .locking (.showStatus m) ∨ (∃ i, s.main = .copying m i) →
    lastCall events = some m
  left : inShowStatus s.main = false ∨ s.main = .signalling →
    s.message = [] ∨ ∃ m, lastCall events = some m ∧ s.message = m.bytes.take msgLen

/-- A step that is no call, and leaves the main thread and the message where they are. -/
theorem Posted.of_same {events : List Event} {s t : Threads} {e : Event} (h : Posted events s)
    (hcall : lastCall (events ++ [e]) = lastCall events) (hmain : t.main = s.main)
    (hmessage : t.message = s.message ∨ t.message = []) : Posted (events ++ [e]) t where
  inside := by
    rw [hcall, hmain]
    exact h.inside
  left := by
    rw [hcall, hmain]
    intro hout
    rcases hmessage with hsame | hgone
    · rw [hsame]
      exact h.left hout
    · exact Or.inl hgone

/-- The main thread goes on outside of `show_status`. -/
theorem Posted.of_outside {events : List Event} {s t : Threads} {e : Event} (h : Posted events s)
    (hcall : lastCall (events ++ [e]) = lastCall events)
    (hs : inShowStatus s.main = false ∨ s.main = .signalling)
    (ht : inShowStatus t.main = false) (hmessage : t.message = s.message) :
    Posted (events ++ [e]) t where
  inside := by
    rintro m (hm | ⟨i, hm⟩)
    · rw [hm] at ht
      cases ht
    · rw [hm] at ht
      cases ht
  left := by
    rw [hcall, hmessage]
    exact fun _ => h.left hs

theorem Posted.moves {events : List Event} {s t : Threads} {e : Event} (h : Posted events s)
    (hmove : Moves s e t) : Posted (events ++ [e]) t := by
  have hcall : (∀ m, e ≠ .enter (.showStatus m)) →
      lastCall (events ++ [e]) = lastCall events := by
    intro hne
    rw [lastCall_concat]
    split
    · next m => exact absurd rfl (hne m)
    · rfl
  cases hmove with
  | enter next hmain =>
      cases next with
      | showStatus m =>
          refine ⟨?_, by simp [inShowStatus]⟩
          rintro m' (hm | ⟨i, hm⟩)
          · rw [lastCall_concat, Section.showStatus.inj (MainAt.locking.inj hm)]
          · cases hm
      | draw =>
          exact h.of_outside (hcall (by simp)) (by simp [hmain, inShowStatus, posting]) rfl rfl
      | getCommand =>
          exact h.of_outside (hcall (by simp)) (by simp [hmain, inShowStatus, posting]) rfl rfl
  | lock next hmain hfree =>
      cases next with
      | showStatus m =>
          refine ⟨?_, by simp [inShowStatus, posting, Section.begin]⟩
          rintro m' (hm | ⟨i, hm⟩)
          · cases hm
          · rw [hcall (by simp), ← (MainAt.copying.inj hm).1]
            exact h.inside m (Or.inl hmain)
      | draw =>
          exact h.of_outside (hcall (by simp)) (by simp [hmain, inShowStatus, posting]) rfl rfl
      | getCommand =>
          exact h.of_outside (hcall (by simp)) (by simp [hmain, inShowStatus, posting]) rfl rfl
  | copy m i hmain hi =>
      refine ⟨?_, by simp [inShowStatus, posting]⟩
      rintro m' (hm | ⟨i', hm⟩)
      · cases hm
      · rw [hcall (by simp), ← (MainAt.copying.inj hm).1]
        exact h.inside m (Or.inr ⟨i, hmain⟩)
  | terminate m i hmain hi =>
      refine ⟨by simp, fun _ => Or.inr ⟨m, ?_, rfl⟩⟩
      rw [hcall (by simp)]
      exact h.inside m (Or.inr ⟨i, hmain⟩)
  | signal hmain => exact h.of_outside (hcall (by simp)) (Or.inr hmain) rfl rfl
  | leave hmain =>
      refine h.of_outside (hcall (by simp)) (Or.inl ?_) rfl rfl
      rcases hmain with hmain | hmain <;> simp [hmain, inShowStatus, posting]
  | unlock hmain =>
      exact h.of_outside (hcall (by simp)) (by simp [hmain, inShowStatus, posting]) rfl rfl
  | erase hhelper => exact h.of_same (hcall (by simp)) rfl (Or.inr rfl)
  | _ => exact h.of_same (hcall (by simp)) rfl (Or.inl rfl)

theorem posted_start (clock : Timespec) : Posted [] (start clock) := by
  constructor <;> simp [start]

/-- Between of `show_status` the string in `status_msg` is empty, or it is the message of the last
call, cut off at 40 characters: never a part of a message, and never a mix of two. -/
theorem shown_whole {clock : Timespec} {events : List Event} {s : Threads}
    (hrun : run step (start clock) events = some s) (hout : inShowStatus s.main = false) :
    s.shown = [] ∨ ∃ m, lastCall events = some m ∧ s.shown = m.bytes.take msgLen := by
  have hsane : Sane s := Reached.sane ⟨clock, events, hrun⟩
  have hposted : Posted events s := by
    have hstep : ∀ seen u e v, Posted seen u → step u e = some v → Posted (seen ++ [e]) v :=
      fun seen u e v hu huv => hu.moves (step_moves huv)
    simpa using run_collects hstep (posted_start clock) hrun
  have hnot : ∀ m i, s.main ≠ .copying m i := by
    intro m i hmain
    rw [hmain] at hout
    cases hout
  rw [hsane.written.whole hnot]
  exact hposted.left (Or.inl hout)

/-- A clock that stands still. -/
def noTime : Timespec := ⟨0, 0, le_refl 0, by decide⟩

/-- "Hi" is shown: the call, the lock, 41 assignments, the signal and the unlocking. -/
def sayHi : List Event :=
  .enter (.showStatus ⟨[72, 105], by decide⟩) :: List.replicate 44 .main

theorem shown_whole_sayHi : ∃ s, run step (start noTime) sayHi = some s ∧
    (s.shown = [] ∨ ∃ m, lastCall sayHi = some m ∧ s.shown = m.bytes.take msgLen) := by
  obtain ⟨s, hs⟩ := Option.isSome_iff_exists.mp
    (show (run step (start noTime) sayHi).isSome = true by decide +kernel)
  refine ⟨s, hs, shown_whole hs ?_⟩
  have hmain : (run step (start noTime) sayHi).map (fun s => inShowStatus s.main) = some false := by
    decide +kernel
  rw [hs] at hmain
  exact Option.some.inj hmain

/-! ## The helper comes -/

/-- The steps of the helper from where it is to its erasing of the message. -/
def stepsLeft : HelperAt → ℕ
  | .clearing => 0
  | .roused true => 1
  | .sleeping _ => 2
  | .armed _ => 3
  | .timing => 4
  | .roused false => 5
  | .checking => 5
  | .woken => 6
  | .locking => 6
  | .unlocking => 7
  | .waiting => 0

theorem stepsLeft_le (h : HelperAt) : stepsLeft h ≤ 7 := by
  cases h with
  | roused timedOut => cases timedOut <;> simp [stepsLeft]
  | _ => simp [stepsLeft]

/-- The steps of the helper, the end of its second wait among them. -/
def isHelper : Event → Bool
  | .helper | .timeout => true
  | _ => false

/-- A step that posts no message and wakes no one without a reason. -/
def undisturbed : Event → Bool
  | .enter (.showStatus _) | .spurious => false
  | _ => true

/-- Between two calls of `show_status`. -/
structure Between (s : Threads) : Prop where
  sane : Sane s
  out : inShowStatus s.main = false

section Between

variable {s t : Threads} {e : Event}

theorem inShowStatus_of_posting {m : MainAt} (h : inShowStatus m = false) : posting m = false := by
  cases m <;> first | rfl | exact h

theorem Between.notCopying (h : Between s) (m : Message) (i : ℕ) : s.main ≠ .copying m i := by
  intro hmain
  have hout := h.out
  rw [hmain] at hout
  cases hout

theorem Between.shown (h : Between s) : s.shown = s.message := h.sane.written.whole h.notCopying

theorem Between.after (h : Between s) (he : undisturbed e = true) (hstep : step s e = some t) :
    Between t := by
  refine ⟨h.sane.after hstep, ?_⟩
  have hout := h.out
  cases step_moves hstep with
  | enter next hmain => cases next <;> simp_all [undisturbed, inShowStatus, posting]
  | lock next hmain hfree =>
      rw [hmain] at hout
      cases next <;> simp_all [Section.begin, inShowStatus, posting]
  | copy m i hmain hi => exact absurd hmain (h.notCopying m i)
  | terminate m i hmain hi => exact absurd hmain (h.notCopying m i)
  | _ => first | exact hout | rfl

/-- Once it is erased, a message does not come back. -/
theorem Between.stays_erased (h : Between s) (hgone : s.message = []) (hstep : step s e = some t) :
    t.message = [] := by
  cases step_moves hstep with
  | terminate m i hmain hi => exact absurd hmain (h.notCopying m i)
  | erase hhelper => rfl
  | _ => exact hgone

/-- While there is a message, the helper is not waiting for one. -/
theorem Between.not_waiting (h : Between s) (hleft : s.message ≠ []) : s.helper ≠ .waiting := by
  intro hwaiting
  have hfull : s.get 0 ≠ 0 := by
    rwa [← h.shown, ne_eq, shown_eq_nil_iff] at hleft
  have hposting := h.sane.alert hwaiting hfull
  rw [inShowStatus_of_posting h.out] at hposting
  cases hposting

/-- Every step of the helper brings it closer to the erasing, and no other step takes it back. -/
theorem Between.closer (h : Between s) (he : undisturbed e = true) (hleft : s.message ≠ [])
    (hstep : step s e = some t) :
    t.message = [] ∨ stepsLeft t.helper + (if isHelper e then 1 else 0) ≤ stepsLeft s.helper := by
  have hnot := h.not_waiting hleft
  cases step_moves hstep with
  | erase hhelper => exact Or.inl rfl
  | wait hhelper hempty =>
      rw [← h.shown, ne_eq, shown_eq_nil_iff] at hleft
      exact absurd hempty hleft
  | signal hmain =>
      have hout := h.out
      rw [hmain] at hout
      cases hout
  | wakeWaiting hhelper => exact absurd hhelper hnot
  | wakeSleeping ts hhelper => cases he
  | copy m i hmain hi => exact absurd hmain (h.notCopying m i)
  | terminate m i hmain hi => exact absurd hmain (h.notCopying m i)
  | helperLock hhelper hfree =>
      right
      rcases hhelper with hhelper | hhelper <;> simp [hhelper, isHelper, stepsLeft]
  | _ => right; simp_all [isHelper, stepsLeft]

/-- The helper has a step, or it waits for the main thread, which has one, or for the time it has
set itself. -/
def Proceeds (s : Threads) : Prop :=
  (∃ t, step s .helper = some t) ∨
    (s.msgLock = some .main ∧ ∃ t, step s .main = some t) ∨
    ∃ ts, s.helper = .sleeping ts ∧
      ∀ clock, s.clock.nanos ≤ clock.nanos → ts.nanos ≤ clock.nanos →
        ∃ t, run step s [.time clock, .timeout] = some t

theorem acquire_free {p : Party} (hfree : s.msgLock = none) :
    s.acquire p = some { s with msgLock := some p } := if_pos hfree

/-- The helper comes behind its wait for the lock, unless the main thread holds it. -/
theorem Locked.helper_proceeds (h : Locked s) (hout : helperHolds s.helper = false)
    (hstep : s.msgLock = none → ∃ t, step s .helper = some t) : Proceeds s := by
  cases hlock : s.msgLock with
  | none => exact Or.inl (hstep hlock)
  | some p =>
      cases p with
      | helper =>
          rw [h.helper.mpr hlock] at hout
          cases hout
      | main =>
          refine Or.inr (Or.inl ⟨hlock, ?_⟩)
          have hholds := h.main.mpr hlock
          cases hmain : s.main with
          | outside => simp [hmain, mainHolds] at hholds
          | locking next => simp [hmain, mainHolds] at hholds
          | copying m i =>
              simp only [step, mainStep, hmain]
              split_ifs <;> exact ⟨_, rfl⟩
          | _ => exact ⟨_, by simp only [step, mainStep, hmain]; rfl⟩

theorem Between.proceeds (h : Between s) (hleft : s.message ≠ []) : Proceeds s := by
  have hnot := h.not_waiting hleft
  cases hhelper : s.helper with
  | waiting => exact absurd hhelper hnot
  | locking =>
      apply h.sane.locked.helper_proceeds (by rw [hhelper]; rfl)
      intro hfree
      exact ⟨_, by simp only [step, helperStep, hhelper, acquire_free hfree]; rfl⟩
  | woken =>
      apply h.sane.locked.helper_proceeds (by rw [hhelper]; rfl)
      intro hfree
      exact ⟨_, by simp only [step, helperStep, hhelper, acquire_free hfree]; rfl⟩
  | roused timedOut =>
      apply h.sane.locked.helper_proceeds (by rw [hhelper]; rfl)
      intro hfree
      exact ⟨_, by simp only [step, helperStep, hhelper, acquire_free hfree]; rfl⟩
  | checking =>
      left
      simp only [step, helperStep, hhelper]
      split_ifs <;> exact ⟨_, rfl⟩
  | sleeping ts =>
      refine Or.inr (Or.inr ⟨ts, hhelper, fun clock hlater hover => ?_⟩)
      have htime : step s (.time clock) = some { s with clock := clock } := if_pos hlater
      have hend : step { s with clock := clock } .timeout =
          some { s with clock := clock, helper := .roused true } := by
        simp only [step, timeout, hhelper]
        exact if_pos hover
      exact ⟨_, by rw [run_cons, htime, Option.bind_some, run_cons, hend]; rfl⟩
  | _ => exact Or.inl ⟨_, by simp only [step, helperStep, hhelper]; rfl⟩

end Between

/-- A message that is not followed by another one is erased: the helper has always a step left, or
waits only for the main thread to leave its critical section or for the time to pass; and with
eight of its steps, whatever the main thread does meanwhile, the message is gone. -/
theorem message_goes {s : Threads} (hs : Reached s) (hout : inShowStatus s.main = false) :
    (s.shown ≠ [] → Proceeds s) ∧
      ∀ events t, (∀ e ∈ events, undisturbed e = true) → run step s events = some t →
        8 ≤ events.countP isHelper → t.shown = [] := by
  have hbetween : Between s := ⟨hs.sane, hout⟩
  refine ⟨fun hleft => hbetween.proceeds (by rwa [← hbetween.shown]), ?_⟩
  intro events t hevents hrun hmany
  have hkeep : ∀ u e v, Between u → undisturbed e = true → step u e = some v → Between v :=
    fun u e v hu he huv => hu.after he huv
  have hgone : ∀ u e v, Between u → undisturbed e = true → u.message = [] →
      step u e = some v → v.message = [] := fun u e v hu _ hnil huv => hu.stays_erased hnil huv
  have hless : ∀ u e v, Between u → undisturbed e = true → ¬ u.message = [] →
      step u e = some v → v.message = [] ∨
        stepsLeft v.helper + (if isHelper e then 1 else 0) ≤ stepsLeft u.helper :=
    fun u e v hu he hleft huv => hu.closer he hleft huv
  have hend : t.message = [] := by
    apply run_exhausts (fun u => stepsLeft u.helper) hkeep hgone hless hbetween hevents hrun
    have hle := stepsLeft_le s.helper
    omega
  have hbetween' : Between t := by
    apply run_of_everyStep (I := Between) (P := fun _ e => undisturbed e = true) hkeep hbetween
      _ hrun
    exact everyStep_of_invariant (I := fun _ => True) (fun _ _ _ _ _ _ => trivial)
      (fun _ _ _ he => he) trivial hevents
  rw [hbetween'.shown]
  exact hend

/-! ## How long a message stays -/

/-- The helper takes a message away either 1.5 seconds after its signal, or because the time of the
message before it was up when the signal came; and then it does so as soon as it has the lock,
whatever the clock says. -/
theorem message_stays {s : Threads} (hs : Reached s) :
    (∀ t, step s .helper = some t → s.message ≠ [] → t.message = [] →
      s.overtaken = true ∨ Due s) ∧
      (s.overtaken = true → s.msgLock ≠ some .main → ∃ n t,
        run step s (List.replicate n .helper) = some t ∧ t.shown = [] ∧ t.clock = s.clock) := by
  obtain ⟨hlocked, hwritten, -, htimed⟩ := hs.sane
  constructor
  · intro t hstep hleft hgone
    cases step_moves hstep with
    | erase hhelper => exact htimed.late (Or.inr hhelper)
    | _ => exact absurd hgone hleft
  · intro hovertaken hmain
    have herase : ∀ u : Threads, u.helper = .clearing → ∃ t,
        run step u (List.replicate 1 .helper) = some t ∧ t.shown = [] ∧ t.clock = u.clock := by
      intro u hu
      refine ⟨{ u.put 0 0 with
        helper := .unlocking, message := [], overtaken := false }, ?_, ?_, rfl⟩
      · simp only [List.replicate_one, run_cons, run_nil, step, helperStep, hu]
        rfl
      · exact shown_erased u
    rcases htimed.overtaken hovertaken with hhelper | hhelper
    · have hfree : s.msgLock = none := by
        cases hlock : s.msgLock with
        | none => rfl
        | some p =>
            cases p with
            | main => exact absurd hlock hmain
            | helper =>
                have hholds := hlocked.helper.mpr hlock
                rw [hhelper] at hholds
                cases hholds
      have hstep : step s .helper =
          some { s with msgLock := some .helper, helper := .clearing } := by
        simp only [step, helperStep, hhelper, acquire_free hfree]
        rfl
      obtain ⟨t, hrun, hshown, hclock⟩ :=
        herase { s with msgLock := some .helper, helper := .clearing } rfl
      refine ⟨2, t, ?_, hshown, hclock⟩
      rw [show (2 : ℕ) = 1 + 1 from rfl, List.replicate_succ, run_cons, hstep, Option.bind_some]
      exact hrun
    · obtain ⟨t, hrun, hshown, hclock⟩ := herase s hhelper
      exact ⟨1, t, hrun, hshown, hclock⟩

/-- The time of a first message is up, and the helper has noticed it, but a second message comes
before it has the lock. -/
def sayHiTwice : List Event :=
  sayHi ++ List.replicate 4 .helper ++ [.time noTime.wakeUp, .enter .draw, .main, .timeout,
    .main, .main] ++ sayHi

theorem message_goes_sayHi : ∃ s, run step (start noTime) sayHi = some s ∧
    ((s.shown ≠ [] → Proceeds s) ∧
      ∀ events t, (∀ e ∈ events, undisturbed e = true) → run step s events = some t →
        8 ≤ events.countP isHelper → t.shown = []) := by
  obtain ⟨s, hs, -⟩ := shown_whole_sayHi
  refine ⟨s, hs, message_goes ⟨noTime, sayHi, hs⟩ ?_⟩
  have hmain : (run step (start noTime) sayHi).map (fun s => inShowStatus s.main) = some false := by
    decide +kernel
  rw [hs] at hmain
  exact Option.some.inj hmain

/-- The second message is gone at the time at which it was signalled. -/
theorem message_stays_sayHiTwice : ∃ s, run step (start noTime) sayHiTwice = some s ∧
    s.shown = [72, 105] ∧ s.postedAt.nanos = s.clock.nanos ∧ ∃ n t,
      run step s (List.replicate n .helper) = some t ∧ t.shown = [] ∧ t.clock = s.clock := by
  have hend : (run step (start noTime) sayHiTwice).map (fun s =>
      (s.shown, decide (s.postedAt.nanos = s.clock.nanos), s.overtaken, s.msgLock)) =
        some ([72, 105], true, true, none) := by
    decide +kernel
  obtain ⟨s, hs, hfields⟩ := Option.map_eq_some_iff.mp hend
  simp only [Prod.mk.injEq, decide_eq_true_eq] at hfields
  obtain ⟨hshown, hposted, hovertaken, hfree⟩ := hfields
  refine ⟨s, hs, hshown, hposted, ?_⟩
  apply (message_stays ⟨noTime, sayHiTwice, hs⟩).2 hovertaken
  rw [hfree]
  exact fun h => by cases h

end MachineProblems.Analysis.Adventure
