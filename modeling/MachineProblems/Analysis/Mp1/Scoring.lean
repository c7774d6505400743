import MachineProblems.Analysis.Mp1.MissileList
import MachineProblems.Analysis.Mp1.Tally

/-!
# The score

The score of the driver is the number of hits in the sky over it.
-/

set_option autoImplicit false

namespace MachineProblems.Analysis.Mp1

open MachineProblems.Library MachineProblems.Program.Mp1 MachineProblems.Model
open MachineProblems.Model.Sky

/-- **The score counts each enemy once.**  Whatever happened before `mp1_ioctl_startgame`, after
it the driver follows a sky from an empty one, call by call, and `mp1_score` is the number of hits
in its account.  In that account no enemy stands twice; the one that hits is another missile, of
character `*`, the one that is hit an `e`; and none that is hit has reached its destination. -/
theorem score_counts_hits {fuel : ℕ} {m₀ m : Machine} (hload : Loaded m₀)
    {before rs : List Request} {start : Request} (hstart : start.command = .startgame)
    (hrs : ∀ r ∈ rs, r.command = .addmissile ∨ r.command = .rtcTasklet)
    (hgranted : everyStep (serve fuel) Granted m₀ (before ++ start :: rs))
    (hfuel : (before ++ start :: rs).length < fuel)
    (hrun : run (serve fuel) m₀ (before ++ start :: rs) = some m) :
    ∃ s others, s = (((clearSky m₀).after before).restart.after rs) ∧ Under others s m ∧
      m.mem.score = BitVec.ofNat 32 s.hits.length ∧
      (s.hits.map Prod.snd).Nodup ∧
      (∀ h ∈ s.hits, h.1 ≠ h.2 ∧ OfKind (addedBy rs) 42 h.1 ∧ OfKind (addedBy rs) 101 h.2 ∧
        h.2 ∉ s.reached) ∧
      m.mem.score.toNat ≤ (addedBy rs).countP fun f => f.c == 101 := by
  have hlen : (clearSky m₀).fleet.length + (before ++ start :: rs).length < fuel := by
    have hzero : (clearSky m₀).fleet.length = 0 := rfl
    omega
  obtain ⟨others, hunder⟩ := run_under hload.under hgranted hlen hrun
  have hafter : (clearSky m₀).after (before ++ start :: rs) =
      ((clearSky m₀).after before).restart.after rs := by
    rw [after, List.foldl_append, List.foldl_cons, command, hstart]
    rfl
  rw [hafter] at hunder
  have htally := (tally_restart ((clearSky m₀).after before)).after rs (by
    intro r hr hcommand
    rcases hrs r hr with h | h <;> rw [hcommand] at h <;> cases h)
  rw [List.nil_append] at htally
  have hscore : m.mem.score = BitVec.ofNat 32
      (((clearSky m₀).after before).restart.after rs).hits.length := by
    have hsame : m.mem.score = (((clearSky m₀).after before).restart.after rs).score := hunder.score
    exact hsame.trans (htally.score.trans (BitVec.zero_add _))
  refine ⟨_, others, rfl, hunder, hscore, htally.once, ?_, ?_⟩
  · intro h hh
    obtain ⟨hne, hstar, henemy⟩ := htally.pairs h hh
    exact ⟨hne, hstar, henemy, htally.apart h hh⟩
  · rw [hscore, BitVec.toNat_ofNat]
    exact (Nat.mod_le _ _).trans htally.hits_le

/-- A game is started, a missile added, and the clock ticks. -/
def firstTick : List Request :=
  [⟨.addmissile, 4096, zeroRegs, kernel⟩, ⟨.rtcTasklet, 0, zeroRegs, kernel⟩]

def startRequest : Request := ⟨.startgame, 0, zeroRegs, kernel⟩

theorem score_counts_hits_firstTick :
    ∃ m s others, run (serve 4) idle ([] ++ startRequest :: firstTick) = some m ∧
      s = (((clearSky idle).after []).restart.after firstTick) ∧ Under others s m ∧
      m.mem.score = BitVec.ofNat 32 s.hits.length ∧
      (s.hits.map Prod.snd).Nodup ∧
      (∀ h ∈ s.hits, h.1 ≠ h.2 ∧ OfKind (addedBy firstTick) 42 h.1 ∧
        OfKind (addedBy firstTick) 101 h.2 ∧ h.2 ∉ s.reached) ∧
      m.mem.score.toNat ≤ (addedBy firstTick).countP fun f => f.c == 101 := by
  have hload : Loaded idle := ⟨rfl, rfl, rfl⟩
  have hgranted : everyStep (serve 4) Granted idle ([] ++ startRequest :: firstTick) := by
    refine ⟨trivial, fun t ht => ⟨⟨?_, rfl⟩, fun _ _ => ⟨trivial, fun _ _ => trivial⟩⟩⟩
    obtain ⟨m₁, hrun, hmem⟩ := startgame_restarted 4 idle 0 zeroRegs kernel
    obtain rfl : t = m₁ := Option.some.inj (ht.symm.trans hrun)
    refine Or.inr ?_
    rw [hmem]
    rfl
  have hfed : ∀ r ∈ startRequest :: firstTick, ¬ Starved r := by
    rintro r hr ⟨-, hblock⟩
    simp only [startRequest, firstTick, List.mem_cons, List.not_mem_nil, or_false] at hr
    rcases hr with rfl | rfl | rfl <;> cases hblock
  obtain ⟨m, -, hrun, -⟩ := run_fed (startRequest :: firstTick) hload.under hgranted hfed (by decide)
  have hrs : ∀ r ∈ firstTick, r.command = .addmissile ∨ r.command = .rtcTasklet := by
    decide
  have hstart : startRequest.command = .startgame := rfl
  obtain ⟨s, others, h⟩ := score_counts_hits hload hstart hrs hgranted (by decide) hrun
  exact ⟨m, s, others, hrun, h⟩

end MachineProblems.Analysis.Mp1
