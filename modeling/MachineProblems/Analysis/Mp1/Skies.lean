import MachineProblems.Analysis.Mp1.MissileList
import MachineProblems.Analysis.Mp1.Tally

/-!
# The sky over a list

Whatever missiles lie in the list, there is a sky over them.
-/

set_option autoImplicit false

namespace MachineProblems.Analysis.Mp1

open MachineProblems.Library MachineProblems.Program.Mp1 MachineProblems.Model
open MachineProblems.Model.Sky

/-- The missiles of a list in the memory, numbered from `n` on. -/
theorem exists_fleet {mem : Memory} (l : List Word) :
    ∀ {n : ℕ}, (∀ a ∈ l, ∃ f, mem.missileAt a = some f) → ∃ fleet : List Flying,
      fleet.map Flying.addr = l ∧ fleet.map Flying.id = List.range' n l.length ∧
      ∀ u ∈ fleet, mem.missileAt u.addr = some u.missile := by
  induction l with
  | nil =>
      intro n _
      exact ⟨[], rfl, rfl, by intro u hu; cases hu⟩
  | cons a l ih =>
      intro n hl
      obtain ⟨f, hf⟩ := hl a List.mem_cons_self
      obtain ⟨fleet, haddrs, hids, hmissiles⟩ :=
        ih (n := n + 1) fun b hb => hl b (List.mem_cons_of_mem _ hb)
      refine ⟨⟨n, a, f⟩ :: fleet, ?_, ?_, ?_⟩
      · rw [List.map_cons, haddrs]
      · rw [List.map_cons, hids, List.length_cons, List.range'_succ]
      · exact List.forall_mem_cons.mpr ⟨hf, hmissiles⟩

/-- The sky over any list of missiles. -/
theorem exists_sky {m : Machine} {l : List Word} (hl : Listed m.mem l) :
    ∃ (g : Ground) (s : Sky) (added : List Missile), At g s m ∧ s.fleet.map Flying.addr = l ∧
      (∀ u ∈ s.fleet, m.mem.missileAt u.addr = some u.missile) ∧ s.hits = [] ∧
      Tally added m.mem.score s ∧ added.length = l.length := by
  have hmissiles : ∀ a ∈ l, ∃ f, m.mem.missileAt a = some f := by
    intro a ha
    obtain ⟨c, hc⟩ := Option.isSome_iff_exists.mp (hl.chain.isSome ha)
    obtain ⟨f, hf, -⟩ := missileAt_of_links hc
    exact ⟨f, hf⟩
  obtain ⟨fleet, haddrs, hids, hfleet⟩ := exists_fleet (n := 0) l hmissiles
  let s : Sky := { clearSky m with done := fleet, born := l.length }
  have hsame : s.fleet = fleet := List.append_nil fleet
  have hlen : fleet.length = l.length := by rw [← haddrs, List.length_map]
  refine ⟨⟨fun a => if a ∈ l then none else m.mem.heap a, m.video, m.removals⟩, s,
    fleet.map Flying.missile, ?_, ?_, ?_, rfl, ?_, ?_⟩
  · constructor
    · rw [hsame]
      refine ⟨?_, fun u hu => ⟨u.missile.next, hfleet u hu⟩⟩
      rw [haddrs]
      exact hl
    · rfl
    · rfl
    · rw [hsame, haddrs]
      intro a ha
      exact (if_neg ha).symm
    · rw [hsame]
      intro u hu
      exact if_pos (haddrs ▸ List.mem_map_of_mem hu)
    · exact (List.append_nil _).symm
    · rfl
    · rfl
    · exact fun r hr => Or.inl hr
  · rw [hsame, haddrs]
  · rw [hsame]
    exact hfleet
  · constructor
    case born => exact (by rw [List.length_map, hlen])
    case ids =>
      rw [hsame, hids]
      exact List.nodup_range'
    case kinds =>
      rw [hsame]
      intro u hu
      obtain ⟨i, hi, rfl⟩ := List.getElem_of_mem hu
      have hid : fleet[i].id = i := by
        have hget : (fleet.map Flying.id)[i]? = some fleet[i].id := by simp [hi]
        rw [hids, List.getElem?_range' (by omega)] at hget
        simpa using hget.symm
      refine ⟨fleet[i].missile, ?_, rfl⟩
      rw [hid]
      simp [hi]
    case score => exact (BitVec.add_zero _).symm
    case pairs =>
      intro h hh
      cases hh
    case once => exact List.nodup_nil
    case unhit => exact fun u _ _ => List.not_mem_nil
    case unreached => exact fun u _ _ => List.not_mem_nil
    case apart =>
      intro h hh
      cases hh
    case past =>
      intro i hi
      cases hi
  · rw [List.length_map, hlen]

end MachineProblems.Analysis.Mp1
