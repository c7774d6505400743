import Mathlib.Data.List.Basic

/-!
# Scanning a stream for three-element frames

`frame a b c` says whether three consecutive elements form a frame.  The left-to-right
scanner emits a frame and skips it, or skips one element; `packets` is what it emits
and `leftover` what it cannot decide yet (at most two elements).  `packets_append` and
`leftover_append` are the point: a stream may be cut anywhere, as long as the leftover
of one piece is put before the next.
-/

set_option autoImplicit false

namespace MachineProblems.Library.FrameScanner

variable {α : Type} (frame : α → α → α → Bool)

/-- The frames the scanner emits. -/
def packets : List α → List (α × α × α)
  | a :: b :: c :: rest =>
      if frame a b c then (a, b, c) :: packets rest else packets (b :: c :: rest)
  | _ => []

/-- The elements the scanner keeps for later. -/
def leftover : List α → List α
  | a :: b :: c :: rest => if frame a b c then leftover rest else leftover (b :: c :: rest)
  | short => short

/-- The scanner's last case is the one of a list too short for a frame. -/
theorem length_le_two {l : List α} (h : ∀ a b c rest, l = a :: b :: c :: rest → False) :
    l.length ≤ 2 := by
  match l, h with
  | [], _ => simp
  | [_], _ => simp
  | [_, _], _ => simp
  | a :: b :: c :: rest, h => exact (h a b c rest rfl).elim

theorem packets_of_short {l : List α} (h : l.length ≤ 2) : packets frame l = [] := by
  match l, h with
  | [], _ => rfl
  | [_], _ => rfl
  | [_, _], _ => rfl

theorem leftover_of_short {l : List α} (h : l.length ≤ 2) : leftover frame l = l := by
  match l, h with
  | [], _ => rfl
  | [_], _ => rfl
  | [_, _], _ => rfl

theorem length_leftover_le (l : List α) : (leftover frame l).length ≤ 2 := by
  induction l using leftover.induct frame with
  | case1 a b c rest hf ih => simpa [leftover, hf] using ih
  | case2 a b c rest hf ih => simpa [leftover, hf] using ih
  | case3 l hshort => rw [leftover_of_short frame (length_le_two hshort)]; exact length_le_two hshort

/-- The scanner leaves the end of the stream. -/
theorem leftover_suffix (l : List α) : leftover frame l <:+ l := by
  induction l using leftover.induct frame with
  | case1 a b c rest hf ih =>
      simp only [leftover, hf, if_true]
      exact ih.trans ⟨[a, b, c], rfl⟩
  | case2 a b c rest hf ih =>
      simp only [leftover, hf]
      exact ih.trans (List.suffix_cons a _)
  | case3 l hshort =>
      have hall : leftover frame l = l := leftover_of_short frame (length_le_two hshort)
      exact ⟨[], hall⟩

theorem drop_eq_leftover (l : List α) :
    l.drop (l.length - (leftover frame l).length) = leftover frame l :=
  (List.suffix_iff_eq_drop.mp (leftover_suffix frame l)).symm

/-- **Cutting the stream**: the frames of a stream are those of its first part and
those of the second part put after the first part's leftover. -/
theorem packets_append (xs ys : List α) :
    packets frame (xs ++ ys) = packets frame xs ++ packets frame (leftover frame xs ++ ys) := by
  induction xs using packets.induct frame with
  | case1 a b c rest hf ih => simp [packets, leftover, hf, ih]
  | case2 a b c rest hf ih =>
      simp only [List.cons_append] at ih ⊢
      simp [packets, leftover, hf, ih]
  | case3 l hshort =>
      have hl := length_le_two hshort
      rw [leftover_of_short frame hl, packets_of_short frame hl, List.nil_append]

/-- The leftover of a stream is that of its second part put after the first part's
leftover. -/
theorem leftover_append (xs ys : List α) :
    leftover frame (xs ++ ys) = leftover frame (leftover frame xs ++ ys) := by
  induction xs using packets.induct frame with
  | case1 a b c rest hf ih => simp [leftover, hf, ih]
  | case2 a b c rest hf ih =>
      simp only [List.cons_append] at ih ⊢
      simp [leftover, hf, ih]
  | case3 l hshort => rw [leftover_of_short frame (length_le_two hshort)]

/-! ## Streams of frames -/

/-- The elements of a frame. -/
def elements (f : α × α × α) : List α := [f.1, f.2.1, f.2.2]

/-- **Scanning a part of a stream of frames**: the scanner emits the frames that are complete, and
what it keeps belongs before the rest of the stream. -/
theorem packets_of_frames {frames : List (α × α × α)}
    (hframes : ∀ f ∈ frames, frame f.1 f.2.1 f.2.2 = true) {xs ys : List α}
    (h : xs ++ ys = (frames.map elements).flatten) :
    frames = packets frame xs ++ frames.drop (packets frame xs).length ∧
      leftover frame xs ++ ys =
        ((frames.drop (packets frame xs).length).map elements).flatten := by
  induction frames generalizing xs with
  | nil =>
      obtain ⟨rfl, rfl⟩ := List.append_eq_nil_iff.mp h
      exact ⟨rfl, rfl⟩
  | cons f frames ih =>
      obtain ⟨a, b, c⟩ := f
      have hf : frame a b c = true := hframes _ List.mem_cons_self
      match xs, h with
      | [], h => exact ⟨rfl, h⟩
      | [_], h => exact ⟨rfl, h⟩
      | [_, _], h => exact ⟨rfl, h⟩
      | a' :: b' :: c' :: xs, h =>
          simp only [List.map_cons, List.flatten_cons, elements, List.cons_append,
            List.nil_append, List.cons.injEq] at h
          obtain ⟨rfl, rfl, rfl, hrest⟩ := h
          obtain ⟨hdone, hkept⟩ := ih (fun f hmem => hframes f (List.mem_cons_of_mem _ hmem)) hrest
          rw [packets, leftover, if_pos hf, if_pos hf]
          exact ⟨congrArg _ hdone, hkept⟩

end MachineProblems.Library.FrameScanner
