import Mathlib.Tactic.Linarith

/-!
# Bit fields of natural numbers

Fields that do not overlap are joined by `|`, which is then `+`; the lemmas turn the
shifts and masks of C and assembly into division and remainder.
-/

set_option autoImplicit false

namespace MachineProblems.Library

/-- **Three fields of one width**, joined by `|`. -/
theorem or_fields (w : ℕ) {a b c : ℕ} (hb : b < 2 ^ w) (hc : c < 2 ^ w) :
    (a <<< (2 * w) ||| b <<< w ||| c) = (a * 2 ^ w + b) * 2 ^ w + c := by
  have hbc : b <<< w ||| c = b <<< w + c := (Nat.shiftLeft_add_eq_or_of_lt hc b).symm
  have hlt : b <<< w + c < 2 ^ (2 * w) := by
    rw [Nat.shiftLeft_eq, two_mul, pow_add]
    calc b * 2 ^ w + c < b * 2 ^ w + 2 ^ w := by omega
      _ = (b + 1) * 2 ^ w := by rw [add_mul, one_mul]
      _ ≤ 2 ^ w * 2 ^ w := Nat.mul_le_mul_right _ hb
  rw [Nat.or_assoc, hbc, ← Nat.shiftLeft_add_eq_or_of_lt hlt a, Nat.shiftLeft_eq,
    Nat.shiftLeft_eq, two_mul, pow_add, add_mul, mul_assoc, add_assoc]

end MachineProblems.Library
