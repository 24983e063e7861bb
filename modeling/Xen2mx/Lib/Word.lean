/-
# `Xen2mx.Lib.Word` — unsigned arithmetic on natural numbers

The counters and lengths of a C program are natural numbers below a power of
two.  Additions wrap by an explicit remainder; a subtraction that would go below
zero wraps to the top.  `Word w` collects both at the width `w`; the lemmas say
when nothing wraps.
-/
import Mathlib.Data.Nat.ModEq
import Mathlib.Tactic.Common

namespace Xen2mx.Word

/-- A value reduced to `w` bits. -/
def wrap (w x : ℕ) : ℕ := x % 2 ^ w

/-- Subtraction at `w` bits: the complement is added. -/
def sub (w a b : ℕ) : ℕ := (2 ^ w - b % 2 ^ w + a) % 2 ^ w

theorem wrap_of_lt {w x : ℕ} (h : x < 2 ^ w) : wrap w x = x := Nat.mod_eq_of_lt h

theorem wrap_lt (w x : ℕ) : wrap w x < 2 ^ w := Nat.mod_lt x (Nat.two_pow_pos w)

/-- A difference that stays above zero does not wrap. -/
theorem sub_of_le {w a b : ℕ} (hle : b ≤ a) (hlt : a < 2 ^ w) : sub w a b = a - b := by
  have hb : b % 2 ^ w = b := Nat.mod_eq_of_lt (Nat.lt_of_le_of_lt hle hlt)
  have hsum : 2 ^ w - b + a = (a - b) + 2 ^ w := by omega
  rw [sub, hb, hsum, Nat.add_mod_right]
  exact Nat.mod_eq_of_lt (by omega)

/-- The distance of two counters that count without bound, if it is small. -/
theorem sub_eq_of_le_of_lt {w a b : ℕ} (hle : b ≤ a) (hlt : a < b + 2 ^ w) : sub w a b = a - b := by
  have hpos := Nat.two_pow_pos w
  have hb : b % 2 ^ w < 2 ^ w := Nat.mod_lt b hpos
  have hsplit := Nat.div_add_mod b (2 ^ w)
  have hsum : 2 ^ w - b % 2 ^ w + a = (a - b) + 2 ^ w + 2 ^ w * (b / 2 ^ w) := by omega
  rw [sub, hsum, Nat.add_mul_mod_self_left, Nat.add_mod_right]
  exact Nat.mod_eq_of_lt (by omega)

/-- A counter that moves up to a value below the top of the word gets there. -/
theorem wrap_sub_add_sub {w x y z : ℕ} (hxy : x ≤ y) (hyz : y ≤ z) (h : z < 2 ^ w) :
    wrap w (y - x + (z - y)) = z - x := by
  rw [show y - x + (z - y) = z - x by omega, wrap_of_lt (by omega)]

/-- Reducing an operand first does not change a sum. -/
theorem wrap_wrap_add (w x y : ℕ) : wrap w (wrap w x + y) = wrap w (x + y) :=
  Nat.mod_add_mod x (2 ^ w) y

/-- Subtraction only sees its first operand reduced. -/
theorem sub_wrap_of_le {w a b : ℕ} (hle : b ≤ a) : sub w (wrap w a) b = wrap w (a - b) := by
  have hpos := Nat.two_pow_pos w
  have hb : b % 2 ^ w < 2 ^ w := Nat.mod_lt b hpos
  have hsplit := Nat.div_add_mod b (2 ^ w)
  have hcongr : (2 ^ w - b % 2 ^ w + a % 2 ^ w + b) % 2 ^ w = (a - b + b) % 2 ^ w := by
    have hsum : 2 ^ w - b % 2 ^ w + a % 2 ^ w + b
        = a % 2 ^ w + 2 ^ w + 2 ^ w * (b / 2 ^ w) := by omega
    rw [hsum, Nat.add_mul_mod_self_left, Nat.add_mod_right, Nat.mod_mod, Nat.sub_add_cancel hle]
  exact Nat.ModEq.add_right_cancel' b hcongr

/-- A wider word keeps the low bits. -/
theorem wrap_wrap_of_le {v w : ℕ} (h : v ≤ w) (x y : ℕ) : wrap v (wrap w x + y) = wrap v (x + y) := by
  rw [wrap, wrap, wrap, Nat.add_mod, Nat.mod_mod_of_dvd x (Nat.pow_dvd_pow 2 h), ← Nat.add_mod]

end Xen2mx.Word
