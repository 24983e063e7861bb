/-
# `Xen2mx.Lib.Tiling` — intervals cut into pieces

`Tiles a b ps`: the pieces `ps`, each an offset and a length, lie end to end
and cover `[a, b)`.  Every position between `a` and `b` then belongs to one piece
and to one only (`Tiles.exists_unique`).  A sequence of cut points gives a
tiling, and tilings of adjacent intervals join.

Pieces of at most `max` are cut from the front: so many are needed that one more
is needed before each (`pieces_eq_succ`).
-/
import Mathlib.Data.List.Basic
import Mathlib.Data.List.Range
import Mathlib.Order.Monotone.Basic
import Mathlib.Tactic.Common

namespace Xen2mx

/-- The pieces `ps` cover `[a, b)` end to end. -/
inductive Tiles : ℕ → ℕ → List (ℕ × ℕ) → Prop
  | nil (a : ℕ) : Tiles a a []
  | cons {b len : ℕ} {ps : List (ℕ × ℕ)} (a : ℕ) (rest : Tiles (a + len) b ps) :
      Tiles a b ((a, len) :: ps)

namespace Tiles

theorem le {a b : ℕ} {ps : List (ℕ × ℕ)} (h : Tiles a b ps) : a ≤ b := by
  induction h with
  | nil => exact le_rfl
  | cons a _ ih => exact (Nat.le_add_right a _).trans ih

theorem append {a b c : ℕ} {ps qs : List (ℕ × ℕ)} (hp : Tiles a b ps) (hq : Tiles b c qs) :
    Tiles a c (ps ++ qs) := by
  induction hp with
  | nil => exact hq
  | cons a _ ih => exact .cons a (ih hq)

/-- The pieces between the points of a nondecreasing sequence. -/
theorem of_cuts {cut : ℕ → ℕ} (hmono : Monotone cut) :
    ∀ i n, Tiles (cut i) (cut (i + n))
      ((List.range' i n).map fun j => (cut j, cut (j + 1) - cut j))
  | i, 0 => .nil _
  | i, n + 1 => by
      have hle : cut i ≤ cut (i + 1) := hmono (Nat.le_succ i)
      have hrest := of_cuts hmono (i + 1) n
      rw [List.range'_succ, List.map_cons]
      refine .cons (cut i) ?_
      rw [Nat.add_sub_cancel' hle, show i + (n + 1) = i + 1 + n by omega]
      exact hrest

/-- Every piece of a tiling lies inside the interval. -/
theorem bounds {a b : ℕ} {ps : List (ℕ × ℕ)} (h : Tiles a b ps) {p : ℕ × ℕ} (hp : p ∈ ps) :
    a ≤ p.1 ∧ p.1 + p.2 ≤ b := by
  induction h with
  | nil => cases hp
  | @cons b len ps a rest ih =>
      rcases List.mem_cons.1 hp with rfl | hp
      · exact ⟨le_rfl, rest.le⟩
      · obtain ⟨hlo, hhi⟩ := ih hp
        exact ⟨(Nat.le_add_right a len).trans hlo, hhi⟩

/-- Every position of the interval belongs to one piece, counted by its rank, and
to no other. -/
theorem exists_unique {a b x : ℕ} {ps : List (ℕ × ℕ)} (h : Tiles a b ps) (hlo : a ≤ x)
    (hhi : x < b) :
    ∃! i : ℕ, ∃ p : ℕ × ℕ, ps[i]? = some p ∧ p.1 ≤ x ∧ x < p.1 + p.2 := by
  induction h with
  | nil a => omega
  | @cons b len ps a rest ih =>
      rcases Nat.lt_or_ge x (a + len) with hlt | hge
      · refine ⟨0, ⟨(a, len), rfl, hlo, hlt⟩, ?_⟩
        rintro (_ | i) ⟨p, hp, hpx, -⟩
        · rfl
        · have hmem : p ∈ ps := List.mem_of_getElem? hp
          have := (rest.bounds hmem).1
          omega
      · obtain ⟨i, ⟨p, hp, hpx⟩, huniq⟩ := ih hge hhi
        refine ⟨i + 1, ⟨p, hp, hpx⟩, ?_⟩
        rintro (_ | j) ⟨q, hq, hqx⟩
        · cases hq
          omega
        · rw [huniq j ⟨q, hq, hqx⟩]

end Tiles

/-! ## How many pieces -/

variable {max len : ℕ}

/-- No piece is needed for nothing. -/
theorem pieces_eq_zero_iff (hmax : 0 < max) : (len + max - 1) / max = 0 ↔ len = 0 := by
  rw [Nat.div_eq_zero_iff_lt hmax]
  omega

/-- The first piece is as long as it can be, and the others are cut from the rest. -/
theorem pieces_eq_succ (hmax : 0 < max) (hpos : 0 < len) :
    (len + max - 1) / max = (len - min max len + max - 1) / max + 1 := by
  rcases Nat.lt_or_ge max len with hlt | hge
  · have hsum : len + max - 1 = len - max + max - 1 + max := by omega
    rw [hsum, Nat.add_div_right _ hmax, Nat.min_eq_left hlt.le]
  · have hsum : len + max - 1 = len - 1 + max := by omega
    rw [hsum, Nat.add_div_right _ hmax, Nat.div_eq_of_lt (by omega), Nat.min_eq_right hge,
      Nat.sub_self, Nat.zero_add, Nat.div_eq_of_lt (by omega)]

/-- Full pieces. -/
theorem pieces_mul (hmax : 0 < max) (n : ℕ) : (n * max + max - 1) / max = n := by
  rw [Nat.add_sub_assoc hmax, Nat.add_comm, Nat.add_mul_div_right _ _ hmax,
    Nat.div_eq_of_lt (Nat.sub_lt hmax Nat.one_pos), Nat.zero_add]

/-- No more pieces than full ones are needed if none is cut. -/
theorem pieces_le_iff (hmax : 0 < max) : (len + max - 1) / max ≤ len / max ↔ max ∣ len := by
  constructor
  · intro hle
    have hlast := Nat.div_add_mod (len + max - 1) max
    have hmod := Nat.mod_lt (len + max - 1) hmax
    have hmul := Nat.mul_le_mul_left max hle
    have hdiv := Nat.mul_div_le len max
    exact ⟨len / max, by omega⟩
  · rintro ⟨n, rfl⟩
    rw [Nat.mul_comm max n, pieces_mul hmax, Nat.mul_div_cancel _ hmax]

end Xen2mx
