/-
# `Xen2mx.Lib.Fifo` — queues in the order of a key

A queue to which elements are appended as they come is ordered by the time they came.
A search from its head then finds the earliest element that satisfies the predicate.
The times are a key of the elements, so that the order survives when elements leave
from the middle, and so that "earliest" can be said of elements of several queues.  Elements that
come at one time, as clocks have it, are ordered only weakly.
-/
import Mathlib.Data.List.Basic
import Mathlib.Order.Nat
import Mathlib.Tactic.Common

namespace Xen2mx

universe u

variable {α : Type u} {key : α → ℕ} {P Q : α → Prop} {l l' : List α} {x y : α}

/-! ## The earliest element -/

/-- `x` is the earliest of the elements that satisfy `P`. -/
def Earliest (key : α → ℕ) (P : α → Prop) (x : α) : Prop := P x ∧ ∀ y, P y → key x ≤ key y

theorem Earliest.congr (h : ∀ y, P y ↔ Q y) : Earliest key P x ↔ Earliest key Q x := by
  obtain rfl : P = Q := funext fun y => propext (h y)
  exact Iff.rfl

/-! ## Ordered queues -/

/-- The elements of the queue came one after the other. -/
def Ordered (key : α → ℕ) (l : List α) : Prop := l.Pairwise fun x y => key x < key y

namespace Ordered

theorem nil : Ordered key ([] : List α) := List.Pairwise.nil

theorem sublist (h : Ordered key l) (hsub : l'.Sublist l) : Ordered key l' :=
  List.Pairwise.sublist hsub h

/-- An element that comes later than all others goes to the tail. -/
theorem push (h : Ordered key l) (hx : ∀ y ∈ l, key y < key x) : Ordered key (l ++ [x]) := by
  refine List.pairwise_append.2 ⟨h, List.pairwise_singleton _ _, fun y hy z hz => ?_⟩
  obtain rfl := List.mem_singleton.1 hz
  exact hx y hy

theorem nodup (h : Ordered key l) : l.Nodup := by
  refine List.Pairwise.imp (fun {x y} hlt heq => ?_) h
  rw [heq] at hlt
  exact absurd hlt (lt_irrefl _)

/-- A search from the head finds the earliest element. -/
theorem find?_eq_some {p : α → Bool} (h : Ordered key l) :
    l.find? p = some x ↔ Earliest key (fun y => y ∈ l ∧ p y) x := by
  induction l with
  | nil => exact iff_of_false nofun fun hx => nomatch hx.1.1
  | cons a l ih =>
      obtain ⟨hhead, htail⟩ := List.pairwise_cons.1 h
      rw [List.find?_cons]
      split
      · rename_i hpa
        constructor
        · rintro ⟨⟩
          refine ⟨⟨List.mem_cons_self, hpa⟩, fun y hy => ?_⟩
          rcases List.mem_cons.1 hy.1 with rfl | hy'
          · exact le_rfl
          · exact (hhead y hy').le
        · rintro ⟨⟨hx, hpx⟩, hfirst⟩
          rcases List.mem_cons.1 hx with rfl | hx'
          · rfl
          · exact absurd (hfirst a ⟨List.mem_cons_self, hpa⟩) (hhead x hx').not_ge
      · rename_i hpa
        rw [ih htail]
        refine Earliest.congr fun y => and_congr_left fun hpy => ?_
        refine ⟨List.mem_cons_of_mem a, fun hy => ?_⟩
        rcases List.mem_cons.1 hy with rfl | hy'
        · rw [hpa] at hpy
          cases hpy
        · exact hy'

end Ordered

/-! ## Queues of what came by now -/

/-- The elements came by `now`, none after the one behind it. -/
structure Stamped (key : α → ℕ) (now : ℕ) (l : List α) : Prop where
  pairwise : l.Pairwise fun x y => key x ≤ key y
  le : ∀ x ∈ l, key x ≤ now

namespace Stamped

variable {now now' : ℕ}

theorem nil : Stamped key now ([] : List α) := ⟨List.Pairwise.nil, nofun⟩

theorem mono (h : Stamped key now l) (hle : now ≤ now') : Stamped key now' l :=
  ⟨h.pairwise, fun x hx => (h.le x hx).trans hle⟩

theorem sublist (h : Stamped key now l) (hsub : l'.Sublist l) : Stamped key now l' :=
  ⟨h.pairwise.sublist hsub, fun x hx => h.le x (hsub.subset hx)⟩

/-- What is behind the first element came no earlier. -/
theorem head_le (h : Stamped key now (x :: l)) : ∀ y ∈ l, key x ≤ key y :=
  (List.pairwise_cons.1 h.pairwise).1

theorem append (h : Stamped key now l) (h' : Stamped key now' l') (hle : now ≤ now')
    (hge : ∀ x ∈ l, ∀ y ∈ l', key x ≤ key y) : Stamped key now' (l ++ l') := by
  refine ⟨List.pairwise_append.2 ⟨h.pairwise, h'.pairwise, hge⟩, fun x hx => ?_⟩
  rcases List.mem_append.1 hx with hx | hx
  · exact (h.le x hx).trans hle
  · exact h'.le x hx

/-- An element that came no earlier than the others goes to the tail. -/
theorem push (h : Stamped key now l) (hx : ∀ y ∈ l, key y ≤ key x) (hnow : key x ≤ now) :
    Stamped key now (l ++ [x]) := by
  refine h.append ⟨List.pairwise_singleton _ _, fun y hy => ?_⟩ le_rfl fun y hy z hz => ?_
  · rwa [List.mem_singleton.1 hy]
  · rw [List.mem_singleton.1 hz]
    exact hx y hy

/-- What changes nothing of the key changes nothing of the order. -/
theorem map {f : α → α} (h : Stamped key now l) (hf : ∀ x, key (f x) = key x) :
    Stamped key now (l.map f) := by
  refine ⟨List.pairwise_map.2 (h.pairwise.imp fun {x y} hle => ?_), fun x hx => ?_⟩
  · rwa [hf, hf]
  · obtain ⟨y, hy, rfl⟩ := List.mem_map.1 hx
    rw [hf]
    exact h.le y hy

end Stamped

end Xen2mx
