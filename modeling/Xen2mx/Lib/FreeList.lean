/-
# `Xen2mx.Lib.FreeList` — a list threaded through the entries of an array

The free entries of an array need no memory beside it: each says which is next, and the list
ends where no next is given.

    first ──▸ a ──▸ b ──▸ c ──▸ none

**Proved here.**

    the first entry gives the list, and no entry is in it twice    (`Threaded.unique`, `.nodup`)
    an entry of the list is the first of what is left from there   (`Threaded.of_mem`)
    what the next of other entries is does not matter              (`Threaded.congr`)
    an entry in front                                              (`Threaded.push`)
    each entry of an array gives the one after it                  (`Threaded.range`)
-/
import Mathlib.Data.List.Nodup
import Mathlib.Logic.Function.Basic
import Mathlib.Tactic.Common

namespace Xen2mx

universe u

variable {α : Type u}

/-- The list that begins at an entry. -/
inductive Threaded (next : α → Option α) : Option α → List α → Prop
  | nil : Threaded next none []
  | cons {a : α} {l : List α} : Threaded next (next a) l → Threaded next (some a) (a :: l)

namespace Threaded

variable {next next' : α → Option α} {first : Option α} {a : α} {l l' : List α}

theorem unique (h : Threaded next first l) (h' : Threaded next first l') : l = l' := by
  induction h generalizing l' with
  | nil => cases h'; rfl
  | cons _ ih =>
      cases h' with
      | cons hl' => rw [ih hl']

theorem eq_nil (h : Threaded next none l) : l = [] := by
  cases h; rfl

/-- From an entry of the list on, the list is the one that begins there. -/
theorem of_mem (h : Threaded next first l) (ha : a ∈ l) :
    ∃ before after, l = before ++ a :: after ∧ Threaded next (some a) (a :: after) := by
  induction h with
  | nil => cases ha
  | @cons b l hl ih =>
      rcases List.mem_cons.1 ha with rfl | ha
      · exact ⟨[], l, rfl, .cons hl⟩
      · obtain ⟨before, after, rfl, hafter⟩ := ih ha
        exact ⟨b :: before, after, rfl, hafter⟩

theorem nodup (h : Threaded next first l) : l.Nodup := by
  induction h with
  | nil => exact List.nodup_nil
  | @cons a l hl ih =>
      refine List.nodup_cons.2 ⟨fun ha => ?_, ih⟩
      -- an entry that came again would begin the same list a second time
      obtain ⟨before, after, heq, hafter⟩ := hl.of_mem ha
      have hlen := congrArg List.length (unique (.cons hl) hafter)
      rw [heq] at hlen
      simp only [List.length_cons, List.length_append] at hlen
      omega

theorem congr (h : Threaded next first l) (heq : ∀ a ∈ l, next' a = next a) :
    Threaded next' first l := by
  induction h with
  | nil => exact .nil
  | @cons a l hl ih =>
      refine .cons ?_
      rw [heq a (List.mem_cons_self ..)]
      exact ih fun b hb => heq b (List.mem_cons_of_mem _ hb)

theorem push [DecidableEq α] (h : Threaded next first l) (ha : a ∉ l) :
    Threaded (Function.update next a first) (some a) (a :: l) := by
  refine .cons ?_
  rw [Function.update_self]
  refine h.congr fun b hb => Function.update_of_ne ?_ _ _
  rintro rfl
  exact ha hb

/-- An array in which each entry gives the one after it. -/
theorem range {n : ℕ} (h : 0 < n) :
    Threaded (fun i => if i + 1 < n then some (i + 1) else none) (some 0) (List.range n) := by
  -- the list of the entries from the i-th on
  have hfrom : ∀ m i, i + m + 1 = n →
      Threaded (fun i => if i + 1 < n then some (i + 1) else none) (some i)
        (List.range' i (m + 1)) := by
    intro m
    induction m with
    | zero =>
        intro i hi
        refine .cons ?_
        rw [if_neg (by omega)]
        exact .nil
    | succ m ih =>
        intro i hi
        refine .cons ?_
        rw [if_pos (by omega)]
        exact ih (i + 1) (by omega)
  obtain ⟨m, rfl⟩ := Nat.exists_eq_succ_of_ne_zero (Nat.pos_iff_ne_zero.1 h)
  rw [List.range_eq_range']
  exact hfrom m 0 (by omega)

end Threaded

end Xen2mx
