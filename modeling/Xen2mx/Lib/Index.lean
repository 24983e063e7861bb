/-
# `Xen2mx.Lib.Index` — a list that is kept in parts as well

Some entries of a list have a key.  Next to the list there is a part for each key, which should
hold the entries with that key in the order of the list:

    all      a₁  b₁  a₂  c₁  b₂
    part a   a₁      a₂
    part b       b₁          b₂

The parts are only searched as the list is where the first entry that is looked for has the key
of the part.

**Proved here.**

    appending to both, erasing from both, changing other keys keep the parts      (`Mirrors.append`, `.erase`, `.congr`)
    what a part has is what the list has with its key                             (`Mirrors.mem_iff`)
    search of a part = search of the list  ⟺  what the list gives has the key     (`Mirrors.find?_eq_iff`)
-/
import Mathlib.Data.List.Basic
import Mathlib.Logic.Function.Basic
import Mathlib.Tactic.Common

namespace Xen2mx

universe u v

variable {α : Type u} {κ : Type v} [DecidableEq κ]

/-- Each part holds the entries with its key. -/
def Mirrors (key : α → Option κ) (all : List α) (part : κ → List α) : Prop :=
  ∀ c, part c = all.filter fun x => key x = some c

namespace Mirrors

variable {key key' : α → Option κ} {all : List α} {part : κ → List α}

theorem nil : Mirrors key [] fun _ => [] := fun _ => rfl

theorem mem_iff (h : Mirrors key all part) {c : κ} {x : α} :
    x ∈ part c ↔ x ∈ all ∧ key x = some c := by
  rw [h c, List.mem_filter, decide_eq_true_eq]

/-- The keys of the entries matter only. -/
theorem congr (h : Mirrors key all part) (hkey : ∀ x ∈ all, key' x = key x) :
    Mirrors key' all part := by
  intro c
  rw [h c]
  exact List.filter_congr fun x hx => by rw [hkey x hx]

theorem append (h : Mirrors key all part) {x : α} {c : κ} (hkey : key x = some c) :
    Mirrors key (all ++ [x]) (Function.update part c (part c ++ [x])) := by
  intro c'
  rw [List.filter_append]
  by_cases hc : c' = c
  · subst hc
    rw [Function.update_self, h c', List.filter_cons_of_pos (by simp [hkey])]
    rfl
  · have hne : key x ≠ some c' := fun heq => hc (Option.some.inj (heq.symm.trans hkey))
    rw [Function.update_of_ne hc, h c', List.filter_cons_of_neg (by simp [hne]), List.filter_nil,
      List.append_nil]

theorem erase [DecidableEq α] (h : Mirrors key all part) (hnodup : all.Nodup) (x : α) :
    Mirrors key (all.erase x) fun c => (part c).erase x := by
  intro c
  have hpart : (part c).Nodup := by
    rw [h c]
    exact hnodup.sublist List.filter_sublist
  dsimp only
  rw [List.Nodup.erase_eq_filter hpart, List.Nodup.erase_eq_filter hnodup, h c,
    List.filter_filter, List.filter_filter]
  exact List.filter_congr fun y _ => Bool.and_comm _ _

/-- What a search of a part gives. -/
theorem find?_eq_iff (h : Mirrors key all part) (c : κ) (p : α → Bool) :
    (part c).find? p = all.find? p ↔ ∀ x ∈ all.find? p, key x = some c := by
  constructor
  · intro heq x hx
    rw [Option.mem_def, ← heq] at hx
    exact (h.mem_iff.1 (List.mem_of_find?_eq_some hx)).2
  · intro hfirst
    rw [h c]
    clear h
    induction all with
    | nil => rfl
    | cons x all ih =>
        by_cases hp : p x
        · have hkey : key x = some c := hfirst x (by rw [List.find?_cons_of_pos hp]; rfl)
          rw [List.find?_cons_of_pos hp, List.filter_cons_of_pos (by simp [hkey]),
            List.find?_cons_of_pos hp]
        · rw [List.find?_cons_of_neg hp] at hfirst ⊢
          rw [← ih hfirst]
          by_cases hkey : key x = some c
          · rw [List.filter_cons_of_pos (by simp [hkey]), List.find?_cons_of_neg hp]
          · rw [List.filter_cons_of_neg (by simp [hkey])]

end Mirrors

end Xen2mx
