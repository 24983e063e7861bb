/-
# `Xen2mx.Lib.Ledger` — what a trace takes and gives back

A function with many exits holds things on the way: buffers it owns, references it
took.  Its run is a trace of effects, and each effect takes a thing, gives one back,
is plain, or never returns.  `run` follows a trace with the list of the things held;
it fails when a thing is given back that is not held, and when an effect does not
return.  `Settles` is the whole account: nothing fails, and nothing is held at the end.

**Proved here.**

    a trace that runs gives back what it took, up to what is held   (`run_count`)
    a trace that settles gives each thing back exactly as often
      as it was held and taken                                      (`Settles.count`)
-/
import Mathlib.Data.List.Count
import Mathlib.Tactic.Common

namespace Xen2mx.Ledger

/-- What an effect does to the things held. -/
inductive Entry (ρ : Type*) where
  | take (r : ρ)
  | give (r : ρ)
  /-- the effect does not return -/
  | stop
  | plain
  deriving DecidableEq

variable {ε ρ : Type*} [DecidableEq ρ] (entry : ε → Entry ρ)

/-- The things held after a trace that starts with `held`. -/
def run : List ρ → List ε → Option (List ρ)
  | held, [] => some held
  | held, e :: es =>
      match entry e with
      | .take r => run (r :: held) es
      | .give r => if r ∈ held then run (held.erase r) es else none
      | .stop => none
      | .plain => run held es

/-- Everything held or taken is given back, and nothing else. -/
def Settles (held : List ρ) (es : List ε) : Prop := run entry held es = some []

instance (held : List ρ) (es : List ε) : Decidable (Settles entry held es) :=
  inferInstanceAs (Decidable (run entry held es = some []))

variable {entry} {held held' : List ρ} {e : ε} {es : List ε}

@[simp] theorem settles_nil : Settles entry held [] ↔ held = [] :=
  Option.some_inj

theorem settles_cons : Settles entry held (e :: es) ↔
    match entry e with
    | .take r => Settles entry (r :: held) es
    | .give r => r ∈ held ∧ Settles entry (held.erase r) es
    | .stop => False
    | .plain => Settles entry held es := by
  rw [Settles, run]
  split
  · exact Iff.rfl
  · split
    · exact (and_iff_right ‹_›).symm
    · exact iff_of_false nofun fun hr => absurd hr.1 ‹_›
  · exact iff_of_false nofun id
  · exact Iff.rfl

theorem settles_plain (h : entry e = .plain) :
    Settles entry held (e :: es) ↔ Settles entry held es := by
  rw [settles_cons, h]

/-! ## Counting -/

variable (entry) in
/-- How often a trace takes `r`. -/
def takes (r : ρ) (es : List ε) : ℕ := es.countP fun e => entry e = .take r

variable (entry) in
/-- How often a trace gives `r` back. -/
def gives (r : ρ) (es : List ε) : ℕ := es.countP fun e => entry e = .give r

theorem takes_cons (r : ρ) :
    takes entry r (e :: es) = takes entry r es + if entry e = .take r then 1 else 0 := by
  simp only [takes, List.countP_cons, decide_eq_true_eq]

theorem gives_cons (r : ρ) :
    gives entry r (e :: es) = gives entry r es + if entry e = .give r then 1 else 0 := by
  simp only [gives, List.countP_cons, decide_eq_true_eq]

theorem gives_append (r : ρ) (es es' : List ε) :
    gives entry r (es ++ es') = gives entry r es + gives entry r es' := List.countP_append

/-- Removing a member takes one from its count. -/
theorem count_erase_add {r : ρ} (h : r ∈ held) (r' : ρ) :
    (held.erase r).count r' + (if r = r' then 1 else 0) = held.count r' := by
  have hpos := List.count_pos_iff.2 h
  simp only [List.count_erase, beq_iff_eq]
  split
  · subst r'
    omega
  · rfl

/-- A trace that runs gives back what it took, up to what is held before and after. -/
theorem run_count (r : ρ) (h : run entry held es = some held') :
    held.count r + takes entry r es = held'.count r + gives entry r es := by
  induction es generalizing held with
  | nil =>
      cases h
      rfl
  | cons e es ih =>
      rw [run] at h
      rw [takes_cons, gives_cons]
      split at h
      · rename_i r' he
        have hrest := ih h
        rw [List.count_cons] at hrest
        simp only [he, Entry.take.injEq, reduceCtorEq, beq_iff_eq, if_false] at hrest ⊢
        omega
      · rename_i r' he
        split at h
        · rename_i hmem
          have hrest := ih h
          have herase := count_erase_add hmem r
          simp only [he, Entry.give.injEq, reduceCtorEq, if_false]
          omega
        · cases h
      · cases h
      · rename_i he
        have hrest := ih h
        simp only [he, reduceCtorEq, if_false]
        omega

/-- A trace that settles gives each thing back exactly as often as it was held and taken. -/
theorem Settles.count (h : Settles entry held es) (r : ρ) :
    held.count r + takes entry r es = gives entry r es := by
  simpa using run_count r h

/-- What is taken is given back. -/
theorem Settles.exists_give {r : ρ} (h : Settles entry held es) (he : e ∈ es)
    (htake : entry e = .take r) : ∃ e' ∈ es, entry e' = .give r := by
  have hcount := h.count r
  have hpos : 0 < takes entry r es :=
    List.countP_pos_iff.2 ⟨e, he, decide_eq_true htake⟩
  obtain ⟨e', he', hgive⟩ := List.countP_pos_iff.1 (show 0 < gives entry r es by omega)
  exact ⟨e', he', of_decide_eq_true hgive⟩

end Xen2mx.Ledger
