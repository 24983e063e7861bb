/-
# `Xen2mx.Lib.Faults` — code that can go wrong

A function that indexes an array, divides or asserts is modelled in `Except ε`:
it returns, or it goes wrong with a fault of `ε`.  A safety claim lists the
faults that must not happen, and `Spares` says that none of them does; a fault
that is not on the list only ends the computation.

**Proved here.**

    a sequence spares the list   ⟺  its first part does, and so does the rest
                                     after every value it returns              (`spares_bind`)
    a check spares its fault     ⟺  it passes                                 (`spares_check`)
    a loop spares the list       ⟺  every iteration that the earlier ones
                                     let it reach does                         (`spares_loop_iff`)
    iterations that go on, go on to the end of the loop                        (`loop_eq_ok`)
-/
import Mathlib.Order.Basic
import Mathlib.Order.Nat
import Mathlib.Tactic.Common

namespace Xen2mx

variable {ε α β σ : Type*}

/-! ## Checks and loops -/

/-- Going wrong with `f` unless `c` holds. -/
def check (c : Prop) [Decidable c] (f : ε) (x : Except ε α) : Except ε α :=
  if c then x else .error f

/-- `n` iterations of `body`, the first of them with the counter at `i`. -/
def loop (body : ℕ → σ → Except ε σ) : (n i : ℕ) → σ → Except ε σ
  | 0, _, s => .ok s
  | n + 1, i, s => (body i s).bind fun s' => loop body n (i + 1) s'

@[simp] theorem ok_bind (a : α) (f : α → Except ε β) : (Except.ok a : Except ε α).bind f = f a := rfl

@[simp] theorem error_bind (e : ε) (f : α → Except ε β) :
    (Except.error e : Except ε α).bind f = .error e := rfl

theorem bind_eq_ok {x : Except ε α} {f : α → Except ε β} {b : β} :
    x.bind f = .ok b ↔ ∃ a, x = .ok a ∧ f a = .ok b := by
  cases x with
  | error e => exact ⟨nofun, nofun⟩
  | ok a => exact ⟨fun h => ⟨a, rfl, h⟩, by rintro ⟨_, ⟨⟩, h⟩; exact h⟩

theorem toOption_eq_some {x : Except ε α} {a : α} : x.toOption = some a ↔ x = .ok a := by
  cases x with
  | error e => exact ⟨nofun, nofun⟩
  | ok b => exact ⟨fun h => congrArg _ (Option.some_inj.1 h), fun h => by cases h; rfl⟩

theorem check_pos {c : Prop} [Decidable c] {f : ε} {x : Except ε α} (h : c) : check c f x = x :=
  if_pos h

theorem check_eq_ok {c : Prop} [Decidable c] {f : ε} {x : Except ε α} {a : α} :
    check c f x = .ok a ↔ c ∧ x = .ok a := by
  unfold check
  split
  · exact (and_iff_right ‹_›).symm
  · exact iff_of_false nofun fun h => absurd h.1 ‹_›

/-- Iterations that keep `I` and go on take the loop to its end. -/
theorem loop_eq_ok {body : ℕ → σ → Except ε σ} {I : ℕ → σ → Prop} {m : ℕ}
    (hbody : ∀ i s, i < m → I i s → ∃ s', body i s = .ok s' ∧ I (i + 1) s') :
    ∀ {n i : ℕ} {s : σ}, i + n = m → I i s → ∃ s', loop body n i s = .ok s' ∧ I m s' := by
  intro n
  induction n with
  | zero =>
      rintro i s rfl hI
      exact ⟨s, rfl, hI⟩
  | succ n ih =>
      intro i s hm hI
      obtain ⟨s', hs', hI'⟩ := hbody i s (by omega) hI
      obtain ⟨t, ht, hIt⟩ := ih (by omega) hI'
      exact ⟨t, bind_eq_ok.2 ⟨s', hs', ht⟩, hIt⟩

/-- What every iteration keeps holds at the end of the loop. -/
theorem loop_invariant {body : ℕ → σ → Except ε σ} {I : σ → Prop}
    (hbody : ∀ i s s', I s → body i s = .ok s' → I s') :
    ∀ {n i : ℕ} {s t : σ}, I s → loop body n i s = .ok t → I t := by
  intro n
  induction n with
  | zero => rintro i s t hI ⟨⟩; exact hI
  | succ n ih =>
      intro i s t hI h
      obtain ⟨s', hs', ht⟩ := bind_eq_ok.1 h
      exact ih (hbody i s s' hI hs') ht

/-- What each iteration takes from `i` to `i + 1` the loop takes from its first to its last. -/
theorem loop_induction {body : ℕ → σ → Except ε σ} {I : ℕ → σ → Prop}
    (hbody : ∀ i s s', I i s → body i s = .ok s' → I (i + 1) s') :
    ∀ {n i : ℕ} {s t : σ}, I i s → loop body n i s = .ok t → I (i + n) t := by
  intro n
  induction n with
  | zero => rintro i s t hI ⟨⟩; exact hI
  | succ n ih =>
      intro i s t hI h
      obtain ⟨s', hs', ht⟩ := bind_eq_ok.1 h
      have hrest := ih (hbody i s s' hI hs') ht
      rwa [Nat.add_right_comm] at hrest

/-- `n` iterations of a step that cannot go wrong. -/
def steps (step : ℕ → σ → σ) : (n i : ℕ) → σ → σ
  | 0, _, s => s
  | n + 1, i, s => steps step n (i + 1) (step i s)

/-- A loop with one check in its body. -/
theorem loop_check_eq_ok {c : ℕ → Prop} [∀ i, Decidable (c i)] {f : ε} {step : ℕ → σ → σ} {t : σ} :
    ∀ {n i : ℕ} {s : σ}, loop (fun i s => check (c i) f (.ok (step i s))) n i s = .ok t ↔
      (∀ j, i ≤ j → j < i + n → c j) ∧ t = steps step n i s := by
  intro n
  induction n with
  | zero =>
      intro i s
      rw [loop, Except.ok.injEq, eq_comm]
      exact (and_iff_right fun j hi hj => absurd hj (by omega)).symm
  | succ n ih =>
      intro i s
      rw [loop, bind_eq_ok]
      constructor
      · rintro ⟨s', hs', ht⟩
        obtain ⟨hc, hs'⟩ := check_eq_ok.1 hs'
        cases hs'
        obtain ⟨hrest, rfl⟩ := ih.1 ht
        refine ⟨fun j hi hj => ?_, rfl⟩
        rcases hi.eq_or_lt with rfl | hlt
        · exact hc
        · exact hrest j hlt (by omega)
      · rintro ⟨hall, rfl⟩
        exact ⟨step i s, check_pos (hall i le_rfl (by omega)),
          ih.2 ⟨fun j hi hj => hall j (by omega) (by omega), rfl⟩⟩

/-- What each step takes from `i` to `i + 1` all of them take from the first to the last. -/
theorem steps_induction {step : ℕ → σ → σ} {I : ℕ → σ → Prop} :
    ∀ {n i : ℕ} {s : σ}, (∀ j s, i ≤ j → j < i + n → I j s → I (j + 1) (step j s)) → I i s →
      I (i + n) (steps step n i s) := by
  intro n
  induction n with
  | zero => exact fun _ hs => hs
  | succ n ih =>
      intro i s hstep hs
      have hrest := ih (fun j s hi hj => hstep j s (by omega) (by omega))
        (hstep i s le_rfl (by omega) hs)
      rwa [Nat.add_right_comm] at hrest

/-! ## Sparing the faults of a list -/

/-- The computation goes wrong with no fault of `bad`. -/
def Spares (bad : ε → Prop) (x : Except ε α) : Prop := ∀ e, x = .error e → ¬ bad e

variable {bad : ε → Prop}

@[simp] theorem spares_ok (a : α) : Spares bad (.ok a) := nofun

@[simp] theorem spares_error {e : ε} : Spares bad (.error e : Except ε α) ↔ ¬ bad e :=
  ⟨fun h => h e rfl, by rintro h _ ⟨⟩; exact h⟩

theorem spares_bind {x : Except ε α} {f : α → Except ε β} :
    Spares bad (x.bind f) ↔ Spares bad x ∧ ∀ a, x = .ok a → Spares bad (f a) := by
  cases x with
  | error e => exact ⟨fun h => ⟨spares_error.2 (spares_error.1 h), nofun⟩,
      fun h => spares_error.2 (spares_error.1 h.1)⟩
  | ok a => exact ⟨fun h => ⟨spares_ok a, by rintro _ ⟨⟩; exact h⟩, fun h => h.2 a rfl⟩

theorem spares_check {c : Prop} [Decidable c] {f : ε} {x : Except ε α} (hf : bad f) :
    Spares bad (check c f x) ↔ c ∧ Spares bad x := by
  unfold check
  split
  · exact (and_iff_right ‹_›).symm
  · exact iff_of_false (fun h => spares_error.1 h hf) fun h => absurd h.1 ‹_›

theorem spares_true_iff {x : Except ε α} : Spares (fun _ => True) x ↔ ∃ a, x = .ok a := by
  cases x with
  | error e => exact iff_of_false (fun h => spares_error.1 h trivial) nofun
  | ok a => exact iff_of_true (spares_ok a) ⟨a, rfl⟩

/-- The iteration `i` spares the list exactly when `C i`, and stops even so exactly when `S i`. -/
theorem spares_loop_iff {body : ℕ → σ → Except ε σ} {I : σ → Prop} {C S : ℕ → Prop}
    (hI : ∀ i s s', I s → body i s = .ok s' → I s')
    (hC : ∀ i s, I s → (Spares bad (body i s) ↔ C i))
    (hS : ∀ i s, I s → C i → ((∃ s', body i s = .ok s') ↔ ¬ S i)) :
    ∀ {n i : ℕ} {s : σ}, I s → (Spares bad (loop body n i s) ↔
      ∀ j, i ≤ j → j < i + n → (∀ k, i ≤ k → k < j → ¬ S k) → C j) := by
  intro n
  induction n with
  | zero =>
      intro i s hs
      exact iff_of_true (spares_ok s) fun j hi hj => absurd hj (by omega)
  | succ n ih =>
      intro i s hs
      rw [loop, spares_bind, hC i s hs]
      constructor
      · rintro ⟨hCi, hrest⟩ j hi hj hS'
        rcases hi.eq_or_lt with rfl | hlt
        · exact hCi
        · obtain ⟨s', hs'⟩ := (hS i s hs hCi).2 (hS' i le_rfl hlt)
          exact (ih (hI i s s' hs hs')).1 (hrest s' hs') j hlt (by omega)
            fun k hk => hS' k (by omega)
      · intro h
        have hCi : C i := h i le_rfl (by omega) fun k hk hk' => absurd hk' (by omega)
        refine ⟨hCi, fun s' hs' => (ih (hI i s s' hs hs')).2 fun j hj hj' hS' => ?_⟩
        refine h j (by omega) (by omega) fun k hk hkj => ?_
        rcases hk.eq_or_lt with rfl | hlt
        · exact (hS i s hs hCi).1 ⟨s', hs'⟩
        · exact hS' k hlt hkj

end Xen2mx
