/-
# `Xen2mx.Lib.Runs` — machines, runs and the rules that carry a fact along a run

A system of concurrent agents is modelled as a *machine*: a state, and a
partial step function on actions.  The action resolves every choice that the
scheduler, the network or the memory allocator makes, so that a run is a list
of actions and the step function is executable.

A claim about a system that misbehaves in some runs has the form "in every run
whose steps all meet a condition, this holds in every state reached".  `Meets`
is that condition along a run, and `Machine.Reaches` the states such runs reach.

**Proved here.**

    invariant at the start, kept by every step      ⟹  holds in every state reached   (`Machine.Reaches.invariant`)
    runs compose                                        (`Machine.exec_append`, `Machine.Meets.append`)
    in a run to its end only the steps taken count            (`Machine.meets_of_exec`)
    a condition says where a fact is lost           ⟹  runs that meet it hold the fact throughout   (`Machine.meets_iff_forall_prefix`)
    missing a condition stops the run               ⟹  runs that meet it do not stop so   (`Machine.meets_iff_not`)
    steps are steps of another machine              ⟹  its reachable states are the other's   (`Machine.Reaches.map`)
    some steps apply a function, the others do not  ⟹  a run applies it so many times   (`Machine.exec_iterate`)
    a machine that keeps a record takes the same steps                       (`Machine.meets_recording`)
    every own step lowers a measure                 ⟹  own runs are short             (`Machine.Meets.length_le`)
    an action never leaves a set of states          ⟹  repeating it does not either   (`Machine.exec_replicate`)
-/
import Mathlib.Data.List.Basic
import Mathlib.Logic.Function.Iterate
import Mathlib.Tactic.Common

namespace Xen2mx

universe u v w x

/-- A state machine over the states `σ` and the actions `α`.  `step s a = none`
when `a` is not enabled in `s`. -/
structure Machine (σ : Type u) (α : Type v) where
  init : σ
  step : σ → α → Option σ

/-- A step with a guard. -/
theorem guard_eq_some {σ : Type u} {p : Prop} [Decidable p] {s t : σ} :
    (if p then some s else none) = some t ↔ p ∧ s = t := by
  rw [Option.ite_none_right_eq_some, Option.some.injEq]

namespace Machine

variable {σ : Type u} {α : Type v} (m : Machine σ α)

/-! ## Runs -/

/-- The state after the actions of a list, if each is enabled in its turn. -/
def exec (s : σ) : List α → Option σ
  | [] => some s
  | a :: as => (m.step s a).bind fun s' => exec s' as

@[simp] theorem exec_nil (s : σ) : m.exec s [] = some s := rfl

@[simp] theorem exec_cons (s : σ) (a : α) (as : List α) :
    m.exec s (a :: as) = (m.step s a).bind fun s' => m.exec s' as := rfl

theorem exec_cons_eq_some {s t : σ} {a : α} {as : List α} :
    m.exec s (a :: as) = some t ↔ ∃ s', m.step s a = some s' ∧ m.exec s' as = some t := by
  simp only [exec_cons, Option.bind_eq_some_iff]

theorem exec_append (s : σ) (as bs : List α) :
    m.exec s (as ++ bs) = (m.exec s as).bind fun s' => m.exec s' bs := by
  induction as generalizing s with
  | nil => rfl
  | cons a as ih =>
      cases h : m.step s a with
      | none => simp [h]
      | some s' => simp [h, ih]

/-- Every step of the run that `as` starts in `s` meets the condition `ok` on
the state before the step and the action. -/
def Meets (ok : σ → α → Prop) (s : σ) : List α → Prop
  | [] => True
  | a :: as => ok s a ∧ ∀ s' ∈ m.step s a, Meets ok s' as

instance Meets.decidable {ok : σ → α → Prop} [∀ s a, Decidable (ok s a)] :
    ∀ (as : List α) (s : σ), Decidable (m.Meets ok s as)
  | [], _ => isTrue trivial
  | a :: as, s =>
      have : DecidablePred fun s' => m.Meets ok s' as := fun s' => Meets.decidable as s'
      inferInstanceAs (Decidable (ok s a ∧ ∀ s' ∈ m.step s a, m.Meets ok s' as))

theorem Meets.append {ok : σ → α → Prop} {s t : σ} {as bs : List α}
    (ha : m.Meets ok s as) (h : m.exec s as = some t) (hb : m.Meets ok t bs) :
    m.Meets ok s (as ++ bs) := by
  induction as generalizing s with
  | nil => cases h; exact hb
  | cons a as ih =>
      obtain ⟨s', hs, ht⟩ := (m.exec_cons_eq_some).1 h
      refine ⟨ha.1, fun s'' hs'' => ?_⟩
      cases hs.symm.trans hs''
      exact ih (ha.2 s' hs) ht

theorem Meets.of_prefix {ok : σ → α → Prop} {s : σ} {as bs : List α} (hm : m.Meets ok s as)
    (h : bs <+: as) : m.Meets ok s bs := by
  induction bs generalizing s as with
  | nil => trivial
  | cons b bs ih =>
      obtain ⟨cs, rfl⟩ := h
      exact ⟨hm.1, fun s' hs' => ih (hm.2 s' hs') (List.prefix_append _ _)⟩

theorem meets_and {ok ok' : σ → α → Prop} {s : σ} {as : List α} :
    m.Meets (fun s a => ok s a ∧ ok' s a) s as ↔ m.Meets ok s as ∧ m.Meets ok' s as := by
  induction as generalizing s with
  | nil => exact ⟨fun _ => ⟨trivial, trivial⟩, fun _ => trivial⟩
  | cons a as ih =>
      constructor
      · rintro ⟨⟨hok, hok'⟩, hrest⟩
        exact ⟨⟨hok, fun s' hs' => (ih.1 (hrest s' hs')).1⟩,
          hok', fun s' hs' => (ih.1 (hrest s' hs')).2⟩
      · rintro ⟨⟨hok, hrest⟩, hok', hrest'⟩
        exact ⟨⟨hok, hok'⟩, fun s' hs' => ih.2 ⟨hrest s' hs', hrest' s' hs'⟩⟩

/-- The states reached from the start by a run whose steps all meet `ok`. -/
def Reaches (ok : σ → α → Prop) (s : σ) : Prop :=
  ∃ as, m.Meets ok m.init as ∧ m.exec m.init as = some s

theorem Reaches.start (ok : σ → α → Prop) : m.Reaches ok m.init := ⟨[], trivial, rfl⟩

variable {m}

/-! ## Invariants -/

/-- A fact that every step meeting `ok` keeps is kept by every run of such steps. -/
theorem Meets.invariant {ok : σ → α → Prop} {I : σ → Prop}
    (hstep : ∀ s a s', I s → ok s a → m.step s a = some s' → I s')
    {s t : σ} {as : List α} (hI : I s) (hm : m.Meets ok s as) (h : m.exec s as = some t) :
    I t := by
  induction as generalizing s with
  | nil => cases h; exact hI
  | cons a as ih =>
      obtain ⟨s', hs, ht⟩ := (m.exec_cons_eq_some).1 h
      exact ih (hstep s a s' hI hm.1 hs) (hm.2 s' hs) ht

/-- Steps meet what their condition gives wherever an invariant holds. -/
theorem Meets.imp {ok ok' : σ → α → Prop} {I : σ → Prop}
    (hstep : ∀ s a s', I s → ok s a → m.step s a = some s' → I s')
    (himp : ∀ s a, I s → ok s a → ok' s a) {s : σ} {as : List α} (hI : I s)
    (hm : m.Meets ok s as) : m.Meets ok' s as := by
  induction as generalizing s with
  | nil => trivial
  | cons a as ih =>
      exact ⟨himp s a hI hm.1, fun s' hs' => ih (hstep s a s' hI hm.1 hs') (hm.2 s' hs')⟩

/-- A fact that every step keeps is kept by every run. -/
theorem exec_invariant {I : σ → Prop} (hstep : ∀ s a s', I s → m.step s a = some s' → I s')
    {s t : σ} {as : List α} (hI : I s) (h : m.exec s as = some t) : I t := by
  induction as generalizing s with
  | nil => cases h; exact hI
  | cons a as ih =>
      obtain ⟨s', hs, ht⟩ := (m.exec_cons_eq_some).1 h
      exact ih (hstep s a s' hI hs) ht

/-- Conditions that agree where an invariant holds are met by the same runs. -/
theorem meets_congr {ok ok' : σ → α → Prop} {I : σ → Prop}
    (hinv : ∀ s a s', I s → m.step s a = some s' → I s')
    (hiff : ∀ s a, I s → (ok s a ↔ ok' s a)) {s : σ} {as : List α} (hI : I s) :
    m.Meets ok s as ↔ m.Meets ok' s as := by
  induction as generalizing s with
  | nil => exact Iff.rfl
  | cons a as ih =>
      exact and_congr (hiff s a hI) (forall₂_congr fun s' hs' => ih (hinv s a s' hI hs'))

/-- In a run that goes to its end it is enough to look at the steps that are taken. -/
theorem meets_of_exec {ok : σ → α → Prop} {s t : σ} {as : List α} (h : m.exec s as = some t) :
    m.Meets ok s as ↔ m.Meets (fun s a => ∀ s' ∈ m.step s a, ok s a) s as := by
  induction as generalizing s with
  | nil => exact Iff.rfl
  | cons a as ih =>
      obtain ⟨s', hs', ht⟩ := (m.exec_cons_eq_some).1 h
      refine and_congr ⟨fun hok _ _ => hok, fun hok => hok s' hs'⟩ (forall₂_congr fun s'' hs'' => ?_)
      cases hs'.symm.trans hs''
      exact ih ht

/-- If the steps that miss `ok` are those into states that no step leaves, a run meets
`ok` exactly when it does not end in such a state. -/
theorem meets_iff_not {ok : σ → α → Prop} {I B : σ → Prop}
    (hinv : ∀ s a s', I s → m.step s a = some s' → I s')
    (hstep : ∀ s a s', I s → m.step s a = some s' → ¬ B s ∧ (ok s a ↔ ¬ B s'))
    {s t : σ} {as : List α} (hI : I s) (hs : ¬ B s) (h : m.exec s as = some t) :
    m.Meets ok s as ↔ ¬ B t := by
  induction as generalizing s with
  | nil =>
      cases h
      exact iff_of_true trivial hs
  | cons a as ih =>
      obtain ⟨s', hs', ht⟩ := (m.exec_cons_eq_some).1 h
      have hok := (hstep s a s' hI hs').2
      have hI' := hinv s a s' hI hs'
      have hmeets : m.Meets ok s (a :: as) ↔ ok s a ∧ m.Meets ok s' as :=
        and_congr_right' ⟨fun hm => hm s' hs', fun hm s'' hs'' => by
          cases hs'.symm.trans hs''
          exact hm⟩
      rw [hmeets, hok]
      by_cases hB : B s'
      · refine iff_of_false (fun hm => hm.1 hB) (not_not.2 ?_)
        cases as with
        | nil => cases ht; exact hB
        | cons b bs =>
            obtain ⟨s'', hs'', -⟩ := (m.exec_cons_eq_some).1 ht
            exact absurd hB (hstep s' b s'' hI' hs'').1
      · rw [ih hI' hB ht, and_iff_right hB]

/-- If the steps that meet `ok` are those into states with a fact, wherever the invariant that
they keep holds, a run meets `ok` exactly when the fact holds in every state it goes through. -/
theorem meets_iff_forall_prefix {ok : σ → α → Prop} {I B : σ → Prop}
    (hinv : ∀ s a s', I s → ok s a → m.step s a = some s' → I s') (hfact : ∀ s, I s → B s)
    (hstep : ∀ s a, I s → (ok s a ↔ ∀ s' ∈ m.step s a, B s')) {s : σ} {as : List α} (hI : I s) :
    m.Meets ok s as ↔ ∀ bs, bs <+: as → ∀ t, m.exec s bs = some t → B t := by
  induction as generalizing s with
  | nil =>
      refine iff_of_true trivial fun bs hbs t ht => ?_
      cases List.prefix_nil.1 hbs
      cases ht
      exact hfact _ hI
  | cons a as ih =>
      constructor
      · rintro ⟨hok, hrest⟩ bs hbs t ht
        cases bs with
        | nil => cases ht; exact hfact _ hI
        | cons b bs =>
            obtain ⟨rfl, hrun⟩ := List.cons_prefix_cons.1 hbs
            obtain ⟨s', hs', ht'⟩ := (m.exec_cons_eq_some).1 ht
            exact (ih (hinv s b s' hI hok hs')).1 (hrest s' hs') bs hrun t ht'
      · intro h
        have hok : ok s a := (hstep s a hI).2 fun s' hs' =>
          h [a] (List.cons_prefix_cons.2 ⟨rfl, List.nil_prefix⟩) s'
            ((m.exec_cons_eq_some).2 ⟨s', hs', rfl⟩)
        refine ⟨hok, fun s' hs' => (ih (hinv s a s' hI hok hs')).2 ?_⟩
        intro bs hbs t ht
        exact h (a :: bs) (List.cons_prefix_cons.2 ⟨rfl, hbs⟩) t
          ((m.exec_cons_eq_some).2 ⟨s', hs', ht⟩)

theorem Reaches.invariant {ok : σ → α → Prop} {I : σ → Prop} (hinit : I m.init)
    (hstep : ∀ s a s', I s → ok s a → m.step s a = some s' → I s')
    {s : σ} (h : m.Reaches ok s) : I s := by
  obtain ⟨as, hm, ht⟩ := h
  exact hm.invariant hstep hinit ht

theorem Reaches.exec {ok : σ → α → Prop} {s t : σ} {as : List α} (h : m.Reaches ok s)
    (hm : m.Meets ok s as) (ht : m.exec s as = some t) : m.Reaches ok t := by
  obtain ⟨bs, hb, hs⟩ := h
  exact ⟨bs ++ as, hb.append m hs hm, by rw [exec_append, hs]; exact ht⟩

/-! ## Counting -/

variable (m) in
/-- How many steps of a run satisfy `p`. -/
def count (p : σ → α → Prop) [∀ s a, Decidable (p s a)] (s : σ) : List α → ℕ
  | [] => 0
  | a :: as =>
      (if p s a then 1 else 0) +
        match m.step s a with
        | some s' => count p s' as
        | none => 0

/-- If the steps that satisfy `p` apply `g` to a part of the state, and the others leave it alone,
a run applies `g` as often as it has such steps. -/
theorem exec_iterate {β : Type w} {p : σ → α → Prop} [∀ s a, Decidable (p s a)] {I : σ → Prop}
    {f : σ → β} {g : β → β}
    (hstep : ∀ s a s', I s → m.step s a = some s' →
      I s' ∧ f s' = if p s a then g (f s) else f s)
    {s t : σ} {as : List α} (hI : I s) (h : m.exec s as = some t) :
    f t = g^[m.count p s as] (f s) := by
  induction as generalizing s with
  | nil => cases h; rfl
  | cons a as ih =>
      obtain ⟨s', hs, ht⟩ := (m.exec_cons_eq_some).1 h
      obtain ⟨hI', hf⟩ := hstep s a s' hI hs
      have hcount : m.count p s (a :: as) = (if p s a then 1 else 0) + m.count p s' as := by
        rw [count, hs]
      rw [ih hI' ht, hf, hcount]
      split
      · rw [Nat.add_comm, Function.iterate_add_apply, Function.iterate_one]
      · rw [Nat.zero_add]

/-! ## Simulation

A machine whose steps are steps of another one inherits what holds of the runs of the
other. -/

section
variable {τ : Type w} {β : Type x} {m' : Machine τ β} {f : σ → τ} {g : α → β}

theorem exec_map (hstep : ∀ s a s', m.step s a = some s' → m'.step (f s) (g a) = some (f s'))
    {s t : σ} {as : List α} (h : m.exec s as = some t) :
    m'.exec (f s) (as.map g) = some (f t) := by
  induction as generalizing s with
  | nil => cases h; rfl
  | cons a as ih =>
      obtain ⟨s', hs, ht⟩ := (m.exec_cons_eq_some).1 h
      exact (m'.exec_cons_eq_some).2 ⟨f s', hstep s a s' hs, ih ht⟩

theorem Reaches.map {ok : σ → α → Prop} {ok' : τ → β → Prop} (hinit : f m.init = m'.init)
    (hstep : ∀ s a s', m.step s a = some s' → m'.step (f s) (g a) = some (f s'))
    (hok : ∀ s a, ok s a → ok' (f s) (g a)) {s : σ} (h : m.Reaches ok s) :
    m'.Reaches ok' (f s) := by
  have hmeets : ∀ (as : List α) (s t : σ), m.Meets ok s as → m.exec s as = some t →
      m'.Meets ok' (f s) (as.map g) := by
    intro as
    induction as with
    | nil => exact fun _ _ _ _ => trivial
    | cons a as ih =>
        intro s t hm ht
        obtain ⟨s', hs, ht'⟩ := (m.exec_cons_eq_some).1 ht
        refine ⟨hok s a hm.1, fun u hu => ?_⟩
        cases (hstep s a s' hs).symm.trans hu
        exact ih s' t (hm.2 s' hs) ht'
  obtain ⟨as, hm, ht⟩ := h
  exact ⟨as.map g, hinit ▸ hmeets as _ _ hm ht, hinit ▸ exec_map hstep ht⟩

end

/-! ## Records -/

section
variable {β : Type w} {b : β} {f : σ → α → β → β}

variable (m b f) in
/-- The machine that keeps a record of its run: `f` is what a step writes to it. -/
def recording : Machine (σ × β) α where
  init := (m.init, b)
  step p a := (m.step p.1 a).map fun s' => (s', f p.1 a p.2)

theorem recording_step {p q : σ × β} {a : α} :
    (m.recording b f).step p a = some q ↔ m.step p.1 a = some q.1 ∧ f p.1 a p.2 = q.2 := by
  rw [recording, Option.map_eq_some_iff]
  constructor
  · rintro ⟨s', hs', rfl⟩
    exact ⟨hs', rfl⟩
  · rintro ⟨hs', hq⟩
    exact ⟨q.1, hs', by rw [hq]⟩

/-- The record does not change which steps a run takes. -/
theorem meets_recording {ok : σ → α → Prop} {p : σ × β} {as : List α} :
    (m.recording b f).Meets (fun p a => ok p.1 a) p as ↔ m.Meets ok p.1 as := by
  induction as generalizing p with
  | nil => exact Iff.rfl
  | cons a as ih =>
      refine and_congr_right fun _ => ⟨fun h s' hs' => ?_, fun h q hq => ?_⟩
      · exact ih.1 (h (s', f p.1 a p.2) (recording_step.2 ⟨hs', rfl⟩))
      · exact ih.2 (h q.1 (recording_step.1 hq).1)

end

/-! ## Termination

The actions a component performs on its own, with no help from its
environment, are given by a condition `own` on steps.  If each of them lowers a
measure the component comes to rest, whatever order they are taken in. -/

/-- A run of own steps is no longer than the measure of the state it starts in. -/
theorem Meets.length_le {own : σ → α → Prop} {I : σ → Prop} {μ : σ → ℕ}
    (hstep : ∀ s a s', I s → own s a → m.step s a = some s' → I s' ∧ μ s' < μ s)
    {s t : σ} {as : List α} (hI : I s) (hm : m.Meets own s as) (h : m.exec s as = some t) :
    as.length + μ t ≤ μ s := by
  induction as generalizing s with
  | nil => cases h; simp
  | cons a as ih =>
      obtain ⟨s', hs, ht⟩ := (m.exec_cons_eq_some).1 h
      obtain ⟨hI', hlt⟩ := hstep s a s' hI hm.1 hs
      have hrest := ih hI' (hm.2 s' hs) ht
      simp only [List.length_cons]
      omega

/-- A set of states that the action `a` never leaves is not left by any number of them. -/
theorem exec_replicate {C : σ → Prop} {a : α}
    (hstep : ∀ s, C s → ∃ t, m.step s a = some t ∧ C t) :
    ∀ (k : ℕ) {s : σ}, C s → ∃ t, m.exec s (List.replicate k a) = some t ∧ C t
  | 0, s, hs => ⟨s, rfl, hs⟩
  | k + 1, s, hs => by
      obtain ⟨s', hs', hC⟩ := hstep s hs
      obtain ⟨t, ht, hCt⟩ := exec_replicate hstep k hC
      exact ⟨t, (m.exec_cons_eq_some).2 ⟨s', hs', ht⟩, hCt⟩

end Machine

end Xen2mx
