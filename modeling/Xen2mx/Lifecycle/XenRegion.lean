/-
# `Xen2mx.Lifecycle.XenRegion` — the references to a region of a guest

A region has one reference of its own from its creation on.  Pull requests that arrive, the replies
to them that carry its pages, the pulls of the guest and their handles take others:

    user            takes a reference                releases it
    pull request    omx_xen_user_region_acquire      at its end, at a wrong offset, or when there is
                                                     no memory for a reply with pages
    reply           kref_get                         the destructor: commented out
    pull            omx_xen_user_region_acquire      without a handle
    pull handle     that of the pull                 its last release: commented out

The destroy request of the guest unmaps the pages and frees the structure whatever the count is,
and waits for no reader.  A reply that is to be copied, and has no memory, ends its request where
the region of the native driver is released, a null pointer here.

    a destroy request           nobody has a reference when pages are unmapped and when it is freed
    an acquisition              the region is as it was created
    replies and handles         none that has a reference ends
    a reply without memory      never

**Proved here.**

    a careful step keeps the invariant                                   (`Inv.step`)
    a step that is not careful leads to a state that is not sound        (`Inv.careful`)
    a run goes through sound states only  ⟺  its steps are careful      (`xenRegion_released`)
-/
import Mathlib.Data.Int.Notation
import Mathlib.Logic.Function.Basic
import Mathlib.Order.Nat
import Xen2mx.Lib.Runs

namespace Xen2mx.Lifecycle.XenRegion

open Function (update update_self update_of_ne)

/-! ## States -/

/-- Those that have a reference. -/
inductive User where
  | request | reply | pull | handle
  deriving DecidableEq, Repr

/-- One entry of `endpoint->xen_regions`, and the regions that were in it, by number. -/
structure State where
  slot : Option ℕ
  created : ℕ
  refcount : ℕ → ℤ
  /-- pages were unmapped -/
  unmapped : ℕ → Bool
  freed : ℕ → Bool
  /-- users that read the entry and did not take a reference yet -/
  reading : ℕ → ℕ
  users : User → ℕ → ℕ
  /-- the region that a destroy request has taken out of the entry -/
  destroying : Option ℕ
  /-- the release of a null pointer -/
  crashed : Bool

def start : State where
  slot := none
  created := 0
  refcount := fun _ => 0
  unmapped := fun _ => false
  freed := fun _ => false
  reading := fun _ => 0
  users := fun _ _ => 0
  destroying := none
  crashed := false

namespace State

variable (s : State)

/-- The acquired references. -/
def acquired (g : ℕ) : ℕ :=
  s.users .request g + s.users .reply g + s.users .pull g + s.users .handle g

/-- A user with a reference more. -/
def enter (u : User) (g : ℕ) : State :=
  { s with users := update s.users u (update (s.users u) g (s.users u g + 1)) }

/-- A user with a reference less. -/
def leave (u : User) (g : ℕ) : State :=
  { s with users := update s.users u (update (s.users u) g (s.users u g - 1)) }

/-- `kref_get`. -/
def krefGet (g : ℕ) : State := { s with refcount := update s.refcount g (s.refcount g + 1) }

/-- `kref_put`; the last release is commented out. -/
def krefPut (g : ℕ) : State := { s with refcount := update s.refcount g (s.refcount g - 1) }

end State

/-! ## Steps -/

inductive Act where
  /-- `omx_xen_create_user_region` -/
  | create (memory : Bool)
  /-- `omx_xen_deregister_user_segment`, of a segment that is mapped -/
  | unmap
  /-- `omx_xen_destroy_user_region`, up to `kfree` -/
  | unlink
  | free
  /-- `omx_xen_user_region_acquire`, for a pull request or a pull: the entry is read -/
  | read (g : ℕ)
  | acquire (u : User) (g : ℕ)
  /-- a reply that carries pages -/
  | appendPages (g : ℕ)
  /-- a reply to be copied, and no memory for it -/
  | noLinear (g : ℕ)
  /-- the end of a pull request, all others included -/
  | finish (g : ℕ)
  /-- `omx_xen_send_pull_reply_skb_destructor` -/
  | sent (g : ℕ)
  /-- `omx_pull_handle_create` -/
  | createHandle (g : ℕ) (created : Bool)
  /-- `__omx_pull_handle_last_release` -/
  | freeHandle (g : ℕ)
  deriving DecidableEq, Repr

/-- `omx_xen_create_user_region`; a busy entry stays as it is. -/
def create (s : State) (memory : Bool) : State :=
  if memory ∧ s.slot = none then
    { s with
      slot := some s.created
      created := s.created + 1
      refcount := update s.refcount s.created 1 }
  else s

def stepLive (s : State) : Act → Option State
  | .create memory => if s.destroying = none then some (create s memory) else none
  | .unmap =>
      s.slot.bind fun g =>
        if s.destroying = none then some { s with unmapped := update s.unmapped g true } else none
  | .unlink =>
      s.slot.bind fun g =>
        if s.destroying = none then some { s with slot := none, destroying := some g } else none
  | .free => s.destroying.map fun g => { s with freed := update s.freed g true, destroying := none }
  | .read g =>
      if s.slot = some g then some { s with reading := update s.reading g (s.reading g + 1) }
      else none
  | .acquire u g =>
      if 0 < s.reading g ∧ (u = .request ∨ u = .pull) then
        some ({ s with reading := update s.reading g (s.reading g - 1) }.krefGet g |>.enter u g)
      else none
  | .appendPages g =>
      if 0 < s.users .request g then some ((s.krefGet g).enter .reply g) else none
  | .noLinear g => if 0 < s.users .request g then some { s with crashed := true } else none
  | .finish g =>
      if 0 < s.users .request g then some ((s.leave .request g).krefPut g) else none
  -- `omx_xen_user_region_release(region)` is commented out
  | .sent g => if 0 < s.users .reply g then some (s.leave .reply g) else none
  | .createHandle g true =>
      if 0 < s.users .pull g then some ((s.leave .pull g).enter .handle g) else none
  | .createHandle g false =>
      if 0 < s.users .pull g then some ((s.leave .pull g).krefPut g) else none
  -- `#if 0`
  | .freeHandle g => if 0 < s.users .handle g then some (s.leave .handle g) else none

def step (s : State) (a : Act) : Option State := if s.crashed then none else stepLive s a

def machine : Machine State Act := { init := start, step }

/-! ## What is claimed -/

/-- Each acquired reference is counted until it is released, and only then; and as long as there is
one, the pages are mapped and the structure is there. -/
structure State.Sound (s : State) : Prop where
  counted : ∀ g < s.created, s.freed g = false → s.refcount g = 1 + s.acquired g
  intact : ∀ g, s.unmapped g = true ∨ s.freed g = true → s.acquired g = 0
  crashed : s.crashed = false

/-! ## The condition -/

def Careful (s : State) : Act → Prop
  | .unmap => ∀ g ∈ s.slot, s.acquired g = 0
  | .free => ∀ g ∈ s.destroying, s.acquired g = 0
  | .acquire _ g => s.unmapped g = false ∧ s.freed g = false
  | .noLinear _ | .sent _ | .freeHandle _ => False
  | _ => True

instance (s : State) : ∀ a : Act, Decidable (Careful s a)
  | .unmap => inferInstanceAs (Decidable (∀ g ∈ s.slot, s.acquired g = 0))
  | .free => inferInstanceAs (Decidable (∀ g ∈ s.destroying, s.acquired g = 0))
  | .acquire _ g => inferInstanceAs (Decidable (s.unmapped g = false ∧ s.freed g = false))
  | .noLinear _ | .sent _ | .freeHandle _ => isFalse id
  | .create _ | .unlink | .read _ | .appendPages _ | .finish _ | .createHandle _ _ => isTrue trivial

/-! ## The invariant -/

/-- A region that was created and not freed. -/
def State.Live (s : State) (g : ℕ) : Prop := g < s.created ∧ s.freed g = false

structure Inv (s : State) : Prop extends s.Sound where
  slot : ∀ g ∈ s.slot, s.Live g
  destroying : ∀ g ∈ s.destroying, s.Live g ∧ s.slot ≠ some g
  /-- a region to come -/
  fresh : ∀ g, s.created ≤ g →
    s.reading g = 0 ∧ s.acquired g = 0 ∧ s.unmapped g = false ∧ s.freed g = false

theorem Inv.start : Inv start where
  counted g hg := absurd hg (Nat.not_lt_zero g)
  intact _ h := by rcases h with h | h <;> cases h
  crashed := rfl
  slot := nofun
  destroying := nofun
  fresh _ _ := ⟨rfl, rfl, rfl, rfl⟩

variable {s s' : State} {u : User} {g : ℕ}

/-! ## Counting -/

theorem acquired_enter (g' : ℕ) :
    (s.enter u g).acquired g' = s.acquired g' + if g' = g then 1 else 0 := by
  by_cases hg : g' = g
  · subst hg
    cases u <;> simp [State.acquired, State.enter, update] <;> omega
  · cases u <;> simp [State.acquired, State.enter, update, hg]

theorem acquired_leave (h : 0 < s.users u g) (g' : ℕ) :
    (s.leave u g).acquired g' + (if g' = g then 1 else 0) = s.acquired g' := by
  by_cases hg : g' = g
  · subst hg
    cases u <;> simp [State.acquired, State.leave, update] <;> omega
  · cases u <;> simp [State.acquired, State.leave, update, hg]

theorem users_le_acquired : s.users u g ≤ s.acquired g := by
  unfold State.acquired
  cases u <;> omega

/-- A region with users is there. -/
theorem Inv.live (h : Inv s) (hu : 0 < s.users u g) :
    g < s.created ∧ s.unmapped g = false ∧ s.freed g = false := by
  have hacquired : 0 < s.acquired g := hu.trans_le users_le_acquired
  refine ⟨?_, ?_, ?_⟩
  · by_contra hge
    have hnone := (h.fresh g (not_lt.1 hge)).2.1
    omega
  · by_contra hunmapped
    have hnone := h.intact g (.inl (Bool.of_not_eq_false hunmapped))
    omega
  · by_contra hfreed
    have hnone := h.intact g (.inr (Bool.of_not_eq_false hfreed))
    omega

/-! ## Users -/

/-- A user takes a reference to a region that is there. -/
theorem Inv.enter (h : Inv s) (hlt : g < s.created) (hmapped : s.unmapped g = false)
    (hfreed : s.freed g = false) {reading : ℕ → ℕ} (hreading : ∀ g', reading g' ≤ s.reading g') :
    Inv (({ s with reading }.krefGet g).enter u g) := by
  have hacquired : ∀ g', (({ s with reading }.krefGet g).enter u g).acquired g' =
      s.acquired g' + if g' = g then 1 else 0 := acquired_enter
  refine {
    counted := fun g' hg' hf => ?_
    intact := fun g' hg' => ?_
    crashed := h.crashed, slot := h.slot, destroying := h.destroying
    fresh := fun g' hg' => ?_ }
  · rw [hacquired]
    show update s.refcount g (s.refcount g + 1) g' = _
    have hcounted := h.counted g' hg' hf
    by_cases hg : g' = g
    · subst hg
      rw [update_self, if_pos rfl]
      omega
    · rw [update_of_ne hg, if_neg hg]
      exact hcounted
  · have hne : g' ≠ g := by
      rintro rfl
      rcases hg' with hg' | hg'
      · exact Bool.noConfusion (hmapped.symm.trans hg')
      · exact Bool.noConfusion (hfreed.symm.trans hg')
    rw [hacquired, if_neg hne]
    exact h.intact g' hg'
  · obtain ⟨hnone, hacq, hum, hfr⟩ := h.fresh g' hg'
    have hne : g' ≠ g := fun heq => absurd hlt (by rw [← heq]; exact not_lt.2 hg')
    refine ⟨Nat.le_zero.1 (hnone ▸ hreading g'), ?_, hum, hfr⟩
    rw [hacquired, if_neg hne]
    exact hacq

/-- A user releases its reference. -/
theorem Inv.leave (h : Inv s) (hu : 0 < s.users u g) : Inv ((s.leave u g).krefPut g) := by
  have hacquired : ∀ g', ((s.leave u g).krefPut g).acquired g' + (if g' = g then 1 else 0) =
      s.acquired g' := acquired_leave hu
  refine {
    counted := fun g' hg' hf => ?_
    intact := fun g' hg' => ?_
    crashed := h.crashed, slot := h.slot, destroying := h.destroying
    fresh := fun g' hg' => ?_ }
  · have hcounted := h.counted g' hg' hf
    rw [← hacquired] at hcounted
    show update s.refcount g (s.refcount g - 1) g' = _
    by_cases hg : g' = g
    · subst hg
      rw [if_pos rfl] at hcounted
      rw [update_self]
      omega
    · rw [if_neg hg] at hcounted
      rw [update_of_ne hg]
      exact hcounted
  · have hnone := hacquired g'
    rw [h.intact g' hg'] at hnone
    exact (Nat.add_eq_zero_iff.1 hnone).1
  · obtain ⟨hreading, hacq, hum, hfr⟩ := h.fresh g' hg'
    have hnone := hacquired g'
    rw [hacq] at hnone
    exact ⟨hreading, (Nat.add_eq_zero_iff.1 hnone).1, hum, hfr⟩

/-- A pull hands its reference to its handle. -/
theorem Inv.handOver (h : Inv s) (hu : 0 < s.users .pull g) :
    Inv ((s.leave .pull g).enter .handle g) := by
  have hacquired : ∀ g', ((s.leave .pull g).enter .handle g).acquired g' = s.acquired g' :=
    fun g' => (acquired_enter g').trans (acquired_leave hu g')
  exact {
    counted := fun g' hg' hf => (h.counted g' hg' hf).trans (by rw [hacquired])
    intact := fun g' hg' => (hacquired g').trans (h.intact g' hg')
    crashed := h.crashed, slot := h.slot, destroying := h.destroying
    fresh := fun g' hg' => ⟨(h.fresh g' hg').1, (hacquired g').trans (h.fresh g' hg').2.1,
      (h.fresh g' hg').2.2⟩ }

/-- A user that does not release its reference leaves it counted for ever. -/
theorem Inv.not_sound_leave (h : Inv s) (hu : 0 < s.users u g) : ¬ (s.leave u g).Sound := by
  intro hc
  obtain ⟨hlt, -, hfreed⟩ := h.live hu
  have hcounted := h.counted g hlt hfreed
  have hcounted' : s.refcount g = 1 + ((s.leave u g).acquired g : ℕ) := hc.counted g hlt hfreed
  have hacquired := acquired_leave hu g
  rw [if_pos rfl] at hacquired
  omega

/-! ## Requests of the guest -/

theorem Inv.create (h : Inv s) (hidle : s.destroying = none) (memory : Bool) :
    Inv (create s memory) := by
  unfold XenRegion.create
  split
  · obtain ⟨hreading, hacquired, hunmapped, hfreed⟩ := h.fresh s.created (Nat.le_refl _)
    refine {
      counted := fun g hg hf => ?_
      intact := h.intact, crashed := h.crashed
      slot := ?_
      destroying := fun g hg => by cases hidle.symm.trans hg
      fresh := fun g hg => h.fresh g (Nat.le_of_succ_le hg) }
    · show update s.refcount s.created 1 g = 1 + (s.acquired g : ℕ)
      by_cases hg' : g = s.created
      · subst hg'
        rw [update_self, hacquired]
        rfl
      · rw [update_of_ne hg']
        exact h.counted g (by have hg : g < s.created + 1 := hg; omega) hf
    · rintro _ ⟨⟩
      exact ⟨Nat.lt_succ_self _, hfreed⟩
  · exact h

theorem Inv.unmap (h : Inv s) (hslot : s.slot = some g) (hcareful : s.acquired g = 0) :
    Inv { s with unmapped := update s.unmapped g true } := by
  refine { h with
    intact := fun g' hg' => ?_
    fresh := fun g' hg' => ?_ }
  · by_cases hg : g' = g
    · subst hg
      exact hcareful
    · exact h.intact g' (hg'.imp_left fun hum => (update_of_ne hg _ _).symm.trans hum)
  · have hne : g' ≠ g := by
      rintro rfl
      exact absurd (h.slot g' hslot).1 (not_lt.2 hg')
    obtain ⟨hreading, hacquired, hunmapped, hfreed⟩ := h.fresh g' hg'
    exact ⟨hreading, hacquired, (update_of_ne hne _ _).trans hunmapped, hfreed⟩

theorem Inv.unlink (h : Inv s) (hslot : s.slot = some g) :
    Inv { s with slot := none, destroying := some g } :=
  { h with
    slot := nofun
    destroying := by
      rintro _ ⟨⟩
      exact ⟨h.slot g hslot, nofun⟩ }

theorem Inv.free (h : Inv s) (hdestroying : s.destroying = some g) (hcareful : s.acquired g = 0) :
    Inv { s with freed := update s.freed g true, destroying := none } := by
  obtain ⟨hlive, hslot⟩ := h.destroying g hdestroying
  have hfreed : ∀ g' ≠ g, update s.freed g true g' = s.freed g' :=
    fun g' hg' => update_of_ne hg' _ _
  refine {
    counted := fun g' hg' hf => ?_
    intact := fun g' hg' => ?_
    crashed := h.crashed
    slot := fun g' hg' => ?_
    destroying := nofun
    fresh := fun g' hg' => ?_ }
  · have hne : g' ≠ g := by
      rintro rfl
      exact Bool.noConfusion ((update_self g' true s.freed).symm.trans hf)
    exact h.counted g' hg' ((hfreed g' hne).symm.trans hf)
  · by_cases hg : g' = g
    · subst hg
      exact hcareful
    · exact h.intact g' (hg'.imp_right fun hf => (hfreed g' hg).symm.trans hf)
  · have hne : g' ≠ g := fun heq => hslot (heq ▸ hg')
    exact ⟨(h.slot g' hg').1, (hfreed g' hne).trans (h.slot g' hg').2⟩
  · have hne : g' ≠ g := by
      rintro rfl
      exact absurd hlive.1 (not_lt.2 hg')
    obtain ⟨hreading, hacquired, hunmapped, hf⟩ := h.fresh g' hg'
    exact ⟨hreading, hacquired, hunmapped, (hfreed g' hne).trans hf⟩

/-! ## Steps -/

theorem step_eq_some {a : Act} :
    machine.step s a = some s' ↔ s.crashed = false ∧ stepLive s a = some s' := by
  show (if s.crashed then none else stepLive s a) = some s' ↔ _
  cases s.crashed <;> simp

theorem Inv.step {a : Act} (h : Inv s) (hcareful : Careful s a) (hs : machine.step s a = some s') :
    Inv s' := by
  replace hs := (step_eq_some.1 hs).2
  cases a with
  | create memory =>
      obtain ⟨hidle, rfl⟩ := guard_eq_some.1 hs
      exact h.create hidle memory
  | unmap =>
      obtain ⟨g, hslot, hs⟩ := Option.bind_eq_some_iff.1 hs
      obtain ⟨-, rfl⟩ := guard_eq_some.1 hs
      exact h.unmap hslot (hcareful g hslot)
  | unlink =>
      obtain ⟨g, hslot, hs⟩ := Option.bind_eq_some_iff.1 hs
      obtain ⟨-, rfl⟩ := guard_eq_some.1 hs
      exact h.unlink hslot
  | free =>
      obtain ⟨g, hdestroying, rfl⟩ := Option.map_eq_some_iff.1 hs
      exact h.free hdestroying (hcareful g hdestroying)
  | read g =>
      obtain ⟨hslot, rfl⟩ := guard_eq_some.1 hs
      refine { h with fresh := fun g' hg' => ?_ }
      have hne : g' ≠ g := by
        rintro rfl
        exact absurd (h.slot g' hslot).1 (not_lt.2 hg')
      obtain ⟨hreading, hrest⟩ := h.fresh g' hg'
      exact ⟨(update_of_ne hne _ _).trans hreading, hrest⟩
  | acquire u g =>
      obtain ⟨⟨hreading, -⟩, rfl⟩ := guard_eq_some.1 hs
      have hlt : g < s.created := by
        by_contra hge
        have hnone := (h.fresh g (not_lt.1 hge)).1
        omega
      refine h.enter hlt hcareful.1 hcareful.2 fun g' => ?_
      by_cases hg : g' = g
      · subst hg
        rw [update_self]
        omega
      · rw [update_of_ne hg]
  | appendPages g =>
      obtain ⟨hu, rfl⟩ := guard_eq_some.1 hs
      obtain ⟨hlt, hmapped, hfreed⟩ := h.live hu
      exact h.enter hlt hmapped hfreed fun _ => Nat.le_refl _
  | noLinear g => cases hcareful
  | finish g =>
      obtain ⟨hu, rfl⟩ := guard_eq_some.1 hs
      exact h.leave hu
  | sent g => cases hcareful
  | createHandle g created =>
      cases created with
      | true =>
          obtain ⟨hu, rfl⟩ := guard_eq_some.1 hs
          exact h.handOver hu
      | false =>
          obtain ⟨hu, rfl⟩ := guard_eq_some.1 hs
          exact h.leave hu
  | freeHandle g => cases hcareful

/-- A step that is not careful leads to a state that is not sound. -/
theorem Inv.careful {a : Act} (h : Inv s) (hs : machine.step s a = some s') (hc : s'.Sound) :
    Careful s a := by
  replace hs := (step_eq_some.1 hs).2
  cases a with
  | unmap =>
      intro g hslot
      obtain ⟨g', hslot', hs⟩ := Option.bind_eq_some_iff.1 hs
      obtain ⟨-, rfl⟩ := guard_eq_some.1 hs
      cases hslot'.symm.trans hslot
      exact hc.intact g (.inl (update_self g true s.unmapped))
  | free =>
      intro g hdestroying
      obtain ⟨g', hdestroying', rfl⟩ := Option.map_eq_some_iff.1 hs
      cases hdestroying'.symm.trans hdestroying
      exact hc.intact g (.inr (update_self g true s.freed))
  | acquire u g =>
      obtain ⟨-, rfl⟩ := guard_eq_some.1 hs
      have hacquired := acquired_enter (s := { s with
        reading := update s.reading g (s.reading g - 1) }.krefGet g) (u := u) (g := g) g
      rw [if_pos rfl] at hacquired
      have hintact : ¬ (s.unmapped g = true ∨ s.freed g = true) := fun hgone => by
        have hnone := hc.intact g hgone
        omega
      obtain ⟨hunmapped, hfreed⟩ := not_or.1 hintact
      exact ⟨Bool.eq_false_iff.2 hunmapped, Bool.eq_false_iff.2 hfreed⟩
  | noLinear g =>
      obtain ⟨-, rfl⟩ := guard_eq_some.1 hs
      cases hc.crashed
  | sent g =>
      obtain ⟨hu, rfl⟩ := guard_eq_some.1 hs
      exact h.not_sound_leave hu hc
  | freeHandle g =>
      obtain ⟨hu, rfl⟩ := guard_eq_some.1 hs
      exact h.not_sound_leave hu hc
  | create _ | unlink | read _ | appendPages _ | finish _ | createHandle _ _ => trivial

/-! ## Every run -/

/-- A run goes through sound states only, exactly if its steps are all careful. -/
theorem xenRegion_released {acts : List Act} {t : State} (h : machine.exec start acts = some t) :
    machine.Meets Careful start acts ↔
      ∀ bs, bs <+: acts → ∀ s, machine.exec start bs = some s → s.Sound := by
  rw [Machine.meets_of_exec h]
  refine Machine.meets_iff_forall_prefix (I := Inv) ?_ (fun _ hI => hI.toSound) ?_ Inv.start
  · exact fun s a s' hI hcareful hs => hI.step (hcareful s' hs) hs
  · exact fun s a hI => ⟨fun hcareful s' hs => (hI.step (hcareful s' hs) hs).toSound,
      fun hsound s' hs => hI.careful hs (hsound s' hs)⟩

/-- A region that answers a pull request by copying, with a pull of its own that gets no handle, and
is destroyed; and one after it. -/
def createAndDestroy : List Act :=
  [.create true, .read 0, .acquire .request 0, .read 0, .acquire .pull 0, .create true,
    .createHandle 0 false, .finish 0, .unmap, .unlink, .free, .create true, .read 1,
    .acquire .pull 1, .createHandle 1 true]

theorem xenRegion_released_createAndDestroy :
    ∃ s, machine.exec start createAndDestroy = some s ∧ s.freed 0 = true ∧ s.Sound := by
  obtain ⟨s, hs, hfreed⟩ := Option.map_eq_some_iff.1
    (show (machine.exec start createAndDestroy).map (·.freed 0) = some true by decide +kernel)
  exact ⟨s, hs, hfreed,
    (xenRegion_released hs).1 (by decide +kernel) _ (List.prefix_refl _) s hs⟩

/-- A destroy request while a pull request is answered frees the region under it; and the reference
of a reply that was sent is never released. -/
theorem xenRegion_not_released :
    (∃ s, machine.exec start
        [.create true, .read 0, .acquire .request 0, .unmap, .unlink, .free] = some s ∧ ¬ s.Sound) ∧
      ∃ s, machine.exec start
        [.create true, .read 0, .acquire .request 0, .appendPages 0, .finish 0, .sent 0] = some s ∧
          ¬ s.Sound := by
  constructor
  · obtain ⟨s, hs, hgone⟩ := Option.map_eq_some_iff.1
      (show (machine.exec start [.create true, .read 0, .acquire .request 0, .unmap, .unlink,
        .free]).map (fun s => (s.freed 0, s.acquired 0)) = some (true, 1) by decide +kernel)
    obtain ⟨hfreed, hacquired⟩ := Prod.mk.inj hgone
    exact ⟨s, hs, fun hc =>
      absurd (hacquired.symm.trans (hc.intact 0 (.inr hfreed))) Nat.one_ne_zero⟩
  · obtain ⟨s, hs, hleft⟩ := Option.map_eq_some_iff.1
      (show (machine.exec start [.create true, .read 0, .acquire .request 0, .appendPages 0,
        .finish 0, .sent 0]).map
          (fun s => (s.created, s.freed 0, s.refcount 0, s.acquired 0)) =
        some (1, false, 2, 0) by decide +kernel)
    simp only [Prod.mk.injEq] at hleft
    obtain ⟨hcreated, hfreed, hrefcount, hacquired⟩ := hleft
    refine ⟨s, hs, fun hc => ?_⟩
    have hcounted := hc.counted 0 (by omega) hfreed
    rw [hrefcount, hacquired] at hcounted
    omega

end Xen2mx.Lifecycle.XenRegion
