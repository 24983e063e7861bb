/-
# `Xen2mx.Lifecycle.PullReferences` — when the references to a pull handle are counted

    kref_get of a reception         the count is initialised, and the handle not freed
    a header without a peer         nobody has a reference
    a lookup                        the slot array is there
    the last kref_put               never: the region keeps its reference

The first three are races of receptions with the pull, with the last release and with the close: the
handle is in its slot before its count is there, and nothing that is freed waits for readers.  In
runs without them the count is the number of holders, the handle is freed once, when the timer has
exited and nobody has a reference, and the endpoint has its reference back.  The last is the release
of the region, which is under `#if 0`.

**Proved here.**

    a step without a race keeps the invariant                         (`Inv.step`)
    a run is without races  ⟺  every state is counted                 (`handle_counted`)
    and no last reference is put
        ⟺  and every region is released with its handle               (`pullHandle_released`)
-/
import Xen2mx.Lifecycle.HandleSteps

namespace Xen2mx.Lifecycle.PullHandle

/-! ## What is claimed -/

structure State.Counted (s : State) : Prop where
  handle : ∀ g, (s.handles g).Counted
  stray : s.stray = false

structure State.Sound (s : State) : Prop extends s.Counted where
  region : ∀ g, (s.handles g).regionReleased = (s.handles g).freed

/-! ## The condition -/

/-- The handle that the workqueue is at. -/
def Worker.handle : Worker → Option ℕ
  | .creating g | .picked g | .marked g | .stopped g | .finishing g => some g
  | .idle | .closing | .closed => none

def Raceless (s : State) : Act → Prop
  | .get g => (s.handles g).phase ≠ .slotted ∧ (s.handles g).freed = 0
  | .fillHeader false => ∀ g ∈ s.worker.handle, (s.handles g).holding = 0
  | .lookupFreed => False
  | _ => True

/-- The step puts the last reference, if it puts one. -/
def LastPut (s : State) : Act → Prop
  | .put g | .putTimer g => (s.handles g).refcount = 1
  | .putStopped | .putPicked => ∃ g ∈ s.worker.handle, (s.handles g).refcount = 1
  | _ => False

instance (s : State) : ∀ a : Act, Decidable (Raceless s a)
  | .get g =>
      inferInstanceAs (Decidable ((s.handles g).phase ≠ .slotted ∧ (s.handles g).freed = 0))
  | .fillHeader false =>
      inferInstanceAs (Decidable (∀ g ∈ s.worker.handle, (s.handles g).holding = 0))
  | .lookupFreed => isFalse id
  | .fillHeader true | .pull _ | .pullFails | .krefInit | .arm | .lookup _ | .drop _ | .accept _
  | .nack _ | .copied _ _ | .copyFails _ | .put _ | .expire _ | .timeout _ _ | .putTimer _ | .close
  | .pick _ | .mark | .delTimer | .putStopped | .putPicked | .closed => isTrue trivial

instance (s : State) : ∀ a : Act, Decidable (LastPut s a)
  | .put g | .putTimer g => inferInstanceAs (Decidable ((s.handles g).refcount = 1))
  | .putStopped | .putPicked =>
      inferInstanceAs (Decidable (∃ g ∈ s.worker.handle, (s.handles g).refcount = 1))
  | .get _ | .fillHeader _ | .lookupFreed | .pull _ | .pullFails | .krefInit | .arm | .lookup _
  | .drop _ | .accept _ | .nack _ | .copied _ _ | .copyFails _ | .expire _ | .timeout _ _ | .close
  | .pick _ | .mark | .delTimer | .closed => isFalse id

def Careful (s : State) (a : Act) : Prop := Raceless s a ∧ ¬ LastPut s a

instance (s : State) (a : Act) : Decidable (Careful s a) :=
  inferInstanceAs (Decidable (_ ∧ ¬ _))

/-! ## The invariant -/

structure Inv (s : State) : Prop where
  handle : ∀ g, (s.handles g).Inv
  /-- the request has the lock, and is at the handle -/
  locked : ∀ g, (s.handles g).phase.locked = true → s.worker = .creating g
  closing : ∀ g, (s.handles g).closing = s.worker.closes g
  marked : ∀ g, s.worker = .marked g →
    (s.handles g).phase.live = true ∧ (s.handles g).status ≠ .ok
  stopped : ∀ g, s.worker = .stopped g → (s.handles g).phase = .leaving
  xen : ∀ g, (s.handles g).phase ≠ .unused → s.xen = true
  stray : s.stray = false

theorem Inv.start (xen : Bool) : Inv (start xen) where
  handle _ := .unused
  locked _ := nofun
  closing _ := rfl
  marked _ := nofun
  stopped _ := nofun
  xen _ hused := absurd rfl hused
  stray := rfl

variable {s s' : State} {g : ℕ} {h' : Handle}

theorem Inv.toCounted (h : Inv s) : s.Counted := ⟨fun g => (h.handle g).toCounted, h.stray⟩

theorem Inv.crash (h : Inv s) : Inv s.crash :=
  ⟨h.handle, h.locked, h.closing, h.marked, h.stopped, h.xen, h.stray⟩

theorem Worker.closes_of_ne {w : Worker} (hat : ∀ g' ∈ w.handle, g' = g) {g' : ℕ} (hne : g' ≠ g) :
    w.closes g' = 0 := by
  cases w with
  | picked n | marked n | stopped n | finishing n =>
      have hn : n = g := hat n rfl
      exact if_neg (hn ▸ hne)
  | idle | creating _ | closing | closed => rfl

/-- A step of others than the workqueue. -/
theorem Inv.set (h : Inv s) (hinv : h'.Inv) (hfollows : (s.handles g).Follows h')
    (hstopped : s.worker = .stopped g → h'.phase = .leaving) : Inv (s.set g h') := by
  have hself : (s.set g h').handles g = h' := State.set_handles
  have hother : ∀ g' ≠ g, (s.set g h').handles g' = s.handles g' :=
    fun _ => State.set_handles_of_ne
  refine ⟨fun g' => ?_, fun g' => ?_, fun g' => ?_, fun g' => ?_, fun g' => ?_, fun g' => ?_,
    h.stray⟩ <;> by_cases hg : g' = g
  · rw [hg, hself]; exact hinv
  · rw [hother g' hg]; exact h.handle g'
  · rw [hg, hself, hfollows.locked]; exact h.locked g
  · rw [hother g' hg]; exact h.locked g'
  · rw [hg, hself, hfollows.closing]; exact h.closing g
  · rw [hother g' hg]; exact h.closing g'
  · rw [hg, hself]
    exact fun hw => ⟨hfollows.live (h.marked g hw).1, hfollows.completed (h.marked g hw).2⟩
  · rw [hother g' hg]; exact h.marked g'
  · rw [hg, hself]; exact hstopped
  · rw [hother g' hg]; exact h.stopped g'
  · rw [hg, hself]; exact fun hused => h.xen g (hfollows.unused hused)
  · rw [hother g' hg]; exact h.xen g'

/-- A step of the workqueue, at a handle that it stays at or leaves. -/
theorem Inv.work (h : Inv s) (g : ℕ) (w : Worker) (hinv : h'.Inv)
    (hat : ∀ g' ∈ s.worker.handle, g' = g) (hat' : ∀ g' ∈ w.handle, g' = g)
    (hlocked : h'.phase.locked = true → w = .creating g) (hclosing : h'.closing = w.closes g)
    (hmarked : w = .marked g → h'.phase.live = true ∧ h'.status ≠ .ok)
    (hstopped : w = .stopped g → h'.phase = .leaving)
    (hxen : s.xen = true) (created : ℕ) :
    Inv { s.set g h' with created, worker := w } := by
  have hself : (s.set g h').handles g = h' := State.set_handles
  have hother : ∀ g' ≠ g, (s.set g h').handles g' = s.handles g' :=
    fun _ => State.set_handles_of_ne
  refine ⟨fun g' => ?_, fun g' => ?_, fun g' => ?_, fun g' => ?_, fun g' => ?_, fun g' _ => hxen,
    h.stray⟩
  · show ((s.set g h').handles g').Inv
    by_cases hg : g' = g
    · rw [hg, hself]; exact hinv
    · rw [hother g' hg]; exact h.handle g'
  · show ((s.set g h').handles g').phase.locked = true → w = .creating g'
    by_cases hg : g' = g
    · rw [hg, hself]; exact hlocked
    · rw [hother g' hg]
      exact fun hl => absurd (hat g' (by rw [h.locked g' hl]; rfl)) hg
  · show ((s.set g h').handles g').closing = w.closes g'
    by_cases hg : g' = g
    · rw [hg, hself]; exact hclosing
    · rw [hother g' hg, h.closing g', Worker.closes_of_ne hat hg, Worker.closes_of_ne hat' hg]
  · intro hw
    have hw : w = .marked g' := hw
    obtain rfl : g' = g := hat' g' (by rw [hw]; rfl)
    show ((s.set g' h').handles g').phase.live = true ∧ ((s.set g' h').handles g').status ≠ .ok
    rw [hself]
    exact hmarked hw
  · intro hw
    have hw : w = .stopped g' := hw
    obtain rfl : g' = g := hat' g' (by rw [hw]; rfl)
    show ((s.set g' h').handles g').phase = .leaving
    rw [hself]
    exact hstopped hw

/-! ## Steps -/

theorem step_eq_some {xen : Bool} {a : Act} :
    (machine xen).step s a = some s' ↔ s.crashed = false ∧ stepLive s a = some s' := by
  show (if s.crashed then none else stepLive s a) = some s' ↔ _
  cases s.crashed <;> simp

/-- The close has one reference to the handle that it is at. -/
theorem Inv.closing_pos (h : Inv s) {w : Worker} (hw : s.worker = w) (hcloses : w.closes g = 1) :
    0 < (s.handles g).closing := by
  rw [h.closing g, hw, hcloses]
  exact Nat.one_pos

theorem Inv.used (h : Inv s) (hu : 0 < (s.handles g).closing) :
    (s.handles g).phase.live = true ∧ s.xen = true := by
  refine ⟨(h.handle g).live_of_users (by omega), h.xen g (Handle.ne_unused_of_counts ?_)⟩
  exact ((h.handle g).of_users (by unfold Handle.users; omega)).1

theorem Inv.stepHandle {a : Act} (h : Inv s)
    (hs : (stepHandle s.xen (s.handles g) a).map (s.set g) = some s')
    (hget : ∀ g', a = .get g' → (s.handles g).phase ≠ .slotted ∧ (s.handles g).freed = 0)
    (hput : s.worker = .stopped g → ∀ g', a ≠ .putTimer g') : Inv s' := by
  obtain ⟨h', hstep, rfl⟩ := Option.map_eq_some_iff.1 hs
  obtain ⟨hinv, hfollows⟩ := Handle.stepHandle_inv (h.handle g) (h.xen g) hget hstep
  exact h.set hinv hfollows fun hw => Handle.stepHandle_leaving (h.stopped g hw) (hput hw) hstep

theorem Worker.at_handle {w : Worker} (hg : w.handle = some g) : ∀ g' ∈ w.handle, g' = g :=
  fun _ hg' => Option.some.inj (hg'.symm.trans hg)

/-! ### The request -/

theorem Inv.pull (h : Inv s) (hidle : s.worker = .idle) (hxen : s.xen = true) (memory : ℤ) :
    Inv { s.set s.created { Handle.unused with
        phase := .slotted, refcount := memory, slot := true } with
      created := s.created + 1, worker := .creating s.created } :=
  h.work s.created (.creating s.created) (.slotted memory)
    (by rw [hidle]; nofun) (Worker.at_handle rfl) (fun _ => rfl) rfl nofun nofun hxen _

section
variable (h : Inv s) (hw : s.worker = .creating g)
include h hw

theorem Inv.krefInit (hphase : (s.handles g).phase = .slotted) :
    Inv (s.set g { s.handles g with phase := .initialised, refcount := 1, status := .ok }) := by
  have hat : ∀ g' ∈ s.worker.handle, g' = g := hw ▸ Worker.at_handle rfl
  exact h.work g s.worker ((h.handle g).krefInit hphase) hat hat (fun _ => hw) (h.closing g)
    (by rw [hw]; nofun) (by rw [hw]; nofun) (h.xen g (by rw [hphase]; nofun)) s.created

theorem Inv.fillHeader (hphase : (s.handles g).phase = .initialised) :
    Inv (s.set g { s.handles g with
      phase := .ready, endpointRefs := (s.handles g).endpointRefs + 1, listed := true }) := by
  have hat : ∀ g' ∈ s.worker.handle, g' = g := hw ▸ Worker.at_handle rfl
  exact h.work g s.worker ((h.handle g).fillHeader hphase) hat hat (fun _ => hw) (h.closing g)
    (by rw [hw]; nofun) (by rw [hw]; nofun) (h.xen g (by rw [hphase]; nofun)) s.created

theorem Inv.fails (hphase : (s.handles g).phase = .initialised)
    (hnone : (s.handles g).holding = 0) :
    Inv { s.set g { s.handles g with
        phase := .failed
        slot := false
        freed := (s.handles g).freed + 1
        regionReleased := (s.handles g).regionReleased + 1 } with
      worker := .idle } :=
  h.work g .idle ((h.handle g).fails hphase hnone) (hw ▸ Worker.at_handle rfl) nofun nofun
    ((h.closing g).trans (by rw [hw]; rfl)) nofun nofun (h.xen g (by rw [hphase]; nofun)) s.created

theorem Inv.arm (hphase : (s.handles g).phase = .ready) :
    Inv { s.set g { s.handles g with phase := .pending } with worker := .idle } :=
  h.work g .idle ((h.handle g).arm hphase) (hw ▸ Worker.at_handle rfl) nofun nofun
    ((h.closing g).trans (by rw [hw]; rfl)) nofun nofun (h.xen g (by rw [hphase]; nofun)) s.created

end

/-! ### The close -/

theorem Inv.unlocked (h : Inv s) (hw : ∀ g, s.worker ≠ .creating g) (g : ℕ) :
    (s.handles g).phase.locked = false :=
  Bool.eq_false_iff.2 fun hl => hw g (h.locked g hl)

/-- The close begins, goes on or ends, at no handle. -/
theorem Inv.closes (h : Inv s) {w : Worker} (hhandle : s.worker.handle = none)
    (hw : w.handle = none) : Inv { s with worker := w } where
  handle := h.handle
  locked g hl := by
    rw [h.locked g hl] at hhandle
    cases hhandle
  closing g := by
    have hnone : ∀ {w : Worker}, w.handle = none → w.closes g = 0 := fun {w} hn =>
      Worker.closes_of_ne (g := g + 1) (by rw [hn]; nofun) (Nat.ne_of_lt (Nat.lt_succ_self g))
    exact (h.closing g).trans ((hnone hhandle).trans (hnone hw).symm)
  marked g hm := by
    have hm : w = .marked g := hm
    rw [hm] at hw
    cases hw
  stopped g hm := by
    have hm : w = .stopped g := hm
    rw [hm] at hw
    cases hw
  xen := h.xen
  stray := h.stray

theorem Inv.pick (h : Inv s) (hw : s.worker = .closing) (hlisted : (s.handles g).listed = true) :
    Inv { s.set g { s.handles g with
        closing := (s.handles g).closing + 1
        refcount := (s.handles g).refcount + 1 } with
      worker := .picked g } := by
  have hunlocked := h.unlocked (fun g => by rw [hw]; nofun) g
  have hphase := (h.handle g).listed.symm.trans hlisted
  have hlive : (s.handles g).phase.live = true := by
    cases hp : (s.handles g).phase <;> rw [hp] at hphase hunlocked
    case pending | running => rfl
    case ready => cases hunlocked
    all_goals cases hphase
  refine h.work g (.picked g) ((h.handle g).pick hlive hlisted) (by rw [hw]; nofun)
    (Worker.at_handle rfl)
    (fun hl => ?_) ?_ nofun nofun (h.xen g fun hp => ?_) s.created
  · exact absurd (hl.symm.trans hunlocked) nofun
  · have hclosing := h.closing g
    rw [hw] at hclosing
    show (s.handles g).closing + 1 = if g = g then 1 else 0
    rw [hclosing, if_pos rfl]
    rfl
  · rw [hp] at hlive
    cases hlive

section
variable (h : Inv s)
include h

theorem Inv.mark (hw : s.worker = .picked g) :
    Inv { s.set g (if (s.handles g).status = .ok then (s.handles g).markCompleted
      else s.handles g) with worker := .marked g } := by
  obtain ⟨hlive, hxen⟩ := h.used (h.closing_pos hw (if_pos rfl))
  have hunlocked := h.unlocked (fun g' => by rw [hw]; nofun) g
  have hclosing : (s.handles g).closing = (Worker.marked g).closes g :=
    (h.closing g).trans (by rw [hw]; rfl)
  have hat : ∀ g' ∈ s.worker.handle, g' = g := hw ▸ Worker.at_handle rfl
  split_ifs with hok
  · obtain ⟨hmarked, hfollows⟩ := (h.handle g).markCompleted hlive hok
    exact h.work g (.marked g) hmarked hat (Worker.at_handle rfl)
      (fun hl => absurd (hl.symm.trans (hfollows.locked.trans hunlocked)) nofun) hclosing
      (fun _ => ⟨hlive, nofun⟩) nofun hxen s.created
  · exact h.work g (.marked g) (h.handle g) hat (Worker.at_handle rfl)
      (fun hl => absurd (hl.symm.trans hunlocked) nofun) hclosing
      (fun _ => ⟨hlive, hok⟩) nofun hxen s.created

/-- The timer is stopped by the close. -/
theorem Inv.stop (hw : s.worker = .marked g) (hphase : (s.handles g).phase = .pending) :
    Inv { s.set g (s.handles g).timerExits with worker := .stopped g } :=
  h.work g (.stopped g) ((h.handle g).timerExits (.inl hphase)).1 (hw ▸ Worker.at_handle rfl)
    (Worker.at_handle rfl) nofun ((h.closing g).trans (by rw [hw]; rfl)) nofun (fun _ => rfl)
    (h.xen g (by rw [hphase]; nofun)) s.created

/-- The timer has exited meanwhile. -/
theorem Inv.finish (hw : s.worker = .marked g) : Inv { s with worker := .finishing g } where
  handle := h.handle
  locked g' hl := by cases hw.symm.trans (h.locked g' hl)
  closing g' := (h.closing g').trans (by rw [hw]; rfl)
  marked _ := nofun
  stopped _ := nofun
  xen := h.xen
  stray := h.stray

theorem Inv.putStopped (hw : s.worker = .stopped g) :
    Inv { s.set g ((s.handles g).putTimer s.xen) with worker := .finishing g } := by
  have hphase := h.stopped g hw
  have hxen := h.xen g (by rw [hphase]; nofun)
  have hfollows := Handle.putTimer_follows hphase s.xen
  rw [hxen] at hfollows ⊢
  refine h.work g (.finishing g) ((h.handle g).putTimer hphase) (hw ▸ Worker.at_handle rfl)
    (Worker.at_handle rfl)
    (fun hl => ?_) (hfollows.closing.trans ((h.closing g).trans (by rw [hw]; rfl))) nofun nofun hxen
    s.created
  rw [hfollows.locked, hphase] at hl
  cases hl

theorem Inv.putPicked (hw : s.worker = .finishing g) :
    Inv { s.set g ({ s.handles g with closing := (s.handles g).closing - 1 }.release s.xen) with
      worker := .closing } := by
  have hpos := h.closing_pos hw (if_pos rfl)
  obtain ⟨hlive, hxen⟩ := h.used hpos
  have hclosing : (s.handles g).closing = 1 := (h.closing g).trans (by rw [hw]; exact if_pos rfl)
  have hfollows := Handle.release_follows
    (h := { s.handles g with closing := (s.handles g).closing - 1 }) s.xen
  rw [hxen] at hfollows ⊢
  refine h.work g .closing ((h.handle g).putClosing hpos) (hw ▸ Worker.at_handle rfl) nofun
    (fun hl => ?_)
    (hfollows.closing.trans ?_) nofun nofun hxen s.created
  · exact absurd ((hfollows.locked.symm.trans hl).symm.trans
      (h.unlocked (fun g' => by rw [hw]; nofun) g)) nofun
  · show (s.handles g).closing - 1 = 0
    omega

end

/-! ### Every step -/

theorem Inv.stepWorker {a : Act} (h : Inv s) (hraceless : Raceless s a)
    (hs : stepWorker s a = some s') : Inv s' := by
  cases a with
  | pull memory =>
      simp only [PullHandle.stepWorker] at hs
      split_ifs at hs with hbug hidle
      · cases hs
        exact h.crash
      · cases hs
        exact h.pull hidle (Bool.of_not_eq_false fun hx => hbug (.inr ⟨hidle, hx⟩)) memory
  | pullFails =>
      obtain ⟨-, rfl⟩ := guard_eq_some.1 hs
      exact h
  | krefInit =>
      simp only [PullHandle.stepWorker] at hs
      split at hs
      · rename_i g hw
        obtain ⟨hphase, rfl⟩ := guard_eq_some.1 hs
        exact h.krefInit hw hphase
      · cases hs
  | fillHeader found =>
      simp only [PullHandle.stepWorker] at hs
      split at hs
      · rename_i g hw
        obtain ⟨hphase, rfl⟩ := guard_eq_some.1 hs
        cases found with
        | true => exact h.fillHeader hw hphase
        | false => exact h.fails hw hphase (hraceless g (by rw [hw]; rfl))
      · cases hs
  | arm =>
      simp only [PullHandle.stepWorker] at hs
      split at hs
      · rename_i g hw
        obtain ⟨hphase, rfl⟩ := guard_eq_some.1 hs
        exact h.arm hw hphase
      · cases hs
  | close =>
      obtain ⟨hw, rfl⟩ := guard_eq_some.1 hs
      exact h.closes (by rw [hw]; rfl) rfl
  | pick g =>
      obtain ⟨⟨hw, hlisted⟩, rfl⟩ := guard_eq_some.1 hs
      exact h.pick hw hlisted
  | mark =>
      simp only [PullHandle.stepWorker] at hs
      split at hs
      · rename_i g hw
        obtain ⟨-, rfl⟩ := guard_eq_some.1 hs
        exact h.mark hw
      · cases hs
  | delTimer =>
      simp only [PullHandle.stepWorker] at hs
      split at hs
      · rename_i g hw
        split_ifs at hs with hrunning hpending hstatus hstatus
        · cases hs
          exact h.crash
        · cases hs
          exact h.stop hw hpending
        · cases hs
          exact h.crash
        · cases hs
          exact h.finish hw
      · cases hs
  | putStopped =>
      simp only [PullHandle.stepWorker] at hs
      split at hs
      · rename_i g hw
        cases hs
        exact h.putStopped hw
      · cases hs
  | putPicked =>
      simp only [PullHandle.stepWorker] at hs
      split at hs
      · rename_i g hw
        cases hs
        exact h.putPicked hw
      · cases hs
  | closed =>
      obtain ⟨⟨hw, -⟩, rfl⟩ := guard_eq_some.1 hs
      exact h.closes (by rw [hw]; rfl) rfl
  | _ => cases hs

/-- A step without a race keeps the invariant. -/
theorem Inv.step {xen : Bool} {a : Act} (h : Inv s) (hraceless : Raceless s a)
    (hs : (machine xen).step s a = some s') : Inv s' := by
  replace hs := (step_eq_some.1 hs).2
  unfold stepLive at hs
  cases a with
  | lookup g =>
      obtain ⟨⟨-, hslot⟩, rfl⟩ := guard_eq_some.1 hs
      exact h.set ((h.handle g).lookup hslot) (.of_phase rfl rfl id) (h.stopped g)
  | lookupFreed => cases hraceless
  | copyFails g =>
      dsimp only at hs
      split_ifs at hs
      · cases hs
        exact h.crash
      · exact h.stepHandle hs nofun fun _ => nofun
  | timeout g last =>
      dsimp only at hs
      split_ifs at hs
      · cases hs
        exact h.crash
      · exact h.stepHandle hs nofun fun _ => nofun
  | putTimer g =>
      dsimp only at hs
      split_ifs at hs with hw
      exact h.stepHandle hs nofun fun hw' => absurd hw' hw
  | get g => exact h.stepHandle hs (fun _ _ => hraceless) fun _ => nofun
  | drop g | accept g | nack g | copied g last | put g | expire g =>
      exact h.stepHandle hs nofun fun _ => nofun
  | pull memory | pullFails | krefInit | fillHeader found | arm | close | pick g | mark | delTimer
  | putStopped | putPicked | closed =>
      exact h.stepWorker hraceless hs

/-- A race leads to a state that is not counted. -/
theorem State.Counted.raceless {xen : Bool} {a : Act} (hc : s'.Counted)
    (hs : (machine xen).step s a = some s') : Raceless s a := by
  replace hs := (step_eq_some.1 hs).2
  cases a with
  | get g =>
      obtain ⟨h', hstep, rfl⟩ := Option.map_eq_some_iff.1 hs
      obtain ⟨hreading, rfl⟩ := guard_eq_some.1 hstep
      have hcounted := hc.handle g
      rw [State.set_handles] at hcounted
      exact hcounted.of_users (Nat.add_pos_left (Nat.add_pos_left (Nat.add_pos_left
        (Nat.succ_pos _) _) _) _)
  | fillHeader found =>
      cases found with
      | true => trivial
      | false =>
          intro g hg
          simp only [stepLive, PullHandle.stepWorker] at hs
          split at hs
          · rename_i g' hw
            obtain rfl : g' = g := by
              rw [hw] at hg
              exact Option.some.inj hg
            obtain ⟨hphase, rfl⟩ := guard_eq_some.1 hs
            have hcounted : ((s.set g' _).handles g').Counted := hc.handle g'
            rw [State.set_handles] at hcounted
            have hnone : (s.handles g').users = 0 := hcounted.unheld (.inr rfl)
            unfold Handle.users at hnone
            omega
          · cases hs
  | lookupFreed =>
      obtain ⟨-, rfl⟩ := guard_eq_some.1 hs
      cases hc.stray
  | _ => trivial

/-! ## The region -/

namespace Handle

variable {h h' : Handle}

theorem release_region (hregion : h.regionReleased = h.freed)
    (hbug : (h.release true).bug = false) :
    (h.release true).regionReleased = (h.release true).freed ↔ h.refcount ≠ 1 := by
  unfold release lastRelease at hbug ⊢
  dsimp only at hbug ⊢
  split_ifs at hbug ⊢ with hlast hstatus
  · refine iff_of_false (fun heq => ?_) (fun hne => hne (by omega))
    dsimp only at heq
    omega
  · exact iff_of_true hregion (by omega)

/-- Nobody but the last release, and a request that fails, releases a region or frees a handle. -/
theorem stepHandle_region {a : Act} {xen : Bool} (hregion : h.regionReleased = h.freed)
    (hs : stepHandle xen h a = some h') (hput : ∀ g, a ≠ .put g ∧ a ≠ .putTimer g) :
    h'.regionReleased = h'.freed := by
  cases a with
  | put g => exact absurd rfl (hput g).1
  | putTimer g => exact absurd rfl (hput g).2
  | copied g last | timeout g last =>
      obtain ⟨-, rfl⟩ := guard_eq_some.1 hs
      split_ifs <;> exact hregion
  | get g | drop g | accept g | nack g | copyFails g | expire g =>
      obtain ⟨-, rfl⟩ := guard_eq_some.1 hs
      exact hregion
  | _ => cases hs

end Handle

theorem region_set (hregion : ∀ g, (s.handles g).regionReleased = (s.handles g).freed) :
    (∀ g', ((s.set g h').handles g').regionReleased = ((s.set g h').handles g').freed) ↔
      h'.regionReleased = h'.freed := by
  constructor
  · intro hall
    have hg := hall g
    rwa [State.set_handles] at hg
  · intro hg g'
    by_cases hne : g' = g
    · rw [hne, State.set_handles]
      exact hg
    · rw [State.set_handles_of_ne hne]
      exact hregion g'

/-- A reference that is put is the last one, exactly if the region keeps its reference when the
handle is freed. -/
theorem region_release (hregion : ∀ g, (s.handles g).regionReleased = (s.handles g).freed)
    {h : Handle} (hsame : h.regionReleased = h.freed) (hc : (s.set g (h.release true)).Counted) :
    (∀ g', ((s.set g (h.release true)).handles g').regionReleased =
      ((s.set g (h.release true)).handles g').freed) ↔ ¬ h.refcount = 1 := by
  refine (region_set hregion).trans (Handle.release_region hsame ?_)
  have hbug := (hc.handle g).bug
  rwa [State.set_handles] at hbug

/-- A step that puts the last reference frees the handle and does not release its region. -/
theorem Inv.region_iff {xen : Bool} {a : Act} (h : Inv s)
    (hregion : ∀ g, (s.handles g).regionReleased = (s.handles g).freed)
    (hc : s'.Counted) (hs : (machine xen).step s a = some s') :
    (∀ g, (s'.handles g).regionReleased = (s'.handles g).freed) ↔ ¬ LastPut s a := by
  replace hs := (step_eq_some.1 hs).2
  cases a with
  | lookup g =>
      obtain ⟨-, rfl⟩ := guard_eq_some.1 hs
      exact iff_of_true ((region_set hregion).2 (hregion g)) id
  | put g =>
      obtain ⟨h', hstep, rfl⟩ := Option.map_eq_some_iff.1 hs
      obtain ⟨hu, rfl⟩ := guard_eq_some.1 hstep
      have hcounts := ((h.handle g).of_users (by unfold Handle.users; omega)).1
      rw [h.xen g (Handle.ne_unused_of_counts hcounts)] at hc ⊢
      exact region_release hregion (hregion g) hc
  | putTimer g =>
      simp only [stepLive] at hs
      split_ifs at hs
      obtain ⟨h', hstep, rfl⟩ := Option.map_eq_some_iff.1 hs
      obtain ⟨hphase, rfl⟩ := guard_eq_some.1 hstep
      rw [h.xen g (by rw [hphase]; nofun)] at hc ⊢
      exact region_release hregion (hregion g) hc
  | putStopped =>
      simp only [stepLive, PullHandle.stepWorker] at hs
      split at hs
      · rename_i g hw
        cases hs
        have hlast : LastPut s .putStopped ↔ (s.handles g).refcount = 1 := by
          simp only [LastPut, hw, Worker.handle, Option.mem_some_iff, exists_eq_left']
        rw [hlast]
        rw [h.xen g (by rw [h.stopped g hw]; nofun)] at hc ⊢
        exact region_release hregion (hregion g) ⟨hc.handle, hc.stray⟩
      · cases hs
  | putPicked =>
      simp only [stepLive, PullHandle.stepWorker] at hs
      split at hs
      · rename_i g hw
        cases hs
        have hlast : LastPut s .putPicked ↔ (s.handles g).refcount = 1 := by
          simp only [LastPut, hw, Worker.handle, Option.mem_some_iff, exists_eq_left']
        rw [hlast]
        rw [(h.used (h.closing_pos hw (if_pos rfl))).2] at hc ⊢
        exact region_release hregion (hregion g) ⟨hc.handle, hc.stray⟩
      · cases hs
  | get g | drop g | accept g | nack g | copied g last | expire g =>
      obtain ⟨h', hstep, rfl⟩ := Option.map_eq_some_iff.1 hs
      exact iff_of_true ((region_set hregion).2
        (Handle.stepHandle_region (hregion g) hstep fun _ => ⟨nofun, nofun⟩)) id
  | copyFails g | timeout g last =>
      simp only [stepLive] at hs
      split_ifs at hs
      · cases hs
        exact iff_of_true hregion id
      · obtain ⟨h', hstep, rfl⟩ := Option.map_eq_some_iff.1 hs
        exact iff_of_true ((region_set hregion).2
          (Handle.stepHandle_region (hregion g) hstep fun _ => ⟨nofun, nofun⟩)) id
  | lookupFreed | pullFails | close | closed =>
      obtain ⟨-, rfl⟩ := guard_eq_some.1 hs
      exact iff_of_true hregion id
  | pull memory =>
      simp only [stepLive, PullHandle.stepWorker] at hs
      split_ifs at hs
      · cases hs
        exact iff_of_true hregion id
      · cases hs
        exact iff_of_true ((region_set hregion).2 rfl) id
  | pick g =>
      obtain ⟨-, rfl⟩ := guard_eq_some.1 hs
      exact iff_of_true ((region_set hregion).2 (hregion g)) id
  | krefInit | arm =>
      simp only [stepLive, PullHandle.stepWorker] at hs
      split at hs
      · rename_i g hw
        obtain ⟨-, rfl⟩ := guard_eq_some.1 hs
        exact iff_of_true ((region_set hregion).2 (hregion g)) id
      · cases hs
  | fillHeader found =>
      simp only [stepLive, PullHandle.stepWorker] at hs
      split at hs
      · rename_i g hw
        obtain ⟨-, rfl⟩ := guard_eq_some.1 hs
        cases found with
        | true => exact iff_of_true ((region_set hregion).2 (hregion g)) id
        | false =>
            exact iff_of_true ((region_set hregion).2 (congrArg (· + 1) (hregion g))) id
      · cases hs
  | mark =>
      simp only [stepLive, PullHandle.stepWorker] at hs
      split at hs
      · rename_i g hw
        obtain ⟨-, rfl⟩ := guard_eq_some.1 hs
        refine iff_of_true ((region_set hregion).2 ?_) id
        split_ifs <;> exact hregion g
      · cases hs
  | delTimer =>
      simp only [stepLive, PullHandle.stepWorker] at hs
      split at hs
      · rename_i g hw
        split_ifs at hs <;> cases hs
        · exact iff_of_true hregion id
        · exact iff_of_true ((region_set hregion).2 (hregion g)) id
        · exact iff_of_true hregion id
        · exact iff_of_true hregion id
      · cases hs

/-! ## Every run -/

/-- A run is without races exactly if the count is right in every state that it goes through, and a
handle is freed once, after the exit of its timer, with its reference to the endpoint back. -/
theorem handle_counted {xen : Bool} {acts : List Act} {t : State}
    (h : (machine xen).exec (start xen) acts = some t) :
    (machine xen).Meets Raceless (start xen) acts ↔
      ∀ bs, bs <+: acts → ∀ s, (machine xen).exec (start xen) bs = some s → s.Counted := by
  rw [Machine.meets_of_exec h]
  refine Machine.meets_iff_forall_prefix (I := Inv) ?_ (fun _ hI => hI.toCounted) ?_ (.start xen)
  · exact fun s a s' hI hraceless hs => hI.step (hraceless s' hs) hs
  · exact fun s a hI => ⟨fun hraceless s' hs => (hI.step (hraceless s' hs) hs).toCounted,
      fun hcounted s' hs => (hcounted s' hs).raceless hs⟩

/-- And the region of each handle is released with it, exactly if no last reference is put. -/
theorem pullHandle_released {xen : Bool} {acts : List Act} {t : State}
    (h : (machine xen).exec (start xen) acts = some t) :
    (machine xen).Meets Careful (start xen) acts ↔
      ∀ bs, bs <+: acts → ∀ s, (machine xen).exec (start xen) bs = some s → s.Sound := by
  rw [Machine.meets_of_exec h]
  refine Machine.meets_iff_forall_prefix
    (I := fun s => Inv s ∧ ∀ g, (s.handles g).regionReleased = (s.handles g).freed) ?_
    (fun _ hI => ⟨hI.1.toCounted, hI.2⟩) ?_ ⟨.start xen, fun _ => rfl⟩
  · intro s a s' hI hcareful hs
    obtain ⟨hraceless, hlast⟩ := hcareful s' hs
    have hinv := hI.1.step hraceless hs
    exact ⟨hinv, (hI.1.region_iff hI.2 hinv.toCounted hs).2 hlast⟩
  · intro s a hI
    constructor
    · intro hcareful s' hs
      obtain ⟨hraceless, hlast⟩ := hcareful s' hs
      have hcounted := (hI.1.step hraceless hs).toCounted
      exact ⟨hcounted, (hI.1.region_iff hI.2 hcounted hs).2 hlast⟩
    · intro hsound s' hs
      have hcounted := (hsound s' hs).toCounted
      exact ⟨hcounted.raceless hs, (hI.1.region_iff hI.2 hcounted hs).1 (hsound s' hs).region⟩

/-- A request whose peer is not found, and a pull that is answered and closed; the reply is still
copied then, and has the last reference. -/
def pullAndClose : List Act :=
  [.pull 7, .krefInit, .fillHeader false, .pull 0, .krefInit, .fillHeader true, .arm, .lookup 1,
    .get 1, .expire 1, .timeout 1 false, .accept 1, .close, .pick 1, .mark, .delTimer, .putStopped,
    .putPicked, .closed, .copied 1 true]

theorem pullHandle_released_pullAndClose :
    ∃ s, (machine true).exec (start true) pullAndClose = some s ∧
      (s.handles 1).refcount = 1 ∧ s.Sound := by
  obtain ⟨s, hs, hrefcount⟩ := Option.map_eq_some_iff.1
    (show ((machine true).exec (start true) pullAndClose).map (fun s => (s.handles 1).refcount) =
      some 1 by decide +kernel)
  exact ⟨s, hs, hrefcount,
    (pullHandle_released hs).1 (by decide +kernel) _ (List.prefix_refl _) s hs⟩

/-- The region of a pull that is complete keeps its reference; and a reply that takes its reference
before the count is initialised puts the last one while the timer is armed. -/
theorem pullHandle_not_released :
    (∃ s, (machine true).exec (start true)
        [.pull 0, .krefInit, .fillHeader true, .arm, .lookup 0, .get 0, .accept 0, .copied 0 true,
          .put 0, .expire 0, .timeout 0 false, .putTimer 0] = some s ∧ ¬ s.Sound) ∧
      ∃ s, (machine true).exec (start true)
        [.pull 0, .lookup 0, .get 0, .krefInit, .fillHeader true, .arm, .drop 0, .put 0] = some s ∧
          (s.handles 0).bug = true := by
  constructor
  · obtain ⟨s, hs, hleft⟩ := Option.map_eq_some_iff.1
      (show ((machine true).exec (start true)
        [.pull 0, .krefInit, .fillHeader true, .arm, .lookup 0, .get 0, .accept 0, .copied 0 true,
          .put 0, .expire 0, .timeout 0 false, .putTimer 0]).map
        (fun s => ((s.handles 0).regionReleased, (s.handles 0).freed)) = some (0, 1)
        by decide +kernel)
    obtain ⟨hreleased, hfreed⟩ := Prod.mk.inj hleft
    refine ⟨s, hs, fun hc => ?_⟩
    have hregion := hc.region 0
    rw [hreleased, hfreed] at hregion
    cases hregion
  · exact Option.map_eq_some_iff.1
      (show ((machine true).exec (start true)
        [.pull 0, .lookup 0, .get 0, .krefInit, .fillHeader true, .arm, .drop 0, .put 0]).map
        (fun s => (s.handles 0).bug) = some true by decide +kernel)

end Xen2mx.Lifecycle.PullHandle
