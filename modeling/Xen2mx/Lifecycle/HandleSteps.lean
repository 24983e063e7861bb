/-
# `Xen2mx.Lifecycle.HandleSteps` — what a step does to the references of a pull handle

    the reference of the timer     from `kref_init` until the timer has exited, and has put it
    receptions                     from `kref_get` until they put it; behind the lock of the request
                                   they cannot go on
    a close                        one, or two after it has stopped the timer

A step leaves the references as they are, takes one, or puts one.

**Proved here.**

    the same references  ⟹  the invariant is kept                    (`Handle.Inv.keeps`)
    one taken, of a handle that is counted and not freed  ⟹  too     (`Handle.Inv.takes`)
    one put  ⟹  too, and the last one after the exit of the timer    (`Handle.Owing.release`)
    every step of a reception or the timer  ⟹  too                   (`Handle.stepHandle_inv`)
-/
import Xen2mx.Lifecycle.PullHandle

namespace Xen2mx.Lifecycle.PullHandle

/-! ## What is claimed -/

/-- The count is initialised, and the handle not freed by its request. -/
def Phase.counts : Phase → Bool
  | .unused | .slotted | .failed => false
  | _ => true

/-- The count of a handle is that of its holders, and it is freed when there is none; before the
count is there, and after a request that failed, nobody has a reference. -/
structure Handle.Counted (h : Handle) : Prop where
  counted : h.phase.counts → h.freed = 0 → h.refcount = h.holders
  unheld : h.phase = .slotted ∨ h.phase = .failed → h.users = 0
  /-- once, and after the exit of the timer -/
  freed : h.freed = if h.phase = .failed ∨ h.phase = .gone ∧ h.users = 0 then 1 else 0
  endpoint : h.freed ≠ 0 → h.endpointRefs = 0
  bug : h.bug = false

theorem Handle.Counted.of_users {h : Handle} (hc : h.Counted) (hu : 0 < h.users) :
    h.phase ≠ .slotted ∧ h.freed = 0 := by
  refine ⟨fun hslotted => Nat.ne_of_gt hu (hc.unheld (.inl hslotted)), hc.freed.trans (if_neg ?_)⟩
  rintro (hfailed | ⟨-, hnone⟩)
  · exact Nat.ne_of_gt hu (hc.unheld (.inr hfailed))
  · exact Nat.ne_of_gt hu hnone

/-! ## The invariant of a handle -/

namespace Phase

def listed : Phase → Bool
  | .ready | .pending | .running => true
  | _ => false

def endpointRefs : Phase → ℕ
  | .ready | .pending | .running | .leaving => 1
  | _ => 0

def Allows : Phase → Status → Prop
  | .initialised, st | .ready, st => st = .ok
  | .pending, st | .running, st => st ≠ .timerExited
  | .leaving, st | .gone, st => st = .timerExited
  | _, _ => True

end Phase

namespace Handle

/-- Who can have reached the handle: as long as the request has the lock, nobody gets further than
to its reference. -/
def Reached (h : Handle) : Prop :=
  match h.phase with
  | .unused => h.slot = false ∧ h.reading = 0 ∧ h.users = 0
  | .slotted | .failed => h.users = 0
  | .initialised | .ready => h.copying + h.leaving + h.closing = 0
  | _ => True

structure Inv (h : Handle) : Prop where
  counted : h.phase.counts → h.freed = 0 → h.refcount = h.holders
  reached : h.Reached
  freed : h.freed = if h.phase = .failed ∨ h.phase = .gone ∧ h.users = 0 then 1 else 0
  status : h.phase.Allows h.status
  listed : h.listed = h.phase.listed
  endpointRefs : h.endpointRefs = h.phase.endpointRefs
  bug : h.bug = false

variable {h h' : Handle}

theorem Inv.unused : Inv .unused := ⟨nofun, ⟨rfl, rfl, rfl⟩, rfl, trivial, rfl, rfl, rfl⟩

theorem Inv.toCounted (hi : h.Inv) : h.Counted where
  counted := hi.counted
  unheld hphase := by
    have hreached := hi.reached
    unfold Reached at hreached
    rcases hphase with hphase | hphase <;> rw [hphase] at hreached <;> exact hreached
  freed := hi.freed
  endpoint hfreed := by
    have hf := hi.freed
    split at hf
    · rename_i hover
      rw [hi.endpointRefs]
      rcases hover with hphase | ⟨hphase, -⟩ <;> rw [hphase] <;> rfl
    · exact absurd hf hfreed
  bug := hi.bug

/-- A handle with users is counted, and not freed. -/
theorem Inv.of_users (hi : h.Inv) (hu : 0 < h.users) :
    h.phase.counts = true ∧ h.freed = 0 := by
  have hreached := hi.reached
  have hfreed := hi.freed
  unfold Reached at hreached
  have hcounts : h.phase.counts = true := by
    cases hphase : h.phase <;> rw [hphase] at hreached
    case unused => omega
    case slotted | failed => omega
    all_goals rfl
  refine ⟨hcounts, hfreed.trans (if_neg ?_)⟩
  rintro (hphase | ⟨-, hnone⟩)
  · rw [hphase] at hcounts
    cases hcounts
  · omega

/-- Nobody but the timer has a reference that the request can take away. -/
theorem Inv.live_of_users (hi : h.Inv) (hu : 0 < h.copying + h.leaving + h.closing) :
    h.phase.live = true := by
  have hreached := hi.reached
  unfold Reached users at hreached
  cases hphase : h.phase <;> rw [hphase] at hreached
  case unused | slotted | failed => omega
  case initialised | ready => omega
  all_goals rfl

theorem reached_of_live (hlive : h.phase.live = true) : h.Reached := by
  unfold Reached
  cases hphase : h.phase <;> rw [hphase] at hlive
  case pending | running | leaving | gone => trivial
  all_goals cases hlive

theorem counts_of_live {p : Phase} (hlive : p.live = true) : p.counts = true := by
  cases p <;> first | rfl | cases hlive

theorem over_of_live (hlive : h.phase.live = true) :
    (h.phase = .failed ∨ h.phase = .gone ∧ h.users = 0) ↔ h.holders = 0 := by
  unfold holders
  cases hphase : h.phase <;> rw [hphase] at hlive <;> simp [Phase.refs] <;> cases hlive

theorem endpointRefs_of_live {p : Phase} (hlive : p.live = true) : p.endpointRefs = p.refs := by
  cases p <;> first | rfl | cases hlive

/-! ### Steps that leave the references as they are -/

/-- The references that a step of a live handle leaves as they are. -/
structure Keeps (h h' : Handle) : Prop where
  live : h'.phase.live = true
  refs : h'.phase.refs = h.phase.refs
  users : h'.users = h.users
  refcount : h'.refcount = h.refcount
  endpointRefs : h'.endpointRefs = h.endpointRefs
  freed : h'.freed = h.freed
  bug : h'.bug = h.bug

theorem Inv.keeps (hi : h.Inv) (hlive : h.phase.live = true) (hk : h.Keeps h')
    (hstatus : h'.phase.Allows h'.status) (hlisted : h'.listed = h'.phase.listed) : h'.Inv := by
  have hholders : h'.holders = h.holders := by
    unfold holders
    rw [hk.refs, hk.users]
  refine {
    counted := fun _ hfreed => ?_
    reached := reached_of_live hk.live
    freed := ?_
    status := hstatus
    listed := hlisted
    endpointRefs := ?_
    bug := hk.bug.trans hi.bug }
  · rw [hk.refcount, hholders]
    exact hi.counted (counts_of_live hlive) (hk.freed.symm.trans hfreed)
  · rw [hk.freed, hi.freed]
    simp only [over_of_live hlive, over_of_live hk.live, hholders]
  · rw [hk.endpointRefs, hi.endpointRefs, endpointRefs_of_live hlive, endpointRefs_of_live hk.live,
      hk.refs]

/-! ### Steps that take a reference -/

theorem Inv.lookup (hi : h.Inv) (hslot : h.slot = true) :
    ({ h with reading := h.reading + 1 } : Handle).Inv := by
  refine { hi with reached := ?_ }
  have hreached := hi.reached
  unfold Reached at hreached ⊢
  cases hphase : h.phase <;> rw [hphase] at hreached
  case unused => cases hslot.symm.trans hreached.1
  case pending | running | leaving | gone => trivial
  all_goals exact hreached

/-- One more user, and one more reference. -/
theorem Inv.takes (hi : h.Inv) (hcounts : h.phase.counts = true) (hfreed : h.freed = 0)
    (hphase : h'.phase = h.phase) (husers : h'.users = h.users + 1)
    (href : h'.refcount = h.refcount + 1) (hreached : h'.Reached)
    (hsame : h'.status = h.status ∧ h'.listed = h.listed ∧ h'.endpointRefs = h.endpointRefs ∧
      h'.freed = h.freed ∧ h'.bug = h.bug) : h'.Inv := by
  obtain ⟨hstatus, hlisted, hendpoint, hfreed', hbug⟩ := hsame
  have hover : ¬ (h'.phase = .failed ∨ h'.phase = .gone ∧ h'.users = 0) := by
    rintro (hfailed | ⟨-, hnone⟩)
    · rw [← hphase, hfailed] at hcounts
      cases hcounts
    · omega
  refine {
    counted := fun _ _ => ?_
    reached := hreached
    freed := hfreed'.trans (hfreed.trans (if_neg hover).symm)
    status := ?_
    listed := ?_
    endpointRefs := ?_
    bug := hbug.trans hi.bug }
  · have hcounted := hi.counted hcounts hfreed
    unfold holders at hcounted ⊢
    rw [href, hphase, husers, hcounted]
    push_cast
    omega
  · rw [hphase, hstatus]
    exact hi.status
  · rw [hphase, hlisted]
    exact hi.listed
  · rw [hphase, hendpoint]
    exact hi.endpointRefs

/-! ### Steps that put a reference -/

/-- A handle whose count still has the reference of one that is no holder any more. -/
structure Owing (h : Handle) : Prop where
  live : h.phase.live = true
  counted : h.refcount = h.holders + 1
  freed : h.freed = 0
  status : h.phase.Allows h.status
  listed : h.listed = h.phase.listed
  endpointRefs : h.endpointRefs = h.phase.endpointRefs
  bug : h.bug = false

/-- The last reference frees the handle, after the exit of the timer. -/
theorem Owing.release (ho : h.Owing) : (h.release true).Inv := by
  have hlive := ho.live
  have hcounted := ho.counted
  unfold Handle.release
  dsimp only
  split
  · rename_i hlast
    have hnone : h.holders = 0 := by omega
    obtain ⟨hphase, hexited⟩ : h.phase = .gone ∧ h.status = .timerExited := by
      have hstatus := ho.status
      unfold holders at hnone
      cases hphase : h.phase <;> rw [hphase] at hlive hstatus hnone
      case gone => exact ⟨rfl, hstatus⟩
      case pending | running | leaving => exact absurd hnone (by simp [Phase.refs])
      all_goals cases hlive
    have husers : h.users = 0 := (Nat.add_eq_zero_iff.1 hnone).2
    rw [lastRelease, if_neg (not_not.2 hexited), if_pos rfl]
    refine {
      counted := fun _ hf => absurd hf (Nat.succ_ne_zero _)
      reached := reached_of_live hlive
      freed := ?_
      status := ho.status, listed := ho.listed, endpointRefs := ho.endpointRefs, bug := ho.bug }
    rw [if_pos (.inr ⟨hphase, husers⟩)]
    exact congrArg (· + 1) ho.freed
  · rename_i hlast
    refine {
      counted := fun _ _ => ?_
      reached := reached_of_live hlive
      freed := ?_
      status := ho.status, listed := ho.listed, endpointRefs := ho.endpointRefs, bug := ho.bug }
    · show h.refcount - 1 = (h.holders : ℤ)
      omega
    · refine ho.freed.trans (if_neg fun hover => hlast ?_).symm
      have hnone := (over_of_live hlive).1 hover
      omega

/-- A user that has its reference to put. -/
theorem Inv.owing (hi : h.Inv) (hu : 0 < h.copying + h.leaving + h.closing)
    (hphase : h'.phase = h.phase) (husers : h'.users + 1 = h.users)
    (hsame : h'.refcount = h.refcount ∧ h'.status = h.status ∧ h'.listed = h.listed ∧
      h'.endpointRefs = h.endpointRefs ∧ h'.freed = h.freed ∧ h'.bug = h.bug) : h'.Owing := by
  obtain ⟨href, hstatus, hlisted, hendpoint, hfreed, hbug⟩ := hsame
  obtain ⟨hcounts, hnotFreed⟩ := hi.of_users (by omega)
  refine {
    live := hphase.symm ▸ hi.live_of_users hu
    counted := ?_
    freed := hfreed.trans hnotFreed
    status := by rw [hphase, hstatus]; exact hi.status
    listed := by rw [hphase, hlisted]; exact hi.listed
    endpointRefs := by rw [hphase, hendpoint]; exact hi.endpointRefs
    bug := hbug.trans hi.bug }
  have hcounted := hi.counted hcounts hnotFreed
  unfold holders at hcounted ⊢
  rw [href, hphase, hcounted]
  omega

theorem Inv.put (hi : h.Inv) (hu : 0 < h.leaving) :
    ({ h with leaving := h.leaving - 1 }.release true).Inv := by
  refine Owing.release ?_
  refine hi.owing (by omega) rfl ?_ ⟨rfl, rfl, rfl, rfl, rfl, rfl⟩
  show h.holding + h.copying + (h.leaving - 1) + h.closing + 1 = h.users
  unfold users
  omega

theorem Inv.putClosing (hi : h.Inv) (hu : 0 < h.closing) :
    ({ h with closing := h.closing - 1 }.release true).Inv := by
  refine Owing.release ?_
  refine hi.owing (by omega) rfl ?_ ⟨rfl, rfl, rfl, rfl, rfl, rfl⟩
  show h.holding + h.copying + h.leaving + (h.closing - 1) + 1 = h.users
  unfold users
  omega

theorem Inv.putTimer (hi : h.Inv) (hphase : h.phase = .leaving) : (h.putTimer true).Inv := by
  have hcounts : h.phase.counts = true := by rw [hphase]; rfl
  have hfreed : h.freed = 0 := hi.freed.trans (if_neg (by rw [hphase]; simp))
  have hcounted := hi.counted hcounts hfreed
  have hstatus := hi.status
  have hlisted := hi.listed
  have hendpoint := hi.endpointRefs
  unfold holders at hcounted
  rw [hphase] at hcounted hstatus hlisted hendpoint
  refine Owing.release ⟨rfl, ?_, hfreed, hstatus, hlisted, ?_, hi.bug⟩
  · show h.refcount = ((0 + h.users : ℕ) : ℤ) + 1
    rw [hcounted]
    simp only [Phase.refs]
    omega
  · show h.endpointRefs - 1 = 0
    rw [hendpoint]
    rfl

/-! ### The request -/

theorem Inv.slotted (memory : ℤ) :
    ({ Handle.unused with phase := .slotted, refcount := memory, slot := true } : Handle).Inv :=
  ⟨nofun, rfl, rfl, trivial, rfl, rfl, rfl⟩

theorem Inv.krefInit (hi : h.Inv) (hphase : h.phase = .slotted) :
    ({ h with phase := .initialised, refcount := 1, status := .ok } : Handle).Inv := by
  have hreached := hi.reached
  have hfreed := hi.freed
  have hlisted := hi.listed
  have hendpoint := hi.endpointRefs
  unfold Reached at hreached
  rw [hphase] at hreached hfreed hlisted hendpoint
  refine {
    counted := fun _ _ => ?_
    reached := ?_
    freed := hfreed, status := rfl, listed := hlisted, endpointRefs := hendpoint, bug := hi.bug }
  · show (1 : ℤ) = ((1 + h.users : ℕ) : ℤ)
    rw [hreached]
    rfl
  · show h.copying + h.leaving + h.closing = 0
    unfold users at hreached
    omega

theorem Inv.fillHeader (hi : h.Inv) (hphase : h.phase = .initialised) :
    ({ h with
        phase := .ready
        endpointRefs := h.endpointRefs + 1
        listed := true } : Handle).Inv := by
  have hcounted := hi.counted
  have hreached := hi.reached
  have hfreed := hi.freed
  have hstatus := hi.status
  have hendpoint := hi.endpointRefs
  unfold Reached at hreached
  unfold holders at hcounted
  rw [hphase] at hcounted hreached hfreed hstatus hendpoint
  exact {
    counted := fun _ hf => hcounted rfl hf
    reached := hreached, freed := hfreed, status := hstatus, listed := rfl
    endpointRefs := congrArg (· + 1) hendpoint
    bug := hi.bug }

/-- A request that fails frees a handle to which nobody has a reference. -/
theorem Inv.fails (hi : h.Inv) (hphase : h.phase = .initialised) (hnone : h.holding = 0) :
    ({ h with
        phase := .failed
        slot := false
        freed := h.freed + 1
        regionReleased := h.regionReleased + 1 } : Handle).Inv := by
  have hreached := hi.reached
  have hfreed := hi.freed
  have hlisted := hi.listed
  have hendpoint := hi.endpointRefs
  unfold Reached at hreached
  rw [hphase] at hreached hfreed hlisted hendpoint
  refine {
    counted := fun hcounts => by cases hcounts
    reached := ?_
    freed := congrArg (· + 1) hfreed
    status := trivial, listed := hlisted, endpointRefs := hendpoint, bug := hi.bug }
  show h.holding + h.copying + h.leaving + h.closing = 0
  omega

theorem Inv.arm (hi : h.Inv) (hphase : h.phase = .ready) :
    ({ h with phase := .pending } : Handle).Inv := by
  have hcounted := hi.counted
  have hfreed := hi.freed
  have hok := hi.status
  have hlisted := hi.listed
  have hendpoint := hi.endpointRefs
  unfold holders at hcounted
  rw [hphase] at hcounted hfreed hok hlisted hendpoint
  have hok : h.status = .ok := hok
  exact {
    counted := fun _ hf => hcounted rfl hf
    reached := trivial, freed := hfreed, status := by rw [hok]; nofun
    listed := hlisted, endpointRefs := hendpoint, bug := hi.bug }

/-- A close takes a reference to a handle of its list. -/
theorem Inv.pick (hi : h.Inv) (hlive : h.phase.live = true) (hlisted : h.listed = true) :
    ({ h with closing := h.closing + 1, refcount := h.refcount + 1 } : Handle).Inv := by
  have hphase := hi.listed.symm.trans hlisted
  have hfreed : h.freed = 0 := by
    rw [hi.freed, if_neg]
    rintro (hp | ⟨hp, -⟩) <;> rw [hp] at hphase <;> cases hphase
  exact hi.takes (counts_of_live hlive) hfreed rfl rfl rfl (reached_of_live hlive)
    ⟨rfl, rfl, rfl, rfl, rfl⟩

/-! ### Every step -/

/-- What a step leaves to a request or a close that is at the handle. -/
structure Follows (h h' : Handle) : Prop where
  locked : h'.phase.locked = h.phase.locked
  live : h.phase.live = true → h'.phase.live = true
  unused : h'.phase ≠ .unused → h.phase ≠ .unused
  closing : h'.closing = h.closing
  completed : h.status ≠ .ok → h'.status ≠ .ok

theorem Follows.of_phase (hphase : h'.phase = h.phase) (hclosing : h'.closing = h.closing)
    (hcompleted : h.status ≠ .ok → h'.status ≠ .ok) : h.Follows h' where
  locked := by rw [hphase]
  live hlive := hphase.symm ▸ hlive
  unused hused := hphase ▸ hused
  closing := hclosing
  completed := hcompleted

theorem release_follows (xen : Bool) : h.Follows (h.release xen) := by
  unfold release lastRelease
  dsimp only
  split_ifs <;> exact .of_phase rfl rfl id

theorem Inv.unlocked_live (hi : h.Inv) (hu : 0 < h.users) (hunlocked : h.phase.locked = false) :
    h.phase.live = true := by
  have hcounts := (hi.of_users hu).1
  cases hphase : h.phase <;> rw [hphase] at hunlocked hcounts
  case pending | running | leaving | gone => rfl
  case initialised | ready => cases hunlocked
  all_goals cases hcounts

theorem ne_unused_of_counts (hcounts : h.phase.counts = true) : h.phase ≠ .unused := by
  intro hphase
  rw [hphase] at hcounts
  cases hcounts

/-- A user that goes on, and may complete the handle. -/
theorem Inv.moves (hi : h.Inv) (hlive : h.phase.live = true) (hphase : h'.phase = h.phase)
    (husers : h'.users = h.users) (hclosing : h'.closing = h.closing)
    (hstatus : h'.status = h.status ∨ h.status = .ok ∧ h'.status = .timerMustExit)
    (hsame : h'.refcount = h.refcount ∧ h'.listed = h.listed ∧ h'.endpointRefs = h.endpointRefs ∧
      h'.freed = h.freed ∧ h'.bug = h.bug) : h'.Inv ∧ h.Follows h' := by
  obtain ⟨href, hlisted, hendpoint, hfreed, hbug⟩ := hsame
  refine ⟨hi.keeps hlive ⟨hphase ▸ hlive, by rw [hphase], husers, href, hendpoint, hfreed, hbug⟩
    ?_ (by rw [hphase, hlisted]; exact hi.listed), .of_phase hphase hclosing fun hdone => ?_⟩
  · have hallows := hi.status
    rcases hstatus with hsame | ⟨hok, hmust⟩
    · rw [hphase, hsame]
      exact hallows
    · rw [hphase, hmust]
      cases hp : h.phase <;> rw [hp] at hlive hallows
      case pending | running => exact nofun
      case leaving | gone => cases hok.symm.trans hallows
      all_goals cases hlive
  · rcases hstatus with hsame | ⟨hok, -⟩
    · exact hsame ▸ hdone
    · exact absurd hok hdone

theorem Inv.timerExits (hi : h.Inv) (hphase : h.phase = .pending ∨ h.phase = .running) :
    h.timerExits.Inv ∧ h.Follows h.timerExits := by
  have hlive : h.phase.live = true := by rcases hphase with hphase | hphase <;> rw [hphase] <;> rfl
  refine ⟨hi.keeps hlive ⟨rfl, ?_, rfl, rfl, rfl, rfl, rfl⟩ rfl rfl, ?_, fun _ => rfl, ?_, rfl,
    fun _ => nofun⟩
  · rcases hphase with hphase | hphase <;> rw [hphase] <;> rfl
  · rcases hphase with hphase | hphase <;> rw [hphase] <;> rfl
  · rcases hphase with hphase | hphase <;> rw [hphase] <;> exact fun _ => nofun

theorem Follows.trans {h'' : Handle} (hf : h.Follows h') (hf' : h'.Follows h'') :
    h.Follows h'' where
  locked := hf'.locked.trans hf.locked
  live hlive := hf'.live (hf.live hlive)
  unused hused := hf.unused (hf'.unused hused)
  closing := hf'.closing.trans hf.closing
  completed hdone := hf'.completed (hf.completed hdone)

theorem putTimer_follows (hphase : h.phase = .leaving) (xen : Bool) :
    h.Follows (h.putTimer xen) := by
  have hgone : h.Follows { h with phase := .gone, endpointRefs := h.endpointRefs - 1 } :=
    ⟨by rw [hphase]; rfl, fun _ => rfl, fun _ => by rw [hphase]; nofun, rfl, id⟩
  exact hgone.trans (release_follows xen)

theorem Inv.markCompleted (hi : h.Inv) (hlive : h.phase.live = true) (hok : h.status = .ok) :
    h.markCompleted.Inv ∧ h.Follows h.markCompleted :=
  hi.moves hlive rfl rfl rfl (.inr ⟨hok, rfl⟩) ⟨rfl, rfl, rfl, rfl, rfl⟩

theorem stepHandle_inv {a : Act} {xen : Bool} (hi : h.Inv)
    (hxen : h.phase ≠ .unused → xen = true)
    (hget : ∀ g, a = .get g → h.phase ≠ .slotted ∧ h.freed = 0)
    (hs : stepHandle xen h a = some h') : h'.Inv ∧ h.Follows h' := by
  cases a with
  | get g =>
      obtain ⟨hreading, rfl⟩ := guard_eq_some.1 hs
      obtain ⟨hslotted, hfreed⟩ := hget g rfl
      have hreached := hi.reached
      have hover := hi.freed
      rw [hfreed] at hover
      unfold Reached at hreached
      have hcounts : h.phase.counts = true := by
        cases hphase : h.phase <;> rw [hphase] at hreached hover hslotted
        case unused => omega
        case slotted => exact absurd rfl hslotted
        case failed => cases hover
        all_goals rfl
      refine ⟨hi.takes hcounts hfreed rfl ?_ rfl ?_ ⟨rfl, rfl, rfl, rfl, rfl⟩, .of_phase rfl rfl id⟩
      · simp only [users]
        omega
      · unfold Reached
        cases hphase : h.phase <;> rw [hphase] at hreached hcounts
        case initialised | ready => exact hreached
        case pending | running | leaving | gone => trivial
        all_goals cases hcounts
  | drop g =>
      obtain ⟨⟨hu, hunlocked⟩, rfl⟩ := guard_eq_some.1 hs
      refine hi.moves (hi.unlocked_live (by unfold users; omega) hunlocked) rfl ?_ rfl (.inl rfl)
        ⟨rfl, rfl, rfl, rfl, rfl⟩
      simp only [users]
      omega
  | accept g =>
      obtain ⟨⟨hu, hunlocked, -⟩, rfl⟩ := guard_eq_some.1 hs
      refine hi.moves (hi.unlocked_live (by unfold users; omega) hunlocked) rfl ?_ rfl (.inl rfl)
        ⟨rfl, rfl, rfl, rfl, rfl⟩
      simp only [users]
      omega
  | nack g =>
      obtain ⟨⟨hu, hunlocked, hok⟩, rfl⟩ := guard_eq_some.1 hs
      refine hi.moves (hi.unlocked_live (by unfold users; omega) hunlocked) rfl ?_ rfl
        (.inr ⟨hok, rfl⟩) ⟨rfl, rfl, rfl, rfl, rfl⟩
      simp only [users, Handle.markCompleted]
      omega
  | copied g last =>
      obtain ⟨hu, rfl⟩ := guard_eq_some.1 hs
      have hlive := hi.live_of_users (by omega)
      split_ifs with hdone
      · refine hi.moves hlive rfl ?_ rfl (.inr ⟨hdone.1, rfl⟩) ⟨rfl, rfl, rfl, rfl, rfl⟩
        simp only [users, Handle.markCompleted]
        omega
      · refine hi.moves hlive rfl ?_ rfl (.inl rfl) ⟨rfl, rfl, rfl, rfl, rfl⟩
        simp only [users]
        omega
  | copyFails g =>
      obtain ⟨⟨hu, hok⟩, rfl⟩ := guard_eq_some.1 hs
      refine hi.moves (hi.live_of_users (by omega)) rfl ?_ rfl (.inr ⟨hok, rfl⟩)
        ⟨rfl, rfl, rfl, rfl, rfl⟩
      simp only [users, Handle.markCompleted]
      omega
  | put g =>
      obtain ⟨hu, rfl⟩ := guard_eq_some.1 hs
      have hcounts := (hi.of_users (by unfold users; omega)).1
      rw [hxen (ne_unused_of_counts hcounts)]
      have hleft : h.Follows { h with leaving := h.leaving - 1 } := .of_phase rfl rfl id
      exact ⟨hi.put hu, hleft.trans (release_follows true)⟩
  | expire g =>
      obtain ⟨hphase, rfl⟩ := guard_eq_some.1 hs
      have hlisted := hi.listed
      have hstatus := hi.status
      rw [hphase] at hlisted hstatus
      refine ⟨hi.keeps (by rw [hphase]; rfl) ⟨rfl, by rw [hphase]; rfl, rfl, rfl, rfl, rfl, rfl⟩
        hstatus hlisted, by rw [hphase]; rfl, fun _ => rfl, fun _ => by rw [hphase]; nofun, rfl, id⟩
  | timeout g last =>
      obtain ⟨hphase, rfl⟩ := guard_eq_some.1 hs
      split_ifs with hdone hlast
      · exact hi.timerExits (.inr hphase)
      · obtain ⟨hmarked, hfollows⟩ :=
          hi.markCompleted (by rw [hphase]; rfl) (not_not.1 hdone)
        obtain ⟨hexited, hfollows'⟩ := hmarked.timerExits (.inr hphase)
        exact ⟨hexited, hfollows.trans hfollows'⟩
      · have hlisted := hi.listed
        have hstatus := hi.status
        rw [hphase] at hlisted hstatus
        exact ⟨hi.keeps (by rw [hphase]; rfl) ⟨rfl, by rw [hphase]; rfl, rfl, rfl, rfl, rfl, rfl⟩
          hstatus hlisted, by rw [hphase]; rfl, fun _ => rfl, fun _ => by rw [hphase]; nofun, rfl,
          id⟩
  | putTimer g =>
      obtain ⟨hphase, rfl⟩ := guard_eq_some.1 hs
      rw [hxen (by rw [hphase]; nofun)]
      exact ⟨hi.putTimer hphase, putTimer_follows hphase true⟩
  | _ => cases hs

/-- A timer that has exited stays so until its reference is put. -/
theorem stepHandle_leaving {a : Act} {xen : Bool} (hphase : h.phase = .leaving)
    (ha : ∀ g, a ≠ .putTimer g) (hs : stepHandle xen h a = some h') : h'.phase = .leaving := by
  cases a with
  | put g =>
      obtain ⟨-, rfl⟩ := guard_eq_some.1 hs
      unfold Handle.release lastRelease
      dsimp only
      split_ifs <;> exact hphase
  | copied g last =>
      obtain ⟨-, rfl⟩ := guard_eq_some.1 hs
      split_ifs <;> exact hphase
  | get g | drop g | accept g | nack g | copyFails g =>
      obtain ⟨-, rfl⟩ := guard_eq_some.1 hs
      exact hphase
  | expire g | timeout g last =>
      obtain ⟨hother, -⟩ := guard_eq_some.1 hs
      cases hphase.symm.trans hother
  | putTimer g => exact absurd rfl (ha g)
  | _ => cases hs

end Handle

end Xen2mx.Lifecycle.PullHandle
