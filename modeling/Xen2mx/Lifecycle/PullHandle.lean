/-
# `Xen2mx.Lifecycle.PullHandle` — who has a reference to a pull handle

A pull request of the guest makes a handle; replies and nacks find it in the slot array of the
endpoint, its timer asks again, and the close of the endpoint stops the timer.  The first reference
is the timer's, and the request borrows it until it arms the timer.

    request    slot     kref_init     header     list     arm, unlock
    reply      look up     kref_get     lock: check     copy     lock: complete?     kref_put
    nack       look up     kref_get     lock: complete     kref_put
    timer      expire     lock: arm again, or complete, EXITED     kref_put
    close      kref_get     lock: MUST_EXIT     del_timer_sync: EXITED, kref_put     kref_put

The slot is in use from the first step of the request on, the lock is taken until the last.  A
request without a region, memory or a slot leaves nothing behind, and one whose peer is not found
frees its handle at once.  A completion that waits for copies of the DMA engine puts its reference
later, from a workqueue.

A run ends at a `BUG` that it reaches.  Outside of the last release there are those of the request,
of an endpoint that is native or closed; that of `mark_completed`, after a copy that fails when the
handle was completed by others; and those on the status, in the timer and in the close.
-/
import Mathlib.Data.Int.Notation
import Mathlib.Logic.Function.Basic
import Xen2mx.Lib.Runs

namespace Xen2mx.Lifecycle.PullHandle

open Function (update update_self update_of_ne)

/-! ## Handles -/

/-- `enum omx_pull_handle_status`. -/
inductive Status where
  | ok | timerMustExit | timerExited
  deriving DecidableEq, Repr

/-- Where the first reference is. -/
inductive Phase where
  | unused
  /-- in a slot, the count is not initialised -/
  | slotted
  /-- `kref_init`; and then in the list of the endpoint -/
  | initialised | ready
  /-- the timer is armed; its handler runs, and waits for the lock -/
  | pending | running
  /-- the timer has exited, and its reference is still to be put -/
  | leaving
  | gone
  /-- freed by the request -/
  | failed
  deriving DecidableEq, Repr

namespace Phase

/-- The request holds the lock. -/
def locked : Phase → Bool
  | .slotted | .initialised | .ready => true
  | _ => false

/-- The request is done. -/
def live : Phase → Bool
  | .pending | .running | .leaving | .gone => true
  | _ => false

def refs : Phase → ℕ
  | .initialised | .ready | .pending | .running | .leaving => 1
  | _ => 0

end Phase

structure Handle where
  phase : Phase
  refcount : ℤ
  status : Status
  /-- a slot of the endpoint has the handle -/
  slot : Bool
  /-- the handle is in `endpoint->pull_handles_list` -/
  listed : Bool
  /-- receptions that found the handle in its slot and have no reference yet -/
  reading : ℕ
  /-- receptions with a reference, before they look at the status -/
  holding : ℕ
  /-- replies that copy their data, without the lock -/
  copying : ℕ
  /-- receptions that have their reference to put -/
  leaving : ℕ
  /-- references of a close -/
  closing : ℕ
  /-- references to the endpoint that the handle has -/
  endpointRefs : ℕ
  freed : ℕ
  /-- releases of its reference to the region -/
  regionReleased : ℕ
  /-- a `BUG` of the last release -/
  bug : Bool

namespace Handle

variable (h : Handle)

def unused : Handle where
  phase := .unused
  refcount := 0
  status := .ok
  slot := false
  listed := false
  reading := 0
  holding := 0
  copying := 0
  leaving := 0
  closing := 0
  endpointRefs := 0
  freed := 0
  regionReleased := 0
  bug := false

/-- Everybody with a reference, the timer apart. -/
def users : ℕ := h.holding + h.copying + h.leaving + h.closing

def holders : ℕ := h.phase.refs + h.users

/-- `__omx_pull_handle_last_release`. -/
def lastRelease (xen : Bool) : Handle :=
  if h.status ≠ .timerExited then { h with bug := true }
  -- the release of the region is under `#if 0`
  else if xen then { h with freed := h.freed + 1 }
  else { h with regionReleased := h.regionReleased + 1, bug := true }

/-- `omx_pull_handle_release`. -/
def release (xen : Bool) : Handle :=
  let h := { h with refcount := h.refcount - 1 }
  if h.refcount = 0 then h.lastRelease xen else h

/-- `omx_pull_handle_mark_completed`, of a handle that is not completed. -/
def markCompleted : Handle := { h with status := .timerMustExit, slot := false }

/-- The timer handler leaves the list. -/
def timerExits : Handle :=
  { h with phase := .leaving, status := .timerExited, listed := false }

/-- The reference of the timer and its reference to the endpoint. -/
def putTimer (xen : Bool) : Handle :=
  { h with phase := .gone, endpointRefs := h.endpointRefs - 1 }.release xen

end Handle

/-! ## States -/

/-- Where the workqueue of the guest is, with a pull or with the close of the endpoint. -/
inductive Worker where
  | idle
  | creating (g : ℕ)
  | closing
  | picked (g : ℕ) | marked (g : ℕ) | stopped (g : ℕ) | finishing (g : ℕ)
  | closed
  deriving DecidableEq, Repr

/-- The references of a close. -/
def Worker.closes : Worker → ℕ → ℕ
  | .picked g, g' | .marked g, g' | .stopped g, g' | .finishing g, g' => if g' = g then 1 else 0
  | _, _ => 0

/-- An endpoint, from `omx_endpoint_pull_handles_init` on, and its handles by number. -/
structure State where
  xen : Bool
  worker : Worker
  created : ℕ
  handles : ℕ → Handle
  /-- a slot was looked up in the array after it was freed -/
  stray : Bool
  /-- a `BUG` was reached -/
  crashed : Bool

def start (xen : Bool) : State where
  xen := xen
  worker := .idle
  created := 0
  handles := fun _ => .unused
  stray := false
  crashed := false

namespace State

variable (s : State)

def set (g : ℕ) (h : Handle) : State :=
  { s with handles := update s.handles g h, crashed := s.crashed || h.bug }

def crash : State := { s with crashed := true }

variable {s} {g : ℕ} {h : Handle}

@[simp] theorem set_handles : (s.set g h).handles g = h := update_self ..

theorem set_handles_of_ne {g' : ℕ} (hne : g' ≠ g) : (s.set g h).handles g' = s.handles g' :=
  update_of_ne hne ..

end State

/-! ## Steps -/

inductive Act where
  /-- `omx_ioctl_pull`, up to `omx_pull_handle_alloc_slot`; with what was in the memory -/
  | pull (memory : ℤ)
  /-- no region, no memory or no slot -/
  | pullFails
  | krefInit
  /-- whether the peer is found -/
  | fillHeader (found : Bool)
  | arm
  /-- `omx_pull_handle_acquire_from_slot` -/
  | lookup (g : ℕ) | lookupFreed | get (g : ℕ)
  /-- a reply or a nack that finds the handle completed, or a frame that is not expected -/
  | drop (g : ℕ)
  | accept (g : ℕ)
  | nack (g : ℕ)
  /-- the frame was copied, and was the last one or not -/
  | copied (g : ℕ) (last : Bool)
  | copyFails (g : ℕ)
  | put (g : ℕ)
  | expire (g : ℕ)
  /-- `omx_pull_handle_timeout_handler`, at the last retransmission or not -/
  | timeout (g : ℕ) (last : Bool)
  | putTimer (g : ℕ)
  /-- `omx_endpoint_pull_handles_exit` -/
  | close | pick (g : ℕ) | mark | delTimer | putStopped | putPicked | closed
  deriving DecidableEq, Repr

/-- The steps of a handle that take no part in a pull or a close: what is left of it. -/
def stepHandle (xen : Bool) (h : Handle) : Act → Option Handle
  | .get _ =>
      if 0 < h.reading then
        some { h with
          reading := h.reading - 1
          holding := h.holding + 1
          refcount := h.refcount + 1 }
      else none
  | .drop _ =>
      if 0 < h.holding ∧ h.phase.locked = false then
        some { h with holding := h.holding - 1, leaving := h.leaving + 1 }
      else none
  | .accept _ =>
      if 0 < h.holding ∧ h.phase.locked = false ∧ h.status = .ok then
        some { h with holding := h.holding - 1, copying := h.copying + 1 }
      else none
  | .nack _ =>
      if 0 < h.holding ∧ h.phase.locked = false ∧ h.status = .ok then
        some { h with holding := h.holding - 1, leaving := h.leaving + 1 }.markCompleted
      else none
  | .copied _ last =>
      if 0 < h.copying then
        let h' := { h with copying := h.copying - 1, leaving := h.leaving + 1 }
        -- `host_copy_nr_frames` is zero, and nothing is missing
        some (if h.status = .ok ∧ h.copying = 1 ∧ last then h'.markCompleted else h')
      else none
  | .copyFails _ =>
      if 0 < h.copying ∧ h.status = .ok then
        some { h with copying := h.copying - 1, leaving := h.leaving + 1 }.markCompleted
      else none
  | .put _ =>
      if 0 < h.leaving then some ({ h with leaving := h.leaving - 1 }.release xen) else none
  | .expire _ => if h.phase = .pending then some { h with phase := .running } else none
  | .timeout _ last =>
      if h.phase = .running then
        some (if h.status ≠ .ok then h.timerExits
          else if last then h.markCompleted.timerExits
          else { h with phase := .pending })
      else none
  | .putTimer _ => if h.phase = .leaving then some (h.putTimer xen) else none
  | _ => none

/-- The steps of the workqueue. -/
def stepWorker (s : State) : Act → Option State
  | .pull memory =>
      if s.worker = .closed ∨ s.worker = .idle ∧ s.xen = false then some s.crash
      else if s.worker = .idle then
        some { s.set s.created { Handle.unused with
          phase := .slotted, refcount := memory, slot := true } with
            created := s.created + 1, worker := .creating s.created }
      else none
  | .pullFails => if s.worker = .idle ∧ s.xen then some s else none
  | .krefInit =>
      match s.worker with
      | .creating g =>
          if (s.handles g).phase = .slotted then
            some (s.set g { s.handles g with phase := .initialised, refcount := 1, status := .ok })
          else none
      | _ => none
  | .fillHeader found =>
      match s.worker with
      | .creating g =>
          let h := s.handles g
          if h.phase = .initialised then
            some (if found then
              s.set g { h with phase := .ready, endpointRefs := h.endpointRefs + 1, listed := true }
            else
              { s.set g { h with
                  phase := .failed
                  slot := false
                  freed := h.freed + 1
                  regionReleased := h.regionReleased + 1 } with
                worker := .idle })
          else none
      | _ => none
  | .arm =>
      match s.worker with
      | .creating g =>
          if (s.handles g).phase = .ready then
            some { s.set g { s.handles g with phase := .pending } with worker := .idle }
          else none
      | _ => none
  | .close => if s.worker = .idle then some { s with worker := .closing } else none
  | .pick g =>
      let h := s.handles g
      if s.worker = .closing ∧ h.listed then
        some { s.set g { h with closing := h.closing + 1, refcount := h.refcount + 1 } with
          worker := .picked g }
      else none
  | .mark =>
      match s.worker with
      | .picked g =>
          let h := s.handles g
          if h.phase.locked = false then
            some { s.set g (if h.status = .ok then h.markCompleted else h) with
              worker := .marked g }
          else none
      | _ => none
  | .delTimer =>
      match s.worker with
      | .marked g =>
          let h := s.handles g
          if h.phase = .running then none
          else if h.phase = .pending then
            if h.status ≠ .timerMustExit then some s.crash
            else some { s.set g h.timerExits with worker := .stopped g }
          else if h.status ≠ .timerExited then some s.crash
          else some { s with worker := .finishing g }
      | _ => none
  | .putStopped =>
      match s.worker with
      | .stopped g => some { s.set g ((s.handles g).putTimer s.xen) with worker := .finishing g }
      | _ => none
  | .putPicked =>
      match s.worker with
      | .finishing g =>
          let h := s.handles g
          some { s.set g ({ h with closing := h.closing - 1 }.release s.xen) with
            worker := .closing }
      | _ => none
  | .closed =>
      if s.worker = .closing ∧ ∀ g < s.created, (s.handles g).listed = false then
        some { s with worker := .closed }
      else none
  | _ => none

def stepLive (s : State) (a : Act) : Option State :=
  match a with
  | .lookup g =>
      let h := s.handles g
      if s.worker ≠ .closed ∧ h.slot then some (s.set g { h with reading := h.reading + 1 })
      else none
  | .lookupFreed => if s.worker = .closed then some { s with stray := true } else none
  | .copyFails g =>
      if 0 < (s.handles g).copying ∧ (s.handles g).status ≠ .ok then some s.crash
      else (stepHandle s.xen (s.handles g) a).map (s.set g)
  | .timeout g _ =>
      if (s.handles g).phase = .running ∧ (s.handles g).status = .timerExited then some s.crash
      else (stepHandle s.xen (s.handles g) a).map (s.set g)
  -- the reference of a timer that a close has stopped is put by the close
  | .putTimer g =>
      if s.worker = .stopped g then none
      else (stepHandle s.xen (s.handles g) a).map (s.set g)
  | .get g | .drop g | .accept g | .nack g | .copied g _ | .put g | .expire g =>
      (stepHandle s.xen (s.handles g) a).map (s.set g)
  | _ => stepWorker s a

def step (s : State) (a : Act) : Option State := if s.crashed then none else stepLive s a

def machine (xen : Bool) : Machine State Act := { init := start xen, step }

end Xen2mx.Lifecycle.PullHandle
