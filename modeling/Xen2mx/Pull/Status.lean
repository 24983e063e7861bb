/-
# `Xen2mx.Pull.Status` — a handle is completed once

Whatever the agents of a handle do, its status leaves OK once, its slot is freed at
that moment and at no other, and at most one event is reported (`Accounted`).  The one
gap is the path of a copy that failed: it takes the lock back and marks the handle
completed without looking at the status, so it runs into the `BUG_ON` if another
agent was there first.

**Proved here.**

    every run frees the slot exactly once                             (`Accounted.invariant`)
    the BUG_ON is not reached  ⟺  failing copies find the status OK   (`reaches_bug_iff`)
    and no reply touches a handle that is done
                               ⟺  all copies do                       (`markCompleted_once_iff`)
-/
import Xen2mx.Pull.System

namespace Xen2mx.Pull

open Word

variable {c : Config} {e : Env}

/-! ## What the block bookkeeping leaves alone -/

/-- `h` and `h'` have the same status and the same count of pending copies. -/
def SameLife (h h' : Handle) : Prop :=
  h'.status = h.status ∧ h'.hostCopyNrFrames = h.hostCopyNrFrames

theorem SameLife.refl (h : Handle) : SameLife h h := ⟨rfl, rfl⟩

theorem SameLife.trans {h₁ h₂ h₃ : Handle} (h : SameLife h₁ h₂) (h' : SameLife h₂ h₃) :
    SameLife h₁ h₃ := ⟨h'.1.trans h.1, h'.2.trans h.2⟩

/-- A loop whose turns leave the life of a handle alone does so. -/
theorem SameLife.iterate {f : Handle → Handle} (hf : ∀ h, SameLife h (f h)) (n : ℕ) (h : Handle) :
    SameLife h (f^[n] h) :=
  Function.Iterate.rec (SameLife h) (SameLife.refl h) (fun _ hh => hh.trans (hf _)) n

theorem sameLife_firstBlockDone (h : Handle) : SameLife h (pullHandleFirstBlockDone c h) :=
  ⟨rfl, rfl⟩

theorem sameLife_dropDoneBlock (h : Handle) : SameLife h (dropDoneBlock c h) := by
  unfold dropDoneBlock
  split
  · exact .refl h
  · exact sameLife_firstBlockDone h

theorem sameLife_appendNextBlock (h : Handle) : SameLife h (appendNextBlock c h) := by
  unfold appendNextBlock
  split
  · exact ⟨append_status .., append_hostCopyNrFrames ..⟩
  · exact .refl h

theorem sameLife_prepareNextBlocks (h : Handle) : SameLife h (prepareNextBlocks c h) :=
  .iterate sameLife_appendNextBlock _ h

theorem sameLife_progress (h : Handle) (idesc allocs : ℕ) :
    SameLife h (progressPullOnRecvPullReply c h idesc allocs).1 := by
  unfold progressPullOnRecvPullReply
  split
  · split
    · exact ⟨rfl, rfl⟩
    · exact .refl h
  · have hdrop := (sameLife_firstBlockDone (c := c) h).trans
      (.iterate (sameLife_dropDoneBlock (c := c)) (blockDescsNr - 1) _)
    rw [requestNextBlocks_fst]
    exact hdrop.trans (sameLife_prepareNextBlocks _)

/-- A reply that is accepted starts a copy and leaves the status alone. -/
theorem recvPullReply_status {h h' : Handle} {r : Reply} {allocs : ℕ} {requests : List Request}
    (hr : recvPullReply c h r allocs = some (h', requests)) :
    h'.status = h.status ∧ h'.hostCopyNrFrames = wrap 32 (h.hostCopyNrFrames + 1) := by
  rw [recvPullReply, Option.map_eq_some_iff] at hr
  obtain ⟨⟨idesc, frame⟩, _, heq⟩ := hr
  obtain ⟨hstatus, hcopy⟩ := sameLife_progress (c := c)
    { receiveFrame c h idesc frame with
      hostCopyNrFrames := wrap 32 ((receiveFrame c h idesc frame).hostCopyNrFrames + 1) }
    idesc allocs
  have hfst := congrArg Prod.fst heq
  dsimp only at hfst hstatus hcopy
  rw [hfst] at hstatus hcopy
  exact ⟨hstatus, hcopy⟩

/-! ## The account of a handle -/

/-- The slot is free exactly when the status left OK, and each event has a completion
behind it. -/
structure Accounted (s : State) : Prop where
  slotFrees : s.slotFrees = if s.handle.status = .ok then 0 else 1
  running : s.timerRunning = true ↔ s.handle.status ≠ .timerExited
  closing : s.closing = true → s.handle.status ≠ .ok
  reports : s.events.length + s.notifying.length ≤ s.slotFrees
  hostCopy : s.handle.hostCopyNrFrames < 2 ^ 32

namespace Accounted

variable {s : State}

theorem start (mem : ℕ → BlockDesc) (length off allocs : ℕ) :
    Accounted (ioctlPull c mem length off allocs) := by
  have hlife : SameLife (pullHandleCreate mem length off)
      (ioctlPullBlocks c (pullHandleCreate mem length off)) :=
    SameLife.trans ⟨append_status .., append_hostCopyNrFrames ..⟩
      (sameLife_prepareNextBlocks _)
  have hstatus : (ioctlPull c mem length off allocs).handle.status = .ok := hlife.1
  have hcopy : (ioctlPull c mem length off allocs).handle.hostCopyNrFrames = 0 := hlife.2
  constructor
  · rw [hstatus]
    rfl
  · rw [hstatus]
    exact iff_of_true rfl (by decide)
  · intro h
    cases h
  · exact le_rfl
  · rw [hcopy]
    decide

/-- A section that leaves the life of the handle alone leaves the account alone. -/
theorem congr {s' : State} (hs : Accounted s) (hstatus : s'.handle.status = s.handle.status)
    (hcopy : s'.handle.hostCopyNrFrames < 2 ^ 32) (hfrees : s'.slotFrees = s.slotFrees)
    (hrun : s'.timerRunning = s.timerRunning) (hclose : s'.closing = s.closing)
    (hreports : s'.events.length + s'.notifying.length = s.events.length + s.notifying.length) :
    Accounted s' where
  slotFrees := by rw [hfrees, hstatus, hs.slotFrees]
  running := by rw [hrun, hstatus, hs.running]
  closing := by rw [hclose, hstatus]; exact hs.closing
  reports := by rw [hreports, hfrees]; exact hs.reports
  hostCopy := hcopy

theorem markCompleted (hs : Accounted s) (t : PullDone) : Accounted (s.markCompleted t) := by
  unfold State.markCompleted
  split
  · exact hs.congr rfl hs.hostCopy rfl rfl rfl rfl
  · rename_i hok
    have hok := not_not.1 hok
    have hfrees : s.slotFrees = 0 := by rw [hs.slotFrees, if_pos hok]
    constructor
    · show s.slotFrees + 1 = 1
      rw [hfrees]
    · show s.timerRunning = true ↔ Status.timerMustExit ≠ .timerExited
      rw [hs.running, hok]
      exact iff_of_true (by decide) (by decide)
    · intro _ h
      cases h
    · have := hs.reports
      simp only [List.length_append, List.length_singleton]
      omega
    · exact hs.hostCopy

/-- The timer returns for good from a handle that is completed. -/
theorem timerExit (hs : Accounted s) (hdone : s.handle.status ≠ .ok) :
    Accounted s.timerExit where
  slotFrees := by
    rw [if_neg (by exact nofun)]
    exact hs.slotFrees.trans (if_neg hdone)
  running := iff_of_false Bool.false_ne_true (not_not.2 rfl)
  closing := by
    intro _ h
    cases h
  reports := hs.reports
  hostCopy := hs.hostCopy

theorem recvReply (hs : Accounted s) (r : Reply) (dma : Bool) (allocs : ℕ) :
    Accounted (s.recvReply c r dma allocs) := by
  unfold State.recvReply
  split
  · exact hs
  · split
    · exact hs
    · rename_i h requests hrecv
      obtain ⟨hstatus, hcopy⟩ := recvPullReply_status hrecv
      have hlt : h.hostCopyNrFrames < 2 ^ 32 := hcopy ▸ wrap_lt 32 _
      split
      · exact hs.congr hstatus hlt rfl rfl rfl rfl
      · split
        · exact hs.congr hstatus hlt rfl rfl rfl rfl
        · exact hs.congr hstatus hlt rfl rfl rfl rfl

theorem hostCopy' (hs : Accounted s) (regionLength : ℕ) (r : Reply) :
    Accounted (s.hostCopy regionLength r) := by
  unfold State.hostCopy
  dsimp only
  split
  · exact hs.congr rfl hs.hostCopy rfl rfl rfl rfl
  · exact hs.congr rfl hs.hostCopy rfl rfl rfl rfl

theorem finishCopy (hs : Accounted s) : Accounted s.finishCopy := by
  have hback : Accounted s.copyDone :=
    hs.congr rfl (Nat.mod_lt _ (by decide)) rfl rfl rfl rfl
  unfold State.finishCopy
  split
  · exact hback
  · split
    · exact hback.markCompleted _
    · exact hback

theorem finishFailed (hs : Accounted s) (r : Reply) : Accounted (s.finishFailed r) := by
  have hback : Accounted { s with copyFailed := s.copyFailed.erase r } :=
    hs.congr rfl hs.hostCopy rfl rfl rfl rfl
  exact hback.markCompleted _

theorem nack (hs : Accounted s) (t : NackType) : Accounted (s.nack t) := by
  unfold State.nack
  split
  · exact hs
  · exact hs.markCompleted _

theorem timer (hs : Accounted s) (expired : Bool) (allocs : ℕ) :
    Accounted (s.timer c expired allocs) := by
  unfold State.timer
  split
  · rename_i hdone
    split
    · exact hs.congr rfl hs.hostCopy rfl rfl rfl rfl
    · exact hs.timerExit hdone
  · rename_i hok
    split
    · refine (hs.markCompleted _).timerExit ?_
      rw [State.markCompleted, if_neg hok]
      exact nofun
    · split
      · exact hs.congr rfl hs.hostCopy rfl rfl rfl rfl
      · exact hs.congr rfl hs.hostCopy rfl rfl rfl rfl

theorem endpointClose (hs : Accounted s) : Accounted s.endpointClose := by
  unfold State.endpointClose
  split
  · rename_i hok
    have hfrees : s.slotFrees = 0 := by rw [hs.slotFrees, if_pos hok]
    constructor
    · show s.slotFrees + 1 = 1
      rw [hfrees]
    · show s.timerRunning = true ↔ Status.timerMustExit ≠ .timerExited
      rw [hs.running, hok]
      exact iff_of_true (by decide) (by decide)
    · intro _ h
      cases h
    · exact hs.reports.trans (Nat.le_succ _)
    · exact hs.hostCopy
  · rename_i hdone
    exact ⟨hs.slotFrees, hs.running, fun _ => hdone, hs.reports, hs.hostCopy⟩

theorem delTimer (hs : Accounted s) (hclosing : s.closing = true) : Accounted s.delTimer := by
  unfold State.delTimer
  split
  · split
    · exact hs.congr rfl hs.hostCopy rfl rfl rfl rfl
    · have hexit := hs.timerExit (hs.closing hclosing)
      exact ⟨hexit.slotFrees, hexit.running, nofun, hexit.reports, hexit.hostCopy⟩
  · split
    · exact hs.congr rfl hs.hostCopy rfl rfl rfl rfl
    · exact ⟨hs.slotFrees, hs.running, nofun, hs.reports, hs.hostCopy⟩

theorem notify (hs : Accounted s) : Accounted s.notify := by
  refine hs.congr rfl hs.hostCopy rfl rfl rfl ?_
  simp only [State.notify, List.length_append, List.length_take, List.length_tail]
  omega

/-- Every section keeps the account, also one that ends in a `BUG_ON`. -/
theorem next (hs : Accounted s) {a : Action} (ha : s.Enabled e a) : Accounted (s.next c e a) := by
  cases a with
  | recvReply r dma allocs => exact hs.recvReply r dma allocs
  | hostCopy r => exact hs.hostCopy' _ r
  | finishCopy => exact hs.finishCopy
  | finishFailed r => exact hs.finishFailed r
  | dmaDone r => exact hs.congr rfl hs.hostCopy rfl rfl rfl rfl
  | nack t => exact hs.nack t
  | timer expired allocs => exact hs.timer expired allocs
  | endpointClose => exact hs.endpointClose
  | delTimer => exact hs.delTimer ha
  | notify => exact hs.notify

theorem step {start s' : State} {a : Action} (hs : Accounted s)
    (h : (pullMachine c e start).step s a = some s') : Accounted s' := by
  obtain ⟨⟨-, ha⟩, rfl⟩ := (pullMachine_step c e).1 h
  exact hs.next ha

/-- In every run the slot is freed exactly when the status leaves OK, once. -/
theorem invariant {start : State} {as : List Action} (hstart : Accounted start)
    (h : (pullMachine c e start).exec start as = some s) : Accounted s :=
  Machine.exec_invariant (fun _ _ _ => step) hstart h

end Accounted

/-! ## The copies that come too late -/

/-- A copy that failed takes the lock back while the status is OK. -/
def FailedCopyInTime (s : State) : Action → Prop
  | .finishFailed _ => s.handle.status = .ok
  | _ => True

/-- Every copy takes the lock back while the status is OK. -/
def CopyInTime (s : State) : Action → Prop
  | .finishFailed _ | .finishCopy => s.handle.status = .ok
  | _ => True

instance (s : State) : DecidablePred (FailedCopyInTime s)
  | .finishFailed _ => inferInstanceAs (Decidable (s.handle.status = .ok))
  | .recvReply .. | .hostCopy _ | .finishCopy | .dmaDone _ | .nack _ | .timer ..
  | .endpointClose | .delTimer | .notify =>
      inferInstanceAs (Decidable True)

instance (s : State) : DecidablePred (CopyInTime s)
  | .finishFailed _ | .finishCopy => inferInstanceAs (Decidable (s.handle.status = .ok))
  | .recvReply .. | .hostCopy _ | .dmaDone _ | .nack _ | .timer .. | .endpointClose
  | .delTimer | .notify =>
      inferInstanceAs (Decidable True)

variable (c e) in
/-- A section of a reply leaves a handle alone that is done. -/
def LeavesDone (s : State) (a : Action) : Prop :=
  a.ofReply = true → s.handle.status ≠ .ok → (s.next c e a).handle = s.handle

theorem markCompleted_bug {s : State} (t : PullDone) (hs : s.bug = none) :
    (s.markCompleted t).bug = some .markCompleted ↔ s.handle.status ≠ .ok := by
  unfold State.markCompleted
  split
  · rename_i hdone
    exact iff_of_true rfl hdone
  · rename_i hok
    refine iff_of_false ?_ hok
    show ¬ s.bug = some .markCompleted
    rw [hs]
    exact nofun

theorem recvReply_bug (s : State) (r : Reply) (dma : Bool) (allocs : ℕ) :
    (s.recvReply c r dma allocs).bug = s.bug := by
  unfold State.recvReply
  split
  · rfl
  · split
    · rfl
    · split
      · rfl
      · split <;> rfl

theorem hostCopy_bug (regionLength : ℕ) (s : State) (r : Reply) :
    (s.hostCopy regionLength r).bug = s.bug := by
  unfold State.hostCopy
  dsimp only
  split <;> rfl

/-- Only a failed copy runs into the `BUG_ON` of `omx_pull_handle_mark_completed`: every
other agent looks at the status first. -/
theorem failedCopyInTime_iff {s : State} (hs : s.bug = none) (a : Action) :
    FailedCopyInTime s a ↔ ¬ (s.next c e a).bug = some .markCompleted := by
  have hsame : ∀ s' : State, s'.bug = s.bug → (True ↔ ¬ s'.bug = some .markCompleted) := by
    intro s' hbug
    rw [hbug, hs]
    exact iff_of_true trivial nofun
  have hok : ∀ (s' : State) (t : PullDone), s'.bug = none → s'.handle.status = .ok →
      (True ↔ ¬ (s'.markCompleted t).bug = some .markCompleted) := by
    intro s' t hbug hstatus
    rw [markCompleted_bug t hbug]
    exact iff_of_true trivial (not_not.2 hstatus)
  cases a with
  | recvReply r dma allocs => exact hsame _ (recvReply_bug ..)
  | hostCopy r => exact hsame _ (hostCopy_bug ..)
  | finishCopy =>
      show True ↔ ¬ s.finishCopy.bug = _
      unfold State.finishCopy
      split
      · exact hsame _ rfl
      · rename_i hstatus
        split
        · exact hok _ _ hs (not_not.1 hstatus)
        · exact hsame _ rfl
  | finishFailed r =>
      have hback := markCompleted_bug (s := { s with copyFailed := s.copyFailed.erase r })
        .aborted hs
      exact (not_iff_not.2 hback |>.trans not_not).symm
  | dmaDone r => exact hsame _ rfl
  | nack t =>
      show True ↔ ¬ (s.nack t).bug = _
      unfold State.nack
      split
      · exact hsame _ rfl
      · rename_i hstatus
        exact hok _ _ hs (not_not.1 hstatus)
  | timer expired allocs =>
      show True ↔ ¬ (s.timer c expired allocs).bug = _
      unfold State.timer
      split
      · split
        · exact iff_of_true trivial nofun
        · exact hsame _ rfl
      · rename_i hstatus
        split
        · exact hok _ _ hs (not_not.1 hstatus)
        · split
          · exact iff_of_true trivial nofun
          · exact hsame _ rfl
  | endpointClose =>
      show True ↔ ¬ s.endpointClose.bug = _
      unfold State.endpointClose
      split
      · exact hsame _ rfl
      · exact hsame _ rfl
  | delTimer =>
      show True ↔ ¬ s.delTimer.bug = _
      unfold State.delTimer
      split
      · split
        · exact iff_of_true trivial nofun
        · exact hsame _ rfl
      · split
        · exact iff_of_true trivial nofun
        · exact hsame _ rfl
  | notify => exact hsame _ rfl

/-- A copy that ends after the handle is done gives back its count; nothing else of a
reply changes the handle then. -/
theorem copyInTime_iff {s : State} (hs : Accounted s) (a : Action) :
    CopyInTime s a ↔ FailedCopyInTime s a ∧ LeavesDone c e s a := by
  have hcopy := hs.hostCopy
  cases a with
  | recvReply r dma allocs =>
      refine iff_of_true trivial ⟨trivial, fun _ hdone => ?_⟩
      show (s.recvReply c r dma allocs).handle = s.handle
      rw [State.recvReply, if_pos hdone]
  | hostCopy r =>
      refine iff_of_true trivial ⟨trivial, fun _ _ => ?_⟩
      show (s.hostCopy e.regionLength r).handle = s.handle
      unfold State.hostCopy
      dsimp only
      split <;> rfl
  | finishCopy =>
      refine ⟨fun hok => ⟨trivial, fun _ hdone => absurd hok hdone⟩, fun ⟨_, hleaves⟩ => ?_⟩
      by_contra hlate
      have hdone : s.handle.status ≠ .ok := hlate
      have hhandle : s.finishCopy.handle = s.handle := hleaves rfl hdone
      have hcount : s.finishCopy.handle.hostCopyNrFrames = sub 32 s.handle.hostCopyNrFrames 1 := by
        rw [State.finishCopy, if_pos hdone]
        rfl
      rw [hhandle, sub] at hcount
      omega
  | finishFailed r =>
      exact ⟨fun hok => ⟨hok, fun _ hdone => absurd hok hdone⟩, fun h => h.1⟩
  | dmaDone r => exact iff_of_true trivial ⟨trivial, fun _ _ => rfl⟩
  | nack _ => exact iff_of_true trivial ⟨trivial, by rintro ⟨⟩⟩
  | timer _ _ => exact iff_of_true trivial ⟨trivial, by rintro ⟨⟩⟩
  | endpointClose => exact iff_of_true trivial ⟨trivial, by rintro ⟨⟩⟩
  | delTimer => exact iff_of_true trivial ⟨trivial, by rintro ⟨⟩⟩
  | notify => exact iff_of_true trivial ⟨trivial, by rintro ⟨⟩⟩

/-! ## The result -/

variable {start s : State} {as : List Action}

theorem reaches_bug_iff (hbug : start.bug = none)
    (h : (pullMachine c e start).exec start as = some s) :
    (pullMachine c e start).Meets FailedCopyInTime start as ↔ s.bug ≠ some .markCompleted := by
  refine Machine.meets_iff_not (I := fun _ => True) (B := fun s => s.bug = some .markCompleted)
    (fun _ _ _ _ _ => trivial) ?_ trivial (by rw [hbug]; exact nofun) h
  intro t a t' _ hstep
  obtain ⟨⟨hnone, -⟩, rfl⟩ := (pullMachine_step c e).1 hstep
  refine ⟨?_, failedCopyInTime_iff hnone a⟩
  rw [hnone]
  exact nofun

/-- For every pull and every interleaving of its replies, nacks, timer and close: the
`BUG_ON` is not reached, the slot is freed exactly once and no reply changes a handle
that is done, exactly when every copy takes the lock back while the status is OK. -/
theorem markCompleted_once_iff (c : Config) (e : Env) (mem : ℕ → BlockDesc)
    (length off allocs : ℕ) (as : List Action) {s : State}
    (h : (pullMachine c e (ioctlPull c mem length off allocs)).exec
      (ioctlPull c mem length off allocs) as = some s) :
    ((s.bug ≠ some .markCompleted ∧
        s.slotFrees = (if s.handle.status = .ok then 0 else 1) ∧
        (pullMachine c e (ioctlPull c mem length off allocs)).Meets (LeavesDone c e)
          (ioctlPull c mem length off allocs) as) ↔
      (pullMachine c e (ioctlPull c mem length off allocs)).Meets CopyInTime
        (ioctlPull c mem length off allocs) as) ∧
    -- For the `BUG_ON` alone it is enough to look at the copies that failed.
    (s.bug ≠ some .markCompleted ↔
      (pullMachine c e (ioctlPull c mem length off allocs)).Meets FailedCopyInTime
        (ioctlPull c mem length off allocs) as) := by
  have hstart := Accounted.start (c := c) mem length off allocs
  have hfrees := (hstart.invariant h).slotFrees
  have hbug := reaches_bug_iff rfl h
  refine ⟨?_, hbug.symm⟩
  rw [Machine.meets_congr (I := Accounted) (fun _ _ _ => Accounted.step)
    (fun t a ht => copyInTime_iff (c := c) (e := e) ht a) hstart, Machine.meets_and, hbug]
  exact ⟨fun ⟨hno, _, hleaves⟩ => ⟨hno, hleaves⟩, fun ⟨hno, hleaves⟩ => ⟨hno, hfrees, hleaves⟩⟩

/-- A pull of 100 bytes, answered and reported. -/
theorem markCompleted_once_hundred :
    ∃ s, (pullMachine defaultConfig ⟨fun _ _ => true, 100⟩
        (ioctlPull defaultConfig (fun _ => ⟨0, 0, 0, 0⟩) 100 0 1)).exec
        (ioctlPull defaultConfig (fun _ => ⟨0, 0, 0, 0⟩) 100 0 1)
        [.recvReply ⟨0, 100, 0, 100, 0⟩ false 1, .hostCopy ⟨0, 100, 0, 100, 0⟩, .finishCopy,
          .timer false 1, .notify] = some s ∧
      s.events = [.success] ∧ s.bug ≠ some .markCompleted ∧ s.slotFrees = 1 := by
  refine ⟨_, rfl, by decide, ?_⟩
  obtain ⟨hbug, hfrees, -⟩ := (markCompleted_once_iff defaultConfig ⟨fun _ _ => true, 100⟩
    (fun _ => ⟨0, 0, 0, 0⟩) 100 0 1 [.recvReply ⟨0, 100, 0, 100, 0⟩ false 1,
      .hostCopy ⟨0, 100, 0, 100, 0⟩, .finishCopy, .timer false 1, .notify] rfl).1.2 (by decide)
  exact ⟨hbug, hfrees⟩

/-- The second of two frames is longer than the rest of the local region.  While its copy
fails the endpoint is closed; the copy then marks completed a handle that is done. -/
theorem markCompleted_not_once :
    ((pullMachine defaultConfig ⟨fun _ _ => true, 10000⟩
        (ioctlPull defaultConfig (fun _ => ⟨0, 0, 0, 0⟩) 10000 0 1)).exec
        (ioctlPull defaultConfig (fun _ => ⟨0, 0, 0, 0⟩) 10000 0 1)
        [.recvReply ⟨1, 8968, 8968, 8968, 0⟩ false 1, .hostCopy ⟨1, 8968, 8968, 8968, 0⟩,
          .endpointClose, .finishFailed ⟨1, 8968, 8968, 8968, 0⟩]).map State.bug =
      some (some .markCompleted) := by
  decide

end Xen2mx.Pull
