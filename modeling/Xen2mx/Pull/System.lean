/-
# `Xen2mx.Pull.System` — the life of a pull handle, lock section by lock section

A pull handle is touched by the receive path, once for every reply and once more
when the copy of the reply is over, by the retransmission timer, by nacks and by
the close of the endpoint.  Each of them takes the lock of the handle, looks at the
status and lets the lock go; between two such sections anything else may run.
One action of the machine below is one lock section, and what an agent remembers
between two of them (the reply it is copying, the event it is about to report) is
part of the state.

    action          section
    recvReply       `omx_recv_pull_reply` up to the first unlock
    hostCopy        `omx_user_region_fill_pages`, with no lock held
    finishCopy      `omx_recv_pull_reply` after a copy, "take the lock back"
    finishFailed    the same after a copy that failed
    dmaDone         the DMA engine is done with a reply
    nack            `omx_recv_nack_mcp`
    timer           `omx_pull_handle_timeout_handler`
    endpointClose   `omx_endpoint_pull_handles_exit`, up to `del_timer_sync`
    delTimer        `omx_endpoint_pull_handles_exit`, from there on
    notify          `omx_pull_handle_bh_notify`, deferred until the DMA copies are done

Loss, delay and duplication are the scheduler's: a reply may be received any number
of times, in any order, as long as the network may deliver it.
-/
import Xen2mx.Lib.Runs
import Xen2mx.Pull.Packets

namespace Xen2mx.Pull

open Word

/-! ## Events and failures -/

/-- `OMX_EVT_PULL_DONE_*`. -/
inductive PullDone where
  | success
  | badEndpt
  | endptClosed
  | badSession
  | badRdmawin
  | aborted
  | timeout
  deriving DecidableEq, Repr

/-- The types of nack that an honest replier sends.  `omx_recv_nack_mcp` makes a status of any
other byte too, and 0 is success. -/
inductive NackType where
  | badEndpt
  | endptClosed
  | badSession
  | badRdmawin
  deriving DecidableEq, Repr

/-- "enforce that nack type and pull status have same values". -/
def NackType.pullDone : NackType → PullDone
  | .badEndpt => .badEndpt
  | .endptClosed => .endptClosed
  | .badSession => .badSession
  | .badRdmawin => .badRdmawin

/-- The `BUG_ON`s on the status of a handle, and the one on its first block. -/
inductive BugSite where
  | markCompleted
  | timerStatus
  | timerFirstBlock
  | closeStatus
  deriving DecidableEq, Repr

/-! ## The state -/

/-- A handle, its agents and what they did. -/
structure State where
  handle : Handle
  /-- The block requests sent. -/
  requests : List Request
  /-- Replies being copied by the host. -/
  copying : List Reply
  /-- Replies whose copy failed, before the lock is taken back. -/
  copyFailed : List Reply
  /-- The number of replies that are about to take the lock back. -/
  finishing : ℕ
  /-- Replies handed to the DMA engine. -/
  dmaPending : List Reply
  /-- Replies whose bytes are in the local region. -/
  copied : List Reply
  /-- `done_event.status`, for each agent about to report the completion. -/
  notifying : List PullDone
  /-- The `OMX_EVT_PULL_DONE` events reported. -/
  events : List PullDone
  slotFrees : ℕ
  /-- The timer can still fire; the handle is in the list of the endpoint. -/
  timerRunning : Bool
  closing : Bool
  bug : Option BugSite

inductive Action where
  | recvReply (r : Reply) (dma : Bool) (allocs : ℕ)
  | hostCopy (r : Reply)
  | finishCopy
  | finishFailed (r : Reply)
  | dmaDone (r : Reply)
  | nack (t : NackType)
  | timer (expired : Bool) (allocs : ℕ)
  | endpointClose
  | delTimer
  | notify
  deriving DecidableEq, Repr

/-- The sections that a pull reply runs. -/
def Action.ofReply : Action → Bool
  | .recvReply _ _ _ | .hostCopy _ | .finishCopy | .finishFailed _ | .dmaDone _ => true
  | _ => false

variable (c : Config)

/-! ## Requesting blocks

`allocs` is the number of `skb`s that can be allocated: each loop over requests
stops at the first that cannot. -/

/-- The blocks of `is` that miss frames. -/
def missingBlocks (h : Handle) (is : List ℕ) : List ℕ :=
  is.filter fun i => (h.blockDesc i).framesMissingBitmap ≠ 0

def postBlocks (h : Handle) (is : List ℕ) : List Request := is.map (fillPullBlockRequest c h)

/-- `omx_progress_pull_on_handle_timeout_handle_locked`. -/
def progressPullOnTimeout (h : Handle) (allocs : ℕ) : Handle × List Request :=
  let posted := (0 :: missingBlocks h [1, 2, 3]).take allocs
  ({ h with
      alreadyRerequestedBlocks := if allocs = 0 then h.alreadyRerequestedBlocks else 0 },
    postBlocks c h posted)

/-- "drop next blocks if they are done". -/
def dropDoneBlock (h : Handle) : Handle :=
  if h.nrValidBlockDescs = 0 ∨ (h.blockDesc 0).framesMissingBitmap ≠ 0 then h
  else pullHandleFirstBlockDone c h

/-- The first block is done: drop it and the next ones that are, and request new ones. -/
def requestNextBlocks (h : Handle) (allocs : ℕ) : Handle × List Request :=
  let dropped := (dropDoneBlock c)^[blockDescsNr - 1] (pullHandleFirstBlockDone c h)
  let prepared := prepareNextBlocks c dropped
  let fresh := List.range' dropped.nrValidBlockDescs
    (prepared.nrValidBlockDescs - dropped.nrValidBlockDescs)
  (prepared, postBlocks c prepared (fresh.take allocs))

theorem requestNextBlocks_fst (h : Handle) (allocs : ℕ) :
    (requestNextBlocks c h allocs).1 =
      prepareNextBlocks c ((dropDoneBlock c)^[blockDescsNr - 1] (pullHandleFirstBlockDone c h)) := by
  simp only [requestNextBlocks]

/-- "a later block is done without the first ones": request the first ones again. -/
def rerequestFirstBlocks (h : Handle) (idesc allocs : ℕ) : Handle × List Request :=
  let first := List.range' h.alreadyRerequestedBlocks (idesc - h.alreadyRerequestedBlocks)
  let posted := (missingBlocks h first).take allocs
  ({ h with
      alreadyRerequestedBlocks :=
        (posted.getLast?.map (· + 1)).getD h.alreadyRerequestedBlocks },
    postBlocks c h posted)

/-- `omx_progress_pull_on_recv_pull_reply_locked`. -/
def progressPullOnRecvPullReply (h : Handle) (idesc allocs : ℕ) : Handle × List Request :=
  if (h.blockDesc 0).framesMissingBitmap ≠ 0 then
    if (h.blockDesc idesc).framesMissingBitmap = 0 ∧ 0 < idesc ∧
        h.alreadyRerequestedBlocks < idesc then
      rerequestFirstBlocks c h idesc allocs
    else (h, [])
  else requestNextBlocks c h allocs

/-- `omx_recv_pull_reply` on a handle whose status is OK: the handle at the unlock and
the requests sent, unless the reply is dropped. -/
def recvPullReply (h : Handle) (r : Reply) (allocs : ℕ) : Option (Handle × List Request) :=
  (checkPullReply c h r).map fun (idesc, frame) =>
    let h := receiveFrame c h idesc frame
    progressPullOnRecvPullReply c
      { h with hostCopyNrFrames := wrap 32 (h.hostCopyNrFrames + 1) } idesc allocs

/-! ## The sections -/

namespace State

/-- `omx_pull_handle_mark_completed`, by an agent that goes on to report `status`. -/
def markCompleted (s : State) (status : PullDone) : State :=
  if s.handle.status ≠ .ok then { s with bug := some .markCompleted }
  else
    { s with
      handle := { s.handle with status := .timerMustExit }
      slotFrees := s.slotFrees + 1
      notifying := s.notifying ++ [status] }

/-- The first section of `omx_recv_pull_reply`.  `dma` says whether the DMA engine took
the whole frame; if it took less, the host copies all of it. -/
def recvReply (s : State) (r : Reply) (dma : Bool) (allocs : ℕ) : State :=
  if s.handle.status ≠ .ok then s
  else
    match recvPullReply c s.handle r allocs with
    | none => s
    | some (h, requests) =>
        let s := { s with handle := h, requests := s.requests ++ requests }
        if dma then { s with finishing := s.finishing + 1, dmaPending := r :: s.dmaPending }
        else if r.frameLength = 0 then { s with finishing := s.finishing + 1 }
        else { s with copying := r :: s.copying }

/-- `omx_user_region_fill_pages` on a local region of `regionLength` bytes. -/
def hostCopy (regionLength : ℕ) (s : State) (r : Reply) : State :=
  let s := { s with copying := s.copying.erase r }
  if regionLength < r.msgOffset + r.frameLength then
    { s with copyFailed := r :: s.copyFailed }
  else { s with finishing := s.finishing + 1, copied := r :: s.copied }

/-- "our copy is done". -/
def copyDone (s : State) : State :=
  { s with
    finishing := s.finishing - 1
    handle := { s.handle with hostCopyNrFrames := sub 32 s.handle.hostCopyNrFrames 1 } }

/-- The last section of `omx_recv_pull_reply`. -/
def finishCopy (s : State) : State :=
  if s.handle.status ≠ .ok then s.copyDone
  else if s.copyDone.handle.remainingLength = 0 ∧ s.copyDone.handle.nrMissingFrames = 0 ∧
      s.copyDone.handle.hostCopyNrFrames = 0 then
    s.copyDone.markCompleted .success
  else s.copyDone

/-- The section after a copy that failed: the status is not looked at again. -/
def finishFailed (s : State) (r : Reply) : State :=
  { s with copyFailed := s.copyFailed.erase r }.markCompleted .aborted

/-- `omx_recv_nack_mcp`. -/
def nack (s : State) (t : NackType) : State :=
  if s.handle.status ≠ .ok then s else s.markCompleted t.pullDone

/-- The timer handler returns for good, and releases the handle. -/
def timerExit (s : State) : State :=
  { s with handle := { s.handle with status := .timerExited }, timerRunning := false }

/-- `omx_pull_handle_timeout_handler`. -/
def timer (s : State) (expired : Bool) (allocs : ℕ) : State :=
  if s.handle.status ≠ .ok then
    if s.handle.status ≠ .timerMustExit then { s with bug := some .timerStatus }
    else s.timerExit
  else if expired then (s.markCompleted .timeout).timerExit
  else if (s.handle.blockDesc 0).framesMissingBitmap = 0 then
    { s with bug := some .timerFirstBlock }
  else
    let (h, requests) := progressPullOnTimeout c s.handle allocs
    { s with handle := h, requests := s.requests ++ requests }

/-- `omx_endpoint_pull_handles_exit`: if the handle is in use, no packet finds it any
more. -/
def endpointClose (s : State) : State :=
  if s.handle.status = .ok then
    { s with
      handle := { s.handle with status := .timerMustExit }
      slotFrees := s.slotFrees + 1
      closing := true }
  else { s with closing := true }

/-- `omx_endpoint_pull_handles_exit`, after `del_timer_sync`, which stopped the timer or
found that it had exited. -/
def delTimer (s : State) : State :=
  if s.timerRunning then
    if s.handle.status ≠ .timerMustExit then { s with bug := some .closeStatus }
    else { s.timerExit with closing := false }
  else if s.handle.status ≠ .timerExited then { s with bug := some .closeStatus }
  else { s with closing := false }

/-- The first notification is reported. -/
def notify (s : State) : State :=
  { s with notifying := s.notifying.tail, events := s.events ++ s.notifying.take 1 }

end State

/-! ## The machine -/

/-- The parties around a handle: which replies the network may deliver once some blocks
were requested, and the length of the local region. -/
structure Env where
  network : List Request → Reply → Bool
  regionLength : ℕ

variable (e : Env)

/-- When the section of an action can start. -/
def State.Enabled (s : State) : Action → Prop
  | .recvReply r _ _ => e.network s.requests r = true
  | .hostCopy r => r ∈ s.copying
  | .finishCopy => 0 < s.finishing
  | .finishFailed r => r ∈ s.copyFailed
  | .dmaDone r => r ∈ s.dmaPending
  | .nack _ => True
  | .timer _ _ => s.timerRunning = true
  | .endpointClose => s.timerRunning = true ∧ s.closing = false
  | .delTimer => s.closing = true
  | .notify => s.notifying ≠ [] ∧ s.dmaPending = []

instance (s : State) (a : Action) : Decidable (s.Enabled e a) := by
  cases a <;> unfold State.Enabled <;> infer_instance

/-- The state at the end of a section. -/
def State.next (s : State) : Action → State
  | .recvReply r dma allocs => s.recvReply c r dma allocs
  | .hostCopy r => s.hostCopy e.regionLength r
  | .finishCopy => s.finishCopy
  | .finishFailed r => s.finishFailed r
  | .dmaDone r => { s with dmaPending := s.dmaPending.erase r, copied := r :: s.copied }
  | .nack t => s.nack t
  | .timer expired allocs => s.timer c expired allocs
  | .endpointClose => s.endpointClose
  | .delTimer => s.delTimer
  | .notify => s.notify

/-- `omx_ioctl_pull`: the state once the first requests are sent and the lock released. -/
def ioctlPull (mem : ℕ → BlockDesc) (length pulledRdmaOffset allocs : ℕ) : State :=
  let h := ioctlPullBlocks c (pullHandleCreate mem length pulledRdmaOffset)
  { handle := h
    requests := postBlocks c h ((List.range h.nrValidBlockDescs).take allocs)
    copying := []
    copyFailed := []
    finishing := 0
    dmaPending := []
    copied := []
    notifying := []
    events := []
    slotFrees := 0
    timerRunning := true
    closing := false
    bug := none }

/-- A `BUG_ON` stops the machine. -/
def pullMachine (start : State) : Machine State Action where
  init := start
  step s a := if s.bug = none ∧ s.Enabled e a then some (s.next c e a) else none

theorem pullMachine_step {start s s' : State} {a : Action} :
    (pullMachine c e start).step s a = some s' ↔
      (s.bug = none ∧ s.Enabled e a) ∧ s.next c e a = s' := by
  rw [pullMachine, Option.ite_none_right_eq_some, Option.some.injEq]

end Xen2mx.Pull
