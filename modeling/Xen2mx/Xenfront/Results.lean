/-
# `Xen2mx.Xenfront.Results` — from the result of an operation to the result of an ioctl

The code of an operation that the backend runs for a command crosses three
layers: the dispatch of the backend makes it the `ret` or the `status` of the
response, the response handler of the frontend makes that a status, and the
ioctl makes the status its own return value.

    dropped by      command                what becomes of the code
    the backend     send small             kept in a second `ret` of the inner block
                    endpoint info          not looked at
                    region create          overwritten by the code of the next segment
                    region destroy         overwritten by the code of the destruction
    the frontend    endpoint open          the handler reports DONE whatever it is
                    endpoint close         the ioctl does not look at the status
-/
import Xen2mx.Xenfront.Response

namespace Xen2mx.Xenfront

open Xenback (Func)

/-! ## Operations and their results -/

/-- What an operation returns: 0, or a negated `errno`. -/
structure Outcome where
  ret : ℤ
  le_zero : ret ≤ 0
  ge_errno : -4095 ≤ ret
  deriving DecidableEq

/-- The operation did what it was asked. -/
def Outcome.Ok (o : Outcome) : Prop := o.ret = 0

instance (o : Outcome) : Decidable o.Ok := inferInstanceAs (Decidable (_ = _))

/-- No code is changed by `int16_t ret = resp->ret`. -/
@[simp] theorem Outcome.int16_ret (o : Outcome) : int16 o.ret = o.ret :=
  int16_eq (by have := o.ge_errno; omega) (by have := o.le_zero; omega)

theorem Outcome.not_neg_iff (o : Outcome) : ¬ o.ret < 0 ↔ o.Ok :=
  ⟨fun h => Int.le_antisymm o.le_zero (Int.not_lt.1 h), fun h => Int.not_lt.2 (Int.le_of_eq h.symm)⟩

/-- The commands with one operation on an endpoint: `omx_ioctl_pull` and the
functions that send a packet. -/
inductive Send where
  | pull | rndv | mediumsqFrag | small | tiny | notify | liback | connectRequest | connectReply
  deriving DecidableEq, Repr

def Send.func : Send → Func
  | .pull => .pull
  | .rndv => .sendRndv
  | .mediumsqFrag => .sendMediumsqFrag
  | .small => .sendSmall
  | .tiny => .sendTiny
  | .notify => .sendNotify
  | .liback => .sendLiback
  | .connectRequest => .sendConnectRequest
  | .connectReply => .sendConnectReply

inductive PeerLookup where
  | byIndex | byAddr | byHostname
  deriving DecidableEq, Repr

def PeerLookup.func : PeerLookup → Func
  | .byIndex => .peerFromIndex
  | .byAddr => .peerFromAddr
  | .byHostname => .peerFromHostname

/-- An entry of `segs`, with the code of the operation run for it. -/
structure SegmentRun where
  rid : ℕ
  eid : ℕ
  result : Outcome

/-- A command, with the codes of the operations the backend runs for it.  Counting
the boards and reading the peer table cannot fail, and setting the peer table
is left blank by the backend. -/
inductive Execution where
  | send (cmd : Send) (result : Outcome)
  | peerLookup (cmd : PeerLookup) (result : Outcome)
  | getEndpointInfo (result : Outcome)
  | getBoardCount
  | peerTableGetState
  | peerTableSetState
  | setHostname (result : Outcome)
  | getBoardInfo (result : Outcome)
  | openEndpoint (result : Outcome)
  | closeEndpoint (result : Outcome)
  | createUserRegion (create : Outcome) (segs : List SegmentRun)
  | destroyUserRegion (segs : List SegmentRun) (destroy : Outcome)

namespace Execution

def func : Execution → Func
  | send cmd _ => cmd.func
  | peerLookup cmd _ => cmd.func
  | getEndpointInfo _ => .getEndpointInfo
  | getBoardCount => .xenGetBoardCount
  | peerTableGetState => .xenPeerTableGetState
  | peerTableSetState => .xenPeerTableSetState
  | setHostname _ => .xenSetHostname
  | getBoardInfo _ => .getBoardInfo
  | openEndpoint _ => .xenOpenEndpoint
  | closeEndpoint _ => .xenCloseEndpoint
  | createUserRegion _ _ => .xenCreateUserRegion
  | destroyUserRegion _ _ => .xenDestroyUserRegion

/-- All the operations run for the command. -/
def outcomes : Execution → List Outcome
  | send _ r | peerLookup _ r | getEndpointInfo r | setHostname r | getBoardInfo r
  | openEndpoint r | closeEndpoint r => [r]
  | getBoardCount | peerTableGetState | peerTableSetState => []
  | createUserRegion create segs => create :: segs.map SegmentRun.result
  | destroyUserRegion segs destroy => segs.map SegmentRun.result ++ [destroy]

/-- The command was carried out: every operation it stands for succeeded. -/
def Succeeded (x : Execution) : Prop := ∀ o ∈ x.outcomes, o.Ok

instance (x : Execution) : Decidable x.Succeeded :=
  inferInstanceAs (Decidable (∀ o ∈ x.outcomes, o.Ok))

end Execution

/-! ## The backend -/

variable {D : Type*}

/-- The loop over `segs` of the two region commands: `id`, `eid` and `ret` are
left as the last segment sets them. -/
def segmentLoop (id eid : ℕ) (ret : ℤ) (segs : List SegmentRun) : ℕ × ℕ × ℤ :=
  segs.foldl (fun _ seg => (seg.rid, seg.eid % 2 ^ 8, seg.result.ret)) (id, eid, ret)

/-- What `omx_xenback_process_misc` and `omx_xenback_process_specific` leave in the
slot of a request, where the response takes the place of the request.  `d` is
the data of a query that succeeds. -/
def respond (slot : Response D) (d : D) (x : Execution) : Response D :=
  match x with
  | .send cmd r => { slot with func := cmd.func, ret := if cmd = .small then 0 else r.ret }
  | .peerLookup cmd r =>
      { slot with func := cmd.func, ret := r.ret, data := if r.ret < 0 then slot.data else d }
  | .getEndpointInfo _ => { slot with func := .getEndpointInfo, ret := 0, data := d }
  | .getBoardCount => { slot with func := .xenGetBoardCount, data := d }
  | .peerTableGetState => { slot with func := .xenPeerTableGetState, ret := 0, data := d }
  | .peerTableSetState => { slot with func := .xenPeerTableSetState, ret := 0 }
  | .setHostname r => { slot with func := .xenSetHostname, ret := r.ret }
  | .getBoardInfo r =>
      { slot with func := .getBoardInfo, ret := r.ret, data := if r.ret < 0 then slot.data else d }
  | .openEndpoint r => { slot with func := .xenOpenEndpoint, ret := r.ret }
  | .closeEndpoint r => { slot with func := .xenCloseEndpoint, ret := r.ret }
  | .createUserRegion create segs =>
      let (id, eid, ret) := segmentLoop slot.id (slot.eid % 2 ^ 8) create.ret segs
      { slot with func := .xenCreateUserRegion, id, eid, status := if ret < 0 then 1 else 0 }
  | .destroyUserRegion segs destroy =>
      let (id, eid, _) := segmentLoop slot.id (slot.eid % 2 ^ 8) 0 segs
      { slot with
        func := .xenDestroyUserRegion
        id
        eid
        status := if destroy.ret < 0 then 1 else 0 }

@[simp] theorem respond_requestId (slot : Response D) (d : D) (x : Execution) :
    (respond slot d x).requestId = slot.requestId := by
  cases x <;> rfl

@[simp] theorem respond_func (slot : Response D) (d : D) (x : Execution) :
    (respond slot d x).func = x.func := by
  cases x <;> rfl

/-! ## The ioctl -/

/-- What `omx_miscdev_ioctl` makes of the function that forwards a command, which
returned 0 or more if `forwarded`; the queries then copy their answer to the
user, and two of them do not look at what the function returned. -/
def omxMiscdevIoctl (func : Func) (forwarded copied : Bool) : Bool :=
  match func with
  | .peerFromIndex | .peerFromAddr | .peerFromHostname | .xenPeerTableGetState
  | .getBoardInfo => forwarded && copied
  | .getEndpointInfo | .xenGetBoardCount => copied
  | _ => forwarded

/-- The ioctl of a command whose request is in `slot`: it succeeds.  `inTime` says
that the response is handled before `wait_for_backend_response` gives up,
`copied` that the user's buffer can be written. -/
def ioctl (fe : XenfrontInfo D) (slot : Response D) (d : D) (x : Execution)
    (inTime copied : Bool) : Bool :=
  let fe := omxXenifInterrupt (fe.setRequest slot.requestId (busy x.func)) (respond slot d x)
  let st := fe.requests slot.requestId
  omxMiscdevIoctl x.func (inTime && st ≠ busy x.func && accepts x.func st) copied

/-! ## What becomes of each code -/

namespace Execution

/-- The code that the return value of the ioctl depends on. -/
def reported : Execution → Option Outcome
  | send .small _ | getEndpointInfo _ | openEndpoint _ | closeEndpoint _
  | getBoardCount | peerTableGetState | peerTableSetState => none
  | send _ r | peerLookup _ r | setHostname r | getBoardInfo r => some r
  | createUserRegion create segs => some ((segs.map SegmentRun.result).getLastD create)
  | destroyUserRegion _ destroy => some destroy

/-- The `eid` that the response carries. -/
def answeredEid (slot : Response D) : Execution → ℕ
  | createUserRegion _ segs | destroyUserRegion segs _ =>
      ((segs.map fun seg => seg.eid % 2 ^ 8).getLastD (slot.eid % 2 ^ 8))
  | _ => slot.eid

/-- The `id` that the response of a region command carries. -/
def answeredId (slot : Response D) : Execution → ℕ
  | createUserRegion _ segs => (segs.map SegmentRun.rid).getLastD slot.id
  | _ => slot.id

/-- The answer gets through to the ioctl and to the user: it comes in time, finds
the endpoint and the region it is about, and can be copied out. -/
def Heard (x : Execution) (fe : XenfrontInfo D) (slot : Response D) (inTime copied : Bool) : Prop :=
  match x with
  | send .. | openEndpoint _ | destroyUserRegion .. =>
      inTime = true ∧ (fe.endpoints (x.answeredEid slot)).isSome
  | createUserRegion .. =>
      inTime = true ∧ ∃ endpoint ∈ fe.endpoints (x.answeredEid slot),
        fe.userRegions endpoint (x.answeredId slot) = true
  | peerLookup .. | peerTableGetState | getBoardInfo _ => inTime = true ∧ copied = true
  | getEndpointInfo _ | getBoardCount => copied = true
  | peerTableSetState | setHostname _ | closeEndpoint _ => inTime = true

end Execution

theorem segmentLoop_eq (id eid : ℕ) (ret : Outcome) (segs : List SegmentRun) :
    segmentLoop id eid ret.ret segs =
      ((segs.map SegmentRun.rid).getLastD id,
        (segs.map fun seg => seg.eid % 2 ^ 8).getLastD eid,
        ((segs.map SegmentRun.result).getLastD ret).ret) := by
  induction segs generalizing id eid ret with
  | nil => rfl
  | cons seg segs ih =>
      simp only [List.map_cons, List.getLastD_cons]
      exact ih seg.rid (seg.eid % 2 ^ 8) seg.result

theorem int16_zero : int16 0 = 0 := int16_eq (by decide) (by decide)

/-- What an answer leaves is never the status that the ioctl polls. -/
theorem answer_ne_doing (ret : ℤ) :
    (if int16 ret = 0 then Status.done else Status.failed) ≠ .doing := by
  split <;> decide

attribute [local simp] ioctl respond omxXenifInterrupt omxMiscdevIoctl Execution.func busy accepts
  XenfrontInfo.answer Execution.Heard Execution.reported Execution.answeredEid
  Execution.answeredId Outcome.Ok answer_ne_doing int16_zero

theorem ioctl_send_iff (fe : XenfrontInfo D) (slot : Response D) (d : D) (cmd : Send) (r : Outcome)
    (inTime copied : Bool) :
    ioctl fe slot d (.send cmd r) inTime copied = true ↔
      (inTime = true ∧ (fe.endpoints slot.eid).isSome) ∧ (cmd ≠ .small → r.Ok) := by
  cases hep : fe.endpoints slot.eid with
  | none => cases cmd <;> simp [Send.func, hep]
  | some endpoint =>
      by_cases hr : r.ret = 0 <;> cases cmd <;> simp [Send.func, hep, hr]

/-- The ioctl succeeds exactly when the answer gets through and the code it depends
on is a success. -/
theorem ioctl_iff (fe : XenfrontInfo D) (slot : Response D) (d : D) (x : Execution)
    (inTime copied : Bool) :
    ioctl fe slot d x inTime copied = true ↔
      x.Heard fe slot inTime copied ∧ ∀ o ∈ x.reported, o.Ok := by
  cases x with
  | send cmd r =>
      rw [ioctl_send_iff]
      cases cmd <;> simp
  | peerLookup cmd r =>
      by_cases hr : r.ret = 0 <;> cases cmd <;> simp [PeerLookup.func, hr]
  | getEndpointInfo r | getBoardCount | peerTableGetState | peerTableSetState => simp
  | setHostname r | getBoardInfo r => by_cases hr : r.ret = 0 <;> simp [hr]
  | openEndpoint r =>
      cases hep : fe.endpoints slot.eid <;> simp [hep]
  | closeEndpoint r =>
      by_cases hr : r.ret = 0 <;> cases hep : fe.endpoints slot.eid <;> simp [hr, hep]
  | createUserRegion create segs =>
      simp only [ioctl, respond, segmentLoop_eq, Execution.Heard, Execution.reported,
        Execution.answeredEid, Execution.answeredId]
      generalize (segs.map fun seg => seg.eid % 2 ^ 8).getLastD (slot.eid % 2 ^ 8) = eid
      generalize (segs.map SegmentRun.rid).getLastD slot.id = id
      generalize (segs.map SegmentRun.result).getLastD create = last
      have hneg := last.not_neg_iff
      cases hep : fe.endpoints eid with
      | none => simp [hep]
      | some endpoint =>
          by_cases hok : last.ret = 0 <;> cases hreg : fe.userRegions endpoint id <;>
            simp_all
  | destroyUserRegion segs destroy =>
      have hzero := segmentLoop_eq slot.id (slot.eid % 2 ^ 8) ⟨0, by decide, by decide⟩ segs
      simp only [ioctl, respond, hzero, Execution.Heard, Execution.reported,
        Execution.answeredEid]
      generalize (segs.map fun seg => seg.eid % 2 ^ 8).getLastD (slot.eid % 2 ^ 8) = eid
      have hneg := destroy.not_neg_iff
      cases hep : fe.endpoints eid with
      | none => simp [hep]
      | some endpoint => by_cases hok : destroy.ret = 0 <;> simp_all

/-! ## The statement -/

/-- The condition under which the result of the ioctl is that of the command: what
succeeded is heard of, and what failed is either not heard of or reported. -/
def Conveyed (fe : XenfrontInfo D) (slot : Response D) (x : Execution) (inTime copied : Bool) :
    Prop :=
  if x.Succeeded then x.Heard fe slot inTime copied
  else x.Heard fe slot inTime copied → ∃ o ∈ x.reported, ¬ o.Ok

theorem Execution.reported_mem {x : Execution} {o : Outcome} (h : o ∈ x.reported) :
    o ∈ x.outcomes := by
  cases x with
  | send cmd r => cases cmd <;> simp_all [Execution.outcomes]
  | createUserRegion create segs =>
      simp only [Execution.reported, Option.mem_def, Option.some.injEq] at h
      subst h
      exact List.getLastD_mem_cons
  | _ => simp_all [Execution.outcomes]

/-- For every command, every outcome of its operations and whatever the slot held
before, the ioctl succeeds exactly when the command did, if and only if the
outcome is conveyed. -/
theorem ioctl_succeeds_iff (fe : XenfrontInfo D) (slot : Response D) (d : D) (x : Execution)
    (inTime copied : Bool) :
    (ioctl fe slot d x inTime copied = true ↔ x.Succeeded) ↔
      Conveyed fe slot x inTime copied := by
  rw [ioctl_iff]
  unfold Conveyed
  split
  · rename_i hs
    have hrep : ∀ o ∈ x.reported, o.Ok := fun o ho => hs o (Execution.reported_mem ho)
    exact ⟨fun h => (h.2 hs).1, fun h => iff_of_true ⟨h, hrep⟩ hs⟩
  · rename_i hs
    constructor
    · intro h hheard
      by_contra hall
      push Not at hall
      exact hs (h.1 ⟨hheard, hall⟩)
    · intro h
      refine iff_of_false ?_ hs
      rintro ⟨hheard, hall⟩
      obtain ⟨o, ho, hno⟩ := h hheard
      exact hno (hall o ho)

/-- A frontend with the endpoint 0 open, and nothing else. -/
def oneEndpoint : XenfrontInfo Unit :=
  { requests := fun _ => .done
    endpoints := fun eid => if eid = 0 then some 0 else none
    userRegions := fun _ _ => false
    infoDoing := fun _ => false
    results := fun _ => () }

/-- A small message that the backend refuses with `-EINVAL` is sent with success. -/
theorem ioctl_sendSmall_silent :
    ∃ (x : Execution) (slot : Response Unit), ¬ x.Succeeded ∧
      ioctl oneEndpoint slot () x true true = true :=
  ⟨.send .small ⟨-22, by decide, by decide⟩, ⟨.sendSmall, 0, 0, 0, 0, 0, ()⟩, by decide, by decide⟩

end Xen2mx.Xenfront
