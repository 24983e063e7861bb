/-
# `Xen2mx.Request.Endpoint` — requests, their state bits and their lists

A request of the library is in several lists at a time, by elements of its own: `queue_elt`,
`partner_elt`, `ctxid_elt` and `done_elt`.  Each element is in one list at most, so what the
lists hold is kept in the requests; the order of a list has no part in this.

    element        lists
    queue_elt      those of the endpoint
    partner_elt    those of the partner
    ctxid_elt      done_req_q and unexp_req_q of a ctxid, when there are ctxids
    done_elt       anyctxid.done_req_q

What decides whether a send is delayed, throttled or posted, which message comes from the
network, and how the driver answers, is part of the action.  The queues that only a library
compiled for debugging has are left out, and so is `OMX_MESSAGE_TRUNCATED`, the error of some
requests that complete without any other.

`frees` and `completions` count what happened to each request.  The code has no such counts.
-/
import Mathlib.Logic.Function.Basic
import Xen2mx.Lib.Runs

namespace Xen2mx.Request

/-! ## Requests -/

/-- `enum omx__request_type`. -/
inductive ReqType where
  | connect
  | sendTiny
  | sendSmall
  | sendMediumsq
  | sendMediumva
  | sendLarge
  | recv
  | recvLarge
  | sendSelf
  | recvSelfUnexpected
  deriving DecidableEq

/-- The bits of `generic.state`, `enum omx__request_state`. -/
structure ReqState where
  needResources : Bool := false
  needSeqnum : Bool := false
  driverMediumsqSending : Bool := false
  needAck : Bool := false
  needReply : Bool := false
  recvNeedMatching : Bool := false
  recvPartial : Bool := false
  driverPulling : Bool := false
  unexpectedRecv : Bool := false
  unexpectedSelfSend : Bool := false
  done : Bool := false
  zombie : Bool := false
  internal : Bool := false
  deriving DecidableEq

/-- The lists of the endpoint that a `queue_elt` may be in. -/
inductive Queue where
  | needResources
  | nonAcked
  | driverMediumsqSending
  | largeSendNeedReply
  | driverPulling
  | connect
  /-- `recv_req_q` of some ctxid. -/
  | recv
  | unexp
  | unexpSelfSend
  deriving DecidableEq

/-- The lists of a partner. -/
inductive PartnerQueue where
  | nonAcked
  | needSeqnum
  | connect
  | partialMediumRecv
  deriving DecidableEq

/-- The lists of a ctxid. -/
inductive CtxidQueue where
  | done
  | unexp
  deriving DecidableEq

/-- `union omx_request`, with partners `ι`. -/
structure Req (ι : Type*) where
  type : ReqType
  /-- Not set until a posted receive is matched. -/
  partner : Option ι
  state : ReqState := {}
  queueElt : Option Queue := none
  partnerElt : Option PartnerQueue := none
  ctxidElt : Option CtxidQueue := none
  doneElt : Bool := false
  /-- `status.code` is an error. -/
  failed : Bool := false
  /-- There is a buffer for an unexpected message. -/
  unexpBuffer : Bool := false
  /-- `specific.self_unexp.sreq`. -/
  sreq : ℕ := 0
  /-- The application may use its pointer to the request, or a call is about to return it. -/
  handle : Bool := false
  deriving DecidableEq

namespace Req

variable {ι : Type*} (req : Req ι)

/-- Some list holds the request, or it has a buffer. -/
def tied : Bool :=
  req.queueElt.isSome || req.partnerElt.isSome || req.ctxidElt.isSome || req.doneElt ||
    req.unexpBuffer

/-- The request goes to the done queues. -/
def enqueueDone (hasCtxids : Bool) : Req ι :=
  { req with
    doneElt := true
    ctxidElt := if hasCtxids then some .done else req.ctxidElt }

/-- `omx__dequeue_done_request`. -/
def dequeueDone (hasCtxids : Bool) : Req ι :=
  { req with
    doneElt := false
    ctxidElt := if hasCtxids then none else req.ctxidElt }

/-- The request goes to the queues of unexpected messages. -/
def enqueueUnexp (hasCtxids : Bool) : Req ι :=
  { req with
    queueElt := some .unexp
    ctxidElt := if hasCtxids then some .unexp else req.ctxidElt }

/-- An unexpected message that a receive took. -/
def dequeueUnexp (hasCtxids : Bool) : Req ι :=
  { req with
    queueElt := none
    ctxidElt := if hasCtxids then none else req.ctxidElt
    unexpBuffer := false
    state := { req.state with unexpectedRecv := false } }

/-- `omx__cancel_common`: the request, when it is not too late. -/
def cancelCommon : Option (Req ι) :=
  match req.type with
  | .recv =>
      if req.state.recvNeedMatching then
        some { req with queueElt := none, state := { req.state with recvNeedMatching := false } }
      else none
  | .connect =>
      if req.state.needReply then
        some { req with
          queueElt := none
          partnerElt := none
          state := { req.state with needReply := false } }
      else none
  | _ => none

end Req

/-! ## The endpoint -/

structure Endpoint (ι : Type*) where
  hasCtxids : Bool
  zombieMax : ℕ
  /-- The partner that is the endpoint itself. -/
  myself : ι
  /-- The requests that are allocated, -/
  req : ℕ → Option (Req ι)
  /-- and those that were freed while some list held them, or before their buffer. -/
  dangling : List (Req ι)
  /-- How many were allocated. -/
  next : ℕ
  zombies : ℕ
  /-- The requests of the calls that run `omx__progress` before they return: `omx_irecv` and
  `omx_iconnect`. -/
  running : List ℕ
  /-- `early_recv_q` of each partner, its length. -/
  early : ι → ℕ
  frees : ℕ → ℕ
  completions : ℕ → ℕ

namespace Endpoint

variable {ι : Type*} (ep : Endpoint ι)

def init (hasCtxids : Bool) (zombieMax : ℕ) (myself : ι) : Endpoint ι :=
  { hasCtxids
    zombieMax
    myself
    req := fun _ => none
    dangling := []
    next := 0
    zombies := 0
    running := []
    early := fun _ => 0
    frees := fun _ => 0
    completions := fun _ => 0 }

/-- What a function did to the request `id`. -/
def set (id : ℕ) (req : Req ι) : Endpoint ι :=
  { ep with req := Function.update ep.req id (some req) }

/-- `omx__request_alloc`, and what the caller makes of the request, which is number `next`. -/
def alloc (req : Req ι) : Endpoint ι :=
  { ep with req := Function.update ep.req ep.next (some req), next := ep.next + 1 }

/-- `omx__request_free`. -/
def free (id : ℕ) (req : Req ι) : Endpoint ι :=
  { ep with
    req := Function.update ep.req id none
    frees := Function.update ep.frees id (ep.frees id + 1)
    dangling := if req.tied then req :: ep.dangling else ep.dangling }

/-! ## Completion -/

/-- `omx__notify_request_done_early`. -/
def notifyRequestDoneEarly (id : ℕ) (req : Req ι) : Endpoint ι :=
  if ep.zombieMax ≤ ep.zombies then ep.set id req
  else
    let req' := { req with state := { req.state with done := true } }
    ep.set id (if req.state.zombie then req' else req'.enqueueDone ep.hasCtxids)

/-- `omx__notify_request_done`. -/
def notifyRequestDone (id : ℕ) (req : Req ι) : Endpoint ι :=
  let ep' := { ep with completions := Function.update ep.completions id (ep.completions id + 1) }
  if req.state.internal then
    -- "no need to queue the request, just set the DONE status"
    ep'.set id { req with state := { req.state with done := true } }
  else if req.state.zombie then
    -- "request already completed by the application, just free it"
    { ep'.free id req with zombies := ep.zombies - 1 }
  else if req.state.done then ep'.set id req
  else
    let req' := { req with state := { req.state with done := true } }
    ep'.set id (req'.enqueueDone ep.hasCtxids)

/-- What `omx__send_complete` and `omx__recv_complete` have in common. -/
def complete (id : ℕ) (req : Req ι) (error : Bool) : Endpoint ι :=
  ep.notifyRequestDone id { req with failed := req.failed || error }

/-- `omx__send_complete`; it also returns what the type of the request has. -/
def sendComplete (id : ℕ) (req : Req ι) (error : Bool) : Endpoint ι := ep.complete id req error

/-- `omx__recv_complete`. -/
def recvComplete (id : ℕ) (req : Req ι) (error : Bool) : Endpoint ι := ep.complete id req error

/-- `omx__connect_complete`. -/
def connectComplete (id : ℕ) (req : Req ι) (error : Bool) : Endpoint ι :=
  ep.complete id
    { req with
      queueElt := none
      partnerElt := none
      state := { req.state with needReply := false } } error

/-! ## The application -/

/-- `omx__forget`. -/
def forget (id : ℕ) (req : Req ι) : Endpoint ι :=
  if req.state = { done := true } then ep.free id (req.dequeueDone ep.hasCtxids)
  else
    let req' :=
      if req.state.done then
        Req.dequeueDone { req with state := { req.state with done := false } } ep.hasCtxids
      else req
    { ep.set id { req' with state := { req'.state with zombie := true } } with
      zombies := ep.zombies + 1 }

/-- What a call does at its end with the request that it is to return: `requestp` may be NULL. -/
def giveOrForget (id : ℕ) (handle : Bool) : Endpoint ι :=
  match ep.req id with
  | some req => if handle then ep.set id { req with handle := true } else ep.forget id req
  | none => ep

/-- The request of a call that goes on with `omx__progress`. -/
def run (id : ℕ) : Endpoint ι := { ep.giveOrForget id true with running := id :: ep.running }

/-- The end of such a call.  `omx_iconnect` does not call `omx__forget`. -/
def returns (id : ℕ) (req : Req ι) (handle : Bool) : Endpoint ι :=
  let ep := { ep with running := ep.running.erase id }
  if handle then ep
  else if req.type = .connect then
    { ep.set id { req with state := { req.state with zombie := true }, handle := false } with
      zombies := ep.zombies + 1 }
  else ep.forget id { req with handle := false }

/-- `omx__test_success`. -/
def testSuccess (id : ℕ) (req : Req ι) : Endpoint ι :=
  let req' := req.dequeueDone ep.hasCtxids
  if req'.state = { done := true } then
    -- "the request is done for real, delete it"
    ep.free id req'
  else
    -- "the request is not actually done, zombify it"
    { ep.set id
        { req' with state := { req'.state with done := false, zombie := true }, handle := false } with
      zombies := ep.zombies + 1 }

/-! ## Sending -/

/-- What comes of a send, or of a notify, when it is submitted. -/
inductive Posting where
  /-- It is delayed, because others are or because it misses a resource. -/
  | delayed
  | throttled
  /-- It is posted, and the driver took some fragments if it is a mediumsq. -/
  | posted (sending : Bool)
  deriving DecidableEq

/-- `omx__setup_isend_tiny`, `_small`, `_mediumva`, `_mediumsq`, `_rndv` and `omx__setup_notify`. -/
def setup (id : ℕ) (req : Req ι) (sending : Bool) : Endpoint ι :=
  let posted : Req ι :=
    { req with
      state := { req.state with needAck := true }
      queueElt := some .nonAcked
      partnerElt := some .nonAcked }
  match req.type with
  | .sendTiny | .sendSmall | .recvLarge => ep.notifyRequestDoneEarly id posted
  | .sendMediumsq =>
      if sending then
        ep.notifyRequestDoneEarly id
          { posted with
            state := { posted.state with driverMediumsqSending := true }
            queueElt := some .driverMediumsqSending }
      else ep.notifyRequestDoneEarly id posted
  -- "do not zombify since we did not buffer data"
  | .sendMediumva => ep.set id posted
  | .sendLarge => ep.set id { posted with state := { posted.state with needReply := true } }
  | _ => ep -- no such request is sent

/-- The end of `omx__submit_isend_*`, `omx__submit_notify` and a round of
`omx__process_delayed_requests`. -/
def submit (id : ℕ) (req : Req ι) : Posting → Endpoint ι
  | .delayed =>
      ep.set id
        { req with
          state := { req.state with needResources := true }
          queueElt := some .needResources }
  | .throttled =>
      ep.set id
        { req with
          state := { req.state with needSeqnum := true }
          partnerElt := some .needSeqnum }
  | .posted sending => ep.setup id req sending

/-! ## Large receives -/

/-- What comes of a pull. -/
inductive Pulling where
  /-- "nothing to transfer, just send the notify" -/
  | nothing
  | delayed
  | posted
  deriving DecidableEq

/-- `omx__submit_pull`; a pull that was delayed is submitted again the same way. -/
def submitPull (id : ℕ) (req : Req ι) : Pulling → Endpoint ι
  | .nothing => ep.submit id { req with state := { req.state with recvPartial := false } } .delayed
  | .delayed => ep.submit id req .delayed
  | .posted =>
      ep.set id
        { req with
          state := { req.state with driverPulling := true }
          queueElt := some .driverPulling }

/-! ## Receiving -/

/-- What a message is to the requests. -/
inductive Msg where
  /-- A tiny or a small. -/
  | whole
  /-- The first fragment of a medium, which may be the last one too. -/
  | mediumFrag (last : Bool)
  | rndv (pulling : Pulling)
  deriving DecidableEq

/-- The end of `omx__process_recv_medium_frag`. -/
def processRecvMediumFrag (id : ℕ) (req : Req ι) (last : Bool) : Endpoint ι :=
  if last then
    let req' := { req with partnerElt := none, state := { req.state with recvPartial := false } }
    if req.state.unexpectedRecv then ep.set id req' else ep.recvComplete id req' false
  else ep.set id req

/-- `omx__process_recv_tiny`, `_small`, `_medium_frag` (for a first fragment) and `_rndv`. -/
def processRecv (id : ℕ) (req : Req ι) : Msg → Endpoint ι
  | .whole =>
      if req.state.unexpectedRecv then ep.set id (req.enqueueUnexp ep.hasCtxids)
      else ep.recvComplete id req false
  | .mediumFrag last =>
      let req' := if req.state.unexpectedRecv then req.enqueueUnexp ep.hasCtxids else req
      ep.processRecvMediumFrag id
        { req' with
          state := { req'.state with recvPartial := true }
          partnerElt := some .partialMediumRecv } last
  | .rndv pulling =>
      let req' := { req with type := .recvLarge, state := { req.state with recvPartial := true } }
      if req.state.unexpectedRecv then ep.set id (req'.enqueueUnexp ep.hasCtxids)
      else ep.submitPull id req' pulling

/-- `omx__complete_unexp_req_as_irecv`, for a message that the network brought, -/
def completeUnexpAsIrecv (id : ℕ) (req : Req ι) (pulling : Pulling) : Endpoint ι :=
  let req' := req.dequeueUnexp ep.hasCtxids
  match req.type with
  | .recvLarge => ep.submitPull id req' pulling
  | _ => if req'.state = {} then ep.recvComplete id req' false else ep.set id req'

/-- and for one that the endpoint sent to itself: `sreq` is the send. -/
def completeSelfUnexpAsIrecv (id : ℕ) (req sreq : Req ι) : Endpoint ι :=
  (ep.recvComplete id (req.dequeueUnexp ep.hasCtxids) false).sendComplete req.sreq
    { sreq with
      queueElt := none
      state := { sreq.state with unexpectedSelfSend := false } } false

/-! ## Acks -/

/-- `omx__mark_request_acked`, of a success or of an error. -/
def markRequestAcked (id : ℕ) (req : Req ι) (error : Bool) : Endpoint ι :=
  let req' := { req with state := { req.state with needAck := false } }
  match req.type with
  | .sendTiny | .sendSmall | .sendMediumva =>
      ep.sendComplete id { req' with queueElt := none } error
  | .sendMediumsq =>
      if req.state.driverMediumsqSending then
        -- "keep the request in the driver_posted_req_q for now until it returns from the driver"
        ep.set id { req' with failed := req.failed || error }
      else ep.sendComplete id { req' with queueElt := none } error
  | .sendLarge =>
      if error then
        -- "the request has been nacked, there won't be any reply"
        ep.sendComplete id
          { req' with queueElt := none, state := { req'.state with needReply := false } } true
      else if req.state.needReply then
        ep.set id { req' with queueElt := some .largeSendNeedReply }
      else ep.sendComplete id { req' with queueElt := none } false
  | .recvLarge => ep.recvComplete id { req' with queueElt := none } error
  | _ => ep -- omx__abort

/-! ## Cleanup -/

/-- `omx__complete_unsent_send_request`. -/
def completeUnsent (id : ℕ) (req : Req ι) : Endpoint ι :=
  match req.type with
  | .sendTiny | .sendSmall | .sendMediumsq | .sendMediumva | .sendLarge =>
      ep.sendComplete id req true
  | .recvLarge =>
      if req.state.recvPartial then
        -- the code has `state &= OMX_REQUEST_STATE_RECV_PARTIAL` here
        ep.recvComplete id { req with state := { recvPartial := req.state.recvPartial } } true
      else ep.recvComplete id req true
  | _ => ep -- omx__abort

/-- A loop over the requests of a list, or over those of the partner in a list. -/
def foreach (sel : Req ι → Bool) (body : Endpoint ι → ℕ → Req ι → Endpoint ι) : Endpoint ι :=
  ((List.range ep.next).filter fun id => (ep.req id).any sel).foldl
    (fun ep' id => (ep'.req id).elim ep' (body ep' id)) ep

section PartnerCleanup

variable [DecidableEq ι] (i : ι)

/-- "Complete pending send/recv with an error status". -/
def dropNonAcked : Endpoint ι :=
  ep.foreach (fun req => req.partner = some i ∧ req.partnerElt = some .nonAcked)
    fun ep id req => ep.markRequestAcked id { req with partnerElt := none } true

/-- "Complete send large that were acked without being notified". -/
def dropNeedReply : Endpoint ι :=
  ep.foreach (fun req => req.partner = some i ∧ req.queueElt = some .largeSendNeedReply)
    fun ep id req =>
      ep.sendComplete id
        { req with queueElt := none, state := { req.state with needReply := false } } true

/-- "Drop delayed need resources send requests". -/
def dropNeedResources : Endpoint ι :=
  ep.foreach (fun req => req.partner = some i ∧ req.queueElt = some .needResources)
    fun ep id req =>
      ep.completeUnsent id
        { req with queueElt := none, state := { req.state with needResources := false } }

/-- "Drop need-seqnum send requests to this partner". -/
def dropNeedSeqnum : Endpoint ι :=
  ep.foreach (fun req => req.partner = some i ∧ req.partnerElt = some .needSeqnum)
    fun ep id req => ep.completeUnsent id { req with partnerElt := none }

/-- "Drop pending connect request to this partner". -/
def dropConnect : Endpoint ι :=
  ep.foreach (fun req => req.partner = some i ∧ req.partnerElt = some .connect)
    fun ep id req => ep.connectComplete id req true

/-- "Complete partially received request with an error status". -/
def dropPartial : Endpoint ι :=
  ep.foreach (fun req => req.partner = some i ∧ req.partnerElt = some .partialMediumRecv)
    fun ep id req =>
      let req' :=
        if req.state.unexpectedRecv then
          { req with
            queueElt := none
            ctxidElt := if ep.hasCtxids then none else req.ctxidElt }
        else req
      ep.recvComplete id
        { req' with partnerElt := none, state := { req'.state with recvPartial := false } } true

/-- "Drop early fragments from the partner early queue". -/
def dropEarly : Endpoint ι := { ep with early := Function.update ep.early i 0 }

/-- "Drop unexpected from this peer". -/
def dropUnexp : Endpoint ι :=
  ep.foreach (fun req => req.partner = some i ∧ req.queueElt = some .unexp)
    fun ep id req =>
      ep.free id
        { req with
          queueElt := none
          unexpBuffer := if req.type = .recvLarge then req.unexpBuffer else false }

/-- `omx__partner_cleanup`, what it does to requests and early packets. -/
def partnerCleanup : Endpoint ι :=
  (((((((ep.dropNonAcked i).dropNeedReply i).dropNeedResources i).dropNeedSeqnum i).dropConnect
    i).dropPartial i).dropEarly i).dropUnexp i

end PartnerCleanup

end Endpoint

end Xen2mx.Request
