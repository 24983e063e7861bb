/-
# `Xen2mx.Request.Machine` — what happens to the requests of an endpoint

The calls of the application, and the events that `omx__progress` finds for it.  A call of the
application uses a pointer that it may use (`Req.handle`); an event finds its request in the
list where the code looks for it.

`omx_irecv` and `omx_iconnect` post their request, run `omx__progress`, and only then return the
request or give it up; anything may happen in between, since a handler may run there.  Where
somebody reports the request to the application before, it is gone when its call returns, and what
the call does to it is not modelled.

    calls     isend, issend, irecv, connect, iconnect; test, wait, test_any, wait_any, forget,
              cancel, cancel_notest; disconnect is a cleanup
    events    messages and fragments, acks and nacks, notifies, connect replies, what the driver
              is done with, timeouts, delayed and throttled requests that are retried
-/
import Xen2mx.Request.Endpoint

namespace Xen2mx.Request

namespace Endpoint

variable {ι : Type*} [DecidableEq ι] (ep : Endpoint ι)

/-! ## Calls -/

/-- `omx_isend` and `omx_issend`, to a partner. -/
def isend (i : ι) (type : ReqType) (posting : Posting) (handle : Bool) : Endpoint ι :=
  let req : Req ι := { type, partner := some i }
  ((ep.alloc req).submit ep.next req posting).giveOrForget ep.next handle

/-- What `omx__process_self_send` comes to. -/
inductive SelfSend where
  /-- The unexpected handler took the message. -/
  | finished
  /-- A receive was posted for it. -/
  | matched (id : ℕ)
  | unexpected (buffer : Bool)
  /-- No memory. -/
  | failed

/-- A send of the endpoint to itself. -/
def isendSelf (how : SelfSend) (handle : Bool) : Option (Endpoint ι) :=
  let sreq : Req ι := { type := .sendSelf, partner := some ep.myself }
  let ep' := ep.alloc sreq
  match how with
  | .finished => some ((ep'.sendComplete ep.next sreq false).giveOrForget ep.next handle)
  | .failed => some ((ep'.sendComplete ep.next sreq true).giveOrForget ep.next handle)
  | .matched id =>
      (ep.req id).bind fun rreq =>
        if rreq.queueElt = some .recv then
          let rreq' : Req ι :=
            { rreq with
              queueElt := none
              partner := some ep.myself
              state := { rreq.state with recvNeedMatching := false } }
          some (((ep'.sendComplete ep.next sreq false).recvComplete id rreq' false).giveOrForget
            ep.next handle)
        else none
  | .unexpected buffer =>
      let rreq : Req ι :=
        { type := .recvSelfUnexpected
          partner := some ep.myself
          state := { unexpectedRecv := true }
          unexpBuffer := buffer
          sreq := ep.next }
      let ep'' := ep'.alloc (rreq.enqueueUnexp ep.hasCtxids)
      let sreq' : Req ι :=
        { sreq with state := { unexpectedSelfSend := true }, queueElt := some .unexpSelfSend }
      some ((ep''.set ep.next sreq').giveOrForget ep.next handle)

/-- `omx_irecv` that finds no message. -/
def irecv : Endpoint ι :=
  (ep.alloc
    { type := .recv
      partner := none
      state := { recvNeedMatching := true }
      queueElt := some .recv }).run ep.next

/-- `omx_irecv` that finds the unexpected message `id`.  When that came from the endpoint itself,
the send is read too, and must still be there. -/
def irecvUnexp (id : ℕ) (pulling : Pulling) (handle : Bool) : Option (Endpoint ι) :=
  (ep.req id).bind fun req =>
    if req.queueElt = some .unexp then
      if req.type = .recvSelfUnexpected then
        (ep.req req.sreq).map fun sreq =>
          (ep.completeSelfUnexpAsIrecv id req sreq).giveOrForget id handle
      else some ((ep.completeUnexpAsIrecv id req pulling).giveOrForget id handle)
    else none

/-- `omx__connect_common`, when it finds the partner, up to its `omx__progress`. -/
def connectCommon (i : ι) (internal : Bool) : Endpoint ι :=
  let req : Req ι :=
    { type := .connect
      partner := some i
      state := { needReply := true, internal }
      queueElt := some .connect
      partnerElt := some .connect }
  let ep' := ep.alloc req
  if i = ep.myself then ep'.connectComplete ep.next req false else ep'

/-- `omx_iconnect`. -/
def iconnect (i : ι) : Endpoint ι := (ep.connectCommon i false).run ep.next

/-- The end of `omx_connect`. -/
def connectReturns (id : ℕ) (req : Req ι) : Endpoint ι :=
  if req.state.done then ep.free id req
  else ep.free id { req with queueElt := none, partnerElt := none }

/-! ## Events -/

/-- `omx__try_match_next_recv` that matched the posted receive `id`. -/
def recvPosted (i : ι) (msg : Msg) (id : ℕ) (req : Req ι) : Endpoint ι :=
  ep.processRecv id
    { req with
      queueElt := none
      partner := some i
      state := { req.state with recvNeedMatching := false } } msg

/-- `omx__try_match_next_recv` that matched nothing. -/
def recvUnexp (i : ι) (msg : Msg) (buffer : Bool) : Endpoint ι :=
  let req : Req ι :=
    { type := .recv
      partner := some i
      state := { unexpectedRecv := true }
      unexpBuffer := match msg with | .rndv _ => false | _ => buffer }
  (ep.alloc req).processRecv ep.next req msg

/-- `omx__submit_discarded_notify`. -/
def submitDiscardedNotify (i : ι) : Endpoint ι :=
  let fakereq : Req ι := { type := .recvLarge, partner := some i, state := { zombie := true } }
  { (ep.alloc fakereq).submit ep.next fakereq .delayed with zombies := ep.zombies + 1 }

/-- `omx__process_recv_notify`, for the request that reserved the region. -/
def processRecvNotify (id : ℕ) (req : Req ι) : Endpoint ι :=
  let req' := { req with state := { req.state with needReply := false } }
  if req.state.needAck then ep.set id req' -- "keep the request in the non_acked_req_q"
  else ep.sendComplete id { req' with queueElt := none } false

/-- The last `OMX_EVT_SEND_MEDIUMSQ_FRAG_DONE` of what was posted. -/
def mediumsqDone (id : ℕ) (req : Req ι) : Endpoint ι :=
  let req' := { req with state := { req.state with driverMediumsqSending := false } }
  if req.state.needAck then ep.set id { req' with queueElt := some .nonAcked }
  else ep.sendComplete id { req' with queueElt := none } false

/-- `omx__process_pull_done`. -/
def processPullDone (id : ℕ) (req : Req ι) (error : Bool) (posting : Posting) : Endpoint ι :=
  ep.submit id
    { req with
      failed := req.failed || error
      queueElt := none
      state := { req.state with driverPulling := false, recvPartial := false } } posting

/-- A round of `omx__process_delayed_requests`. -/
def processDelayed (id : ℕ) (req : Req ι) (posting : Posting) : Endpoint ι :=
  let req' := { req with queueElt := none, state := { req.state with needResources := false } }
  if req.type = .recvLarge ∧ req.state.recvPartial then
    ep.submitPull id req' (if posting = .delayed then .delayed else .posted)
  else ep.submit id req' posting

/-- A round of `omx__process_throttling_requests`. -/
def processThrottling (id : ℕ) (req : Req ι) (sending : Bool) : Endpoint ι :=
  ep.setup id { req with partnerElt := none, state := { req.state with needSeqnum := false } } sending

/-- A round of `omx__process_resend_requests` that posts the request again. -/
def resend (id : ℕ) (req : Req ι) (sending : Bool) : Endpoint ι :=
  if req.type = .sendMediumsq ∧ sending then
    ep.set id
      { req with
        state := { req.state with driverMediumsqSending := true }
        queueElt := some .driverMediumsqSending }
  else ep

end Endpoint

/-! ## The machine -/

inductive Action (ι : Type*) where
  | isend (i : ι) (type : ReqType) (posting : Endpoint.Posting) (handle : Bool)
  | isendSelf (how : Endpoint.SelfSend) (handle : Bool)
  | irecv
  | irecvUnexp (id : ℕ) (pulling : Endpoint.Pulling) (handle : Bool)
  | connect (i : ι)
  | iconnect (i : ι)
  /-- `omx_irecv` or `omx_iconnect` returns, with a pointer to its request or without. -/
  | returns (id : ℕ) (handle : Bool)
  /-- A request is allocated and freed at once, because something else fails. -/
  | allocFails
  /-- `omx_connect` returns, also on a timeout. -/
  | connectReturns (id : ℕ)
  /-- `omx_test` and `omx_wait`. -/
  | test (id : ℕ)
  /-- `omx_test_any` and `omx_wait_any`. -/
  | testAny (id : ℕ)
  | forget (id : ℕ)
  | cancel (id : ℕ)
  | cancelNotest (id : ℕ)
  | recvPosted (i : ι) (msg : Endpoint.Msg) (id : ℕ)
  | recvUnexp (i : ι) (msg : Endpoint.Msg) (buffer : Bool)
  /-- The unexpected handler took the message of a rndv. -/
  | recvDiscarded (i : ι)
  | recvMediumFrag (id : ℕ) (last : Bool)
  | recvEarly (i : ι)
  /-- A packet of the early queue is processed. -/
  | popEarly (i : ι)
  /-- An ack, or a nack. -/
  | ack (id : ℕ) (error : Bool)
  | notify (id : ℕ)
  /-- A reply to a connect, or a nack of it. -/
  | connectReply (id : ℕ) (error : Bool)
  | mediumsqDone (id : ℕ)
  | pullDone (id : ℕ) (error : Bool) (posting : Endpoint.Posting)
  | processDelayed (id : ℕ) (posting : Endpoint.Posting)
  | processThrottling (id : ℕ) (sending : Bool)
  | resend (id : ℕ) (sending : Bool)
  /-- `omx_disconnect`, a resend timeout, or a new instance of the partner. -/
  | partnerCleanup (i : ι)

variable {ι : Type*} [DecidableEq ι]

/-- `act` on the request `id`, if it is there and meets the guard. -/
def Endpoint.act (ep : Endpoint ι) (id : ℕ) (guard : Req ι → Prop) [DecidablePred guard]
    (body : Req ι → Endpoint ι) : Option (Endpoint ι) :=
  (ep.req id).bind fun req => if guard req then some (body req) else none

/-- The types of sends to a partner. -/
def ReqType.isSend : ReqType → Bool
  | .sendTiny | .sendSmall | .sendMediumsq | .sendMediumva | .sendLarge => true
  | _ => false

/-- A notify is for a request that waits for it. -/
def step (ep : Endpoint ι) : Action ι → Option (Endpoint ι)
  | .isend i type posting handle =>
      if type.isSend then some (ep.isend i type posting handle) else none
  | .isendSelf how handle => ep.isendSelf how handle
  | .irecv => some ep.irecv
  | .irecvUnexp id pulling handle => ep.irecvUnexp id pulling handle
  | .connect i => some (ep.connectCommon i true)
  | .iconnect i => some (ep.iconnect i)
  | .returns id handle =>
      ep.act id (fun req => req.handle = true ∧ id ∈ ep.running) fun req =>
        ep.returns id req handle
  | .allocFails =>
      let req : Req ι := { type := .recv, partner := none }
      some ((ep.alloc req).free ep.next req)
  | .connectReturns id =>
      ep.act id (fun req => req.state.internal = true) fun req => ep.connectReturns id req
  | .test id =>
      ep.act id (fun req => req.handle = true ∧ id ∉ ep.running) fun req =>
        if req.state.done then ep.testSuccess id req else ep
  | .testAny id => ep.act id (fun req => req.doneElt = true) fun req => ep.testSuccess id req
  | .forget id =>
      ep.act id (fun req => req.handle = true ∧ id ∉ ep.running) fun req =>
        if req.state.zombie then ep else ep.forget id { req with handle := false }
  | .cancel id =>
      ep.act id (fun req => req.handle = true ∧ id ∉ ep.running) fun req =>
        req.cancelCommon.elim ep fun req' => ep.free id req'
  | .cancelNotest id =>
      ep.act id (fun req => req.handle = true ∧ id ∉ ep.running) fun req =>
        req.cancelCommon.elim ep fun req' => ep.notifyRequestDone id { req' with failed := true }
  | .recvPosted i msg id =>
      ep.act id (fun req => req.queueElt = some .recv) fun req => ep.recvPosted i msg id req
  | .recvUnexp i msg buffer => some (ep.recvUnexp i msg buffer)
  | .recvDiscarded i => some (ep.submitDiscardedNotify i)
  | .recvMediumFrag id last =>
      ep.act id (fun req => req.partnerElt = some .partialMediumRecv) fun req =>
        ep.processRecvMediumFrag id req last
  | .recvEarly i => some { ep with early := Function.update ep.early i (ep.early i + 1) }
  | .popEarly i => some { ep with early := Function.update ep.early i (ep.early i - 1) }
  | .ack id error =>
      ep.act id (fun req => req.partnerElt = some .nonAcked) fun req =>
        ep.markRequestAcked id { req with partnerElt := none } error
  | .notify id =>
      ep.act id (fun req => req.type = .sendLarge ∧ req.state.needReply = true) fun req =>
        ep.processRecvNotify id req
  | .connectReply id error =>
      ep.act id (fun req => req.partnerElt = some .connect) fun req =>
        ep.connectComplete id req error
  | .mediumsqDone id =>
      ep.act id (fun req => req.queueElt = some .driverMediumsqSending) fun req =>
        ep.mediumsqDone id req
  | .pullDone id error posting =>
      ep.act id (fun req => req.queueElt = some .driverPulling) fun req =>
        ep.processPullDone id req error posting
  | .processDelayed id posting =>
      ep.act id (fun req => req.queueElt = some .needResources) fun req =>
        ep.processDelayed id req posting
  | .processThrottling id sending =>
      ep.act id (fun req => req.partnerElt = some .needSeqnum) fun req =>
        ep.processThrottling id req sending
  | .resend id sending =>
      ep.act id (fun req => req.queueElt = some .nonAcked) fun req => ep.resend id req sending
  | .partnerCleanup i => some (ep.partnerCleanup i)

def machine (hasCtxids : Bool) (zombieMax : ℕ) (myself : ι) : Machine (Endpoint ι) (Action ι) :=
  { init := .init hasCtxids zombieMax myself, step }

end Xen2mx.Request
