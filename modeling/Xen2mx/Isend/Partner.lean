/-
# `Xen2mx.Isend.Partner` — sends to the partners of an endpoint

A send takes the next sequence number of its partner, unless it has to wait.  It waits in
the queue of the endpoint while it lacks a resource (events, slots of the send queue,
slots for large sends, regions) or another send waits there, and then in the queue of the
partner while too many sends to it are not acknowledged.

    need_resources_send_req_q   of the endpoint   sends, pulls and notifies, tried from the head
    need_seqnum_send_req_q      of a partner      sends and notifies, one for each new ack

Whether a request gets the resources it lacks is part of the action: any pattern of
shortage is a run.  Resending a request changes nothing of this, and neither does a send to
oneself, which has no sequence number.

`number` counts the sends in the order they are called, and `submitted` keeps what got a
sequence number.  The code has neither.
-/
import Mathlib.Data.BitVec
import Mathlib.Logic.Function.Basic
import Xen2mx.Lib.Runs

namespace Xen2mx.Isend

/-! ## Sequence numbers -/

/-- `omx__seqnum_t`: 14 bits of sequence number under 2 bits of session. -/
abbrev Seqnum := BitVec 16

/-- `OMX__SEQNUM`. -/
def Seqnum.num (x : Seqnum) : ℕ := (x &&& 0x3fff#16).toNat

/-- `OMX__SESNUM`. -/
def Seqnum.sesnum (x : Seqnum) : Seqnum := x &&& 0xc000#16

/-- `OMX__SEQNUM_INCREASE`. -/
def Seqnum.increase (x : Seqnum) : Seqnum := x.sesnum ||| ((x + 1) &&& 0x3fff#16)

/-- `OMX__THROTTLING_OFFSET_MAX`. -/
def throttlingOffsetMax : ℕ := (2 ^ 14 - 1) / 2

/-! ## Requests -/

inductive ReqType where
  | sendTiny
  | sendSmall
  | sendMediumsq
  | sendMediumva
  | sendLarge
  | recvLarge
  deriving DecidableEq, Repr

/-- A request.  A large receive that is `recvPartial` has its pull before it, one that is not
only its notify. -/
structure Req (ι : Type*) where
  number : ℕ
  partner : ι
  type : ReqType
  recvPartial : Bool
  sendSeqnum : Seqnum
  deriving DecidableEq

variable {ι : Type*}

/-- `missing_resources` is set: expected events, slots or regions are needed. -/
def Req.needsResources (req : Req ι) : Bool :=
  match req.type with
  | .sendTiny | .sendSmall | .sendMediumva => false
  | .sendMediumsq | .sendLarge => true
  | .recvLarge => req.recvPartial

def Req.isSend (req : Req ι) : Bool := req.type ≠ .recvLarge

/-! ## The partner -/

/-- `struct omx__partner`, as far as sends go. -/
structure Partner (ι : Type*) where
  trueSessionId : BitVec 32
  backSessionId : BitVec 32
  nextSendSeq : Seqnum
  nextAckedSendSeq : Seqnum
  nonAckedReqQ : List (Req ι)
  needSeqnumSendReqQ : List (Req ι)
  throttlingSendsNr : ℕ
  /-- What got a sequence number since the last reset, the latest first. -/
  submitted : List (Req ι)

namespace Partner

/-- `omx__partner_reset`. -/
def reset : Partner ι :=
  { trueSessionId := -1
    backSessionId := -1
    nextSendSeq := -1
    nextAckedSendSeq := -1
    nonAckedReqQ := []
    needSeqnumSendReqQ := []
    throttlingSendsNr := 0
    submitted := [] }

/-- The sequence numbers that are not acknowledged. -/
def missingAcks (partner : Partner ι) : ℕ := (partner.nextSendSeq - partner.nextAckedSendSeq).num

/-- `omx__setup_isend_*` and `omx__setup_notify`, which all take the next sequence number,
post the request and queue it until the ack. -/
def setup (partner : Partner ι) (req : Req ι) : Partner ι :=
  let req := { req with sendSeqnum := partner.nextSendSeq }
  { partner with
    nextSendSeq := partner.nextSendSeq.increase
    nonAckedReqQ := partner.nonAckedReqQ ++ [req]
    submitted := req :: partner.submitted }

/-- The loop of `omx__process_throttling_requests` with `nr` to go, and how many it sent. -/
def processThrottling : (nr : ℕ) → Partner ι → ℕ × Partner ι
  | 0, partner => (0, partner)
  | nr + 1, partner =>
      match partner.needSeqnumSendReqQ with
      | [] => (0, partner)
      | req :: queue =>
          let rest := processThrottling nr ({ partner with needSeqnumSendReqQ := queue }.setup req)
          (rest.1 + 1, rest.2)

/-- Where a request stands among those not acknowledged. -/
def reqIndex (partner : Partner ι) (req : Req ι) : ℕ :=
  (req.sendSeqnum - partner.nextAckedSendSeq).num

/-- The search of `omx__handle_nack`, and the queue without the request it finds. -/
def nackLoop (partner : Partner ι) (nackIndex : ℕ) : List (Req ι) → List (Req ι)
  | [] => []
  | req :: queue =>
      if nackIndex < partner.reqIndex req then req :: queue
      else if nackIndex = partner.reqIndex req then queue
      else req :: nackLoop partner nackIndex queue

/-- `omx__handle_nack`. -/
def handleNack (partner : Partner ι) (seqnum : Seqnum) : Partner ι :=
  if (seqnum ^^^ partner.nextSendSeq).sesnum ≠ 0 then partner
  else
    { partner with
      nonAckedReqQ :=
        partner.nackLoop (seqnum - partner.nextAckedSendSeq).num partner.nonAckedReqQ }

/-- "we were connected to this partner, and it changed, reset our send seqnums". -/
def resetSendSeq (partner : Partner ι) (sessionId : BitVec 32) (start : Seqnum) : Partner ι :=
  if partner.trueSessionId ≠ sessionId then
    { partner with
      nextSendSeq := start
      nextAckedSendSeq := start
      trueSessionId := sessionId }
  else partner

end Partner

/-! ## The endpoint -/

structure Endpoint (ι : Type*) where
  partner : ι → Partner ι
  needResourcesSendReqQ : List (Req ι)
  throttlingPartnersList : List ι
  /-- The sends called so far. -/
  called : ℕ

namespace Endpoint

/-- No partner is connected. -/
def init : Endpoint ι :=
  { partner := fun _ => .reset
    needResourcesSendReqQ := []
    throttlingPartnersList := []
    called := 0 }

/-- The partners are connected, and want these numbers first. -/
def connected (start : ι → Seqnum) : Endpoint ι :=
  { (init : Endpoint ι) with
    partner := fun i =>
      { (.reset : Partner ι) with
        nextSendSeq := start i
        nextAckedSendSeq := start i } }

variable [DecidableEq ι] (ep : Endpoint ι)

def setPartner (i : ι) (partner : Partner ι) : Endpoint ι :=
  { ep with partner := Function.update ep.partner i partner }

/-- `omx__mark_partner_throttling`, after the request is queued. -/
def throttle (req : Req ι) : Endpoint ι :=
  let partner := ep.partner req.partner
  let ep' := ep.setPartner req.partner
    { partner with
      needSeqnumSendReqQ := partner.needSeqnumSendReqQ ++ [req]
      throttlingSendsNr := partner.throttlingSendsNr + 1 }
  if partner.throttlingSendsNr = 0 then
    { ep' with throttlingPartnersList := ep.throttlingPartnersList ++ [req.partner] }
  else ep'

/-- How `omx__alloc_setup_isend_*` and `omx__alloc_setup_notify` end once they have all they
need. -/
def setupOrThrottle (req : Req ι) : Endpoint ι :=
  if throttlingOffsetMax ≤ (ep.partner req.partner).missingAcks then ep.throttle req
  else ep.setPartner req.partner ((ep.partner req.partner).setup req)

/-- `omx__alloc_setup_*`; `none` is `OMX_INTERNAL_MISSING_RESOURCES`.  A pull goes to the
driver. -/
def allocSetup (req : Req ι) (granted : Bool) : Option (Endpoint ι) :=
  if req.needsResources && !granted then none
  else if req.type = .recvLarge ∧ req.recvPartial then some ep
  else some (ep.setupOrThrottle req)

/-- The end of `omx__submit_isend_*` and `omx__submit_pull`: the request is tried, and queued
if it lacks something. -/
def allocSetupOrDelay (req : Req ι) (granted : Bool) : Endpoint ι :=
  (ep.allocSetup req granted).getD
    { ep with needResourcesSendReqQ := ep.needResourcesSendReqQ ++ [req] }

/-- `omx__submit_isend_*`: "some requests are delayed, do not submit, queue as well". -/
def submitIsend (i : ι) (type : ReqType) (granted : Bool) : Endpoint ι :=
  let req : Req ι := ⟨ep.called, i, type, false, 0⟩
  let ep := { ep with called := ep.called + 1 }
  if ep.needResourcesSendReqQ = [] then ep.allocSetupOrDelay req granted
  else { ep with needResourcesSendReqQ := ep.needResourcesSendReqQ ++ [req] }

/-- `omx__submit_pull`, with something to pull: it does not look at who else waits. -/
def submitPull (i : ι) (granted : Bool) : Endpoint ι :=
  ep.allocSetupOrDelay ⟨0, i, .recvLarge, true, 0⟩ granted

/-- `omx__submit_notify`: "queue on top of the delayed queue to avoid being blocked by delayed
requests". -/
def submitNotify (i : ι) (delayed : Bool) : Endpoint ι :=
  let req : Req ι := ⟨0, i, .recvLarge, false, 0⟩
  if ep.needResourcesSendReqQ ≠ [] ∨ delayed then
    { ep with needResourcesSendReqQ := req :: ep.needResourcesSendReqQ }
  else ep.setupOrThrottle req

/-- The loop of `omx__process_delayed_requests` over the queue; `granted` tells for each
request whether it gets what it lacks. -/
def delayedLoop : (queue : List (Req ι)) → (granted : List Bool) → Endpoint ι → Endpoint ι
  | [], _, ep => { ep with needResourcesSendReqQ := [] }
  | req :: queue, granted, ep =>
      match ep.allocSetup req (granted.headD false) with
      | some ep' => delayedLoop queue granted.tail ep'
      | none => { ep with needResourcesSendReqQ := req :: queue }

/-- `omx__process_delayed_requests`. -/
def processDelayedRequests (granted : List Bool) : Endpoint ι :=
  delayedLoop ep.needResourcesSendReqQ granted ep

/-- `omx__process_throttling_requests`, with `omx__update_partner_throttling` at its end. -/
def processThrottlingRequests (i : ι) (nr : ℕ) : Endpoint ι :=
  let loop := (ep.partner i).processThrottling nr
  let throttlingSendsNr := loop.2.throttlingSendsNr - loop.1
  let ep' := ep.setPartner i { loop.2 with throttlingSendsNr }
  if loop.1 ≠ 0 ∧ throttlingSendsNr = 0 then
    { ep' with throttlingPartnersList := ep.throttlingPartnersList.erase i }
  else ep'

/-- `omx__handle_ack`. -/
def handleAck (i : ι) (ackBefore : Seqnum) : Endpoint ι :=
  let partner := ep.partner i
  let newAcks := (ackBefore - partner.nextAckedSendSeq).num
  if newAcks = 0 ∨ partner.missingAcks < newAcks then ep
  else
    (ep.setPartner i
      { partner with
        nonAckedReqQ := partner.nonAckedReqQ.dropWhile fun req => partner.reqIndex req < newAcks
        nextAckedSendSeq := ackBefore }).processThrottlingRequests i newAcks

/-- `omx__partner_cleanup`: all queues lose the requests of the partner. -/
def partnerCleanup (i : ι) : Endpoint ι :=
  { ep.setPartner i .reset with
    needResourcesSendReqQ := ep.needResourcesSendReqQ.filter fun req => req.partner ≠ i }

/-- "this partner changed since last time it talked to us, cleanup the stuff". -/
def cleanupOld (i : ι) (sessionId : BitVec 32) : Endpoint ι :=
  if (ep.partner i).backSessionId ≠ sessionId ∧ (ep.partner i).backSessionId ≠ -1 then
    ep.partnerCleanup i
  else ep

/-- `omx__handle_connect_reply`, of a success. -/
def handleConnectReply (i : ι) (sessionId : BitVec 32) (start : Seqnum) : Endpoint ι :=
  let ep := ep.cleanupOld i sessionId
  ep.setPartner i ((ep.partner i).resetSendSeq sessionId start)

/-- `omx__process_recv_connect_request`. -/
def processRecvConnectRequest (i : ι) (sessionId : BitVec 32) (start : Seqnum) : Endpoint ι :=
  let ep := ep.cleanupOld i sessionId
  ep.setPartner i
    { (ep.partner i).resetSendSeq sessionId start with backSessionId := sessionId }

end Endpoint

/-! ## The machines -/

/-- What happens within the sessions. -/
inductive SendAction (ι : Type*) where
  /-- `omx_isend`, `omx_issend` and their vectorial forms. -/
  | isend (i : ι) (type : ReqType) (granted : Bool)
  | submitPull (i : ι) (granted : Bool)
  | submitNotify (i : ι) (delayed : Bool)
  | processDelayedRequests (granted : List Bool)
  | handleAck (i : ι) (ackBefore : Seqnum)
  | handleNack (i : ι) (seqnum : Seqnum)

/-- And what ends and begins them. -/
inductive Action (ι : Type*) where
  | send (a : SendAction ι)
  | partnerCleanup (i : ι)
  | connectReply (i : ι) (sessionId : BitVec 32) (start : Seqnum)
  | connectRequest (i : ι) (sessionId : BitVec 32) (start : Seqnum)

variable [DecidableEq ι]

def sendStep (ep : Endpoint ι) : SendAction ι → Option (Endpoint ι)
  | .isend i type granted =>
      if type = .recvLarge then none else some (ep.submitIsend i type granted)
  | .submitPull i granted => some (ep.submitPull i granted)
  | .submitNotify i delayed => some (ep.submitNotify i delayed)
  | .processDelayedRequests granted => some (ep.processDelayedRequests granted)
  | .handleAck i ackBefore => some (ep.handleAck i ackBefore)
  | .handleNack i seqnum => some (ep.setPartner i ((ep.partner i).handleNack seqnum))

def step (ep : Endpoint ι) : Action ι → Option (Endpoint ι)
  | .send a => sendStep ep a
  | .partnerCleanup i => some (ep.partnerCleanup i)
  | .connectReply i sessionId start => some (ep.handleConnectReply i sessionId start)
  | .connectRequest i sessionId start => some (ep.processRecvConnectRequest i sessionId start)

variable (ι) in
def machine : Machine (Endpoint ι) (Action ι) := { init := .init, step }

/-- One session with each partner. -/
def sendMachine (start : ι → Seqnum) : Machine (Endpoint ι) (SendAction ι) :=
  { init := .connected start, step := sendStep }

end Xen2mx.Isend
