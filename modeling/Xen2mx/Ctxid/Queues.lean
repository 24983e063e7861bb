/-
# `Xen2mx.Ctxid.Queues` — unexpected and done queues of an endpoint and of its contexts

An endpoint with several context ids keeps its unexpected messages and its done requests twice:
in the `anyctxid` queues, by `queue_elt` and `done_elt`, and in those of the context that the
match information of the request belongs to, by `ctxid_elt`.

    function                      anyctxid queue           ctxid queue
    receive of an unexpected      unexp, to the tail       unexp, to the tail
    irecv that takes it           unexp, removed           the element is removed
    notify_request_done, early    done, to the tail        done, to the tail
    test, forget                  done, removed            the element is removed
    partner_cleanup               unexp, removed           —

A request is a number, its address.  Which requests wait elsewhere in the library, and what
becomes of them there, is in the bits of their state: a run may change those as it likes, and
complete any request that waits for nothing.  A send to oneself and its receive complete by two
actions.  What comes from the network, which receive it matches and the order in which a cleanup
finds the requests of the other queues is part of the action.
-/
import Xen2mx.Lib.Index
import Xen2mx.Lib.Runs
import Xen2mx.Matching.Endpoint
import Xen2mx.Request.Endpoint

namespace Xen2mx.Ctxid

open Matching (CtxidConfig)
open Request (ReqType ReqState)

/-! ## Requests -/

/-- `union omx_request`; `matchInfo` is `status.match_info`. -/
structure Req (ι : Type*) where
  type : ReqType
  partner : Option ι
  matchInfo : BitVec 64
  state : ReqState := {}
  deriving DecidableEq

namespace Req

variable {ι : Type*} (req : Req ι)

/-- Only the bits that `omx__notify_request_done` looks at are left. -/
def settle : Req ι :=
  { req with
    state :=
      { done := req.state.done, zombie := req.state.zombie, internal := req.state.internal } }

/-- The request waits for nothing. -/
def Settled : Prop := req.settle = req

instance [DecidableEq ι] : Decidable req.Settled := inferInstanceAs (Decidable (_ = _))

/-- `omx__cancel_common` still finds the request in a queue. -/
def Cancellable : Prop :=
  (req.type = .recv ∧ req.state.recvNeedMatching) ∨ (req.type = .connect ∧ req.state.needReply)

instance : Decidable req.Cancellable := inferInstanceAs (Decidable (_ ∨ _))

/-- The request is in a queue that a receive is never in, or in none. -/
def InOtherQ : Prop :=
  req.type ≠ .recv ∧ req.type ≠ .recvSelfUnexpected ∧ !req.state.unexpectedRecv

instance : Decidable req.InOtherQ := inferInstanceAs (Decidable (_ ∧ _))

/-- The state that a send, a connect or a large receive goes on to: it does not complete or come
to wait for the reply to its connect. -/
def GoesOn (state : ReqState) : Prop :=
  req.InOtherQ ∧ state.done = req.state.done ∧ state.zombie = req.state.zombie ∧
    state.internal = req.state.internal ∧ !state.unexpectedRecv ∧
    (req.type = .connect → state.needReply → req.state.needReply)

instance (state : ReqState) : Decidable (req.GoesOn state) := inferInstanceAs (Decidable (_ ∧ _))

/-- The request is in a `recv_req_q`. -/
def InRecvQ : Prop :=
  req.type = .recv ∧ req.state.recvNeedMatching ∧ !req.state.unexpectedRecv

instance : Decidable req.InRecvQ := inferInstanceAs (Decidable (_ ∧ _))

/-- The request is in `partial_medium_recv_req_q` of its partner. -/
def InPartialQ : Prop :=
  req.type = .recv ∧ req.state.recvPartial ∧ !req.state.recvNeedMatching ∧ !req.state.done

instance : Decidable req.InPartialQ := inferInstanceAs (Decidable (_ ∧ _))

end Req

/-- `MATCHING_CROSS_CTXIDS`. -/
def matchingCrossCtxids (z : CtxidConfig) (matching : BitVec 64) : Bool :=
  matching &&& z.ctxidMask ≠ 0

/-! ## The endpoint -/

/-- `ep->anyctxid` and each `ep->ctxid[c]`. -/
structure Queues where
  unexpReqQ : List ℕ
  doneReqQ : List ℕ
  deriving DecidableEq

structure Endpoint (ι : Type*) where
  req : ℕ → Option (Req ι)
  /-- How many requests were allocated. -/
  next : ℕ
  zombies : ℕ
  zombieMax : ℕ
  anyctxid : Queues
  ctxid : BitVec 32 → Queues

namespace Endpoint

variable {ι : Type*} (z : CtxidConfig) (ep : Endpoint ι)

def init (zombieMax : ℕ) : Endpoint ι :=
  { req := fun _ => none
    next := 0
    zombies := 0
    zombieMax
    anyctxid := ⟨[], []⟩
    ctxid := fun _ => ⟨[], []⟩ }

def set (id : ℕ) (req : Req ι) : Endpoint ι :=
  { ep with req := Function.update ep.req id (some req) }

/-- `omx__request_alloc`: the request is number `next`. -/
def alloc (req : Req ι) : Endpoint ι := { ep.set ep.next req with next := ep.next + 1 }

/-- `omx__request_free`. -/
def free (id : ℕ) : Endpoint ι := { ep with req := Function.update ep.req id none }

/-! ## The lists -/

/-- `list_del(&req->generic.ctxid_elt)`, from the list it is in. -/
def delCtxidElt (id : ℕ) : Endpoint ι :=
  { ep with
    ctxid := fun c => ⟨(ep.ctxid c).unexpReqQ.erase id, (ep.ctxid c).doneReqQ.erase id⟩ }

/-- `omx__enqueue_request` and `omx__enqueue_ctxid_request`. -/
def enqueueUnexp (id : ℕ) (matchInfo : BitVec 64) : Endpoint ι :=
  let c := z.ctxidFromMatching matchInfo
  let queues := ep.ctxid c
  { ep with
    anyctxid := { ep.anyctxid with unexpReqQ := ep.anyctxid.unexpReqQ ++ [id] }
    ctxid :=
      if z.hasCtxids then
        Function.update ep.ctxid c { queues with unexpReqQ := queues.unexpReqQ ++ [id] }
      else ep.ctxid }

/-- `omx___dequeue_request` of an unexpected message. -/
def dequeueRequest (id : ℕ) : Endpoint ι :=
  { ep with anyctxid := { ep.anyctxid with unexpReqQ := ep.anyctxid.unexpReqQ.erase id } }

/-- `omx___dequeue_request` and `omx___dequeue_ctxid_request`. -/
def dequeueUnexp (id : ℕ) : Endpoint ι :=
  let ep' := ep.dequeueRequest id
  if z.hasCtxids then ep'.delCtxidElt id else ep'

/-- A request goes to the done queues. -/
def enqueueDone (id : ℕ) (matchInfo : BitVec 64) : Endpoint ι :=
  let c := z.ctxidFromMatching matchInfo
  let queues := ep.ctxid c
  { ep with
    anyctxid := { ep.anyctxid with doneReqQ := ep.anyctxid.doneReqQ ++ [id] }
    ctxid :=
      if z.hasCtxids then
        Function.update ep.ctxid c { queues with doneReqQ := queues.doneReqQ ++ [id] }
      else ep.ctxid }

/-- `omx__dequeue_done_request`. -/
def dequeueDone (id : ℕ) : Endpoint ι :=
  let ep' :=
    { ep with anyctxid := { ep.anyctxid with doneReqQ := ep.anyctxid.doneReqQ.erase id } }
  if z.hasCtxids then ep'.delCtxidElt id else ep'

/-! ## Completion -/

/-- `omx__notify_request_done_early`. -/
def notifyRequestDoneEarly (id : ℕ) (req : Req ι) : Endpoint ι :=
  if ep.zombieMax ≤ ep.zombies then ep.set id req
  else
    let ep' := ep.set id { req with state := { req.state with done := true } }
    if req.state.zombie then ep' else ep'.enqueueDone z id req.matchInfo

/-- `omx__notify_request_done`. -/
def notifyRequestDone (id : ℕ) (req : Req ι) : Endpoint ι :=
  if req.state.internal then ep.set id { req with state := { req.state with done := true } }
  else if req.state.zombie then { ep.free id with zombies := ep.zombies - 1 }
  else if req.state.done then ep.set id req
  else
    (ep.set id { req with state := { req.state with done := true } }).enqueueDone z id req.matchInfo

/-- `omx__forget`. -/
def forget (id : ℕ) (req : Req ι) : Endpoint ι :=
  if req.state = { done := true } then (ep.dequeueDone z id).free id
  else
    let ep' := if req.state.done then ep.dequeueDone z id else ep
    { ep'.set id { req with state := { req.state with done := false, zombie := true } } with
      zombies := ep.zombies + 1 }

/-- `omx__test_success`. -/
def testSuccess (id : ℕ) (req : Req ι) : Endpoint ι :=
  let ep' := ep.dequeueDone z id
  if req.state = { done := true } then ep'.free id
  else
    { ep'.set id { req with state := { req.state with done := false, zombie := true } } with
      zombies := ep.zombies + 1 }

/-- `omx_cancel`. -/
def cancel (id : ℕ) (req : Req ι) : Endpoint ι := if req.Cancellable then ep.free id else ep

/-- `omx_cancel_notest`. -/
def cancelNotest (id : ℕ) (req : Req ι) : Endpoint ι :=
  if req.Cancellable then
    ep.notifyRequestDone z id
      { req with state := { req.state with recvNeedMatching := false, needReply := false } }
  else ep

/-! ## Receiving -/

/-- What a message is to its request. -/
inductive Msg where
  /-- A tiny or a small. -/
  | whole
  /-- The first fragment of a medium, which may be the last one too. -/
  | mediumFrag (last : Bool)
  | rndv
  deriving DecidableEq

/-- The end of `omx__process_recv_medium_frag`. -/
def processRecvMediumFrag (id : ℕ) (req : Req ι) (last : Bool) : Endpoint ι :=
  if last then
    let req' := { req with state := { req.state with recvPartial := false } }
    if req.state.unexpectedRecv then ep.set id req' else ep.notifyRequestDone z id req'
  else ep.set id req

/-- `omx__process_recv_tiny`, `_small`, `_medium_frag` (for a first fragment) and `_rndv`; a large
message that is expected is pulled. -/
def processRecv (id : ℕ) (req : Req ι) (msg : Msg) : Endpoint ι :=
  let ep' := if req.state.unexpectedRecv then ep.enqueueUnexp z id req.matchInfo else ep
  match msg with
  | .whole => if req.state.unexpectedRecv then ep'.set id req else ep'.notifyRequestDone z id req
  | .mediumFrag last =>
      ep'.processRecvMediumFrag z id
        { req with state := { req.state with recvPartial := true } } last
  | .rndv =>
      ep'.set id { req with type := .recvLarge, state := { req.state with recvPartial := true } }

/-- A message that no receive matches, from the network or from the endpoint itself. -/
def recvUnexp (type : ReqType) (partner : ι) (matchInfo : BitVec 64) (msg : Msg) : Endpoint ι :=
  let req : Req ι :=
    { type, partner := some partner, matchInfo, state := { unexpectedRecv := true } }
  (ep.alloc req).processRecv z ep.next req msg

/-- A message for the receive that it matches. -/
def recvMatched (id : ℕ) (req : Req ι) (partner : ι) (matchInfo : BitVec 64) (msg : Msg) :
    Endpoint ι :=
  ep.processRecv z id
    { req with
      partner := some partner
      matchInfo
      state := { req.state with recvNeedMatching := false } } msg

/-- The test that every search makes. -/
def isMatch (matchInfo matchMask : BitVec 64) (id : ℕ) : Bool :=
  (ep.req id).any fun req => req.matchInfo &&& matchMask = matchInfo

/-- `omx__complete_unexp_req_as_irecv`, but the send of a message from oneself. -/
def completeUnexpAsIrecv (id : ℕ) (req : Req ι) : Endpoint ι :=
  let req' := { req with state := { req.state with unexpectedRecv := false } }
  let ep' := ep.dequeueUnexp z id
  if req.type = .recvLarge then ep'.set id req'
  else if req'.state = {} then ep'.notifyRequestDone z id req'
  else ep'.set id req'

/-- `omx__irecv_segs`.  What `status.match_info` is in a new request is left over in its memory. -/
def irecvSegs (matchInfo matchMask leftOver : BitVec 64) : Endpoint ι :=
  let queue :=
    if z.hasCtxids then (ep.ctxid (z.ctxidFromMatching matchInfo)).unexpReqQ
    else ep.anyctxid.unexpReqQ
  match queue.find? (ep.isMatch matchInfo matchMask) with
  | some id =>
      match ep.req id with
      | some req => ep.completeUnexpAsIrecv z id req
      | none => ep
  | none =>
      ep.alloc
        { type := .recv, partner := none, matchInfo := leftOver
          state := { recvNeedMatching := true } }

/-! ## Searches -/

/-- The queue that `omx__test_any_common` searches, of done requests. -/
def testAnyQueue (matchInfo matchMask : BitVec 64) : List ℕ :=
  if !z.hasCtxids || matchingCrossCtxids z matchMask then ep.anyctxid.doneReqQ
  else (ep.ctxid (z.ctxidFromMatching matchInfo)).doneReqQ

/-- The request that `omx__test_any_common` completes. -/
def testAnyCommon (matchInfo matchMask : BitVec 64) : Option ℕ :=
  (ep.testAnyQueue z matchInfo matchMask).find? (ep.isMatch matchInfo matchMask)

/-- The queue that `omx__iprobe_common` searches, of unexpected messages. -/
def iprobeQueue (matchInfo matchMask : BitVec 64) : List ℕ :=
  if !z.hasCtxids || matchingCrossCtxids z matchMask then ep.anyctxid.unexpReqQ
  else (ep.ctxid (z.ctxidFromMatching matchInfo)).unexpReqQ

/-- The message that `omx__iprobe_common` finds. -/
def iprobeCommon (matchInfo matchMask : BitVec 64) : Option ℕ :=
  (ep.iprobeQueue z matchInfo matchMask).find? (ep.isMatch matchInfo matchMask)

/-! ## Cleanup -/

variable [DecidableEq ι]

/-- A round over a queue of the partner with requests that are not received: the request of the
partner completes with an error, or "unsent". -/
def dropPending (i : ι) (ep : Endpoint ι) (id : ℕ) : Endpoint ι :=
  match ep.req id with
  | some req =>
      if req.partner = some i ∧ req.InOtherQ then ep.notifyRequestDone z id req.settle else ep
  | none => ep

/-- A round over `partial_medium_recv_req_q`. -/
def dropPartial (i : ι) (ep : Endpoint ι) (id : ℕ) : Endpoint ι :=
  match ep.req id with
  | some req =>
      if req.partner = some i ∧ req.InPartialQ then
        let ep' := if req.state.unexpectedRecv then ep.dequeueUnexp z id else ep
        ep'.notifyRequestDone z id { req with state := { req.state with recvPartial := false } }
      else ep
  | none => ep

/-- A round over `anyctxid.unexp_req_q`: "drop it and that's it". -/
def dropUnexp (i : ι) (ep : Endpoint ι) (id : ℕ) : Endpoint ι :=
  match ep.req id with
  | some req => if req.partner = some i then (ep.dequeueRequest id).free id else ep
  | none => ep

/-- The partial queue of the partner has no other requests. -/
def Partials (i : ι) (partials : List ℕ) : Prop :=
  ∀ id < ep.next, ∀ req ∈ ep.req id, req.partner = some i → req.InPartialQ → id ∈ partials

instance (i : ι) (partials : List ℕ) : Decidable (ep.Partials i partials) :=
  have : ∀ id, Decidable (∀ req ∈ ep.req id, req.partner = some i → req.InPartialQ →
      id ∈ partials) :=
    fun id => inferInstanceAs (Decidable (∀ req ∈ ep.req id, _))
  inferInstanceAs (Decidable (∀ id < ep.next, _))

/-- `omx__partner_cleanup` up to its last queue. -/
def dropQueues (i : ι) (pending partials : List ℕ) : Endpoint ι :=
  partials.foldl (dropPartial z i) (pending.foldl (dropPending z i) ep)

/-- `omx__partner_cleanup`, which finds the requests of the other queues in the given orders. -/
def partnerCleanup (i : ι) (pending partials : List ℕ) : Endpoint ι :=
  let ep' := ep.dropQueues z i pending partials
  ep'.anyctxid.unexpReqQ.foldl (dropUnexp i) ep'

end Endpoint

/-! ## The machine -/

inductive Action (ι : Type*) where
  /-- a send or a connect is submitted -/
  | submit (req : Req ι)
  | irecv (matchInfo matchMask leftOver : BitVec 64)
  | recvUnexp (partner : ι) (matchInfo : BitVec 64) (msg : Endpoint.Msg)
  /-- a send to oneself that no receive matches -/
  | selfSendUnexp (myself : ι) (matchInfo : BitVec 64)
  | recvMatched (id : ℕ) (partner : ι) (matchInfo : BitVec 64) (msg : Endpoint.Msg)
  /-- the last fragment of a medium that is in the partial queue -/
  | lastFrag (id : ℕ)
  /-- the request goes on to other queues -/
  | goOn (id : ℕ) (state : ReqState)
  | complete (id : ℕ)
  | completeEarly (id : ℕ)
  | test (id : ℕ)
  | testAny (matchInfo matchMask : BitVec 64)
  | forget (id : ℕ)
  | cancel (id : ℕ)
  | cancelNotest (id : ℕ)
  | partnerCleanup (i : ι) (pending partials : List ℕ)

namespace Endpoint

variable {ι : Type*} [DecidableEq ι] (z : CtxidConfig) (ep : Endpoint ι)

/-- What an action does with the request it is about, if that is as it has to be. -/
def withReq (id : ℕ) (guard : Req ι → Bool) (f : Req ι → Endpoint ι) : Option (Endpoint ι) :=
  ((ep.req id).filter guard).map f

def step : Action ι → Option (Endpoint ι)
  | .submit req =>
      if req.InOtherQ ∧ !req.state.done ∧ !req.state.zombie then some (ep.alloc req) else none
  | .irecv matchInfo matchMask leftOver => some (ep.irecvSegs z matchInfo matchMask leftOver)
  | .recvUnexp partner matchInfo msg => some (ep.recvUnexp z .recv partner matchInfo msg)
  | .selfSendUnexp myself matchInfo =>
      some (ep.recvUnexp z .recvSelfUnexpected myself matchInfo .whole)
  | .recvMatched id partner matchInfo msg =>
      ep.withReq id (fun req => req.InRecvQ) fun req =>
        ep.recvMatched z id req partner matchInfo msg
  | .lastFrag id =>
      ep.withReq id (fun req => req.InPartialQ) fun req => ep.processRecvMediumFrag z id req true
  | .goOn id state =>
      ep.withReq id (fun req => req.GoesOn state) fun req => ep.set id { req with state }
  | .complete id =>
      ep.withReq id (fun req => req.Settled) fun req => ep.notifyRequestDone z id req
  | .completeEarly id =>
      ep.withReq id (fun req => req.InOtherQ && !req.Cancellable && !req.state.done) fun req =>
        ep.notifyRequestDoneEarly z id req
  | .test id =>
      ep.withReq id (fun req => req.state.done && !req.state.zombie && !req.state.internal)
        fun req => ep.testSuccess z id req
  | .testAny matchInfo matchMask =>
      match ep.testAnyCommon z matchInfo matchMask with
      | some id => (ep.req id).map (ep.testSuccess z id)
      | none => some ep
  | .forget id =>
      ep.withReq id
        (fun req => !req.state.zombie && (!req.state.unexpectedRecv || req.state.done))
        fun req => ep.forget z id req
  | .cancel id => ep.withReq id (!·.state.zombie) fun req => ep.cancel id req
  | .cancelNotest id => ep.withReq id (!·.state.zombie) fun req => ep.cancelNotest z id req
  | .partnerCleanup i pending partials =>
      if ep.Partials i partials then some (ep.partnerCleanup z i pending partials) else none

end Endpoint

def machine {ι : Type*} [DecidableEq ι] (z : CtxidConfig) (zombieMax : ℕ) :
    Machine (Endpoint ι) (Action ι) :=
  ⟨.init zombieMax, Endpoint.step z⟩

end Xen2mx.Ctxid
