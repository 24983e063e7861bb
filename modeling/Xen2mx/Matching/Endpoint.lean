/-
# `Xen2mx.Matching.Endpoint` — posted receives and unexpected messages of an endpoint

A receive names the bits of the 64-bit match information that it looks at and the
values they must have.  Receives wait in the queue of their context, a range of bits that
every receive must look at; messages that no receive matched wait in the unexpected queue
of the endpoint and, if the endpoint has several contexts, in that of their context.

A message that matches no receive is first shown to the unexpected handler of the
application.  The handler runs with the lock of the endpoint released: other threads post
and cancel receives, and send to themselves, before it returns.  Progression is disabled
meanwhile, so that no message comes from the network; it is enabled again when a handler
returns, whichever it is.  A send to itself under a handler is shown to a handler of its own,
and ends with progression: the events from where the outer progression started are gone
through once more, that of the message under the outer handler among them.

A partner's messages come in the order of their numbers.  `next_match_recv_seq` is increased
when a message was matched or the handler took it, after the handler has returned.

`number` counts the receives in the order they are posted and the messages in the order
they come to be matched.  The code has no such number, and no list of what was handed on.
-/
import Mathlib.Algebra.Group.Nat.Defs
import Xen2mx.Isend.Partner
import Xen2mx.Lib.Runs

namespace Xen2mx.Matching

open Isend (Seqnum)

/-! ## Contexts -/

/-- `ctxid_bits` and `ctxid_shift`, as `omx_open_endpoint` accepts them. -/
structure CtxidConfig where
  ctxidBits : ℕ
  ctxidShift : ℕ
  bits_le : ctxidBits ≤ 16
  add_le : ctxidBits + ctxidShift ≤ 64

namespace CtxidConfig

variable (z : CtxidConfig)

def ctxidMax : BitVec 32 := 1#32 <<< z.ctxidBits

def ctxidMask : BitVec 64 := (z.ctxidMax.setWidth 64 - 1) <<< z.ctxidShift

/-- `HAS_CTXIDS`. -/
def hasCtxids : Bool := 0 < z.ctxidBits

/-- `CTXID_FROM_MATCHING`. -/
def ctxidFromMatching (matching : BitVec 64) : BitVec 32 :=
  ((matching >>> z.ctxidShift) &&& (z.ctxidMax - 1).setWidth 64).setWidth 32

end CtxidConfig

/-! ## The endpoint -/

/-- A receive request that is not matched. -/
structure Recv where
  number : ℕ
  matchInfo : BitVec 64
  matchMask : BitVec 64
  deriving DecidableEq, Repr

/-- The partner a message is from, and its number there. -/
structure Origin where
  partner : ℕ
  seqnum : Seqnum
  deriving DecidableEq, Repr

/-- A message from the network has an origin, one from the endpoint itself has none. -/
structure Msg where
  number : ℕ
  origin : Option Origin
  matchInfo : BitVec 64
  deriving DecidableEq, Repr

/-- The test that every search makes. -/
def Recv.Matches (req : Recv) (msg : Msg) : Prop := msg.matchInfo &&& req.matchMask = req.matchInfo

instance (req : Recv) (msg : Msg) : Decidable (req.Matches msg) := inferInstanceAs (Decidable (_ = _))

/-- The queues of a context. -/
structure Ctxid where
  recvReqQ : List Recv
  unexpReqQ : List Msg
  deriving DecidableEq, Repr

inductive ProgressionDisabled where
  | no
  | byApi
  | inHandler
  deriving DecidableEq, Repr

inductive HandlerAction where
  | recvContinue
  | recvFinished
  deriving DecidableEq, Repr

inductive ReturnCode where
  | success
  | badMatchMask
  | badMatchingForContextIdMask
  | noResources
  deriving DecidableEq, Repr

structure Endpoint where
  ctxid : BitVec 32 → Ctxid
  /-- `anyctxid.unexp_req_q`. -/
  unexpReqQ : List Msg
  unexpHandler : Bool
  progressionDisabled : ProgressionDisabled
  /-- The messages that a handler looks at. -/
  handling : List Msg
  /-- The receives posted and the messages seen so far. -/
  posted : ℕ
  arrived : ℕ
  nextMatchRecvSeq : ℕ → Seqnum
  /-- The messages from the network that were matched or taken, the latest first. -/
  handedOn : List Origin
  /-- Which receive got which message, the latest first. -/
  given : List (Msg × Recv)

namespace Endpoint

/-- From every partner the message `start` is expected. -/
def init (start : ℕ → Seqnum) : Endpoint :=
  { ctxid := fun _ => ⟨[], []⟩
    unexpReqQ := []
    unexpHandler := false
    progressionDisabled := .no
    handling := []
    posted := 0
    arrived := 0
    nextMatchRecvSeq := start
    handedOn := []
    given := [] }

variable (z : CtxidConfig)

def setCtxid (ep : Endpoint) (c : BitVec 32) (queues : Ctxid) : Endpoint :=
  { ep with ctxid := fun c' => if c' = c then queues else ep.ctxid c' }

/-! ## Messages -/

/-- `omx__match_recv`: the first receive of the context that matches, and the endpoint
without it. -/
def matchRecv (ep : Endpoint) (matchInfo : BitVec 64) : Option (Recv × Endpoint) :=
  let c := z.ctxidFromMatching matchInfo
  ((ep.ctxid c).recvReqQ.find? fun req => req.matchInfo = req.matchMask &&& matchInfo).map
    fun req =>
      (req, ep.setCtxid c { ep.ctxid c with recvReqQ := (ep.ctxid c).recvReqQ.erase req })

/-- What the receive functions do with a message that nobody wanted: it goes to the tail
of the unexpected queues. -/
def enqueueUnexp (ep : Endpoint) (msg : Msg) : Endpoint :=
  let c := z.ctxidFromMatching msg.matchInfo
  let ep' := { ep with unexpReqQ := ep.unexpReqQ ++ [msg] }
  if z.hasCtxids then
    ep'.setCtxid c { ep.ctxid c with unexpReqQ := (ep.ctxid c).unexpReqQ ++ [msg] }
  else ep'

/-- The message goes to a receive, or is unexpected.  Without memory for the request or the
data it is dropped. -/
def matchOrEnqueue (ep : Endpoint) (msg : Msg) (alloc : Bool) : ReturnCode × Endpoint :=
  match ep.matchRecv z msg.matchInfo with
  | some (req, ep') => (.success, { ep' with given := (msg, req) :: ep'.given })
  | none => if alloc then (.success, ep.enqueueUnexp z msg) else (.noResources, ep)

/-- The way of a message up to its handler, if there is one and no receive matches: then there
is no return code yet. -/
def tryMatch (ep : Endpoint) (msg : Msg) (alloc : Bool) : Option ReturnCode × Endpoint :=
  if ep.unexpHandler ∧ ep.matchRecv z msg.matchInfo = none then
    (none,
      { ep with
        progressionDisabled := .inHandler
        handling := msg :: ep.handling })
  else (ep.matchOrEnqueue z msg alloc).map some id

/-- "we matched this seqnum, we now expect the next one". -/
def expectNext (ep : Endpoint) (origin : Origin) : Endpoint :=
  { ep with
    nextMatchRecvSeq := Function.update ep.nextMatchRecvSeq origin.partner
      (ep.nextMatchRecvSeq origin.partner).increase
    handedOn := origin :: ep.handedOn }

/-- `omx__process_partner_ordered_recv` once matching is done; a message of the endpoint itself
has no number. -/
def matched (msg : Msg) : Option ReturnCode × Endpoint → Endpoint
  | (some .success, ep) => msg.origin.elim ep ep.expectNext
  | (_, ep) => ep

/-- The way of a message from its handler: "the unexp has been noticed check if a recv has been
posted". -/
def handlerReturn (ep : Endpoint) (msg : Msg) (ret : HandlerAction) (alloc : Bool) : Endpoint :=
  let ep' :=
    { ep with
      progressionDisabled := .no
      handling := ep.handling.erase msg }
  match ret with
  | .recvFinished => matched msg (some .success, ep')
  | .recvContinue => matched msg ((ep'.matchOrEnqueue z msg alloc).map some id)

/-- The next message comes to be matched. -/
def arrive (ep : Endpoint) (origin : Option Origin) (matchInfo : BitVec 64) (alloc : Bool) :
    Endpoint :=
  matched ⟨ep.arrived, origin, matchInfo⟩
    ({ ep with arrived := ep.arrived + 1 }.tryMatch z ⟨ep.arrived, origin, matchInfo⟩ alloc)

/-- `match_index` is 0. -/
def Expects (ep : Endpoint) (origin : Origin) : Prop :=
  (origin.seqnum - ep.nextMatchRecvSeq origin.partner).num = 0

instance (ep : Endpoint) (origin : Origin) : Decidable (ep.Expects origin) :=
  inferInstanceAs (Decidable (_ = _))

/-- `omx__process_partner_ordered_recv`, with `omx__try_match_next_recv` in it.  What is not
expected is not matched. -/
def processPartnerOrderedRecv (ep : Endpoint) (origin : Origin) (matchInfo : BitVec 64)
    (alloc : Bool) : Endpoint :=
  if ep.Expects origin then ep.arrive z (some origin) matchInfo alloc else ep

/-- The same for a notify: "no matching to do, just a recv+seqnum to handle". -/
def processPartnerOrderedNotify (ep : Endpoint) (origin : Origin) : Endpoint :=
  if ep.Expects origin then ep.expectNext origin else ep

/-- `omx__process_self_send`, which has the steps of a match with another way to fail, and does
not look at `progression_disabled`. -/
def processSelfSend (ep : Endpoint) (matchInfo : BitVec 64) (alloc : Bool) : Endpoint :=
  ep.arrive z none matchInfo alloc

/-! ## Receives -/

/-- `omx__irecv_segs`. -/
def irecvSegs (ep : Endpoint) (matchInfo matchMask : BitVec 64) (alloc : Bool) :
    ReturnCode × Endpoint :=
  let c := z.ctxidFromMatching matchInfo
  let req : Recv := ⟨ep.posted, matchInfo, matchMask⟩
  let queue := if z.hasCtxids then (ep.ctxid c).unexpReqQ else ep.unexpReqQ
  match queue.find? fun msg => req.Matches msg with
  | some msg =>
      let ep' :=
        { ep with
          unexpReqQ := ep.unexpReqQ.erase msg
          posted := ep.posted + 1
          given := (msg, req) :: ep.given }
      (.success,
        if z.hasCtxids then
          ep'.setCtxid c { ep.ctxid c with unexpReqQ := (ep.ctxid c).unexpReqQ.erase msg }
        else ep')
  | none =>
      if alloc then
        (.success,
          { ep with posted := ep.posted + 1 }.setCtxid c
            { ep.ctxid c with recvReqQ := (ep.ctxid c).recvReqQ ++ [req] })
      else (.noResources, ep)

/-- `omx_irecv` and `omx_irecvv`. -/
def irecv (ep : Endpoint) (matchInfo matchMask : BitVec 64) (alloc : Bool) :
    ReturnCode × Endpoint :=
  if matchInfo &&& ~~~matchMask ≠ 0 then (.badMatchMask, ep)
  else if z.ctxidMask &&& ~~~matchMask ≠ 0 then (.badMatchingForContextIdMask, ep)
  else ep.irecvSegs z matchInfo matchMask alloc

/-- `omx__cancel_common` for a receive that is not matched. -/
def cancel (ep : Endpoint) (req : Recv) : Endpoint :=
  let c := z.ctxidFromMatching req.matchInfo
  ep.setCtxid c { ep.ctxid c with recvReqQ := (ep.ctxid c).recvReqQ.erase req }

end Endpoint

/-! ## The machine -/

inductive Action where
  | irecv (matchInfo matchMask : BitVec 64) (alloc : Bool)
  | cancel (req : Recv)
  | recv (origin : Origin) (matchInfo : BitVec 64) (alloc : Bool)
  | notify (origin : Origin)
  | selfSend (matchInfo : BitVec 64) (alloc : Bool)
  | handlerReturn (msg : Msg) (ret : HandlerAction) (alloc : Bool)
  | registerUnexpHandler (handler : Bool)
  | disableProgression
  | reenableProgression
  deriving DecidableEq, Repr

/-- One section under the lock of the endpoint.  A cancel looks at the state of the
request, and is too late if it is matched. -/
def step (z : CtxidConfig) (ep : Endpoint) : Action → Option Endpoint
  | .irecv matchInfo matchMask alloc => some (ep.irecv z matchInfo matchMask alloc).2
  | .cancel req =>
      if req ∈ (ep.ctxid (z.ctxidFromMatching req.matchInfo)).recvReqQ then some (ep.cancel z req)
      else some ep
  | .recv origin matchInfo alloc =>
      if ep.progressionDisabled = .no then
        some (ep.processPartnerOrderedRecv z origin matchInfo alloc)
      else none
  | .notify origin =>
      if ep.progressionDisabled = .no then some (ep.processPartnerOrderedNotify origin) else none
  | .selfSend matchInfo alloc => some (ep.processSelfSend z matchInfo alloc)
  | .handlerReturn msg ret alloc =>
      if msg ∈ ep.handling then some (ep.handlerReturn z msg ret alloc) else none
  | .registerUnexpHandler handler => some { ep with unexpHandler := handler }
  | .disableProgression =>
      if ep.progressionDisabled = .inHandler then none
      else some { ep with progressionDisabled := .byApi }
  | .reenableProgression =>
      if ep.progressionDisabled = .byApi then some { ep with progressionDisabled := .no }
      else some ep

def machine (z : CtxidConfig) (start : ℕ → Seqnum) : Machine Endpoint Action :=
  { init := .init start, step := step z }

end Xen2mx.Matching
