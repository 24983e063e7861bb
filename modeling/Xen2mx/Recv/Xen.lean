/-
# `Xen2mx.Recv.Xen` — what reaches an endpoint of a guest

The backend makes the same checks as the native driver.  For an endpoint of a
guest it then fills the event into a response of the receive ring, and the data
into the pages of the guest's receive queue that it has mapped, page by page; the
frontend takes the event out of the response and writes it into the queue that
the library reads.

    omx_recv_connect, _tiny, _rndv, _notify, _truc    event, in a response
    omx_recv_small                                    data in one page, event in a response
    omx_recv_medium_frag                              data page by page, event in a response
    omx_recv_nack_lib                                 event in the backend's own queue
    omx_xenif_interrupt_recv                          event from the response to the queue
-/
import Xen2mx.Recv.Native
import Xen2mx.Recvring.Ring

namespace Xen2mx.Recv.Xen

open Recvring (Func Entry)

/-! ## Responses -/

/-- The `data` of a response, its parts that carry events. -/
inductive RespData where
  | recvConnectRequest (request : EvtConnectRequest)
  | recvConnectReply (reply : EvtConnectReply)
  | recvLiback (liback : EvtLiback)
  | recvMsg (msg : EvtRecvMsg)
  deriving DecidableEq, Repr

abbrev Response := Entry RespData

/-- The event that a case of `omx_xenif_interrupt_recv` passes to the queue: the part of
the response that the function tells it to read. -/
def unexpEvent (resp : Response) : Option Event :=
  match resp.func, resp.data with
  | .recvMediumFrag, .recvMsg msg | .recvSmall, .recvMsg msg | .recvTiny, .recvMsg msg
  | .recvNotify, .recvMsg msg | .recvRndv, .recvMsg msg => some (.recvMsg msg)
  | .recvLiback, .recvLiback liback => some (.recvLiback liback)
  | .recvConnectRequest, .recvConnectRequest request => some (.recvConnectRequest request)
  | .recvConnectReply, .recvConnectReply reply => some (.recvConnectReply reply)
  | _, _ => none

/-! ## The endpoint -/

/-- The backend's endpoint and the frontend's, and what the library has read. -/
structure Endpoint where
  /-- `next_recvq_index`, of the frontend's endpoint -/
  next : ℕ
  /-- `xen_recvq_pages` -/
  recvqPages : ℕ → ℕ → UInt8
  responses : List Response
  /-- the unexpected queue of the frontend's endpoint -/
  queue : List Event
  /-- the unexpected queue of the backend's endpoint, which no library reads -/
  backendQueue : List Event
  log : List (Event × List UInt8)

def init : Endpoint :=
  { next := 0
    recvqPages := fun _ _ => 0
    responses := []
    queue := []
    backendQueue := []
    log := [] }

variable (env : Env) (z : Recvq) (eid : ℕ)

/-- `omx_prepare_notify_unexp_event_with_recvq` of the backend. -/
def prepareNotifyUnexpEventWithRecvq (ep : Endpoint) : ℕ × Endpoint :=
  (ep.next % z.entryNr * z.entrySize, { ep with next := ep.next + 1 })

/-- A response, filled and pushed by `omx_poke_domU`. -/
def pokeDomU (ep : Endpoint) (func : Func) (data : RespData) : Endpoint :=
  { ep with responses := ep.responses ++ [{ func, eid, data }] }

/-- `data` copied to an offset of a page. -/
def copyToPage (pages : ℕ → ℕ → UInt8) (page offset : ℕ) (data : List UInt8) : ℕ → ℕ → UInt8 :=
  Function.update pages page (Mailbox.write (pages page) offset data)

/-- The copy loop of `omx_recv_medium_frag`, from the staging buffer to the pages. -/
def copyLoop (recvqOffset : ℕ) (staging : List UInt8) (pages : ℕ → ℕ → UInt8)
    (pgidx remainingCopy : ℕ) : ℕ → ℕ → UInt8 :=
  if remainingCopy = 0 then pages
  else
    let actualLength := min remainingCopy z.pageSize
    copyLoop recvqOffset staging
      (copyToPage pages (pgidx / z.pageSize) (recvqOffset % z.pageSize)
        ((staging.drop (pgidx - recvqOffset)).take actualLength))
      (pgidx + actualLength) (remainingCopy - actualLength)
termination_by remainingCopy
decreasing_by
  have hpos : 0 < z.pageSize := Nat.two_pow_pos z.pageShift
  omega

/-! ## The backend -/

/-- `omx_recv_connect`. -/
def omxRecvConnect (ep : Endpoint) (peerIndex : UInt16) (head : PktHead) (pkt : PktConnect) :
    Endpoint :=
  match pkt.data with
  | .request srcSessionId appKey targetRecvSeqnumStart connectSeqnum =>
      pokeDomU eid ep .recvConnectRequest <| .recvConnectRequest
        { peerIndex, srcEndpoint := head.srcEndpoint, shared := 0, seqnum := pkt.libSeqnum,
          srcSessionId, appKey, targetRecvSeqnumStart, connectSeqnum }
  | .reply srcSessionId targetSessionId targetRecvSeqnumStart connectSeqnum connectStatusCode =>
      pokeDomU eid ep .recvConnectReply <| .recvConnectReply
        { peerIndex, srcEndpoint := head.srcEndpoint, shared := 0, seqnum := pkt.libSeqnum,
          srcSessionId, targetSessionId, targetRecvSeqnumStart, connectSeqnum, connectStatusCode }

/-- `omx_recv_tiny`. -/
def omxRecvTiny (ep : Endpoint) (peerIndex : UInt16) (head : PktHead) (pkt : PktMsg)
    (data : List UInt8) : Endpoint :=
  pokeDomU eid ep .recvTiny <| .recvMsg
    { peerIndex, srcEndpoint := head.srcEndpoint, seqnum := pkt.libSeqnum,
      piggyack := pkt.libPiggyack, matchInfo := ntohMatchInfo pkt.matchA pkt.matchB,
      specific := .tiny pkt.length.toUInt8 pkt.checksum (data.take pkt.length.toNat) }

/-- `omx_recv_small`: the data goes to one page. -/
def omxRecvSmall (ep : Endpoint) (peerIndex : UInt16) (head : PktHead) (pkt : PktMsg)
    (data : List UInt8) : Endpoint :=
  let (recvqOffset, ep) := prepareNotifyUnexpEventWithRecvq z ep
  let offset := recvqOffset % z.pageSize
  let pages := copyToPage ep.recvqPages (recvqOffset / z.pageSize) offset
    (data.take pkt.length.toNat)
  pokeDomU eid { ep with recvqPages := pages } .recvSmall <| .recvMsg
    { peerIndex, srcEndpoint := head.srcEndpoint, seqnum := pkt.libSeqnum,
      piggyack := pkt.libPiggyack, matchInfo := ntohMatchInfo pkt.matchA pkt.matchB,
      specific := .small (UInt32.ofNat recvqOffset) pkt.length pkt.checksum }

/-- `omx_recv_medium_frag`. -/
def omxRecvMediumFrag (ep : Endpoint) (peerIndex : UInt16) (head : PktHead) (pkt : PktMediumFrag)
    (data : List UInt8) : Endpoint :=
  let (recvqOffset, ep) := prepareNotifyUnexpEventWithRecvq z ep
  let staging := data.take pkt.fragLength.toNat
  let pages := copyLoop z recvqOffset staging ep.recvqPages recvqOffset pkt.fragLength.toNat
  pokeDomU eid { ep with recvqPages := pages } .recvMediumFrag <| .recvMsg
    { peerIndex, srcEndpoint := head.srcEndpoint, seqnum := pkt.libSeqnum,
      piggyack := pkt.libPiggyack, matchInfo := ntohMatchInfo pkt.matchA pkt.matchB,
      specific := .mediumFrag (UInt32.ofNat recvqOffset) pkt.length pkt.fragLength pkt.fragSeqnum
        pkt.fragPipeline pkt.checksum }

/-- `omx_recv_rndv`. -/
def omxRecvRndv (ep : Endpoint) (peerIndex : UInt16) (head : PktHead) (pkt : PktRndv) : Endpoint :=
  pokeDomU eid ep .recvRndv <| .recvMsg
    { peerIndex, srcEndpoint := head.srcEndpoint, seqnum := pkt.msg.libSeqnum,
      piggyack := pkt.msg.libPiggyack, matchInfo := ntohMatchInfo pkt.msg.matchA pkt.msg.matchB,
      specific := .rndv pkt.msgLength pkt.pulledRdmaId pkt.pulledRdmaSeqnum pkt.pulledRdmaOffset
        pkt.msg.checksum }

/-- `omx_recv_notify`. -/
def omxRecvNotify (ep : Endpoint) (peerIndex : UInt16) (head : PktHead) (pkt : PktNotify) :
    Endpoint :=
  pokeDomU eid ep .recvNotify <| .recvMsg
    { peerIndex, srcEndpoint := head.srcEndpoint, seqnum := pkt.libSeqnum,
      piggyack := pkt.libPiggyack, matchInfo := none,
      specific := .notify pkt.totalLength pkt.pulledRdmaId pkt.pulledRdmaSeqnum }

/-- `omx_recv_truc`. -/
def omxRecvTruc (ep : Endpoint) (peerIndex : UInt16) (head : PktHead) (pkt : PktTruc) : Endpoint :=
  pokeDomU eid ep .recvLiback <| .recvLiback
    { peerIndex, srcEndpoint := head.srcEndpoint, acknum := pkt.acknum,
      libSeqnum := pkt.libSeqnum, sendSeq := pkt.sendSeq, resent := pkt.resent }

/-- `omx_recv_nack_lib`, which does not ask whether the endpoint is one of a guest. -/
def omxRecvNackLib (ep : Endpoint) (peerIndex : UInt16) (head : PktHead) (pkt : PktNackLib) :
    Endpoint :=
  { ep with
    backendQueue := ep.backendQueue ++ [.recvNackLib
      { peerIndex, srcEndpoint := head.srcEndpoint, nackType := pkt.nackType,
        seqnum := pkt.libSeqnum }] }

/-- `omx_recv`. -/
def omxRecv (ep : Endpoint) (pkt : Packet) : Endpoint :=
  match accepts env z pkt with
  | none => ep
  | some peerIndex =>
      match pkt with
      | .connect head pkt => omxRecvConnect eid ep peerIndex head pkt
      | .tiny head pkt data => omxRecvTiny eid ep peerIndex head pkt data
      | .small head pkt data => omxRecvSmall z eid ep peerIndex head pkt data
      | .mediumFrag head pkt data => omxRecvMediumFrag z eid ep peerIndex head pkt data
      | .rndv head pkt => omxRecvRndv eid ep peerIndex head pkt
      | .notify head pkt => omxRecvNotify eid ep peerIndex head pkt
      | .truc head pkt => omxRecvTruc eid ep peerIndex head pkt
      | .nackLib head pkt => omxRecvNackLib ep peerIndex head pkt

/-! ## The frontend and the library -/

/-- One turn of the loop of `omx_xenif_interrupt_recv`. -/
def interruptRecv (ep : Endpoint) : Option Endpoint :=
  match ep.responses with
  | [] => none
  | resp :: responses =>
      some { ep with responses, queue := ep.queue ++ (unexpEvent resp).toList }

/-- The receive queue, as the library has mapped it. -/
def flat (pages : ℕ → ℕ → UInt8) (a : ℕ) : UInt8 := pages (a / z.pageSize) (a % z.pageSize)

/-- The library reads an event, and its data. -/
def read (ep : Endpoint) : Option Endpoint :=
  match ep.queue with
  | [] => none
  | event :: queue =>
      some { ep with
        queue
        log := ep.log ++ [(event, z.layout.payload (flat z ep.recvqPages) event)] }

inductive Act where
  | receive (pkt : Packet)
  | interruptRecv
  | read
  deriving DecidableEq, Repr

/-- The backend, the frontend and the library of an endpoint of a guest. -/
def machine : Machine Endpoint Act where
  init := init
  step := fun ep a =>
    match a with
    | .receive pkt => some (omxRecv env z eid ep pkt)
    | .interruptRecv => interruptRecv ep
    | .read => read z ep

/-- The packets that a run receives. -/
def Act.received : Act → Option Packet
  | receive pkt => some pkt
  | interruptRecv | read => none

/-- The queue has room for every packet, those on the ring counted. -/
def HasRoom (ep : Endpoint) : Act → Prop
  | .receive _ => ep.queue.length + ep.responses.length < z.entryNr
  | .interruptRecv | .read => True

instance (ep : Endpoint) : DecidablePred (HasRoom z ep) := fun a => by
  unfold HasRoom
  split <;> infer_instance

end Xen2mx.Recv.Xen
