/-
# `Xen2mx.Recv.Native` — what the native driver makes of a packet

The packets that end in an unexpected event, the checks they have to pass, and
the event the native driver writes for each.  Small messages and medium fragments
also take a slot of the receive queue, and their data goes there; the event says
where.  The library reads the events in order, and the data at the place that an
event names.

    type                 event                     slot
    connect              RECV_CONNECT_REQUEST/REPLY  –
    tiny                 RECV_TINY                 –, data in the event
    small                RECV_SMALL                recvq_offset, length
    medium fragment      RECV_MEDIUM_FRAG          recvq_offset, frag_length
    rndv                 RECV_RNDV                 –
    notify               RECV_NOTIFY               –
    truc                 RECV_LIBACK               –
    nack lib             RECV_NACK_LIB             –

The peer table is a parameter: the checks only ask it questions.  The queues are
taken to have room, so that no packet is dropped for want of it.
-/
import Mathlib.Algebra.Group.Nat.Defs
import Xen2mx.Lib.Mailbox
import Xen2mx.Lib.Runs

namespace Xen2mx.Recv

open Mailbox (Box)

/-! ## Packets -/

/-- `struct omx_pkt_head` and the endpoint fields that follow it: the source address, the
sender's index in the table of the receiver, and the endpoint of the sender. -/
structure PktHead where
  srcAddr : UInt64
  peerIndex : UInt16
  srcEndpoint : UInt8
  deriving DecidableEq, Repr

/-- `struct omx_pkt_msg`. -/
structure PktMsg where
  length : UInt16
  checksum : UInt16
  libSeqnum : UInt16
  libPiggyack : UInt16
  matchA : UInt32
  matchB : UInt32
  session : UInt32
  deriving DecidableEq, Repr

/-- `struct omx_pkt_medium_frag`; only the wire of MX has a pipeline. -/
structure PktMediumFrag where
  length : UInt32
  libSeqnum : UInt16
  libPiggyack : UInt16
  matchA : UInt32
  matchB : UInt32
  session : UInt32
  fragLength : UInt16
  fragSeqnum : UInt8
  fragPipeline : Option UInt8
  checksum : UInt16
  deriving DecidableEq, Repr

/-- `struct omx_pkt_rndv`. -/
structure PktRndv where
  msg : PktMsg
  msgLength : UInt32
  pulledRdmaId : UInt8
  pulledRdmaSeqnum : UInt8
  pulledRdmaOffset : UInt16
  deriving DecidableEq, Repr

/-- `struct omx_pkt_notify`. -/
structure PktNotify where
  session : UInt32
  totalLength : UInt32
  pulledRdmaId : UInt8
  pulledRdmaSeqnum : UInt8
  libSeqnum : UInt16
  libPiggyack : UInt16
  deriving DecidableEq, Repr

/-- The two kinds of data of `struct omx_pkt_connect`, told apart by `is_reply`. -/
inductive PktConnectData where
  | request (srcSessionId appKey : UInt32) (targetRecvSeqnumStart : UInt16) (connectSeqnum : UInt8)
  | reply (srcSessionId targetSessionId : UInt32) (targetRecvSeqnumStart : UInt16)
      (connectSeqnum connectStatusCode : UInt8)
  deriving DecidableEq, Repr

/-- `struct omx_pkt_connect`. -/
structure PktConnect where
  length : UInt8
  libSeqnum : UInt16
  data : PktConnectData
  deriving DecidableEq, Repr

/-- `struct omx_pkt_truc`, with its `liback` data. -/
structure PktTruc where
  length : UInt8
  session : UInt32
  type : UInt8
  libSeqnum : UInt16
  sessionId : UInt32
  acknum : UInt32
  sendSeq : UInt16
  resent : UInt8
  deriving DecidableEq, Repr

/-- `struct omx_pkt_nack_lib`. -/
structure PktNackLib where
  nackType : UInt8
  libSeqnum : UInt16
  deriving DecidableEq, Repr

/-- A packet for the endpoint; `data` is what the buffer has behind the headers. -/
inductive Packet where
  | connect (head : PktHead) (pkt : PktConnect)
  | tiny (head : PktHead) (pkt : PktMsg) (data : List UInt8)
  | small (head : PktHead) (pkt : PktMsg) (data : List UInt8)
  | mediumFrag (head : PktHead) (pkt : PktMediumFrag) (data : List UInt8)
  | rndv (head : PktHead) (pkt : PktRndv)
  | notify (head : PktHead) (pkt : PktNotify)
  | truc (head : PktHead) (pkt : PktTruc)
  | nackLib (head : PktHead) (pkt : PktNackLib)
  deriving DecidableEq, Repr

/-! ## Events -/

/-- The `specific` part of `struct omx_evt_recv_msg`; which one it is the type says. -/
inductive Specific where
  | tiny (length : UInt8) (checksum : UInt16) (data : List UInt8)
  | small (recvqOffset : UInt32) (length checksum : UInt16)
  | mediumFrag (recvqOffset msgLength : UInt32) (fragLength : UInt16) (fragSeqnum : UInt8)
      (fragPipeline : Option UInt8) (checksum : UInt16)
  | rndv (msgLength : UInt32) (pulledRdmaId pulledRdmaSeqnum : UInt8)
      (pulledRdmaOffset checksum : UInt16)
  | notify (length : UInt32) (pulledRdmaId pulledRdmaSeqnum : UInt8)
  deriving DecidableEq, Repr

/-- `struct omx_evt_recv_msg`; a notify event is written without match info. -/
structure EvtRecvMsg where
  peerIndex : UInt16
  srcEndpoint : UInt8
  seqnum : UInt16
  piggyack : UInt16
  matchInfo : Option UInt64
  specific : Specific
  deriving DecidableEq, Repr

/-- `struct omx_evt_recv_connect_request`. -/
structure EvtConnectRequest where
  peerIndex : UInt16
  srcEndpoint : UInt8
  shared : UInt8
  seqnum : UInt16
  srcSessionId : UInt32
  appKey : UInt32
  targetRecvSeqnumStart : UInt16
  connectSeqnum : UInt8
  deriving DecidableEq, Repr

/-- `struct omx_evt_recv_connect_reply`. -/
structure EvtConnectReply where
  peerIndex : UInt16
  srcEndpoint : UInt8
  shared : UInt8
  seqnum : UInt16
  srcSessionId : UInt32
  targetSessionId : UInt32
  targetRecvSeqnumStart : UInt16
  connectSeqnum : UInt8
  connectStatusCode : UInt8
  deriving DecidableEq, Repr

/-- `struct omx_evt_recv_liback`. -/
structure EvtLiback where
  peerIndex : UInt16
  srcEndpoint : UInt8
  acknum : UInt32
  libSeqnum : UInt16
  sendSeq : UInt16
  resent : UInt8
  deriving DecidableEq, Repr

/-- `struct omx_evt_recv_nack_lib`. -/
structure EvtNackLib where
  peerIndex : UInt16
  srcEndpoint : UInt8
  nackType : UInt8
  seqnum : UInt16
  deriving DecidableEq, Repr

/-- `union omx_evt`, its unexpected events. -/
inductive Event where
  | recvConnectRequest (e : EvtConnectRequest)
  | recvConnectReply (e : EvtConnectReply)
  | recvLiback (e : EvtLiback)
  | recvNackLib (e : EvtNackLib)
  | recvMsg (e : EvtRecvMsg)
  deriving DecidableEq, Repr

/-- Where the library looks for the data of an event. -/
def Event.place : Event → Option (ℕ × ℕ)
  | recvMsg { specific := .small recvqOffset length _, .. } =>
      some (recvqOffset.toNat, length.toNat)
  | recvMsg { specific := .mediumFrag recvqOffset _ fragLength _ _ _, .. } =>
      some (recvqOffset.toNat, fragLength.toNat)
  | _ => none

/-! ## The environment -/

def omxPktConnectRequestDataLength : ℕ := 16
def omxTinyMsgLengthMax : ℕ := 32
def omxSmallMsgLengthMax : ℕ := 128
def omxPktRndvDataLength : ℕ := 8
def omxPktTrucLibackDataLength : ℕ := 16
def omxPktTrucDataTypeAck : UInt8 := 0x55

/-- The receive queue: `OMX_RECVQ_ENTRY_NR` entries of `1 << OMX_RECVQ_ENTRY_SHIFT` bytes, in
pages; what the build checks of them. -/
structure Recvq where
  entryNr : ℕ
  entryShift : ℕ
  pageShift : ℕ
  small_le_entry : omxSmallMsgLengthMax ≤ 2 ^ entryShift
  small_le_page : omxSmallMsgLengthMax ≤ 2 ^ pageShift
  nr_pos : 0 < entryNr
  size_le : entryNr * 2 ^ entryShift ≤ 2 ^ 32

namespace Recvq

variable (z : Recvq)

def entrySize : ℕ := 2 ^ z.entryShift

def pageSize : ℕ := 2 ^ z.pageShift

/-- The entries, as slots of a mailbox. -/
def layout : Mailbox.Layout Event :=
  { nr := z.entryNr, size := z.entrySize, place := Event.place }

end Recvq

/-- The peer table and the endpoint, as the checks see them. -/
structure Env where
  /-- `omx_check_recv_peer_index` succeeds -/
  checkRecvPeerIndex : UInt16 → UInt64 → Bool
  /-- the index of the peer that `omx_peer_lookup_by_addr_locked` finds -/
  peerLookupByAddr : UInt64 → Option UInt32
  sessionId : UInt32

/-- `OMX_NTOH_MATCH_INFO`. -/
def ntohMatchInfo (matchA matchB : UInt32) : UInt64 :=
  (matchA.toUInt64 <<< 32) ||| matchB.toUInt64

variable (env : Env) (z : Recvq)

/-- The checks of a packet before its event is filled, and the peer index for the event. -/
def accepts : Packet → Option UInt16
  | .connect head pkt =>
      if pkt.length.toNat < omxPktConnectRequestDataLength then none
      else (env.peerLookupByAddr head.srcAddr).map UInt32.toUInt16
  | .tiny head pkt data =>
      if omxTinyMsgLengthMax < pkt.length.toNat then none
      else if data.length < pkt.length.toNat then none
      else if ¬ env.checkRecvPeerIndex head.peerIndex head.srcAddr then none
      else if pkt.session ≠ env.sessionId then none
      else some head.peerIndex
  | .small head pkt data =>
      if omxSmallMsgLengthMax < pkt.length.toNat then none
      else if data.length < pkt.length.toNat then none
      else if ¬ env.checkRecvPeerIndex head.peerIndex head.srcAddr then none
      else if pkt.session ≠ env.sessionId then none
      else some head.peerIndex
  | .mediumFrag head pkt data =>
      if z.entrySize < pkt.fragLength.toNat then none
      else if data.length < pkt.fragLength.toNat then none
      else if ¬ env.checkRecvPeerIndex head.peerIndex head.srcAddr then none
      else if pkt.session ≠ env.sessionId then none
      else some head.peerIndex
  | .rndv head pkt =>
      if pkt.msg.length.toNat < omxPktRndvDataLength then none
      else if ¬ env.checkRecvPeerIndex head.peerIndex head.srcAddr then none
      else if pkt.msg.session ≠ env.sessionId then none
      else some head.peerIndex
  | .notify head pkt =>
      if ¬ env.checkRecvPeerIndex head.peerIndex head.srcAddr then none
      else if pkt.session ≠ env.sessionId then none
      else some head.peerIndex
  | .truc head pkt =>
      if ¬ env.checkRecvPeerIndex head.peerIndex head.srcAddr then none
      else if pkt.session ≠ env.sessionId then none
      else if pkt.type ≠ omxPktTrucDataTypeAck then none
      else if pkt.length.toNat < omxPktTrucLibackDataLength then none
      else if pkt.session ≠ pkt.sessionId then none
      else some head.peerIndex
  | .nackLib head _ =>
      if env.checkRecvPeerIndex head.peerIndex head.srcAddr then some head.peerIndex
      else if head.peerIndex ≠ 0xffff then none
      else (env.peerLookupByAddr head.srcAddr).map UInt32.toUInt16

/-! ## The native driver -/

/-- The unexpected queue of a local endpoint, its receive queue, and what the library has
read of them. -/
abbrev Endpoint := Box Event UInt8

/-- `omx_prepare_notify_unexp_event_with_recvq`: the offset of the next entry. -/
def prepareNotifyUnexpEventWithRecvq (ep : Endpoint) : ℕ × Endpoint :=
  (ep.next % z.entryNr * z.entrySize, { ep with next := ep.next + 1 })

/-- `omx_notify_unexp_event` and `omx_commit_notify_unexp_event_with_recvq`. -/
def notifyUnexpEvent (ep : Endpoint) (event : Event) : Endpoint :=
  { ep with queue := ep.queue ++ [event] }

/-- `skb_copy_bits` into the receive queue. -/
def skbCopyBits (ep : Endpoint) (recvqOffset : ℕ) (data : List UInt8) : Endpoint :=
  { ep with mem := Mailbox.write ep.mem recvqOffset data }

/-- `omx_recv_connect`. -/
def omxRecvConnect (ep : Endpoint) (peerIndex : UInt16) (head : PktHead) (pkt : PktConnect) :
    Endpoint :=
  match pkt.data with
  | .request srcSessionId appKey targetRecvSeqnumStart connectSeqnum =>
      notifyUnexpEvent ep <| .recvConnectRequest
        { peerIndex, srcEndpoint := head.srcEndpoint, shared := 0, seqnum := pkt.libSeqnum,
          srcSessionId, appKey, targetRecvSeqnumStart, connectSeqnum }
  | .reply srcSessionId targetSessionId targetRecvSeqnumStart connectSeqnum connectStatusCode =>
      notifyUnexpEvent ep <| .recvConnectReply
        { peerIndex, srcEndpoint := head.srcEndpoint, shared := 0, seqnum := pkt.libSeqnum,
          srcSessionId, targetSessionId, targetRecvSeqnumStart, connectSeqnum, connectStatusCode }

/-- `omx_recv_tiny`. -/
def omxRecvTiny (ep : Endpoint) (peerIndex : UInt16) (head : PktHead) (pkt : PktMsg)
    (data : List UInt8) : Endpoint :=
  notifyUnexpEvent ep <| .recvMsg
    { peerIndex, srcEndpoint := head.srcEndpoint, seqnum := pkt.libSeqnum,
      piggyack := pkt.libPiggyack, matchInfo := ntohMatchInfo pkt.matchA pkt.matchB,
      specific := .tiny pkt.length.toUInt8 pkt.checksum (data.take pkt.length.toNat) }

/-- `omx_recv_small`. -/
def omxRecvSmall (ep : Endpoint) (peerIndex : UInt16) (head : PktHead) (pkt : PktMsg)
    (data : List UInt8) : Endpoint :=
  let (recvqOffset, ep) := prepareNotifyUnexpEventWithRecvq z ep
  let ep := skbCopyBits ep recvqOffset (data.take pkt.length.toNat)
  notifyUnexpEvent ep <| .recvMsg
    { peerIndex, srcEndpoint := head.srcEndpoint, seqnum := pkt.libSeqnum,
      piggyack := pkt.libPiggyack, matchInfo := ntohMatchInfo pkt.matchA pkt.matchB,
      specific := .small (UInt32.ofNat recvqOffset) pkt.length pkt.checksum }

/-- `omx_recv_medium_frag`. -/
def omxRecvMediumFrag (ep : Endpoint) (peerIndex : UInt16) (head : PktHead) (pkt : PktMediumFrag)
    (data : List UInt8) : Endpoint :=
  let (recvqOffset, ep) := prepareNotifyUnexpEventWithRecvq z ep
  let ep := skbCopyBits ep recvqOffset (data.take pkt.fragLength.toNat)
  notifyUnexpEvent ep <| .recvMsg
    { peerIndex, srcEndpoint := head.srcEndpoint, seqnum := pkt.libSeqnum,
      piggyack := pkt.libPiggyack, matchInfo := ntohMatchInfo pkt.matchA pkt.matchB,
      specific := .mediumFrag (UInt32.ofNat recvqOffset) pkt.length pkt.fragLength pkt.fragSeqnum
        pkt.fragPipeline pkt.checksum }

/-- `omx_recv_rndv`. -/
def omxRecvRndv (ep : Endpoint) (peerIndex : UInt16) (head : PktHead) (pkt : PktRndv) : Endpoint :=
  notifyUnexpEvent ep <| .recvMsg
    { peerIndex, srcEndpoint := head.srcEndpoint, seqnum := pkt.msg.libSeqnum,
      piggyack := pkt.msg.libPiggyack, matchInfo := ntohMatchInfo pkt.msg.matchA pkt.msg.matchB,
      specific := .rndv pkt.msgLength pkt.pulledRdmaId pkt.pulledRdmaSeqnum pkt.pulledRdmaOffset
        pkt.msg.checksum }

/-- `omx_recv_notify`. -/
def omxRecvNotify (ep : Endpoint) (peerIndex : UInt16) (head : PktHead) (pkt : PktNotify) :
    Endpoint :=
  notifyUnexpEvent ep <| .recvMsg
    { peerIndex, srcEndpoint := head.srcEndpoint, seqnum := pkt.libSeqnum,
      piggyack := pkt.libPiggyack, matchInfo := none,
      specific := .notify pkt.totalLength pkt.pulledRdmaId pkt.pulledRdmaSeqnum }

/-- `omx_recv_truc`. -/
def omxRecvTruc (ep : Endpoint) (peerIndex : UInt16) (head : PktHead) (pkt : PktTruc) : Endpoint :=
  notifyUnexpEvent ep <| .recvLiback
    { peerIndex, srcEndpoint := head.srcEndpoint, acknum := pkt.acknum,
      libSeqnum := pkt.libSeqnum, sendSeq := pkt.sendSeq, resent := pkt.resent }

/-- `omx_recv_nack_lib`. -/
def omxRecvNackLib (ep : Endpoint) (peerIndex : UInt16) (head : PktHead) (pkt : PktNackLib) :
    Endpoint :=
  notifyUnexpEvent ep <| .recvNackLib
    { peerIndex, srcEndpoint := head.srcEndpoint, nackType := pkt.nackType,
      seqnum := pkt.libSeqnum }

/-- `omx_recv`, for the packets that the endpoint accepts; all others are dropped. -/
def omxRecv (ep : Endpoint) (pkt : Packet) : Endpoint :=
  match accepts env z pkt with
  | none => ep
  | some peerIndex =>
      match pkt with
      | .connect head pkt => omxRecvConnect ep peerIndex head pkt
      | .tiny head pkt data => omxRecvTiny ep peerIndex head pkt data
      | .small head pkt data => omxRecvSmall z ep peerIndex head pkt data
      | .mediumFrag head pkt data => omxRecvMediumFrag z ep peerIndex head pkt data
      | .rndv head pkt => omxRecvRndv ep peerIndex head pkt
      | .notify head pkt => omxRecvNotify ep peerIndex head pkt
      | .truc head pkt => omxRecvTruc ep peerIndex head pkt
      | .nackLib head pkt => omxRecvNackLib ep peerIndex head pkt

inductive Act where
  | receive (pkt : Packet)
  | read
  deriving DecidableEq, Repr

/-- The native driver and the library of a local endpoint. -/
def machine : Machine Endpoint Act where
  init := Mailbox.Layout.empty fun _ => 0
  step := fun ep a =>
    match a with
    | .receive pkt => some (omxRecv env z ep pkt)
    | .read => z.layout.take ep

/-- The packets that a run receives. -/
def Act.received : Act → Option Packet
  | receive pkt => some pkt
  | read => none

/-- The queue has room for every packet. -/
def HasRoom (ep : Endpoint) : Act → Prop
  | .receive _ => ep.queue.length < z.entryNr
  | .read => True

instance (ep : Endpoint) : DecidablePred (HasRoom z ep) := fun a => by
  unfold HasRoom
  split <;> infer_instance

end Xen2mx.Recv
