/-
# `Xen2mx.Recvpath.Handlers` — the handlers that end in an event

Each handler reads its header, makes its checks, acquires the destination endpoint
and hands an event over: to the unexpected queue of a local endpoint, or to the guest
with a response.  The labels `out` and `out_with_endpoint` undo what has been
acquired; `xen_out` and the normal exit do the same after counting the packet.

    handler           nacks      event                          data
    connect           nack lib   RECV_CONNECT_REQUEST / REPLY   –
    tiny              nack lib   RECV_TINY                      in the event
    small             nack lib   RECV_SMALL                     in the receive queue
    rndv              nack lib   RECV_RNDV                      –
    notify            nack lib   RECV_NOTIFY                    –
    truc              –          RECV_LIBACK                    –
    nack lib          –          RECV_NACK_LIB                  –
    raw               –          a raw event                    the packet
    host query/reply  –          –                              –

The medium fragments are in `Medium`, the pull protocol is in `Pulls`.
-/
import Xen2mx.Recvpath.Effects

namespace Xen2mx.Recvpath

open Recv (Event EvtRecvMsg Specific ntohMatchInfo)
open Recvring (Func)
open Word

variable (env : Env) (mh : Header) (skb : Skb)

/-- The normal exit, and `xen_out`. -/
def received (c : Counter) : Trace := .count c :: outWithEndpoint

/-- The end of a handler whose event needs no slot: a response for a guest, else
`omx_notify_unexp_event`, which fails if the queue is full. -/
def deliver (ep : Endpoint) (func : Func) (event : Event) (c : Counter) : Trace :=
  if ep.xen then .pokeDomU func ep.boardIndex ep.endpointIndex event :: received c
  else if ep.unexpRoom then .notifyUnexpEvent event :: received c
  else outWithEndpoint

/-- The event of a connect packet, the function of its response and its counter. -/
def connectEvent (peerIndex : UInt32) (head : Recv.PktHead) (pkt : Recv.PktConnect) :
    Func × Event × Counter :=
  match pkt.data with
  | .request srcSessionId appKey targetRecvSeqnumStart connectSeqnum =>
      (.recvConnectRequest,
        .recvConnectRequest
          { peerIndex := peerIndex.toUInt16, srcEndpoint := head.srcEndpoint, shared := 0
            seqnum := pkt.libSeqnum, srcSessionId, appKey, targetRecvSeqnumStart, connectSeqnum },
        .recvConnectRequest)
  | .reply srcSessionId targetSessionId targetRecvSeqnumStart connectSeqnum connectStatusCode =>
      (.recvConnectReply,
        .recvConnectReply
          { peerIndex := peerIndex.toUInt16, srcEndpoint := head.srcEndpoint, shared := 0
            seqnum := pkt.libSeqnum, srcSessionId, targetSessionId, targetRecvSeqnumStart
            connectSeqnum, connectStatusCode },
        .recvConnectReply)

/-- `omx_recv_connect`. -/
def omxRecvConnect : Trace :=
  let head := readHead env.endian mh 18
  let pkt := readConnect env.endian mh
  let dstEndpoint := Header.ntoh8 mh 17
  if pkt.length.toNat < Recv.omxPktConnectRequestDataLength then .count .dropBadDatalen :: out
  else
    match env.peerLookupByAddr head.srcAddr with
    | none => .count .dropBadPeerAddr :: out
    | some peerIndex =>
        .setReverseIndex peerIndex (Header.ntoh16 mh 26 env.endian) ::
        withEndpoint env dstEndpoint
          (fun type => [.sendNackLib peerIndex type dstEndpoint head.srcEndpoint pkt.libSeqnum])
          fun ep =>
            let (func, event, c) := connectEvent peerIndex head pkt
            deliver ep func event c

/-- The nack of the handlers whose peer index comes from the header. -/
def nackLib (head : Recv.PktHead) (dstEndpoint : UInt8) (libSeqnum : UInt16)
    (type : Pull.NackType) : Trace :=
  [.sendNackLib head.peerIndex.toUInt32 type dstEndpoint head.srcEndpoint libSeqnum]

/-- The event of a `struct omx_pkt_msg`. -/
def msgEvent (head : Recv.PktHead) (pkt : Recv.PktMsg) (specific : Specific) : Event :=
  .recvMsg
    { peerIndex := head.peerIndex, srcEndpoint := head.srcEndpoint, seqnum := pkt.libSeqnum
      piggyack := pkt.libPiggyack, matchInfo := ntohMatchInfo pkt.matchA pkt.matchB, specific }

/-- `omx_recv_tiny`. -/
def omxRecvTiny : Trace :=
  let head := readHead env.endian mh 18
  let pkt := readMsg env.endian mh
  let dstEndpoint := Header.ntoh8 mh 17
  let hdrLen := sizeofPktHead + sizeofPktMsg
  let length := pkt.length.toNat
  let nack := nackLib head dstEndpoint pkt.libSeqnum
  if Recv.omxTinyMsgLengthMax < length then .count .dropBadDatalen :: out
  else if sub 64 skb.len hdrLen < length then .count .dropBadSkblen :: out
  else
    withPeer env head <| withEndpoint env dstEndpoint nack fun ep =>
      withSession ep pkt.session nack <|
        match skb.copyBits hdrLen length with
        | none => [.halt]
        | some bytes =>
            deliver ep .recvTiny
              (msgEvent head pkt (.tiny pkt.length.toUInt8 pkt.checksum bytes)) .recvTiny

/-- `omx_recv_small`: the data goes to a slot of the receive queue. -/
def omxRecvSmall : Trace :=
  let head := readHead env.endian mh 18
  let pkt := readMsg env.endian mh
  let dstEndpoint := Header.ntoh8 mh 17
  let hdrLen := sizeofPktHead + sizeofPktMsg
  let length := pkt.length.toNat
  let nack := nackLib head dstEndpoint pkt.libSeqnum
  if Recv.omxSmallMsgLengthMax < length then .count .dropBadDatalen :: out
  else if sub 64 skb.len hdrLen < length then .count .dropBadSkblen :: out
  else
    withPeer env head <| withEndpoint env dstEndpoint nack fun ep =>
      withSession ep pkt.session nack <|
        match ep.recvqSlot with
        | none => outWithEndpoint
        | some recvqOffset =>
            let event := msgEvent head pkt
              (.small (UInt32.ofNat recvqOffset) pkt.length pkt.checksum)
            match skb.copyBits hdrLen length with
            | none => [.halt]
            | some bytes =>
                .copyToRecvq recvqOffset bytes ::
                (if ep.xen then .pokeDomU .recvSmall ep.boardIndex ep.endpointIndex event
                  else .notifyUnexpEvent event) ::
                received .recvSmall

/-- `omx_recv_rndv`. -/
def omxRecvRndv : Trace :=
  let head := readHead env.endian mh 18
  let pkt := readRndv env.endian mh
  let dstEndpoint := Header.ntoh8 mh 17
  let nack := nackLib head dstEndpoint pkt.msg.libSeqnum
  if pkt.msg.length.toNat < Recv.omxPktRndvDataLength then .count .dropBadDatalen :: out
  else
    withPeer env head <| withEndpoint env dstEndpoint nack fun ep =>
      withSession ep pkt.msg.session nack <|
        deliver ep .recvRndv
          (msgEvent head pkt.msg
            (.rndv pkt.msgLength pkt.pulledRdmaId pkt.pulledRdmaSeqnum pkt.pulledRdmaOffset
              pkt.msg.checksum))
          .recvRndv

/-- `omx_recv_notify`, whose event has no match info. -/
def omxRecvNotify : Trace :=
  let head := readHead env.endian mh 18
  let pkt := readNotify env.endian mh
  let dstEndpoint := Header.ntoh8 mh 17
  let nack := nackLib head dstEndpoint pkt.libSeqnum
  withPeer env head <| withEndpoint env dstEndpoint nack fun ep =>
    withSession ep pkt.session nack <|
      deliver ep .recvNotify
        (.recvMsg
          { peerIndex := head.peerIndex, srcEndpoint := head.srcEndpoint, seqnum := pkt.libSeqnum
            piggyack := pkt.libPiggyack, matchInfo := none
            specific := .notify pkt.totalLength pkt.pulledRdmaId pkt.pulledRdmaSeqnum })
        .recvNotify

/-- `omx_recv_truc`: "no nack for truc messages, just drop". -/
def omxRecvTruc : Trace :=
  let head := readHead env.endian mh 18
  let pkt := readTruc env.endian mh
  withPeer env head <| withEndpoint env (Header.ntoh8 mh 17) (fun _ => []) fun ep =>
    withSession ep pkt.session (fun _ => []) <|
      if pkt.type ≠ Recv.omxPktTrucDataTypeAck then outWithEndpoint
      else if pkt.length.toNat < Recv.omxPktTrucLibackDataLength then
        .count .dropBadDatalen :: outWithEndpoint
      else if pkt.session ≠ pkt.sessionId then .count .dropBadSession :: outWithEndpoint
      else
        deliver ep .recvLiback
          (.recvLiback
            { peerIndex := head.peerIndex, srcEndpoint := head.srcEndpoint, acknum := pkt.acknum
              libSeqnum := pkt.libSeqnum, sendSeq := pkt.sendSeq, resent := pkt.resent })
          .recvLiback

/-- The peer of a nack: a nack may come with the index -1, and then the peer is looked up. -/
def withNackPeer (head : Recv.PktHead) (k : UInt32 → Trace) : Trace :=
  if env.checkRecvPeerIndex head.peerIndex head.srcAddr then k head.peerIndex.toUInt32
  else if head.peerIndex ≠ 0xffff then out
  else
    match env.peerLookupByAddr head.srcAddr with
    | none => .count .dropBadPeerAddr :: out
    | some peerIndex => k peerIndex.toUInt16.toUInt32

/-- `omx_recv_nack_lib`, which notifies an endpoint of a guest like a local one. -/
def omxRecvNackLib : Trace :=
  let head := readHead env.endian mh 17
  let pkt := readNackLib env.endian mh
  withNackPeer env head fun peerIndex =>
    withEndpoint env (Header.ntoh8 mh 25) (fun _ => []) fun ep =>
      if ep.unexpRoom then
        .notifyUnexpEvent (.recvNackLib
          { peerIndex := peerIndex.toUInt16, srcEndpoint := head.srcEndpoint
            nackType := pkt.nackType, seqnum := pkt.libSeqnum }) ::
        received .recvNackLib
      else outWithEndpoint

/-- `omx_recv_raw`. -/
def omxRecvRaw : Trace :=
  if omxRawRecvqLen < env.rawEventListLength then [.freeSkb, .count .dropRawQueueFull]
  else if omxRawPktLenMax < skb.len then [.freeSkb, .count .dropRawTooLarge]
  -- `return -ENOMEM`
  else if ¬ env.rawEvent then []
  else [.freeSkb, .notifyRaw skb.data, .count .recvRaw]

/-- `omx_recv_host_query`: a query for another interface is ignored, any other waits for the
work that answers it. -/
def omxRecvHostQuery : Trace :=
  if (List.range 6).map mh ≠ env.devAddr then [.freeSkb]
  else [.queueSkb .hostQueryList, .count .recvHostQuery]

/-- `omx_recv_host_reply`. -/
def omxRecvHostReply : Trace :=
  if Header.ntoh32 mh 24 env.endian ≠ env.hostQueryMagic then
    [.count .dropHostReplyBadMagic, .freeSkb]
  else [.queueSkb .hostReplyList, .count .recvHostReply]

/-- `omx_recv_invalid`. -/
def omxRecvInvalid : Trace := [.count .dropInvalidType, .freeSkb]

/-- `omx_recv_error`. -/
def omxRecvError : Trace := [.count .dropUnknownType, .freeSkb]

end Xen2mx.Recvpath
