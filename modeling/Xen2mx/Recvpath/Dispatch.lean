/-
# `Xen2mx.Recvpath.Dispatch` — `omx_recv`

The entry of the receive path: it finds the interface, the packet type and, in the
table of `omx_pkt_types_init`, the length of the header; it makes the header linear
and calls the handler of the type.  The exits before that call all return through
`out`, which does not free the `skb`.
-/
import Xen2mx.Recvpath.Pulls

namespace Xen2mx.Recvpath

variable (env : Env)

/-- `omx_pkt_type_handler`. -/
def pktTypeHandler (mh : Header) (skb : Skb) : PktType → Trace
  | .raw => omxRecvRaw env skb
  | .hostQuery => omxRecvHostQuery env mh
  | .hostReply => omxRecvHostReply env mh
  | .mfmNicReply | .etherUnicast | .etherMulticast | .etherNative => omxRecvInvalid
  | .truc => omxRecvTruc env mh
  | .connect => omxRecvConnect env mh
  | .tiny => omxRecvTiny env mh skb
  | .small => omxRecvSmall env mh skb
  | .medium => omxRecvMediumFrag env mh skb
  | .rndv => omxRecvRndv env mh
  | .pull => omxRecvPullRequest env mh
  | .pullReply => omxRecvPullReply env mh skb
  | .notify => omxRecvNotify env mh
  | .nackLib => omxRecvNackLib env mh
  | .nackMcp => omxRecvNackMcp env mh
  | .unknown => omxRecvError

/-- "get the actual packet type, either from linear data or not". -/
def Skb.ptype (skb : Skb) : Option UInt8 :=
  if sizeofPktHead + 1 ≤ skb.headlen then some (skb.macHeader sizeofPktHead)
  else (skb.copyBits sizeofPktHead 1).map (·.getD 0 0)

/-- The part of `omx_recv` after the header length is known: `stack` is what the stack holds
where `linear_header` is. -/
def dispatch (skb : Skb) (stack : Header) (type : PktType) : Trace :=
  let hdrLen := pktTypeHdrLen env.config.wireCompat type
  if skb.headlen < hdrLen then
    .count .recvNonlinearHeader ::
    match skb.copyBits 0 hdrLen with
    -- "there's always at least ETH_ZLEN"
    | none => [.halt]
    | some bytes => pktTypeHandler env (linearHeader stack bytes) skb type
  else pktTypeHandler env skb.macHeader skb type

/-- `omx_recv`. -/
def omxRecv (skb : Skb) (stack : Header) : Trace :=
  -- `skb_share_check` lets go of an `skb` that it cannot clone
  if env.skbShareCheck = false then [.release .skb]
  else if env.ifaceFindByIfp = false then []
  else
    match skb.ptype with
    | none => [.count .dropBadHeaderDatalen]
    | some ptype => dispatch env skb stack (PktType.ofByte ptype)

end Xen2mx.Recvpath
