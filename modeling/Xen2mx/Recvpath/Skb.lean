/-
# `Xen2mx.Recvpath.Skb` — packets as the receive path finds them

The bytes of an incoming packet are spread over an `skb`: some are in its linear
part, the others in fragments of pages.  `omx_recv` looks the packet type up in a
table of header lengths, and the handler reads the header through a pointer: to the
linear part if that is long enough, else to a copy of as many bytes as the table says.

    reading                   where
    `omx_skb_mac_header`      the linear part, and whatever memory follows it
    `linear_header`           `hdr_len` bytes of the packet, and whatever the stack holds
    `skb_copy_bits`           the packet, wherever the bytes are

Offsets are from the start of the Ethernet header.
-/
import Xen2mx.Lib.Word
import Xen2mx.Recv.Native
import Xen2mx.Pull.Packets

namespace Xen2mx.Recvpath

open Recv (PktHead PktMsg PktMediumFrag PktRndv PktNotify PktConnect PktConnectData PktTruc
  PktNackLib)

/-! ## Buffers -/

/-- `struct sk_buff`, received. -/
structure Skb where
  /-- the linear part -/
  head : List UInt8
  /-- the fragments in pages -/
  frags : List (List UInt8)
  /-- the memory behind the linear part -/
  slack : ℕ → UInt8
  /-- `skb->len` has 32 bits. -/
  len_lt : (head ++ frags.flatten).length < 2 ^ 32

namespace Skb

variable (skb : Skb)

/-- The bytes of the packet. -/
def data : List UInt8 := skb.head ++ skb.frags.flatten

/-- `skb->len`. -/
def len : ℕ := skb.data.length

/-- `skb_headlen`. -/
def headlen : ℕ := skb.head.length

/-- `skb_copy_bits`: it fails if the packet ends before the range does. -/
def copyBits (offset length : ℕ) : Option (List UInt8) :=
  if offset + length ≤ skb.len then some ((skb.data.drop offset).take length) else none

theorem headlen_le_len : skb.headlen ≤ skb.len := by
  simp only [headlen, len, data, List.length_append]
  omega

theorem copyBits_eq_some {offset length : ℕ} (h : offset + length ≤ skb.len) :
    skb.copyBits offset length = some ((skb.data.drop offset).take length) := if_pos h

theorem copyBits_eq_none {offset length : ℕ} (h : skb.len < offset + length) :
    skb.copyBits offset length = none := if_neg (by omega)

/-- A copy only sees the bytes of the packet. -/
theorem copyBits_congr {skb skb' : Skb} (h : skb.data = skb'.data) (offset length : ℕ) :
    skb.copyBits offset length = skb'.copyBits offset length := by
  rw [copyBits, copyBits, len, len, h]

end Skb

/-! ## Headers -/

/-- The memory that a header pointer points to. -/
abbrev Header := ℕ → UInt8

/-- `omx_skb_mac_header`. -/
def Skb.macHeader (skb : Skb) : Header :=
  fun i => if h : i < skb.head.length then skb.head[i] else skb.slack i

/-- `struct omx_hdr linear_header`, on a stack that holds `stack`, after `bytes` have been
copied there. -/
def linearHeader (stack : Header) (bytes : List UInt8) : Header := fun i => bytes.getD i (stack i)

/-- Both headers have the same first `n` bytes. -/
def Agree (n : ℕ) (mh mh' : Header) : Prop := ∀ i < n, mh i = mh' i

namespace Header

variable (mh : Header) (offset : ℕ)

/-- `OMX_NTOH_8`. -/
def ntoh8 : UInt8 := mh offset

/-- `OMX_NTOH_16`: the network order if `endian`, `OMX_ENDIAN_COMPAT`, is set, else the order
of the host. -/
def ntoh16 (endian : Bool) : UInt16 :=
  if endian then (mh offset).toUInt16 <<< 8 ||| (mh (offset + 1)).toUInt16
  else (mh (offset + 1)).toUInt16 <<< 8 ||| (mh offset).toUInt16

/-- `OMX_NTOH_32`. -/
def ntoh32 (endian : Bool) : UInt32 :=
  if endian then
    (ntoh16 mh offset endian).toUInt32 <<< 16 ||| (ntoh16 mh (offset + 2) endian).toUInt32
  else
    (ntoh16 mh (offset + 2) endian).toUInt32 <<< 16 ||| (ntoh16 mh offset endian).toUInt32

variable {mh offset} {mh' : Header} {n : ℕ} {endian : Bool}

theorem ntoh8_congr (h : Agree n mh mh') (hlt : offset < n) : ntoh8 mh offset = ntoh8 mh' offset :=
  h offset hlt

theorem ntoh16_congr (h : Agree n mh mh') (hlt : offset + 1 < n) :
    ntoh16 mh offset endian = ntoh16 mh' offset endian := by
  rw [ntoh16, ntoh16, h offset (by omega), h (offset + 1) hlt]

theorem ntoh32_congr (h : Agree n mh mh') (hlt : offset + 3 < n) :
    ntoh32 mh offset endian = ntoh32 mh' offset endian := by
  rw [ntoh32, ntoh32, ntoh16_congr h (by omega), ntoh16_congr h (by omega)]

end Header

/-! ## Packet types -/

/-- `enum omx_pkt_type`, its named values; `unknown` is any other byte. -/
inductive PktType where
  | raw
  | mfmNicReply
  | hostQuery
  | hostReply
  | etherUnicast
  | etherMulticast
  | etherNative
  | truc
  | connect
  | tiny
  | small
  | medium
  | rndv
  | pull
  | pullReply
  | notify
  | nackLib
  | nackMcp
  | unknown
  deriving DecidableEq, Repr

/-- `OMX_PKT_TYPE_*`. -/
def PktType.ofByte (ptype : UInt8) : PktType :=
  match ptype.toNat with
  | 1 => .raw
  | 2 => .mfmNicReply
  | 3 => .hostQuery
  | 4 => .hostReply
  | 32 => .etherUnicast
  | 33 => .etherMulticast
  | 34 => .etherNative
  | 35 => .truc
  | 36 => .connect
  | 37 => .tiny
  | 38 => .small
  | 39 => .medium
  | 40 => .rndv
  | 41 => .pull
  | 42 => .pullReply
  | 43 => .notify
  | 44 => .nackLib
  | 45 => .nackMcp
  | _ => .unknown

/-- `sizeof(struct omx_pkt_head)`, and `OMX_HDR_PTYPE_OFFSET`. -/
def sizeofPktHead : ℕ := 16

/-- `sizeof` of the packet structures that follow `struct omx_pkt_head`. -/
def sizeofPktHostQuery : ℕ := 16
def sizeofPktHostReply : ℕ := 16
def sizeofPktTruc : ℕ := 28
def sizeofPktConnect : ℕ := 32
def sizeofPktMsg : ℕ := 24
def sizeofPktMediumFrag : ℕ := 32
def sizeofPktRndv : ℕ := 32
def sizeofPktPullReply : ℕ := 16
def sizeofPktNotify : ℕ := 24
def sizeofPktNackLib : ℕ := 16
def sizeofPktNackMcp : ℕ := 16

/-- `struct omx_pkt_pull_request` is shorter in the wire format of MX. -/
def sizeofPktPullRequest (wireCompat : Bool) : ℕ := if wireCompat then 32 else 44

/-- `omx_pkt_type_hdr_len`, as `omx_pkt_types_init` fills it. -/
def pktTypeHdrLen (wireCompat : Bool) : PktType → ℕ
  | .hostQuery => sizeofPktHead + sizeofPktHostQuery
  | .hostReply => sizeofPktHead + sizeofPktHostReply
  | .truc => sizeofPktHead + sizeofPktTruc
  | .connect => sizeofPktHead + sizeofPktConnect
  | .tiny => sizeofPktHead + sizeofPktMsg
  | .small => sizeofPktHead + sizeofPktMsg
  | .medium => sizeofPktHead + sizeofPktMediumFrag
  -- not `sizeofPktRndv`, which the handler reads
  | .rndv => sizeofPktHead + sizeofPktMsg
  | .pull => sizeofPktHead + sizeofPktPullRequest wireCompat
  | .pullReply => sizeofPktHead + sizeofPktPullReply
  | .notify => sizeofPktHead + sizeofPktNotify
  | .nackLib => sizeofPktHead + sizeofPktNackLib
  | .nackMcp => sizeofPktHead + sizeofPktNackMcp
  | _ => sizeofPktHead

/-! ## The fields of a header -/

variable (endian : Bool) (mh : Header)

/-- `omx_board_addr_from_ethhdr_src`. -/
def boardAddrFromEthhdrSrc : UInt64 :=
  [6, 7, 8, 9, 10, 11].foldl (fun addr i => addr <<< 8 ||| (mh i).toUInt64) 0

/-- `struct omx_pkt_head`, and the source endpoint at `srcEndpoint`. -/
def readHead (srcEndpoint : ℕ) : PktHead :=
  { srcAddr := boardAddrFromEthhdrSrc mh
    peerIndex := Header.ntoh16 mh 14 endian
    srcEndpoint := Header.ntoh8 mh srcEndpoint }

/-- `struct omx_pkt_msg`. -/
def readMsg : PktMsg :=
  { length := Header.ntoh16 mh 20 endian
    checksum := Header.ntoh16 mh 22 endian
    libSeqnum := Header.ntoh16 mh 24 endian
    libPiggyack := Header.ntoh16 mh 26 endian
    matchA := Header.ntoh32 mh 28 endian
    matchB := Header.ntoh32 mh 32 endian
    session := Header.ntoh32 mh 36 endian }

/-- `struct omx_pkt_medium_frag`: the message length has 16 bits in the wire format of MX. -/
def readMediumFrag (wireCompat : Bool) : PktMediumFrag :=
  { length :=
      if wireCompat then (Header.ntoh16 mh 20 endian).toUInt32 else Header.ntoh32 mh 20 endian
    libSeqnum := Header.ntoh16 mh 24 endian
    libPiggyack := Header.ntoh16 mh 26 endian
    matchA := Header.ntoh32 mh 28 endian
    matchB := Header.ntoh32 mh 32 endian
    session := Header.ntoh32 mh 36 endian
    fragLength := Header.ntoh16 mh 40 endian
    fragSeqnum := Header.ntoh8 mh 42
    fragPipeline := if wireCompat then some (Header.ntoh8 mh 43) else none
    checksum := Header.ntoh16 mh 44 endian }

/-- `struct omx_pkt_rndv`: 8 bytes follow the `struct omx_pkt_msg` that it begins with. -/
def readRndv : PktRndv :=
  { msg := readMsg endian mh
    msgLength := Header.ntoh32 mh 40 endian
    pulledRdmaId := Header.ntoh8 mh 44
    pulledRdmaSeqnum := Header.ntoh8 mh 45
    pulledRdmaOffset := Header.ntoh16 mh 46 endian }

/-- `struct omx_pkt_notify`. -/
def readNotify : PktNotify :=
  { session := Header.ntoh32 mh 20 endian
    totalLength := Header.ntoh32 mh 24 endian
    pulledRdmaId := Header.ntoh8 mh 28
    pulledRdmaSeqnum := Header.ntoh8 mh 29
    libSeqnum := Header.ntoh16 mh 34 endian
    libPiggyack := Header.ntoh16 mh 36 endian }

/-- `struct omx_pkt_connect`. -/
def readConnect : PktConnect :=
  { length := Header.ntoh8 mh 20
    libSeqnum := Header.ntoh16 mh 24 endian
    data :=
      if Header.ntoh8 mh 42 = 0 then
        .request (Header.ntoh32 mh 32 endian) (Header.ntoh32 mh 36 endian)
          (Header.ntoh16 mh 40 endian) (Header.ntoh8 mh 43)
      else
        .reply (Header.ntoh32 mh 32 endian) (Header.ntoh32 mh 36 endian)
          (Header.ntoh16 mh 40 endian) (Header.ntoh8 mh 43) (Header.ntoh8 mh 44) }

/-- `struct omx_pkt_truc`, with its `liback` data. -/
def readTruc : PktTruc :=
  { length := Header.ntoh8 mh 20
    session := Header.ntoh32 mh 24 endian
    type := Header.ntoh8 mh 28
    libSeqnum := Header.ntoh16 mh 30 endian
    sessionId := Header.ntoh32 mh 32 endian
    acknum := Header.ntoh32 mh 36 endian
    sendSeq := Header.ntoh16 mh 40 endian
    resent := Header.ntoh8 mh 42 }

/-- `struct omx_pkt_nack_lib`. -/
def readNackLib : PktNackLib :=
  { nackType := Header.ntoh8 mh 19
    libSeqnum := Header.ntoh16 mh 28 endian }

/-- The fields of `struct omx_pkt_pull_request` that its handler uses besides the geometry. -/
structure PktPullRequest where
  dstEndpoint : UInt8
  session : UInt32
  pulledRdmaId : UInt32
  srcPullHandle : UInt32
  srcMagic : UInt32
  geometry : Pull.Request
  deriving DecidableEq, Repr

/-- `struct omx_pkt_pull_request`, in both wire formats. -/
def readPullRequest (wireCompat : Bool) : PktPullRequest :=
  if wireCompat then
    { dstEndpoint := Header.ntoh8 mh 17
      session := Header.ntoh32 mh 20 endian
      pulledRdmaId := (Header.ntoh8 mh 28).toUInt32
      srcPullHandle := Header.ntoh32 mh 32 endian
      srcMagic := Header.ntoh32 mh 36 endian
      geometry :=
        { blockLength := (Header.ntoh16 mh 42 endian).toNat
          firstFrameOffset := (Header.ntoh16 mh 40 endian).toNat
          pulledRdmaOffset := (Header.ntoh16 mh 30 endian).toNat
          frameIndex := (Header.ntoh32 mh 44 endian).toNat } }
  else
    { dstEndpoint := Header.ntoh8 mh 17
      session := Header.ntoh32 mh 20 endian
      pulledRdmaId := Header.ntoh32 mh 28 endian
      srcPullHandle := Header.ntoh32 mh 40 endian
      srcMagic := Header.ntoh32 mh 44 endian
      geometry :=
        { blockLength := (Header.ntoh32 mh 52 endian).toNat
          firstFrameOffset := (Header.ntoh32 mh 48 endian).toNat
          pulledRdmaOffset := (Header.ntoh32 mh 36 endian).toNat
          frameIndex := (Header.ntoh32 mh 56 endian).toNat } }

/-- `struct omx_pkt_pull_reply`. -/
structure PktPullReply where
  frameSeqnum : UInt8
  frameLength : UInt16
  msgOffset : UInt32
  dstPullHandle : UInt32
  dstMagic : UInt32
  deriving DecidableEq, Repr

def readPullReply : PktPullReply :=
  { frameSeqnum := Header.ntoh8 mh 17
    frameLength := Header.ntoh16 mh 18 endian
    msgOffset := Header.ntoh32 mh 20 endian
    dstPullHandle := Header.ntoh32 mh 24 endian
    dstMagic := Header.ntoh32 mh 28 endian }

/-- `struct omx_pkt_nack_mcp`. -/
structure PktNackMcp where
  nackType : UInt8
  srcPullHandle : UInt32
  srcMagic : UInt32
  deriving DecidableEq, Repr

def readNackMcp : PktNackMcp :=
  { nackType := Header.ntoh8 mh 19
    srcPullHandle := Header.ntoh32 mh 24 endian
    srcMagic := Header.ntoh32 mh 28 endian }

end Xen2mx.Recvpath
