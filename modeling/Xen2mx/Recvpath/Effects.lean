/-
# `Xen2mx.Recvpath.Effects` — what the receive path does, and what it runs into

A handler of the receive path is modelled by the trace of its effects, in order: the
references it takes and drops, what becomes of the `skb`, the events and the data it
delivers, the packets it sends.  Everything it asks is in the environment: the tables
of the driver, the endpoint with its queues, regions and pull handles, and the
outcome of every allocation, submission and copy.  A branch of a handler that jumps
to a label continues with the trace of that label.

    lease       held by
    skb         the packet itself, from the start
    endpoint    `omx_endpoint_acquire_by_iface_index`
    region      `omx_user_region_acquire`
    xenRegion   `omx_xen_user_region_acquire`
    handle      `omx_pull_handle_acquire_from_slot`

The statistics of the DMA engine and of the blocks of a pull are left out.
-/
import Xen2mx.Lib.Ledger
import Xen2mx.Pull.System
import Xen2mx.Recvpath.Skb
import Xen2mx.Recvring.Ring

namespace Xen2mx.Recvpath

open Recv (Event Recvq)
open Recvring (Func)
open Pull (NackType)

/-! ## Effects -/

/-- The counters of `omx_counter_inc` that tell what became of a packet. -/
inductive Counter where
  | recvNonlinearHeader
  | dropBadHeaderDatalen | dropBadDatalen | dropBadSkblen
  | dropBadPeerAddr | dropBadPeerIndex | dropBadEndpoint | dropBadSession
  | dropInvalidType | dropUnknownType
  | dropRawQueueFull | dropRawTooLarge
  | dropHostReplyBadMagic
  | dropPullBadReplies | dropPullBadRegion | dropPullBadOffsetLength
  | dropPullReplyBadMagicEndpoint | dropPullReplyBadWireHandle
  | dropPullReplyBadSeqnumWraparound | dropPullReplyBadSeqnum | dropPullReplyDuplicate
  | pullReplyFillFailed | pullReplySendLinear | sendNomemSkb
  | recvConnectRequest | recvConnectReply | recvTiny | recvSmall | recvMediumFrag | recvRndv
  | recvNotify | recvLiback | recvNackLib | recvNackMcp | recvRaw | recvHostQuery | recvHostReply
  | recvPullReq | recvPullReply
  deriving DecidableEq, Repr

/-- What a handler can hold. -/
inductive Lease where
  | skb
  | endpoint
  | region
  | xenRegion
  | handle
  deriving DecidableEq, Repr

/-- The lists that keep an `skb` and free it later. -/
inductive SkbQueue where
  | hostQueryList
  | hostReplyList
  | dmaCopySkbQueue
  deriving DecidableEq, Repr

inductive Effect where
  | count (c : Counter)
  | acquire (l : Lease)
  | release (l : Lease)
  /-- `dev_kfree_skb` -/
  | freeSkb
  | queueSkb (q : SkbQueue)
  /-- `omx_peer_set_reverse_index` -/
  | setReverseIndex (peerIndex : UInt32) (reverseIndex : UInt16)
  | sendNackLib (peerIndex : UInt32) (type : NackType) (srcEndpoint dstEndpoint : UInt8)
      (libSeqnum : UInt16)
  | sendNackMcp (peerIndex : UInt16) (type : NackType) (dstEndpoint : UInt8)
      (srcPullHandle srcMagic : UInt32)
  /-- an event written to the unexpected queue -/
  | notifyUnexpEvent (e : Event)
  /-- a response with an event for the guest -/
  | pokeDomU (func : Func) (boardIndex endpointIndex : ℕ) (e : Event)
  | copyToRecvq (recvqOffset : ℕ) (bytes : List UInt8)
  | notifyRaw (bytes : List UInt8)
  /-- a pull reply, with the handle and the magic of the puller -/
  | xmitPullReply (r : Pull.Reply) (dstPullHandle dstMagic : UInt32)
  | xmitPullRequest (r : Pull.Request)
  /-- `omx_user_region_fill_pages` -/
  | fillPages (regionOffset length : ℕ)
  /-- `omx_pull_handle_mark_completed` -/
  | markCompleted (status : UInt8)
  | notifyPullDone (xen : Bool) (libCookie : UInt64) (pullerRdmaId : UInt32) (status : UInt8)
  /-- a `BUG`, a fault of the kernel or a loop without end: nothing happens after it -/
  | halt
  deriving DecidableEq

abbrev Trace := List Effect

/-- What an effect does to the things held: an `skb` in a list is freed from there. -/
def Effect.entry : Effect → Ledger.Entry Lease
  | .acquire l => .take l
  | .release l => .give l
  | .freeSkb => .give .skb
  | .queueSkb _ => .give .skb
  | .halt => .stop
  | _ => .plain

/-- The packet is decided on, and its events and data are delivered, by these; the others are
references, statistics of the layout and the data of regions. -/
def Effect.observable : Effect → Bool
  | .count .recvNonlinearHeader => false
  | .acquire _ | .release _ | .freeSkb | .queueSkb _ | .fillPages _ _ => false
  | _ => true

/-! ## The environment -/

def ethZlen : ℕ := 60
def omxRawRecvqLen : ℕ := 32
def omxRawPktLenMax : ℕ := 1024
def omxEndpointPullMagicXor : UInt32 := 0x21071980
def omxEvtPullDoneSuccess : UInt8 := 0
def omxEvtPullDoneAborted : UInt8 := 5

/-- Why `omx_endpoint_acquire_by_iface_index` fails: the index is too large, nothing is
attached there, or the endpoint found there is not open. -/
inductive AcquireError where
  | badIndex
  | notAttached
  | notOpen
  deriving DecidableEq, Repr

/-- `omx_endpoint_acquire_by_iface_index_error_to_nack_type`. -/
def AcquireError.nackType : AcquireError → NackType
  | .badIndex => .badEndpt
  | .notAttached | .notOpen => .endptClosed

/-- A user region or a Xen region, as far as a range of it is checked. -/
structure Region where
  nrSegments : ℕ
  totalLength : ℕ
  deriving DecidableEq, Repr

/-- A pull handle found in its slot. -/
structure PullHandle where
  xen : Bool
  handle : Pull.Handle
  /-- `handle->region` or `handle->xregion` -/
  region : Region
  libCookie : UInt64
  pullerRdmaId : UInt32
  /-- how many bytes of a packet the DMA engine takes -/
  dmaSubmitted : Skb → ℕ
  /-- how many `skb`s can be allocated for block requests -/
  allocs : ℕ
  /-- the handle when its lock is taken back after a copy -/
  afterCopy : Pull.Handle
  /-- the reference that this packet drops is the last one -/
  lastReference : Bool

/-- An endpoint that can be acquired. -/
structure Endpoint where
  xen : Bool
  boardIndex : ℕ
  endpointIndex : ℕ
  sessionId : UInt32
  /-- `omx_notify_unexp_event` finds a slot -/
  unexpRoom : Bool
  /-- the offset from `omx_prepare_notify_unexp_event_with_recvq`, if it finds a slot -/
  recvqSlot : Option ℕ
  userRegion : UInt32 → Option Region
  xenRegion : UInt32 → Option Region
  /-- `omx_pull_handle_acquire_from_slot` -/
  pullHandle : UInt32 → Option PullHandle

/-- What can be had for one pull reply: an `skb` for its header, its data appended as pages,
an `skb` for all of it. -/
structure ReplyOutcome where
  newSkb : Bool
  appendPages : Bool
  newLinearSkb : Bool
  deriving DecidableEq, Repr

structure Env where
  config : Pull.Config
  /-- `OMX_ENDIAN_COMPAT` -/
  endian : Bool
  recvq : Recvq
  /-- `skb_share_check` returns an `skb` -/
  skbShareCheck : Bool
  /-- `omx_iface_find_by_ifp` finds the interface -/
  ifaceFindByIfp : Bool
  /-- `ifp->dev_addr` -/
  devAddr : List UInt8
  checkRecvPeerIndex : UInt16 → UInt64 → Bool
  peerLookupByAddr : UInt64 → Option UInt32
  endpointAcquire : UInt8 → Except AcquireError Endpoint
  hostQueryMagic : UInt32
  rawEventListLength : ℕ
  /-- the event of a raw packet can be allocated -/
  rawEvent : Bool
  /-- the staging buffer of a medium fragment can be allocated -/
  staging : Bool
  omxDmaengine : Bool
  omxDmaSyncMin : ℕ
  omxDmaAsyncFragMin : ℕ
  omxDmaAsyncMin : ℕ
  /-- `omx_dma_chan_get` finds a channel -/
  dmaChan : Bool
  /-- how many copies of a medium fragment the DMA engine takes before it refuses one -/
  dmaRefusesAt : Option ℕ
  omxSkbCopyMax : ℕ
  /-- `omx_skb_frags` is not zero -/
  omxSkbFrags : Bool
  reply : ℕ → ReplyOutcome

/-! ## Acquiring an endpoint -/

/-- What a failed `omx_endpoint_acquire_by_iface_index` leaves: an endpoint that is not open
is let go of again. -/
def AcquireError.trace : AcquireError → Trace
  | .badIndex | .notAttached => []
  | .notOpen => [.acquire .endpoint, .release .endpoint]

/-- `goto out`. -/
def out : Trace := [.freeSkb]

/-- `goto out_with_endpoint`. -/
def outWithEndpoint : Trace := .release .endpoint :: out

/-- `omx_check_recv_peer_index`, and `k` if the peer index is right. -/
def withPeer (env : Env) (head : Recv.PktHead) (k : Trace) : Trace :=
  if env.checkRecvPeerIndex head.peerIndex head.srcAddr then k
  else .count .dropBadPeerIndex :: out

/-- `omx_endpoint_acquire_by_iface_index`, and `k` with the endpoint; `nack` is what is sent
if there is none. -/
def withEndpoint (env : Env) (dstEndpoint : UInt8) (nack : NackType → Trace)
    (k : Endpoint → Trace) : Trace :=
  match env.endpointAcquire dstEndpoint with
  | .error e => e.trace ++ .count .dropBadEndpoint :: nack e.nackType ++ out
  | .ok ep => .acquire .endpoint :: k ep

/-- The check of the session, and `k` if it is right. -/
def withSession (ep : Endpoint) (session : UInt32) (nack : NackType → Trace) (k : Trace) : Trace :=
  if session ≠ ep.sessionId then .count .dropBadSession :: nack .badSession ++ outWithEndpoint
  else k

end Xen2mx.Recvpath
