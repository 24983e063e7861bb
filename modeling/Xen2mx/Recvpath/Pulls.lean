/-
# `Xen2mx.Recvpath.Pulls` — pull requests, pull replies and their nacks

A pull request acquires the region it reads and sends the frames of a block; each frame
goes out as pages of the region, under a reference that the destructor of its `skb`
drops, or as a copy.  A pull reply and a nack acquire the pull handle they answer.

The branches for a guest differ from the others in more than the kind of region:

    native                                    guest
    the destructor releases the region        the release is commented out
    no memory for a copy: `out_with_region`   the same label, which releases `region`, not `xregion`
    the last release of a handle ends in BUG  it frees the handle
-/
import Xen2mx.Recvpath.Medium

namespace Xen2mx.Recvpath

open Word

variable (env : Env) (mh : Header) (skb : Skb)

/-! ## Pull requests -/

/-- `sizeof(struct omx_pkt_head) + sizeof(struct omx_pkt_pull_reply)`. -/
def replyHdrLen : ℕ := sizeofPktHead + sizeofPktPullReply

/-- A frame of `length` bytes is sent as pages of the region. -/
def SentAsPages (length : ℕ) : Prop :=
  env.omxSkbCopyMax < length ∧ ethZlen ≤ replyHdrLen + length ∧ env.omxSkbFrags = true

instance (length : ℕ) : Decidable (SentAsPages env length) := inferInstanceAs (Decidable (_ ∧ _ ∧ _))

/-- How the loop that sends the replies ends: all of them sent, no `skb` for the header of
one, no `skb` for the copy of one. -/
inductive Sending where
  | sent
  | noSkb
  | noLinearSkb
  deriving DecidableEq, Repr

/-- The loop of `omx_recv_pull_request` over the replies from the `i`-th on.  `lease` is the
kind of the region, and `destructor` what the destructor of an `skb` with its pages does
once the `skb` has been sent. -/
def sendReplies (lease : Lease) (destructor : Trace) (srcPullHandle srcMagic : UInt32) :
    List Pull.Reply → ℕ → Trace × Sending
  | [], _ => ([], .sent)
  | r :: rs, i =>
      let xmit := Effect.xmitPullReply r srcPullHandle srcMagic
      let outcome := env.reply i
      let rest := sendReplies lease destructor srcPullHandle srcMagic rs (i + 1)
      if SentAsPages env r.dataLength ∧ outcome.newSkb = false then
        ([.count .sendNomemSkb], .noSkb)
      else if SentAsPages env r.dataLength ∧ outcome.appendPages = true then
        (.acquire lease :: xmit :: destructor ++ rest.1, rest.2)
      else if outcome.newLinearSkb = false then
        ([.count .pullReplySendLinear, .count .sendNomemSkb], .noLinearSkb)
      else (.count .pullReplySendLinear :: xmit :: rest.1, rest.2)

/-- The destructor for a local region. -/
def sendPullReplySkbDestructor : Trace := [.release .region]

/-- The destructor for a region of a guest. -/
def xenSendPullReplySkbDestructor : Trace := []

/-- `goto out_with_region`, when `region` is set. -/
def outWithRegion : Trace := .release .region :: outWithEndpoint

/-- `goto out_with_region` from the branch for a guest, where `region` is NULL. -/
def outWithNullRegion : Trace := [.halt]

/-- What follows the loop. -/
def sendingExit : Sending → Trace
  | .sent => .release .region :: outWithEndpoint
  | .noSkb | .noLinearSkb => outWithRegion

/-- What follows the loop in the branch for a guest. -/
def xenSendingExit : Sending → Trace
  | .sent => .release .xenRegion :: outWithEndpoint
  | .noSkb => .release .xenRegion :: .release .endpoint :: out
  | .noLinearSkb => outWithNullRegion

/-- `omx_user_region_offset_cache_init` succeeds. -/
def Region.OffsetOk (r : Region) (offset length : ℕ) : Prop :=
  r.nrSegments ≠ 0 ∧ offset + length ≤ r.totalLength

/-- `omx_xen_user_region_offset_cache_init` succeeds: "it is highly unlikely to cross this
code path", with more than one segment. -/
def Region.XenOffsetOk (r : Region) (offset length : ℕ) : Prop :=
  r.OffsetOk offset length ∧ r.nrSegments ≤ 1

instance (r : Region) (offset length : ℕ) : Decidable (r.OffsetOk offset length) :=
  inferInstanceAs (Decidable (_ ∧ _))

instance (r : Region) (offset length : ℕ) : Decidable (r.XenOffsetOk offset length) :=
  inferInstanceAs (Decidable (_ ∧ _))

/-- `replies`, the number of replies that a request asks for. -/
def nrReplies (req : Pull.Request) : ℕ :=
  env.config.frames (wrap 32 (req.firstFrameOffset + req.blockLength))

/-- `current_msg_offset + pulled_rdma_offset`. -/
def pulledOffset (req : Pull.Request) : ℕ :=
  wrap 32 (Pull.blockMsgOffset env.config req + req.pulledRdmaOffset)

/-- The frames of a block. -/
def blockReplies (req : Pull.Request) : List Pull.Reply :=
  Pull.sendPullReplies env.config
    (wrap 32 (sub env.config.width env.config.replyLengthMax req.firstFrameOffset)) req.frameIndex
    (Pull.blockMsgOffset env.config req) (pulledOffset env req) req.blockLength (nrReplies env req)

/-- `omx_recv_pull_request`. -/
def omxRecvPullRequest : Trace :=
  let head := readHead env.endian mh 18
  let pkt := readPullRequest env.endian mh env.config.wireCompat
  let req := pkt.geometry
  let nack := fun type =>
    [Effect.sendNackMcp head.peerIndex type head.srcEndpoint pkt.srcPullHandle pkt.srcMagic]
  .count .recvPullReq ::
  (withPeer env head <| withEndpoint env pkt.dstEndpoint nack fun ep =>
    withSession ep pkt.session nack <|
      if env.config.replyPerBlock < nrReplies env req then
        .count .dropPullBadReplies :: outWithEndpoint
      else if ep.xen then
        match ep.xenRegion pkt.pulledRdmaId with
        | none => .count .dropPullBadRegion :: nack .badRdmawin ++ outWithEndpoint
        | some region =>
            .acquire .xenRegion ::
            if ¬ region.XenOffsetOk (pulledOffset env req) req.blockLength then
              .count .dropPullBadOffsetLength :: .release .xenRegion :: outWithEndpoint
            else
              let sending := sendReplies env .xenRegion xenSendPullReplySkbDestructor
                pkt.srcPullHandle pkt.srcMagic (blockReplies env req) 0
              sending.1 ++ xenSendingExit sending.2
      else
        match ep.userRegion pkt.pulledRdmaId with
        | none => .count .dropPullBadRegion :: nack .badRdmawin ++ outWithEndpoint
        | some region =>
            .acquire .region ::
            if ¬ region.OffsetOk (pulledOffset env req) req.blockLength then
              .count .dropPullBadOffsetLength :: outWithRegion
            else
              let sending := sendReplies env .region sendPullReplySkbDestructor
                pkt.srcPullHandle pkt.srcMagic (blockReplies env req) 0
              sending.1 ++ sendingExit sending.2)

/-! ## Pull handles -/

/-- `omx_pull_handle_release`, and what follows: the last release of a handle of a local
endpoint does not come back. -/
def omxPullHandleRelease (h : PullHandle) (k : Trace) : Trace :=
  .release .handle :: if h.lastReference = true ∧ h.xen = false then [.halt] else k

/-- `omx_pull_handle_notify`, and what follows.  It may be left to a work that waits for the
DMA engine. -/
def omxPullHandleNotify (ep : Endpoint) (h : PullHandle) (status : UInt8) (k : Trace) : Trace :=
  .notifyPullDone ep.xen h.libCookie h.pullerRdmaId status ::
  omxPullHandleRelease h (.release .endpoint :: k)

/-- `omx_endpoint_acquire_by_iface_index` and `omx_pull_handle_acquire_from_slot`, for the
endpoint and the handle of a reply or a nack, and `k` with both. -/
def withHandle (dstMagic dstPullHandle : UInt32) (k : Endpoint → PullHandle → Trace) : Trace :=
  match env.endpointAcquire (dstMagic ^^^ omxEndpointPullMagicXor).toUInt8 with
  | .error e => e.trace ++ .count .dropPullReplyBadMagicEndpoint :: out
  | .ok ep =>
      .acquire .endpoint ::
      match ep.pullHandle dstPullHandle with
      | none => .count .dropPullReplyBadWireHandle :: outWithEndpoint
      | some h => .acquire .handle :: k ep h

/-! ## Pull replies -/

/-- The reply that a packet carries. -/
def PktPullReply.reply (pkt : PktPullReply) : Pull.Reply :=
  { frameSeqnum := pkt.frameSeqnum.toNat, frameLength := pkt.frameLength.toNat
    msgOffset := pkt.msgOffset.toNat, dataLength := skb.len - replyHdrLen, regionOffset := 0 }

/-- A reply of `length` bytes is given to the DMA engine. -/
def ReplyOffloaded (h : PullHandle) (length : ℕ) : Prop :=
  env.omxDmaengine = true ∧ env.omxDmaAsyncFragMin ≤ length ∧
    env.omxDmaAsyncMin ≤ h.handle.totalLength ∧ env.dmaChan = true

instance (h : PullHandle) (length : ℕ) : Decidable (ReplyOffloaded env h length) :=
  inferInstanceAs (Decidable (_ ∧ _ ∧ _ ∧ _))

/-- What the offset cache checks for the engine. -/
def PullHandle.OffsetOk (h : PullHandle) (offset length : ℕ) : Prop :=
  if h.xen = true then h.region.XenOffsetOk offset length else h.region.OffsetOk offset length

instance (h : PullHandle) (offset length : ℕ) : Decidable (h.OffsetOk offset length) := by
  unfold PullHandle.OffsetOk
  infer_instance

/-- `omx_pull_handle_reply_try_dma_copy` and its counterpart for a guest: what is left to
copy, and whether the `skb` has been queued. -/
def tryDmaCopy (h : PullHandle) (msgOffset length : ℕ) : ℤ × Bool :=
  if ReplyOffloaded env h length then
    -- the error of the offset cache is returned like a length
    if ¬ h.OffsetOk msgOffset length then (-1, false)
    else
      let submitted := min (h.dmaSubmitted skb) length
      ((length : ℤ) - submitted, decide (0 < submitted))
  else (length, false)

/-- Why a reply is dropped by a handle whose status is OK. -/
def replyDrop (h : Pull.Handle) (r : Pull.Reply) : Option Counter :=
  let offset := Pull.frameSeqnumOffset h r
  if env.config.frames r.msgOffset ≠ wrap 32 (h.frameIndex + offset) then
    some .dropPullReplyBadSeqnumWraparound
  else if h.nrRequestedFrames ≤ offset then some .dropPullReplyBadSeqnum
  else if (h.blockDesc (offset / env.config.replyPerBlock)).framesMissingBitmap.testBit
      (offset % env.config.replyPerBlock) then none
  else some .dropPullReplyDuplicate

/-- The requests sent by `omx_progress_pull_on_recv_pull_reply_locked`. -/
def replyRequests (h : PullHandle) (r : Pull.Reply) : Trace :=
  ((Pull.recvPullReply env.config h.handle r h.allocs).elim [] Prod.snd).map .xmitPullRequest

/-- "handle is done": nothing is missing once the count of copies is taken back. -/
def PullHandle.Done (h : PullHandle) : Prop :=
  h.afterCopy.remainingLength = 0 ∧ h.afterCopy.nrMissingFrames = 0 ∧
    sub 32 h.afterCopy.hostCopyNrFrames 1 = 0

instance (h : PullHandle) : Decidable h.Done := inferInstanceAs (Decidable (_ ∧ _ ∧ _))

/-- The end of `omx_recv_pull_reply` once its frame is accepted: `remaining` bytes are left
to copy, and `k` is the label `out`. -/
def finishReply (ep : Endpoint) (h : PullHandle) (msgOffset length : ℕ) (remaining : ℤ)
    (k : Trace) : Trace :=
  (if remaining ≠ 0 then [.fillPages msgOffset length] else []) ++
    if remaining ≠ 0 ∧ h.region.totalLength < msgOffset + length then
      -- `omx_pull_handle_mark_completed` starts with a BUG_ON of the status
      .count .pullReplyFillFailed ::
      if h.afterCopy.status ≠ .ok then [.halt]
      else
        .markCompleted omxEvtPullDoneAborted :: omxPullHandleNotify ep h omxEvtPullDoneAborted k
    else if h.afterCopy.status ≠ .ok then omxPullHandleRelease h (.release .endpoint :: k)
    else if h.Done then
      .markCompleted omxEvtPullDoneSuccess :: omxPullHandleNotify ep h omxEvtPullDoneSuccess k
    else omxPullHandleRelease h (.release .endpoint :: k)

/-- `omx_recv_pull_reply`. -/
def omxRecvPullReply : Trace :=
  let pkt := readPullReply env.endian mh
  let length := pkt.frameLength.toNat
  let msgOffset := pkt.msgOffset.toNat
  let r := pkt.reply skb
  .count .recvPullReply ::
  if sub 64 skb.len replyHdrLen < length then .count .dropBadSkblen :: out
  else
    withHandle env pkt.dstMagic pkt.dstPullHandle fun ep h =>
      if h.handle.status ≠ .ok then omxPullHandleRelease h outWithEndpoint
      else
        match replyDrop env h.handle r with
        | some c => .count c :: omxPullHandleRelease h outWithEndpoint
        | none =>
            let (remaining, queued) := tryDmaCopy env skb h msgOffset length
            -- `free_skb`
            let out := if remaining = length then out else []
            (if queued then [.queueSkb .dmaCopySkbQueue] else []) ++ replyRequests env h r ++
              finishReply ep h msgOffset length remaining out

/-! ## Nacks of a pull -/

/-- `omx_recv_nack_mcp`. -/
def omxRecvNackMcp : Trace :=
  let head := readHead env.endian mh 17
  let pkt := readNackMcp env.endian mh
  .count .recvNackMcp ::
  withNackPeer env head fun _ =>
    withHandle env pkt.srcMagic pkt.srcPullHandle fun ep h =>
      if h.handle.status ≠ .ok then omxPullHandleRelease h outWithEndpoint
      else .markCompleted pkt.nackType :: omxPullHandleNotify ep h pkt.nackType out

end Xen2mx.Recvpath
