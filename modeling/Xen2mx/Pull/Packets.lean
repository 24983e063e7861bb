/-
# `Xen2mx.Pull.Packets` — pull requests, pull replies and the checks on them

The three places that compute the geometry of a pull: the puller fills a block
request from a descriptor (`omx_fill_pull_block_request`), the replier cuts the
block into frames (`omx_recv_pull_request`), and the puller decides which frame a
reply is (`omx_recv_pull_reply`).
-/
import Xen2mx.Pull.Handle

namespace Xen2mx.Pull

open Word

/-- The fields of `struct omx_pkt_pull_request` that the replier computes with. -/
structure Request where
  blockLength : ℕ
  firstFrameOffset : ℕ
  pulledRdmaOffset : ℕ
  frameIndex : ℕ
  deriving DecidableEq, Repr

/-- `struct omx_pkt_pull_reply`; `dataLength` is what follows the header, and
`regionOffset` where in the pulled region it was read. -/
structure Reply where
  frameSeqnum : ℕ
  frameLength : ℕ
  msgOffset : ℕ
  dataLength : ℕ
  regionOffset : ℕ
  deriving DecidableEq, Repr

variable (c : Config)

/-- The width of the lengths and offsets of a request on the wire. -/
def Config.wireWidth : ℕ := if c.wireCompat then 16 else 32

/-- `omx_fill_pull_block_request`, over the header prepared by
`omx_pull_handle_pkt_hdr_fill`. -/
def fillPullBlockRequest (h : Handle) (i : ℕ) : Request :=
  { blockLength := wrap c.wireWidth (h.blockDesc i).blockLength
    firstFrameOffset := wrap c.wireWidth (h.blockDesc i).firstFrameOffset
    pulledRdmaOffset := wrap c.wireWidth h.pulledRdmaOffset
    frameIndex := (h.blockDesc i).frameIndex }

/-! ## The replier -/

/-- The loop of `omx_recv_pull_request` that sends `n` more replies.  `limit` is the
room in the next frame; only the first frame of a block may begin inside. -/
def sendPullReplies (limit seqnum msgOffset regionOffset blockRemainingLength : ℕ) :
    ℕ → List Reply
  | 0 => []
  | n + 1 =>
      let frameLength := min limit blockRemainingLength
      { frameSeqnum := wrap 8 seqnum
        frameLength := wrap 16 frameLength
        msgOffset
        dataLength := frameLength
        regionOffset } ::
      sendPullReplies c.replyLengthMax (seqnum + 1) (wrap 32 (msgOffset + frameLength))
        (regionOffset + frameLength) (blockRemainingLength - frameLength) n

/-- `current_msg_offset` at the start of a block. -/
def blockMsgOffset (req : Request) : ℕ :=
  wrap 32 (sub c.width (wrap c.width (req.frameIndex * c.replyLengthMax))
    (req.pulledRdmaOffset % c.replyLengthMax) + req.firstFrameOffset)

/-- What `omx_recv_pull_request` does with a block request it accepts: where it
starts reading the region, and the replies. -/
structure Served where
  regionOffset : ℕ
  replies : List Reply
  deriving DecidableEq, Repr

/-- `omx_recv_pull_request` on a region of `regionLength` contiguous bytes. -/
def recvPullRequest (regionLength : ℕ) (req : Request) : Option Served :=
  let replies := c.frames (wrap 32 (req.firstFrameOffset + req.blockLength))
  if c.replyPerBlock < replies then none
  else
    let currentMsgOffset := blockMsgOffset c req
    let regionOffset := wrap 32 (currentMsgOffset + req.pulledRdmaOffset)
    -- omx_xen_user_region_offset_cache_init
    if regionLength < regionOffset + req.blockLength then none
    else
      some {
        regionOffset
        replies := sendPullReplies c (wrap 32 (sub c.width c.replyLengthMax req.firstFrameOffset))
          req.frameIndex currentMsgOffset regionOffset req.blockLength replies }

/-! ## The puller, on a reply -/

/-- `frame_seqnum_offset`. -/
def frameSeqnumOffset (h : Handle) (r : Reply) : ℕ :=
  (r.frameSeqnum + 256 - h.frameIndex % 256) % 256

/-- The checks of `omx_recv_pull_reply` on a handle whose status is OK: the block
descriptor and the frame of the block that the reply brings, if it is not dropped. -/
def checkPullReply (h : Handle) (r : Reply) : Option (ℕ × ℕ) :=
  if r.dataLength < r.frameLength then none
  else if c.frames r.msgOffset ≠ wrap 32 (h.frameIndex + frameSeqnumOffset h r) then none
  else if h.nrRequestedFrames ≤ frameSeqnumOffset h r then none
  else
    let idesc := frameSeqnumOffset h r / c.replyPerBlock
    let frame := frameSeqnumOffset h r % c.replyPerBlock
    if (h.blockDesc idesc).framesMissingBitmap.testBit frame then some (idesc, frame) else none

/-- Marking the frame as received. -/
def receiveFrame (h : Handle) (idesc frame : ℕ) : Handle :=
  { h with
    blockDesc := fun i =>
      if i = idesc then
        { h.blockDesc i with
          framesMissingBitmap := (h.blockDesc i).framesMissingBitmap &&&
            ((2 ^ c.replyPerBlock - 1) ^^^ (1 <<< frame)) }
      else h.blockDesc i
    nrMissingFrames := sub 32 h.nrMissingFrames 1 }

end Xen2mx.Pull
