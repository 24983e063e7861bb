/-
# `Xen2mx.Pull.Handle` — the pull handle and its blocks

A pull asks a remote node for `total_length` bytes.  The puller requests them in
blocks of at most `OMX_PULL_REPLY_PER_BLOCK` frames and keeps up to
`OMX_PULL_BLOCK_DESCS_NR` blocks in flight; each block has a descriptor with a
bitmap of its missing frames.  This module is the part of `omx_pull.c` that
counts frames and moves descriptors.

Frames are aligned on the remote region: frame 0 is the rest of the frame that
`pulled_rdma_offset` falls in, and every later frame is full, the last one apart.
-/
import Mathlib.Logic.Function.Iterate
import Xen2mx.Lib.Word

namespace Xen2mx.Pull

open Word

/-! ## Build-time constants -/

/-- What `configure` decides.  `OMX_PULL_REPLY_LENGTH_MAX` is by default computed
from the MTU with `sizeof`, which makes every expression it occurs in 64 bits
wide; a length given to `configure`, and the 4096 of the MX wire format, are plain
integers and leave them at 32 bits.  The frame bitmap has one bit for each frame
of a block. -/
structure Config where
  replyLengthMax : ℕ
  replyPerBlock : ℕ
  wide : Bool
  wireCompat : Bool
  /-- `((omx_block_frame_bitmask_t) -1) >> OMX_PULL_REPLY_PER_BLOCK`, which C leaves
  undefined for the wider bitmasks. -/
  overshift : ℕ
  replyLengthMax_pos : 0 < replyLengthMax
  /-- `frame_length` has 16 bits on the wire. -/
  replyLengthMax_lt : replyLengthMax < 2 ^ 16
  replyPerBlock_mem : replyPerBlock ∈ [8, 16, 32, 64]
  wireCompat_eq : wireCompat = true → replyLengthMax = 4096 ∧ replyPerBlock = 8 ∧ wide = false

/-- Frames of an MTU of 9000 bytes, less the headers of 32 bytes; 32 frames to a block. -/
def defaultConfig : Config :=
  { replyLengthMax := 8968, replyPerBlock := 32, wide := true, wireCompat := false, overshift := 0
    replyLengthMax_pos := by decide
    replyLengthMax_lt := by decide
    replyPerBlock_mem := by decide
    wireCompat_eq := nofun }

/-- The MX wire format: frames of a page, 8 to a block. -/
def mxWireConfig : Config :=
  { replyLengthMax := 4096, replyPerBlock := 8, wide := false, wireCompat := true, overshift := 0
    replyLengthMax_pos := by decide
    replyLengthMax_lt := by decide
    replyPerBlock_mem := by decide
    wireCompat_eq := fun _ => ⟨rfl, rfl, rfl⟩ }

namespace Config

variable (c : Config)

/-- The width of an expression in which `OMX_PULL_REPLY_LENGTH_MAX` occurs. -/
def width : ℕ := if c.wide then 64 else 32

/-- `OMX_PULL_BLOCK_LENGTH_MAX`. -/
def blockLengthMax : ℕ := c.replyLengthMax * c.replyPerBlock

/-- The frames that `x` bytes reach into: `(x + OMX_PULL_REPLY_LENGTH_MAX - 1) /
OMX_PULL_REPLY_LENGTH_MAX`. -/
def frames (x : ℕ) : ℕ := wrap c.width (x + c.replyLengthMax - 1) / c.replyLengthMax

theorem replyPerBlock_pos : 0 < c.replyPerBlock := by
  have h := c.replyPerBlock_mem
  simp only [List.mem_cons, List.not_mem_nil, or_false] at h
  omega

theorem replyPerBlock_le : c.replyPerBlock ≤ 64 := by
  have h := c.replyPerBlock_mem
  simp only [List.mem_cons, List.not_mem_nil, or_false] at h
  omega

theorem blockLengthMax_pos : 0 < c.blockLengthMax :=
  Nat.mul_pos c.replyLengthMax_pos c.replyPerBlock_pos

theorem blockLengthMax_lt : c.blockLengthMax < 2 ^ 22 :=
  calc c.replyLengthMax * c.replyPerBlock
      ≤ c.replyLengthMax * 64 := Nat.mul_le_mul_left _ c.replyPerBlock_le
    _ < 2 ^ 16 * 64 := Nat.mul_lt_mul_of_pos_right c.replyLengthMax_lt (by decide)

theorem le_width : 32 ≤ c.width := by
  unfold width
  split <;> decide

theorem two_pow_width_le : 2 ^ 32 ≤ 2 ^ c.width := Nat.pow_le_pow_right (by decide) c.le_width

/-- Far from the top of the word the count is exact. -/
theorem frames_of_lt {x : ℕ} (h : x + c.replyLengthMax ≤ 2 ^ c.width) :
    c.frames x = (x + c.replyLengthMax - 1) / c.replyLengthMax := by
  have hpos := c.replyLengthMax_pos
  rw [frames, wrap_of_lt (by omega)]

end Config

/-! ## The handle -/

/-- `struct omx_pull_block_desc`. -/
structure BlockDesc where
  frameIndex : ℕ
  blockLength : ℕ
  firstFrameOffset : ℕ
  framesMissingBitmap : ℕ
  deriving DecidableEq, Repr

/-- `enum omx_pull_handle_status`. -/
inductive Status where
  | ok
  | timerMustExit
  | timerExited
  deriving DecidableEq, Repr

/-- `OMX_PULL_BLOCK_DESCS_NR`. -/
def blockDescsNr : ℕ := 4

/-- The fields of `struct omx_pull_handle` that the protocol reads.  `blockDesc`
is the array of descriptors, of which the first `OMX_PULL_BLOCK_DESCS_NR` exist. -/
structure Handle where
  totalLength : ℕ
  pulledRdmaOffset : ℕ
  status : Status
  remainingLength : ℕ
  frameIndex : ℕ
  nextFrameIndex : ℕ
  nrRequestedFrames : ℕ
  nrMissingFrames : ℕ
  nrValidBlockDescs : ℕ
  alreadyRerequestedBlocks : ℕ
  blockDesc : ℕ → BlockDesc
  hostCopyNrFrames : ℕ

variable (c : Config)

/-- The mask of the first `n` frames of a block. -/
def frameMask (n : ℕ) : ℕ :=
  if n = 0 then c.overshift else (2 ^ c.replyPerBlock - 1) >>> (c.replyPerBlock - n)

/-- `omx_pull_handle_create`, over the memory `mem` that `kmalloc` returned: the
loop over the bitmaps stops one descriptor short. -/
def pullHandleCreate (mem : ℕ → BlockDesc) (length pulledRdmaOffset : ℕ) : Handle :=
  { totalLength := length
    pulledRdmaOffset
    status := .ok
    remainingLength := length
    frameIndex := 0
    nextFrameIndex := 0
    nrRequestedFrames := 0
    nrMissingFrames := 0
    nrValidBlockDescs := 0
    alreadyRerequestedBlocks := 0
    blockDesc := fun i =>
      if i < blockDescsNr - 1 then { mem i with framesMissingBitmap := 0 } else mem i
    hostCopyNrFrames := 0 }

/-- `omx_pull_handle_append_needed_frames`. -/
def pullHandleAppendNeededFrames (h : Handle) (blockLength firstFrameOffset : ℕ) : Handle :=
  let newFrames := c.frames (wrap 32 (firstFrameOffset + blockLength))
  let desc : BlockDesc :=
    { frameIndex := h.nextFrameIndex
      blockLength
      firstFrameOffset
      framesMissingBitmap := frameMask c newFrames }
  { h with
    blockDesc := fun i => if i = h.nrValidBlockDescs then desc else h.blockDesc i
    nrRequestedFrames := wrap 32 (h.nrRequestedFrames + newFrames)
    nrMissingFrames := wrap 32 (h.nrMissingFrames + newFrames)
    nextFrameIndex := wrap 32 (h.nextFrameIndex + newFrames)
    remainingLength := sub 32 h.remainingLength blockLength
    nrValidBlockDescs := h.nrValidBlockDescs + 1 }

section
variable (h : Handle) (len off : ℕ)

@[simp] theorem append_totalLength :
    (pullHandleAppendNeededFrames c h len off).totalLength = h.totalLength := rfl

@[simp] theorem append_pulledRdmaOffset :
    (pullHandleAppendNeededFrames c h len off).pulledRdmaOffset = h.pulledRdmaOffset := rfl

@[simp] theorem append_status :
    (pullHandleAppendNeededFrames c h len off).status = h.status := rfl

@[simp] theorem append_frameIndex :
    (pullHandleAppendNeededFrames c h len off).frameIndex = h.frameIndex := rfl

@[simp] theorem append_nextFrameIndex :
    (pullHandleAppendNeededFrames c h len off).nextFrameIndex =
      wrap 32 (h.nextFrameIndex + c.frames (wrap 32 (off + len))) := rfl

@[simp] theorem append_nrRequestedFrames :
    (pullHandleAppendNeededFrames c h len off).nrRequestedFrames =
      wrap 32 (h.nrRequestedFrames + c.frames (wrap 32 (off + len))) := rfl

@[simp] theorem append_nrMissingFrames :
    (pullHandleAppendNeededFrames c h len off).nrMissingFrames =
      wrap 32 (h.nrMissingFrames + c.frames (wrap 32 (off + len))) := rfl

@[simp] theorem append_remainingLength :
    (pullHandleAppendNeededFrames c h len off).remainingLength =
      sub 32 h.remainingLength len := rfl

@[simp] theorem append_nrValidBlockDescs :
    (pullHandleAppendNeededFrames c h len off).nrValidBlockDescs = h.nrValidBlockDescs + 1 := rfl

@[simp] theorem append_hostCopyNrFrames :
    (pullHandleAppendNeededFrames c h len off).hostCopyNrFrames = h.hostCopyNrFrames := rfl

theorem append_blockDesc (i : ℕ) :
    (pullHandleAppendNeededFrames c h len off).blockDesc i =
      if i = h.nrValidBlockDescs then
        { frameIndex := h.nextFrameIndex, blockLength := len, firstFrameOffset := off
          framesMissingBitmap := frameMask c (c.frames (wrap 32 (off + len))) }
      else h.blockDesc i := rfl

end

/-- `omx_pull_handle_first_block_done`. -/
def pullHandleFirstBlockDone (h : Handle) : Handle :=
  let firstBlockFrames := min h.nrRequestedFrames c.replyPerBlock
  let nrValidBlockDescs := h.nrValidBlockDescs - 1
  let moved := fun i => if i < nrValidBlockDescs then h.blockDesc (i + 1) else h.blockDesc i
  { h with
    frameIndex := wrap 32 (h.frameIndex + firstBlockFrames)
    nrRequestedFrames := sub 32 h.nrRequestedFrames firstBlockFrames
    nrValidBlockDescs
    alreadyRerequestedBlocks := h.alreadyRerequestedBlocks - 1
    blockDesc := fun i =>
      if i = blockDescsNr - 1 then { moved i with framesMissingBitmap := 0 } else moved i }

/-- One turn of the loop that prepares the next blocks, in `omx_ioctl_pull` and in
`omx_progress_pull_on_recv_pull_reply_locked`. -/
def appendNextBlock (h : Handle) : Handle :=
  if h.nrValidBlockDescs < blockDescsNr ∧ h.remainingLength ≠ 0 then
    pullHandleAppendNeededFrames c h (min c.blockLengthMax h.remainingLength) 0
  else h

/-- "prepare as many new blocks as needed": each turn uses up a descriptor, so
`OMX_PULL_BLOCK_DESCS_NR` turns run the loop to its end. -/
def prepareNextBlocks (h : Handle) : Handle := (appendNextBlock c)^[blockDescsNr] h

/-- The blocks that `omx_ioctl_pull` prepares. -/
def ioctlPullBlocks (h : Handle) : Handle :=
  let pulledRdmaOffsetInFrame := h.pulledRdmaOffset % c.replyLengthMax
  let blockLength := min (c.blockLengthMax - pulledRdmaOffsetInFrame) h.remainingLength
  prepareNextBlocks c (pullHandleAppendNeededFrames c h blockLength pulledRdmaOffsetInFrame)

end Xen2mx.Pull
