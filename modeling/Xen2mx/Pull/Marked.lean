/-
# `Xen2mx.Pull.Marked` — what the bitmaps of a pull say

The frames received are a record of the run: a reply that finds the handle in use, with a frame in
`[frame_index, next_frame_index)`, brings this frame, whether it is dropped as a duplicate or not.
`BlockDescs` compares the handle with the record: the bitmaps of the valid descriptors are the
frames that are missing, the others are empty, and the two counters count.

    valid descriptor         bit `j`  ⟺  its frame `j` was requested and not received
    other descriptor         no bit
    `nr_missing_frames`      requested and not received
    `nr_requested_frames`    requested

The replies may be any: nothing is assumed of who sends them.

**Proved here.**

    what every section keeps                                          (`Marked.next`)
    the handle agrees with the record in every state of a run
        ⟺  the descriptors start empty, and whenever the first
            block is done the last is too or there are new ones       (`blockDescs_iff`)
    `kmalloc` leaves a bit in the fourth descriptor, or a block goes
    down at the end of a message                                      (`blockDescs_garbage`)
-/
import Mathlib.Order.Interval.Finset.Nat
import Xen2mx.Pull.Descs
import Xen2mx.Pull.Received

namespace Xen2mx.Pull

open Word

variable {c : Config} {p : CmdPull}

/-! ## Frames that arrive -/

/-- The checks of `omx_recv_pull_reply` before the one for duplicates. -/
def InWindow (c : Config) (h : Handle) (r : Reply) : Prop :=
  r.frameLength ≤ r.dataLength ∧
    c.frames r.msgOffset = wrap 32 (h.frameIndex + frameSeqnumOffset h r) ∧
    frameSeqnumOffset h r < h.nrRequestedFrames

instance (h : Handle) (r : Reply) : Decidable (InWindow c h r) := by
  unfold InWindow
  infer_instance

theorem checkPullReply_eq_some {h : Handle} {r : Reply} {idesc frame : ℕ} :
    checkPullReply c h r = some (idesc, frame) ↔
      InWindow c h r ∧ (h.blockDesc idesc).framesMissingBitmap.testBit frame = true ∧
        frameSeqnumOffset h r / c.replyPerBlock = idesc ∧
        frameSeqnumOffset h r % c.replyPerBlock = frame := by
  rw [checkPullReply, Option.ite_none_left_eq_some, Option.ite_none_left_eq_some,
    Option.ite_none_left_eq_some, InWindow, not_lt, not_not, not_le, and_assoc, and_assoc]
  refine and_congr_right fun _ => and_congr_right fun _ => and_congr_right fun _ => ?_
  rw [Option.ite_none_right_eq_some, Option.some.injEq, Prod.mk.injEq]
  constructor
  · rintro ⟨hbit, rfl, rfl⟩
    exact ⟨hbit, rfl, rfl⟩
  · rintro ⟨hbit, rfl, rfl⟩
    exact ⟨hbit, rfl, rfl⟩

/-- What a section adds to the frames received. -/
def State.noteFrame (c : Config) (s : State) (a : Action) (R : Finset ℕ) : Finset ℕ :=
  match a with
  | .recvReply r _ _ =>
      if s.handle.status = .ok ∧ InWindow c s.handle r then insert (c.frames r.msgOffset) R else R
  | _ => R

/-- The machine of a pull, with the frames that it received. -/
def receivingMachine (c : Config) (e : Env) (start : State) : Machine (State × Finset ℕ) Action :=
  (pullMachine c e start).recording ∅ (State.noteFrame c)

/-- The handle says which of the frames that were requested are not in `R`. -/
structure BlockDescs (c : Config) (h : Handle) (R : Finset ℕ) : Prop where
  valid : ∀ i < h.nrValidBlockDescs, ∀ j,
    (h.blockDesc i).framesMissingBitmap.testBit j = true ↔
      j < c.replyPerBlock ∧ h.frameIndex + i * c.replyPerBlock + j < h.nextFrameIndex ∧
        h.frameIndex + i * c.replyPerBlock + j ∉ R
  invalid : Cleared h
  missing : h.nrMissingFrames = (Finset.Ico h.frameIndex h.nextFrameIndex \ R).card
  requested : h.nrRequestedFrames = (Finset.Ico h.frameIndex h.nextFrameIndex).card

/-! ## What every section keeps -/

variable (c p) in
/-- A valid descriptor has no bits but those of the frames of its block. -/
def NoTail (b nv : ℕ) (h : Handle) : Prop :=
  ∀ i < nv, ∀ j, p.blockFrame c (b + i + 1) ≤ p.blockFrame c (b + i) + j →
    (h.blockDesc i).framesMissingBitmap.testBit j = false

variable (c p) in
/-- The handle dropped `b` blocks, requested `nv` more, and the frames `R` arrived. -/
structure Marked (b nv : ℕ) (R : Finset ℕ) (h : Handle) : Prop where
  received : Received c p b nv R h
  pos : 1 ≤ b + nv
  noTail : NoTail c p b nv h

theorem NoTail.append {b nv : ℕ} {h : Handle} (hshift : p.frameCount c = 0 → c.overshift = 0)
    (g : Geo c p b nv h) (hin : p.InPull c (b + nv)) (hn : NoTail c p b nv h) :
    NoTail c p b (nv + 1) (pullHandleAppendNeededFrames c h (p.blockLength c (b + nv))
      (p.blockOffset c (b + nv))) := by
  intro i hi j hj
  rw [append_blockDesc, g.valid]
  rcases Nat.lt_succ_iff_lt_or_eq.1 hi with hlt | rfl
  · rw [if_neg hlt.ne]
    exact hn i hlt j hj
  · rw [if_pos rfl, CmdPull.frames_block]
    dsimp only
    have hle := CmdPull.blockFrame_succ_le (c := c) (p := p) (b + i)
    rcases Nat.eq_zero_or_pos (p.blockFrame c (b + i + 1) - p.blockFrame c (b + i)) with hnone | hsome
    · -- only an empty pull has a block without frames
      have hcount : p.frameCount c = 0 := by
        have hP := c.replyPerBlock_pos
        have hsucc : (b + i + 1) * c.replyPerBlock = (b + i) * c.replyPerBlock + c.replyPerBlock :=
          Nat.succ_mul ..
        simp only [CmdPull.blockFrame, hsucc] at hnone
        rcases hin with hzero | hlt
        · rw [hzero, Nat.zero_mul] at hnone
          omega
        · omega
      rw [hnone, frameMask, if_pos rfl, hshift hcount, Nat.zero_testBit]
    · rw [testBit_frameMask hsome (by omega)]
      exact decide_eq_false (by omega)

theorem NoTail.firstBlockDone {b nv : ℕ} {h : Handle} (g : Geo c p b (nv + 1) h)
    (hnv : nv < blockDescsNr) (hn : NoTail c p b (nv + 1) h) :
    NoTail c p (b + 1) nv (pullHandleFirstBlockDone c h) := by
  intro i hi j hj
  rw [firstBlockDone_bitmap_of_lt (by rw [g.valid]; exact hi) (by rw [g.valid]; exact hnv)]
  exact hn (i + 1) (by omega) j (by rwa [show b + (i + 1) = b + 1 + i by omega])

theorem NoTail.receiveFrame {b nv idesc frame : ℕ} {h : Handle} (hn : NoTail c p b nv h) :
    NoTail c p b nv (receiveFrame c h idesc frame) := by
  intro i hi j hj
  unfold Pull.receiveFrame
  dsimp only
  split
  · rw [Nat.testBit_and, hn i hi j hj, Bool.false_and]
  · exact hn i hi j hj

namespace Marked

variable {b nv : ℕ} {R : Finset ℕ} {h : Handle}

theorem withLife (hm : Marked c p b nv R h) (st : Status) (rerequested copies : ℕ) :
    Marked c p b nv R
      { h with
        status := st
        alreadyRerequestedBlocks := rerequested
        hostCopyNrFrames := copies } :=
  ⟨hm.received.withLife .., hm.pos, hm.noTail⟩

theorem prepareNextBlocks (hshift : p.frameCount c = 0 → c.overshift = 0)
    (hr : Received c p b nv R h) (hn : NoTail c p b nv h) (hpos : 1 ≤ b + nv) :
    ∃ nv', nv ≤ nv' ∧ Marked c p b nv' R (prepareNextBlocks c h) ∧
      (nv' = blockDescsNr ∨ (Pull.prepareNextBlocks c h).remainingLength = 0) := by
  obtain ⟨nv', hle, -, -, ⟨hr', hn'⟩, hfull⟩ := hr.geo.prepareNextBlocks
    (I := fun nv h => Received c p b nv R h ∧ NoTail c p b nv h)
    (fun nv h g hlt hin ⟨hr, hn⟩ => ⟨hr.append hlt (.inr hin), hn.append hshift g (.inr hin)⟩)
    hpos hr.le ⟨hr, hn⟩
  exact ⟨nv', hle, ⟨hr', by omega, hn'⟩, hfull⟩

theorem start (hshift : p.frameCount c = 0 → c.overshift = 0) (mem : ℕ → BlockDesc) :
    ∃ nv, 1 ≤ nv ∧ Marked c p 0 nv ∅
        (ioctlPullBlocks c (pullHandleCreate mem p.totalLength p.pulledRdmaOffset)) ∧
      (nv = blockDescsNr ∨ (ioctlPullBlocks c
        (pullHandleCreate mem p.totalLength p.pulledRdmaOffset)).remainingLength = 0) := by
  have hcreate := Received.create (c := c) (p := p) mem
  have hr := hcreate.append (by decide) (.inl rfl)
  have hn : NoTail c p 0 0 (pullHandleCreate mem p.totalLength p.pulledRdmaOffset) := by
    intro i hi
    cases hi
  obtain ⟨nv, hnv, hm, hfull⟩ :=
    prepareNextBlocks hshift hr (hn.append hshift hcreate.geo (.inl rfl)) (by omega)
  have hblocks : ioctlPullBlocks c (pullHandleCreate mem p.totalLength p.pulledRdmaOffset)
      = Pull.prepareNextBlocks c (pullHandleAppendNeededFrames c
        (pullHandleCreate mem p.totalLength p.pulledRdmaOffset) (p.blockLength c (0 + 0))
        (p.blockOffset c (0 + 0))) := by
    rw [Nat.add_zero, ← CmdPull.min_firstBlock]
    rfl
  rw [hblocks]
  exact ⟨nv, by omega, hm, hfull⟩

theorem firstBlockDone (hm : Marked c p b (nv + 1) R h)
    (hdone : (h.blockDesc 0).framesMissingBitmap = 0) :
    Marked c p (b + 1) nv R (pullHandleFirstBlockDone c h) :=
  ⟨hm.received.firstBlockDone hdone, by omega, hm.noTail.firstBlockDone hm.received.geo hm.received.le⟩

theorem dropDoneBlocks (hm : Marked c p b nv R h) (n : ℕ) :
    ∃ b' nv', b' + nv' = b + nv ∧ Marked c p b' nv' R ((dropDoneBlock c)^[n] h) := by
  induction n generalizing b nv h with
  | zero => exact ⟨b, nv, rfl, hm⟩
  | succ n ih =>
      rw [Function.iterate_succ_apply]
      obtain ⟨-, hsame⟩ | ⟨hvalid, hdone, hdrop⟩ := dropDoneBlock_cases (c := c) h
      · rw [hsame]
        exact ih hm
      · rw [hm.received.geo.valid] at hvalid
        obtain ⟨nv, rfl⟩ := Nat.exists_eq_succ_of_ne_zero hvalid
        obtain ⟨b', nv', hsum, hm'⟩ := ih (hm.firstBlockDone hdone)
        rw [hdrop]
        exact ⟨b', nv', by omega, hm'⟩

/-- A reply in the window is one of a frame of a valid block. -/
theorem inWindow (hm : Marked c p b nv R h) {r : Reply} (hin : InWindow c h r) :
    frameSeqnumOffset h r / c.replyPerBlock < nv ∧
      p.blockFrame c (b + frameSeqnumOffset h r / c.replyPerBlock)
          + frameSeqnumOffset h r % c.replyPerBlock = c.frames r.msgOffset ∧
      c.frames r.msgOffset
        < p.blockFrame c (b + frameSeqnumOffset h r / c.replyPerBlock + 1) := by
  obtain ⟨-, hframes, hoffset⟩ := hin
  have hg := hm.received.geo
  have hlt := CmdPull.blockFrame_lt (c := c) (p := p) (b + nv)
  generalize frameSeqnumOffset h r = off at *
  rw [hg.requested] at hoffset
  rw [hg.frameIndex, wrap_of_lt (by omega)] at hframes
  -- the window is not empty, so its blocks before the last are full
  have hfirst : p.blockFrame c b = b * c.replyPerBlock := by
    simp only [CmdPull.blockFrame] at hoffset ⊢
    omega
  have hend : p.blockFrame c b + off < p.blockFrame c (b + nv) := by omega
  obtain ⟨i, hi, hlo, hhi⟩ := CmdPull.exists_block (Nat.le_add_right _ _) hend
  have hblock : p.blockFrame c (b + i) = b * c.replyPerBlock + i * c.replyPerBlock := by
    have hmul : (b + i) * c.replyPerBlock = b * c.replyPerBlock + i * c.replyPerBlock :=
      Nat.add_mul ..
    have hcount := CmdPull.blockFrame_le (c := c) (p := p) (b + i + 1)
    simp only [CmdPull.blockFrame, hmul] at hlo hhi hcount ⊢
    omega
  have hlast := CmdPull.blockFrame_succ_le (c := c) (p := p) (b + i)
  have hdiv : off / c.replyPerBlock = i := by
    refine Nat.div_eq_of_lt_le ?_ ?_
    · omega
    · rw [Nat.succ_mul]
      omega
  have hsplit := Nat.div_add_mod off c.replyPerBlock
  rw [hdiv, Nat.mul_comm] at hsplit
  rw [hdiv, hframes]
  exact ⟨hi, by omega, hhi⟩

/-- A reply in the window brings a frame that is missing exactly when its bit is set. -/
theorem testBit_iff (hm : Marked c p b nv R h) {r : Reply} (hin : InWindow c h r) :
    (h.blockDesc (frameSeqnumOffset h r / c.replyPerBlock)).framesMissingBitmap.testBit
        (frameSeqnumOffset h r % c.replyPerBlock) = true ↔ c.frames r.msgOffset ∉ R := by
  obtain ⟨hi, hframe, hend⟩ := hm.inWindow hin
  rw [hm.received.bits _ hi _ (hframe ▸ hend), hframe]

/-- Marking the frame of a reply. -/
theorem receiveFrame (hm : Marked c p b nv R h) {r : Reply} {idesc frame : ℕ}
    (hcheck : checkPullReply c h r = some (idesc, frame)) :
    idesc < nv ∧ Marked c p b nv (insert (c.frames r.msgOffset) R)
      (Pull.receiveFrame c h idesc frame) := by
  obtain ⟨hin, hbit, rfl, rfl⟩ := checkPullReply_eq_some.1 hcheck
  obtain ⟨hi, hframe, hend⟩ := hm.inWindow hin
  have hnew := (hm.testBit_iff hin).1 hbit
  refine ⟨hi, ?_, hm.pos, hm.noTail.receiveFrame⟩
  rw [← hframe] at hend hnew ⊢
  exact hm.received.receiveFrame hi hend hnew

/-- Dropping the blocks that are done, and requesting the next ones. -/
theorem requestNextBlocks (hshift : p.frameCount c = 0 → c.overshift = 0)
    (hm : Marked c p b (nv + 1) R h) (hdone : (h.blockDesc 0).framesMissingBitmap = 0)
    (allocs : ℕ) :
    ∃ b' nv' nv'', Marked c p b' nv' R
        ((dropDoneBlock c)^[blockDescsNr - 1] (pullHandleFirstBlockDone c h)) ∧
      Marked c p b' nv'' R (requestNextBlocks c h allocs).1 ∧ nv' ≤ nv'' ∧
      (nv'' = blockDescsNr ∨ (Pull.requestNextBlocks c h allocs).1.remainingLength = 0) := by
  obtain ⟨b', nv', -, hm'⟩ := (hm.firstBlockDone hdone).dropDoneBlocks (blockDescsNr - 1)
  obtain ⟨nv'', hle, hm'', hfull⟩ := prepareNextBlocks hshift hm'.received hm'.noTail hm'.pos
  rw [requestNextBlocks_fst]
  exact ⟨b', nv', nv'', hm', hm'', hle, hfull⟩

/-- The block requests that follow a reply. -/
theorem progress (hshift : p.frameCount c = 0 → c.overshift = 0) (hm : Marked c p b nv R h)
    {idesc : ℕ} (hi : idesc < nv) (allocs : ℕ) :
    ∃ b' nv', Marked c p b' nv' R (progressPullOnRecvPullReply c h idesc allocs).1 := by
  unfold progressPullOnRecvPullReply
  split
  · split
    · exact ⟨b, nv, hm.withLife _ _ _⟩
    · exact ⟨b, nv, hm⟩
  · rename_i hdone
    obtain ⟨nv, rfl⟩ := Nat.exists_eq_succ_of_ne_zero (Nat.ne_of_gt (Nat.zero_lt_of_lt hi))
    obtain ⟨b', -, nv'', -, hm'', -⟩ := hm.requestNextBlocks hshift (not_not.1 hdone) allocs
    exact ⟨b', nv'', hm''⟩

/-- The handle says which frames are missing, if the other descriptors are empty. -/
theorem blockDescs_iff_cleared (hm : Marked c p b nv R h) : BlockDescs c h R ↔ Cleared h := by
  have hg := hm.received.geo
  refine ⟨BlockDescs.invalid, fun hcleared => ⟨?_, hcleared, ?_, ?_⟩⟩
  · intro i hi j
    rw [hg.valid] at hi
    have hfirst : p.blockFrame c (b + i) = p.blockFrame c b + i * c.replyPerBlock := by
      have hmul : (b + i) * c.replyPerBlock = b * c.replyPerBlock + i * c.replyPerBlock :=
        Nat.add_mul ..
      rcases hg.inside i hi with hzero | hin
      · obtain ⟨rfl, rfl⟩ : b = 0 ∧ i = 0 := by omega
        rw [Nat.zero_mul]
        rfl
      · simp only [CmdPull.blockFrame, hmul] at hin ⊢
        omega
    have hnext : p.blockFrame c (b + i + 1) ≤ p.blockFrame c (b + nv) :=
      CmdPull.blockFrame_mono (by omega)
    have hlast := CmdPull.blockFrame_succ_le (c := c) (p := p) (b + i)
    rw [hg.frameIndex, hg.next, ← hfirst]
    constructor
    · intro hbit
      have hend : p.blockFrame c (b + i) + j < p.blockFrame c (b + i + 1) := by
        by_contra hge
        rw [hm.noTail i hi j (Nat.le_of_not_lt hge)] at hbit
        cases hbit
      exact ⟨by omega, by omega, (hm.received.bits i hi j hend).1 hbit⟩
    · rintro ⟨hj, hend, hmiss⟩
      refine (hm.received.bits i hi j ?_).2 hmiss
      have hcount := CmdPull.blockFrame_le (c := c) (p := p) (b + nv)
      have hsucc : (b + i + 1) * c.replyPerBlock = (b + i) * c.replyPerBlock + c.replyPerBlock :=
        Nat.succ_mul ..
      simp only [CmdPull.blockFrame, hsucc] at hend hcount ⊢
      omega
  · have hsum := hm.received.missing
    have hold : Finset.Ico (p.blockFrame c b) (p.blockFrame c (b + nv)) \ R
        = Finset.range (p.blockFrame c (b + nv)) \ R := by
      ext f
      simp only [Finset.mem_sdiff, Finset.mem_Ico, Finset.mem_range]
      refine ⟨fun h => ⟨h.1.2, h.2⟩, fun h => ⟨⟨?_, h.1⟩, h.2⟩⟩
      exact Nat.le_of_not_lt fun hlt => h.2 (hm.received.dropped f hlt)
    have hsub : R ⊆ Finset.range (p.blockFrame c (b + nv)) := fun f hf =>
      Finset.mem_range.2 (hm.received.lt f hf)
    rw [hg.frameIndex, hg.next, hold, Finset.card_sdiff_of_subset hsub, Finset.card_range]
    omega
  · rw [hg.requested, hg.frameIndex, hg.next, Nat.card_Ico]

end Marked

/-! ## The sections -/

/-- The sections that receive no reply leave the blocks alone. -/
theorem next_handle_of_not_reply {e : Env} {s : State} {a : Action}
    (ha : ∀ r dma allocs, a ≠ .recvReply r dma allocs) :
    ∃ st rerequested copies, (s.next c e a).handle = { s.handle with
      status := st
      alreadyRerequestedBlocks := rerequested
      hostCopyNrFrames := copies } := by
  cases a with
  | recvReply r dma allocs => exact absurd rfl (ha r dma allocs)
  | hostCopy r =>
      refine ⟨s.handle.status, s.handle.alreadyRerequestedBlocks, s.handle.hostCopyNrFrames, ?_⟩
      show (s.hostCopy e.regionLength r).handle = s.handle
      unfold State.hostCopy
      dsimp only
      split <;> rfl
  | finishCopy =>
      show ∃ st rerequested copies, s.finishCopy.handle = _
      unfold State.finishCopy State.markCompleted
      repeat' split
      all_goals exact ⟨_, _, _, rfl⟩
  | finishFailed r =>
      show ∃ st rerequested copies, (s.finishFailed r).handle = _
      unfold State.finishFailed State.markCompleted
      split
      all_goals exact ⟨_, _, _, rfl⟩
  | dmaDone r => exact ⟨_, _, _, rfl⟩
  | nack t =>
      show ∃ st rerequested copies, (s.nack t).handle = _
      unfold State.nack State.markCompleted
      repeat' split
      all_goals exact ⟨_, _, _, rfl⟩
  | timer expired allocs =>
      show ∃ st rerequested copies, (s.timer c expired allocs).handle = _
      unfold State.timer
      split
      · split
        all_goals exact ⟨_, _, _, rfl⟩
      · split
        · unfold State.markCompleted
          split
          all_goals exact ⟨_, _, _, rfl⟩
        · split
          all_goals exact ⟨_, _, _, rfl⟩
  | endpointClose =>
      show ∃ st rerequested copies, s.endpointClose.handle = _
      unfold State.endpointClose
      split
      all_goals exact ⟨_, _, _, rfl⟩
  | delTimer =>
      show ∃ st rerequested copies, s.delTimer.handle = _
      unfold State.delTimer
      repeat' split
      all_goals exact ⟨_, _, _, rfl⟩
  | notify => exact ⟨_, _, _, rfl⟩

/-- A reply that is dropped leaves the handle alone, -/
theorem recvReply_handle_of_none {s : State} {r : Reply} {dma : Bool} {allocs : ℕ}
    (hdrop : s.handle.status = .ok → checkPullReply c s.handle r = none) :
    (s.recvReply c r dma allocs).handle = s.handle := by
  unfold State.recvReply
  split
  · rfl
  · rename_i hstatus
    rw [recvPullReply, hdrop (not_not.1 hstatus)]
    rfl

/-- and one that is not marks its frame and may request blocks. -/
theorem recvReply_handle_of_some {s : State} {r : Reply} {idesc frame : ℕ} (dma : Bool)
    (allocs : ℕ) (hok : s.handle.status = .ok) (hcheck : checkPullReply c s.handle r = some (idesc, frame)) :
    ∃ copies, (s.recvReply c r dma allocs).handle = (progressPullOnRecvPullReply c
      { receiveFrame c s.handle idesc frame with hostCopyNrFrames := copies } idesc allocs).1 := by
  rw [State.recvReply, if_neg (not_not.2 hok), recvPullReply, hcheck]
  refine ⟨wrap 32 ((receiveFrame c s.handle idesc frame).hostCopyNrFrames + 1), ?_⟩
  dsimp only [Option.map_some]
  split
  · rfl
  · split <;> rfl

/-- The frames that a section receives are marked. -/
theorem Marked.next (hshift : p.frameCount c = 0 → c.overshift = 0) {e : Env} {b nv : ℕ}
    {R : Finset ℕ} {s : State} (hm : Marked c p b nv R s.handle) (a : Action) :
    ∃ b' nv', Marked c p b' nv' (s.noteFrame c a R) (s.next c e a).handle := by
  by_cases ha : ∀ r dma allocs, a ≠ .recvReply r dma allocs
  · have hnote : s.noteFrame c a R = R := by
      cases a with
      | recvReply r dma allocs => exact absurd rfl (ha r dma allocs)
      | _ => rfl
    obtain ⟨st, rerequested, copies, hhandle⟩ := next_handle_of_not_reply (c := c) (e := e) ha
    rw [hnote, hhandle]
    exact ⟨b, nv, hm.withLife _ _ _⟩
  · simp only [not_forall, not_not] at ha
    obtain ⟨r, dma, allocs, rfl⟩ := ha
    show ∃ b' nv', Marked c p b' nv' (s.noteFrame c _ R) (s.recvReply c r dma allocs).handle
    by_cases hin : s.handle.status = .ok ∧ InWindow c s.handle r
    · obtain ⟨hok, hin⟩ := hin
      have hnote : s.noteFrame c (.recvReply r dma allocs) R = insert (c.frames r.msgOffset) R :=
        if_pos ⟨hok, hin⟩
      rw [hnote]
      cases hcheck : checkPullReply c s.handle r with
      | none =>
          -- a duplicate
          have hmem : c.frames r.msgOffset ∈ R := by
            by_contra hmiss
            have hsome := checkPullReply_eq_some.2 ⟨hin, (hm.testBit_iff hin).2 hmiss, rfl, rfl⟩
            rw [hcheck] at hsome
            cases hsome
          rw [recvReply_handle_of_none fun _ => hcheck, Finset.insert_eq_of_mem hmem]
          exact ⟨b, nv, hm⟩
      | some place =>
          obtain ⟨idesc, frame⟩ := place
          obtain ⟨hi, hm'⟩ := hm.receiveFrame hcheck
          obtain ⟨copies, hhandle⟩ := recvReply_handle_of_some dma allocs hok hcheck
          rw [hhandle]
          exact (hm'.withLife _ _ copies).progress hshift hi allocs
    · have hnote : s.noteFrame c (.recvReply r dma allocs) R = R := if_neg hin
      rw [hnote, recvReply_handle_of_none fun hok => ?_]
      · exact ⟨b, nv, hm⟩
      · cases hcheck : checkPullReply c s.handle r with
        | none => rfl
        | some place => exact absurd ⟨hok, (checkPullReply_eq_some.1 hcheck).1⟩ hin

/-! ## Descriptors that stay empty -/

variable (c) in
/-- If the first block is done, the last valid one is done too, or new blocks are appended up to the
third place. -/
def Refilled (h : Handle) : Prop :=
  (h.blockDesc 0).framesMissingBitmap = 0 →
    (h.blockDesc (h.nrValidBlockDescs - 1)).framesMissingBitmap = 0 ∨
      min h.nrValidBlockDescs (blockDescsNr - 1) + doneBlocks h
        ≤ h.nrValidBlockDescs + blocksLeft c h

variable (c) in
/-- So it is when a reply is received. -/
def RefilledInTime (s : State) : Action → Prop
  | .recvReply r _ _ => s.handle.status = .ok → ∀ place ∈ checkPullReply c s.handle r,
      Refilled c (receiveFrame c s.handle place.1 place.2)
  | _ => True

instance (h : Handle) : Decidable (Refilled c h) := by
  unfold Refilled
  infer_instance

instance (s : State) : DecidablePred (RefilledInTime c s)
  | .recvReply r _ _ =>
      inferInstanceAs (Decidable (s.handle.status = .ok → ∀ place ∈ checkPullReply c s.handle r,
        Refilled c (receiveFrame c s.handle place.1 place.2)))
  | .hostCopy _ | .finishCopy | .finishFailed _ | .dmaDone _ | .nack _ | .timer ..
  | .endpointClose | .delTimer | .notify =>
      inferInstanceAs (Decidable True)

theorem Cleared.receiveFrame {h : Handle} {idesc frame : ℕ} (hcleared : Cleared h)
    (hi : idesc < h.nrValidBlockDescs) : Cleared (receiveFrame c h idesc frame) := by
  intro i hge hnr
  have hge : h.nrValidBlockDescs ≤ i := hge
  have hne : i ≠ idesc := by omega
  simp only [Pull.receiveFrame, if_neg hne]
  exact hcleared i hge hnr

/-- The descriptors that are not valid stay empty exactly if they are refilled. -/
theorem refilledInTime_iff {e : Env} {b nv : ℕ} {R : Finset ℕ} {s : State}
    (hm : Marked c p b nv R s.handle) (hcleared : Cleared s.handle) (a : Action) :
    RefilledInTime c s a ↔ Cleared (s.next c e a).handle := by
  by_cases ha : ∀ r dma allocs, a ≠ .recvReply r dma allocs
  · have hcond : RefilledInTime c s a := by
      cases a with
      | recvReply r dma allocs => exact absurd rfl (ha r dma allocs)
      | _ => trivial
    obtain ⟨st, rerequested, copies, hhandle⟩ := next_handle_of_not_reply (c := c) (e := e) ha
    rw [hhandle]
    exact iff_of_true hcond hcleared
  · simp only [not_forall, not_not] at ha
    obtain ⟨r, dma, allocs, rfl⟩ := ha
    show _ ↔ Cleared (s.recvReply c r dma allocs).handle
    by_cases hdrop : s.handle.status = .ok → checkPullReply c s.handle r = none
    · rw [recvReply_handle_of_none hdrop]
      refine iff_of_true (fun hok place hplace => ?_) hcleared
      rw [hdrop hok] at hplace
      cases hplace
    · obtain ⟨hok, hsome⟩ := Classical.not_imp.1 hdrop
      obtain ⟨⟨idesc, frame⟩, hcheck⟩ := Option.ne_none_iff_exists'.1 hsome
      obtain ⟨hi, hm'⟩ := hm.receiveFrame hcheck
      obtain ⟨copies, hhandle⟩ := recvReply_handle_of_some dma allocs hok hcheck
      have hcond : RefilledInTime c s (.recvReply r dma allocs) ↔
          Refilled c (Pull.receiveFrame c s.handle idesc frame) := by
        show (s.handle.status = .ok → ∀ place ∈ checkPullReply c s.handle r, _) ↔ _
        rw [hcheck]
        exact ⟨fun h => h hok (idesc, frame) rfl, fun h _ place hplace => by
          cases hplace
          exact h⟩
      have hvalid := hm'.received.geo.valid
      have hle := hm'.received.le
      have hcleared' : Cleared (Pull.receiveFrame c s.handle idesc frame) :=
        hcleared.receiveFrame (hm.received.geo.valid.symm ▸ hi)
      rw [hcond, hhandle, progressPullOnRecvPullReply]
      dsimp only
      split
      · rename_i hmiss
        refine iff_of_true (fun hdone => absurd hdone hmiss) ?_
        split
        · exact hcleared'
        · exact hcleared'
      · rename_i hdone
        have hrem : (Pull.receiveFrame c s.handle idesc frame).remainingLength < 2 ^ 32 := by
          have hT := p.totalLength_lt
          have hgeo := hm'.received.geo.remaining
          omega
        refine (imp_iff_right (not_not.1 hdone)).trans (Iff.symm ?_)
        exact cleared_requestNextBlocks_iff (h := { Pull.receiveFrame c s.handle idesc frame with
          hostCopyNrFrames := copies }) hcleared' (by
            show (Pull.receiveFrame c s.handle idesc frame).nrValidBlockDescs ≠ 0
            omega) (by
            show (Pull.receiveFrame c s.handle idesc frame).nrValidBlockDescs ≤ _
            omega) (not_not.1 hdone) hrem allocs

/-! ## The start -/

variable (c p) in
/-- A pull without frames is not shifted into bits, and the last descriptor, which is not cleared,
is used at once or was empty before. -/
def StartsEmpty (mem : ℕ → BlockDesc) : Prop :=
  (p.frameCount c = 0 → c.overshift = 0) ∧
    ((blockDescsNr - 1) * c.replyPerBlock < p.frameCount c ∨
      (mem (blockDescsNr - 1)).framesMissingBitmap = 0)

instance (mem : ℕ → BlockDesc) : Decidable (StartsEmpty c p mem) := by
  unfold StartsEmpty
  infer_instance

theorem behind_start (mem : ℕ → BlockDesc) (length off : ℕ) :
    Behind (fun i => if i < blockDescsNr - 1 then 0 else (mem i).framesMissingBitmap)
      (ioctlPullBlocks c (pullHandleCreate mem length off)) := by
  refine Behind.prepareNextBlocks (Behind.append fun i _ _ => ?_)
  simp only [pullHandleCreate]
  split <;> rfl

/-- A pull without frames has one descriptor, with the mask of no frames. -/
theorem bitmap_start_of_empty (hcount : p.frameCount c = 0) (mem : ℕ → BlockDesc) :
    ((ioctlPullBlocks c (pullHandleCreate mem p.totalLength p.pulledRdmaOffset)).blockDesc
      0).framesMissingBitmap = c.overshift := by
  have hpos := c.replyLengthMax_pos
  have hsum : p.off c + p.totalLength = 0 := (pieces_eq_zero_iff hpos).1 hcount
  have hoff : p.pulledRdmaOffset % c.replyLengthMax = 0 := (Nat.add_eq_zero_iff.1 hsum).1
  have hlen : p.totalLength = 0 := (Nat.add_eq_zero_iff.1 hsum).2
  have hframes : c.frames (wrap 32 (0 + 0)) = 0 := by
    have hmax := c.replyLengthMax_lt
    have hwidth := c.two_pow_width_le
    rw [Nat.add_zero, wrap_of_lt (by decide), c.frames_of_lt (by omega)]
    exact (pieces_eq_zero_iff hpos).2 rfl
  have hstop : ∀ h : Handle, h.remainingLength = 0 → prepareNextBlocks c h = h := by
    intro h hrem
    have hturn : appendNextBlock c h = h := if_neg fun hgo => hgo.2 hrem
    exact Function.iterate_fixed hturn _
  rw [ioctlPullBlocks, hstop]
  · show frameMask c (c.frames (wrap 32 (p.pulledRdmaOffset % c.replyLengthMax
      + min _ p.totalLength))) = _
    rw [hoff, hlen, Nat.min_zero, hframes, frameMask, if_pos rfl]
  · rw [append_remainingLength]
    show sub 32 p.totalLength (min _ p.totalLength) = 0
    rw [hlen, Nat.min_zero]
    rfl

theorem blockDescs_start_iff (mem : ℕ → BlockDesc) :
    BlockDescs c (ioctlPullBlocks c (pullHandleCreate mem p.totalLength p.pulledRdmaOffset)) ∅ ↔
      StartsEmpty c p mem := by
  by_cases hshift : p.frameCount c = 0 → c.overshift = 0
  · obtain ⟨nv, hnv, hm, hfull⟩ := Marked.start hshift mem
    have hg := hm.received.geo
    have hle := hm.received.le
    have hbehind := behind_start (c := c) mem p.totalLength p.pulledRdmaOffset
    rw [hm.blockDescs_iff_cleared, StartsEmpty, and_iff_right hshift]
    constructor
    · intro hcleared
      refine or_iff_not_imp_right.2 fun hne => ?_
      have hall : nv = blockDescsNr := by
        by_contra hlt
        have hlast := hcleared (blockDescsNr - 1) (by rw [hg.valid]; omega) (by decide)
        rw [hbehind _ (by rw [hg.valid]; omega) (by decide)] at hlast
        dsimp only at hlast
        rw [if_neg (lt_irrefl _)] at hlast
        exact hne hlast
      rcases hg.inside (blockDescsNr - 1) (by rw [hall]; decide) with hzero | hin
      · cases hzero
      · rwa [Nat.zero_add] at hin
    · intro hstart i hi hnr
      rw [hg.valid] at hi
      rw [hbehind i (by rw [hg.valid]; exact hi) hnr]
      dsimp only
      split
      · rfl
      · obtain rfl : i = blockDescsNr - 1 := by omega
        refine hstart.resolve_left fun hcount => ?_
        -- all blocks are requested, so there are no more than three
        have hrem := hfull.resolve_left (by omega)
        have hpos : 0 < (0 + nv) * c.replyPerBlock := Nat.mul_pos (by omega) c.replyPerBlock_pos
        have hgeo := hg.remaining
        have hcut := CmdPull.cut_le (c := c) (p := p) ((0 + nv) * c.replyPerBlock)
        have hframes := (CmdPull.cut_eq_totalLength_iff (c := c) (p := p) hpos).1 (by omega)
        have hmul : (0 + nv) * c.replyPerBlock ≤ (blockDescsNr - 1) * c.replyPerBlock :=
          Nat.mul_le_mul_right _ (by omega)
        omega
  · obtain ⟨hcount, hne⟩ := Classical.not_imp.1 hshift
    refine iff_of_false (fun hdescs => ?_) fun hstart => hshift hstart.1
    obtain ⟨nv, hnv, hr⟩ := Received.start (c := c) (p := p) mem
    obtain ⟨j, hbit⟩ := Nat.exists_testBit_of_ne_zero hne
    have hframe := (hdescs.valid 0 (by rw [hr.geo.valid]; omega) j).1
      (by rw [bitmap_start_of_empty hcount]; exact hbit)
    have hle := CmdPull.blockFrame_le (c := c) (p := p) (0 + nv)
    rw [hr.geo.next] at hframe
    omega

/-! ## The result -/

/-- For every pull and every run of its sections, with any replies: the handle agrees with the
frames that it requested and received, in all states of the run, exactly when the descriptors start
empty, and whenever the first block is done the last is too or there are new ones. -/
theorem blockDescs_iff (c : Config) (e : Env) (p : CmdPull) (mem : ℕ → BlockDesc) (allocs : ℕ)
    (as : List Action) {s : State}
    (h : (pullMachine c e (ioctlPull c mem p.totalLength p.pulledRdmaOffset allocs)).exec
      (ioctlPull c mem p.totalLength p.pulledRdmaOffset allocs) as = some s) :
    (∀ bs, bs <+: as → ∀ t,
        (receivingMachine c e (ioctlPull c mem p.totalLength p.pulledRdmaOffset allocs)).exec
          (ioctlPull c mem p.totalLength p.pulledRdmaOffset allocs, ∅) bs = some t →
        BlockDescs c t.1.handle t.2) ↔
      StartsEmpty c p mem ∧
        (pullMachine c e (ioctlPull c mem p.totalLength p.pulledRdmaOffset allocs)).Meets
          (RefilledInTime c) (ioctlPull c mem p.totalLength p.pulledRdmaOffset allocs) as := by
  by_cases hstart : StartsEmpty c p mem
  · rw [and_iff_right hstart, Machine.meets_of_exec h, ← Machine.meets_recording
      (b := ∅) (f := State.noteFrame c)
      (p := (ioctlPull c mem p.totalLength p.pulledRdmaOffset allocs, ∅))]
    obtain ⟨nv, -, hm, -⟩ := Marked.start (p := p) hstart.1 mem
    have hcleared := hm.blockDescs_iff_cleared.1 ((blockDescs_start_iff mem).2 hstart)
    refine (Machine.meets_iff_forall_prefix
      (I := fun t : State × Finset ℕ =>
        (∃ b nv, Marked c p b nv t.2 t.1.handle) ∧ Cleared t.1.handle)
      (B := fun t => BlockDescs c t.1.handle t.2) ?_ ?_ ?_ ⟨⟨0, nv, hm⟩, hcleared⟩).symm
    · rintro ⟨s, R⟩ a ⟨s', R'⟩ ⟨⟨b, nv, hm⟩, hcleared⟩ hok hstep
      obtain ⟨hstep, hnote⟩ := Machine.recording_step.1 hstep
      dsimp only at hstep hnote
      have hok := hok s' hstep
      obtain ⟨-, rfl⟩ := (pullMachine_step ..).1 hstep
      exact ⟨hnote ▸ hm.next hstart.1 a, (refilledInTime_iff hm hcleared a).1 hok⟩
    · rintro ⟨s, R⟩ ⟨⟨b, nv, hm⟩, hcleared⟩
      exact hm.blockDescs_iff_cleared.2 hcleared
    · rintro ⟨s, R⟩ a ⟨⟨b, nv, hm⟩, hcleared⟩
      have hsame : ∀ s' ∈ (pullMachine c e
          (ioctlPull c mem p.totalLength p.pulledRdmaOffset allocs)).step s a,
          RefilledInTime c s a ↔ BlockDescs c s'.handle (s.noteFrame c a R) := by
        intro s' hstep
        obtain ⟨-, rfl⟩ := (pullMachine_step ..).1 hstep
        obtain ⟨b', nv', hm'⟩ := hm.next hstart.1 (e := e) a
        rw [hm'.blockDescs_iff_cleared]
        exact refilledInTime_iff hm hcleared a
      constructor
      · rintro hok ⟨s', R'⟩ hstep
        obtain ⟨hstep, hnote⟩ := Machine.recording_step.1 hstep
        dsimp only at hstep hnote
        exact hnote ▸ (hsame s' hstep).1 (hok s' hstep)
      · intro hdescs s' hstep
        exact (hsame s' hstep).2 (hdescs (s', _) (Machine.recording_step.2 ⟨hstep, rfl⟩))
  · refine iff_of_false (fun hdescs => hstart ?_) fun hcond => hstart hcond.1
    exact (blockDescs_start_iff mem).1 (hdescs [] List.nil_prefix _ rfl)

/-- A pull of two frames, which come in the wrong order, and one of them again. -/
def swappedFrames : List Action :=
  [.recvReply ⟨1, 1032, 8968, 1032, 8968⟩ true 1, .recvReply ⟨1, 1032, 8968, 1032, 8968⟩ true 1,
    .timer false 4, .finishCopy, .recvReply ⟨0, 8968, 0, 8968, 0⟩ true 1, .finishCopy]

theorem blockDescs_iff_swappedFrames :
    ∃ t, (receivingMachine defaultConfig ⟨fun _ _ => true, 10000⟩
          (ioctlPull defaultConfig (fun _ => ⟨0, 0, 0, 0⟩) 10000 0 1)).exec
        (ioctlPull defaultConfig (fun _ => ⟨0, 0, 0, 0⟩) 10000 0 1, ∅) swappedFrames = some t ∧
      BlockDescs defaultConfig t.1.handle t.2 := by
  obtain ⟨s, hs⟩ : ∃ s, (pullMachine defaultConfig ⟨fun _ _ => true, 10000⟩
      (ioctlPull defaultConfig (fun _ => ⟨0, 0, 0, 0⟩) 10000 0 1)).exec
      (ioctlPull defaultConfig (fun _ => ⟨0, 0, 0, 0⟩) 10000 0 1) swappedFrames = some s :=
    Option.isSome_iff_exists.1 (by decide +kernel)
  obtain ⟨t, ht⟩ : ∃ t, (receivingMachine defaultConfig ⟨fun _ _ => true, 10000⟩
      (ioctlPull defaultConfig (fun _ => ⟨0, 0, 0, 0⟩) 10000 0 1)).exec
      (ioctlPull defaultConfig (fun _ => ⟨0, 0, 0, 0⟩) 10000 0 1, ∅) swappedFrames = some t :=
    Option.isSome_iff_exists.1 (by decide +kernel)
  exact ⟨t, ht, (blockDescs_iff defaultConfig ⟨fun _ _ => true, 10000⟩
    ⟨10000, 0, by decide, by decide⟩ (fun _ => ⟨0, 0, 0, 0⟩) 1 swappedFrames hs).2
      (by decide +kernel) swappedFrames List.prefix_rfl t ht⟩

/-- A pull of two blocks, of which the second is one byte.  The first is received and the second
goes down: it is asked for in its old place too. -/
theorem blockDescs_goneDown :
    ∃ t, (receivingMachine mxWireConfig ⟨fun _ _ => true, 40000⟩
          (ioctlPull mxWireConfig (fun _ => ⟨0, 0, 0, 0⟩) 32769 0 1)).exec
        (ioctlPull mxWireConfig (fun _ => ⟨0, 0, 0, 0⟩) 32769 0 1, ∅)
        ((List.range 8).map fun i => .recvReply ⟨i, 4096, i * 4096, 4096, 0⟩ true 1) = some t ∧
      t.1.handle.nrValidBlockDescs = 1 ∧ (t.1.handle.blockDesc 1).framesMissingBitmap ≠ 0 ∧
      ¬ BlockDescs mxWireConfig t.1.handle t.2 := by
  have hrun : ((receivingMachine mxWireConfig ⟨fun _ _ => true, 40000⟩
        (ioctlPull mxWireConfig (fun _ => ⟨0, 0, 0, 0⟩) 32769 0 1)).exec
      (ioctlPull mxWireConfig (fun _ => ⟨0, 0, 0, 0⟩) 32769 0 1, ∅)
      ((List.range 8).map fun i => .recvReply ⟨i, 4096, i * 4096, 4096, 0⟩ true 1)).map
        (fun t => (t.1.handle.nrValidBlockDescs, (t.1.handle.blockDesc 1).framesMissingBitmap))
      = some (1, 1) := by decide +kernel
  obtain ⟨t, ht, hfields⟩ := Option.map_eq_some_iff.1 hrun
  obtain ⟨hvalid, hbitmap⟩ := Prod.mk.inj hfields
  have hbit : (t.1.handle.blockDesc 1).framesMissingBitmap ≠ 0 := by
    rw [hbitmap]
    exact Nat.one_ne_zero
  exact ⟨t, ht, hvalid, hbit, fun hdescs => hbit (hdescs.invalid 1 hvalid.le (by decide))⟩

/-- What `kmalloc` leaves in the last descriptor of a pull of one block stays there. -/
theorem blockDescs_garbage :
    ¬ BlockDescs defaultConfig
      (ioctlPull defaultConfig (fun _ => ⟨0, 0, 0, 1⟩) 10000 0 1).handle ∅ := by
  intro hdescs
  have hlast := hdescs.invalid 3 (by decide +kernel) (by decide)
  revert hlast
  decide +kernel

end Xen2mx.Pull
