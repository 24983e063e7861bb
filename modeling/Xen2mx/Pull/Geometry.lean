/-
# `Xen2mx.Pull.Geometry` — where the frames and blocks of a pull lie

The geometry in its own terms, before any word width: a pull of `T` bytes that
starts `off` bytes into a frame is cut at the points `cut f`, the first byte of
frame `f`.  `Geo b nv h` says that a handle is `b` blocks into the pull with `nv`
blocks requested; the operations of the handle move it from one such state to
the next, and the replier's loop emits the frames between two cut points.
-/
import Mathlib.Order.MinMax
import Xen2mx.Lib.Tiling
import Xen2mx.Pull.Packets

namespace Xen2mx.Pull

open Word

/-! ## Counting frames -/

/-- Frames of `L` bytes needed for `x` bytes, and nothing rounds. -/
theorem ceil_le_iff {L x n : ℕ} (hL : 0 < L) : (x + L - 1) / L ≤ n ↔ x ≤ n * L := by
  rw [← Nat.lt_succ_iff, Nat.div_lt_iff_lt_mul hL, Nat.succ_mul]
  omega

theorem lt_ceil_iff {L x n : ℕ} (hL : 0 < L) : n < (x + L - 1) / L ↔ n * L < x := by
  rw [← not_le, ceil_le_iff hL, not_le]

theorem ceil_min_mul {L x p : ℕ} (hL : 0 < L) :
    (min (p * L) x + L - 1) / L = min p ((x + L - 1) / L) := by
  refine eq_of_forall_ge_iff fun n => ?_
  rw [ceil_le_iff hL, min_le_iff, min_le_iff, ceil_le_iff hL, Nat.mul_le_mul_right_iff hL]

theorem ceil_sub_mul {L x p : ℕ} (hL : 0 < L) :
    (x - p * L + L - 1) / L = (x + L - 1) / L - p := by
  refine eq_of_forall_ge_iff fun n => ?_
  rw [ceil_le_iff hL, Nat.sub_le_iff_le_add, Nat.sub_le_iff_le_add, ceil_le_iff hL, Nat.add_mul]

/-! ## A pull -/

/-- The fields of `struct omx_cmd_pull` that say what is pulled: both have 32 bits. -/
structure CmdPull where
  totalLength : ℕ
  pulledRdmaOffset : ℕ
  totalLength_lt : totalLength < 2 ^ 32
  pulledRdmaOffset_lt : pulledRdmaOffset < 2 ^ 32

variable (c : Config) (p : CmdPull)

/-- The bytes of the first frame that lie before the pull. -/
def CmdPull.off : ℕ := p.pulledRdmaOffset % c.replyLengthMax

/-- The frames of the pull. -/
def CmdPull.frameCount : ℕ := (p.off c + p.totalLength + c.replyLengthMax - 1) / c.replyLengthMax

/-- The first byte of frame `f`. -/
def CmdPull.cut (f : ℕ) : ℕ := min (f * c.replyLengthMax - p.off c) p.totalLength

/-- The first frame of block `b`, or the number of frames if there is none. -/
def CmdPull.blockFrame (b : ℕ) : ℕ := min (b * c.replyPerBlock) (p.frameCount c)

variable {c p}

theorem CmdPull.off_lt : p.off c < c.replyLengthMax := Nat.mod_lt _ c.replyLengthMax_pos

@[simp] theorem CmdPull.cut_zero : p.cut c 0 = 0 := by simp [CmdPull.cut]

theorem CmdPull.cut_mono : Monotone (p.cut c) := by
  intro i j hij
  have hmul : i * c.replyLengthMax ≤ j * c.replyLengthMax := Nat.mul_le_mul_right _ hij
  simp only [CmdPull.cut]
  omega

theorem CmdPull.cut_le (f : ℕ) : p.cut c f ≤ p.totalLength := Nat.min_le_right _ _

/-- The cuts end where the frames do. -/
theorem CmdPull.cut_of_frameCount_le {f : ℕ} (h : p.frameCount c ≤ f) :
    p.cut c f = p.totalLength := by
  have hle := (ceil_le_iff c.replyLengthMax_pos).1 h
  simp only [CmdPull.cut]
  omega

/-- Inside the pull a cut is not capped. -/
theorem CmdPull.cut_of_lt_frameCount {f : ℕ} (h : f < p.frameCount c) :
    p.cut c f = f * c.replyLengthMax - p.off c := by
  have hlt := (lt_ceil_iff c.replyLengthMax_pos).1 h
  simp only [CmdPull.cut]
  omega

theorem CmdPull.cut_blockFrame (b : ℕ) : p.cut c (p.blockFrame c b) = p.cut c (b * c.replyPerBlock) := by
  rcases Nat.le_total (b * c.replyPerBlock) (p.frameCount c) with hle | hle
  · rw [CmdPull.blockFrame, Nat.min_eq_left hle]
  · rw [CmdPull.blockFrame, Nat.min_eq_right hle, CmdPull.cut_of_frameCount_le le_rfl,
      CmdPull.cut_of_frameCount_le hle]

/-- Nothing remains after `b` blocks exactly when they hold all frames. -/
theorem CmdPull.cut_eq_totalLength_iff {f : ℕ} (hf : 0 < f) :
    p.cut c f = p.totalLength ↔ p.frameCount c ≤ f := by
  refine ⟨fun h => ?_, CmdPull.cut_of_frameCount_le⟩
  have hoff := CmdPull.off_lt (c := c) (p := p)
  have hmul : c.replyLengthMax ≤ f * c.replyLengthMax := Nat.le_mul_of_pos_left _ hf
  rw [CmdPull.frameCount, ceil_le_iff c.replyLengthMax_pos]
  simp only [CmdPull.cut] at h
  omega

theorem CmdPull.frameCount_lt : p.frameCount c < 2 ^ 32 := by
  have hL := c.replyLengthMax_pos
  have hoff := CmdPull.off_lt (c := c) (p := p)
  have hT := p.totalLength_lt
  rw [CmdPull.frameCount, Nat.div_lt_iff_lt_mul hL]
  obtain ⟨k, hk⟩ : ∃ k, c.replyLengthMax = k + 1 := ⟨c.replyLengthMax - 1, by omega⟩
  rw [hk, Nat.mul_succ]
  omega

theorem CmdPull.blockFrame_le (b : ℕ) : p.blockFrame c b ≤ p.frameCount c := Nat.min_le_right _ _

theorem CmdPull.blockFrame_lt (b : ℕ) : p.blockFrame c b < 2 ^ 32 :=
  (CmdPull.blockFrame_le b).trans_lt CmdPull.frameCount_lt

theorem CmdPull.blockFrame_mono : Monotone (p.blockFrame c) := by
  intro i j hij
  have hmul : i * c.replyPerBlock ≤ j * c.replyPerBlock := Nat.mul_le_mul_right _ hij
  simp only [CmdPull.blockFrame]
  omega

/-- A block has at most `OMX_PULL_REPLY_PER_BLOCK` frames. -/
theorem CmdPull.blockFrame_succ_le (b : ℕ) :
    p.blockFrame c (b + 1) ≤ p.blockFrame c b + c.replyPerBlock := by
  simp only [CmdPull.blockFrame, Nat.succ_mul]
  omega

/-! ## Blocks -/

variable (c p) in
/-- The bytes of block `b` that lie before the pull: only its first block has some. -/
def CmdPull.blockOffset (b : ℕ) : ℕ := if b = 0 then p.off c else 0

variable (c p) in
/-- The bytes of block `b`. -/
def CmdPull.blockLength (b : ℕ) : ℕ :=
  p.cut c ((b + 1) * c.replyPerBlock) - p.cut c (b * c.replyPerBlock)

variable (c p) in
/-- The descriptor of block `b`, its bitmap apart. -/
structure IsBlock (b : ℕ) (d : BlockDesc) : Prop where
  frameIndex : d.frameIndex = p.blockFrame c b
  blockLength : d.blockLength = p.blockLength c b
  firstFrameOffset : d.firstFrameOffset = p.blockOffset c b

/-- Measured from the start of its first frame, a block is a slice of the pull
measured in the same way. -/
theorem CmdPull.blockOffset_add_blockLength (b : ℕ) :
    p.blockOffset c b + p.blockLength c b =
      min (c.replyPerBlock * c.replyLengthMax)
        (p.off c + p.totalLength - b * c.replyPerBlock * c.replyLengthMax) := by
  have hoff := CmdPull.off_lt (c := c) (p := p)
  have hP : c.replyLengthMax ≤ c.replyPerBlock * c.replyLengthMax :=
    Nat.le_mul_of_pos_left _ c.replyPerBlock_pos
  simp only [CmdPull.blockOffset, CmdPull.blockLength, CmdPull.cut]
  cases b with
  | zero =>
      simp only [if_true, Nat.zero_add, Nat.one_mul, Nat.zero_mul]
      omega
  | succ b =>
      have hmul : (b + 1 + 1) * c.replyPerBlock * c.replyLengthMax =
          (b + 1) * c.replyPerBlock * c.replyLengthMax + c.replyPerBlock * c.replyLengthMax := by
        rw [Nat.succ_mul (b + 1), Nat.add_mul]
      have hge : c.replyPerBlock * c.replyLengthMax ≤
          (b + 1) * c.replyPerBlock * c.replyLengthMax := by
        rw [Nat.succ_mul, Nat.add_mul]
        exact Nat.le_add_left _ _
      simp only [hmul, Nat.succ_ne_zero, if_false]
      omega

theorem CmdPull.blockOffset_add_blockLength_lt (b : ℕ) :
    p.blockOffset c b + p.blockLength c b < 2 ^ 22 := by
  have hlt := c.blockLengthMax_lt
  rw [Config.blockLengthMax, Nat.mul_comm] at hlt
  rw [CmdPull.blockOffset_add_blockLength]
  omega

/-- The puller and the replier count the frames of a block alike. -/
theorem CmdPull.frames_block (b : ℕ) :
    c.frames (wrap 32 (p.blockOffset c b + p.blockLength c b)) =
      p.blockFrame c (b + 1) - p.blockFrame c b := by
  have hlt := CmdPull.blockOffset_add_blockLength_lt (c := c) (p := p) b
  have hL := c.replyLengthMax_lt
  have hw := c.two_pow_width_le
  rw [wrap_of_lt (by omega), c.frames_of_lt (by omega), CmdPull.blockOffset_add_blockLength,
    ceil_min_mul c.replyLengthMax_pos, ceil_sub_mul c.replyLengthMax_pos]
  simp only [CmdPull.blockFrame, CmdPull.frameCount, Nat.succ_mul]
  omega

/-! ## The handle along a pull -/

variable (c p) in
/-- The handle has dropped `b` blocks and requested `nv` more. -/
structure Geo (b nv : ℕ) (h : Handle) : Prop where
  totalLength : h.totalLength = p.totalLength
  pulledRdmaOffset : h.pulledRdmaOffset = p.pulledRdmaOffset
  valid : h.nrValidBlockDescs = nv
  frameIndex : h.frameIndex = p.blockFrame c b
  next : h.nextFrameIndex = p.blockFrame c (b + nv)
  requested : h.nrRequestedFrames = p.blockFrame c (b + nv) - p.blockFrame c b
  remaining : h.remainingLength = p.totalLength - p.cut c ((b + nv) * c.replyPerBlock)
  descs : ∀ i < nv, IsBlock c p (b + i) (h.blockDesc i)
  /-- Only an empty pull requests a block without frames. -/
  inside : ∀ i < nv, b + i = 0 ∨ (b + i) * c.replyPerBlock < p.frameCount c

theorem Geo.create (mem : ℕ → BlockDesc) :
    Geo c p 0 0 (pullHandleCreate mem p.totalLength p.pulledRdmaOffset) where
  totalLength := rfl
  pulledRdmaOffset := rfl
  valid := rfl
  frameIndex := by simp [pullHandleCreate, CmdPull.blockFrame]
  next := by simp [pullHandleCreate, CmdPull.blockFrame]
  requested := by simp [pullHandleCreate]
  remaining := by simp [pullHandleCreate]
  descs := by intro i hi; omega
  inside := by intro i hi; omega

theorem CmdPull.blockFrame_le_succ (b : ℕ) : p.blockFrame c b ≤ p.blockFrame c (b + 1) :=
  CmdPull.blockFrame_mono (Nat.le_succ b)

theorem CmdPull.cut_block_le_succ (b : ℕ) :
    p.cut c (b * c.replyPerBlock) ≤ p.cut c ((b + 1) * c.replyPerBlock) :=
  CmdPull.cut_mono (Nat.mul_le_mul_right _ (Nat.le_succ b))

/-- Asking for the next block of the pull. -/
theorem Geo.append {b nv : ℕ} {h : Handle} (g : Geo c p b nv h)
    (hin : b + nv = 0 ∨ (b + nv) * c.replyPerBlock < p.frameCount c) :
    Geo c p b (nv + 1)
      (pullHandleAppendNeededFrames c h (p.blockLength c (b + nv)) (p.blockOffset c (b + nv))) where
  totalLength := g.totalLength
  pulledRdmaOffset := g.pulledRdmaOffset
  valid := by rw [append_nrValidBlockDescs, g.valid]
  frameIndex := g.frameIndex
  next := by
    rw [append_nextFrameIndex, CmdPull.frames_block, g.next, ← Nat.add_assoc,
      ← Nat.sub_zero (p.blockFrame c (b + nv))]
    exact wrap_sub_add_sub (Nat.zero_le _) (CmdPull.blockFrame_le_succ _) (CmdPull.blockFrame_lt _)
  requested := by
    rw [append_nrRequestedFrames, CmdPull.frames_block, g.requested, ← Nat.add_assoc]
    exact wrap_sub_add_sub (CmdPull.blockFrame_mono (Nat.le_add_right _ _))
      (CmdPull.blockFrame_le_succ _) (CmdPull.blockFrame_lt _)
  remaining := by
    have hcut := CmdPull.cut_block_le_succ (c := c) (p := p) (b + nv)
    have hcutT := CmdPull.cut_le (c := c) (p := p) ((b + nv + 1) * c.replyPerBlock)
    have hT := p.totalLength_lt
    rw [append_remainingLength, g.remaining, CmdPull.blockLength, ← Nat.add_assoc,
      sub_of_le (by omega) (by omega)]
    omega
  descs := by
    intro i hi
    rw [append_blockDesc, g.valid, g.next]
    rcases Nat.lt_succ_iff_lt_or_eq.1 hi with hlt | rfl
    · rw [if_neg hlt.ne]
      exact g.descs i hlt
    · rw [if_pos rfl]
      exact ⟨rfl, rfl, rfl⟩
  inside := by
    intro i hi
    rcases Nat.lt_succ_iff_lt_or_eq.1 hi with hlt | rfl
    · exact g.inside i hlt
    · exact hin

/-- What remains to be requested starts inside the pull. -/
theorem Geo.inside_of_remaining {b nv : ℕ} {h : Handle} (g : Geo c p b nv h) (hb : 1 ≤ b + nv)
    (hrem : h.remainingLength ≠ 0) : (b + nv) * c.replyPerBlock < p.frameCount c := by
  have hpos : 0 < (b + nv) * c.replyPerBlock := Nat.mul_pos hb c.replyPerBlock_pos
  by_contra hge
  have hcut := (CmdPull.cut_eq_totalLength_iff (c := c) (p := p) hpos).2 (not_lt.1 hge)
  rw [g.remaining, hcut] at hrem
  omega

/-- The block that the loops over the next blocks compute. -/
theorem CmdPull.min_blockLengthMax {b : ℕ} (hb : 1 ≤ b) :
    min c.blockLengthMax (p.totalLength - p.cut c (b * c.replyPerBlock)) = p.blockLength c b ∧
      p.blockOffset c b = 0 := by
  have hoff := CmdPull.off_lt (c := c) (p := p)
  have hmul : (b + 1) * c.replyPerBlock * c.replyLengthMax =
      b * c.replyPerBlock * c.replyLengthMax + c.replyPerBlock * c.replyLengthMax := by
    rw [Nat.succ_mul b, Nat.add_mul]
  have hge : c.replyLengthMax ≤ b * c.replyPerBlock * c.replyLengthMax :=
    Nat.le_mul_of_pos_left _ (Nat.mul_pos hb c.replyPerBlock_pos)
  refine ⟨?_, if_neg (by omega)⟩
  simp only [CmdPull.blockLength, CmdPull.cut, hmul, Config.blockLengthMax,
    Nat.mul_comm c.replyLengthMax c.replyPerBlock]
  omega

/-- The first block that `omx_ioctl_pull` computes. -/
theorem CmdPull.min_firstBlock :
    min (c.blockLengthMax - p.pulledRdmaOffset % c.replyLengthMax) p.totalLength =
      p.blockLength c 0 := by
  simp only [CmdPull.blockLength, CmdPull.cut, CmdPull.off, Config.blockLengthMax, Nat.zero_add,
    Nat.one_mul, Nat.zero_mul, Nat.mul_comm c.replyLengthMax c.replyPerBlock]
  omega

/-- One turn of the loop requests the next block, if one is left and fits. -/
theorem Geo.appendNextBlock {b nv : ℕ} {h : Handle} (g : Geo c p b nv h) (hb : 1 ≤ b + nv) :
    (nv < blockDescsNr ∧ h.remainingLength ≠ 0 ∧
      appendNextBlock c h = pullHandleAppendNeededFrames c h (p.blockLength c (b + nv))
        (p.blockOffset c (b + nv))) ∨
      ((blockDescsNr ≤ nv ∨ h.remainingLength = 0) ∧ appendNextBlock c h = h) := by
  by_cases hgo : nv < blockDescsNr ∧ h.remainingLength ≠ 0
  · left
    refine ⟨hgo.1, hgo.2, ?_⟩
    obtain ⟨hlen, hoff⟩ := CmdPull.min_blockLengthMax (c := c) (p := p) hb
    rw [Pull.appendNextBlock, if_pos (by rw [g.valid]; exact hgo), g.remaining, hlen, hoff]
  · right
    refine ⟨?_, ?_⟩
    · rcases not_and_or.1 hgo with hnv | hrem
      · exact .inl (not_lt.1 hnv)
      · exact .inr (not_not.1 hrem)
    · rw [Pull.appendNextBlock, if_neg (by rw [g.valid]; exact hgo)]

/-- The loop over the next blocks keeps whatever a request of the next block keeps,
and stops with all descriptors in use or nothing left to request. -/
theorem Geo.prepareNextBlocks {I : ℕ → Handle → Prop} {b nv : ℕ} {h : Handle}
    (hstep : ∀ nv h, Geo c p b nv h → nv < blockDescsNr →
      (b + nv) * c.replyPerBlock < p.frameCount c → I nv h →
      I (nv + 1) (pullHandleAppendNeededFrames c h (p.blockLength c (b + nv))
        (p.blockOffset c (b + nv))))
    (g : Geo c p b nv h) (hb : 1 ≤ b + nv) (hnv : nv ≤ blockDescsNr) (hI : I nv h) :
    ∃ nv', nv ≤ nv' ∧ nv' ≤ blockDescsNr ∧ Geo c p b nv' (prepareNextBlocks c h) ∧
      I nv' (prepareNextBlocks c h) ∧
      (nv' = blockDescsNr ∨ (prepareNextBlocks c h).remainingLength = 0) := by
  have hloop : ∀ k nv h, Geo c p b nv h → 1 ≤ b + nv → nv ≤ blockDescsNr → I nv h →
      blockDescsNr ≤ nv + k →
      ∃ nv', nv ≤ nv' ∧ nv' ≤ blockDescsNr ∧ Geo c p b nv' ((Pull.appendNextBlock c)^[k] h) ∧
        I nv' ((Pull.appendNextBlock c)^[k] h) ∧
        (nv' = blockDescsNr ∨ ((Pull.appendNextBlock c)^[k] h).remainingLength = 0) := by
    intro k
    induction k with
    | zero =>
        intro nv h g hb hnv hI hk
        exact ⟨nv, le_rfl, hnv, g, hI, .inl (by omega)⟩
    | succ k ih =>
        intro nv h g hb hnv hI hk
        rw [Function.iterate_succ_apply]
        rcases g.appendNextBlock hb with ⟨hlt, hrem, heq⟩ | ⟨hstop, heq⟩
        · have hin := g.inside_of_remaining hb hrem
          rw [heq]
          obtain ⟨nv', hle, hrest⟩ := ih (nv + 1) _ (g.append (.inr hin)) (by omega) hlt
            (hstep nv h g hlt hin hI) (by omega)
          exact ⟨nv', by omega, hrest⟩
        · have hfix : (Pull.appendNextBlock c)^[k] h = h := Function.iterate_fixed heq k
          rw [heq, hfix]
          refine ⟨nv, le_rfl, hnv, g, hI, ?_⟩
          rcases hstop with hge | hrem
          · exact .inl (by omega)
          · exact .inr hrem
  exact hloop blockDescsNr nv h g hb hnv hI (by omega)

/-- Dropping the first block. -/
theorem Geo.firstBlockDone {b nv : ℕ} {h : Handle} (g : Geo c p b (nv + 1) h) :
    Geo c p (b + 1) nv (pullHandleFirstBlockDone c h) := by
  have hle := CmdPull.blockFrame_le_succ (c := c) (p := p) b
  have hle' : p.blockFrame c (b + 1) ≤ p.blockFrame c (b + (nv + 1)) :=
    CmdPull.blockFrame_mono (by omega)
  have hlt := CmdPull.blockFrame_lt (c := c) (p := p) (b + (nv + 1))
  have hfirst : min h.nrRequestedFrames c.replyPerBlock =
      p.blockFrame c (b + 1) - p.blockFrame c b := by
    have hmono : (b + 1) * c.replyPerBlock ≤ (b + (nv + 1)) * c.replyPerBlock :=
      Nat.mul_le_mul_right _ (by omega)
    rw [g.requested]
    simp only [CmdPull.blockFrame, Nat.succ_mul] at hmono ⊢
    omega
  have hidx : b + 1 + nv = b + (nv + 1) := by omega
  constructor
  · exact g.totalLength
  · exact g.pulledRdmaOffset
  · simp only [pullHandleFirstBlockDone, g.valid, Nat.add_sub_cancel]
  · simp only [pullHandleFirstBlockDone, hfirst, g.frameIndex, Nat.add_sub_cancel' hle]
    exact wrap_of_lt (by omega)
  · rw [hidx]
    exact g.next
  · simp only [pullHandleFirstBlockDone, hfirst]
    rw [g.requested, hidx, sub_of_le (by omega) (by omega)]
    omega
  · rw [hidx]
    exact g.remaining
  · intro i hi
    have hmoved := g.descs (i + 1) (by omega)
    rw [show b + (i + 1) = b + 1 + i by omega] at hmoved
    simp only [pullHandleFirstBlockDone, g.valid, Nat.add_sub_cancel, if_pos hi]
    split
    · exact ⟨hmoved.frameIndex, hmoved.blockLength, hmoved.firstFrameOffset⟩
    · exact hmoved
  · intro i hi
    rw [show b + 1 + i = b + (i + 1) by omega]
    exact g.inside (i + 1) (by omega)

/-! ## Bitmaps -/

/-- The mask of `n` frames has their bits. -/
theorem testBit_frameMask {n j : ℕ} (hn : 0 < n) (hle : n ≤ c.replyPerBlock) :
    (frameMask c n).testBit j = decide (j < n) := by
  rw [frameMask, if_neg hn.ne', Nat.testBit_shiftRight, Nat.testBit_two_pow_sub_one]
  exact decide_eq_decide.2 (by omega)

/-- Receiving a frame clears its bit and no other of the block. -/
theorem testBit_receiveFrame (h : Handle) {idesc frame i j : ℕ} (hj : j < c.replyPerBlock) :
    ((receiveFrame c h idesc frame).blockDesc i).framesMissingBitmap.testBit j =
      ((h.blockDesc i).framesMissingBitmap.testBit j && !decide (i = idesc ∧ j = frame)) := by
  by_cases hi : i = idesc
  · simp only [receiveFrame, hi, if_true, Nat.testBit_and, Nat.testBit_xor,
      Nat.testBit_two_pow_sub_one, Nat.one_shiftLeft, Nat.testBit_two_pow, hj, true_and,
      decide_true, Bool.true_bne, eq_comm (a := frame)]
  · simp [receiveFrame, hi]

end Xen2mx.Pull
