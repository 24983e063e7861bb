/-
# `Xen2mx.Pull.Received` — the frames a handle has received

`Received b nv R h` ties the bitmaps and counters of a handle to the set `R` of the
frames it has received: a bit is set exactly when its frame is not in `R`, and the
missing frames are the requested ones that are not.  Dropping blocks and requesting
new ones leaves `R` as it is; only a reply adds to it, and the reply that the checks
accept is the reply of the frame that is added (`Received.recvPullReply`).
-/
import Mathlib.Data.Finset.Card
import Xen2mx.Pull.Replies
import Xen2mx.Pull.System

namespace Xen2mx.Pull

open Word

variable {c : Config} {p : CmdPull}

/-! ## Blocks and frames -/

/-- A frame between two blocks lies in one of them. -/
theorem CmdPull.exists_block {b nv f : ℕ} (hlo : p.blockFrame c b ≤ f)
    (hhi : f < p.blockFrame c (b + nv)) :
    ∃ i < nv, p.blockFrame c (b + i) ≤ f ∧ f < p.blockFrame c (b + i + 1) := by
  induction nv with
  | zero => exact absurd hhi (not_lt.2 hlo)
  | succ nv ih =>
      rcases Nat.lt_or_ge f (p.blockFrame c (b + nv)) with hlt | hge
      · obtain ⟨i, hi, hblock⟩ := ih hlt
        exact ⟨i, hi.trans (Nat.lt_succ_self nv), hblock⟩
      · exact ⟨nv, Nat.lt_succ_self nv, hge, hhi⟩

/-- A frame lies in one block only. -/
theorem CmdPull.block_unique {b b' f : ℕ} (hlo : p.blockFrame c b ≤ f)
    (hhi : f < p.blockFrame c (b + 1)) (hlo' : p.blockFrame c b' ≤ f)
    (hhi' : f < p.blockFrame c (b' + 1)) : b = b' := by
  rcases Nat.lt_trichotomy b b' with hlt | heq | hgt
  · have hmono := CmdPull.blockFrame_mono (c := c) (p := p) (show b + 1 ≤ b' from hlt)
    omega
  · exact heq
  · have hmono := CmdPull.blockFrame_mono (c := c) (p := p) (show b' + 1 ≤ b from hgt)
    omega

variable (c p) in
/-- Block `b` is one that the pull asks for: only an empty pull has one without frames. -/
def CmdPull.InPull (b : ℕ) : Prop := b = 0 ∨ b * c.replyPerBlock < p.frameCount c

/-! ## The handle and its frames -/

variable (c p) in
/-- The handle dropped `b` blocks, requested `nv` more, and received the frames `R`. -/
structure Received (b nv : ℕ) (R : Finset ℕ) (h : Handle) : Prop where
  geo : Geo c p b nv h
  le : nv ≤ blockDescsNr
  /-- Only requested frames are received, -/
  lt : ∀ f ∈ R, f < p.blockFrame c (b + nv)
  /-- and all those of the blocks that were dropped are. -/
  dropped : ∀ f < p.blockFrame c b, f ∈ R
  bits : ∀ i < nv, ∀ j, p.blockFrame c (b + i) + j < p.blockFrame c (b + i + 1) →
    ((h.blockDesc i).framesMissingBitmap.testBit j = true ↔ p.blockFrame c (b + i) + j ∉ R)
  missing : h.nrMissingFrames + R.card = p.blockFrame c (b + nv)
  /-- A descriptor that is not valid is cleared or a copy of a block requested before; the
  last one is a case of its own. -/
  stale : ∀ i < blockDescsNr - 1, (h.blockDesc i).framesMissingBitmap ≠ 0 →
    ∃ k < b + nv, p.InPull c k ∧ IsBlock c p k (h.blockDesc i)

namespace Received

variable {b nv : ℕ} {R : Finset ℕ} {h : Handle}

theorem create (mem : ℕ → BlockDesc) :
    Received c p 0 0 ∅ (pullHandleCreate mem p.totalLength p.pulledRdmaOffset) where
  geo := Geo.create mem
  le := by decide
  lt := by
    intro f hf
    cases hf
  dropped := by
    intro f hf
    rw [CmdPull.blockFrame, Nat.zero_mul, Nat.zero_min] at hf
    cases hf
  bits := by
    intro i hi
    cases hi
  missing := by
    rw [CmdPull.blockFrame, Nat.zero_add, Nat.zero_mul, Nat.zero_min]
    rfl
  stale := by
    intro i hi hne
    refine absurd ?_ hne
    simp only [pullHandleCreate, if_pos hi]

/-- The counts of re-requests and of copies say nothing about frames. -/
theorem withLife (hr : Received c p b nv R h) (st : Status) (rerequested copies : ℕ) :
    Received c p b nv R
      { h with
        status := st
        alreadyRerequestedBlocks := rerequested
        hostCopyNrFrames := copies } :=
  ⟨⟨hr.geo.totalLength, hr.geo.pulledRdmaOffset, hr.geo.valid, hr.geo.frameIndex, hr.geo.next,
    hr.geo.requested, hr.geo.remaining, hr.geo.descs, hr.geo.inside⟩,
    hr.le, hr.lt, hr.dropped, hr.bits, hr.missing, hr.stale⟩

/-- Asking for the next block adds its frames to the missing ones. -/
theorem append (hr : Received c p b nv R h) (hnv : nv < blockDescsNr) (hin : p.InPull c (b + nv)) :
    Received c p b (nv + 1) R (pullHandleAppendNeededFrames c h (p.blockLength c (b + nv))
      (p.blockOffset c (b + nv))) where
  geo := hr.geo.append hin
  le := hnv
  lt := by
    intro f hf
    exact (hr.lt f hf).trans_le (CmdPull.blockFrame_le_succ (b + nv))
  dropped := hr.dropped
  bits := by
    intro i hi j hj
    rw [append_blockDesc, hr.geo.valid]
    rcases Nat.lt_succ_iff_lt_or_eq.1 hi with hlt | rfl
    · rw [if_neg hlt.ne]
      exact hr.bits i hlt j hj
    · have hle := CmdPull.blockFrame_succ_le (c := c) (p := p) (b + i)
      have hnew : p.blockFrame c (b + i) + j ∉ R := by
        intro hf
        exact absurd (hr.lt _ hf) (not_lt.2 (Nat.le_add_right _ j))
      rw [if_pos rfl, CmdPull.frames_block, testBit_frameMask (by omega) (by omega)]
      exact iff_of_true (decide_eq_true (by omega)) hnew
  missing := by
    have hle := CmdPull.blockFrame_le_succ (c := c) (p := p) (b + nv)
    have hlt := CmdPull.blockFrame_lt (c := c) (p := p) (b + nv + 1)
    have hsum := hr.missing
    rw [append_nrMissingFrames, CmdPull.frames_block, ← Nat.add_assoc, wrap_of_lt (by omega)]
    omega
  stale := by
    intro i hi hne
    rw [append_blockDesc, hr.geo.valid] at hne ⊢
    by_cases heq : i = nv
    · subst heq
      rw [if_pos rfl]
      exact ⟨b + i, by omega, hin, hr.geo.next, rfl, rfl⟩
    · rw [if_neg heq] at hne ⊢
      obtain ⟨k, hk, hblock⟩ := hr.stale i hi hne
      exact ⟨k, by omega, hblock⟩

theorem prepareNextBlocks (hr : Received c p b nv R h) (hb : 1 ≤ b + nv) :
    ∃ nv', nv ≤ nv' ∧ Received c p b nv' R (prepareNextBlocks c h) := by
  obtain ⟨nv', hmono, -, -, hr', -⟩ := hr.geo.prepareNextBlocks
    (I := fun nv h => Received c p b nv R h)
    (fun nv h _ hnv hin hr => hr.append hnv (.inr hin)) hb hr.le hr
  exact ⟨nv', hmono, hr'⟩

theorem start (mem : ℕ → BlockDesc) :
    ∃ nv, 1 ≤ nv ∧ Received c p 0 nv ∅
      (ioctlPullBlocks c (pullHandleCreate mem p.totalLength p.pulledRdmaOffset)) := by
  have hr := (create (c := c) (p := p) mem).append (by decide) (.inl rfl)
  obtain ⟨nv, hnv, hr'⟩ := hr.prepareNextBlocks (by omega)
  refine ⟨nv, by omega, ?_⟩
  have hlen : min (c.blockLengthMax - p.pulledRdmaOffset % c.replyLengthMax) p.totalLength =
      p.blockLength c 0 := CmdPull.min_firstBlock
  have hoff : p.pulledRdmaOffset % c.replyLengthMax = p.blockOffset c 0 := rfl
  rw [Nat.add_zero, ← hlen, ← hoff] at hr'
  exact hr'

/-- Dropping a block of which nothing is missing. -/
theorem firstBlockDone (hr : Received c p b (nv + 1) R h)
    (hdone : (h.blockDesc 0).framesMissingBitmap = 0) :
    Received c p (b + 1) nv R (pullHandleFirstBlockDone c h) where
  geo := hr.geo.firstBlockDone
  le := (Nat.le_succ nv).trans hr.le
  lt := by
    intro f hf
    rw [show b + 1 + nv = b + (nv + 1) by omega]
    exact hr.lt f hf
  dropped := by
    intro f hf
    rcases Nat.lt_or_ge f (p.blockFrame c b) with hlt | hge
    · exact hr.dropped f hlt
    · by_contra hno
      have hbit := hr.bits 0 (Nat.succ_pos nv) (f - p.blockFrame c b) (by
        rw [Nat.add_zero, Nat.add_sub_cancel' hge]
        exact hf)
      rw [Nat.add_zero, Nat.add_sub_cancel' hge, hdone, Nat.zero_testBit] at hbit
      exact Bool.false_ne_true (hbit.2 hno)
  bits := by
    intro i hi j hj
    have hne : i ≠ blockDescsNr - 1 := by
      have := hr.le
      omega
    simp only [pullHandleFirstBlockDone, hr.geo.valid, Nat.add_sub_cancel, if_pos hi, if_neg hne]
    rw [show b + 1 + i = b + (i + 1) by omega] at hj ⊢
    exact hr.bits (i + 1) (by omega) j hj
  missing := by
    rw [show b + 1 + nv = b + (nv + 1) by omega]
    exact hr.missing
  stale := by
    intro i hi hne
    rw [show b + 1 + nv = b + (nv + 1) by omega]
    simp only [pullHandleFirstBlockDone, hr.geo.valid, Nat.add_sub_cancel, if_neg hi.ne] at hne ⊢
    by_cases hmoved : i < nv
    · rw [if_pos hmoved]
      exact ⟨b + (i + 1), by omega, hr.geo.inside (i + 1) (by omega),
        hr.geo.descs (i + 1) (by omega)⟩
    · rw [if_neg hmoved] at hne ⊢
      exact hr.stale i hi hne

theorem dropDoneBlock (hr : Received c p b nv R h) :
    ∃ b' nv', b' + nv' = b + nv ∧ Received c p b' nv' R (dropDoneBlock c h) := by
  unfold Pull.dropDoneBlock
  split
  · exact ⟨b, nv, rfl, hr⟩
  · rename_i hgo
    obtain ⟨hne, hdone⟩ := not_or.1 hgo
    rw [hr.geo.valid] at hne
    obtain ⟨nv, rfl⟩ := Nat.exists_eq_succ_of_ne_zero hne
    exact ⟨b + 1, nv, by omega, hr.firstBlockDone (not_not.1 hdone)⟩

/-- "drop next blocks if they are done". -/
theorem dropDoneBlocks (hr : Received c p b nv R h) (n : ℕ) :
    ∃ b' nv', b' + nv' = b + nv ∧ Received c p b' nv' R ((Pull.dropDoneBlock c)^[n] h) :=
  Function.Iterate.rec
    (fun h' => ∃ b' nv', b' + nv' = b + nv ∧ Received c p b' nv' R h') ⟨b, nv, rfl, hr⟩
    (fun _ ⟨_, _, heq, hr'⟩ =>
      let ⟨b'', nv'', heq', hr''⟩ := hr'.dropDoneBlock
      ⟨b'', nv'', heq'.trans heq, hr''⟩) n

/-! ## A reply -/

/-- The reply of a frame that was asked for, once it passes the checks. -/
theorem accepted (hr : Received c p b nv R h) {r : Reply} {f k regionOffset idesc frame : ℕ}
    (hk : k < b + nv) (hlo : p.blockFrame c k ≤ f) (hhi : f < p.blockFrame c (k + 1))
    (hreply : r = frameReply c p f regionOffset)
    (hcheck : checkPullReply c h r = some (idesc, frame)) :
    idesc < nv ∧ p.blockFrame c (b + idesc) + frame = f ∧
      f < p.blockFrame c (b + idesc + 1) ∧ f ∉ R := by
  have hcount : f < p.frameCount c := hhi.trans_le (CmdPull.blockFrame_le _)
  have hend : f < p.blockFrame c (b + nv) := hhi.trans_le (CmdPull.blockFrame_mono hk)
  have hlt := CmdPull.blockFrame_lt (c := c) (p := p) (b + nv)
  obtain ⟨hframes, hoffset⟩ : c.frames (p.cut c f) = h.frameIndex + frameSeqnumOffset h r ∧
      frameSeqnumOffset h r < h.nrRequestedFrames := by
    rw [checkPullReply] at hcheck
    split at hcheck
    · cases hcheck
    · split at hcheck
      · cases hcheck
      · split at hcheck
        · cases hcheck
        · rename_i _ hframes hoffset
          have hbound := hr.geo.requested
          have hidx := hr.geo.frameIndex
          rw [not_not, hreply, wrap_of_lt (by rw [hreply] at hoffset; omega)] at hframes
          rw [hreply] at hoffset ⊢
          exact ⟨hframes, not_le.1 hoffset⟩
  -- An offset so large that rounding it up leaves the word counts as frame 0.
  have hfit : p.cut c f + c.replyLengthMax ≤ 2 ^ c.width := by
    by_contra hover
    have hzero := CmdPull.frames_cut_of_overflow (not_le.1 hover)
    rw [hframes, hr.geo.frameIndex] at hzero
    have hb : p.blockFrame c b = 0 := by omega
    have hseq : f % 256 = 0 := by
      have hoff : frameSeqnumOffset h r = 0 := by omega
      rw [frameSeqnumOffset, hr.geo.frameIndex, hb, hreply] at hoff
      simp only [frameReply, wrap] at hoff
      omega
    have hwindow : p.blockFrame c (b + nv) ≤ 256 := by
      have hP := c.replyPerBlock_pos
      have hmul : nv * c.replyPerBlock ≤ 4 * 64 := Nat.mul_le_mul hr.le c.replyPerBlock_le
      simp only [CmdPull.blockFrame, Nat.add_mul] at hb ⊢
      omega
    obtain rfl : f = 0 := by omega
    rw [CmdPull.cut_zero, Nat.zero_add] at hover
    have := c.two_pow_width_le
    have := c.replyLengthMax_lt
    omega
  have hf : f = h.frameIndex + frameSeqnumOffset h r :=
    (CmdPull.frames_cut hcount hfit).symm.trans hframes
  obtain ⟨i, hi, hlo', hhi'⟩ := CmdPull.exists_block (c := c) (p := p) (b := b)
    (by rw [hf, hr.geo.frameIndex]; exact Nat.le_add_right _ _) hend
  have hcheck' := hr.geo.checkPullReply (r := r) hr.le hi hlo' hhi' (by rw [hreply]; rfl)
    (by rw [hreply]; exact le_rfl)
  rw [hcheck, hreply] at hcheck'
  simp only [frameReply, CmdPull.frames_cut hcount hfit, ne_eq, not_true_eq_false, if_false]
    at hcheck'
  split at hcheck'
  · rename_i hbit
    cases hcheck'
    refine ⟨hi, Nat.add_sub_cancel' hlo', hhi', ?_⟩
    have hno := (hr.bits idesc hi _ (by rw [Nat.add_sub_cancel' hlo']; exact hhi')).1 hbit
    rwa [Nat.add_sub_cancel' hlo'] at hno
  · cases hcheck'

/-- Marking a missing frame as received. -/
theorem receiveFrame (hr : Received c p b nv R h) {idesc frame : ℕ} (hi : idesc < nv)
    (hend : p.blockFrame c (b + idesc) + frame < p.blockFrame c (b + idesc + 1))
    (hnew : p.blockFrame c (b + idesc) + frame ∉ R) :
    Received c p b nv (insert (p.blockFrame c (b + idesc) + frame) R)
      (receiveFrame c h idesc frame) where
  geo := by
    refine ⟨hr.geo.totalLength, hr.geo.pulledRdmaOffset, hr.geo.valid, hr.geo.frameIndex,
      hr.geo.next, hr.geo.requested, hr.geo.remaining, ?_, hr.geo.inside⟩
    intro i hi
    have hd := hr.geo.descs i hi
    by_cases heq : i = idesc
    · simp only [Pull.receiveFrame, if_pos heq]
      exact ⟨hd.frameIndex, hd.blockLength, hd.firstFrameOffset⟩
    · simp only [Pull.receiveFrame, if_neg heq]
      exact hd
  le := hr.le
  lt := by
    intro f hf
    rcases Finset.mem_insert.1 hf with rfl | hf
    · exact hend.trans_le (CmdPull.blockFrame_mono (by omega))
    · exact hr.lt f hf
  dropped := by
    intro f hf
    exact Finset.mem_insert_of_mem (hr.dropped f hf)
  bits := by
    intro i hi' j hj
    have hjP : j < c.replyPerBlock := by
      have := CmdPull.blockFrame_succ_le (c := c) (p := p) (b + i)
      omega
    have hsame : p.blockFrame c (b + i) + j = p.blockFrame c (b + idesc) + frame ↔
        i = idesc ∧ j = frame := by
      constructor
      · intro heq
        have hblock : b + i = b + idesc :=
          CmdPull.block_unique (Nat.le_add_right _ j) hj (by rw [heq]; exact Nat.le_add_right _ _)
            (by rw [heq]; exact hend)
        obtain rfl : i = idesc := by omega
        exact ⟨rfl, by omega⟩
      · rintro ⟨rfl, rfl⟩
        rfl
    rw [testBit_receiveFrame h hjP, Finset.mem_insert, Bool.and_eq_true, hr.bits i hi' j hj,
      Bool.not_eq_true', decide_eq_false_iff_not, not_or, hsame, and_comm]
  missing := by
    have hlt := CmdPull.blockFrame_lt (c := c) (p := p) (b + nv)
    have hsum := hr.missing
    have hsub : insert (p.blockFrame c (b + idesc) + frame) R ⊆
        Finset.range (p.blockFrame c (b + nv)) := by
      intro f hf
      rcases Finset.mem_insert.1 hf with rfl | hf
      · exact Finset.mem_range.2 (hend.trans_le (CmdPull.blockFrame_mono (by omega)))
      · exact Finset.mem_range.2 (hr.lt f hf)
    have hcard := Finset.card_le_card hsub
    rw [Finset.card_insert_of_notMem hnew, Finset.card_range] at hcard
    rw [Finset.card_insert_of_notMem hnew]
    show sub 32 h.nrMissingFrames 1 + (R.card + 1) = _
    rw [sub_of_le (by omega) (by omega)]
    omega
  stale := by
    intro i hi hne
    by_cases heq : i = idesc
    · simp only [Pull.receiveFrame, if_pos heq] at hne ⊢
      have hne' : (h.blockDesc i).framesMissingBitmap ≠ 0 := by
        intro hzero
        rw [hzero, Nat.zero_and] at hne
        exact hne rfl
      obtain ⟨k, hk, hin, hblock⟩ := hr.stale i hi hne'
      exact ⟨k, hk, hin, hblock.frameIndex, hblock.blockLength, hblock.firstFrameOffset⟩
    · simp only [Pull.receiveFrame, if_neg heq] at hne ⊢
      exact hr.stale i hi hne

end Received

end Xen2mx.Pull
