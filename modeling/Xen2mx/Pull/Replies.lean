/-
# `Xen2mx.Pull.Replies` — the frames of a block, sent and recognised

The replier's loop emits one reply for each frame of the block it is asked for,
at the offsets the geometry says (`sendPullReplies_eq`).  The puller tells the
frame of a reply from its `msg_offset` and its 8-bit sequence number; it finds
the right one as long as the offset of the frame, rounded up to a whole frame,
does not leave the word (`check_frameReply`).
-/
import Xen2mx.Pull.Geometry

namespace Xen2mx.Pull

open Word

variable {c : Config} {p : CmdPull}

/-! ## The replier -/

variable (c p) in
/-- The bytes of frame `f`. -/
def CmdPull.frameLength (f : ℕ) : ℕ := p.cut c (f + 1) - p.cut c f

variable (c p) in
/-- The reply that brings frame `f`, read at `regionOffset`. -/
def frameReply (f regionOffset : ℕ) : Reply :=
  { frameSeqnum := wrap 8 f
    frameLength := p.frameLength c f
    msgOffset := p.cut c f
    dataLength := p.frameLength c f
    regionOffset }

theorem CmdPull.frameLength_le (f : ℕ) : p.frameLength c f ≤ c.replyLengthMax := by
  have hmul : (f + 1) * c.replyLengthMax = f * c.replyLengthMax + c.replyLengthMax :=
    Nat.succ_mul f _
  simp only [CmdPull.frameLength, CmdPull.cut, hmul]
  omega

/-- A frame is what its limit and the rest of the block leave of it. -/
theorem CmdPull.min_limit {f n : ℕ} :
    min ((f + 1) * c.replyLengthMax - p.off c - p.cut c f) (p.cut c (f + 1 + n) - p.cut c f) =
      p.frameLength c f := by
  have hmono : p.cut c (f + 1) ≤ p.cut c (f + 1 + n) := CmdPull.cut_mono (Nat.le_add_right _ _)
  have hle := CmdPull.cut_le (c := c) (p := p) (f + 1 + n)
  have hmul : (f + 1) * c.replyLengthMax ≤ (f + 1 + n) * c.replyLengthMax :=
    Nat.mul_le_mul_right _ (Nat.le_add_right _ _)
  simp only [CmdPull.frameLength, CmdPull.cut] at hmono hle ⊢
  omega

/-- The loop sends the frames from `f` on, each from where the one before ended. -/
theorem sendPullReplies_eq (n : ℕ) {f limit regionOffset : ℕ} (hf : f + n ≤ p.frameCount c)
    (hlimit : 0 < n → limit = (f + 1) * c.replyLengthMax - p.off c - p.cut c f) :
    sendPullReplies c limit f (p.cut c f) regionOffset (p.cut c (f + n) - p.cut c f) n =
      (List.range' f n).map fun j => frameReply c p j (regionOffset + (p.cut c j - p.cut c f)) := by
  induction n generalizing f limit regionOffset with
  | zero => rfl
  | succ n ih =>
      have hcut : p.cut c f ≤ p.cut c (f + 1) := CmdPull.cut_mono (Nat.le_succ f)
      have hlen : min limit (p.cut c (f + (n + 1)) - p.cut c f) = p.frameLength c f := by
        rw [hlimit (Nat.succ_pos n), show f + (n + 1) = f + 1 + n by omega]
        exact CmdPull.min_limit
      have hlt : p.frameLength c f < 2 ^ 16 :=
        (CmdPull.frameLength_le f).trans_lt c.replyLengthMax_lt
      have hend : p.cut c f + p.frameLength c f = p.cut c (f + 1) := Nat.add_sub_cancel' hcut
      have hT : p.cut c (f + 1) < 2 ^ 32 := (CmdPull.cut_le _).trans_lt p.totalLength_lt
      have hrest : p.cut c (f + (n + 1)) - p.cut c f - p.frameLength c f =
          p.cut c (f + 1 + n) - p.cut c (f + 1) := by
        rw [show f + (n + 1) = f + 1 + n by omega, Nat.sub_sub, hend]
      have hnext : 0 < n →
          c.replyLengthMax = (f + 1 + 1) * c.replyLengthMax - p.off c - p.cut c (f + 1) := by
        intro hn
        have hoff := CmdPull.off_lt (c := c) (p := p)
        have hge : c.replyLengthMax ≤ (f + 1) * c.replyLengthMax :=
          Nat.le_mul_of_pos_left _ (Nat.succ_pos f)
        rw [CmdPull.cut_of_lt_frameCount (by omega), Nat.succ_mul (f + 1)]
        omega
      rw [sendPullReplies, List.range'_succ, List.map_cons, hlen, wrap_of_lt hlt, hend,
        wrap_of_lt hT, hrest, ih (by omega) hnext]
      refine congrArg₂ _ ?_ (List.map_congr_left fun j hj => ?_)
      · simp only [frameReply, Nat.sub_self, Nat.add_zero]
      · have hle : p.cut c (f + 1) ≤ p.cut c j :=
          CmdPull.cut_mono (List.mem_range'_1.1 hj).1
        have hlen' : p.frameLength c f = p.cut c (f + 1) - p.cut c f := rfl
        rw [hlen', show regionOffset + (p.cut c (f + 1) - p.cut c f) + (p.cut c j - p.cut c (f + 1)) =
          regionOffset + (p.cut c j - p.cut c f) by omega]

/-- A block fits the fields of a request on the wire. -/
theorem CmdPull.block_lt_wire (b : ℕ) :
    p.blockLength c b < 2 ^ c.wireWidth ∧ p.blockOffset c b < 2 ^ c.wireWidth := by
  have hsum := CmdPull.blockOffset_add_blockLength (c := c) (p := p) b
  have hle : p.blockOffset c b + p.blockLength c b ≤ c.replyPerBlock * c.replyLengthMax := by
    rw [hsum]
    exact Nat.min_le_left _ _
  have hmax : c.replyPerBlock * c.replyLengthMax < 2 ^ c.wireWidth := by
    unfold Config.wireWidth
    split
    · rename_i hcompat
      obtain ⟨hL, hP, -⟩ := c.wireCompat_eq hcompat
      rw [hL, hP]
      decide
    · have hlt := c.blockLengthMax_lt
      rw [Config.blockLengthMax, Nat.mul_comm] at hlt
      exact hlt.trans (by decide)
  omega

/-- The offset of the pull in its first frame survives the wire. -/
theorem CmdPull.off_wire :
    wrap c.wireWidth p.pulledRdmaOffset % c.replyLengthMax = p.off c := by
  have hR := p.pulledRdmaOffset_lt
  unfold Config.wireWidth
  split
  · rename_i hcompat
    obtain ⟨hL, -, -⟩ := c.wireCompat_eq hcompat
    rw [CmdPull.off, hL, wrap, Nat.mod_mod_of_dvd _ (by decide)]
  · rw [wrap_of_lt hR, CmdPull.off]

variable (c p) in
/-- The request for block `b`, as it arrives. -/
def CmdPull.blockRequest (b : ℕ) : Request :=
  { blockLength := p.blockLength c b
    firstFrameOffset := p.blockOffset c b
    pulledRdmaOffset := wrap c.wireWidth p.pulledRdmaOffset
    frameIndex := p.blockFrame c b }

theorem IsBlock.fillPullBlockRequest {b i : ℕ} {h : Handle} (hd : IsBlock c p b (h.blockDesc i))
    (hoffset : h.pulledRdmaOffset = p.pulledRdmaOffset) :
    fillPullBlockRequest c h i = p.blockRequest c b := by
  obtain ⟨hidx, hlen, hoff⟩ := hd
  obtain ⟨hlt, hlt'⟩ := CmdPull.block_lt_wire (c := c) (p := p) b
  rw [Pull.fillPullBlockRequest, hidx, hlen, hoff, hoffset, wrap_of_lt hlt, wrap_of_lt hlt',
    CmdPull.blockRequest]

theorem Geo.fillPullBlockRequest {b nv i : ℕ} {h : Handle} (g : Geo c p b nv h) (hi : i < nv) :
    fillPullBlockRequest c h i = p.blockRequest c (b + i) :=
  (g.descs i hi).fillPullBlockRequest g.pulledRdmaOffset

/-- The replier finds the message offset of a block, whatever wraps on the way. -/
theorem blockMsgOffset_eq {b : ℕ} (hin : b = 0 ∨ b * c.replyPerBlock < p.frameCount c) :
    blockMsgOffset c (p.blockRequest c b) = p.cut c (p.blockFrame c b) := by
  have hoff := CmdPull.off_lt (c := c) (p := p)
  rw [blockMsgOffset, CmdPull.blockRequest, CmdPull.off_wire]
  rcases Nat.eq_zero_or_pos b with rfl | hb
  · have hzero : p.blockFrame c 0 = 0 := by simp [CmdPull.blockFrame]
    simp only [hzero, Nat.zero_mul, CmdPull.cut_zero, CmdPull.blockOffset, if_true, sub]
    rw [show wrap c.width 0 = 0 from Nat.zero_mod _, Nat.add_zero,
      Nat.mod_eq_of_lt ((hoff.trans c.replyLengthMax_lt).trans_le
        ((Nat.pow_le_pow_right (by decide) (by decide)).trans c.two_pow_width_le))]
    have hlt : p.off c < 2 ^ c.width := (hoff.trans c.replyLengthMax_lt).trans_le
        ((Nat.pow_le_pow_right (by decide) (by decide)).trans c.two_pow_width_le)
    rw [← wrap, wrap_wrap_of_le c.le_width, Nat.sub_add_cancel hlt.le]
    exact Nat.mod_eq_zero_of_dvd (Nat.pow_dvd_pow 2 c.le_width)
  · have hblock : b * c.replyPerBlock < p.frameCount c := hin.resolve_left (by omega)
    have hframe : p.blockFrame c b = b * c.replyPerBlock := Nat.min_eq_left hblock.le
    have hge : c.replyLengthMax ≤ b * c.replyPerBlock * c.replyLengthMax :=
      Nat.le_mul_of_pos_left _ (Nat.mul_pos hb c.replyPerBlock_pos)
    have hcut := CmdPull.cut_of_lt_frameCount hblock
    have hT : p.cut c (b * c.replyPerBlock) < 2 ^ 32 := (CmdPull.cut_le _).trans_lt p.totalLength_lt
    rw [hframe]
    dsimp only
    rw [sub_wrap_of_le (by omega), wrap_wrap_of_le c.le_width, ← hcut,
      show p.blockOffset c b = 0 from if_neg (by omega), Nat.add_zero, wrap_of_lt hT]

/-- Where the replier starts reading for block `b`. -/
theorem recvPullRequest_block {b regionLength : ℕ}
    (hin : b = 0 ∨ b * c.replyPerBlock < p.frameCount c) :
    recvPullRequest c regionLength (p.blockRequest c b) =
      let regionOffset := wrap 32 (p.cut c (p.blockFrame c b) +
        wrap c.wireWidth p.pulledRdmaOffset)
      if regionLength < regionOffset + p.blockLength c b then none
      else some {
        regionOffset
        replies := (List.range' (p.blockFrame c b)
          (p.blockFrame c (b + 1) - p.blockFrame c b)).map fun j =>
            frameReply c p j (regionOffset + (p.cut c j - p.cut c (p.blockFrame c b))) } := by
  have hle := CmdPull.blockFrame_succ_le (c := c) (p := p) b
  have hle' := CmdPull.blockFrame_le_succ (c := c) (p := p) b
  have hcount := CmdPull.blockFrame_le (c := c) (p := p) (b + 1)
  have hoff := CmdPull.off_lt (c := c) (p := p)
  have hlen : p.blockLength c b = p.cut c (p.blockFrame c b + (p.blockFrame c (b + 1) -
      p.blockFrame c b)) - p.cut c (p.blockFrame c b) := by
    rw [Nat.add_sub_cancel' hle', CmdPull.cut_blockFrame, CmdPull.cut_blockFrame]
    rfl
  have hblockOff : p.blockOffset c b ≤ c.replyLengthMax := by
    unfold CmdPull.blockOffset
    split <;> omega
  have hlimit : 0 < p.blockFrame c (b + 1) - p.blockFrame c b →
      wrap 32 (sub c.width c.replyLengthMax (p.blockOffset c b)) =
        (p.blockFrame c b + 1) * c.replyLengthMax - p.off c - p.cut c (p.blockFrame c b) := by
    intro hpos
    have hL := c.replyLengthMax_lt
    have hw := c.two_pow_width_le
    rw [sub_of_le hblockOff (by omega), wrap_of_lt (by omega),
      CmdPull.cut_of_lt_frameCount (by omega), Nat.succ_mul]
    rcases Nat.eq_zero_or_pos b with rfl | hb
    · simp only [CmdPull.blockOffset, if_true, CmdPull.blockFrame, Nat.zero_mul, Nat.zero_min]
      omega
    · have hframe : p.blockFrame c b = b * c.replyPerBlock :=
        Nat.min_eq_left (hin.resolve_left (by omega)).le
      have hge : c.replyLengthMax ≤ b * c.replyPerBlock * c.replyLengthMax :=
        Nat.le_mul_of_pos_left _ (Nat.mul_pos hb c.replyPerBlock_pos)
      rw [hframe, show p.blockOffset c b = 0 from if_neg (by omega)]
      omega
  rw [recvPullRequest, blockMsgOffset_eq hin, CmdPull.blockRequest]
  simp only [CmdPull.frames_block]
  rw [if_neg (by omega)]
  refine if_congr Iff.rfl rfl ?_
  rw [hlen, sendPullReplies_eq _ (by omega) hlimit]

/-! ## The puller -/

/-- The offset of a frame, rounded up, counts the frames before it. -/
theorem CmdPull.frames_cut {f : ℕ} (hf : f < p.frameCount c)
    (hfit : p.cut c f + c.replyLengthMax ≤ 2 ^ c.width) : c.frames (p.cut c f) = f := by
  have hoff := CmdPull.off_lt (c := c) (p := p)
  rw [c.frames_of_lt hfit, CmdPull.cut_of_lt_frameCount hf]
  refine eq_of_forall_ge_iff fun n => ?_
  rw [ceil_le_iff c.replyLengthMax_pos]
  refine ⟨fun h => ?_, fun h => ?_⟩
  · by_contra hlt
    have hmul : (n + 1) * c.replyLengthMax ≤ f * c.replyLengthMax :=
      Nat.mul_le_mul_right _ (by omega)
    rw [Nat.succ_mul] at hmul
    omega
  · have hmul : f * c.replyLengthMax ≤ n * c.replyLengthMax := Nat.mul_le_mul_right _ h
    omega

/-- Past the top of the word the rounding wraps, and the count is lost. -/
theorem CmdPull.frames_cut_of_overflow {f : ℕ} (hover : 2 ^ c.width < p.cut c f + c.replyLengthMax) :
    c.frames (p.cut c f) = 0 := by
  have hT : p.cut c f < 2 ^ 32 := (CmdPull.cut_le f).trans_lt p.totalLength_lt
  have hw := c.two_pow_width_le
  have hL := c.replyLengthMax_lt
  have hrest : p.cut c f + c.replyLengthMax - 1 - 2 ^ c.width < c.replyLengthMax := by omega
  have hsmall : p.cut c f + c.replyLengthMax - 1 - 2 ^ c.width < 2 ^ c.width := by
    have hpow : 2 ^ 16 ≤ 2 ^ c.width :=
      Nat.pow_le_pow_right (by decide) ((by decide : 16 ≤ 32).trans c.le_width)
    omega
  rw [Config.frames, wrap, Nat.mod_eq_sub_mod (by omega), Nat.mod_eq_of_lt hsmall,
    Nat.div_eq_of_lt hrest]

/-- Inside the window of a handle the 8-bit sequence number tells the frame. -/
theorem Geo.frameSeqnumOffset {b nv f : ℕ} {h : Handle} {r : Reply} (g : Geo c p b nv h)
    (hnv : nv ≤ blockDescsNr) (hlo : p.blockFrame c b ≤ f) (hhi : f < p.blockFrame c (b + nv))
    (hr : r.frameSeqnum = wrap 8 f) : frameSeqnumOffset h r = f - p.blockFrame c b := by
  have hP := c.replyPerBlock_le
  have hwindow : p.blockFrame c (b + nv) ≤ p.blockFrame c b + 256 := by
    have hmul : nv * c.replyPerBlock ≤ 4 * 64 := Nat.mul_le_mul hnv hP
    simp only [CmdPull.blockFrame, Nat.add_mul]
    omega
  rw [Pull.frameSeqnumOffset, hr, g.frameIndex, wrap]
  omega

/-- The puller checks the reply that brings frame `f` of a block in flight. -/
theorem Geo.checkPullReply {b nv i f : ℕ} {h : Handle} {r : Reply} (g : Geo c p b nv h)
    (hnv : nv ≤ blockDescsNr) (hi : i < nv) (hlo : p.blockFrame c (b + i) ≤ f)
    (hhi : f < p.blockFrame c (b + i + 1)) (hseq : r.frameSeqnum = wrap 8 f)
    (hlen : r.frameLength ≤ r.dataLength) :
    checkPullReply c h r =
      if c.frames r.msgOffset ≠ f then none
      else if (h.blockDesc i).framesMissingBitmap.testBit (f - p.blockFrame c (b + i)) then
        some (i, f - p.blockFrame c (b + i))
      else none := by
  have hcount : f < p.frameCount c := hhi.trans_le (CmdPull.blockFrame_le _)
  have hlob : p.blockFrame c b ≤ f :=
    (CmdPull.blockFrame_mono (Nat.le_add_right b i)).trans hlo
  have hhib : f < p.blockFrame c (b + nv) := hhi.trans_le (CmdPull.blockFrame_mono (by omega))
  have hoffset := g.frameSeqnumOffset hnv hlob hhib hseq
  have hframe : p.blockFrame c b = b * c.replyPerBlock := by
    simp only [CmdPull.blockFrame] at hlob ⊢
    omega
  have hframei : p.blockFrame c (b + i) = b * c.replyPerBlock + i * c.replyPerBlock := by
    rw [← Nat.add_mul]
    simp only [CmdPull.blockFrame] at hlo ⊢
    omega
  have hlast : f < p.blockFrame c (b + i) + c.replyPerBlock :=
    hhi.trans_le (CmdPull.blockFrame_succ_le _)
  have hdiv : (f - p.blockFrame c b) / c.replyPerBlock = i := by
    refine Nat.div_eq_of_lt_le ?_ ?_
    · rw [hframe]
      omega
    · rw [Nat.succ_mul, hframe]
      omega
  have hmod : (f - p.blockFrame c b) % c.replyPerBlock = f - p.blockFrame c (b + i) := by
    have hsplit := Nat.div_add_mod (f - p.blockFrame c b) c.replyPerBlock
    rw [hdiv, Nat.mul_comm] at hsplit
    omega
  have hsum : wrap 32 (h.frameIndex + (f - p.blockFrame c b)) = f := by
    rw [g.frameIndex, Nat.add_sub_cancel' hlob]
    exact wrap_of_lt (hcount.trans CmdPull.frameCount_lt)
  rw [Pull.checkPullReply, if_neg (by omega), hoffset, hsum, g.requested]
  refine if_congr Iff.rfl rfl ?_
  rw [if_neg (by omega), hdiv, hmod]

end Xen2mx.Pull
