/-
# `Xen2mx.Pull.Agreement` — puller and replier agree on the frames

`puller b` is the handle of a pull whose first `b` blocks arrived one after the
other.  Its first descriptor is block `b` of the pull, and the pull is over when
no descriptor is valid.  `Agree` says that the replies to the blocks of a pull
tile it, are read at the right place of the pulled region, and are recognised by
the puller in every window they can arrive in; `Fits` is the condition for it on
the total length and the offset of the pull.

**Proved here.**

    puller and replier agree  ⟺  the last frame, rounded up, and the offset of the
                                 last block in the region stay within 32 bits    (`agree_iff_fits`)
-/
import Xen2mx.Pull.Replies

namespace Xen2mx.Pull

open Word

variable (c : Config) (p : CmdPull)

/-! ## The runs of the puller without loss -/

/-- The first block of a pull is done: it is dropped and the next ones are requested,
as in `omx_progress_pull_on_recv_pull_reply_locked`. -/
def advance (h : Handle) : Handle := prepareNextBlocks c (pullHandleFirstBlockDone c h)

/-- The handle of the pull, over the memory `mem`, after its first `b` blocks. -/
def puller (mem : ℕ → BlockDesc) (b : ℕ) : Handle :=
  (advance c)^[b] (ioctlPullBlocks c (pullHandleCreate mem p.totalLength p.pulledRdmaOffset))

/-! ## Agreement -/

/-- Puller and replier agree on the pull, read from a region of `regionLength` bytes. -/
structure Agree (mem : ℕ → BlockDesc) (regionLength : ℕ) : Prop where
  /-- The blocks come to an end, each is served, and the replies tile the pull: every
  byte of it is in one reply and in one only. -/
  tiles : ∃ B, (∀ b < B, (puller c p mem b).nrValidBlockDescs ≠ 0) ∧
    (puller c p mem B).nrValidBlockDescs = 0 ∧ ∃ served : ℕ → Served,
      (∀ b < B, recvPullRequest c regionLength (fillPullBlockRequest c (puller c p mem b) 0) =
        some (served b)) ∧
      Tiles 0 p.totalLength ((List.range B).flatMap fun b =>
        (served b).replies.map fun r => (r.msgOffset, r.dataLength))
  /-- Each reply is read at its place in the region, and says how long it is. -/
  placed : ∀ b i s r, (∀ b' ≤ b, (puller c p mem b').nrValidBlockDescs ≠ 0) →
    i < (puller c p mem b).nrValidBlockDescs →
    recvPullRequest c regionLength (fillPullBlockRequest c (puller c p mem b) i) = some s →
    r ∈ s.replies → r.regionOffset = p.pulledRdmaOffset + r.msgOffset ∧ r.frameLength = r.dataLength
  /-- The puller accepts each reply to a block in flight. -/
  accepted : ∀ b i s r, (∀ b' ≤ b, (puller c p mem b').nrValidBlockDescs ≠ 0) →
    i < (puller c p mem b).nrValidBlockDescs →
    recvPullRequest c regionLength (fillPullBlockRequest c (puller c p mem b) i) = some s →
    r ∈ s.replies → (checkPullReply c (puller c p mem b) r).isSome

/-- Nothing leaves the word: the last frame rounded up to a whole frame, unless
`OMX_PULL_REPLY_LENGTH_MAX` makes that computation wide; the offset of the last
block in the pulled region; and, on the MX wire, the offset of the pull. -/
structure Fits : Prop where
  frame : c.wide = true ∨ p.cut c (p.frameCount c - 1) + c.replyLengthMax ≤ 2 ^ 32
  region : p.cut c ((p.frameCount c - 1) / c.replyPerBlock * c.replyPerBlock)
    + p.pulledRdmaOffset < 2 ^ 32
  wire : c.wireCompat = true → p.frameCount c = 0 ∨ p.pulledRdmaOffset < 2 ^ 16

variable {c p}

/-! ## The handles of the puller -/

variable (c p) in
/-- No frame of the blocks in flight has arrived. -/
def Fresh (b nv : ℕ) (h : Handle) : Prop :=
  ∀ i < nv, ∀ j, p.blockFrame c (b + i) + j < p.blockFrame c (b + i + 1) →
    (h.blockDesc i).framesMissingBitmap.testBit j = true

theorem Fresh.append {b nv : ℕ} {h : Handle} (g : Geo c p b nv h) (hf : Fresh c p b nv h) :
    Fresh c p b (nv + 1) (pullHandleAppendNeededFrames c h (p.blockLength c (b + nv))
      (p.blockOffset c (b + nv))) := by
  intro i hi j hj
  rw [append_blockDesc, g.valid]
  rcases Nat.lt_succ_iff_lt_or_eq.1 hi with hlt | rfl
  · rw [if_neg hlt.ne]
    exact hf i hlt j hj
  · rw [if_pos rfl, CmdPull.frames_block]
    have hle := CmdPull.blockFrame_succ_le (c := c) (p := p) (b + i)
    rw [testBit_frameMask (by omega) (by omega)]
    exact decide_eq_true (by omega)

theorem Fresh.firstBlockDone {b nv : ℕ} {h : Handle} (g : Geo c p b (nv + 1) h)
    (hnv : nv < blockDescsNr) (hf : Fresh c p b (nv + 1) h) :
    Fresh c p (b + 1) nv (pullHandleFirstBlockDone c h) := by
  intro i hi j hj
  have hne : i ≠ blockDescsNr - 1 := by omega
  simp only [pullHandleFirstBlockDone, g.valid, Nat.add_sub_cancel, if_pos hi, if_neg hne]
  exact hf (i + 1) (by omega) j (by rwa [show b + (i + 1) = b + 1 + i by omega])

variable (c p) in
/-- A handle whose first block is block `b`, with as many requested as there can be. -/
structure AtBlock (b nv : ℕ) (h : Handle) : Prop where
  geo : Geo c p b nv h
  fresh : Fresh c p b nv h
  le : nv ≤ blockDescsNr
  pos : 1 ≤ b + nv
  full : nv = blockDescsNr ∨ h.remainingLength = 0

theorem AtBlock.prepare {b nv : ℕ} {h : Handle} (g : Geo c p b nv h) (hf : Fresh c p b nv h)
    (hle : nv ≤ blockDescsNr) (hpos : 1 ≤ b + nv) :
    ∃ nv', nv ≤ nv' ∧ AtBlock c p b nv' (prepareNextBlocks c h) := by
  obtain ⟨nv', hmono, hle', g', hf', hfull⟩ :=
    g.prepareNextBlocks (I := Fresh c p b) (fun nv h g _ _ hf => hf.append g) hpos hle hf
  exact ⟨nv', hmono, g', hf', hle', by omega, hfull⟩

theorem AtBlock.start (mem : ℕ → BlockDesc) :
    ∃ nv, 1 ≤ nv ∧ AtBlock c p 0 nv (puller c p mem 0) := by
  have g := (Geo.create (c := c) (p := p) mem).append (.inl rfl)
  have hfresh : Fresh c p 0 0 (pullHandleCreate mem p.totalLength p.pulledRdmaOffset) := by
    intro i hi
    omega
  have hf := hfresh.append (Geo.create mem)
  obtain ⟨nv, hnv, hat⟩ := AtBlock.prepare g hf (by decide) (by omega)
  refine ⟨nv, by omega, ?_⟩
  have hlen : min (c.blockLengthMax - p.pulledRdmaOffset % c.replyLengthMax) p.totalLength =
      p.blockLength c 0 := CmdPull.min_firstBlock
  have hoff : p.pulledRdmaOffset % c.replyLengthMax = p.blockOffset c 0 := rfl
  have hstart : puller c p mem 0 = prepareNextBlocks c (pullHandleAppendNeededFrames c
      (pullHandleCreate mem p.totalLength p.pulledRdmaOffset) (p.blockLength c 0)
      (p.blockOffset c 0)) := by
    rw [← hlen, ← hoff]
    rfl
  rw [hstart]
  exact hat

theorem AtBlock.advance {b nv : ℕ} {h : Handle} (ha : AtBlock c p b (nv + 1) h) :
    ∃ nv', nv ≤ nv' ∧ AtBlock c p (b + 1) nv' (advance c h) :=
  AtBlock.prepare ha.geo.firstBlockDone (ha.fresh.firstBlockDone ha.geo (by have := ha.le; omega))
    (by have := ha.le; omega) (by omega)

/-- As long as blocks are in flight the puller is where it should be. -/
theorem puller_atBlock (mem : ℕ → BlockDesc) :
    ∀ b, (∀ b' < b, (puller c p mem b').nrValidBlockDescs ≠ 0) →
      ∃ nv, AtBlock c p b nv (puller c p mem b)
  | 0, _ => by
      obtain ⟨nv, -, hat⟩ := AtBlock.start (c := c) (p := p) mem
      exact ⟨nv, hat⟩
  | b + 1, h => by
      obtain ⟨nv, hat⟩ := puller_atBlock mem b fun b' hb' => h b' (by omega)
      have hne := h b (Nat.lt_succ_self b)
      rw [hat.geo.valid] at hne
      obtain ⟨nv, rfl⟩ := Nat.exists_eq_succ_of_ne_zero hne
      obtain ⟨nv', -, hat'⟩ := hat.advance
      refine ⟨nv', ?_⟩
      rw [puller, Function.iterate_succ_apply']
      exact hat'

/-- A block is in flight exactly while it has frames, the first one of an empty pull apart. -/
theorem AtBlock.nv_eq_zero_iff {b nv : ℕ} {h : Handle} (ha : AtBlock c p b nv h) :
    nv = 0 ↔ 1 ≤ b ∧ p.frameCount c ≤ b * c.replyPerBlock := by
  have hpos := ha.pos
  constructor
  · rintro rfl
    have hb : 1 ≤ b := by omega
    refine ⟨hb, ?_⟩
    have hrem : h.remainingLength = 0 := ha.full.resolve_left (by decide)
    by_contra hlt
    have hcut := CmdPull.cut_eq_totalLength_iff (c := c) (p := p)
      (Nat.mul_pos hb c.replyPerBlock_pos)
    have hle := CmdPull.cut_le (c := c) (p := p) (b * c.replyPerBlock)
    have hgeo := ha.geo.remaining
    rw [hrem, Nat.add_zero] at hgeo
    exact hlt (hcut.1 (by omega))
  · rintro ⟨hb, hle⟩
    by_contra hne
    rcases ha.geo.inside 0 (Nat.pos_of_ne_zero hne) with hzero | hlt
    · omega
    · rw [Nat.add_zero] at hlt
      omega

/-- A block in flight is no later than the last block of the pull. -/
theorem CmdPull.le_lastBlock {b : ℕ} (hin : b = 0 ∨ b * c.replyPerBlock < p.frameCount c) :
    b ≤ (p.frameCount c - 1) / c.replyPerBlock := by
  rcases hin with rfl | hlt
  · exact Nat.zero_le _
  · exact (Nat.le_div_iff_mul_le c.replyPerBlock_pos).2 (by omega)

/-- The blocks in flight, from the start of the pull: those up to the last one. -/
theorem puller_valid (mem : ℕ → BlockDesc) :
    (∀ b ≤ (p.frameCount c - 1) / c.replyPerBlock, (puller c p mem b).nrValidBlockDescs ≠ 0) ∧
      (puller c p mem ((p.frameCount c - 1) / c.replyPerBlock + 1)).nrValidBlockDescs = 0 := by
  have hvalid : ∀ b ≤ (p.frameCount c - 1) / c.replyPerBlock,
      (puller c p mem b).nrValidBlockDescs ≠ 0 := by
    intro b
    induction b using Nat.strong_induction_on with
    | _ b ih =>
        intro hb
        obtain ⟨nv, hat⟩ := puller_atBlock mem b fun b' hb' => ih b' hb' (by omega)
        rw [hat.geo.valid, Ne, hat.nv_eq_zero_iff]
        rintro ⟨hpos, hle⟩
        have hmul := (Nat.le_div_iff_mul_le c.replyPerBlock_pos).1 hb
        have := Nat.mul_pos hpos c.replyPerBlock_pos
        omega
  refine ⟨hvalid, ?_⟩
  obtain ⟨nv, hat⟩ := puller_atBlock mem ((p.frameCount c - 1) / c.replyPerBlock + 1)
    fun b' hb' => hvalid b' (by omega)
  rw [hat.geo.valid, hat.nv_eq_zero_iff]
  refine ⟨Nat.succ_pos _, ?_⟩
  have hlt := (Nat.div_lt_iff_lt_mul c.replyPerBlock_pos).1
    (Nat.lt_succ_self ((p.frameCount c - 1) / c.replyPerBlock))
  rw [Nat.succ_eq_add_one] at hlt
  omega

/-! ## Agreement follows from the condition -/

/-- What the replier makes of block `b` when nothing wraps. -/
def CmdPull.servedBlock (c : Config) (p : CmdPull) (b : ℕ) : Served :=
  { regionOffset := wrap 32 (p.cut c (p.blockFrame c b) + wrap c.wireWidth p.pulledRdmaOffset)
    replies := (List.range' (p.blockFrame c b) (p.blockFrame c (b + 1) - p.blockFrame c b)).map
      fun j => frameReply c p j (p.pulledRdmaOffset + p.cut c j) }

theorem Fits.served (hfit : Fits c p) {b regionLength : ℕ}
    (hregion : p.pulledRdmaOffset + p.totalLength ≤ regionLength)
    (hin : b = 0 ∨ b * c.replyPerBlock < p.frameCount c) :
    recvPullRequest c regionLength (p.blockRequest c b) = some (p.servedBlock c b) := by
  rw [recvPullRequest_block hin]
  have hle := CmdPull.blockFrame_le_succ (c := c) (p := p) b
  have hend := CmdPull.cut_le (c := c) (p := p) ((b + 1) * c.replyPerBlock)
  have hstart := CmdPull.cut_block_le_succ (c := c) (p := p) b
  rcases Nat.eq_zero_or_pos (p.frameCount c) with hzero | hpos
  · have hT : p.totalLength = 0 := by
      have hceil := (ceil_le_iff c.replyLengthMax_pos).1 hzero.le
      omega
    have hnone : p.blockFrame c (b + 1) = 0 := by
      have := CmdPull.blockFrame_le (c := c) (p := p) (b + 1)
      omega
    have hcut : p.cut c (p.blockFrame c b) = 0 := by
      have := CmdPull.cut_le (c := c) (p := p) (p.blockFrame c b)
      omega
    have hmod : wrap 32 (0 + wrap c.wireWidth p.pulledRdmaOffset) ≤ p.pulledRdmaOffset := by
      rw [Nat.zero_add]
      exact (Nat.mod_le _ _).trans (Nat.mod_le _ _)
    have hlen : p.blockLength c b = 0 := by
      rw [CmdPull.blockLength]
      omega
    simp only [hcut, hlen, hnone, Nat.zero_sub, CmdPull.servedBlock]
    rw [if_neg (by omega)]
    rfl
  · have hwire : wrap c.wireWidth p.pulledRdmaOffset = p.pulledRdmaOffset := by
      have hR := p.pulledRdmaOffset_lt
      refine wrap_of_lt ?_
      unfold Config.wireWidth
      split
      · rename_i hcompat
        exact (hfit.wire hcompat).resolve_left hpos.ne'
      · exact hR
    have hcut : p.cut c (p.blockFrame c b) + p.pulledRdmaOffset < 2 ^ 32 := by
      have hlast : p.cut c (b * c.replyPerBlock) ≤
          p.cut c ((p.frameCount c - 1) / c.replyPerBlock * c.replyPerBlock) :=
        CmdPull.cut_mono (Nat.mul_le_mul_right _ (CmdPull.le_lastBlock hin))
      have := hfit.region
      rw [CmdPull.cut_blockFrame]
      omega
    simp only [hwire, wrap_of_lt hcut, CmdPull.servedBlock]
    rw [if_neg (by rw [CmdPull.cut_blockFrame, CmdPull.blockLength]; omega)]
    congr 2
    refine List.map_congr_left fun j hj => ?_
    have hjle : p.cut c (p.blockFrame c b) ≤ p.cut c j :=
      CmdPull.cut_mono (List.mem_range'_1.1 hj).1
    rw [show p.cut c (p.blockFrame c b) + p.pulledRdmaOffset +
      (p.cut c j - p.cut c (p.blockFrame c b)) = p.pulledRdmaOffset + p.cut c j by omega]

theorem Fits.frames_cut (hfit : Fits c p) {f : ℕ} (hf : f < p.frameCount c) :
    c.frames (p.cut c f) = f := by
  refine CmdPull.frames_cut hf ?_
  have hL := c.replyLengthMax_lt
  have hT : p.cut c f < 2 ^ 32 := (CmdPull.cut_le f).trans_lt p.totalLength_lt
  have hmono : p.cut c f ≤ p.cut c (p.frameCount c - 1) := CmdPull.cut_mono (by omega)
  rcases hfit.frame with hwide | hlast
  · have hwidth : (2 : ℕ) ^ c.width = 2 ^ 64 := by rw [Config.width, if_pos hwide]
    omega
  · have := c.two_pow_width_le
    omega

/-- The replies to the first `B` blocks tile the pull up to there. -/
theorem tiles_servedBlock : ∀ B, Tiles 0 (p.cut c (p.blockFrame c B))
    ((List.range B).flatMap fun b => (p.servedBlock c b).replies.map
      fun r => (r.msgOffset, r.dataLength))
  | 0 => by
      rw [show p.blockFrame c 0 = 0 by simp [CmdPull.blockFrame], CmdPull.cut_zero]
      exact .nil 0
  | B + 1 => by
      have hle := CmdPull.blockFrame_le_succ (c := c) (p := p) B
      have hblock := Tiles.of_cuts (CmdPull.cut_mono (c := c) (p := p)) (p.blockFrame c B)
        (p.blockFrame c (B + 1) - p.blockFrame c B)
      rw [Nat.add_sub_cancel' hle] at hblock
      rw [List.range_succ, List.flatMap_append, List.flatMap_singleton]
      refine (tiles_servedBlock B).append ?_
      rw [CmdPull.servedBlock, List.map_map]
      exact hblock

/-- A block in flight is served as the geometry says. -/
theorem Fits.recv (hfit : Fits c p) {b nv i regionLength : ℕ} {h : Handle} (hat : AtBlock c p b nv h)
    (hi : i < nv) (hregion : p.pulledRdmaOffset + p.totalLength ≤ regionLength) :
    recvPullRequest c regionLength (fillPullBlockRequest c h i) =
      some (p.servedBlock c (b + i)) := by
  rw [hat.geo.fillPullBlockRequest hi]
  exact hfit.served hregion (hat.geo.inside i hi)

theorem Fits.agree (hfit : Fits c p) (mem : ℕ → BlockDesc) {regionLength : ℕ}
    (hregion : p.pulledRdmaOffset + p.totalLength ≤ regionLength) :
    Agree c p mem regionLength := by
  obtain ⟨hvalid, hend⟩ := puller_valid (c := c) (p := p) mem
  have hreply : ∀ b i s r, (∀ b' ≤ b, (puller c p mem b').nrValidBlockDescs ≠ 0) →
      i < (puller c p mem b).nrValidBlockDescs →
      recvPullRequest c regionLength (fillPullBlockRequest c (puller c p mem b) i) = some s →
      r ∈ s.replies → ∃ nv f, AtBlock c p b nv (puller c p mem b) ∧ i < nv ∧
        p.blockFrame c (b + i) ≤ f ∧ f < p.blockFrame c (b + i + 1) ∧
        r = frameReply c p f (p.pulledRdmaOffset + p.cut c f) := by
    intro b i s r hb hi hs hr
    obtain ⟨nv, hat⟩ := puller_atBlock mem b fun b' hb' => hb b' hb'.le
    rw [hat.geo.valid] at hi
    rw [hfit.recv hat hi hregion] at hs
    cases hs
    obtain ⟨f, hf, rfl⟩ := List.mem_map.1 hr
    have hf := List.mem_range'_1.1 hf
    exact ⟨nv, f, hat, hi, hf.1, by omega, rfl⟩
  refine ⟨⟨_, fun b hb => hvalid b (Nat.le_of_lt_succ hb), hend, p.servedBlock c, ?_, ?_⟩, ?_, ?_⟩
  · intro b hb
    obtain ⟨nv, hat⟩ := puller_atBlock mem b fun b' hb' => hvalid b' (by omega)
    have hne := hvalid b (by omega)
    rw [hat.geo.valid] at hne
    exact hfit.recv hat (Nat.pos_of_ne_zero hne) hregion
  · obtain ⟨nv, hat⟩ := puller_atBlock mem ((p.frameCount c - 1) / c.replyPerBlock + 1)
      fun b hb => hvalid b (Nat.le_of_lt_succ hb)
    rw [hat.geo.valid, hat.nv_eq_zero_iff] at hend
    have htiles := tiles_servedBlock (c := c) (p := p) ((p.frameCount c - 1) / c.replyPerBlock + 1)
    rwa [CmdPull.cut_blockFrame, CmdPull.cut_of_frameCount_le hend.2] at htiles
  · intro b i s r hb hi hs hr
    obtain ⟨nv, f, -, -, -, -, rfl⟩ := hreply b i s r hb hi hs hr
    exact ⟨rfl, rfl⟩
  · intro b i s r hb hi hs hr
    obtain ⟨nv, f, hat, hi, hlo, hhi, rfl⟩ := hreply b i s r hb hi hs hr
    have hcount : f < p.frameCount c := hhi.trans_le (CmdPull.blockFrame_le _)
    have hbit := hat.fresh i hi (f - p.blockFrame c (b + i)) (by omega)
    rw [hat.geo.checkPullReply hat.le hi hlo hhi rfl le_rfl]
    simp only [frameReply, hfit.frames_cut hcount, ne_eq, not_true_eq_false, if_false, hbit,
      if_true, Option.isSome_some]

/-! ## And the condition from agreement -/

/-- In a pull that agrees, a frame of a block at the head of the window is read at its
place and recognised. -/
theorem Agree.frame {mem : ℕ → BlockDesc} {regionLength b f : ℕ}
    (ha : Agree c p mem regionLength) (hb : b ≤ (p.frameCount c - 1) / c.replyPerBlock)
    (hlo : p.blockFrame c b ≤ f) (hhi : f < p.blockFrame c (b + 1)) :
    wrap 32 (p.cut c (p.blockFrame c b) + wrap c.wireWidth p.pulledRdmaOffset) =
        p.pulledRdmaOffset + p.cut c (p.blockFrame c b) ∧ c.frames (p.cut c f) = f := by
  obtain ⟨hvalid, hend⟩ := puller_valid (c := c) (p := p) mem
  obtain ⟨nv, hat⟩ := puller_atBlock mem b fun b' hb' => hvalid b' (by omega)
  have hne := hvalid b hb
  have hnv := hne
  rw [hat.geo.valid] at hnv
  have hpos : 0 < nv := Nat.pos_of_ne_zero hnv
  obtain ⟨B, hB, hBend, served, hserved, -⟩ := ha.tiles
  have hbB : b < B := by
    by_contra hge
    exact hvalid B (by omega) hBend
  have hs := hserved b hbB
  have hrecv := hs
  rw [hat.geo.fillPullBlockRequest hpos, recvPullRequest_block (hat.geo.inside 0 hpos)] at hrecv
  simp only [Nat.add_zero] at hrecv
  split at hrecv
  · cases hrecv
  · have hreplies := congrArg Served.replies (Option.some.inj hrecv)
    simp only at hreplies
    have hmem : ∀ j, p.blockFrame c b ≤ j → j < p.blockFrame c (b + 1) →
        frameReply c p j (wrap 32 (p.cut c (p.blockFrame c b) + wrap c.wireWidth
          p.pulledRdmaOffset) + (p.cut c j - p.cut c (p.blockFrame c b))) ∈ (served b).replies := by
      intro j hj hj'
      rw [← hreplies]
      exact List.mem_map.2 ⟨j, List.mem_range'_1.2 (by omega), rfl⟩
    have hall : ∀ b' ≤ b, (puller c p mem b').nrValidBlockDescs ≠ 0 := fun b' hb' =>
      hvalid b' (by omega)
    have hzero : 0 < (puller c p mem b).nrValidBlockDescs := Nat.pos_of_ne_zero hne
    constructor
    · have hplaced := (ha.placed b 0 _ _ hall hzero hs (hmem _ le_rfl (by omega))).1
      simpa only [frameReply, Nat.sub_self, Nat.add_zero] using hplaced
    · have hacc := ha.accepted b 0 _ _ hall hzero hs (hmem f hlo hhi)
      rw [hat.geo.checkPullReply hat.le hpos hlo hhi rfl le_rfl] at hacc
      by_contra hframe
      simp only [frameReply, ne_eq, hframe, not_false_eq_true, if_true, Option.isSome_none,
        Bool.false_eq_true] at hacc

theorem Agree.fits {mem : ℕ → BlockDesc} {regionLength : ℕ} (ha : Agree c p mem regionLength) :
    Fits c p := by
  have hR := p.pulledRdmaOffset_lt
  have hL := c.replyLengthMax_lt
  rcases Nat.eq_zero_or_pos (p.frameCount c) with hzero | hpos
  · refine ⟨.inr ?_, ?_, fun _ => .inl hzero⟩
    · rw [hzero, Nat.zero_sub, CmdPull.cut_zero]
      omega
    · rw [hzero, Nat.zero_sub, Nat.zero_div, Nat.zero_mul, CmdPull.cut_zero]
      omega
  · have hdiv := Nat.div_mul_le_self (p.frameCount c - 1) c.replyPerBlock
    have hlt := (Nat.div_lt_iff_lt_mul c.replyPerBlock_pos).1
      (Nat.lt_succ_self ((p.frameCount c - 1) / c.replyPerBlock))
    rw [Nat.succ_eq_add_one] at hlt
    have hlo : p.blockFrame c ((p.frameCount c - 1) / c.replyPerBlock) ≤ p.frameCount c - 1 :=
      (Nat.min_le_left _ _).trans hdiv
    have hhi : p.frameCount c - 1 <
        p.blockFrame c ((p.frameCount c - 1) / c.replyPerBlock + 1) :=
      lt_min hlt (by omega)
    obtain ⟨hplaced, hframe⟩ := ha.frame le_rfl hlo hhi
    refine ⟨?_, ?_, ?_⟩
    · rcases Bool.eq_false_or_eq_true c.wide with hwide | hwide
      · exact .inl hwide
      · right
        by_contra hover
        have hwidth : c.width = 32 := by
          rw [Config.width, hwide]
          rfl
        have hlost := CmdPull.frames_cut_of_overflow (c := c) (p := p)
          (f := p.frameCount c - 1) (by rw [hwidth]; omega)
        rw [hframe] at hlost
        rw [hlost, CmdPull.cut_zero] at hover
        omega
    · have hbound := wrap_lt 32 (p.cut c (p.blockFrame c ((p.frameCount c - 1) / c.replyPerBlock)) +
        wrap c.wireWidth p.pulledRdmaOffset)
      rw [hplaced, CmdPull.cut_blockFrame] at hbound
      omega
    · intro hcompat
      right
      have hfirst : p.blockFrame c 0 = 0 := by simp [CmdPull.blockFrame]
      have hone : 0 < p.blockFrame c (0 + 1) :=
        lt_min (Nat.mul_pos (Nat.succ_pos 0) c.replyPerBlock_pos) hpos
      obtain ⟨hplaced0, -⟩ := ha.frame (Nat.zero_le _) le_rfl (by omega)
      rw [hfirst, CmdPull.cut_zero, Nat.zero_add, Nat.add_zero, Config.wireWidth,
        if_pos hcompat] at hplaced0
      rw [← hplaced0]
      exact (Nat.mod_le _ _).trans_lt (wrap_lt 16 _)

/-! ## The result -/

/-- For every length and offset of a pull, and every region that holds it: the blocks
the puller requests and the frames the replier sends tile the pull, each read at its
place and accepted by the puller, exactly when nothing leaves the word. -/
theorem agree_iff_fits (c : Config) (p : CmdPull) (mem : ℕ → BlockDesc) {regionLength : ℕ}
    (hregion : p.pulledRdmaOffset + p.totalLength ≤ regionLength) :
    Agree c p mem regionLength ↔ Fits c p :=
  ⟨Agree.fits, fun hfit => hfit.agree mem hregion⟩

/-- A megabyte pulled from an unaligned offset. -/
theorem agree_iff_fits_megabyte :
    Agree defaultConfig ⟨2 ^ 20, 5000, by decide, by decide⟩ (fun _ => ⟨0, 0, 0, 0⟩) (2 ^ 21) :=
  (agree_iff_fits defaultConfig ⟨2 ^ 20, 5000, by decide, by decide⟩ _ (by decide)).2
    ⟨.inl rfl, by decide, nofun⟩

/-- On the MX wire, 2³² - 1 bytes pulled from offset 2: the last frame holds one byte, at
offset 2³² - 2, and the puller takes it for frame 0 whatever it is sent. -/
theorem not_agree_mxWire :
    ¬ Agree mxWireConfig ⟨2 ^ 32 - 1, 2, by decide, by decide⟩ (fun _ => ⟨0, 0, 0, 0⟩) (2 ^ 32 + 1) := by
  intro h
  rcases h.fits.frame with hwide | hlast
  · cases hwide
  · revert hlast
    decide

end Xen2mx.Pull
