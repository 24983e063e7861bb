/-
# `Xen2mx.Pull.Hostile` — pull requests that nobody would send

Whoever knows the session of an endpoint may ask for a block with any numbers.  The number of replies
is computed from the sum of two of them, and the block is compared with the region; the first reply
is as long as the offset of its first frame leaves of a frame, the others are full, as long as
something is left.

    first_frame_offset    the first reply is short by so much
    block_length          the sum of the lengths
    frame_index,
    pulled_rdma_offset    where the block is in the region

Nothing says that the offset is one in a frame.  If it is the length of one, the first reply is
empty; if it is more, the rest of the frame wraps and the first reply may be as long as the block.
The sum may wrap too, and then there are too few replies.

A region of a guest is read by the contiguous callbacks, or the request is dropped; another may
have more segments.

**Proved here.**

    which lengths the loop gives                                      (`replyLengths_good_iff`)
    every reply has from one byte to a frame, and they are the block,
    which is read in the region
        ⟺  the request is cut well, and the block is not read from
            more segments up to the end of the region                 (`servePullRequest_iff`)
    a block that starts behind a frame has an empty reply             (`servePullRequest_empty`)
-/
import Mathlib.Algebra.Order.BigOperators.Group.List
import Xen2mx.Lib.Faults
import Xen2mx.Pull.Geometry
import Xen2mx.Region.OffsetCache

namespace Xen2mx.Pull

open Word
open Region (UserRegion OffsetCache offsetCacheInit transfers totalLength slice slices Spared)
open Pages (Piece)

variable {π : Type*} {pageShift : ℕ}

/-! ## Replies with their data -/

/-- `omx_skb_frags` and `omx_skb_copy_max`. -/
structure SkbConfig where
  skbFrags : ℕ
  skbCopyMax : ℕ

/-- `sizeof(struct omx_pkt_head) + sizeof(struct omx_pkt_pull_reply)`. -/
def replyHdrLen : ℕ := 16 + 16

/-- Whether pages are attached to the packet of a reply, and not copied. -/
def attached (skb : SkbConfig) (frameLength : ℕ) : Bool :=
  !(frameLength ≤ skb.skbCopyMax || replyHdrLen + frameLength < 60 || skb.skbFrags = 0)

/-- `omx_xen_user_region_offset_cache_init`, for a region of a guest, or
`omx_user_region_offset_cache_init`. -/
def regionCacheInit (xen : Bool) (r : UserRegion π pageShift) (offset length : ℕ) :
    Except Region.Fault (Option OffsetCache) :=
  if xen = true ∧ 1 < r.segments.length then .ok none else offsetCacheInit r offset length

/-- A reply, and the pieces that its data is. -/
structure SentReply (π : Type*) where
  reply : Reply
  pieces : List (Piece π)

/-- `omx_recv_pull_request`: the replies, with their data, if the request is not dropped. -/
def servePullRequest (c : Config) (skb : SkbConfig) (xen : Bool) (r : UserRegion π pageShift)
    (req : Request) : Except Region.Fault (Option (List (SentReply π))) :=
  match recvPullRequest c (totalLength r.segments) req with
  | none => .ok none
  | some served =>
      (regionCacheInit xen r served.regionOffset req.blockLength).bind fun
        | none => .ok none
        | some cache =>
            let calls := served.replies.map fun reply =>
              (attached skb reply.dataLength, reply.dataLength)
            (transfers r skb.skbFrags cache calls).bind fun results =>
              .ok (results.map fun results =>
                (served.replies.zip results).map fun (reply, pieces) => ⟨reply, pieces⟩)

/-! ## Lengths -/

/-- The lengths that the loop gives `n` more replies, if `limit` is the room in the first of them. -/
def replyLengths (max : ℕ) : (n limit blockRemainingLength : ℕ) → List ℕ
  | 0, _, _ => []
  | n + 1, limit, blockRemainingLength =>
      min limit blockRemainingLength ::
        replyLengths max n max (blockRemainingLength - min limit blockRemainingLength)

/-- From one byte to a frame each, and the block together. -/
def GoodLengths (max blockLength : ℕ) (lengths : List ℕ) : Prop :=
  (∀ l ∈ lengths, 1 ≤ l ∧ l ≤ max) ∧ lengths.sum = blockLength

theorem goodLengths_nil_iff {max blockLength : ℕ} :
    GoodLengths max blockLength [] ↔ blockLength = 0 :=
  ⟨fun h => h.2.symm, fun h => ⟨nofun, h.symm⟩⟩

theorem goodLengths_cons_iff {max blockLength l : ℕ} {lengths : List ℕ} (hle : l ≤ blockLength) :
    GoodLengths max blockLength (l :: lengths) ↔
      (1 ≤ l ∧ l ≤ max) ∧ GoodLengths max (blockLength - l) lengths := by
  rw [GoodLengths, GoodLengths, List.forall_mem_cons, List.sum_cons, and_assoc]
  refine and_congr_right fun _ => and_congr_right fun _ => ?_
  omega

/-- Full replies are good if there are as many as are needed. -/
theorem replyLengths_full_iff {max : ℕ} (hmax : 0 < max) (n blockLength : ℕ) :
    GoodLengths max blockLength (replyLengths max n max blockLength) ↔
      n = (blockLength + max - 1) / max := by
  induction n generalizing blockLength with
  | zero => exact goodLengths_nil_iff.trans ((pieces_eq_zero_iff hmax).symm.trans eq_comm)
  | succ n ih =>
      rw [replyLengths, goodLengths_cons_iff (Nat.min_le_right _ _), ih]
      rcases Nat.eq_zero_or_pos blockLength with rfl | hpos
      · rw [(pieces_eq_zero_iff hmax).2 rfl]
        exact iff_of_false (fun h => by omega) (Nat.succ_ne_zero n)
      · rw [pieces_eq_succ hmax hpos]
        omega

/-- Replies of which the first is short, or long, are good if the first is and the others are as many
as are needed for what it leaves. -/
theorem replyLengths_good_iff {max : ℕ} (hmax : 0 < max) (n limit blockLength : ℕ) :
    GoodLengths max blockLength (replyLengths max n limit blockLength) ↔
      n = 0 ∧ blockLength = 0 ∨
        1 ≤ min limit blockLength ∧ min limit blockLength ≤ max ∧
          n = (blockLength - min limit blockLength + max - 1) / max + 1 := by
  cases n with
  | zero =>
      rw [replyLengths, goodLengths_nil_iff]
      exact ⟨fun h => .inl ⟨rfl, h⟩, fun h => h.elim And.right fun h => nomatch h.2.2⟩
  | succ n =>
      rw [replyLengths, goodLengths_cons_iff (Nat.min_le_right _ _), replyLengths_full_iff hmax,
        and_assoc, or_iff_right fun h => Nat.succ_ne_zero n h.1, Nat.succ_inj]

theorem sum_replyLengths_le (max n limit blockLength : ℕ) :
    (replyLengths max n limit blockLength).sum ≤ blockLength := by
  induction n generalizing limit blockLength with
  | zero => exact Nat.zero_le _
  | succ n ih =>
      have hrest := ih max (blockLength - min limit blockLength)
      rw [replyLengths, List.sum_cons]
      omega

theorem map_dataLength_sendPullReplies (c : Config) (n limit seqnum msgOffset regionOffset len : ℕ) :
    (sendPullReplies c limit seqnum msgOffset regionOffset len n).map Reply.dataLength
      = replyLengths c.replyLengthMax n limit len := by
  induction n generalizing limit seqnum msgOffset regionOffset len with
  | zero => rfl
  | succ n ih =>
      rw [sendPullReplies, List.map_cons, ih]
      rfl

theorem length_sendPullReplies (c : Config) (n limit seqnum msgOffset regionOffset len : ℕ) :
    (sendPullReplies c limit seqnum msgOffset regionOffset len n).length = n := by
  induction n generalizing limit seqnum msgOffset regionOffset len with
  | zero => rfl
  | succ n ih =>
      rw [sendPullReplies, List.length_cons, ih]

/-- `frame_length` is the length of the data, in the bits that it has. -/
theorem frameLength_sendPullReplies {c : Config} {n limit seqnum msgOffset regionOffset len : ℕ}
    {reply : Reply} (h : reply ∈ sendPullReplies c limit seqnum msgOffset regionOffset len n) :
    reply.frameLength = wrap 16 reply.dataLength := by
  induction n generalizing limit seqnum msgOffset regionOffset len with
  | zero => cases h
  | succ n ih =>
      rw [sendPullReplies] at h
      obtain rfl | h := List.mem_cons.1 h
      · rfl
      · exact ih h

/-! ## Requests -/

/-- A request that is cut into good replies: nothing is asked for and no reply is sent, the offset is
one in a frame and nothing wraps, or both wrap and one reply is the block. -/
def Request.WellCut (c : Config) (req : Request) : Prop :=
  req.blockLength = 0 ∧
      (req.firstFrameOffset = 0 ∨ 2 ^ c.width < req.firstFrameOffset + c.replyLengthMax) ∨
    0 < req.blockLength ∧ req.firstFrameOffset < c.replyLengthMax ∧
      req.firstFrameOffset + req.blockLength < 2 ^ 32 ∧
      req.firstFrameOffset + req.blockLength + c.replyLengthMax ≤ 2 ^ c.width ∨
    2 ^ 32 < req.firstFrameOffset + req.blockLength ∧ req.blockLength ≤ c.replyLengthMax

/-- The number of replies: none if the sum wraps. -/
theorem frames_cases (c : Config) {x : ℕ} (hx : x < 2 ^ 32) :
    2 ^ c.width < x + c.replyLengthMax ∧ c.frames x = 0 ∨
      x + c.replyLengthMax ≤ 2 ^ c.width ∧
        c.frames x = (x + c.replyLengthMax - 1) / c.replyLengthMax := by
  have hpos := c.replyLengthMax_pos
  have hmax := c.replyLengthMax_lt
  have hwidth := c.two_pow_width_le
  rcases Nat.lt_or_ge (2 ^ c.width) (x + c.replyLengthMax) with hlt | hge
  · refine .inl ⟨hlt, ?_⟩
    have hwrap : wrap c.width (x + c.replyLengthMax - 1)
        = x + c.replyLengthMax - 1 - 2 ^ c.width := by
      rw [wrap, Nat.mod_eq_sub_mod (by omega), Nat.mod_eq_of_lt (by omega)]
    rw [Config.frames, hwrap, Nat.div_eq_of_lt (by omega)]
  · exact .inr ⟨hge, c.frames_of_lt hge⟩

/-- The room that is left for the first reply. -/
theorem limit_eq (c : Config) {offset : ℕ} (hoffset : offset < 2 ^ 32) :
    wrap 32 (sub c.width c.replyLengthMax offset)
      = if offset ≤ c.replyLengthMax then c.replyLengthMax - offset
        else 2 ^ 32 + c.replyLengthMax - offset := by
  have hmax := c.replyLengthMax_lt
  unfold sub wrap Config.width
  split <;> split <;> omega

/-- A request gives good replies exactly when it is cut well. -/
theorem wellCut_iff (c : Config) {req : Request} (hblock : req.blockLength < 2 ^ 32)
    (hoffset : req.firstFrameOffset < 2 ^ 32) :
    GoodLengths c.replyLengthMax req.blockLength
        (replyLengths c.replyLengthMax
          (c.frames (wrap 32 (req.firstFrameOffset + req.blockLength)))
          (wrap 32 (sub c.width c.replyLengthMax req.firstFrameOffset)) req.blockLength) ↔
      req.WellCut c := by
  have hpos := c.replyLengthMax_pos
  have hmax := c.replyLengthMax_lt
  have hwidth := c.two_pow_width_le
  rw [replyLengths_good_iff hpos, limit_eq c hoffset, Request.WellCut]
  generalize req.blockLength = len at *
  generalize req.firstFrameOffset = off at *
  generalize hlimit : (if off ≤ c.replyLengthMax then c.replyLengthMax - off
    else 2 ^ 32 + c.replyLengthMax - off) = limit
  -- the sum of the two, as the code has it
  have hsum : wrap 32 (off + len) = if off + len < 2 ^ 32 then off + len
      else off + len - 2 ^ 32 := by
    unfold wrap
    split <;> omega
  have hsum_lt : wrap 32 (off + len) < 2 ^ 32 := wrap_lt _ _
  generalize wrap 32 (off + len) = sum at *
  obtain ⟨hover, hnone⟩ | ⟨hfits, hcount⟩ := frames_cases c hsum_lt
  · -- no reply is sent
    rw [hnone]
    constructor
    · rintro (⟨-, hzero⟩ | ⟨-, -, hcount⟩)
      · refine .inl ⟨hzero, .inr ?_⟩
        split at hsum <;> omega
      · cases hcount
    · intro h
      refine .inl ⟨rfl, ?_⟩
      split at hsum <;> omega
  · rcases Nat.eq_zero_or_pos sum with hzero | hsome
    · -- the sum is zero
      have hnone : c.frames sum = 0 := by
        rw [hcount]
        exact (pieces_eq_zero_iff hpos).2 hzero
      rw [hnone]
      constructor
      · rintro (⟨-, hlen⟩ | ⟨-, -, hcount⟩)
        · refine .inl ⟨hlen, .inl ?_⟩
          split at hsum <;> omega
        · cases hcount
      · intro h
        refine .inl ⟨rfl, ?_⟩
        split at hsum <;> split at hlimit <;> omega
    · -- one more than for what the first reply leaves, if it is as long as it should be
      rw [hcount, pieces_eq_succ hpos hsome]
      have hsum_zero := @pieces_eq_zero_iff _ (sum - min c.replyLengthMax sum) hpos
      have hlen_zero := @pieces_eq_zero_iff _ (len - min limit len) hpos
      have hsame : sum - min c.replyLengthMax sum = len - min limit len →
          (sum - min c.replyLengthMax sum + c.replyLengthMax - 1) / c.replyLengthMax
            = (len - min limit len + c.replyLengthMax - 1) / c.replyLengthMax :=
        fun h => by rw [h]
      generalize (sum - min c.replyLengthMax sum + c.replyLengthMax - 1) / c.replyLengthMax = a at *
      generalize (len - min limit len + c.replyLengthMax - 1) / c.replyLengthMax = b at *
      generalize 2 ^ c.width = top at *
      split at hsum <;> split at hlimit <;> omega

/-! ## Data -/

/-- Direct walks, one after the other, are one. -/
theorem flatten_slices (segments : List (Region.Segment π pageShift)) (offset : ℕ) (ns : List ℕ) :
    (slices segments offset ns).flatten = slice segments offset ns.sum := by
  induction ns generalizing offset with
  | nil => exact (Region.slice_zero segments offset).symm
  | cons n ns ih => rw [slices, List.flatten_cons, ih, List.sum_cons, Region.slice_add]

theorem length_slices (segments : List (Region.Segment π pageShift)) (offset : ℕ) (ns : List ℕ) :
    (slices segments offset ns).length = ns.length := by
  induction ns generalizing offset with
  | nil => rfl
  | cons n ns ih => rw [slices, List.length_cons, List.length_cons, ih]

/-- What a request that passes the checks asks of the replier: good replies, no more than a block
has, with the bytes of the block, which are in the region. -/
structure ServedWell (c : Config) (r : UserRegion π pageShift) (served : Served) (req : Request)
    (sent : List (SentReply π)) : Prop where
  replies : sent.map SentReply.reply = served.replies
  count : sent.length ≤ c.replyPerBlock
  lengths : ∀ s ∈ sent, 1 ≤ s.reply.frameLength ∧ s.reply.frameLength ≤ c.replyLengthMax ∧
    s.reply.dataLength = s.reply.frameLength
  sum : (sent.map fun s => s.reply.dataLength).sum = req.blockLength
  inside : served.regionOffset + req.blockLength ≤ totalLength r.segments
  bytes : sent.flatMap (fun s => s.pieces.flatMap Piece.bytes)
    = slice r.segments served.regionOffset req.blockLength

/-- What passes the checks. -/
theorem recvPullRequest_eq_some {c : Config} {regionLength : ℕ} {req : Request} {served : Served}
    (h : recvPullRequest c regionLength req = some served) :
    c.frames (wrap 32 (req.firstFrameOffset + req.blockLength)) ≤ c.replyPerBlock ∧
      served.regionOffset + req.blockLength ≤ regionLength ∧
      served.replies.length = c.frames (wrap 32 (req.firstFrameOffset + req.blockLength)) ∧
      served.replies.map Reply.dataLength = replyLengths c.replyLengthMax
        (c.frames (wrap 32 (req.firstFrameOffset + req.blockLength)))
        (wrap 32 (sub c.width c.replyLengthMax req.firstFrameOffset)) req.blockLength ∧
      ∀ reply ∈ served.replies, reply.frameLength = wrap 16 reply.dataLength := by
  simp only [recvPullRequest, Option.ite_none_left_eq_some] at h
  obtain ⟨hcount, hinside, hserved⟩ := h
  cases hserved
  exact ⟨Nat.le_of_not_lt hcount, Nat.le_of_not_lt hinside, length_sendPullReplies ..,
    map_dataLength_sendPullReplies .., fun reply hreply => frameLength_sendPullReplies hreply⟩

/-- For every request that passes the checks: each reply has from one byte to a frame, the replies
are the block, and nothing is read outside of the region, exactly when the request is cut well and
the callbacks of the region do not look at a segment after the last. -/
theorem servePullRequest_iff (c : Config) (skb : SkbConfig) {xen : Bool}
    {r : UserRegion π pageShift} {req : Request} {served : Served}
    (hblock : req.blockLength < 2 ^ 32) (hoffset : req.firstFrameOffset < 2 ^ 32)
    (h : recvPullRequest c (totalLength r.segments) req = some served)
    (hsegments : r.segments ≠ []) (hxen : xen = true → r.segments.length ≤ 1) :
    (∃ sent, servePullRequest c skb xen r req = .ok (some sent) ∧ ServedWell c r served req sent) ↔
      req.WellCut c ∧ Spared r (served.regionOffset + req.blockLength) := by
  obtain ⟨hcount, hinside, hlength, hlengths, hframe⟩ := recvPullRequest_eq_some h
  have hmax := c.replyLengthMax_lt
  have hgood := wellCut_iff c hblock hoffset
  rw [← hlengths] at hgood
  have hinit : regionCacheInit xen r served.regionOffset req.blockLength
      = offsetCacheInit r served.regionOffset req.blockLength :=
    if_neg fun hboth => absurd (hxen hboth.1) (Nat.not_le.2 hboth.2)
  let calls := served.replies.map fun reply => (attached skb reply.dataLength, reply.dataLength)
  have hcalls : calls.map Prod.snd = served.replies.map Reply.dataLength := by
    rw [List.map_map]
    rfl
  have hle : (calls.map Prod.snd).sum ≤ req.blockLength := by
    rw [hcalls, hlengths]
    exact sum_replyLengths_le ..
  have h32 : ∀ call ∈ calls, call.2 < 2 ^ 32 := fun call hcall =>
    (List.single_le_sum (fun _ _ => Nat.zero_le _) _ (List.mem_map_of_mem hcall)).trans_lt
      (hle.trans_lt hblock)
  rw [servePullRequest, h]
  dsimp only
  rw [hinit]
  constructor
  · rintro ⟨sent, hsent, hwell⟩
    have hsum : (calls.map Prod.snd).sum = req.blockLength := by
      rw [hcalls, ← hwell.replies, List.map_map]
      exact hwell.sum
    refine ⟨hgood.1 ⟨fun l hl => ?_, by rw [← hcalls, hsum]⟩, ?_⟩
    · rw [← hwell.replies, List.map_map] at hl
      obtain ⟨s, hs, rfl⟩ := List.mem_map.1 hl
      obtain ⟨hone, hframe, hdata⟩ := hwell.lengths s hs
      rw [Function.comp, hdata]
      exact ⟨hone, hframe⟩
    · refine or_iff_not_imp_left.2 fun hvect => lt_of_le_of_ne hinside fun hend => ?_
      obtain ⟨cache, hcache, hrest⟩ := bind_eq_ok.1 hsent
      cases cache with
      | none => cases hrest
      | some cache =>
          have hat := Region.offsetCacheInit_at (Nat.lt_of_not_le hvect) hinside hcache
          obtain ⟨results, htransfers, -⟩ := bind_eq_ok.1 hrest
          have hpast : transfers r skb.skbFrags cache calls = .error .segment :=
            Region.transfers_past (Nat.lt_of_not_le hvect) hat h32 (hsum ▸ hend)
          exact nomatch hpast.symm.trans htransfers
  · rintro ⟨hwellCut, hspared⟩
    obtain ⟨hall, hsum⟩ := hgood.2 hwellCut
    rw [← hcalls] at hsum
    obtain ⟨cache, hcache, hplaced⟩ := Region.offsetCacheInit_eq hsegments hinside hspared
    obtain ⟨results, htransfers, hwalks⟩ := Region.transfers_eq skb.skbFrags hplaced h32
      (by rw [hsum]; exact hinside) (by rw [hsum]; exact hspared)
    have hresults : served.replies.length = results.length := by
      have hlen := congrArg List.length hwalks
      rw [List.length_map, length_slices, hcalls, List.length_map] at hlen
      exact hlen.symm
    have hreplies : ((served.replies.zip results).map fun (reply, pieces) =>
        (⟨reply, pieces⟩ : SentReply π)).map SentReply.reply = served.replies := by
      rw [List.map_map]
      exact List.map_fst_zip hresults.le
    refine ⟨_, ?_, hreplies, ?_, ?_, ?_, hinside, ?_⟩
    · rw [hcache, ok_bind]
      dsimp only
      rw [htransfers, ok_bind]
      rfl
    · rw [List.length_map, List.length_zip, ← hresults, Nat.min_self, hlength]
      exact hcount
    · intro s hs
      have hmem : s.reply ∈ served.replies := hreplies ▸ List.mem_map_of_mem hs
      obtain ⟨hone, hle⟩ := hall s.reply.dataLength (List.mem_map_of_mem hmem)
      have hwrap : s.reply.frameLength = s.reply.dataLength := by
        rw [hframe s.reply hmem, wrap_of_lt (by omega)]
      exact ⟨hwrap ▸ hone, hwrap ▸ hle, hwrap.symm⟩
    · have hmap := congrArg (List.map Reply.dataLength) hreplies
      rw [List.map_map] at hmap
      rw [← hsum, hcalls, ← hmap]
      rfl
    · have hflat : ((served.replies.zip results).map Prod.snd).flatMap
            (fun pieces => pieces.flatMap Piece.bytes)
          = (results.map fun pieces => pieces.flatMap Piece.bytes).flatten := by
        rw [List.map_snd_zip hresults.ge, List.flatMap_def]
      rw [hwalks, flatten_slices, hsum] at hflat
      rw [← hflat, List.flatMap_map, List.flatMap_map]

/-- A segment of 20000 bytes, in five pages. -/
def fivePages : UserRegion ℕ 12 where
  segments := [⟨0, 20000, [0, 1, 2, 3, 4], by decide⟩]
  firstPageOffset_lt := by decide
  length_pos := by decide
  totalLength_lt := by decide

/-- A block of 10000 bytes that starts in a frame. -/
def twoReplies : Request := ⟨10000, 100, 100, 0⟩

theorem servePullRequest_iff_twoReplies :
    ∃ served, recvPullRequest defaultConfig (totalLength fivePages.segments) twoReplies
        = some served ∧
      ∃ sent, servePullRequest defaultConfig ⟨17, 0⟩ true fivePages twoReplies = .ok (some sent) ∧
        ServedWell defaultConfig fivePages served twoReplies sent := by
  obtain ⟨served, hserved⟩ : ∃ served,
      recvPullRequest defaultConfig (totalLength fivePages.segments) twoReplies = some served :=
    Option.isSome_iff_exists.1 (by decide +kernel)
  have hwell : twoReplies.WellCut defaultConfig := by
    unfold Request.WellCut
    decide +kernel
  exact ⟨served, hserved, (servePullRequest_iff defaultConfig ⟨17, 0⟩ (by decide +kernel)
    (by decide +kernel) hserved (by decide +kernel) fun _ => le_rfl).2 ⟨hwell, .inl le_rfl⟩⟩

/-- A block of 100 bytes that starts a frame behind: the first reply is empty. -/
theorem servePullRequest_empty :
    ∃ sent, servePullRequest defaultConfig ⟨17, 0⟩ true fivePages ⟨100, 8968, 0, 0⟩
        = .ok (some sent) ∧ sent.map (fun s => s.reply.frameLength) = [0, 100] :=
  ⟨_, rfl, rfl⟩

end Xen2mx.Pull
