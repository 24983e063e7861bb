/-
# `Xen2mx.Pull.Descs` — the block descriptors of a pull

A handle has four descriptors, and the first of them are valid.  When the first block is done the
others slide down by one, and new blocks are appended behind the last.  "make sure the invalid block
descs are easy to check": the bitmap of a descriptor that is not valid is empty.

    `omx_pull_handle_create`                    clears the first three of the four
    `omx_pull_handle_append_needed_frames`      fills the first that is not valid
    `omx_pull_handle_first_block_done`          moves the valid ones and clears the fourth

A descriptor that is moved stays where it was too, so when the last valid block goes down one place
and misses frames, its old place does so as well, until a new block is appended there.  Only the
fourth place is cleared.  At the end of a message there is no new block.

**Proved here.**

    the blocks that a handle keeps, and the ones it requests          (`dropDoneBlocks_spec`,
                                                                       `nrValid_prepareNextBlocks`)
    the descriptors that are not valid stay empty when the first
    block is done
        ⟺  the last valid block is done, or new ones are appended
            up to the third place                                     (`cleared_requestNextBlocks_iff`)
-/
import Xen2mx.Lib.Tiling
import Xen2mx.Pull.System

namespace Xen2mx.Pull

open Word

variable {c : Config} {h : Handle}

/-! ## Blocks done and blocks left -/

/-- The bitmaps of the valid descriptors. -/
def validBitmaps (h : Handle) : List ℕ :=
  (List.range h.nrValidBlockDescs).map fun i => (h.blockDesc i).framesMissingBitmap

/-- The blocks that are done before the first one that is not. -/
def doneBlocks (h : Handle) : ℕ := ((validBitmaps h).takeWhile (· = 0)).length

variable (c) in
/-- The blocks that remain to be requested. -/
def blocksLeft (h : Handle) : ℕ := (h.remainingLength + c.blockLengthMax - 1) / c.blockLengthMax

theorem doneBlocks_le (h : Handle) : doneBlocks h ≤ h.nrValidBlockDescs := by
  have hle := (List.takeWhile_prefix (fun b => decide (b = 0)) (l := validBitmaps h)).length_le
  rw [validBitmaps, List.length_map, List.length_range] at hle
  exact hle

theorem validBitmaps_eq_cons (hvalid : h.nrValidBlockDescs ≠ 0) :
    validBitmaps h = (h.blockDesc 0).framesMissingBitmap ::
      (List.range (h.nrValidBlockDescs - 1)).map fun i =>
        (h.blockDesc (i + 1)).framesMissingBitmap := by
  obtain ⟨n, hn⟩ := Nat.exists_eq_succ_of_ne_zero hvalid
  rw [validBitmaps, hn, List.range_succ_eq_map, List.map_cons, List.map_map]
  rfl

theorem doneBlocks_eq_zero_iff :
    doneBlocks h = 0 ↔ h.nrValidBlockDescs = 0 ∨ (h.blockDesc 0).framesMissingBitmap ≠ 0 := by
  by_cases hvalid : h.nrValidBlockDescs = 0
  · exact iff_of_true (Nat.le_zero.1 (hvalid ▸ doneBlocks_le h)) (.inl hvalid)
  · rw [doneBlocks, validBitmaps_eq_cons hvalid, or_iff_right hvalid, List.takeWhile_cons]
    split <;> simp_all

/-! ## The first block is done -/

theorem firstBlockDone_nrValid :
    (pullHandleFirstBlockDone c h).nrValidBlockDescs = h.nrValidBlockDescs - 1 := rfl

/-- A descriptor that stays valid is the next one, -/
theorem firstBlockDone_bitmap_of_lt {i : ℕ} (hi : i < h.nrValidBlockDescs - 1)
    (hle : h.nrValidBlockDescs ≤ blockDescsNr) :
    ((pullHandleFirstBlockDone c h).blockDesc i).framesMissingBitmap
      = (h.blockDesc (i + 1)).framesMissingBitmap := by
  simp only [pullHandleFirstBlockDone, if_pos hi]
  rw [if_neg (by omega)]

/-- the others are as they were, and the last is cleared. -/
theorem firstBlockDone_bitmap_of_ge {i : ℕ} (hi : h.nrValidBlockDescs - 1 ≤ i) :
    ((pullHandleFirstBlockDone c h).blockDesc i).framesMissingBitmap
      = if i = blockDescsNr - 1 then 0 else (h.blockDesc i).framesMissingBitmap := by
  simp only [pullHandleFirstBlockDone, if_neg (Nat.not_lt.2 hi)]
  split <;> rfl

/-- The last valid block stays the last. -/
theorem firstBlockDone_bitmap_last (hle : h.nrValidBlockDescs ≤ blockDescsNr)
    (hvalid : (pullHandleFirstBlockDone c h).nrValidBlockDescs ≠ 0) :
    ((pullHandleFirstBlockDone c h).blockDesc
        ((pullHandleFirstBlockDone c h).nrValidBlockDescs - 1)).framesMissingBitmap
      = (h.blockDesc (h.nrValidBlockDescs - 1)).framesMissingBitmap := by
  rw [firstBlockDone_nrValid] at hvalid ⊢
  rw [firstBlockDone_bitmap_of_lt (by omega) hle]
  congr 2
  omega

theorem doneBlocks_firstBlockDone (hvalid : h.nrValidBlockDescs ≠ 0)
    (hle : h.nrValidBlockDescs ≤ blockDescsNr) (hdone : (h.blockDesc 0).framesMissingBitmap = 0) :
    doneBlocks h = doneBlocks (pullHandleFirstBlockDone c h) + 1 := by
  have hmoved : validBitmaps (pullHandleFirstBlockDone c h)
      = (List.range (h.nrValidBlockDescs - 1)).map fun i =>
        (h.blockDesc (i + 1)).framesMissingBitmap :=
    List.map_congr_left fun i hi => firstBlockDone_bitmap_of_lt (List.mem_range.1 hi) hle
  rw [doneBlocks, doneBlocks, validBitmaps_eq_cons hvalid, hmoved, hdone, List.takeWhile_cons,
    if_pos (decide_eq_true rfl), List.length_cons]

/-- Dropping a block that is done, or nothing. -/
theorem dropDoneBlock_cases (h : Handle) :
    doneBlocks h = 0 ∧ dropDoneBlock c h = h ∨
      h.nrValidBlockDescs ≠ 0 ∧ (h.blockDesc 0).framesMissingBitmap = 0 ∧
        dropDoneBlock c h = pullHandleFirstBlockDone c h := by
  by_cases hstop : h.nrValidBlockDescs = 0 ∨ (h.blockDesc 0).framesMissingBitmap ≠ 0
  · exact .inl ⟨doneBlocks_eq_zero_iff.2 hstop, if_pos hstop⟩
  · obtain ⟨hvalid, hdone⟩ := not_or.1 hstop
    exact .inr ⟨hvalid, not_not.1 hdone, if_neg hstop⟩

/-- The loop over the blocks that are done drops them. -/
theorem dropDoneBlocks_spec (n : ℕ) (hle : h.nrValidBlockDescs ≤ blockDescsNr) :
    ((dropDoneBlock c)^[n] h).nrValidBlockDescs = h.nrValidBlockDescs - min n (doneBlocks h) ∧
      doneBlocks ((dropDoneBlock c)^[n] h) = doneBlocks h - n := by
  induction n generalizing h with
  | zero => exact ⟨by rw [Nat.zero_min]; rfl, rfl⟩
  | succ n ih =>
      rw [Function.iterate_succ_apply]
      obtain ⟨hnone, hsame⟩ | ⟨hvalid, hdone, hdrop⟩ := dropDoneBlock_cases (c := c) h
      · obtain ⟨hvalid', hdone'⟩ := ih hle
        rw [hsame, hvalid', hdone', hnone, Nat.min_zero, Nat.min_zero, Nat.zero_sub, Nat.zero_sub]
        exact ⟨rfl, rfl⟩
      · have hle' : (pullHandleFirstBlockDone c h).nrValidBlockDescs ≤ blockDescsNr :=
          (Nat.sub_le ..).trans hle
        obtain ⟨hvalid', hdone'⟩ := ih hle'
        rw [hdrop, hvalid', hdone', doneBlocks_firstBlockDone (c := c) hvalid hle hdone,
          firstBlockDone_nrValid]
        exact ⟨by omega, by omega⟩

/-! ## The next blocks -/

/-- The loop over the next blocks appends what is left, as long as there are descriptors. -/
theorem nrValid_prepareNextBlocks (hle : h.nrValidBlockDescs ≤ blockDescsNr)
    (hrem : h.remainingLength < 2 ^ 32) :
    (prepareNextBlocks c h).nrValidBlockDescs
      = min blockDescsNr (h.nrValidBlockDescs + blocksLeft c h) := by
  have hpos := c.blockLengthMax_pos
  have hloop : ∀ n (h : Handle), h.nrValidBlockDescs ≤ blockDescsNr → h.remainingLength < 2 ^ 32 →
      ((appendNextBlock c)^[n] h).nrValidBlockDescs
        = min blockDescsNr (h.nrValidBlockDescs + min n (blocksLeft c h)) := by
    intro n
    induction n with
    | zero =>
        intro h hle _
        rw [Nat.zero_min, Nat.add_zero, Nat.min_eq_right hle]
        rfl
    | succ n ih =>
        intro h hle hrem
        rw [Function.iterate_succ_apply, appendNextBlock]
        split
        · rename_i hgo
          have hleft : blocksLeft c h = blocksLeft c (pullHandleAppendNeededFrames c h
              (min c.blockLengthMax h.remainingLength) 0) + 1 := by
            rw [blocksLeft, blocksLeft, append_remainingLength,
              sub_of_le (Nat.min_le_right _ _) hrem,
              pieces_eq_succ hpos (Nat.pos_of_ne_zero hgo.2)]
          have hle' : (pullHandleAppendNeededFrames c h
              (min c.blockLengthMax h.remainingLength) 0).nrValidBlockDescs ≤ blockDescsNr := hgo.1
          rw [ih _ hle' (Nat.mod_lt _ (by decide)), append_nrValidBlockDescs, hleft]
          omega
        · rename_i hstop
          rw [ih h hle hrem]
          rcases not_and_or.1 hstop with hfull | hnone
          · omega
          · have hleft : blocksLeft c h = 0 :=
              (pieces_eq_zero_iff hpos).2 (not_not.1 hnone)
            omega
  rw [prepareNextBlocks, hloop blockDescsNr h hle hrem]
  omega

/-! ## Descriptors that are not valid -/

/-- `bitmap i` is the bitmap of each descriptor `i` that is not valid. -/
def Behind (bitmap : ℕ → ℕ) (h : Handle) : Prop :=
  ∀ i, h.nrValidBlockDescs ≤ i → i < blockDescsNr →
    (h.blockDesc i).framesMissingBitmap = bitmap i

theorem Behind.append {bitmap : ℕ → ℕ} {len off : ℕ} (hb : Behind bitmap h) :
    Behind bitmap (pullHandleAppendNeededFrames c h len off) := by
  intro i hi hnr
  rw [append_nrValidBlockDescs] at hi
  rw [append_blockDesc, if_neg (by omega)]
  exact hb i (by omega) hnr

theorem Behind.prepareNextBlocks {bitmap : ℕ → ℕ} (hb : Behind bitmap h) :
    Behind bitmap (prepareNextBlocks c h) :=
  Function.Iterate.rec (Behind bitmap) hb (fun _ hb' => by
    unfold appendNextBlock
    split
    · exact hb'.append
    · exact hb') _

/-- "make sure the invalid block descs are easy to check". -/
def Cleared (h : Handle) : Prop :=
  ∀ i, h.nrValidBlockDescs ≤ i → i < blockDescsNr → (h.blockDesc i).framesMissingBitmap = 0

/-- What is left behind `nv` blocks of which the last has the bitmap `last`: it stays in the places
that were valid, the last of all apart. -/
def LeftBehind (nv last : ℕ) (h : Handle) : Prop :=
  ∀ i, h.nrValidBlockDescs ≤ i → i < blockDescsNr →
    (h.blockDesc i).framesMissingBitmap = if i < min nv (blockDescsNr - 1) then last else 0

/-- What is left behind is empty if the last block is done or all its places are taken again. -/
theorem LeftBehind.cleared_iff {nv last : ℕ} (hleft : LeftBehind nv last h) :
    Cleared h ↔ last = 0 ∨ min nv (blockDescsNr - 1) ≤ h.nrValidBlockDescs := by
  constructor
  · intro hcleared
    refine or_iff_not_imp_right.2 fun hlt => ?_
    have hlt := Nat.lt_of_not_le hlt
    have hnr : h.nrValidBlockDescs < blockDescsNr := by
      have := Nat.min_le_right nv (blockDescsNr - 1)
      omega
    rw [← hcleared _ le_rfl hnr, hleft _ le_rfl hnr, if_pos hlt]
  · rintro (hlast | hge) i hi hnr
    · rw [hleft i hi hnr, hlast, ite_self]
    · rw [hleft i hi hnr, if_neg (by omega)]

theorem Cleared.firstBlockDone (hcleared : Cleared h) :
    LeftBehind h.nrValidBlockDescs (h.blockDesc (h.nrValidBlockDescs - 1)).framesMissingBitmap
      (pullHandleFirstBlockDone c h) := by
  intro i hi hnr
  rw [firstBlockDone_nrValid] at hi
  rw [firstBlockDone_bitmap_of_ge hi]
  rcases Nat.lt_or_ge i h.nrValidBlockDescs with hlt | hge
  · obtain rfl : i = h.nrValidBlockDescs - 1 := by omega
    split
    · rw [if_neg (by omega)]
    · rw [if_pos (by omega)]
  · rw [hcleared i hge hnr, ite_self, if_neg (by omega)]

/-- The last block goes down one more place. -/
theorem LeftBehind.firstBlockDone {nv last : ℕ} (hleft : LeftBehind nv last h)
    (hlast : (h.blockDesc (h.nrValidBlockDescs - 1)).framesMissingBitmap = last)
    (hlt : h.nrValidBlockDescs < nv) (hnv : nv ≤ blockDescsNr) :
    LeftBehind nv last (pullHandleFirstBlockDone c h) := by
  intro i hi hnr
  rw [firstBlockDone_nrValid] at hi
  rw [firstBlockDone_bitmap_of_ge hi]
  rcases Nat.lt_or_ge i h.nrValidBlockDescs with hlt' | hge
  · obtain rfl : i = h.nrValidBlockDescs - 1 := by omega
    rw [if_neg (by omega), if_pos (by omega), hlast]
  · rw [hleft i hge hnr]
    split
    · rw [if_neg (by omega)]
    · rfl

theorem LeftBehind.dropDoneBlocks {nv last : ℕ} (n : ℕ) (hleft : LeftBehind nv last h)
    (hlast : h.nrValidBlockDescs ≠ 0 →
      (h.blockDesc (h.nrValidBlockDescs - 1)).framesMissingBitmap = last)
    (hlt : h.nrValidBlockDescs < nv) (hnv : nv ≤ blockDescsNr) :
    LeftBehind nv last ((dropDoneBlock c)^[n] h) := by
  induction n generalizing h with
  | zero => exact hleft
  | succ n ih =>
      rw [Function.iterate_succ_apply]
      obtain ⟨-, hsame⟩ | ⟨hvalid, -, hdrop⟩ := dropDoneBlock_cases (c := c) h
      · rw [hsame]
        exact ih hleft hlast hlt
      · have hleft' := hleft.firstBlockDone (c := c) (hlast hvalid) hlt hnv
        rw [hdrop]
        exact ih hleft' (fun hvalid' =>
          (firstBlockDone_bitmap_last (by omega) hvalid').trans (hlast hvalid))
          ((Nat.sub_le ..).trans_lt hlt)

theorem remainingLength_dropDoneBlocks (n : ℕ) (h : Handle) :
    ((dropDoneBlock c)^[n] h).remainingLength = h.remainingLength :=
  Function.Iterate.rec (fun h' : Handle => h'.remainingLength = h.remainingLength) rfl
    (fun h' hsame => by
      unfold dropDoneBlock
      split
      · exact hsame
      · exact hsame) n

/-- When the first block is done, the descriptors that are not valid stay empty exactly when the
last valid block is done too, or new blocks are appended up to the third place. -/
theorem cleared_requestNextBlocks_iff (hcleared : Cleared h) (hvalid : h.nrValidBlockDescs ≠ 0)
    (hle : h.nrValidBlockDescs ≤ blockDescsNr) (hdone : (h.blockDesc 0).framesMissingBitmap = 0)
    (hrem : h.remainingLength < 2 ^ 32) (allocs : ℕ) :
    Cleared (requestNextBlocks c h allocs).1 ↔
      (h.blockDesc (h.nrValidBlockDescs - 1)).framesMissingBitmap = 0 ∨
        min h.nrValidBlockDescs (blockDescsNr - 1) + doneBlocks h
          ≤ h.nrValidBlockDescs + blocksLeft c h := by
  have hd := doneBlocks_le h
  have hfirst := doneBlocks_firstBlockDone (c := c) hvalid hle hdone
  have hlt : (pullHandleFirstBlockDone c h).nrValidBlockDescs < h.nrValidBlockDescs :=
    Nat.sub_lt (Nat.pos_of_ne_zero hvalid) Nat.one_pos
  have hleft : LeftBehind h.nrValidBlockDescs
      (h.blockDesc (h.nrValidBlockDescs - 1)).framesMissingBitmap (requestNextBlocks c h allocs).1 := by
    rw [requestNextBlocks_fst]
    exact Behind.prepareNextBlocks ((hcleared.firstBlockDone (c := c)).dropDoneBlocks _
      (firstBlockDone_bitmap_last hle) hlt hle)
  have hkept : ((dropDoneBlock c)^[blockDescsNr - 1]
      (pullHandleFirstBlockDone c h)).nrValidBlockDescs = h.nrValidBlockDescs - doneBlocks h := by
    rw [(dropDoneBlocks_spec _ (hlt.le.trans hle)).1, firstBlockDone_nrValid]
    omega
  have hrest : ((dropDoneBlock c)^[blockDescsNr - 1]
      (pullHandleFirstBlockDone c h)).remainingLength = h.remainingLength :=
    remainingLength_dropDoneBlocks _ _
  have hvalid' : (requestNextBlocks c h allocs).1.nrValidBlockDescs
      = min blockDescsNr (h.nrValidBlockDescs - doneBlocks h + blocksLeft c h) := by
    rw [requestNextBlocks_fst, nrValid_prepareNextBlocks (by omega) (hrest ▸ hrem), hkept,
      blocksLeft, hrest, blocksLeft]
  rw [hleft.cleared_iff, hvalid']
  refine or_congr_right ?_
  omega

end Xen2mx.Pull
