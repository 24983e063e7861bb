/-
# `Xen2mx.Recvpath.DmaCopy` — when the copy by the DMA engine comes to a good end

`omx_dma_skb_copy_datagram_to_pages` takes the pieces of an `skb` in turn.  Let the data
end at `E`, and the page it goes to at `Z`, both counted in the packet.

    E > Z   it stops at Z and submits empty copies, until the engine refuses one
    E = Z   the end of the page stops it where the data ends
    E < Z   a piece that contains E behind its start is copied to its end: fine only if
            that is E, or if the engine has refused a copy by then

The first two do not depend on the pieces.

**Proved here.**

    the copy returns, and not with less than zero  ⟺  `DmaEndsWell`
                                                  (`dmaSkbCopyDatagramToPages_good_iff`)
-/
import Xen2mx.Recvpath.Medium

namespace Xen2mx.Recvpath

/-! ## Pieces -/

/-- Where the pieces of a packet start and end, the first of them at `start`. -/
def piecesFrom : ℕ → List (List UInt8) → List (ℕ × ℕ)
  | _, [] => []
  | start, bytes :: rest =>
      (start, start + bytes.length) :: piecesFrom (start + bytes.length) rest

/-- The linear part and the fragments. -/
def Skb.pieces (skb : Skb) : List (ℕ × ℕ) := piecesFrom 0 (skb.head :: skb.frags)

/-- A piece ends at `pos`. -/
def Skb.CutAt (skb : Skb) (pos : ℕ) : Prop := ∃ p ∈ skb.pieces, p.2 = pos

/-- Of `p`, something lies behind `offset`, and it ends before `stop`. -/
def Within (offset stop : ℕ) (p : ℕ × ℕ) : Prop := max offset p.1 < p.2 ∧ p.2 < stop

instance (offset stop : ℕ) (p : ℕ × ℕ) : Decidable (Within offset stop p) :=
  inferInstanceAs (Decidable (_ ∧ _))

/-- How many pieces can be copied as a whole before `stop`. -/
def Skb.piecesWithin (skb : Skb) (offset stop : ℕ) : ℕ :=
  skb.pieces.countP fun p => Within offset stop p

theorem le_of_mem_piecesFrom {pieces : List (List UInt8)} {start : ℕ} {p : ℕ × ℕ}
    (h : p ∈ piecesFrom start pieces) : start ≤ p.2 := by
  induction pieces generalizing start with
  | nil => exact nomatch h
  | cons bytes rest ih =>
      rcases List.mem_cons.1 h with rfl | hrest
      · exact Nat.le_add_right ..
      · exact (Nat.le_add_right ..).trans (ih hrest)

/-- No piece behind `stop` ends before it. -/
theorem countP_piecesFrom_eq_zero {pieces : List (List UInt8)} {offset start stop : ℕ}
    (h : stop ≤ start) : (piecesFrom start pieces).countP (fun p => Within offset stop p) = 0 := by
  refine List.countP_eq_zero.2 fun p hp => ?_
  have hle := le_of_mem_piecesFrom hp
  rw [decide_eq_true_eq]
  exact fun hwithin => absurd hwithin.2 (by omega)

/-! ## Copies that end well -/

/-- The copy returns, and not with less than zero. -/
def DmaCopy.Good : DmaCopy → Prop
  | .returns remaining => 0 ≤ remaining
  | .halts => False

/-- The rest of the copy after a piece. -/
def PieceCopy.rest (pageSize : ℕ) (refusesAt : Option ℕ) (start : ℕ) (frags : List (List UInt8)) :
    PieceCopy → DmaCopy
  | .ends r => r
  | .next s => copyFrags pageSize refusesAt s start frags

variable {pageSize : ℕ} {refusesAt : Option ℕ} {s : DmaState} {frags : List (List UInt8)}
  {bytes : List UInt8} {start copy offset stop : ℕ}

/-- The linear part is a piece like the fragments. -/
theorem dmaSkbCopyDatagramToPages_eq {skb : Skb} {pgoff len : ℕ} :
    dmaSkbCopyDatagramToPages pageSize refusesAt skb offset pgoff len =
      copyFrags pageSize refusesAt ⟨offset, pgoff, len, 0⟩ 0 (skb.head :: skb.frags) := by
  rw [copyFrags, if_neg (by simp only [not_lt]; omega), dmaSkbCopyDatagramToPages, Nat.zero_add]
  rfl

theorem copyFrags_cons (h : (start : ℤ) ≤ s.offset + s.len) :
    copyFrags pageSize refusesAt s start (bytes :: frags) =
      (copyPiece pageSize refusesAt s (start + bytes.length - s.offset)).rest pageSize refusesAt
        (start + bytes.length) frags := by
  rw [copyFrags, if_neg (not_lt.2 h)]
  rfl

/-- The engine refuses the next copy. -/
abbrev Refused (refusesAt : Option ℕ) (s : DmaState) : Prop := refusesAt.any (· ≤ s.submitted) = true

theorem refused_iff : Refused refusesAt s ↔ ∃ n, refusesAt = some n ∧ n ≤ s.submitted := by
  cases refusesAt <;> simp [Refused]

/-- The state after a copy of `chunk` bytes. -/
def DmaState.advance (s : DmaState) (chunk : ℕ) : DmaState :=
  { offset := s.offset + chunk, pgoff := s.pgoff + chunk, len := s.len - chunk
    submitted := s.submitted + 1 }

theorem copyPiece_zero : copyPiece pageSize refusesAt s 0 = .next s := by
  rw [copyPiece.eq_def, dif_pos rfl]

theorem copyPiece_pageEnd (hcopy : 0 < copy) (hpage : pageSize ≤ s.pgoff) :
    copyPiece pageSize refusesAt s copy =
      if refusesAt.isSome then .ends (.returns s.len) else .ends .halts := by
  rw [copyPiece.eq_def, dif_neg (by omega), dif_pos (by omega)]
  cases refusesAt <;> rfl

theorem copyPiece_refused (hcopy : 0 < copy) (hpage : s.pgoff < pageSize)
    (h : Refused refusesAt s) : copyPiece pageSize refusesAt s copy = .ends (.returns s.len) := by
  rw [copyPiece.eq_def, dif_neg (by omega), dif_neg (by omega), if_pos h]

/-- One copy, of `chunk` bytes. -/
theorem copyPiece_step (chunk : ℕ) (hchunk : chunk = min copy (pageSize - s.pgoff))
    (hpos : 0 < chunk) (h : ¬ Refused refusesAt s) :
    copyPiece pageSize refusesAt s copy =
      if s.len - chunk = 0 then .ends (.returns 0)
      else copyPiece pageSize refusesAt (s.advance chunk) (copy - chunk) := by
  rw [copyPiece.eq_def, dif_neg (by omega), dif_neg (by omega), if_neg h, hchunk]
  rfl

/-! ## More than the data -/

/-- Once more has been copied than there was, the copy cannot end well. -/
theorem not_good_of_overrun (hlen : s.len < 0) (hstart : (s.offset : ℤ) + s.len < start) :
    ¬ ((copyPiece pageSize refusesAt s copy).rest pageSize refusesAt start frags).Good := by
  fun_induction copyPiece pageSize refusesAt s copy with
  | case1 s =>
      rw [PieceCopy.rest]
      cases frags with
      | nil => exact not_le.2 hlen
      | cons bytes frags =>
          rw [copyFrags, if_pos hstart]
          exact id
  | case2 => exact id
  | case3 => exact not_le.2 hlen
  | case4 => exact not_le.2 hlen
  | case5 s copy _ chunk _ _ hzero => omega
  | case6 s copy _ chunk _ _ _ ih => exact ih (by dsimp only; omega) (by dsimp only; omega)

/-! ## The page ends behind the data -/

/-- The copy has reached `s.offset`, not behind the end of the data at `stop`. -/
structure Reached (offset stop start : ℕ) (s : DmaState) : Prop where
  offset_eq : s.offset = max offset start
  le : s.offset ≤ stop
  len_eq : s.len = (stop : ℤ) - s.offset

theorem Reached.start_le (h : Reached offset stop start s) : (start : ℤ) ≤ s.offset + s.len := by
  have := h.offset_eq
  have := h.len_eq
  have := h.le
  omega

/-- The piece that ends at `start'` is passed over, or copied as a whole. -/
theorem Reached.skip (h : Reached offset stop start s) {start' : ℕ} (hle : start ≤ start')
    (hzero : start' - s.offset = 0) : Reached offset stop start' s :=
  ⟨by have := h.offset_eq; omega, h.le, h.len_eq⟩

theorem Reached.advance (h : Reached offset stop start s) {start' : ℕ}
    (hpos : 0 < start' - s.offset) (hlt : start' ≤ stop) :
    Reached offset stop start' (s.advance (start' - s.offset)) := by
  have := h.offset_eq
  have := h.len_eq
  refine ⟨?_, ?_, ?_⟩ <;> simp only [DmaState.advance] <;> omega

/-- What the fragments from `start` on make of a copy, if the data ends on the page. -/
theorem copyFrags_good_iff_of_lt (h : Reached offset stop start s)
    (hpage : s.pgoff + (stop - s.offset) < pageSize) :
    (copyFrags pageSize refusesAt s start frags).Good ↔
      start + frags.flatten.length ≤ stop ∨
      (s.offset < stop ∧ ∃ p ∈ piecesFrom start frags, p.2 = stop) ∨
      ∃ n, refusesAt = some n ∧ n ≤ s.submitted +
        (piecesFrom start frags).countP fun p => Within offset stop p := by
  induction frags generalizing s start with
  | nil =>
      have hoffset := h.offset_eq
      have hle := h.le
      have hlen := h.len_eq
      refine iff_of_true ?_ (.inl ?_)
      · show 0 ≤ s.len
        omega
      · rw [List.flatten_nil, List.length_nil]
        omega
  | cons bytes frags ih =>
      have hoffset := h.offset_eq
      have hle := h.le
      have hlen := h.len_eq
      rw [copyFrags_cons h.start_le, List.flatten_cons, List.length_append, ← Nat.add_assoc,
        piecesFrom, List.countP_cons]
      simp only [List.mem_cons, exists_eq_or_imp, decide_eq_true_eq]
      generalize hend : start + bytes.length = finish
      rcases Nat.eq_zero_or_pos (finish - s.offset) with hzero | hpos
      · -- nothing of the piece lies behind `offset`
        rw [hzero, copyPiece_zero, PieceCopy.rest, ih (h.skip (by omega) hzero) hpage,
          if_neg (by rw [Within]; omega)]
        refine or_congr Iff.rfl (or_congr (and_congr_right fun hlt => ?_) Iff.rfl)
        exact (or_iff_right (by omega)).symm
      · by_cases href : Refused refusesAt s
        · rw [copyPiece_refused hpos (by omega) href, PieceCopy.rest]
          refine iff_of_true ?_ (.inr (.inr ?_))
          · show 0 ≤ s.len
            omega
          · obtain ⟨n, hn, hsub⟩ := refused_iff.1 href
            exact ⟨n, hn, by omega⟩
        · rcases lt_trichotomy finish stop with hlt | heq | hgt
          · rw [copyPiece_step (finish - s.offset) (by omega) hpos href,
              if_neg (by omega), Nat.sub_self, copyPiece_zero, PieceCopy.rest,
              ih (h.advance hpos hlt.le) (by simp only [DmaState.advance]; omega),
              if_pos (by rw [Within]; omega)]
            simp only [DmaState.advance]
            refine or_congr Iff.rfl (or_congr ?_ ?_)
            · rw [or_iff_right (by omega)]
              exact and_congr_left fun _ => by omega
            · refine exists_congr fun n => and_congr_right fun _ => by omega
          · rw [copyPiece_step (finish - s.offset) (by omega) hpos href,
              if_pos (by omega), PieceCopy.rest]
            exact iff_of_true (le_refl (0 : ℤ)) (.inr (.inl ⟨by omega, .inl heq⟩))
          · rw [copyPiece_step (min (finish - s.offset) (pageSize - s.pgoff)) rfl
              (by omega) href, if_neg (by omega)]
            refine iff_of_false
              (not_good_of_overrun (by simp only [DmaState.advance]; omega)
                (by simp only [DmaState.advance]; omega)) ?_
            rintro (htotal | ⟨-, hcut | ⟨p, hp, hcut⟩⟩ | ⟨n, hn, hsub⟩)
            · omega
            · omega
            · have := le_of_mem_piecesFrom hp
              omega
            · rw [countP_piecesFrom_eq_zero (by omega), if_neg (by rw [Within]; omega)] at hsub
              exact href (refused_iff.2 ⟨n, hn, hsub⟩)

/-! ## The page ends where the data ends -/

theorem copyFrags_good_of_eq (h : Reached offset stop start s) (hlt : s.offset < stop)
    (hpage : s.pgoff + (stop - s.offset) = pageSize) :
    (copyFrags pageSize refusesAt s start frags).Good := by
  induction frags generalizing s start with
  | nil =>
      have hlen := h.len_eq
      show 0 ≤ s.len
      omega
  | cons bytes frags ih =>
      have hlen := h.len_eq
      rw [copyFrags_cons h.start_le]
      generalize hend : start + bytes.length = finish
      rcases Nat.eq_zero_or_pos (finish - s.offset) with hzero | hpos
      · rw [hzero, copyPiece_zero, PieceCopy.rest]
        exact ih (h.skip (by omega) hzero) hlt hpage
      · by_cases href : Refused refusesAt s
        · rw [copyPiece_refused hpos (by omega) href, PieceCopy.rest]
          show 0 ≤ s.len
          omega
        · by_cases hinside : finish < stop
          · rw [copyPiece_step (finish - s.offset) (by omega) hpos href,
              if_neg (by omega), Nat.sub_self, copyPiece_zero, PieceCopy.rest]
            exact ih (h.advance hpos hinside.le) (by simp only [DmaState.advance]; omega)
              (by simp only [DmaState.advance]; omega)
          · rw [copyPiece_step (stop - s.offset) (by omega) (by omega) href,
              if_pos (by omega)]
            exact le_refl (0 : ℤ)

/-! ## The page ends before the data -/

theorem copyFrags_good_iff_of_gt (h : Reached offset stop start s) (hpgoff : s.pgoff ≤ pageSize)
    (hpage : pageSize < s.pgoff + (stop - s.offset)) (hin : stop ≤ start + frags.flatten.length) :
    (copyFrags pageSize refusesAt s start frags).Good ↔ refusesAt.isSome = true := by
  induction frags generalizing s start with
  | nil =>
      have hoffset := h.offset_eq
      rw [List.flatten_nil, List.length_nil] at hin
      omega
  | cons bytes frags ih =>
      have hlen := h.len_eq
      rw [List.flatten_cons, List.length_append, ← Nat.add_assoc] at hin
      rw [copyFrags_cons h.start_le]
      generalize hend : start + bytes.length = finish at hin ⊢
      rcases Nat.eq_zero_or_pos (finish - s.offset) with hzero | hpos
      · rw [hzero, copyPiece_zero, PieceCopy.rest]
        exact ih (h.skip (by omega) hzero) hpgoff hpage hin
      · rcases Nat.lt_or_ge s.pgoff pageSize with hroom | hfull
        · by_cases href : Refused refusesAt s
          · rw [copyPiece_refused hpos hroom href, PieceCopy.rest]
            obtain ⟨n, hn, -⟩ := refused_iff.1 href
            refine iff_of_true ?_ (by rw [hn]; rfl)
            show 0 ≤ s.len
            omega
          · by_cases hinside : finish ≤ s.offset + (pageSize - s.pgoff)
            · rw [copyPiece_step (finish - s.offset) (by omega) hpos href,
                if_neg (by omega), Nat.sub_self, copyPiece_zero, PieceCopy.rest]
              exact ih (h.advance hpos (by omega)) (by simp only [DmaState.advance]; omega)
                (by simp only [DmaState.advance]; omega) hin
            · -- the first copy reaches the end of the page, the second is empty
              rw [copyPiece_step (pageSize - s.pgoff) (by omega) (by omega) href,
                if_neg (by omega), copyPiece_pageEnd (by omega)
                  (by simp only [DmaState.advance]; omega)]
              split
              · refine iff_of_true ?_ ‹_›
                show 0 ≤ (s.advance _).len
                simp only [DmaState.advance]
                omega
              · exact iff_of_false id ‹_›
        · rw [copyPiece_pageEnd hpos hfull]
          split
          · refine iff_of_true ?_ ‹_›
            show 0 ≤ s.len
            omega
          · exact iff_of_false id ‹_›

/-! ## The whole copy -/

variable (pageSize refusesAt) in
/-- The copy of `len` bytes of `skb` from `offset` on, to a page at `pgoff`, comes to a good
end. -/
def DmaEndsWell (skb : Skb) (offset pgoff len : ℕ) : Prop :=
  if pageSize < pgoff + len then refusesAt.isSome = true
  else
    pgoff + len = pageSize ∨ skb.len = offset + len ∨ (0 < len ∧ skb.CutAt (offset + len)) ∨
      ∃ n, refusesAt = some n ∧ n ≤ skb.piecesWithin offset (offset + len)

theorem dmaSkbCopyDatagramToPages_good_iff {skb : Skb} {pgoff len : ℕ} (hpgoff : pgoff < pageSize)
    (hin : offset + len ≤ skb.len) :
    (dmaSkbCopyDatagramToPages pageSize refusesAt skb offset pgoff len).Good ↔
      DmaEndsWell pageSize refusesAt skb offset pgoff len := by
  have hreached : Reached offset (offset + len) 0 ⟨offset, pgoff, len, 0⟩ :=
    ⟨(Nat.max_zero offset).symm, Nat.le_add_right .., by dsimp only; omega⟩
  have hflat : (skb.head :: skb.frags).flatten.length = skb.len := rfl
  rw [dmaSkbCopyDatagramToPages_eq, DmaEndsWell]
  split
  · exact copyFrags_good_iff_of_gt hreached hpgoff.le (by dsimp only; omega) (by omega)
  · by_cases heq : pgoff + len = pageSize
    · exact iff_of_true
        (copyFrags_good_of_eq hreached (by dsimp only; omega) (by dsimp only; omega)) (.inl heq)
    · rw [or_iff_right heq, copyFrags_good_iff_of_lt hreached (by dsimp only; omega), hflat]
      refine or_congr (by omega) (or_congr (and_congr_left fun _ => by dsimp only; omega) ?_)
      rw [Nat.zero_add]
      rfl

end Xen2mx.Recvpath
