/-
# `Xen2mx.Region.Segment` — user regions

A user region is what an endpoint may be written to and read from: segments of the memory of the
process, each of them with the pages that it lies in.

    segment     offset in the first page, length, pages
    region      its segments, one after the other

`omx_user_region_add_segment` takes as many pages as the segment needs, and
`omx_ioctl_user_region_create` leaves out empty segments.  The regions of a guest have segments of
the same form, which may be empty.

**Proved here.**

    the bytes of a region, segment by segment       (`UserRegion.length_bytes`, `UserRegion.slice_eq`)
    where an offset is                              (`findSegment_eq`, `findSegment_error`)
-/
import Xen2mx.Lib.Buffers
import Xen2mx.Lib.Pages

namespace Xen2mx.Region

open Pages

variable {π : Type*} {pageShift : ℕ}

/-! ## Segments -/

/-- `struct omx_cmd_user_segment`. -/
structure UserSegment where
  vaddr : ℕ
  len : ℕ
  deriving DecidableEq

/-- `struct omx_user_region_segment`, or `struct omx_xen_user_region_segment`, as the copies read it;
`PAGE_SIZE` is `2 ^ pageShift`. -/
structure Segment (π : Type*) (pageShift : ℕ) where
  firstPageOffset : ℕ
  length : ℕ
  pages : List π
  /-- There is a page for each byte.  A segment of a process has them unless it wraps; what a guest
  says of its segments may be anything. -/
  covers : firstPageOffset + length ≤ pages.length * 2 ^ pageShift

namespace Segment

variable (seg : Segment π pageShift)

/-- The bytes of the segment. -/
def bytes : List (π × ℕ) :=
  Pages.bytes (2 ^ pageShift) seg.firstPageOffset seg.length seg.pages

@[simp] theorem length_bytes : seg.bytes.length = seg.length := Pages.length_bytes seg.covers

/-- The index of the page of a byte: `(segoff + first_page_offset) >> PAGE_SHIFT`. -/
def pageIndex (segoff : ℕ) : ℕ := (segoff + seg.firstPageOffset) / 2 ^ pageShift

/-- The offset in it: `(segoff + first_page_offset) & ~PAGE_MASK`. -/
def pageOffset (segoff : ℕ) : ℕ := (segoff + seg.firstPageOffset) % 2 ^ pageShift

variable {seg} {segoff n : ℕ} {page : π}

theorem pageOffset_lt : seg.pageOffset segoff < 2 ^ pageShift := Nat.mod_lt _ (Nat.two_pow_pos _)

theorem exists_page (h : segoff < seg.length) :
    ∃ page, seg.pages[seg.pageIndex segoff]? = some page := by
  rw [pageIndex, Nat.add_comm]
  exact Pages.exists_page seg.covers h

theorem getElem?_bytes (h : segoff < seg.length) :
    seg.bytes[segoff]? =
      seg.pages[seg.pageIndex segoff]?.map fun page => (page, seg.pageOffset segoff) := by
  rw [pageIndex, pageOffset, Nat.add_comm]
  exact Pages.getElem?_bytes (Nat.two_pow_pos _) h

/-- A piece of a segment that does not go over the end of its page. -/
theorem take_drop_bytes (hpage : seg.pages[seg.pageIndex segoff]? = some page)
    (hn : seg.pageOffset segoff + n ≤ 2 ^ pageShift) (h : segoff + n ≤ seg.length) :
    (seg.bytes.drop segoff).take n = Piece.bytes ⟨page, seg.pageOffset segoff, n⟩ := by
  rw [pageIndex, Nat.add_comm segoff] at hpage
  rw [pageOffset, Nat.add_comm segoff] at hn ⊢
  exact Pages.take_drop_bytes (Nat.two_pow_pos _) hpage hn h

theorem next_page (h : seg.pageOffset segoff + n = 2 ^ pageShift) :
    seg.pageIndex (segoff + n) = seg.pageIndex segoff + 1 ∧ seg.pageOffset (segoff + n) = 0 := by
  rw [pageIndex, pageOffset, Nat.add_right_comm]
  exact Pages.next_page (Nat.two_pow_pos _) h

theorem same_page (h : seg.pageOffset segoff + n < 2 ^ pageShift) :
    seg.pageIndex (segoff + n) = seg.pageIndex segoff ∧
      seg.pageOffset (segoff + n) = seg.pageOffset segoff + n := by
  rw [pageIndex, pageOffset, Nat.add_right_comm]
  exact Pages.same_page h

end Segment

/-! ## Regions -/

/-- `total_length` of a list of segments. -/
def totalLength (segments : List (Segment π pageShift)) : ℕ := (segments.map Segment.length).sum

/-- The bytes of a list of segments. -/
def bytes (segments : List (Segment π pageShift)) : List (π × ℕ) :=
  (segments.map Segment.bytes).flatten

/-- What a direct walk from an offset on selects. -/
def slice (segments : List (Segment π pageShift)) (offset length : ℕ) : List (π × ℕ) :=
  ((bytes segments).drop offset).take length

/-- `struct omx_user_region`, with its segments as they are added. -/
structure UserRegion (π : Type*) (pageShift : ℕ) where
  segments : List (Segment π pageShift)
  firstPageOffset_lt : ∀ seg ∈ segments, seg.firstPageOffset < 2 ^ pageShift
  length_pos : ∀ seg ∈ segments, 0 < seg.length
  totalLength_lt : totalLength segments < 2 ^ 64

variable {segments : List (Segment π pageShift)} {seg : Segment π pageShift} {i k n m o : ℕ}

theorem lengths_bytes (segments : List (Segment π pageShift)) :
    lengths (segments.map Segment.bytes) = segments.map Segment.length := by
  rw [lengths, List.map_map]
  exact List.map_congr_left fun seg _ => seg.length_bytes

theorem length_bytes (segments : List (Segment π pageShift)) :
    (bytes segments).length = totalLength segments := by
  rw [bytes, totalLength, ← sum_lengths, lengths_bytes]

theorem slice_zero (segments : List (Segment π pageShift)) (o : ℕ) : slice segments o 0 = [] :=
  List.take_zero

theorem slice_add (segments : List (Segment π pageShift)) (o n m : ℕ) :
    slice segments o (n + m) = slice segments o n ++ slice segments (o + n) m := by
  rw [slice, List.take_add, List.drop_drop]
  rfl

theorem length_slice (h : o + n ≤ totalLength segments) : (slice segments o n).length = n := by
  rw [slice, List.length_take, List.length_drop, length_bytes]
  omega

/-- Where the byte `k` of the segment `i` is in the region. -/
def position (segments : List (Segment π pageShift)) (i k : ℕ) : ℕ :=
  start (segments.map Segment.length) i + k

theorem position_succ (hseg : segments[i]? = some seg) :
    position segments (i + 1) 0 = position segments i seg.length := by
  obtain ⟨hi, rfl⟩ := List.getElem?_eq_some_iff.1 hseg
  rw [position, start_succ (by rwa [List.length_map]), List.getElem_map]
  rfl

theorem position_le (hseg : segments[i]? = some seg) (hk : k ≤ seg.length) :
    position segments i k ≤ totalLength segments := by
  have hle : position segments i k ≤ position segments i seg.length := Nat.add_le_add_left hk _
  rw [← position_succ hseg] at hle
  exact hle.trans (start_le_sum _ _)

/-- The bytes of a segment are those of the region from where it starts. -/
theorem slice_eq (hseg : segments[i]? = some seg) (hk : k + n ≤ seg.length) :
    slice segments (position segments i k) n = (seg.bytes.drop k).take n := by
  have hbuf : (segments.map Segment.bytes)[i]? = some seg.bytes := by
    rw [List.getElem?_map, hseg]
    rfl
  have hread := read_eq (c := ⟨i, k⟩) hbuf (by rwa [seg.length_bytes])
  rw [Cursor.pos, lengths_bytes] at hread
  exact hread.symm

/-- A piece of a region: one of a segment that does not go over the end of its page. -/
theorem slice_piece {page : π} (hseg : segments[i]? = some seg)
    (hpage : seg.pages[seg.pageIndex k]? = some page)
    (hn : seg.pageOffset k + n ≤ 2 ^ pageShift) (hk : k + n ≤ seg.length) :
    slice segments (position segments i k) n = Piece.bytes ⟨page, seg.pageOffset k, n⟩ := by
  rw [slice_eq hseg hk, Segment.take_drop_bytes hpage hn hk]

/-! ## Looking for an offset -/

/-- The loops that look for the segment of an offset, from the segment `i` on, which starts at `tmp`:
the segment and the offset in it.  They go on until they find one; `none` where they look at a
segment past the last. -/
def findSegment : List (Segment π pageShift) → (i tmp offset : ℕ) → Option (ℕ × ℕ)
  | [], _, _, _ => none
  | seg :: rest, i, tmp, offset =>
      if tmp + seg.length ≤ offset then findSegment rest (i + 1) (tmp + seg.length) offset
      else some (i, offset - tmp)

theorem findSegment_from (segs : List (Segment π pageShift)) {i tmp offset : ℕ}
    (hge : tmp ≤ offset) (h : offset < tmp + totalLength segs) :
    ∃ j seg, segs[j]? = some seg ∧ offset - tmp - start (segs.map Segment.length) j < seg.length ∧
      start (segs.map Segment.length) j ≤ offset - tmp ∧
      findSegment segs i tmp offset =
        some (i + j, offset - tmp - start (segs.map Segment.length) j) := by
  induction segs generalizing i tmp with
  | nil => exact absurd h (Nat.not_lt.2 hge)
  | cons seg rest ih =>
      have htotal : totalLength (seg :: rest) = seg.length + totalLength rest := rfl
      rw [findSegment]
      split
      · next hle =>
          obtain ⟨j, seg', hj, hlt, hstart, hfind⟩ := ih (i := i + 1) hle (by omega)
          have hcons : start ((seg :: rest).map Segment.length) (j + 1) =
              seg.length + start (rest.map Segment.length) j := start_cons ..
          refine ⟨j + 1, seg', hj, ?_, ?_, ?_⟩
          · rw [hcons]; omega
          · rw [hcons]; omega
          · rw [hfind, hcons]
            congr 2
            · omega
            · omega
      · next hgt => exact ⟨0, seg, rfl, by rw [start_zero]; omega, Nat.zero_le _, rfl⟩

/-- An offset in the region is found. -/
theorem findSegment_eq {offset : ℕ} (h : offset < totalLength segments) :
    ∃ i k seg, segments[i]? = some seg ∧ k < seg.length ∧ position segments i k = offset ∧
      findSegment segments 0 0 offset = some (i, k) := by
  obtain ⟨j, seg, hj, hlt, hstart, hfind⟩ :=
    findSegment_from segments (i := 0) (Nat.zero_le offset) (by omega)
  refine ⟨j, _, seg, hj, hlt, ?_, ?_⟩
  · rw [position]; omega
  · rw [hfind, Nat.zero_add]

theorem findSegment_none (segs : List (Segment π pageShift)) {i tmp offset : ℕ}
    (h : tmp + totalLength segs ≤ offset) : findSegment segs i tmp offset = none := by
  induction segs generalizing i tmp with
  | nil => rfl
  | cons seg rest ih =>
      have htotal : totalLength (seg :: rest) = seg.length + totalLength rest := rfl
      rw [findSegment, if_pos (by omega)]
      exact ih (by omega)

end Xen2mx.Region
