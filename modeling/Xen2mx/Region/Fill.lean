/-
# `Xen2mx.Region.Fill` — what is received is put into a region

The data of a pull reply is copied from the packet to the region at the offset of the message.  One
loop goes through the segments, skips those before the offset and cuts the data at the end of each;
another goes through the pages of a segment, the first of which may start in the middle.

    segments    |-----|  |--------|  |---|
    data            |==|==========|==|

The two variants, for native regions and for those of a guest, are the same code.  Pages may be in
several segments, and then a byte may be in the region more than once: the last of its places says
what it holds.

A segment may be longer than its pages are.  A guest says how many pages there are, and nothing
compares that with the length; `omx_user_region_add_segment` computes it, and `PAGE_ALIGN` may wrap.
The loop over the pages does not look at their number.

**Proved here.**

    the loop over pages, the loop over segments       (`fillLoop_eq`, `fillSegments_eq`)
    a byte that has no page is looked for             (`fillLoop_error`, `fillSegments_error`)
    the bytes of the range are those of the packet,
      and no other byte is touched
        ⟺  each byte of the range has its page        (`fillPages_iff`)
    the segments of a process have their pages, if
      none of them wraps                              (`mapped_createRegion`, `userRegion`)
-/
import Xen2mx.Lib.Memory
import Xen2mx.Recvpath.Skb
import Xen2mx.Region.Pinning

namespace Xen2mx.Region

open Pages Word Recvpath

variable {π β : Type*} {pageShift : ℕ}

/-! ## The code -/

/-- What the pages hold. -/
abbrev Memory (π β : Type*) := π × ℕ → β

/-- `struct omx_user_region_segment`, or `struct omx_xen_user_region_segment`, as it was made.  The
array has the pages that were counted for a process, or those that a guest counted. -/
structure RawSegment (π : Type*) (pageShift : ℕ) where
  firstPageOffset : ℕ
  length : ℕ
  pages : List π
  pages_lt : pages.length * 2 ^ pageShift < 2 ^ 64

/-- `segment_offset+segment->first_page_offset`, where a byte is in the pages.  It has the width of
an address. -/
def RawSegment.offsetOf (seg : RawSegment π pageShift) (segmentOffset : ℕ) : ℕ :=
  wrap 64 (seg.firstPageOffset + segmentOffset)

/-- `struct omx_user_region`, or `struct omx_xen_user_region`. -/
structure RawRegion (π : Type*) (pageShift : ℕ) where
  segments : List (RawSegment π pageShift)

/-- `total_length`, an `unsigned long` to which the lengths are added. -/
def RawRegion.totalLength (region : RawRegion π pageShift) : ℕ :=
  wrap 64 (region.segments.map RawSegment.length).sum

section Code

variable [DecidableEq π]

/-- `skb_copy_bits` to a piece of a page.  It copies nothing if the packet is too short, and its
callers do not look at what it returns. -/
def skbCopyBits (skb : List β) (skbOffset : ℕ) (p : Piece π) (mem : Memory π β) : Memory π β :=
  if skbOffset + p.length ≤ skb.length then
    writeAll mem p.bytes ((skb.drop skbOffset).take p.length)
  else mem

/-- The loop of `omx__user_region_segment_fill_pages`, at the page `i`. -/
def fillLoop (seg : RawSegment π pageShift) (skb : List β) :
    (fuel i pageOffset skbOffset remaining : ℕ) → Memory π β → Except Fault (Memory π β)
  | 0, _, _, _, _, _ => .error .stuck
  | fuel + 1, i, pageOffset, skbOffset, remaining, mem =>
      let chunk := min (2 ^ pageShift - pageOffset) remaining
      match seg.pages[i]? with
      | none => .error .page
      | some page =>
          let mem' := skbCopyBits skb skbOffset ⟨page, pageOffset, chunk⟩ mem
          if remaining - chunk = 0 then .ok mem'
          else fillLoop seg skb fuel (i + 1) 0 (skbOffset + chunk) (remaining - chunk) mem'

/-- `omx__user_region_segment_fill_pages` and `omx__xen_user_region_segment_fill_pages`. -/
def segmentFillPages (seg : RawSegment π pageShift) (segmentOffset : ℕ) (skb : List β)
    (skbOffset length : ℕ) (mem : Memory π β) : Except Fault (Memory π β) :=
  fillLoop seg skb (length + 1) (seg.offsetOf segmentOffset / 2 ^ pageShift)
    (seg.offsetOf segmentOffset % 2 ^ pageShift) skbOffset length mem

/-- The loop of `omx_user_region_fill_pages` over the segments that are left. -/
def fillSegments (skb : List β) : List (RawSegment π pageShift) →
    (segmentOffset skbOffset remaining : ℕ) → Memory π β → Except Fault (Memory π β)
  | [], _, _, _, mem => .ok mem
  | seg :: rest, segmentOffset, skbOffset, remaining, mem =>
      if seg.length ≤ segmentOffset then
        fillSegments skb rest (segmentOffset - seg.length) skbOffset remaining mem
      else if seg.length < wrap 64 (segmentOffset + remaining) then
        let chunk := seg.length - segmentOffset
        (segmentFillPages seg segmentOffset skb skbOffset chunk mem).bind fun mem' =>
          fillSegments skb rest 0 (skbOffset + chunk) (remaining - chunk) mem'
      else segmentFillPages seg segmentOffset skb skbOffset remaining mem

/-- Where the data is in the packet. -/
def replyHdrLen : ℕ := sizeofPktHead + sizeofPktPullReply

/-- `omx_user_region_fill_pages`: `none` is `-EINVAL`. -/
def fillPages (region xregion : Option (RawRegion π pageShift)) (regionOffset : ℕ) (skb : List β)
    (length : ℕ) (mem : Memory π β) : Except Fault (Option (Memory π β)) :=
  match region.or xregion with
  | some region =>
      if region.totalLength < wrap 64 (regionOffset + length) then .ok none
      else (fillSegments skb region.segments regionOffset replyHdrLen length mem).map some
  | none => .ok none

end Code

/-! ## Where the bytes are -/

/-- The bytes of a segment, in the pages that it has. -/
def RawSegment.places (seg : RawSegment π pageShift) : List (Option (π × ℕ)) :=
  Pages.places (2 ^ pageShift) seg.offsetOf seg.length seg.pages

/-- Those of segments, one after the other. -/
def places (segments : List (RawSegment π pageShift)) : List (Option (π × ℕ)) :=
  segments.flatMap RawSegment.places

/-- Those of a range. -/
def range (segments : List (RawSegment π pageShift)) (offset length : ℕ) :
    List (Option (π × ℕ)) :=
  ((places segments).drop offset).take length

/-- Each byte of the range has its page.  Where nothing is to be copied, the page of the offset is
looked at all the same. -/
def Mapped (segments : List (RawSegment π pageShift)) (offset length : ℕ) : Prop :=
  none ∉ range segments offset (max 1 length)

instance [DecidableEq π] (segments : List (RawSegment π pageShift)) (offset length : ℕ) :
    Decidable (Mapped segments offset length) :=
  inferInstanceAs (Decidable (¬ _))

@[simp] theorem RawSegment.length_places (seg : RawSegment π pageShift) :
    seg.places.length = seg.length := Pages.length_places ..

variable {seg : RawSegment π pageShift} {rest segments : List (RawSegment π pageShift)}
  {skb : List β} {mem : Memory π β} {o n : ℕ}

theorem length_places (segments : List (RawSegment π pageShift)) :
    (places segments).length = (segments.map RawSegment.length).sum := by
  induction segments with
  | nil => rfl
  | cons seg rest ih => simp [places]

theorem range_add (segments : List (RawSegment π pageShift)) (o m n : ℕ) :
    range segments o (m + n) = range segments o m ++ range segments (o + m) n := by
  rw [range, List.take_add, List.drop_drop]
  rfl

theorem length_range (h : o + n ≤ (segments.map RawSegment.length).sum) :
    (range segments o n).length = n := by
  rw [range, List.length_take, List.length_drop, length_places]
  omega

/-- A range behind the first segment is one of the others. -/
theorem range_cons_of_le (h : seg.length ≤ o) :
    range (seg :: rest) o n = range rest (o - seg.length) n := by
  rw [range, places, List.flatMap_cons, List.drop_append,
    List.drop_of_length_le (by rwa [seg.length_places]), List.nil_append, seg.length_places]
  rfl

/-- One that ends in the first segment. -/
theorem range_cons_of_add_le (h : o + n ≤ seg.length) :
    range (seg :: rest) o n = (seg.places.drop o).take n := by
  have hlen : n ≤ (seg.places.drop o).length := by
    rw [List.length_drop, seg.length_places]
    omega
  rw [range, places, List.flatMap_cons, List.drop_append_of_le_length
    (by rw [seg.length_places]; omega), List.take_append_of_le_length hlen]

/-- One that goes on behind it. -/
theorem range_cons (ho : o ≤ seg.length) (hn : seg.length ≤ o + n) :
    range (seg :: rest) o n =
      (seg.places.drop o).take (seg.length - o) ++ range rest 0 (n - (seg.length - o)) := by
  obtain ⟨m, rfl⟩ := Nat.exists_eq_add_of_le (show seg.length - o ≤ n by omega)
  have hend : o + (seg.length - o) = seg.length := by omega
  rw [range_add, range_cons_of_add_le hend.le, range_cons_of_le hend.ge, hend, Nat.sub_self,
    Nat.add_sub_cancel_left]

/-! ## Pages -/

/-- The pages end before the address space does, so that no offset wraps in one. -/
theorem RawSegment.offsetOf_add {page : π} {segoff n : ℕ}
    (hpage : seg.pages[seg.offsetOf segoff / 2 ^ pageShift]? = some page)
    (hfit : seg.offsetOf segoff % 2 ^ pageShift + n ≤ 2 ^ pageShift) :
    seg.offsetOf (segoff + n) = seg.offsetOf segoff + n := by
  have hindex := (List.getElem?_eq_some_iff.1 hpage).1
  have hbound : (seg.offsetOf segoff / 2 ^ pageShift + 1) * 2 ^ pageShift < 2 ^ 64 :=
    (Nat.mul_le_mul_right _ hindex).trans_lt seg.pages_lt
  have hdiv := Nat.div_add_mod' (seg.offsetOf segoff) (2 ^ pageShift)
  rw [Nat.add_mul, Nat.one_mul] at hbound
  have hsum : seg.offsetOf segoff + n < 2 ^ 64 := by omega
  rw [RawSegment.offsetOf, ← Nat.add_assoc]
  exact add_mod_of_lt hsum

/-- The bytes of a range of a segment that are in its first page, which there is. -/
theorem RawSegment.take_drop_places {page : π} {segoff chunk : ℕ}
    (hpage : seg.pages[seg.offsetOf segoff / 2 ^ pageShift]? = some page)
    (hfit : seg.offsetOf segoff % 2 ^ pageShift + chunk ≤ 2 ^ pageShift)
    (hle : segoff + chunk ≤ seg.length) :
    (seg.places.drop segoff).take chunk =
      (Piece.bytes ⟨page, seg.offsetOf segoff % 2 ^ pageShift, chunk⟩).map some :=
  Pages.take_drop_places hpage hfit
    (fun j hj => seg.offsetOf_add hpage (by omega)) hle

theorem reduceOption_take_drop {page : π} {segoff chunk : ℕ}
    (hpage : seg.pages[seg.offsetOf segoff / 2 ^ pageShift]? = some page)
    (hfit : seg.offsetOf segoff % 2 ^ pageShift + chunk ≤ 2 ^ pageShift)
    (hle : segoff + chunk ≤ seg.length) :
    ((seg.places.drop segoff).take chunk).reduceOption =
      Piece.bytes ⟨page, seg.offsetOf segoff % 2 ^ pageShift, chunk⟩ := by
  rw [RawSegment.take_drop_places hpage hfit hle, List.reduceOption, List.filterMap_map,
    Function.id_comp, List.filterMap_some]

/-- The first byte of a range has its page, if each has. -/
theorem exists_page_of_mapped {segoff remaining : ℕ} (hlt : segoff < seg.length)
    (hmapped : none ∉ (seg.places.drop segoff).take (max 1 remaining)) :
    ∃ page, seg.pages[seg.offsetOf segoff / 2 ^ pageShift]? = some page := by
  by_contra hnone
  refine hmapped (List.mem_iff_getElem?.2 ⟨0, ?_⟩)
  rw [List.getElem?_take_of_lt (by omega), List.getElem?_drop, Nat.add_zero, RawSegment.places,
    getElem?_places_eq_none_iff hlt]
  by_contra hlt'
  exact hnone ⟨_, List.getElem?_eq_getElem (Nat.lt_of_not_le hlt')⟩

/-- What is not copied from the first page is the rest of the range. -/
theorem range_split {segoff remaining chunk : ℕ} (hle : chunk ≤ remaining) :
    (seg.places.drop segoff).take remaining =
      (seg.places.drop segoff).take chunk ++
        (seg.places.drop (segoff + chunk)).take (remaining - chunk) := by
  obtain ⟨more, rfl⟩ := Nat.exists_eq_add_of_le hle
  rw [List.take_add, List.drop_drop, Nat.add_sub_cancel_left]

/-- Where the loop goes on after a chunk that ends with its page. -/
theorem next_chunk {page : π} {segoff chunk : ℕ}
    (hpage : seg.pages[seg.offsetOf segoff / 2 ^ pageShift]? = some page)
    (hend : seg.offsetOf segoff % 2 ^ pageShift + chunk = 2 ^ pageShift) :
    seg.offsetOf segoff / 2 ^ pageShift + 1 = seg.offsetOf (segoff + chunk) / 2 ^ pageShift ∧
      0 = seg.offsetOf (segoff + chunk) % 2 ^ pageShift := by
  obtain ⟨hindex, hoffset⟩ := next_page (Nat.two_pow_pos pageShift) hend
  rw [seg.offsetOf_add hpage hend.le]
  exact ⟨hindex.symm, hoffset.symm⟩

/-! ## Segments that have their pages -/

theorem none_notMem_segments {segments : List (RawSegment π pageShift)}
    (h : ∀ seg ∈ segments, none ∉ seg.places) : none ∉ places segments := by
  intro hmem
  obtain ⟨seg, hseg, hnone⟩ := List.mem_flatMap.1 hmem
  exact h seg hseg hnone

/-- Where each segment has a page for each byte, every range is mapped. -/
theorem mapped_of_covers {segments : List (RawSegment π pageShift)}
    (h : ∀ seg ∈ segments, seg.firstPageOffset + seg.length ≤ seg.pages.length * 2 ^ pageShift)
    (offset length : ℕ) : Mapped segments offset length := by
  intro hmem
  refine none_notMem_segments (fun seg hseg => ?_) (List.mem_of_mem_drop (List.mem_of_mem_take hmem))
  refine Pages.none_notMem_places fun k hk => ?_
  have hcovers := h seg hseg
  have hlt := seg.pages_lt
  rw [RawSegment.offsetOf, wrap_of_lt (by omega)]
  omega

/-- The array of a segment of a process has as many pages as were counted. -/
theorem PinSegment.pages_lt (useg : UserSegment) :
    (addSegment useg).nrPages * 2 ^ 12 < 2 ^ 64 := by
  have hwrap := wrap_lt 64 (useg.vaddr % pageSize + useg.len + (pageSize - 1))
  simp only [addSegment, pageSize] at hwrap ⊢
  omega

/-- A region that `omx_ioctl_user_region_create` made, when its pages are all pinned; `pageOf` are
these pages, by their segment and their index in its array. -/
def nativeRegion (usegs : List UserSegment) (pageOf : UserSegment → ℕ → π) : RawRegion π 12 where
  segments := (usegs.filter fun useg => useg.len ≠ 0).map fun useg =>
    { firstPageOffset := (addSegment useg).firstPageOffset
      length := (addSegment useg).length
      pages := (List.range (addSegment useg).nrPages).map (pageOf useg)
      pages_lt := by simpa using PinSegment.pages_lt useg }

/-- It has the segments that are pinned, and their length. -/
theorem nativeRegion_segments (usegs : List UserSegment) (pageOf : UserSegment → ℕ → π) :
    (nativeRegion usegs pageOf).segments.map (fun seg =>
        (seg.firstPageOffset, seg.length, seg.pages.length)) =
      (createRegion usegs).segments.map (fun seg =>
        (seg.firstPageOffset, seg.length, seg.nrPages)) ∧
      (nativeRegion usegs pageOf).totalLength = (createRegion usegs).totalLength := by
  constructor
  · simp [nativeRegion, createRegion, Function.comp_def]
  · rw [RawRegion.totalLength, nativeRegion, createRegion, List.map_map]
    rfl

/-- A segment that does not wrap has a page for each byte. -/
theorem addSegment_covers {useg : UserSegment}
    (h : useg.vaddr % pageSize + useg.len + (pageSize - 1) < 2 ^ 64) :
    (addSegment useg).firstPageOffset + (addSegment useg).length ≤
      (addSegment useg).nrPages * 2 ^ 12 := by
  rw [addSegment, wrap_of_lt h, pageSize]
  dsimp only
  omega

theorem mapped_createRegion {usegs : List UserSegment} (h : UserSegmentsFit usegs)
    (pageOf : UserSegment → ℕ → π) (offset length : ℕ) :
    Mapped (nativeRegion usegs pageOf).segments offset length := by
  refine mapped_of_covers (fun seg hseg => ?_) offset length
  obtain ⟨useg, huseg, rfl⟩ := List.mem_map.1 hseg
  simpa using addSegment_covers (h.bytes useg (List.mem_filter.1 huseg).1)

/-- A segment that does not wrap, as the copies and the replies read it. -/
def readSegment (pageOf : UserSegment → ℕ → π) (useg : UserSegment)
    (h : useg.vaddr % pageSize + useg.len + (pageSize - 1) < 2 ^ 64) : Segment π 12 where
  firstPageOffset := (addSegment useg).firstPageOffset
  length := (addSegment useg).length
  pages := (List.range (addSegment useg).nrPages).map (pageOf useg)
  covers := by simpa using addSegment_covers h

/-- The region of such segments. -/
def userRegion (usegs : List UserSegment) (h : UserSegmentsFit usegs)
    (pageOf : UserSegment → ℕ → π) : UserRegion π 12 where
  segments := (usegs.filter fun useg => useg.len ≠ 0).pmap (readSegment pageOf)
    fun useg huseg => h.bytes useg (List.mem_filter.1 huseg).1
  firstPageOffset_lt := by
    intro seg hseg
    obtain ⟨useg, -, rfl⟩ := List.mem_pmap.1 hseg
    exact Nat.mod_lt _ (show 0 < pageSize by decide)
  length_pos := by
    intro seg hseg
    obtain ⟨useg, huseg, rfl⟩ := List.mem_pmap.1 hseg
    have hne : useg.len ≠ 0 := by simpa using (List.mem_filter.1 huseg).2
    exact Nat.pos_of_ne_zero hne
  totalLength_lt := by
    rw [totalLength, List.map_pmap]
    change (List.pmap (fun (useg : UserSegment) _ => useg.len) _ _).sum < 2 ^ 64
    rw [List.pmap_eq_map, sum_filter_len]
    exact h.total

/-- It is the same region. -/
theorem userRegion_segments (usegs : List UserSegment) (h : UserSegmentsFit usegs)
    (pageOf : UserSegment → ℕ → π) :
    (userRegion usegs h pageOf).segments.map (fun seg =>
        (seg.firstPageOffset, seg.length, seg.pages)) =
      (nativeRegion usegs pageOf).segments.map fun seg =>
        (seg.firstPageOffset, seg.length, seg.pages) := by
  simp only [userRegion, nativeRegion, List.map_map, List.map_pmap, Function.comp_def, readSegment,
    List.pmap_eq_map]

/-! ## The loops -/

variable [DecidableEq π]

/-- Bytes of the packet to places, in two parts. -/
theorem writeAll_split {as bs : List (π × ℕ)} {skbOffset remaining chunk : ℕ}
    (hle : chunk ≤ remaining) (has : as.length = chunk) (hskb : skbOffset + chunk ≤ skb.length) :
    writeAll mem (as ++ bs) ((skb.drop skbOffset).take remaining) =
      writeAll (writeAll mem as ((skb.drop skbOffset).take chunk)) bs
        ((skb.drop (skbOffset + chunk)).take (remaining - chunk)) := by
  obtain ⟨more, rfl⟩ := Nat.exists_eq_add_of_le hle
  have hlen : as.length = ((skb.drop skbOffset).take chunk).length := by
    rw [has, List.length_take, List.length_drop, Nat.min_eq_left (by omega)]
  rw [List.take_add, writeAll_append hlen, List.drop_drop, Nat.add_sub_cancel_left]

/-- The bytes of a range of a segment that are in its first page are copied. -/
theorem skbCopyBits_eq {page : π} {segoff skbOffset chunk : ℕ}
    (hpage : seg.pages[seg.offsetOf segoff / 2 ^ pageShift]? = some page)
    (hfit : seg.offsetOf segoff % 2 ^ pageShift + chunk ≤ 2 ^ pageShift)
    (hle : segoff + chunk ≤ seg.length) (hskb : skbOffset + chunk ≤ skb.length) :
    skbCopyBits skb skbOffset ⟨page, seg.offsetOf segoff % 2 ^ pageShift, chunk⟩ mem =
      writeAll mem ((seg.places.drop segoff).take chunk).reduceOption
        ((skb.drop skbOffset).take chunk) := by
  rw [reduceOption_take_drop hpage hfit hle, skbCopyBits, if_pos hskb]

/-- The pages of a segment get the bytes of the packet. -/
theorem fillLoop_eq {fuel segoff skbOffset remaining : ℕ} (hlt : segoff < seg.length)
    (hle : segoff + remaining ≤ seg.length)
    (hmapped : none ∉ (seg.places.drop segoff).take (max 1 remaining))
    (hskb : skbOffset + remaining ≤ skb.length) (hfuel : remaining < fuel) :
    fillLoop seg skb fuel (seg.offsetOf segoff / 2 ^ pageShift)
        (seg.offsetOf segoff % 2 ^ pageShift) skbOffset remaining mem =
      .ok (writeAll mem ((seg.places.drop segoff).take remaining).reduceOption
        ((skb.drop skbOffset).take remaining)) := by
  induction fuel generalizing segoff skbOffset remaining mem with
  | zero => omega
  | succ fuel ih =>
      obtain ⟨page, hpage⟩ := exists_page_of_mapped hlt hmapped
      have hoff : seg.offsetOf segoff % 2 ^ pageShift < 2 ^ pageShift :=
        Nat.mod_lt _ (Nat.two_pow_pos _)
      simp only [fillLoop, hpage]
      generalize hchunk :
        min (2 ^ pageShift - seg.offsetOf segoff % 2 ^ pageShift) remaining = chunk
      rw [skbCopyBits_eq hpage (by omega) (by omega) (by omega)]
      split
      · next hdone =>
          obtain rfl : chunk = remaining := by omega
          rfl
      · next hmore =>
          -- the chunk ends with its page, and the next page starts at its beginning
          have hend : seg.offsetOf segoff % 2 ^ pageShift + chunk = 2 ^ pageShift := by omega
          obtain ⟨hindex, hoffset⟩ := next_chunk hpage hend
          have hsplit : (seg.places.drop segoff).take remaining =
              (seg.places.drop segoff).take chunk ++
                (seg.places.drop (segoff + chunk)).take (remaining - chunk) :=
            range_split (by omega)
          have hbehind : none ∉
              (seg.places.drop (segoff + chunk)).take (max 1 (remaining - chunk)) := by
            rw [show max 1 (remaining - chunk) = remaining - chunk by omega]
            rw [show max 1 remaining = remaining by omega, hsplit] at hmapped
            exact fun hmem => hmapped (List.mem_append_right _ hmem)
          have hlen : ((seg.places.drop segoff).take chunk).reduceOption.length = chunk := by
            rw [reduceOption_take_drop hpage (by omega) (by omega), Piece.length_bytes]
          rw [hindex, hoffset, ih (by omega) (by omega) hbehind (by omega) (by omega), hsplit,
            List.reduceOption_append, writeAll_split (by omega) hlen (by omega)]

/-- Where a byte of the range has no page, the loop looks for one behind the end of the array. -/
theorem fillLoop_error {fuel segoff skbOffset remaining : ℕ}
    (hle : segoff + remaining ≤ seg.length)
    (hmissing : none ∈ (seg.places.drop segoff).take (max 1 remaining)) (hfuel : remaining < fuel) :
    fillLoop seg skb fuel (seg.offsetOf segoff / 2 ^ pageShift)
      (seg.offsetOf segoff % 2 ^ pageShift) skbOffset remaining mem = .error .page := by
  induction fuel generalizing segoff skbOffset remaining mem with
  | zero => omega
  | succ fuel ih =>
      cases hpage : seg.pages[seg.offsetOf segoff / 2 ^ pageShift]? with
      | none => simp only [fillLoop, hpage]
      | some page =>
          have hoff : seg.offsetOf segoff % 2 ^ pageShift < 2 ^ pageShift :=
            Nat.mod_lt _ (Nat.two_pow_pos _)
          simp only [fillLoop, hpage]
          generalize hchunk :
            min (2 ^ pageShift - seg.offsetOf segoff % 2 ^ pageShift) remaining = chunk
          -- the bytes of this page have a place
          have hhere : ∀ m, seg.offsetOf segoff % 2 ^ pageShift + m ≤ 2 ^ pageShift →
              segoff + m ≤ seg.length → none ∉ (seg.places.drop segoff).take m := by
            intro m hfit hm
            rw [RawSegment.take_drop_places hpage hfit hm]
            simp
          split
          · next hdone =>
              have hlt : segoff < seg.length := by
                by_contra hge
                rw [List.drop_of_length_le (by rw [seg.length_places]; omega)] at hmissing
                simp at hmissing
              exact absurd hmissing (hhere _ (by omega) (by omega))
          · next hmore =>
              have hend : seg.offsetOf segoff % 2 ^ pageShift + chunk = 2 ^ pageShift := by omega
              obtain ⟨hindex, hoffset⟩ := next_chunk hpage hend
              rw [hindex, hoffset]
              refine ih (by omega) ?_ (by omega)
              rw [show max 1 remaining = remaining by omega,
                range_split (show chunk ≤ remaining by omega)] at hmissing
              rw [show max 1 (remaining - chunk) = remaining - chunk by omega]
              exact (List.mem_append.1 hmissing).resolve_left (hhere _ (by omega) (by omega))

/-! ## Segments -/

theorem segmentFillPages_eq {segoff skbOffset length : ℕ} (hlt : segoff < seg.length)
    (hle : segoff + length ≤ seg.length)
    (hmapped : none ∉ (seg.places.drop segoff).take (max 1 length))
    (hskb : skbOffset + length ≤ skb.length) :
    segmentFillPages seg segoff skb skbOffset length mem =
      .ok (writeAll mem ((seg.places.drop segoff).take length).reduceOption
        ((skb.drop skbOffset).take length)) :=
  fillLoop_eq hlt hle hmapped hskb (Nat.lt_succ_self _)

theorem segmentFillPages_error {segoff skbOffset length : ℕ} (hle : segoff + length ≤ seg.length)
    (hmissing : none ∈ (seg.places.drop segoff).take (max 1 length)) :
    segmentFillPages seg segoff skb skbOffset length mem = .error .page :=
  fillLoop_error hle hmissing (Nat.lt_succ_self _)

/-- The segments get the bytes of the packet. -/
theorem fillSegments_eq {skbOffset remaining : ℕ}
    (hle : o + remaining ≤ (segments.map RawSegment.length).sum) (h64 : o + remaining < 2 ^ 64)
    (hmapped : Mapped segments o remaining) (hskb : skbOffset + remaining ≤ skb.length) :
    fillSegments skb segments o skbOffset remaining mem =
      .ok (writeAll mem (range segments o remaining).reduceOption
        ((skb.drop skbOffset).take remaining)) := by
  rw [Mapped] at hmapped
  induction segments generalizing o skbOffset remaining mem with
  | nil => simp [fillSegments, range, places]
  | cons seg rest ih =>
      rw [List.map_cons, List.sum_cons] at hle
      rw [fillSegments, wrap_of_lt h64]
      split
      · next hskip =>
          rw [range_cons_of_le hskip] at hmapped ⊢
          exact ih (by omega) (by omega) hmapped hskb
      · next hin =>
          have hlt : o < seg.length := Nat.lt_of_not_le hin
          split
          · next hmore =>
              -- the rest of this segment, and the following ones from their beginning
              rw [show max 1 remaining = remaining by omega, range_cons hlt.le hmore.le] at hmapped
              rw [range_cons hlt.le hmore.le]
              generalize hchunk : seg.length - o = chunk at hmapped ⊢
              obtain ⟨hhere, hthere⟩ := not_or.1 (mt List.mem_append.2 hmapped)
              have hfirst : segmentFillPages seg o skb skbOffset chunk mem =
                  .ok (writeAll mem ((seg.places.drop o).take chunk).reduceOption
                    ((skb.drop skbOffset).take chunk)) :=
                segmentFillPages_eq hlt (by omega) (by rwa [show max 1 chunk = chunk by omega])
                  (by omega)
              have hlen : ((seg.places.drop o).take chunk).reduceOption.length = chunk := by
                rw [length_reduceOption hhere, List.length_take, List.length_drop,
                  seg.length_places]
                omega
              simp only [hfirst, Except.bind]
              rw [ih (by omega) (by omega)
                  (by rwa [show max 1 (remaining - chunk) = remaining - chunk by omega]) (by omega),
                List.reduceOption_append, writeAll_split (by omega) hlen (by omega)]
          · next hlast =>
              rw [range_cons_of_add_le (by omega)] at hmapped ⊢
              exact segmentFillPages_eq hlt (by omega) hmapped hskb

/-- Where a byte of the range has no page, one is looked for behind the end of an array. -/
theorem fillSegments_error {skbOffset remaining : ℕ}
    (hle : o + remaining ≤ (segments.map RawSegment.length).sum) (h64 : o + remaining < 2 ^ 64)
    (hmissing : ¬ Mapped segments o remaining) (hskb : skbOffset + remaining ≤ skb.length) :
    fillSegments skb segments o skbOffset remaining mem = .error .page := by
  rw [Mapped, not_not] at hmissing
  induction segments generalizing o skbOffset remaining mem with
  | nil => simp [range, places] at hmissing
  | cons seg rest ih =>
      rw [List.map_cons, List.sum_cons] at hle
      rw [fillSegments, wrap_of_lt h64]
      split
      · next hskip =>
          rw [range_cons_of_le hskip] at hmissing
          exact ih (by omega) (by omega) hmissing hskb
      · next hin =>
          have hlt : o < seg.length := Nat.lt_of_not_le hin
          split
          · next hmore =>
              rw [show max 1 remaining = remaining by omega, range_cons hlt.le hmore.le] at hmissing
              generalize hchunk : seg.length - o = chunk at hmissing ⊢
              have hone : max 1 chunk = chunk := by omega
              by_cases hhere : none ∈ (seg.places.drop o).take chunk
              · have hfirst : segmentFillPages seg o skb skbOffset chunk mem = .error .page :=
                  segmentFillPages_error (by omega) (by rwa [hone])
                simp only [hfirst, Except.bind]
              · have hthere := (List.mem_append.1 hmissing).resolve_left hhere
                have hfirst : segmentFillPages seg o skb skbOffset chunk mem =
                    .ok (writeAll mem ((seg.places.drop o).take chunk).reduceOption
                      ((skb.drop skbOffset).take chunk)) :=
                  segmentFillPages_eq hlt (by omega) (by rwa [hone]) (by omega)
                simp only [hfirst, Except.bind]
                exact ih (by omega) (by omega)
                  (by rwa [show max 1 (remaining - chunk) = remaining - chunk by omega]) (by omega)
          · next hlast =>
              rw [range_cons_of_add_le (by omega)] at hmissing
              exact segmentFillPages_error (by omega) hmissing

/-! ## The region -/

variable {region xregion : Option (RawRegion π pageShift)} {r : RawRegion π pageShift}

/-- What is received for a range of a region, native or of a guest, is put there: a byte of the
range gets the data for the last of its places, and the other bytes of all pages stay. -/
def FillsRange (region xregion : Option (RawRegion π pageShift))
    (segments : List (RawSegment π pageShift)) (regionOffset : ℕ) (skb : List β) (length : ℕ)
    (mem : Memory π β) : Prop :=
  ∃ mem', fillPages region xregion regionOffset skb length mem = .ok (some mem') ∧
    (∀ a, some a ∉ range segments regionOffset length → mem' a = mem a) ∧
    ∀ j < length, ∃ a, (range segments regionOffset length)[j]? = some (some a) ∧
      ((∀ k, j < k → (range segments regionOffset length)[k]? ≠ some (some a)) →
        some (mem' a) = skb[replyHdrLen + j]?)

/-- A range of the region passes the check. -/
theorem fillPages_eq {regionOffset length : ℕ} (hregion : region.or xregion = some r)
    (hle : regionOffset + length ≤ r.totalLength) :
    fillPages region xregion regionOffset skb length mem =
      (fillSegments skb r.segments regionOffset replyHdrLen length mem).map some := by
  have h64 : r.totalLength < 2 ^ 64 := wrap_lt _ _
  rw [fillPages, hregion]
  dsimp only
  rw [wrap_of_lt (by omega), if_neg (by omega)]

theorem Mapped.fillsRange {regionOffset length : ℕ} (hregion : region.or xregion = some r)
    (hle : regionOffset + length ≤ r.totalLength) (hskb : replyHdrLen + length ≤ skb.length)
    (h : Mapped r.segments regionOffset length) :
    FillsRange region xregion r.segments regionOffset skb length mem := by
  have h64 : r.totalLength < 2 ^ 64 := wrap_lt _ _
  have hsum : r.totalLength ≤ (r.segments.map RawSegment.length).sum := Nat.mod_le _ _
  have hlen : (range r.segments regionOffset length).length = length := length_range (by omega)
  have hmapped : none ∉ range r.segments regionOffset length := by
    intro hmem
    refine h (List.mem_of_mem_take (i := length) ?_)
    rwa [range, List.take_take, Nat.min_eq_left (Nat.le_max_right 1 length)]
  have hplaces := map_some_reduceOption hmapped
  refine ⟨writeAll mem (range r.segments regionOffset length).reduceOption
    ((skb.drop replyHdrLen).take length), ?_, fun a ha => ?_, fun j hj => ?_⟩
  · rw [fillPages_eq hregion hle, fillSegments_eq (by omega) (by omega) h hskb]
    rfl
  · refine writeAll_of_notMem fun hmem => ha ?_
    rw [← hplaces]
    exact List.mem_map_of_mem hmem
  · have hlt : j < (range r.segments regionOffset length).reduceOption.length := by
      rw [length_reduceOption hmapped, hlen]
      exact hj
    have hat : ∀ k : ℕ, (range r.segments regionOffset length)[k]? =
        ((range r.segments regionOffset length).reduceOption[k]?).map some := by
      intro k
      rw [← List.getElem?_map, hplaces]
    refine ⟨(range r.segments regionOffset length).reduceOption[j], ?_, fun hlast => ?_⟩
    · rw [hat, List.getElem?_eq_getElem hlt]
      rfl
    · have hskbj : replyHdrLen + j < skb.length := by omega
      have hv : ((skb.drop replyHdrLen).take length)[j]? = some skb[replyHdrLen + j] := by
        rw [List.getElem?_take_of_lt hj, List.getElem?_drop, List.getElem?_eq_getElem hskbj]
      rw [writeAll_last (List.getElem?_eq_getElem hlt) hv, List.getElem?_eq_getElem hskbj]
      intro k hk heq
      exact hlast k hk (by rw [hat, heq]; rfl)

/-- For every range of a region, native or of a guest: what is received is put there, and nothing
else is touched, exactly if each byte of the range has its page.  Otherwise the code goes behind the
end of an array of pages. -/
theorem fillPages_iff (region xregion : Option (RawRegion π pageShift)) (r : RawRegion π pageShift)
    (regionOffset length : ℕ) (skb : List β) (mem : Memory π β)
    (hregion : region.or xregion = some r) (hle : regionOffset + length ≤ r.totalLength)
    (hskb : replyHdrLen + length ≤ skb.length) :
    (FillsRange region xregion r.segments regionOffset skb length mem ↔
        Mapped r.segments regionOffset length) ∧
      (¬ Mapped r.segments regionOffset length →
        fillPages region xregion regionOffset skb length mem = .error .page) := by
  have herror : ¬ Mapped r.segments regionOffset length →
      fillPages region xregion regionOffset skb length mem = .error .page := by
    intro hmissing
    have h64 : r.totalLength < 2 ^ 64 := wrap_lt _ _
    have hsum : r.totalLength ≤ (r.segments.map RawSegment.length).sum := Nat.mod_le _ _
    rw [fillPages_eq hregion hle, fillSegments_error (by omega) (by omega) hmissing hskb]
    rfl
  refine ⟨⟨fun hfills => ?_, Mapped.fillsRange hregion hle hskb⟩, herror⟩
  obtain ⟨mem', hok, -⟩ := hfills
  by_contra hmissing
  cases hok.symm.trans (herror hmissing)

/-- Two segments of 4 bytes, each with its page. -/
def twoRawSegments : RawRegion ℕ 12 where
  segments := [⟨0, 4, [0], by decide⟩, ⟨0, 4, [1], by decide⟩]

/-- Five bytes from the middle of the first segment on, which end in the second. -/
theorem fillPages_iff_twoSegments :
    FillsRange (some twoRawSegments) none twoRawSegments.segments 2 (List.range 40) 5 fun _ => 0 :=
  (fillPages_iff (some twoRawSegments) none twoRawSegments 2 5 (List.range 40) (fun _ => 0) rfl
    (by decide) (by decide)).1.2 (by decide)

/-- A segment of two pages, of which the guest says that it has one. -/
def oneOfTwoPages : RawRegion ℕ 12 where
  segments := [⟨0, 8192, [0], by decide⟩]

/-- Four bytes for the second page go behind the end of the array; so do those for the second page
of a segment of a process that has one page only because it wraps. -/
theorem fillPages_short :
    (4096 + 4 ≤ oneOfTwoPages.totalLength ∧
      ¬ FillsRange none (some oneOfTwoPages) oneOfTwoPages.segments 4096 (List.range 36) 4
        fun _ => 0) ∧
    4094 + 4 ≤ (nativeRegion [⟨4098, 2 ^ 64 - 1⟩] fun _ => id).totalLength ∧
      ¬ FillsRange (some (nativeRegion [⟨4098, 2 ^ 64 - 1⟩] fun _ => id)) none
        (nativeRegion [⟨4098, 2 ^ 64 - 1⟩] fun _ => id).segments 4094 (List.range 36) 4
        fun _ => 0 := by
  refine ⟨⟨by decide, ?_⟩, by decide, ?_⟩
  · rintro ⟨mem', hok, -⟩
    have herror : fillPages none (some oneOfTwoPages) 4096 (List.range 36) 4 (fun _ => 0) =
        .error .page := by rfl
    cases hok.symm.trans herror
  · rintro ⟨mem', hok, -⟩
    have herror : fillPages (some (nativeRegion [⟨4098, 2 ^ 64 - 1⟩] fun _ => id)) none 4094
        (List.range 36) 4 (fun _ => 0) = .error .page := by rfl
    cases hok.symm.trans herror

end Xen2mx.Region
