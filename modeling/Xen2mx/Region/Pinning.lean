/-
# `Xen2mx.Region.Pinning` — regions that are pinned little by little

The pages of a region are pinned in chunks, from the first segment on, as far as they are needed; the
next call goes on where the last one stopped.  A chunk has at most so many pages, twice as many as
the one before, and ends with its segment.

    pages      none if a segment starts; else where the next page is stored
    remaining  of the segment
    offset     of the segment in its first page, in the first chunk

`total_registered_length` is what the others see of it.  A chunk that is not pinned as a whole is
given back, and the region has failed.

The arithmetic is that of the machine.  A segment may be so long that the end of its last page is
past the end of the address space: nothing compares its address and its length, and `PAGE_ALIGN`
wraps.  Such a segment has too few pages, and is pinned with one chunk.

**Proved here.**

    a chunk pins the next pages of its segment, or none         (`PinRegion.Exact.addChunk`)
    a call ends with enough, or with a region that has failed   (`PinRegion.Exact.pinContinue`)
    the pages that are pinned are those that are counted, once,
      and each is put once                                      (`pinning_exact`)
    a segment of 2^64 - 1 bytes is pinned with one page         (`pinning_wraps`)
-/
import Mathlib.Data.List.Nodup
import Xen2mx.Lib.Runs
import Xen2mx.Region.OffsetCache

namespace Xen2mx.Region

open Word

/-! ## Machine integers -/

/-- Conversion to `int`. -/
def toInt (x : ℤ) : ℤ := (x + 2 ^ 31) % 2 ^ 32 - 2 ^ 31

/-- Conversion to `unsigned long`. -/
def toULong (x : ℤ) : ℕ := (x % 2 ^ 64).toNat

/-- `PAGE_SIZE`. -/
def pageSize : ℕ := 4096

/-- `omx_pin_chunk_pages_min` and `omx_pin_chunk_pages_max`, parameters of the module. -/
structure PinConfig where
  chunkPagesMin : ℤ
  chunkPagesMax : ℤ

/-- What they are unless they are set. -/
def defaultPinConfig : PinConfig := ⟨1, 1024⟩

/-! ## Regions -/

/-- `struct omx_user_region_segment`, as the pinning sees it. -/
structure PinSegment where
  alignedVaddr : ℕ
  firstPageOffset : ℕ
  length : ℕ
  nrPages : ℕ
  pinnedPages : ℕ
  deriving DecidableEq

/-- `omx_user_region_add_segment`, once there is memory for the array of pages. -/
def addSegment (useg : UserSegment) : PinSegment where
  alignedVaddr := useg.vaddr - useg.vaddr % pageSize
  firstPageOffset := useg.vaddr % pageSize
  length := useg.len
  nrPages := wrap 64 (useg.vaddr % pageSize + useg.len + (pageSize - 1)) / pageSize
  pinnedPages := 0

/-- `enum omx_user_region_status`. -/
inductive RegionStatus where
  | notPinned
  | pinned
  | failed
  deriving DecidableEq

/-- `struct omx_user_region_pin_state`; `pages` is the index of the next page in the array. -/
structure PinState where
  segment : ℕ
  alignedVaddr : ℕ
  remaining : ℕ
  chunkOffset : ℤ
  nextChunkPages : ℤ
  pages : Option ℕ

/-- A reference to a page: where it is stored, and the address that it was pinned for. -/
structure PageRef where
  seg : ℕ
  index : ℕ
  vaddr : ℕ
  deriving DecidableEq

/-- A region with the references that it holds, and the state of the one who pins it. -/
structure PinRegion where
  segments : List PinSegment
  totalLength : ℕ
  status : RegionStatus
  totalRegisteredLength : ℕ
  refs : List PageRef
  pinState : Option PinState

/-- `omx_ioctl_user_region_create`: empty segments are left out. -/
def createRegion (usegs : List UserSegment) : PinRegion where
  segments := (usegs.filter fun useg => useg.len ≠ 0).map addSegment
  totalLength := wrap 64 (((usegs.filter fun useg => useg.len ≠ 0).map UserSegment.len).sum)
  status := .notPinned
  totalRegisteredLength := 0
  refs := []
  pinState := none

/-! ## Pinning -/

/-- What `get_user_pages` makes of the pages that it is asked for. -/
inductive Gup where
  | all
  | part (n : ℕ)
  | fail
  deriving DecidableEq

/-- `omx_get_user_pages_fast`: how many pages it got, or an error. -/
def Gup.ret (asked : ℤ) : Gup → ℤ
  | .all => asked
  | .part n => min n asked
  | .fail => -14

/-- `omx__user_region_pin_init`. -/
def pinInit (cfg : PinConfig) : PinState where
  segment := 0
  alignedVaddr := 0
  remaining := 0
  chunkOffset := 0
  nextChunkPages := cfg.chunkPagesMin
  pages := none

/-- `omx__user_region_pin_new_segment`. -/
def pinNewSegment (ps : PinState) (seg : PinSegment) : PinState :=
  { ps with
    alignedVaddr := seg.alignedVaddr
    pages := some 0
    remaining := seg.length
    chunkOffset := seg.firstPageOffset }

/-- The number of pages of the chunk after one of `chunkPages`. -/
def nextChunkPages (cfg : PinConfig) (chunkPages : ℤ) : ℤ :=
  if chunkPages < cfg.chunkPagesMax then
    let next := toInt (chunkPages * 2)
    if cfg.chunkPagesMax < next then cfg.chunkPagesMax else next
  else chunkPages

/-- The length of a chunk of at most `chunkPages` pages. -/
def chunkLength (chunkPages chunkOffset : ℤ) (remaining : ℕ) : ℤ :=
  if wrap 64 (toULong chunkOffset + remaining) ≤ toULong (toInt (chunkPages * pageSize)) then
    toInt remaining
  else toInt (toInt (chunkPages * pageSize) - chunkOffset)

/-- How many pages it has. -/
def pagesOfChunk (chunkOffset chunkLength : ℤ) : ℤ :=
  toInt ((wrap 64 (toULong (toInt (chunkOffset + chunkLength)) + (pageSize - 1)) / pageSize : ℕ))

/-- The references to the pages of a chunk: `n` pages, from the address `vaddr` on, stored from
`index` on. -/
def chunkRefs (seg index vaddr n : ℕ) : List PageRef :=
  (List.range n).map fun k => ⟨seg, index + k, wrap 64 (vaddr + k * pageSize)⟩

/-- `omx__user_region_pin_add_chunk`: the region and the state afterwards, and whether the chunk was
pinned. -/
def pinAddChunk (cfg : PinConfig) (r : PinRegion) (ps : PinState) (gup : Gup) :
    Except Fault (Bool × PinRegion × PinState) :=
  match r.segments[ps.segment]? with
  | none => .error .segment
  | some seg =>
      let ps := if ps.pages = none then pinNewSegment ps seg else ps
      let pages := ps.pages.getD 0
      let length := chunkLength ps.nextChunkPages ps.chunkOffset ps.remaining
      let n := pagesOfChunk ps.chunkOffset length
      let ps' := { ps with nextChunkPages := nextChunkPages cfg ps.nextChunkPages }
      let ret := gup.ret n
      -- the pages are stored in the array of the segment, those that are released again too
      if seg.nrPages < pages + ret.toNat then .error .page
      else if ret ≠ n then .ok (false, r, ps')
      else
        let r' := { r with
          segments := r.segments.set ps.segment
            { seg with pinnedPages := wrap 64 (seg.pinnedPages + toULong n) }
          totalRegisteredLength := wrap 64 (r.totalRegisteredLength + toULong length)
          refs := r.refs ++ chunkRefs ps.segment pages ps.alignedVaddr n.toNat }
        if toULong length < ps.remaining then
          .ok (true, r', { ps' with
            alignedVaddr := wrap 64 (ps.alignedVaddr + toULong ps.chunkOffset + toULong length)
            pages := some (pages + n.toNat)
            remaining := ps.remaining - toULong length
            chunkOffset := 0 })
        else .ok (true, r', { ps' with pages := none, segment := ps.segment + 1 })

/-- The loop of `omx__user_region_pin_continue`; `gup k` is what comes of its chunk `k`. -/
def pinLoop (cfg : PinConfig) (needed : ℕ) (gup : ℕ → Gup) :
    (fuel k : ℕ) → PinRegion → PinState → Except Fault (Bool × PinRegion × PinState)
  | fuel, k, r, ps =>
      if r.totalRegisteredLength < needed then
        match fuel with
        | 0 => .error .stuck
        | fuel + 1 =>
            (pinAddChunk cfg r ps (gup k)).bind fun
              | (true, r', ps') => pinLoop cfg needed gup fuel (k + 1) r' ps'
              | (false, r', ps') => .ok (false, r', ps')
      else .ok (true, r, ps)

/-- `omx__user_region_pin_continue`: the length that it returns, if it succeeds, and the region.  As
many rounds are enough as bytes are needed. -/
def pinContinue (cfg : PinConfig) (r : PinRegion) (ps : PinState) (needed : ℕ) (gup : ℕ → Gup) :
    Except Fault (Option ℕ × PinRegion) :=
  (pinLoop cfg needed gup needed 0 r ps).bind fun
    | (true, r', ps') => .ok (some r'.totalRegisteredLength, { r' with pinState := some ps' })
    | (false, r', ps') => .ok (none, { r' with pinState := some ps', status := .failed })

/-- The pages that `omx_user_region_destroy_segments` puts, from the segment `i` on. -/
def pagesPut : (i : ℕ) → List PinSegment → List (ℕ × ℕ)
  | _, [] => []
  | i, seg :: rest => (List.range seg.pinnedPages).map (Prod.mk i) ++ pagesPut (i + 1) rest

/-- Each of the pages is put: `none` where nothing refers to one. -/
def putPages : List (ℕ × ℕ) → List PageRef → Option (List PageRef)
  | [], refs => some refs
  | page :: rest, refs =>
      if refs.any fun ref => (ref.seg, ref.index) = page then
        putPages rest (refs.eraseP fun ref => (ref.seg, ref.index) = page)
      else none

/-- `omx_user_region_destroy_segments`: the references that are left. -/
def destroySegments (r : PinRegion) : Option (List PageRef) := putPages (pagesPut 0 r.segments) r.refs

/-! ## The machine -/

/-- What is done to a region; `omx_user_region_immediate_full_pin` is the one and then the other. -/
inductive PinAction where
  /-- `omx_user_region_demand_pin_init`; the others who call it watch.  A caller that is to pin all of
  the region sets `next_chunk_pages` to the greatest value -/
  | demandPinInit (full : Bool)
  /-- `omx_user_region_demand_pin_continue`, of the one who does not watch -/
  | demandPinContinue (needed : ℕ) (gup : ℕ → Gup)

/-- The step of an action.  Nobody needs more than there is.  Who pins a region may go on after a
chunk that was not pinned: the copy between two regions ends with `omx_user_region_demand_pin_finish`
whatever became of it. -/
def pinStep (cfg : PinConfig) (r : PinRegion) : PinAction → Option PinRegion
  | .demandPinInit full =>
      if r.status = .notPinned then
        let ps := pinInit cfg
        some { r with
          status := .pinned
          pinState := some (if full then { ps with nextChunkPages := cfg.chunkPagesMax } else ps) }
      else some r
  | .demandPinContinue needed gup =>
      if r.status ≠ .notPinned ∧ needed ≤ r.totalLength then
        r.pinState.bind fun ps =>
          match pinContinue cfg r ps needed gup with
          | .ok (_, r') => some r'
          | .error _ => none
      else none

/-- The pinning of a region. -/
def pinMachine (cfg : PinConfig) (usegs : List UserSegment) : Machine PinRegion PinAction where
  init := createRegion usegs
  step := pinStep cfg

/-! ## Chunks -/

/-- Chunks whose length is an `int`, of one page at least. -/
def ChunkFits (chunkPages : ℤ) : Prop := 1 ≤ chunkPages ∧ chunkPages * pageSize < 2 ^ 31

/-- Parameters that the chunks fit with. -/
structure PinConfig.Fits (cfg : PinConfig) : Prop where
  min : ChunkFits cfg.chunkPagesMin
  max : ChunkFits cfg.chunkPagesMax

theorem toInt_of_lt {x : ℤ} (hle : -2 ^ 31 ≤ x) (hlt : x < 2 ^ 31) : toInt x = x := by
  unfold toInt
  omega

theorem toULong_of_lt {x : ℤ} {n : ℕ} (hx : x = n) (hlt : n < 2 ^ 64) : toULong x = n := by
  unfold toULong
  omega

theorem nextChunkPages_fits {cfg : PinConfig} (hcfg : cfg.Fits) {chunkPages : ℤ}
    (h : ChunkFits chunkPages) : ChunkFits (nextChunkPages cfg chunkPages) := by
  obtain ⟨hpos, hlt⟩ := h
  obtain ⟨hpos', hlt'⟩ := hcfg.max
  simp only [pageSize] at hlt hlt'
  unfold nextChunkPages
  split
  · rw [toInt_of_lt (by omega) (by omega)]
    dsimp only
    split
    · exact hcfg.max
    · exact ⟨by omega, by simp only [pageSize]; omega⟩
  · exact ⟨hpos, hlt⟩

/-- A chunk ends with what remains, or at the end of a page. -/
theorem chunk_spec {chunkPages : ℤ} (h : ChunkFits chunkPages) {offset remaining : ℕ}
    (hoff : offset < pageSize) (hpos : 0 < remaining)
    (hfit : offset + remaining + (pageSize - 1) < 2 ^ 64) :
    ∃ length n : ℕ, chunkLength chunkPages offset remaining = length ∧
      pagesOfChunk offset length = n ∧ 0 < length ∧ 0 < n ∧ length ≤ remaining ∧
      (length = remaining ∧ n = (offset + remaining + (pageSize - 1)) / pageSize ∨
        length < remaining ∧ offset + length = n * pageSize) := by
  obtain ⟨c, rfl⟩ := Int.eq_ofNat_of_zero_le (show 0 ≤ chunkPages by have := h.1; omega)
  obtain ⟨hone, hlt⟩ := h
  simp only [pageSize] at hlt hoff hfit ⊢
  have hint : toInt ((c : ℤ) * (4096 : ℕ)) = c * 4096 := toInt_of_lt (by omega) (by omega)
  have hbytes : toULong ((c : ℤ) * 4096) = c * 4096 := toULong_of_lt (by omega) (by omega)
  have hsum : wrap 64 (toULong offset + remaining) = offset + remaining := by
    rw [toULong_of_lt rfl (by omega), wrap_of_lt (by omega)]
  unfold chunkLength pagesOfChunk
  simp only [pageSize, hsum, hint, hbytes]
  by_cases hle : offset + remaining ≤ c * 4096
  · have hpages : toULong (toInt ((offset : ℤ) + remaining)) = offset + remaining :=
      toULong_of_lt (by rw [toInt_of_lt (by omega) (by omega)]; omega) (by omega)
    refine ⟨remaining, (offset + remaining + 4095) / 4096, ?_, ?_, hpos, by omega, le_rfl,
      .inl ⟨rfl, rfl⟩⟩
    · rw [if_pos hle, toInt_of_lt (by omega) (by omega)]
    · rw [hpages, wrap_of_lt (by omega), toInt_of_lt (by omega) (by omega)]
  · have hpages : toULong (toInt ((offset : ℤ) + (c * 4096 - offset : ℕ))) = c * 4096 :=
      toULong_of_lt (by rw [toInt_of_lt (by omega) (by omega)]; omega) (by omega)
    refine ⟨c * 4096 - offset, c, ?_, ?_, by omega, by omega, by omega, .inr ⟨by omega, by omega⟩⟩
    · rw [if_neg hle, toInt_of_lt (by omega) (by omega)]
      omega
    · rw [hpages, wrap_of_lt (by omega), toInt_of_lt (by omega) (by omega)]
      omega

/-! ## The pages that are pinned -/

/-- A segment whose pages are those that its bytes are in. -/
structure PinSegment.Fits (seg : PinSegment) : Prop where
  offset : seg.firstPageOffset < pageSize
  pos : 0 < seg.length
  pages : seg.nrPages = (seg.firstPageOffset + seg.length + (pageSize - 1)) / pageSize
  bytes : seg.firstPageOffset + seg.length + (pageSize - 1) < 2 ^ 64

/-- The bytes of the segment in its pages that are pinned. -/
def PinSegment.covered (seg : PinSegment) : ℕ :=
  min seg.length (seg.pinnedPages * pageSize - seg.firstPageOffset)

/-- The segment as it was added. -/
def PinSegment.unpinned (seg : PinSegment) : PinSegment := { seg with pinnedPages := 0 }

/-- The bytes that are covered are the first ones. -/
theorem PinSegment.lt_covered_iff {seg : PinSegment} {i : ℕ} :
    i < seg.covered ↔ i < seg.length ∧ (seg.firstPageOffset + i) / pageSize < seg.pinnedPages := by
  rw [covered, lt_min_iff, Nat.div_lt_iff_lt_mul (by decide), Nat.lt_sub_iff_add_lt']

theorem PinSegment.covered_le (seg : PinSegment) : seg.covered ≤ seg.length := Nat.min_le_left _ _

theorem PinSegment.covered_eq_zero {seg : PinSegment} (h : seg.pinnedPages = 0) :
    seg.covered = 0 := by
  simp [covered, h]

theorem PinSegment.covered_eq_length {seg : PinSegment} (h : seg.Fits)
    (hall : seg.pinnedPages = seg.nrPages) : seg.covered = seg.length := by
  have hpages := h.pages
  simp only [covered, hall, pageSize] at hpages ⊢
  omega

/-- The bytes are all there only if the pages are. -/
theorem PinSegment.pinnedPages_eq {seg : PinSegment} (h : seg.Fits)
    (hle : seg.pinnedPages ≤ seg.nrPages) (hall : seg.covered = seg.length) :
    seg.pinnedPages = seg.nrPages := by
  have hpages := h.pages
  have hpos := h.pos
  simp only [covered, pageSize] at hall hpages
  omega

theorem chunkRefs_add (i index vaddr a b : ℕ) :
    chunkRefs i index vaddr (a + b)
      = chunkRefs i index vaddr a ++ chunkRefs i (index + a) (vaddr + a * pageSize) b := by
  simp only [chunkRefs, List.range_add, List.map_append, List.map_map]
  congr 1
  refine List.map_congr_left fun k _ => ?_
  simp only [Function.comp, PageRef.mk.injEq, true_and]
  exact ⟨by omega, by rw [Nat.add_mul, Nat.add_assoc]⟩

theorem chunkRefs_congr {i index vaddr vaddr' : ℕ} (h : wrap 64 vaddr = wrap 64 vaddr') (n : ℕ) :
    chunkRefs i index vaddr n = chunkRefs i index vaddr' n := by
  refine List.map_congr_left fun k _ => ?_
  rw [← wrap_wrap_add 64 vaddr, h, wrap_wrap_add]

/-- The references to the pages that are pinned, one to each, from the segment `i` on. -/
def heldRefs : (i : ℕ) → List PinSegment → List PageRef
  | _, [] => []
  | i, seg :: rest => chunkRefs i 0 seg.alignedVaddr seg.pinnedPages ++ heldRefs (i + 1) rest

theorem heldRefs_append (i : ℕ) (segs segs' : List PinSegment) :
    heldRefs i (segs ++ segs') = heldRefs i segs ++ heldRefs (i + segs.length) segs' := by
  induction segs generalizing i with
  | nil => rfl
  | cons seg segs ih =>
      simp only [List.cons_append, heldRefs, ih, List.append_assoc, List.length_cons]
      rw [Nat.add_right_comm, Nat.add_assoc]

theorem heldRefs_eq_nil {i : ℕ} {segs : List PinSegment} (h : ∀ seg ∈ segs, seg.pinnedPages = 0) :
    heldRefs i segs = [] := by
  induction segs generalizing i with
  | nil => rfl
  | cons seg segs ih =>
      rw [heldRefs, h seg List.mem_cons_self, ih fun seg' h' => h seg' (List.mem_cons_of_mem _ h')]
      rfl

theorem mem_chunkRefs {ref : PageRef} {i index vaddr n : ℕ} :
    ref ∈ chunkRefs i index vaddr n ↔
      ∃ k < n, ref = ⟨i, index + k, wrap 64 (vaddr + k * pageSize)⟩ := by
  simp only [chunkRefs, List.mem_map, List.mem_range, eq_comm]

/-- Which references are held. -/
theorem mem_heldRefs {ref : PageRef} {i : ℕ} {segs : List PinSegment} :
    ref ∈ heldRefs i segs ↔ ∃ j seg, segs[j]? = some seg ∧ ∃ k < seg.pinnedPages,
      ref = ⟨i + j, k, wrap 64 (seg.alignedVaddr + k * pageSize)⟩ := by
  induction segs generalizing i with
  | nil => simp [heldRefs]
  | cons seg segs ih =>
      simp only [heldRefs, List.mem_append, mem_chunkRefs, ih, Nat.zero_add]
      constructor
      · rintro (h | ⟨j, seg', hj, h⟩)
        · exact ⟨0, seg, rfl, h⟩
        · refine ⟨j + 1, seg', hj, ?_⟩
          rwa [show i + (j + 1) = i + 1 + j by omega]
      · rintro ⟨_ | j, seg', hj, h⟩
        · cases hj
          exact .inl h
        · refine .inr ⟨j, seg', hj, ?_⟩
          rwa [show i + 1 + j = i + (j + 1) by omega]

/-- Where a reference is stored. -/
def PageRef.place (ref : PageRef) : ℕ × ℕ := (ref.seg, ref.index)

/-- The pages that are put are the pages that are held. -/
theorem pagesPut_eq (i : ℕ) (segs : List PinSegment) :
    pagesPut i segs = (heldRefs i segs).map PageRef.place := by
  induction segs generalizing i with
  | nil => rfl
  | cons seg segs ih =>
      simp only [pagesPut, heldRefs, List.map_append, ih, chunkRefs, List.map_map]
      congr 1
      exact List.map_congr_left fun k _ => by simp [PageRef.place]

/-- Pages that are put as they are held, are each put once. -/
theorem putPages_map (refs : List PageRef) : putPages (refs.map PageRef.place) refs = some [] := by
  induction refs with
  | nil => rfl
  | cons ref refs ih =>
      let here (ref' : PageRef) : Bool := (ref'.seg, ref'.index) = ref.place
      have hhead : here ref = true := decide_eq_true rfl
      have herase : (ref :: refs).eraseP here = refs := List.eraseP_cons_of_pos hhead
      rw [List.map_cons, putPages, if_pos (List.any_eq_true.2 ⟨ref, List.mem_cons_self, hhead⟩)]
      exact (congrArg (putPages _) herase).trans ih

theorem nodup_chunkRefs (i index vaddr n : ℕ) :
    ((chunkRefs i index vaddr n).map PageRef.place).Nodup := by
  rw [chunkRefs, List.map_map]
  refine List.Nodup.map (fun k k' h => ?_) List.nodup_range
  simp only [Function.comp, PageRef.place, Prod.mk.injEq, true_and] at h
  omega

/-- No page is held twice. -/
theorem nodup_heldRefs (i : ℕ) (segs : List PinSegment) :
    ((heldRefs i segs).map PageRef.place).Nodup := by
  induction segs generalizing i with
  | nil => exact List.nodup_nil
  | cons seg segs ih =>
      rw [heldRefs, List.map_append]
      refine List.Nodup.append (nodup_chunkRefs i 0 _ _) (ih (i + 1)) ?_
      rw [List.disjoint_left]
      simp only [List.mem_map, not_exists, not_and]
      rintro _ ⟨ref, href, rfl⟩ ref' href' heq
      obtain ⟨k, -, rfl⟩ := mem_chunkRefs.1 href
      obtain ⟨j, seg', -, k', -, rfl⟩ := mem_heldRefs.1 href'
      simp only [PageRef.place, Prod.mk.injEq] at heq
      omega

/-! ## What a chunk keeps -/

/-- The bytes of segments. -/
def bytesOf (segs : List PinSegment) : ℕ := (segs.map PinSegment.length).sum

/-- Their bytes in pages that are pinned. -/
def coveredOf (segs : List PinSegment) : ℕ := (segs.map PinSegment.covered).sum

/-- What is counted is what is pinned. -/
structure PinRegion.Exact (r : PinRegion) : Prop where
  fits : ∀ seg ∈ r.segments, seg.Fits
  bytes : bytesOf r.segments < 2 ^ 64
  total : r.totalLength = bytesOf r.segments
  pinned_le : ∀ seg ∈ r.segments, seg.pinnedPages ≤ seg.nrPages
  registered : r.totalRegisteredLength = coveredOf r.segments
  refs : r.refs = heldRefs 0 r.segments

/-- Pinning goes on in the segment, after the pages that are pinned. -/
structure PinSegment.At (seg : PinSegment) (ps : PinState) : Prop where
  pages : ps.pages = some seg.pinnedPages
  lt : seg.pinnedPages < seg.nrPages
  vaddr : wrap 64 ps.alignedVaddr = wrap 64 (seg.alignedVaddr + seg.pinnedPages * pageSize)
  remaining : ps.remaining = seg.length - (seg.pinnedPages * pageSize - seg.firstPageOffset)
  offset : ps.chunkOffset = (seg.firstPageOffset - seg.pinnedPages * pageSize : ℕ)

/-- Pinning goes on in these segments: in the first, or at its start. -/
def Ahead (ps : PinState) : List PinSegment → Prop
  | [] => ps.pages = none
  | seg :: rest => (∀ seg' ∈ rest, seg'.pinnedPages = 0) ∧
      (ps.pages = none ∧ seg.pinnedPages = 0 ∨ seg.At ps)

/-- Pinning goes on after the segments that are pinned as a whole. -/
structure Ready (r : PinRegion) (ps : PinState) : Prop where
  chunk : ChunkFits ps.nextChunkPages
  split : ∃ done rest, r.segments = done ++ rest ∧ ps.segment = done.length ∧
    (∀ seg ∈ done, seg.pinnedPages = seg.nrPages) ∧ Ahead ps rest

/-- Where a segment starts. -/
theorem PinSegment.At.start {seg : PinSegment} (h : seg.Fits) (hnone : seg.pinnedPages = 0)
    (ps : PinState) : seg.At (pinNewSegment ps seg) := by
  have hpos := h.pos
  have hpages := h.pages
  simp only [pageSize] at hpages
  refine ⟨by rw [hnone]; rfl, by omega, by simp [pinNewSegment, hnone], ?_, ?_⟩
  · simp [pinNewSegment, hnone]
  · simp [pinNewSegment, hnone]

theorem bytesOf_append (segs segs' : List PinSegment) :
    bytesOf (segs ++ segs') = bytesOf segs + bytesOf segs' := by
  simp [bytesOf]

theorem coveredOf_append (segs segs' : List PinSegment) :
    coveredOf (segs ++ segs') = coveredOf segs + coveredOf segs' := by
  simp [coveredOf]

@[simp] theorem bytesOf_cons (seg : PinSegment) (segs : List PinSegment) :
    bytesOf (seg :: segs) = seg.length + bytesOf segs := by
  simp [bytesOf]

@[simp] theorem coveredOf_cons (seg : PinSegment) (segs : List PinSegment) :
    coveredOf (seg :: segs) = seg.covered + coveredOf segs := by
  simp [coveredOf]

theorem coveredOf_le (segs : List PinSegment) : coveredOf segs ≤ bytesOf segs := by
  induction segs with
  | nil => exact le_rfl
  | cons seg segs ih =>
      rw [coveredOf_cons, bytesOf_cons]
      exact Nat.add_le_add seg.covered_le ih

theorem coveredOf_eq {segs : List PinSegment} (hfits : ∀ seg ∈ segs, seg.Fits)
    (hall : ∀ seg ∈ segs, seg.pinnedPages = seg.nrPages) : coveredOf segs = bytesOf segs :=
  congrArg List.sum <| List.map_congr_left fun seg h =>
    PinSegment.covered_eq_length (hfits seg h) (hall seg h)

theorem coveredOf_eq_zero {segs : List PinSegment} (h : ∀ seg ∈ segs, seg.pinnedPages = 0) :
    coveredOf segs = 0 := by
  induction segs with
  | nil => rfl
  | cons seg segs ih =>
      rw [coveredOf_cons, PinSegment.covered_eq_zero (h seg List.mem_cons_self),
        ih fun seg' h' => h seg' (List.mem_cons_of_mem _ h')]

/-- If all bytes are covered, all pages are pinned. -/
theorem PinRegion.Exact.all_pinned {r : PinRegion} (h : r.Exact)
    (hall : r.totalRegisteredLength = r.totalLength) :
    ∀ seg ∈ r.segments, seg.pinnedPages = seg.nrPages := by
  intro seg hseg
  obtain ⟨left, right, hsplit⟩ := List.append_of_mem hseg
  have hsum := h.registered.symm.trans (hall.trans h.total)
  have hleft := coveredOf_le left
  have hright := coveredOf_le right
  have hle := seg.covered_le
  rw [hsplit, coveredOf_append, bytesOf_append, coveredOf_cons, bytesOf_cons] at hsum
  exact seg.pinnedPages_eq (h.fits seg hseg) (h.pinned_le seg hseg) (by omega)

/-- The segment that the next chunk is in. -/
theorem Ready.current {r : PinRegion} {ps : PinState} (h : Ready r ps) (he : r.Exact)
    (hlt : r.totalRegisteredLength < r.totalLength) :
    ∃ done seg rest, r.segments = done ++ seg :: rest ∧ ps.segment = done.length ∧
      (∀ seg' ∈ done, seg'.pinnedPages = seg'.nrPages) ∧ (∀ seg' ∈ rest, seg'.pinnedPages = 0) ∧
      seg.At (if ps.pages = none then pinNewSegment ps seg else ps) := by
  obtain ⟨done, rest, hsegs, hindex, hdone, hahead⟩ := h.split
  cases rest with
  | nil =>
      have hfull := coveredOf_eq he.fits (by simpa [hsegs] using hdone)
      rw [he.registered, he.total, hfull] at hlt
      exact absurd hlt (lt_irrefl _)
  | cons seg rest =>
      refine ⟨done, seg, rest, hsegs, hindex, hdone, hahead.1, ?_⟩
      obtain ⟨hnone, hzero⟩ | hat := hahead.2
      · rw [if_pos hnone]
        exact PinSegment.At.start (he.fits seg (by simp [hsegs])) hzero ps
      · rwa [if_neg (by simp [hat.pages])]

/-- The segment with `n` more pages that are pinned. -/
def PinSegment.pin (seg : PinSegment) (n : ℕ) : PinSegment :=
  { seg with pinnedPages := seg.pinnedPages + n }

theorem PinSegment.Fits.pin {seg : PinSegment} (h : seg.Fits) (n : ℕ) : (seg.pin n).Fits :=
  ⟨h.offset, h.pos, h.pages, h.bytes⟩

/-- A chunk is the next pages of the segment, and the bytes in them. -/
theorem PinSegment.At.chunk {seg : PinSegment} {ps : PinState} (h : seg.At ps) (hf : seg.Fits)
    (hc : ChunkFits ps.nextChunkPages) :
    ∃ length n : ℕ, chunkLength ps.nextChunkPages ps.chunkOffset ps.remaining = length ∧
      pagesOfChunk ps.chunkOffset length = n ∧ 0 < length ∧ length < 2 ^ 64 ∧
      seg.pinnedPages + n ≤ seg.nrPages ∧ seg.nrPages < 2 ^ 64 ∧
      (seg.pin n).covered = seg.covered + length ∧
      (ps.remaining ≤ length → (seg.pin n).pinnedPages = seg.nrPages) ∧
      (length < ps.remaining → ∀ chunkPages, (seg.pin n).At
        { ps with
          nextChunkPages := chunkPages
          alignedVaddr := wrap 64 (ps.alignedVaddr + toULong ps.chunkOffset + length)
          pages := some (seg.pinnedPages + n)
          remaining := ps.remaining - length
          chunkOffset := 0 }) := by
  obtain ⟨hoff, hpos, hpages, hbytes⟩ := hf
  obtain ⟨-, hlt, hvaddr, hremaining, hoffset⟩ := h
  simp only [pageSize] at hoff hpages hbytes hvaddr hremaining hoffset
  have hin : seg.firstPageOffset - seg.pinnedPages * 4096 < pageSize := by
    simp only [pageSize]
    omega
  have hsome : 0 < ps.remaining := by omega
  have hsum : seg.firstPageOffset - seg.pinnedPages * 4096 + ps.remaining + (pageSize - 1)
      < 2 ^ 64 := by
    simp only [pageSize]
    omega
  obtain ⟨length, n, hlength, hn, hpos', hpos'', hle, hend⟩ := chunk_spec hc hin hsome hsum
  rw [← hoffset] at hlength hn
  have hulong : toULong ps.chunkOffset = seg.firstPageOffset - seg.pinnedPages * 4096 :=
    toULong_of_lt hoffset (by omega)
  simp only [pageSize] at hend
  refine ⟨length, n, hlength, hn, hpos', by omega, by omega, by omega, ?_, ?_, ?_⟩
  · simp only [covered, pin, pageSize]
    omega
  · intro hall
    simp only [pin]
    omega
  · intro hmore chunkPages
    refine ⟨rfl, ?_, ?_, ?_, ?_⟩
    · simp only [pin]
      omega
    · simp only [pin, pageSize, hulong, wrap] at hvaddr ⊢
      omega
    · simp only [pin, pageSize]
      omega
    · simp only [pin, pageSize]
      omega

/-- The region as it was added. -/
def PinRegion.Same (r r' : PinRegion) : Prop :=
  r'.segments.map PinSegment.unpinned = r.segments.map PinSegment.unpinned ∧
    r'.totalLength = r.totalLength ∧ r'.status = r.status ∧ r'.pinState = r.pinState

theorem PinRegion.Same.refl (r : PinRegion) : r.Same r := ⟨rfl, rfl, rfl, rfl⟩

theorem PinRegion.Same.trans {r r' r'' : PinRegion} (h : r.Same r') (h' : r'.Same r'') :
    r.Same r'' :=
  ⟨h'.1.trans h.1, h'.2.1.trans h.2.1, h'.2.2.1.trans h.2.2.1, h'.2.2.2.trans h.2.2.2⟩

/-- The region once `n` more pages of the segment are pinned, for `length` bytes. -/
theorem PinRegion.Exact.pin {r : PinRegion} (he : r.Exact) {done rest : List PinSegment}
    {seg : PinSegment} (hsegs : r.segments = done ++ seg :: rest)
    (hrest : ∀ seg' ∈ rest, seg'.pinnedPages = 0) {n length : ℕ}
    (hn : seg.pinnedPages + n ≤ seg.nrPages) (hcovered : (seg.pin n).covered = seg.covered + length) :
    PinRegion.Exact { r with
      segments := done ++ seg.pin n :: rest
      totalRegisteredLength := r.totalRegisteredLength + length
      refs := r.refs ++
        chunkRefs done.length seg.pinnedPages (seg.alignedVaddr + seg.pinnedPages * pageSize) n } := by
  obtain ⟨hfits, hbytes, htotal, hle, hregistered, hrefs⟩ := he
  simp only [hsegs, List.mem_append, List.mem_cons] at hfits hle
  have hsame : bytesOf (done ++ seg.pin n :: rest) = bytesOf (done ++ seg :: rest) := by
    rw [bytesOf_append, bytesOf_append, bytesOf_cons, bytesOf_cons]
    rfl
  constructor
  case fits =>
    intro seg' h
    simp only [List.mem_append, List.mem_cons] at h
    obtain h | rfl | h := h
    · exact hfits seg' (.inl h)
    · exact (hfits seg (.inr (.inl rfl))).pin n
    · exact hfits seg' (.inr (.inr h))
  case bytes => rw [hsame, ← hsegs]; exact hbytes
  case total => rw [hsame, ← hsegs]; exact htotal
  case pinned_le =>
    intro seg' h
    simp only [List.mem_append, List.mem_cons] at h
    obtain h | rfl | h := h
    · exact hle seg' (.inl h)
    · exact hn
    · exact hle seg' (.inr (.inr h))
  case registered =>
    change r.totalRegisteredLength + length = _
    rw [hregistered, hsegs, coveredOf_append, coveredOf_append, coveredOf_cons, coveredOf_cons,
      hcovered]
    omega
  case refs =>
    have hnil := heldRefs_eq_nil (i := done.length + 1) hrest
    have hnew := chunkRefs_add done.length 0 seg.alignedVaddr seg.pinnedPages n
    simp only [hrefs, hsegs, heldRefs_append, heldRefs, Nat.zero_add, hnil, List.append_nil,
      List.append_assoc, PinSegment.pin, hnew]

/-- A chunk is pinned, or nothing is. -/
theorem PinRegion.Exact.addChunk {cfg : PinConfig} (hcfg : cfg.Fits) {r : PinRegion} (he : r.Exact)
    {ps : PinState} (hr : Ready r ps) (hlt : r.totalRegisteredLength < r.totalLength) (gup : Gup) :
    (∃ ps', pinAddChunk cfg r ps gup = .ok (false, r, ps') ∧ Ready r ps') ∨
      ∃ r' ps', pinAddChunk cfg r ps gup = .ok (true, r', ps') ∧ r'.Exact ∧ Ready r' ps' ∧
        r.Same r' ∧ r.totalRegisteredLength < r'.totalRegisteredLength := by
  obtain ⟨done, seg, rest, hsegs, hindex, hdone, hrest, hat⟩ := hr.current he hlt
  have hget : r.segments[ps.segment]? = some seg := by simp [hsegs, hindex]
  have hf := he.fits seg (by simp [hsegs])
  have hindex' : (if ps.pages = none then pinNewSegment ps seg else ps).segment = done.length := by
    split <;> exact hindex
  have hchunk : ChunkFits (if ps.pages = none then pinNewSegment ps seg else ps).nextChunkPages := by
    split <;> exact hr.chunk
  simp only [pinAddChunk, hget]
  generalize (if ps.pages = none then pinNewSegment ps seg else ps) = ps₁ at hat hindex' hchunk ⊢
  obtain ⟨length, n, hlength, hn, hpos, hlt64, hle, hpages, hcovered, hlast, hmore⟩ :=
    hat.chunk hf hchunk
  have hret : (gup.ret n).toNat ≤ n := by
    cases gup <;> simp only [Gup.ret] <;> omega
  have hulong : toULong (length : ℤ) = length := toULong_of_lt rfl hlt64
  have hnulong : toULong (n : ℤ) = n := toULong_of_lt rfl (by omega)
  simp only [hat.pages, Option.getD_some, hlength, hn, hulong, hnulong, Int.toNat_natCast,
    wrap_of_lt (show seg.pinnedPages + n < 2 ^ 64 by omega)]
  rw [if_neg (by omega)]
  by_cases hgot : gup.ret n = n
  · have he' := he.pin hsegs hrest hle hcovered
    have hfits : r.totalRegisteredLength + length < 2 ^ 64 := by
      have hall := coveredOf_le (done ++ seg.pin n :: rest)
      have hreg := he'.registered
      have htot := he'.total
      have hbytes := he'.bytes
      dsimp only at hreg htot hbytes
      omega
    have hset : r.segments.set ps₁.segment
        { seg with pinnedPages := seg.pinnedPages + n } = done ++ seg.pin n :: rest := by
      simp [hsegs, hindex', PinSegment.pin]
    have hchunks : chunkRefs ps₁.segment seg.pinnedPages ps₁.alignedVaddr n = chunkRefs done.length
        seg.pinnedPages (seg.alignedVaddr + seg.pinnedPages * pageSize) n := by
      rw [hindex', chunkRefs_congr hat.vaddr]
    have hsame : r.Same { r with
        segments := done ++ seg.pin n :: rest
        totalRegisteredLength := r.totalRegisteredLength + length
        refs := r.refs ++ chunkRefs done.length seg.pinnedPages
          (seg.alignedVaddr + seg.pinnedPages * pageSize) n } :=
      ⟨by simp [hsegs, PinSegment.unpinned, PinSegment.pin], rfl, rfl, rfl⟩
    rw [if_neg (not_not.2 hgot), wrap_of_lt hfits, hset, hchunks]
    right
    split
    · next hmid =>
      refine ⟨_, _, rfl, he', ⟨nextChunkPages_fits hcfg hchunk, done, seg.pin n :: rest, rfl,
        hindex', hdone, hrest, .inr (hmore hmid _)⟩, hsame, ?_⟩
      exact Nat.lt_add_of_pos_right hpos
    · next hend =>
      refine ⟨_, _, rfl, he', ⟨nextChunkPages_fits hcfg hchunk, done ++ [seg.pin n], rest,
        by simp, by simp [hindex'], ?_, ?_⟩, hsame, ?_⟩
      · intro seg' h
        obtain h | h := List.mem_append.1 h
        · exact hdone seg' h
        · obtain rfl := List.mem_singleton.1 h
          exact hlast (not_lt.1 hend)
      · cases rest with
        | nil => rfl
        | cons next rest =>
            exact ⟨fun seg' h => hrest seg' (List.mem_cons_of_mem _ h),
              .inl ⟨rfl, hrest next List.mem_cons_self⟩⟩
      · exact Nat.lt_add_of_pos_right hpos
  · -- the pages that were got are put again, and the next chunk starts where this one did
    rw [if_pos hgot]
    exact .inl ⟨_, rfl, nextChunkPages_fits hcfg hchunk, done, seg :: rest, hsegs, hindex', hdone,
      hrest, .inr ⟨rfl, hat.lt, hat.vaddr, hat.remaining, hat.offset⟩⟩

/-! ## What a call keeps -/

/-- The loop ends with enough, or where a chunk is not pinned. -/
theorem PinRegion.Exact.pinLoop {cfg : PinConfig} (hcfg : cfg.Fits) {needed : ℕ} (gup : ℕ → Gup)
    {fuel : ℕ} : ∀ {k : ℕ} {r : PinRegion} {ps : PinState}, r.Exact → Ready r ps →
      needed ≤ r.totalLength → needed ≤ r.totalRegisteredLength + fuel →
      ∃ ok r' ps', pinLoop cfg needed gup fuel k r ps = .ok (ok, r', ps') ∧ r'.Exact ∧ r.Same r' ∧
        r.totalRegisteredLength ≤ r'.totalRegisteredLength ∧ Ready r' ps' ∧
        (ok = true → needed ≤ r'.totalRegisteredLength) := by
  induction fuel with
  | zero =>
      intro k r ps he hr _ hfuel
      refine ⟨true, r, ps, ?_, he, .refl r, le_rfl, hr, fun _ => hfuel⟩
      rw [Region.pinLoop, if_neg (by omega)]
  | succ fuel ih =>
      intro k r ps he hr hle hfuel
      by_cases hmore : r.totalRegisteredLength < needed
      · rw [Region.pinLoop, if_pos hmore]
        obtain ⟨ps', hstep, hr'⟩ | ⟨r', ps', hstep, he', hr', hsame, hlt⟩ :=
          he.addChunk hcfg hr (hmore.trans_le hle) (gup k)
        · rw [hstep]
          refine ⟨false, r, ps', rfl, he, .refl r, le_rfl, hr', fun htrue => ?_⟩
          cases htrue
        · rw [hstep]
          obtain ⟨ok, r'', ps'', hloop, he'', hsame', hmono, hok⟩ :=
            ih (k := k + 1) he' hr' (hle.trans_eq hsame.2.1.symm) (by omega)
          exact ⟨ok, r'', ps'', hloop, he'', hsame.trans hsame', by omega, hok⟩
      · refine ⟨true, r, ps, ?_, he, .refl r, le_rfl, hr, fun _ => not_lt.1 hmore⟩
        rw [Region.pinLoop, if_neg hmore]

/-- What a call leaves behind: a region that is as exact, with enough of it pinned, or failed; either
way another call may go on. -/
structure Continued (needed : ℕ) (r : PinRegion) (result : Option ℕ) (r' : PinRegion) : Prop where
  exact : r'.Exact
  segments : r'.segments.map PinSegment.unpinned = r.segments.map PinSegment.unpinned
  total : r'.totalLength = r.totalLength
  mono : r.totalRegisteredLength ≤ r'.totalRegisteredLength
  ready : ∃ ps, r'.pinState = some ps ∧ Ready r' ps
  success : ∀ length ∈ result, needed ≤ length ∧ length = r'.totalRegisteredLength ∧
    r'.status = r.status
  failure : result = none → r'.status = .failed

theorem PinRegion.Exact.pinContinue {cfg : PinConfig} (hcfg : cfg.Fits) {r : PinRegion}
    (he : r.Exact) {ps : PinState} (hr : Ready r ps) {needed : ℕ} (hle : needed ≤ r.totalLength)
    (gup : ℕ → Gup) :
    ∃ result r', pinContinue cfg r ps needed gup = .ok (result, r') ∧
      Continued needed r result r' := by
  obtain ⟨ok, r', ps', hloop, he', hsame, hmono, hr', hok⟩ :=
    he.pinLoop hcfg gup (k := 0) hr hle (Nat.le_add_left _ _)
  rw [Region.pinContinue, hloop]
  cases ok with
  | true =>
      refine ⟨_, _, rfl, ⟨he'.fits, he'.bytes, he'.total, he'.pinned_le, he'.registered, he'.refs⟩,
        hsame.1, hsame.2.1, hmono, ⟨ps', rfl, hr'.chunk, hr'.split⟩, ?_, nofun⟩
      rintro _ ⟨⟩
      exact ⟨hok rfl, rfl, hsame.2.2.1⟩
  | false =>
      exact ⟨_, _, rfl, ⟨he'.fits, he'.bytes, he'.total, he'.pinned_le, he'.registered, he'.refs⟩,
        hsame.1, hsame.2.1, hmono, ⟨ps', rfl, hr'.chunk, hr'.split⟩, nofun, fun _ => rfl⟩

/-! ## Runs -/

/-- Segments that end before the address space does, and not too much of them. -/
structure UserSegmentsFit (usegs : List UserSegment) : Prop where
  bytes : ∀ useg ∈ usegs, useg.vaddr % pageSize + useg.len + (pageSize - 1) < 2 ^ 64
  total : (usegs.map UserSegment.len).sum < 2 ^ 64

/-- What holds of a region of the segments, whatever was done to it. -/
structure Pinning (usegs : List UserSegment) (r : PinRegion) : Prop where
  exact : r.Exact
  segments : r.segments.map PinSegment.unpinned = (createRegion usegs).segments
  unpinned : r.status = .notPinned → ∀ seg ∈ r.segments, seg.pinnedPages = 0
  ready : r.status ≠ .notPinned → ∃ ps, r.pinState = some ps ∧ Ready r ps

theorem addSegment_fits {useg : UserSegment} (hpos : useg.len ≠ 0)
    (hfit : useg.vaddr % pageSize + useg.len + (pageSize - 1) < 2 ^ 64) : (addSegment useg).Fits where
  offset := Nat.mod_lt _ (by decide)
  pos := Nat.pos_of_ne_zero hpos
  pages := by rw [addSegment, wrap_of_lt hfit]
  bytes := hfit

/-- Empty segments do not count. -/
theorem sum_filter_len (usegs : List UserSegment) :
    ((usegs.filter fun useg => useg.len ≠ 0).map UserSegment.len).sum
      = (usegs.map UserSegment.len).sum := by
  induction usegs with
  | nil => rfl
  | cons useg usegs ih =>
      by_cases hzero : useg.len = 0
      · rw [List.filter_cons_of_neg (by simpa using hzero), ih]
        simp [hzero]
      · rw [List.filter_cons_of_pos (by simpa using hzero)]
        simpa using ih

theorem Pinning.create {usegs : List UserSegment} (h : UserSegmentsFit usegs) :
    Pinning usegs (createRegion usegs) := by
  have hsum : bytesOf (createRegion usegs).segments = (usegs.map UserSegment.len).sum := by
    rw [← sum_filter_len]
    exact congrArg List.sum (List.map_map ..)
  have hzero : ∀ seg ∈ (createRegion usegs).segments, seg.pinnedPages = 0 := by
    intro seg hseg
    obtain ⟨useg, -, rfl⟩ := List.mem_map.1 hseg
    rfl
  refine ⟨⟨?_, hsum.trans_lt h.total, ?_, ?_, ?_, ?_⟩, ?_, fun _ => hzero,
    fun hpinned => absurd rfl hpinned⟩
  · intro seg hseg
    obtain ⟨useg, huseg, rfl⟩ := List.mem_map.1 hseg
    obtain ⟨hmem, hne⟩ := List.mem_filter.1 huseg
    exact addSegment_fits (by simpa using hne) (h.bytes useg hmem)
  · rw [hsum]
    change wrap 64 _ = _
    rw [sum_filter_len, wrap_of_lt h.total]
  · intro seg hseg
    rw [hzero seg hseg]
    exact Nat.zero_le _
  · exact (coveredOf_eq_zero hzero).symm
  · exact (heldRefs_eq_nil hzero).symm
  · change ((usegs.filter _).map addSegment).map _ = _
    rw [List.map_map]
    rfl

/-- Each step keeps it. -/
theorem Pinning.step {cfg : PinConfig} (hcfg : cfg.Fits) {usegs : List UserSegment}
    {r r' : PinRegion} {a : PinAction} (h : Pinning usegs r) (hstep : pinStep cfg r a = some r') :
    Pinning usegs r' := by
  cases a with
  | demandPinInit full =>
      simp only [pinStep] at hstep
      split at hstep
      · next hstatus =>
        cases hstep
        have he := h.exact
        refine ⟨⟨he.fits, he.bytes, he.total, he.pinned_le, he.registered, he.refs⟩, h.segments,
          nofun, fun _ => ⟨_, rfl, ?_, [], r.segments, rfl, ?_, nofun, ?_⟩⟩
        · cases full with
          | true => exact hcfg.max
          | false => exact hcfg.min
        · cases full <;> rfl
        · have hzero := h.unpinned hstatus
          have hnone : (if full then { pinInit cfg with nextChunkPages := cfg.chunkPagesMax }
              else pinInit cfg).pages = none := by cases full <;> rfl
          cases hsegs : r.segments with
          | nil => exact hnone
          | cons seg rest =>
              rw [hsegs] at hzero
              exact ⟨fun seg' h' => hzero seg' (List.mem_cons_of_mem _ h'),
                .inl ⟨hnone, hzero seg List.mem_cons_self⟩⟩
      · cases hstep
        exact h
  | demandPinContinue needed gup =>
      simp only [pinStep, Option.ite_none_right_eq_some] at hstep
      obtain ⟨⟨hstatus, hle⟩, hstep⟩ := hstep
      obtain ⟨ps, hps, hr⟩ := h.ready hstatus
      obtain ⟨result, r'', hcont, hafter⟩ := h.exact.pinContinue hcfg hr hle gup
      rw [hps, Option.bind_some, hcont] at hstep
      cases hstep
      refine ⟨hafter.exact, hafter.segments.trans h.segments, fun hnot => ?_,
        fun _ => hafter.ready⟩
      cases result with
      | none => exact absurd ((hafter.failure rfl).symm.trans hnot) (by decide)
      | some length => exact absurd ((hafter.success length rfl).2.2.symm.trans hnot) hstatus

/-- Whatever is done to a region, each of its pages is pinned once or not at all, and what is counted
is what is pinned; all its pages are put when it is destroyed, each once.  A call that goes on ends,
and if it succeeds, enough is pinned. -/
theorem pinning_exact {cfg : PinConfig} (hcfg : cfg.Fits) {usegs : List UserSegment}
    (hfit : UserSegmentsFit usegs) {as : List PinAction} {r : PinRegion}
    (h : (pinMachine cfg usegs).exec (createRegion usegs) as = some r) :
    r.segments.map PinSegment.unpinned = (createRegion usegs).segments ∧
      (∀ seg ∈ r.segments, seg.pinnedPages ≤ seg.nrPages) ∧
      (∀ ref, ref ∈ r.refs ↔ ∃ i seg, r.segments[i]? = some seg ∧ ∃ k < seg.pinnedPages,
        ref = ⟨i, k, wrap 64 (seg.alignedVaddr + k * pageSize)⟩) ∧
      (r.refs.map PageRef.place).Nodup ∧
      r.totalRegisteredLength = (r.segments.map PinSegment.covered).sum ∧
      (r.totalRegisteredLength = r.totalLength →
        ∀ seg ∈ r.segments, seg.pinnedPages = seg.nrPages) ∧
      destroySegments r = some [] ∧
      (r.status ≠ .notPinned → ∃ ps, r.pinState = some ps ∧ ∀ needed ≤ r.totalLength, ∀ gup,
        ∃ result r', pinContinue cfg r ps needed gup = .ok (result, r') ∧
          r.totalRegisteredLength ≤ r'.totalRegisteredLength ∧
          (∀ length ∈ result, needed ≤ length ∧ length = r'.totalRegisteredLength) ∧
          (result = none → r'.status = .failed)) := by
  have hinv : Pinning usegs r := Machine.exec_invariant (m := pinMachine cfg usegs)
    (I := Pinning usegs) (fun _ _ _ hI hs => hI.step hcfg hs) (Pinning.create hfit) h
  have he := hinv.exact
  refine ⟨hinv.segments, he.pinned_le, fun ref => ?_, ?_, he.registered, he.all_pinned, ?_, ?_⟩
  · rw [he.refs, mem_heldRefs]
    simp only [Nat.zero_add]
  · rw [he.refs]
    exact nodup_heldRefs 0 _
  · rw [destroySegments, he.refs, pagesPut_eq]
    exact putPages_map _
  · intro hstatus
    obtain ⟨ps, hps, hr⟩ := hinv.ready hstatus
    refine ⟨ps, hps, fun needed hle gup => ?_⟩
    obtain ⟨result, r', hcont, hafter⟩ := he.pinContinue hcfg hr hle gup
    exact ⟨result, r', hcont, hafter.mono,
      fun length hl => ⟨(hafter.success length hl).1, (hafter.success length hl).2.1⟩,
      hafter.failure⟩

/-- Two segments, of three pages and one: a chunk of the first, then another that fails. -/
theorem pinning_exact_twoSegments :
    ∃ r, (pinMachine defaultPinConfig [⟨4098, 10000⟩, ⟨8192, 0⟩, ⟨20480, 3⟩]).exec
        (createRegion [⟨4098, 10000⟩, ⟨8192, 0⟩, ⟨20480, 3⟩])
        [.demandPinInit false, .demandPinContinue 4000 fun _ => .all,
          .demandPinContinue 10003 fun _ => .part 1] = some r ∧
      r.totalRegisteredLength = 4094 ∧ destroySegments r = some [] := by
  have hcfg : defaultPinConfig.Fits := ⟨⟨by decide, by decide⟩, ⟨by decide, by decide⟩⟩
  have hfit : UserSegmentsFit [⟨4098, 10000⟩, ⟨8192, 0⟩, ⟨20480, 3⟩] := ⟨by decide, by decide⟩
  refine ⟨_, rfl, by decide, ?_⟩
  exact (@pinning_exact _ hcfg _ hfit [.demandPinInit false, .demandPinContinue 4000 fun _ => .all,
    .demandPinContinue 10003 fun _ => .part 1] _ rfl).2.2.2.2.2.2.1

/-- A segment that goes around the address space: one page is pinned, and all bytes are counted. -/
theorem pinning_wraps :
    ((pinMachine defaultPinConfig [⟨4098, 2 ^ 64 - 1⟩]).exec (createRegion [⟨4098, 2 ^ 64 - 1⟩])
      [.demandPinInit false, .demandPinContinue 1 fun _ => .all]).map (fun r =>
        (r.totalRegisteredLength, r.refs, (r.segments.map PinSegment.covered).sum))
      = some (2 ^ 64 - 1, [⟨0, 0, 4096⟩], 4094) := by
  decide

end Xen2mx.Region
