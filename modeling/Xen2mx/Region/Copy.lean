/-
# `Xen2mx.Region.Copy` — copies from a region to a region

Between two endpoints of one node the data of a pull is copied from region to region.  Where a DMA
engine is there, chunks are queued for it, and as soon as it does not take one the processor copies
what is left; the queued chunks are only waited for at the end.

    chunk          ends with a page of the source, a segment of the source or of the target,
                   and a page of the target where it is queued
    processor      source by its pages, target by its address in the process
    DMA engine     source and target by their pages

The queued chunks are made at any time before the end, in any order; those of the processor in
theirs.  The regions may lie over each other, and then the order matters.

**Proved here.**

    a loop takes the range of the source to that of the target,
      as far as it comes                                            (`copyLoop_eq`)
    if the bytes of the target are different and none of them is
      in the source, both ways end alike                            (`copyBetweenUserRegions_eq`)
    regions that lie over each other are left different             (`copyBetweenUserRegions_overlap`)
-/
import Mathlib.Tactic.IntervalCases
import Xen2mx.Region.Fill

namespace Xen2mx.Region

open Pages Word

variable {π β γ δ : Type*} {pageShift : ℕ}

/-! ## Sides -/

/-- One side of a copy: how much the next chunk may take, which bytes these are, and where the next
chunk starts. -/
structure Side (π γ : Type*) where
  room : γ → Except Fault ℕ
  addrs : γ → ℕ → Except Fault (List (π × ℕ))
  advance : γ → ℕ → Except Fault γ

/-- A region by its pages: `seg`, `segoff`, `page` and `pageoff` are a cursor. -/
def pageSide (r : UserRegion π pageShift) : Side π OffsetCache where
  room := fun c => (segmentAt r c.seg).map fun seg =>
    min (2 ^ pageShift - c.pageoff) (seg.length - c.segoff)
  addrs := fun c chunk => (segmentAt r c.seg).bind fun seg =>
    (pageAt seg c.page).map fun page => Piece.bytes ⟨page, c.pageoff, chunk⟩
  advance := fun c chunk => (segmentAt r c.seg).bind fun seg =>
    if c.segoff + chunk = seg.length then
      (segmentAt r (c.seg + 1)).bind fun next => .ok ⟨c.seg + 1, 0, 0, next.firstPageOffset⟩
    else if c.pageoff + chunk = 2 ^ pageShift then .ok ⟨c.seg, c.segoff + chunk, c.page + 1, 0⟩
    else .ok ⟨c.seg, c.segoff + chunk, c.page, c.pageoff + chunk⟩

/-- A region of the current process: where its segments are in the address space, the bytes of which
are those of the pages. -/
structure CurrentRegion (π : Type*) (pageShift : ℕ) extends UserRegion π pageShift where
  alignedVaddr : ℕ → ℕ
  space : ℕ → π × ℕ
  mapped : ∀ i seg k, segments[i]? = some seg → k < seg.length →
    seg.bytes[k]? = some (space (alignedVaddr i + seg.firstPageOffset + k))

/-- `dseg`, `dsegoff` and `dvaddr`. -/
structure UserCursor where
  seg : ℕ
  segoff : ℕ
  vaddr : ℕ

/-- A region by its addresses: `copy_to_user` goes over the ends of pages. -/
def userSide (r : CurrentRegion π pageShift) : Side π UserCursor where
  room := fun c => (segmentAt r.toUserRegion c.seg).map fun seg => seg.length - c.segoff
  addrs := fun c chunk => .ok ((List.range' c.vaddr chunk).map r.space)
  advance := fun c chunk => (segmentAt r.toUserRegion c.seg).bind fun seg =>
    if c.segoff + chunk = seg.length then
      (segmentAt r.toUserRegion (c.seg + 1)).bind fun next =>
        .ok ⟨c.seg + 1, 0, r.alignedVaddr (c.seg + 1) + next.firstPageOffset⟩
    else .ok ⟨c.seg, c.segoff + chunk, c.vaddr + chunk⟩

/-- The cursor at an offset, by the pages. -/
def initPages (r : UserRegion π pageShift) (offset : ℕ) : Except Fault OffsetCache :=
  match findSegment r.segments 0 0 offset with
  | none => .error .segment
  | some (i, segoff) => (segmentAt r i).map fun seg =>
      ⟨i, segoff, seg.pageIndex segoff, seg.pageOffset segoff⟩

/-- The cursor at an offset, by the address. -/
def initUser (r : CurrentRegion π pageShift) (offset : ℕ) : Except Fault UserCursor :=
  match findSegment r.segments 0 0 offset with
  | none => .error .segment
  | some (i, segoff) => (segmentAt r.toUserRegion i).map fun seg =>
      ⟨i, segoff, r.alignedVaddr i + seg.firstPageOffset + segoff⟩

/-! ## The code -/

/-- The loop of both ways: the chunks, and what remains.  `accepts` says how many chunks are taken
until one is not; the processor takes all. -/
def copyLoop (src : Side π γ) (dst : Side π δ) :
    (fuel : ℕ) → (accepts : Option ℕ) → (remaining : ℕ) → γ → δ →
      Except Fault (List (Move (π × ℕ)) × ℕ)
  | 0, _, _, _, _ => .error .stuck
  | fuel + 1, accepts, remaining, sc, dc =>
      (src.room sc).bind fun sroom =>
        (dst.room dc).bind fun droom =>
          let chunk := min (min (wrap 32 remaining) sroom) droom
          if accepts = some 0 then .ok ([], remaining)
          else
            (src.addrs sc chunk).bind fun read =>
              (dst.addrs dc chunk).bind fun written =>
                if remaining - chunk = 0 then .ok ([⟨read, written⟩], 0)
                else
                  (src.advance sc chunk).bind fun sc' =>
                    (dst.advance dc chunk).bind fun dc' =>
                      (copyLoop src dst fuel (accepts.map (· - 1)) (remaining - chunk) sc' dc').map
                        fun (rest, remaining') => (⟨read, written⟩ :: rest, remaining')

/-- `omx_memcpy_between_user_regions_to_current`: the copies of the processor, in their order. -/
def memcpyBetweenUserRegionsToCurrent (src : UserRegion π pageShift) (srcOffset : ℕ)
    (dst : CurrentRegion π pageShift) (dstOffset length : ℕ) :
    Except Fault (List (Move (π × ℕ))) :=
  (initPages src srcOffset).bind fun sc =>
    (initUser dst dstOffset).bind fun dc =>
      (copyLoop (pageSide src) (userSide dst) length none length sc dc).map Prod.fst

/-- The copies of one call: those that the DMA engine has in its queue, and those of the processor. -/
structure Copied (π : Type*) where
  queued : List (Move (π × ℕ))
  moves : List (Move (π × ℕ))

/-- `omx_dmaengine` and `omx_dma_sync_min`, whether a channel can be had, and how many chunks are
taken until one is not. -/
structure DmaEngine where
  enabled : Bool
  syncMin : ℕ
  chan : Bool
  accepts : Option ℕ

/-- What `omx_dma_copy_between_user_regions` queues, and what remains; without a channel that is
everything. -/
def dmaQueue (engine : DmaEngine) (src : UserRegion π pageShift) (srcOffset : ℕ)
    (dst : CurrentRegion π pageShift) (dstOffset length : ℕ) :
    Except Fault (List (Move (π × ℕ)) × ℕ) :=
  if engine.chan then
    (initPages src srcOffset).bind fun sc =>
      (initPages dst.toUserRegion dstOffset).bind fun dc =>
        copyLoop (pageSide src) (pageSide dst.toUserRegion) length engine.accepts length sc dc
  else .ok ([], length)

/-- `omx_dma_copy_between_user_regions`: what remains is left to the processor. -/
def dmaCopyBetweenUserRegions (engine : DmaEngine) (src : UserRegion π pageShift) (srcOffset : ℕ)
    (dst : CurrentRegion π pageShift) (dstOffset length : ℕ) : Except Fault (Copied π) :=
  (dmaQueue engine src srcOffset dst dstOffset length).bind fun (queued, remaining) =>
    if remaining = 0 then .ok ⟨queued, []⟩
    else
      (memcpyBetweenUserRegionsToCurrent src (srcOffset + (length - remaining)) dst
        (dstOffset + (length - remaining)) remaining).map fun moves => ⟨queued, moves⟩

/-- `omx_copy_between_user_regions`: `none` is `-EINVAL`. -/
def copyBetweenUserRegions (engine : DmaEngine) (src : UserRegion π pageShift) (srcOffset : ℕ)
    (dst : CurrentRegion π pageShift) (dstOffset length : ℕ) :
    Except Fault (Option (Copied π)) :=
  if length = 0 then .ok (some ⟨[], []⟩)
  else if totalLength src.segments < wrap 64 (srcOffset + length) ∨
      totalLength dst.segments < wrap 64 (dstOffset + length) then .ok none
  else if engine.enabled ∧ engine.syncMin ≤ length then
    (dmaCopyBetweenUserRegions engine src srcOffset dst dstOffset length).map some
  else
    (memcpyBetweenUserRegionsToCurrent src srcOffset dst dstOffset length).map fun moves =>
      some ⟨[], moves⟩

/-- An order in which the copies of a call may be made. -/
def Copied.Lands (c : Copied π) (order : List (Move (π × ℕ))) : Prop :=
  order.Perm (c.queued ++ c.moves) ∧ c.moves.Sublist order

/-! ## Cursors -/

/-- A side goes through the region: where a cursor is, the next chunk may have some room, and what
fits there is a piece of the region. -/
def Tracks (side : Side π γ) (segments : List (Segment π pageShift)) (at' : γ → ℕ → Prop) : Prop :=
  ∀ c p, at' c p → ∃ room, side.room c = .ok room ∧ 0 < room ∧ p + room ≤ totalLength segments ∧
    ∀ m, m ≤ room → side.addrs c m = .ok (slice segments p m) ∧
      (p + m < totalLength segments → ∃ c', side.advance c m = .ok c' ∧ at' c' (p + m))

theorem tracks_pageSide (r : UserRegion π pageShift) : Tracks (pageSide r) r.segments (At r) := by
  rintro c p ⟨seg, h⟩
  have hat : segmentAt r c.seg = .ok seg := by rw [segmentAt, h.seg_eq]
  have hpage : c.pageoff < 2 ^ pageShift := h.pageoff_eq ▸ Segment.pageOffset_lt
  have hseg := h.segoff_lt
  have hpos := h.pos_eq
  have hle := position_le h.seg_eq (Nat.le_refl _)
  obtain ⟨page, hpageAt, hbytes⟩ := h.page
  rw [position] at hpos hle
  refine ⟨min (2 ^ pageShift - c.pageoff) (seg.length - c.segoff), ?_, by omega, by omega,
    fun m hm => ⟨?_, fun hlt => ?_⟩⟩
  · simp only [pageSide, hat, Except.map]
  · simp only [pageSide, hat, Except.bind, hpageAt, Except.map]
    rw [hbytes m (by omega) (by omega)]
  · obtain ⟨c', hadvance, h'⟩ := h.advance 0 (by omega) (by omega) hlt
    have hlen := (List.getElem?_eq_some_iff.1 h.seg_eq).1
    rw [vectAdvance, if_neg (by omega : ¬ r.segments.length < c.seg + 1)] at hadvance
    refine ⟨c', ?_, h'⟩
    rw [← hadvance]
    simp only [pageSide, hat, Except.bind]

/-- The cursor of the process is at the position `p`. -/
def AtUser (r : CurrentRegion π pageShift) (c : UserCursor) (p : ℕ) : Prop :=
  ∃ seg, r.segments[c.seg]? = some seg ∧ c.segoff < seg.length ∧
    c.vaddr = r.alignedVaddr c.seg + seg.firstPageOffset + c.segoff ∧
    position r.segments c.seg c.segoff = p

/-- The addresses of a segment are those of its bytes. -/
theorem slice_user {r : CurrentRegion π pageShift} {seg : Segment π pageShift} {i k n : ℕ}
    (hseg : r.segments[i]? = some seg) (hk : k + n ≤ seg.length) :
    slice r.segments (position r.segments i k) n =
      (List.range' (r.alignedVaddr i + seg.firstPageOffset + k) n).map r.space := by
  rw [slice_eq hseg hk]
  refine List.ext_getElem? fun j => ?_
  rw [List.getElem?_map]
  rcases Nat.lt_or_ge j n with hj | hj
  · rw [List.getElem?_take_of_lt hj, List.getElem?_drop, r.mapped i seg (k + j) hseg (by omega),
      List.getElem?_range' hj, Nat.one_mul, Nat.add_assoc _ k j]
    rfl
  · rw [List.getElem?_eq_none (by rw [List.length_take]; omega),
      List.getElem?_eq_none (by rw [List.length_range']; exact hj)]
    rfl

theorem tracks_userSide (r : CurrentRegion π pageShift) :
    Tracks (userSide r) r.segments (AtUser r) := by
  rintro c p ⟨seg, hseg, hlt, hvaddr, hpos⟩
  have hat : segmentAt r.toUserRegion c.seg = .ok seg := by rw [segmentAt, hseg]
  have hle := position_le hseg (Nat.le_refl _)
  have hsucc := position_succ hseg
  have hp := hpos
  rw [position] at hp hle
  refine ⟨seg.length - c.segoff, ?_, by omega, by omega, fun m hm => ⟨?_, fun hmore => ?_⟩⟩
  · simp only [userSide, hat, Except.map]
  · simp only [userSide]
    rw [← hpos, slice_user hseg (by omega), hvaddr]
  · simp only [userSide, hat, Except.bind]
    split
    · next hend =>
        have hpos' : position r.segments (c.seg + 1) 0 = p + m := by
          rw [hsucc, position]
          omega
        have hnext : c.seg + 1 < r.segments.length := by
          refine Nat.lt_of_not_le fun hge => ?_
          have hall : position r.segments (c.seg + 1) 0 = totalLength r.segments :=
            start_of_length_le (by rwa [List.length_map])
          omega
        have hget : r.segments[c.seg + 1]? = some r.segments[c.seg + 1] :=
          List.getElem?_eq_getElem hnext
        simp only [segmentAt, hget]
        exact ⟨_, rfl, _, hget, r.length_pos _ (List.getElem_mem hnext), rfl, hpos'⟩
    · next hinside =>
        refine ⟨_, rfl, seg, hseg, by change c.segoff + m < _; omega, ?_, ?_⟩
        · change c.vaddr + m = r.alignedVaddr c.seg + seg.firstPageOffset + (c.segoff + m)
          omega
        · change position r.segments c.seg (c.segoff + m) = p + m
          rw [position]
          omega

theorem initPages_eq {r : UserRegion π pageShift} {offset : ℕ}
    (h : offset < totalLength r.segments) : ∃ c, initPages r offset = .ok c ∧ At r c offset := by
  obtain ⟨i, k, seg, hseg, hk, hpos, hfind⟩ := findSegment_eq h
  simp only [initPages, hfind, segmentAt, hseg, Except.map]
  exact ⟨_, rfl, seg, hseg, hk, rfl, rfl, hpos⟩

theorem initUser_eq {r : CurrentRegion π pageShift} {offset : ℕ}
    (h : offset < totalLength r.segments) : ∃ c, initUser r offset = .ok c ∧ AtUser r c offset := by
  obtain ⟨i, k, seg, hseg, hk, hpos, hfind⟩ := findSegment_eq h
  simp only [initUser, hfind, segmentAt, hseg, Except.map]
  exact ⟨_, rfl, seg, hseg, hk, rfl, hpos⟩

/-! ## The loop -/

/-- The loop takes a range of the source to one of the target.  It comes to the end if all its
chunks are taken. -/
theorem copyLoop_eq {src : Side π γ} {dst : Side π δ} {ssegs dsegs : List (Segment π pageShift)}
    {sat : γ → ℕ → Prop} {dat : δ → ℕ → Prop} (hsrc : Tracks src ssegs sat)
    (hdst : Tracks dst dsegs dat) {fuel n p q : ℕ} (accepts : Option ℕ) {sc : γ} {dc : δ}
    (hs : sat sc p) (hd : dat dc q) (hpos : 0 < n) (h32 : n < 2 ^ 32) (hfuel : n ≤ fuel)
    (hp : p + n ≤ totalLength ssegs) (hq : q + n ≤ totalLength dsegs) :
    ∃ ms k, k ≤ n ∧ copyLoop src dst fuel accepts n sc dc = .ok (ms, n - k) ∧
      Copies ms (slice ssegs p k) (slice dsegs q k) ∧ (accepts = none → k = n) := by
  induction fuel generalizing n p q accepts sc dc with
  | zero => omega
  | succ fuel ih =>
      obtain ⟨sroom, hsroom, hsroom_pos, hsle, hsnext⟩ := hsrc sc p hs
      obtain ⟨droom, hdroom, hdroom_pos, hdle, hdnext⟩ := hdst dc q hd
      rw [copyLoop, hsroom, hdroom]
      simp only [Except.bind]
      by_cases haccepts : accepts = some 0
      · rw [if_pos haccepts]
        refine ⟨[], 0, Nat.zero_le n, rfl, ?_, fun hnone => nomatch hnone.symm.trans haccepts⟩
        rw [slice_zero, slice_zero]
        exact .nil
      · rw [if_neg haccepts, wrap_of_lt h32]
        generalize hchunk : min (min n sroom) droom = chunk
        obtain ⟨hread, hsadvance⟩ := hsnext chunk (by omega)
        obtain ⟨hwritten, hdadvance⟩ := hdnext chunk (by omega)
        have hlen : (slice ssegs p chunk).length = (slice dsegs q chunk).length := by
          rw [length_slice (by omega), length_slice (by omega)]
        rw [hread, hwritten]
        dsimp only
        split
        · next hdone =>
            obtain rfl : chunk = n := by omega
            refine ⟨_, chunk, le_rfl, by rw [Nat.sub_self], ?_, fun _ => rfl⟩
            have hone := Copies.cons (m := ⟨slice ssegs p chunk, slice dsegs q chunk⟩) hlen .nil
            rwa [List.append_nil, List.append_nil] at hone
        · next hmore =>
            obtain ⟨sc', hsc', hs'⟩ := hsadvance (by omega)
            obtain ⟨dc', hdc', hd'⟩ := hdadvance (by omega)
            obtain ⟨ms, k, hk, hloop, hcopies, hall⟩ := @ih (n - chunk) (p + chunk) (q + chunk)
              (accepts.map (· - 1)) sc' dc' hs' hd' (by omega) (by omega) (by omega) (by omega)
              (by omega)
            rw [hsc', hdc']
            dsimp only
            rw [hloop]
            refine ⟨⟨slice ssegs p chunk, slice dsegs q chunk⟩ :: ms, chunk + k, by omega, ?_, ?_,
              fun hnone => ?_⟩
            · rw [Nat.sub_add_eq]
              rfl
            · rw [slice_add, slice_add]
              exact Copies.cons (m := ⟨slice ssegs p chunk, slice dsegs q chunk⟩) hlen hcopies
            · have hk' : k = n - chunk := hall (by rw [hnone]; rfl)
              omega

variable {src : UserRegion π pageShift} {dst : CurrentRegion π pageShift}
  {srcOffset dstOffset length : ℕ}

/-- The processor takes the whole range. -/
theorem memcpyBetweenUserRegionsToCurrent_eq (hpos : 0 < length) (h32 : length < 2 ^ 32)
    (hsrc : srcOffset + length ≤ totalLength src.segments)
    (hdst : dstOffset + length ≤ totalLength dst.segments) :
    ∃ moves, memcpyBetweenUserRegionsToCurrent src srcOffset dst dstOffset length = .ok moves ∧
      Copies moves (slice src.segments srcOffset length) (slice dst.segments dstOffset length) := by
  obtain ⟨sc, hsc, hs⟩ := initPages_eq (by omega : srcOffset < totalLength src.segments)
  obtain ⟨dc, hdc, hd⟩ := initUser_eq (by omega : dstOffset < totalLength dst.segments)
  obtain ⟨ms, k, -, hloop, hcopies, hall⟩ := copyLoop_eq (tracks_pageSide src) (tracks_userSide dst)
    none hs hd hpos h32 le_rfl hsrc hdst
  obtain rfl := hall rfl
  refine ⟨ms, ?_, hcopies⟩
  rw [memcpyBetweenUserRegionsToCurrent, hsc, hdc]
  simp only [Except.bind, hloop, Except.map]

/-- The DMA engine takes the range as far as it comes. -/
theorem dmaQueue_eq (engine : DmaEngine) (hpos : 0 < length) (h32 : length < 2 ^ 32)
    (hsrc : srcOffset + length ≤ totalLength src.segments)
    (hdst : dstOffset + length ≤ totalLength dst.segments) :
    ∃ ms k, k ≤ length ∧
      dmaQueue engine src srcOffset dst dstOffset length = .ok (ms, length - k) ∧
      Copies ms (slice src.segments srcOffset k) (slice dst.segments dstOffset k) := by
  rw [dmaQueue]
  split
  · obtain ⟨sc, hsc, hs⟩ := initPages_eq (by omega : srcOffset < totalLength src.segments)
    obtain ⟨dc, hdc, hd⟩ := initPages_eq (by omega : dstOffset < totalLength dst.segments)
    obtain ⟨ms, k, hk, hloop, hcopies, -⟩ := copyLoop_eq (tracks_pageSide src)
      (tracks_pageSide dst.toUserRegion) engine.accepts hs hd hpos h32 le_rfl hsrc hdst
    refine ⟨ms, k, hk, ?_, hcopies⟩
    rw [hsc, hdc]
    exact hloop
  · refine ⟨[], 0, Nat.zero_le _, rfl, ?_⟩
    rw [slice_zero, slice_zero]
    exact .nil

/-- The DMA engine and the processor together take the whole range. -/
theorem dmaCopyBetweenUserRegions_eq (engine : DmaEngine) (hpos : 0 < length)
    (h32 : length < 2 ^ 32) (hsrc : srcOffset + length ≤ totalLength src.segments)
    (hdst : dstOffset + length ≤ totalLength dst.segments) :
    ∃ c, dmaCopyBetweenUserRegions engine src srcOffset dst dstOffset length = .ok c ∧
      Copies (c.queued ++ c.moves) (slice src.segments srcOffset length)
        (slice dst.segments dstOffset length) := by
  obtain ⟨ms, k, hk, hqueued, hcopies⟩ := dmaQueue_eq engine hpos h32 hsrc hdst
  rw [dmaCopyBetweenUserRegions, hqueued]
  simp only [Except.bind]
  rcases Nat.eq_zero_or_pos (length - k) with hdone | hleft
  · obtain rfl : k = length := by omega
    rw [if_pos hdone]
    exact ⟨_, rfl, by rwa [List.append_nil]⟩
  · -- the processor goes on where the engine stopped
    have hsub : length - (length - k) = k := by omega
    have hsum : k + (length - k) = length := by omega
    obtain ⟨moves, hmoves, hrest⟩ := @memcpyBetweenUserRegionsToCurrent_eq _ _ src dst
      (srcOffset + k) (dstOffset + k) (length - k) (by omega) (by omega) (by omega) (by omega)
    rw [if_neg hleft.ne', hsub, hmoves]
    refine ⟨_, rfl, ?_⟩
    have hwhole := hcopies.append hrest
    rwa [← slice_add, ← slice_add, hsum] at hwhole

/-! ## Both ways -/

/-- However many chunks the DMA engine takes, and in whatever order they are made, a copy leaves the
memory as the copy without it does, if the bytes of the target are different and none of them is
read. -/
theorem copyBetweenUserRegions_eq [DecidableEq π] (engine : DmaEngine) (src : UserRegion π pageShift)
    (srcOffset : ℕ) (dst : CurrentRegion π pageShift) (dstOffset length : ℕ) (mem : Memory π β)
    (hsrc : srcOffset + length ≤ totalLength src.segments)
    (hdst : dstOffset + length ≤ totalLength dst.segments) (h32 : length < 2 ^ 32)
    (hnodup : (slice dst.segments dstOffset length).Nodup)
    (hdisj : ∀ a ∈ slice dst.segments dstOffset length, a ∉ slice src.segments srcOffset length) :
    ∃ c c', copyBetweenUserRegions engine src srcOffset dst dstOffset length = .ok (some c) ∧
      copyBetweenUserRegions { engine with enabled := false } src srcOffset dst dstOffset length =
        .ok (some c') ∧
      ∀ order order', c.Lands order → c'.Lands order' →
        runMoves mem order = runMoves mem order' ∧
          runMoves mem order = writeAll mem (slice dst.segments dstOffset length)
            ((slice src.segments srcOffset length).map mem) := by
  have hcopies : ∀ engine, ∃ c : Copied π,
      copyBetweenUserRegions engine src srcOffset dst dstOffset length = .ok (some c) ∧
        Copies (c.queued ++ c.moves) (slice src.segments srcOffset length)
          (slice dst.segments dstOffset length) := by
    intro engine
    have hs64 := src.totalLength_lt
    have hd64 := dst.totalLength_lt
    rw [copyBetweenUserRegions]
    rcases Nat.eq_zero_or_pos length with rfl | hpos
    · refine ⟨⟨[], []⟩, if_pos rfl, ?_⟩
      rw [slice_zero, slice_zero]
      exact .nil
    · rw [if_neg hpos.ne', wrap_of_lt (by omega), wrap_of_lt (by omega), if_neg (by omega)]
      split
      · obtain ⟨c, hdma, hcopies⟩ := dmaCopyBetweenUserRegions_eq engine hpos h32 hsrc hdst
        exact ⟨c, by rw [hdma]; rfl, hcopies⟩
      · obtain ⟨moves, hmemcpy, hcopies⟩ :=
          memcpyBetweenUserRegionsToCurrent_eq hpos h32 hsrc hdst
        exact ⟨⟨[], moves⟩, by rw [hmemcpy]; rfl, hcopies⟩
  obtain ⟨c, hc, hcopies_c⟩ := hcopies engine
  obtain ⟨c', hc', hcopies_c'⟩ := hcopies { engine with enabled := false }
  refine ⟨c, c', hc, hc', fun order order' hlands hlands' => ?_⟩
  rw [runMoves_eq hcopies_c hnodup hdisj hlands.1, runMoves_eq hcopies_c' hnodup hdisj hlands'.1]
  exact ⟨rfl, rfl⟩

/-! ## Examples -/

/-- Pages one after the other. -/
def flatSpace (vaddr : ℕ) : ℕ × ℕ := (vaddr / 2 ^ 12, vaddr % 2 ^ 12)

/-- The first 4 bytes of page 0. -/
def fourBytes : UserRegion ℕ 12 where
  segments := [⟨0, 4, [0], show 4 ≤ 1 * 2 ^ 12 by decide⟩]
  firstPageOffset_lt := by decide
  length_pos := by decide
  totalLength_lt := by decide

/-- The first 4 bytes of page 1. -/
def fourOthers : CurrentRegion ℕ 12 where
  segments := [⟨0, 4, [1], show 4 ≤ 1 * 2 ^ 12 by decide⟩]
  firstPageOffset_lt := by decide
  length_pos := by decide
  totalLength_lt := by decide
  alignedVaddr := fun _ => 2 ^ 12
  space := flatSpace
  mapped := fun i seg k hseg hk => by
    rw [Segment.getElem?_bytes hk]
    match i with
    | 0 =>
        obtain rfl := Option.some.inj hseg
        interval_cases k <;> rfl
    | i + 1 => exact nomatch hseg

/-- Two segments of 2 bytes each, from the third byte of page 0 on. -/
def twoAndTwo : CurrentRegion ℕ 12 where
  segments := [⟨2, 2, [0], by decide⟩, ⟨4, 2, [0], by decide⟩]
  firstPageOffset_lt := by decide
  length_pos := by decide
  totalLength_lt := by decide
  alignedVaddr := fun _ => 0
  space := flatSpace
  mapped := fun i seg k hseg hk => by
    rw [Segment.getElem?_bytes hk]
    match i with
    | 0 =>
        obtain rfl := Option.some.inj hseg
        interval_cases k <;> rfl
    | 1 =>
        obtain rfl := Option.some.inj hseg
        interval_cases k <;> rfl
    | i + 2 => exact nomatch hseg

/-- A DMA engine that takes one chunk. -/
def oneChunk : DmaEngine := { enabled := true, syncMin := 0, chan := true, accepts := some 1 }

/-- The bytes of a page are their offsets in it, and two of the four that are copied are queued. -/
theorem copyBetweenUserRegions_eq_fourBytes :
    ∃ c c', copyBetweenUserRegions oneChunk fourBytes 0 fourOthers 0 4 = .ok (some c) ∧
      copyBetweenUserRegions { oneChunk with enabled := false } fourBytes 0 fourOthers 0 4 =
        .ok (some c') ∧
      ∀ order order', c.Lands order → c'.Lands order' →
        runMoves Prod.snd order = runMoves Prod.snd order' ∧
          runMoves Prod.snd order = writeAll Prod.snd (slice fourOthers.segments 0 4)
            ((slice fourBytes.segments 0 4).map Prod.snd) :=
  copyBetweenUserRegions_eq oneChunk fourBytes 0 fourOthers 0 4 Prod.snd (by decide) (by decide)
    (by decide) (by decide +kernel) (by decide +kernel)

/-- The copies of the first and of the second chunk to the two segments. -/
def firstMove : Move (ℕ × ℕ) := ⟨[(0, 0), (0, 1)], [(0, 2), (0, 3)]⟩

def secondMove : Move (ℕ × ℕ) := ⟨[(0, 2), (0, 3)], [(0, 4), (0, 5)]⟩

/-- Where the target lies over the source, a chunk that is queued is made after the one of the
processor that was to follow it, and the target is left different. -/
theorem copyBetweenUserRegions_overlap :
    ∃ c c' : Copied ℕ,
      copyBetweenUserRegions oneChunk fourBytes 0 twoAndTwo 0 4 = .ok (some c) ∧
      copyBetweenUserRegions { oneChunk with enabled := false } fourBytes 0 twoAndTwo 0 4 =
        .ok (some c') ∧
      ∃ order order' a, c.Lands order ∧ c'.Lands order' ∧ a ∈ slice twoAndTwo.segments 0 4 ∧
        runMoves Prod.snd order a ≠ runMoves Prod.snd order' a := by
  refine ⟨⟨[firstMove], [secondMove]⟩, ⟨[], [firstMove, secondMove]⟩, rfl, rfl,
    [secondMove, firstMove], [firstMove, secondMove], (0, 4), ⟨?_, ?_⟩, ⟨?_, ?_⟩, ?_, ?_⟩
  · exact List.Perm.swap ..
  · exact List.sublist_append_left [secondMove] [firstMove]
  · exact List.Perm.refl _
  · exact List.Sublist.refl _
  · decide +kernel
  · decide +kernel

end Xen2mx.Region
