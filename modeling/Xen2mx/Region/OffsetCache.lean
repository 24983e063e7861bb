/-
# `Xen2mx.Region.OffsetCache` — transfers that go on where the last one ended

A reply is sent from a region piece by piece, and an offset cache keeps where the last piece ended:
a segment and an offset in it, a page of the segment and an offset in that.  A piece is appended to
the packet page by page, or copied to it; what cannot be appended, for want of fragments, is copied.

    one segment        the contiguous callbacks    pages only
    more segments      the vectorial callbacks     a new segment is looked at as soon as one ends

The vectorial callbacks test whether the new segment is past the array, but let one more segment
pass.  What ends with the region looks at the segment after the last.

**Proved here.**

    every piece is that of a direct walk, and no segment past the last is looked at
        ⟺  there is one segment, or the transfer ends before the region     (`offsetCache_iff`)
    two segments are not transferred to the end                             (`offsetCache_past`)
-/
import Xen2mx.Lib.Word
import Xen2mx.Region.Segment

namespace Xen2mx.Region

open Pages Word

variable {π : Type*} {pageShift : ℕ}

/-! ## The cache -/

/-- Where a callback goes wrong: it looks at a segment past the last, or at a page past the last of
its segment, a `BUG_ON` fires, or the loop does not end. -/
inductive Fault where
  | segment
  | page
  | bugOn
  | stuck
  deriving DecidableEq, Repr

/-- `struct omx_user_region_offset_cache`: `seg` is the index of the segment, `page` that of the page
in it. -/
structure OffsetCache where
  seg : ℕ
  segoff : ℕ
  page : ℕ
  pageoff : ℕ
  deriving DecidableEq, Repr

/-- The segment of the region, if it is one. -/
def segmentAt (r : UserRegion π pageShift) (i : ℕ) : Except Fault (Segment π pageShift) :=
  match r.segments[i]? with
  | some seg => .ok seg
  | none => .error .segment

/-- The page of the segment, if it has one. -/
def pageAt (seg : Segment π pageShift) (i : ℕ) : Except Fault π :=
  match seg.pages[i]? with
  | some page => .ok page
  | none => .error .page

/-- `omx_user_region_offset_cache_init`: `none` is an error that is returned. -/
def offsetCacheInit (r : UserRegion π pageShift) (offset length : ℕ) :
    Except Fault (Option OffsetCache) :=
  if r.segments.length = 0 ∨ totalLength r.segments < wrap 64 (offset + length) then .ok none
  else
    let found :=
      if 1 < r.segments.length then findSegment r.segments 0 0 offset else some (0, offset)
    match found with
    | none => .error .segment
    | some (i, segoff) =>
        (segmentAt r i).bind fun seg =>
          .ok (some ⟨i, segoff, seg.pageIndex segoff, seg.pageOffset segoff⟩)

/-! ## Contiguous callbacks -/

/-- The chunk that is taken next: what remains, in 32 bits, up to the end of the page. -/
def pageChunk (pageShift : ℕ) (c : OffsetCache) (remaining : ℕ) : ℕ :=
  min (wrap 32 remaining) (2 ^ pageShift - c.pageoff)

/-- Past a chunk, in the one segment. -/
def contigAdvance (pageShift : ℕ) (c : OffsetCache) (chunk : ℕ) : OffsetCache :=
  if c.pageoff + chunk = 2 ^ pageShift then { c with page := c.page + 1, pageoff := 0 }
  else { c with pageoff := c.pageoff + chunk }

/-- The loop of the contiguous callbacks: the chunks, and the cache afterwards.  `frags` is how many
fragments may still be added, if they are counted; `none` is an error that is returned. -/
def contigLoop (seg : Segment π pageShift) :
    (fuel : ℕ) → (frags : Option ℕ) → (remaining : ℕ) → OffsetCache →
      Except Fault (Option (List (Piece π) × OffsetCache))
  | _, _, 0, c => .ok (some ([], c))
  | 0, _, _ + 1, _ => .error .stuck
  | fuel + 1, frags, remaining + 1, c =>
      if frags = some 0 then .ok none
      else
        let chunk := pageChunk pageShift c (remaining + 1)
        (pageAt seg c.page).bind fun page =>
          (contigLoop seg fuel (frags.map (· - 1)) (remaining + 1 - chunk)
            (contigAdvance pageShift c chunk)).bind fun rest =>
            .ok (rest.map fun (pieces, c') => (⟨page, c.pageoff, chunk⟩ :: pieces, c'))

/-! ## Vectorial callbacks -/

/-- The chunk that is taken next: it does not go over the end of the segment either. -/
def vectChunk (seg : Segment π pageShift) (c : OffsetCache) (remaining : ℕ) : ℕ :=
  min (pageChunk pageShift c remaining) (seg.length - c.segoff)

/-- Past a chunk of the segment `seg`; `remaining` is what remains then. -/
def vectAdvance (r : UserRegion π pageShift) (seg : Segment π pageShift) (c : OffsetCache)
    (chunk remaining : ℕ) : Except Fault OffsetCache :=
  if c.segoff + chunk = seg.length then
    -- the test for the end of the array lets the segment after the last pass
    if r.segments.length < c.seg + 1 then
      if remaining ≠ 0 then .error .bugOn else .ok { c with seg := c.seg + 1, segoff := 0 }
    else (segmentAt r (c.seg + 1)).bind fun next => .ok ⟨c.seg + 1, 0, 0, next.firstPageOffset⟩
  else if c.pageoff + chunk = 2 ^ pageShift then .ok ⟨c.seg, c.segoff + chunk, c.page + 1, 0⟩
  else .ok ⟨c.seg, c.segoff + chunk, c.page, c.pageoff + chunk⟩

/-- The loop of the vectorial callbacks. -/
def vectLoop (r : UserRegion π pageShift) :
    (fuel : ℕ) → (frags : Option ℕ) → (remaining : ℕ) → OffsetCache →
      Except Fault (Option (List (Piece π) × OffsetCache))
  | _, _, 0, c => .ok (some ([], c))
  | 0, _, _ + 1, _ => .error .stuck
  | fuel + 1, frags, remaining + 1, c =>
      if frags = some 0 then .ok none
      else
        (segmentAt r c.seg).bind fun seg =>
          let chunk := vectChunk seg c (remaining + 1)
          (pageAt seg c.page).bind fun page =>
            (vectAdvance r seg c chunk (remaining + 1 - chunk)).bind fun c' =>
              (vectLoop r fuel (frags.map (· - 1)) (remaining + 1 - chunk) c').bind fun rest =>
                .ok (rest.map fun (pieces, c'') => (⟨page, c.pageoff, chunk⟩ :: pieces, c''))

/-! ## The callbacks of a cache -/

/-- The loop of the callbacks that `omx_user_region_offset_cache_init` gives the cache; as many
rounds are enough as there are bytes. -/
def callback (r : UserRegion π pageShift) (frags : Option ℕ) (c : OffsetCache) (length : ℕ) :
    Except Fault (Option (List (Piece π) × OffsetCache)) :=
  (segmentAt r c.seg).bind fun seg =>
    if 1 < r.segments.length then vectLoop r length frags length c
    else contigLoop seg length frags length c

/-- `append_pages_to_skb`, with at most `omxSkbFrags` fragments. -/
def appendPagesToSkb (r : UserRegion π pageShift) (omxSkbFrags : ℕ) (c : OffsetCache)
    (length : ℕ) : Except Fault (Option (List (Piece π) × OffsetCache)) :=
  callback r (some omxSkbFrags) c length

/-- `copy_pages_to_buf`, which returns nothing. -/
def copyPagesToBuf (r : UserRegion π pageShift) (c : OffsetCache) (length : ℕ) :
    Except Fault (Option (List (Piece π) × OffsetCache)) :=
  callback r none c length

/-- The data of one reply, as `omx_recv_pull_request` takes it: the pages are appended, if `paged`
says so, and copied if that is not possible. -/
def transfer (r : UserRegion π pageShift) (omxSkbFrags : ℕ) (c : OffsetCache) (paged : Bool)
    (length : ℕ) : Except Fault (Option (List (Piece π) × OffsetCache)) :=
  if paged then
    (appendPagesToSkb r omxSkbFrags c length).bind fun
      | some res => .ok (some res)
      | none => copyPagesToBuf r c length
  else copyPagesToBuf r c length

/-- The replies one after the other, each with its length, and what they take. -/
def transfers (r : UserRegion π pageShift) (omxSkbFrags : ℕ) :
    OffsetCache → List (Bool × ℕ) → Except Fault (Option (List (List (Piece π))))
  | _, [] => .ok (some [])
  | c, (paged, length) :: calls =>
      (transfer r omxSkbFrags c paged length).bind fun
        | none => .ok none
        | some (pieces, c') =>
            (transfers r omxSkbFrags c' calls).bind fun rest => .ok (rest.map (pieces :: ·))

/-- The direct walks from an offset on. -/
def slices (segments : List (Segment π pageShift)) : (offset : ℕ) → List ℕ → List (List (π × ℕ))
  | _, [] => []
  | offset, n :: ns => slice segments offset n :: slices segments (offset + n) ns

/-- Each reply takes the bytes of a direct walk, and nothing goes wrong on the way. -/
def Selects (r : UserRegion π pageShift) (omxSkbFrags offset length : ℕ) (calls : List (Bool × ℕ)) :
    Prop :=
  (r.segments = [] ∧ offsetCacheInit r offset length = .ok none) ∨
    ∃ c results, offsetCacheInit r offset length = .ok (some c) ∧
      transfers r omxSkbFrags c calls = .ok (some results) ∧
      results.map (fun pieces => pieces.flatMap Piece.bytes) = slices r.segments offset (calls.map Prod.snd)

/-! ## Vectorial transfers -/

variable {r : UserRegion π pageShift} {c : OffsetCache} {p n : ℕ}

/-- The cache is at the position `p` of the region, in the segment `seg`. -/
structure AtSegment (r : UserRegion π pageShift) (c : OffsetCache) (p : ℕ)
    (seg : Segment π pageShift) : Prop where
  seg_eq : r.segments[c.seg]? = some seg
  segoff_lt : c.segoff < seg.length
  page_eq : c.page = seg.pageIndex c.segoff
  pageoff_eq : c.pageoff = seg.pageOffset c.segoff
  pos_eq : position r.segments c.seg c.segoff = p

/-- The cache is at the position `p`, in some segment. -/
def At (r : UserRegion π pageShift) (c : OffsetCache) (p : ℕ) : Prop := ∃ seg, AtSegment r c p seg

theorem At.lt (h : At r c p) : p < totalLength r.segments := by
  obtain ⟨seg, h⟩ := h
  have hle := position_le (k := c.segoff + 1) h.seg_eq h.segoff_lt
  have hpos := h.pos_eq
  rw [position] at hle hpos
  omega

/-- The page is there, and what fits in it and in the segment is a piece of the region. -/
theorem AtSegment.page {seg : Segment π pageShift} (h : AtSegment r c p seg) :
    ∃ page, pageAt seg c.page = .ok page ∧
      ∀ m, c.segoff + m ≤ seg.length → c.pageoff + m ≤ 2 ^ pageShift →
        Piece.bytes ⟨page, c.pageoff, m⟩ = slice r.segments p m := by
  obtain ⟨page, hat⟩ := Segment.exists_page h.segoff_lt
  refine ⟨page, by rw [pageAt, h.page_eq, hat], fun m hfit hend => ?_⟩
  rw [← h.pos_eq, slice_piece h.seg_eq hat (h.pageoff_eq ▸ hend) hfit, h.pageoff_eq]

/-- The next chunk is a piece of the region. -/
theorem AtSegment.piece {seg : Segment π pageShift} (h : AtSegment r c p seg) (hn : 0 < n)
    (h32 : n < 2 ^ 32) :
    0 < vectChunk seg c n ∧ vectChunk seg c n ≤ n ∧ c.segoff + vectChunk seg c n ≤ seg.length ∧
      c.pageoff + vectChunk seg c n ≤ 2 ^ pageShift ∧
      ∃ page, pageAt seg c.page = .ok page ∧
        Piece.bytes ⟨page, c.pageoff, vectChunk seg c n⟩ = slice r.segments p (vectChunk seg c n) := by
  have hpage : c.pageoff < 2 ^ pageShift := h.pageoff_eq ▸ Segment.pageOffset_lt
  have hseg := h.segoff_lt
  have hchunk : vectChunk seg c n =
      min (min n (2 ^ pageShift - c.pageoff)) (seg.length - c.segoff) := by
    rw [vectChunk, pageChunk, wrap_of_lt h32]
  have hfit : c.segoff + vectChunk seg c n ≤ seg.length := by rw [hchunk]; omega
  have hend : c.pageoff + vectChunk seg c n ≤ 2 ^ pageShift := by rw [hchunk]; omega
  obtain ⟨page, hpageAt, hbytes⟩ := h.page
  exact ⟨by rw [hchunk]; omega, by rw [hchunk]; omega, hfit, hend, page, hpageAt,
    hbytes _ hfit hend⟩

/-- Past a chunk that ends before the region, the cache is where the next one starts. -/
theorem AtSegment.advance {seg : Segment π pageShift} {chunk : ℕ} (remaining : ℕ)
    (h : AtSegment r c p seg) (hfit : c.segoff + chunk ≤ seg.length)
    (hend : c.pageoff + chunk ≤ 2 ^ pageShift) (hlt : p + chunk < totalLength r.segments) :
    ∃ c', vectAdvance r seg c chunk remaining = .ok c' ∧ At r c' (p + chunk) := by
  have hpos := h.pos_eq
  rw [vectAdvance]
  split
  · next hlast =>
      -- a segment follows, as this one does not end with the region
      have hsucc := position_succ h.seg_eq
      have hnext : c.seg + 1 < r.segments.length := by
        refine Nat.lt_of_not_le fun hge => ?_
        have hall : position r.segments (c.seg + 1) 0 = totalLength r.segments :=
          start_of_length_le (by rwa [List.length_map])
        rw [hall, ← hlast, position] at hsucc
        rw [position] at hpos
        omega
      have hat : r.segments[c.seg + 1]? = some r.segments[c.seg + 1] := List.getElem?_eq_getElem hnext
      have hmem : r.segments[c.seg + 1] ∈ r.segments := List.getElem_mem hnext
      have hoff := r.firstPageOffset_lt _ hmem
      rw [if_neg (by omega), segmentAt, hat]
      refine ⟨_, rfl, r.segments[c.seg + 1], hat, r.length_pos _ hmem, ?_, ?_, ?_⟩
      · rw [Segment.pageIndex, Nat.zero_add, Nat.div_eq_of_lt hoff]
      · rw [Segment.pageOffset, Nat.zero_add, Nat.mod_eq_of_lt hoff]
      · rw [hsucc, ← hlast, ← hpos, position, position, Nat.add_assoc]
  · next hinside =>
      have hlt' : c.segoff + chunk < seg.length := by omega
      have hpos' : position r.segments c.seg (c.segoff + chunk) = p + chunk := by
        rw [← hpos, position, position, Nat.add_assoc]
      split
      · next hpage =>
          obtain ⟨hindex, hoffset⟩ := Segment.next_page (h.pageoff_eq ▸ hpage)
          exact ⟨_, rfl, seg, h.seg_eq, hlt', by rw [hindex, h.page_eq], hoffset.symm, hpos'⟩
      · next hpage =>
          have hsame : seg.pageOffset c.segoff + chunk < 2 ^ pageShift := by
            rw [← h.pageoff_eq]
            omega
          obtain ⟨hindex, hoffset⟩ := Segment.same_page hsame
          exact ⟨_, rfl, seg, h.seg_eq, hlt', by rw [hindex, h.page_eq],
            by rw [hoffset, h.pageoff_eq], hpos'⟩

/-- Past a chunk that ends with the region, the segment after the last is looked at. -/
theorem AtSegment.advance_past {seg : Segment π pageShift} {chunk : ℕ} (remaining : ℕ)
    (h : AtSegment r c p seg) (hfit : c.segoff + chunk ≤ seg.length)
    (heq : p + chunk = totalLength r.segments) :
    vectAdvance r seg c chunk remaining = .error .segment := by
  have hp := h.pos_eq
  rw [position] at hp
  have hlast : c.segoff + chunk = seg.length := by
    have hle := position_le h.seg_eq (Nat.le_refl _)
    rw [position] at hle
    omega
  have hlen := (List.getElem?_eq_some_iff.1 h.seg_eq).1
  have hsucc := position_succ h.seg_eq
  have hnone : r.segments[c.seg + 1]? = none := by
    refine Option.eq_none_iff_forall_ne_some.2 fun next hnext => ?_
    have hle := position_le hnext (Nat.le_refl _)
    have hlen := r.length_pos next (List.mem_of_getElem? hnext)
    rw [position] at hle hsucc
    rw [position] at hsucc
    omega
  rw [vectAdvance, if_pos hlast, if_neg (by omega), segmentAt, hnone]
  rfl

/-- A round of the loop. -/
theorem vectLoop_chunk {seg : Segment π pageShift} {page : π} {chunk : ℕ} {frags : Option ℕ}
    {c' : OffsetCache} (fuel : ℕ) (hseg : r.segments[c.seg]? = some seg) (hfrags : frags ≠ some 0)
    (hchunk : vectChunk seg c (n + 1) = chunk) (hpage : pageAt seg c.page = .ok page)
    (hadvance : vectAdvance r seg c chunk (n + 1 - chunk) = .ok c') :
    vectLoop r (fuel + 1) frags (n + 1) c =
      (vectLoop r fuel (frags.map (· - 1)) (n + 1 - chunk) c').bind fun rest =>
        .ok (rest.map fun (pieces, c'') => (⟨page, c.pageoff, chunk⟩ :: pieces, c'')) := by
  have hat : segmentAt r c.seg = .ok seg := by rw [segmentAt, hseg]
  rw [vectLoop, if_neg hfrags, hat]
  simp only [Except.bind, hchunk, hpage, hadvance]

/-- One more piece before the ones that a loop takes, or gives up on. -/
theorem round_eq {I : OffsetCache → ℕ → Prop} {frags : Option ℕ} {piece : Piece π} {chunk : ℕ}
    {rest : Except Fault (Option (List (Piece π) × OffsetCache))} (hle : chunk ≤ n)
    (hbytes : piece.bytes = slice r.segments p chunk)
    (h : (frags.map (· - 1) ≠ none ∧ rest = .ok none) ∨
      ∃ pieces c', rest = .ok (some (pieces, c')) ∧
        pieces.flatMap Piece.bytes = slice r.segments (p + chunk) (n - chunk) ∧
        I c' (p + chunk + (n - chunk))) :
    (frags ≠ none ∧ (rest.bind fun rest => .ok (rest.map fun (pieces, c') =>
        (piece :: pieces, c'))) = .ok none) ∨
      ∃ pieces c', (rest.bind fun rest => .ok (rest.map fun (pieces, c') =>
          (piece :: pieces, c'))) = .ok (some (pieces, c')) ∧
        pieces.flatMap Piece.bytes = slice r.segments p n ∧ I c' (p + n) := by
  have hsum : chunk + (n - chunk) = n := Nat.add_sub_cancel' hle
  rcases h with ⟨hne, hnone⟩ | ⟨pieces, c', hrest, hwalk, hI⟩
  · refine .inl ⟨fun heq => hne (by rw [heq]; rfl), ?_⟩
    rw [hnone]
    rfl
  · refine .inr ⟨piece :: pieces, c', ?_, ?_, ?_⟩
    · rw [hrest]
      rfl
    · rw [List.flatMap_cons, hbytes, hwalk, ← slice_add, hsum]
    · rwa [Nat.add_assoc, hsum] at hI

/-- A vectorial loop that ends before the region takes a direct walk, unless the fragments are
counted and do not last. -/
theorem vectLoop_eq {fuel : ℕ} {frags : Option ℕ} (h : At r c p) (h32 : n < 2 ^ 32)
    (hfuel : n ≤ fuel) (hlt : p + n < totalLength r.segments) :
    (frags ≠ none ∧ vectLoop r fuel frags n c = .ok none) ∨
      ∃ pieces c', vectLoop r fuel frags n c = .ok (some (pieces, c')) ∧
        pieces.flatMap Piece.bytes = slice r.segments p n ∧ At r c' (p + n) := by
  induction fuel generalizing n c p frags with
  | zero =>
      obtain rfl : n = 0 := Nat.le_zero.1 hfuel
      exact .inr ⟨[], c, by rw [vectLoop], (slice_zero ..).symm, h⟩
  | succ fuel ih =>
      cases n with
      | zero => exact .inr ⟨[], c, by rw [vectLoop], (slice_zero ..).symm, h⟩
      | succ n =>
          by_cases hfrags : frags = some 0
          · exact .inl ⟨by rw [hfrags]; exact nofun, by rw [vectLoop, if_pos hfrags]⟩
          · obtain ⟨seg, hseg⟩ := h
            obtain ⟨hpos, hle, hfit, hend, page, hpage, hbytes⟩ := hseg.piece (Nat.succ_pos n) h32
            generalize hchunk : vectChunk seg c (n + 1) = chunk at *
            obtain ⟨c', hadvance, h'⟩ := hseg.advance (n + 1 - chunk) hfit hend (by omega)
            have hloop := vectLoop_chunk fuel hseg.seg_eq hfrags hchunk hpage hadvance
            have hrest := @ih c' (p + chunk) (n + 1 - chunk) (frags.map (· - 1)) h' (by omega)
              (by omega) (by omega)
            rw [hloop]
            exact round_eq hle hbytes hrest

/-- A vectorial loop that ends with the region looks at the segment after the last. -/
theorem vectLoop_past {fuel : ℕ} (frags : Option ℕ) (h : At r c p) (h32 : n < 2 ^ 32)
    (hfuel : n ≤ fuel) (hpos : 0 < n) (heq : p + n = totalLength r.segments) :
    (frags ≠ none ∧ vectLoop r fuel frags n c = .ok none) ∨
      vectLoop r fuel frags n c = .error .segment := by
  induction fuel generalizing n c p frags with
  | zero => omega
  | succ fuel ih =>
      obtain ⟨n, rfl⟩ : ∃ m, n = m + 1 := Nat.exists_eq_succ_of_ne_zero hpos.ne'
      by_cases hfrags : frags = some 0
      · exact .inl ⟨by rw [hfrags]; exact nofun, by rw [vectLoop, if_pos hfrags]⟩
      · obtain ⟨seg, hseg⟩ := h
        obtain ⟨hpos', hle, hfit, hend, page, hpage, -⟩ := hseg.piece hpos h32
        generalize hchunk : vectChunk seg c (n + 1) = chunk at *
        rcases Nat.lt_or_ge (p + chunk) (totalLength r.segments) with hlt | hge
        · obtain ⟨c', hadvance, h'⟩ := hseg.advance (n + 1 - chunk) hfit hend hlt
          have hloop := vectLoop_chunk fuel hseg.seg_eq hfrags hchunk hpage hadvance
          rcases @ih c' (p + chunk) (n + 1 - chunk) (frags.map (· - 1)) h' (by omega) (by omega)
            (by omega) (by omega) with ⟨hne, hnone⟩ | hpast
          · refine .inl ⟨fun heq => hne (by rw [heq]; rfl), ?_⟩
            rw [hloop, hnone]
            rfl
          · refine .inr ?_
            rw [hloop, hpast]
            rfl
        · refine .inr ?_
          have hat : segmentAt r c.seg = .ok seg := by rw [segmentAt, hseg.seg_eq]
          have hpast := hseg.advance_past (n + 1 - chunk) hfit (by omega)
          rw [vectLoop, if_neg hfrags, hat]
          simp only [Except.bind, hchunk, hpage, hpast]

/-! ## Contiguous transfers -/

/-- The cache is at the position `p` of the only segment of the region, or at its end. -/
structure AtOnly (r : UserRegion π pageShift) (c : OffsetCache) (p : ℕ)
    (seg : Segment π pageShift) : Prop where
  segments_eq : r.segments = [seg]
  seg_eq : c.seg = 0
  le : p ≤ seg.length
  page_eq : c.page = seg.pageIndex p
  pageoff_eq : c.pageoff = seg.pageOffset p

/-- The next chunk is a piece of the region, and the cache is behind it then. -/
theorem AtOnly.piece {seg : Segment π pageShift} (h : AtOnly r c p seg) (hn : 0 < n)
    (h32 : n < 2 ^ 32) (hle : p + n ≤ seg.length) :
    0 < pageChunk pageShift c n ∧ pageChunk pageShift c n ≤ n ∧
      (∃ page, pageAt seg c.page = .ok page ∧
        Piece.bytes ⟨page, c.pageoff, pageChunk pageShift c n⟩ =
          slice r.segments p (pageChunk pageShift c n)) ∧
      AtOnly r (contigAdvance pageShift c (pageChunk pageShift c n)) (p + pageChunk pageShift c n)
        seg := by
  have hpage : c.pageoff < 2 ^ pageShift := h.pageoff_eq ▸ Segment.pageOffset_lt
  have hchunk : pageChunk pageShift c n = min n (2 ^ pageShift - c.pageoff) := by
    rw [pageChunk, wrap_of_lt h32]
  have hend : c.pageoff + pageChunk pageShift c n ≤ 2 ^ pageShift := by rw [hchunk]; omega
  have hfit : p + pageChunk pageShift c n ≤ seg.length := by rw [hchunk]; omega
  have hseg : r.segments[0]? = some seg := by rw [h.segments_eq]; rfl
  have hpos : position r.segments 0 p = p := Nat.zero_add p
  have hlt : p < seg.length := by omega
  obtain ⟨page, hat⟩ := Segment.exists_page hlt
  refine ⟨by rw [hchunk]; omega, by rw [hchunk]; omega, ⟨page, ?_, ?_⟩, ?_⟩
  · rw [pageAt, h.page_eq, hat]
  · have hslice := slice_piece hseg hat (h.pageoff_eq ▸ hend) hfit
    rw [hpos] at hslice
    rw [hslice, h.pageoff_eq]
  · rw [contigAdvance]
    split
    · next hnext =>
        obtain ⟨hindex, hoffset⟩ := Segment.next_page (h.pageoff_eq ▸ hnext)
        exact ⟨h.segments_eq, h.seg_eq, hfit, by rw [hindex, h.page_eq], hoffset.symm⟩
    · next hother =>
        have hsame : seg.pageOffset p + pageChunk pageShift c n < 2 ^ pageShift := by
          rw [← h.pageoff_eq]
          omega
        obtain ⟨hindex, hoffset⟩ := Segment.same_page hsame
        exact ⟨h.segments_eq, h.seg_eq, hfit, by rw [hindex, h.page_eq],
          by rw [hoffset, h.pageoff_eq]⟩

/-- A contiguous loop takes a direct walk, unless the fragments are counted and do not last. -/
theorem contigLoop_eq {seg : Segment π pageShift} {fuel : ℕ} {frags : Option ℕ}
    (h : AtOnly r c p seg) (h32 : n < 2 ^ 32) (hfuel : n ≤ fuel) (hle : p + n ≤ seg.length) :
    (frags ≠ none ∧ contigLoop seg fuel frags n c = .ok none) ∨
      ∃ pieces c', contigLoop seg fuel frags n c = .ok (some (pieces, c')) ∧
        pieces.flatMap Piece.bytes = slice r.segments p n ∧ AtOnly r c' (p + n) seg := by
  induction fuel generalizing n c p frags with
  | zero =>
      obtain rfl : n = 0 := Nat.le_zero.1 hfuel
      exact .inr ⟨[], c, by rw [contigLoop], (slice_zero ..).symm, h⟩
  | succ fuel ih =>
      cases n with
      | zero => exact .inr ⟨[], c, by rw [contigLoop], (slice_zero ..).symm, h⟩
      | succ n =>
          by_cases hfrags : frags = some 0
          · exact .inl ⟨by rw [hfrags]; exact nofun, by rw [contigLoop, if_pos hfrags]⟩
          · obtain ⟨hpos, hchunk, ⟨page, hpage, hbytes⟩, h'⟩ := h.piece (Nat.succ_pos n) h32 hle
            have hloop : contigLoop seg (fuel + 1) frags (n + 1) c =
                (contigLoop seg fuel (frags.map (· - 1)) (n + 1 - pageChunk pageShift c (n + 1))
                  (contigAdvance pageShift c (pageChunk pageShift c (n + 1)))).bind fun rest =>
                  .ok (rest.map fun (pieces, c') =>
                    (⟨page, c.pageoff, pageChunk pageShift c (n + 1)⟩ :: pieces, c')) := by
              rw [contigLoop, if_neg hfrags, hpage]
              rfl
            generalize pageChunk pageShift c (n + 1) = chunk at *
            have hrest := @ih _ (p + chunk) (n + 1 - chunk) (frags.map (· - 1)) h' (by omega)
              (by omega) (by omega)
            rw [hloop]
            exact round_eq (I := fun c' p' => AtOnly r c' p' seg) (by omega) hbytes hrest

/-! ## Transfers -/

/-- The cache is at the position `p`, for the callbacks that it has. -/
def Placed (r : UserRegion π pageShift) (c : OffsetCache) (p : ℕ) : Prop :=
  if 1 < r.segments.length then At r c p else ∃ seg, AtOnly r c p seg

/-- The callbacks of the region do not look at a segment after the last: there is one segment, or
what is taken ends before the region. -/
def Spared (r : UserRegion π pageShift) (p : ℕ) : Prop :=
  r.segments.length ≤ 1 ∨ p < totalLength r.segments

theorem callback_eq (frags : Option ℕ) (h : Placed r c p) (h32 : n < 2 ^ 32)
    (hle : p + n ≤ totalLength r.segments) (hspared : Spared r (p + n)) :
    (frags ≠ none ∧ callback r frags c n = .ok none) ∨
      ∃ pieces c', callback r frags c n = .ok (some (pieces, c')) ∧
        pieces.flatMap Piece.bytes = slice r.segments p n ∧ Placed r c' (p + n) := by
  unfold Placed at h ⊢
  split at h
  · next hvect =>
      have hcallback : callback r frags c n = vectLoop r n frags n c := by
        obtain ⟨seg, hseg⟩ := h
        rw [callback, segmentAt, hseg.seg_eq]
        exact if_pos hvect
      simp only [if_pos hvect]
      rw [hcallback]
      exact vectLoop_eq h h32 le_rfl (hspared.resolve_left (Nat.not_le.2 hvect))
  · next hcontig =>
      obtain ⟨seg, hseg⟩ := h
      have hcallback : callback r frags c n = contigLoop seg n frags n c := by
        rw [callback, segmentAt, hseg.seg_eq, hseg.segments_eq]
        rfl
      have htotal : totalLength r.segments = seg.length := by
        rw [hseg.segments_eq]
        exact Nat.add_zero _
      simp only [if_neg hcontig]
      rw [hcallback]
      rcases contigLoop_eq hseg h32 le_rfl (htotal ▸ hle) with
        hnone | ⟨pieces, c', hloop, hwalk, h'⟩
      · exact .inl hnone
      · exact .inr ⟨pieces, c', hloop, hwalk, seg, h'⟩

theorem transfer_eq (omxSkbFrags : ℕ) (paged : Bool) (h : Placed r c p) (h32 : n < 2 ^ 32)
    (hle : p + n ≤ totalLength r.segments) (hspared : Spared r (p + n)) :
    ∃ pieces c', transfer r omxSkbFrags c paged n = .ok (some (pieces, c')) ∧
      pieces.flatMap Piece.bytes = slice r.segments p n ∧ Placed r c' (p + n) := by
  have hcopy : ∃ pieces c', copyPagesToBuf r c n = .ok (some (pieces, c')) ∧
      pieces.flatMap Piece.bytes = slice r.segments p n ∧ Placed r c' (p + n) :=
    (callback_eq none h h32 hle hspared).resolve_left fun hnone => hnone.1 rfl
  rw [transfer]
  split
  · rcases callback_eq (some omxSkbFrags) h h32 hle hspared with
      ⟨-, hnone⟩ | ⟨pieces, c', happend, hwalk⟩
    · rw [appendPagesToSkb, hnone]
      exact hcopy
    · exact ⟨pieces, c', by rw [appendPagesToSkb, happend]; rfl, hwalk⟩
  · exact hcopy

theorem transfer_past {omxSkbFrags : ℕ} {paged : Bool} (hvect : 1 < r.segments.length)
    (h : At r c p) (h32 : n < 2 ^ 32) (hpos : 0 < n) (heq : p + n = totalLength r.segments) :
    transfer r omxSkbFrags c paged n = .error .segment := by
  have hcallback : ∀ frags, callback r frags c n = vectLoop r n frags n c := fun frags => by
    obtain ⟨seg, hseg⟩ := h
    rw [callback, segmentAt, hseg.seg_eq]
    exact if_pos hvect
  have hcopy : copyPagesToBuf r c n = .error .segment := by
    rw [copyPagesToBuf, hcallback]
    exact (vectLoop_past none h h32 le_rfl hpos heq).resolve_left fun hnone => hnone.1 rfl
  rw [transfer]
  split
  · rw [appendPagesToSkb, hcallback]
    rcases vectLoop_past (some omxSkbFrags) h h32 le_rfl hpos heq with ⟨-, hnone⟩ | hpast
    · rw [hnone]
      exact hcopy
    · rw [hpast]
      rfl
  · exact hcopy

/-- Transfers that spare the segment after the last take direct walks. -/
theorem transfers_eq (omxSkbFrags : ℕ) {calls : List (Bool × ℕ)} (h : Placed r c p)
    (h32 : ∀ call ∈ calls, call.2 < 2 ^ 32)
    (hle : p + (calls.map Prod.snd).sum ≤ totalLength r.segments)
    (hspared : Spared r (p + (calls.map Prod.snd).sum)) :
    ∃ results, transfers r omxSkbFrags c calls = .ok (some results) ∧
      results.map (fun pieces => pieces.flatMap Piece.bytes) =
        slices r.segments p (calls.map Prod.snd) := by
  induction calls generalizing c p with
  | nil => exact ⟨[], rfl, rfl⟩
  | cons call calls ih =>
      obtain ⟨paged, n⟩ := call
      rw [List.map_cons, List.sum_cons, ← Nat.add_assoc] at hle hspared
      have hfirst : Spared r (p + n) := hspared.imp_right fun hlt => by omega
      obtain ⟨pieces, c', htransfer, hwalk, h'⟩ := transfer_eq omxSkbFrags paged h (h32 _ (List.mem_cons_self ..)) (by omega) hfirst
      obtain ⟨results, hrest, hwalks⟩ :=
        ih h' (fun call hmem => h32 call (List.mem_cons_of_mem _ hmem)) hle hspared
      refine ⟨pieces :: results, ?_, ?_⟩
      · rw [transfers, htransfer]
        simp only [Except.bind, hrest, Option.map_some]
      · rw [List.map_cons, hwalk, hwalks]
        rfl

/-- Vectorial transfers to the end of the region look at the segment after the last. -/
theorem transfers_past {omxSkbFrags : ℕ} {calls : List (Bool × ℕ)} (hvect : 1 < r.segments.length)
    (h : At r c p) (h32 : ∀ call ∈ calls, call.2 < 2 ^ 32)
    (heq : p + (calls.map Prod.snd).sum = totalLength r.segments) :
    transfers r omxSkbFrags c calls = .error .segment := by
  induction calls generalizing c p with
  | nil => exact absurd heq h.lt.ne
  | cons call calls ih =>
      obtain ⟨paged, n⟩ := call
      rw [List.map_cons, List.sum_cons, ← Nat.add_assoc] at heq
      have hn : n < 2 ^ 32 := h32 (paged, n) (List.mem_cons_self ..)
      rcases Nat.lt_or_ge (p + n) (totalLength r.segments) with hlt | hge
      · have hplaced : Placed r c p := by rwa [Placed, if_pos hvect]
        obtain ⟨pieces, c', htransfer, -, h'⟩ := transfer_eq omxSkbFrags paged hplaced hn hlt.le (.inr hlt)
        rw [Placed, if_pos hvect] at h'
        rw [transfers, htransfer]
        simp only [Except.bind, ih h' (fun call hmem => h32 call (List.mem_cons_of_mem _ hmem)) heq]
      · have hlt := h.lt
        rw [transfers, transfer_past hvect h hn (by omega) (by omega)]
        rfl

/-! ## The whole of it -/

/-- The cache is where the transfer starts. -/
theorem offsetCacheInit_eq {offset length : ℕ} (hne : r.segments ≠ [])
    (hle : offset + length ≤ totalLength r.segments) (hspared : Spared r (offset + length)) :
    ∃ c, offsetCacheInit r offset length = .ok (some c) ∧ Placed r c offset := by
  have hlen : r.segments.length ≠ 0 := fun h0 => hne (List.length_eq_zero_iff.1 h0)
  have h64 := r.totalLength_lt
  rw [offsetCacheInit, wrap_of_lt (by omega), if_neg (by omega)]
  unfold Placed
  split
  · next hvect =>
      have hlt := hspared.resolve_left (Nat.not_le.2 hvect)
      obtain ⟨i, k, seg, hseg, hk, hpos, hfind⟩ :=
        findSegment_eq (by omega : offset < totalLength r.segments)
      simp only [hfind, segmentAt, hseg, Except.bind]
      exact ⟨_, rfl, seg, hseg, hk, rfl, rfl, hpos⟩
  · next hcontig =>
      obtain ⟨seg, hseg⟩ := List.length_eq_one_iff.1 (by omega : r.segments.length = 1)
      have htotal : totalLength r.segments = seg.length := by
        rw [hseg]
        exact Nat.add_zero _
      have hat : r.segments[0]? = some seg := by rw [hseg]; rfl
      simp only [segmentAt, hat, Except.bind]
      exact ⟨_, rfl, seg, hseg, rfl, by omega, rfl, rfl⟩

/-- A cache of a region with more segments starts at the offset. -/
theorem offsetCacheInit_at {offset length : ℕ} (hvect : 1 < r.segments.length)
    (hle : offset + length ≤ totalLength r.segments)
    (hinit : offsetCacheInit r offset length = .ok (some c)) : At r c offset := by
  have h64 := r.totalLength_lt
  rw [offsetCacheInit, wrap_of_lt (by omega), if_neg (by omega), if_pos hvect] at hinit
  rcases Nat.lt_or_ge offset (totalLength r.segments) with hlt | hge
  · obtain ⟨i, k, seg, hseg, hk, hpos, hfind⟩ := findSegment_eq hlt
    simp only [hfind, segmentAt, hseg, Except.bind] at hinit
    obtain rfl := Option.some.inj (Except.ok.inj hinit)
    exact ⟨seg, hseg, hk, rfl, rfl, hpos⟩
  · rw [findSegment_none r.segments (by omega)] at hinit
    exact nomatch hinit

/-- A transfer takes direct walks, however it is cut, exactly when the region has one segment or the
transfer ends before the region. -/
theorem offsetCache_iff (r : UserRegion π pageShift) (omxSkbFrags offset length : ℕ)
    (calls : List (Bool × ℕ)) (hle : offset + length ≤ totalLength r.segments)
    (hsum : (calls.map Prod.snd).sum = length) (h32 : ∀ call ∈ calls, call.2 < 2 ^ 32) :
    Selects r omxSkbFrags offset length calls ↔
      r.segments.length ≤ 1 ∨ offset + length < totalLength r.segments := by
  subst hsum
  constructor
  · intro h
    refine or_iff_not_imp_left.2 fun hvect => lt_of_le_of_ne hle fun heq => ?_
    have hvect := Nat.lt_of_not_le hvect
    rcases h with ⟨hnil, -⟩ | ⟨c, results, hinit, htransfers, -⟩
    · rw [hnil] at hvect
      exact absurd hvect (Nat.not_lt_zero _)
    · rw [transfers_past hvect (offsetCacheInit_at hvect hle hinit) h32 heq] at htransfers
      exact nomatch htransfers
  · intro hspared
    by_cases hnil : r.segments = []
    · exact .inl ⟨hnil, if_pos (.inl (by rw [hnil]; rfl))⟩
    · obtain ⟨c, hinit, hplaced⟩ := offsetCacheInit_eq hnil hle hspared
      obtain ⟨results, htransfers, hwalks⟩ :=
        transfers_eq omxSkbFrags hplaced h32 hle hspared
      exact .inr ⟨c, results, hinit, htransfers, hwalks⟩

/-- Two segments of 4 bytes, each with its page. -/
def twoSegments : UserRegion ℕ 12 where
  segments := [⟨0, 4, [0], by decide⟩, ⟨0, 4, [1], by decide⟩]
  firstPageOffset_lt := by decide
  length_pos := by decide
  totalLength_lt := by decide

/-- Of the first segment and half of the second, in two replies, both are taken. -/
theorem offsetCache_iff_twoSegments : Selects twoSegments 16 0 6 [(true, 3), (false, 3)] :=
  (offsetCache_iff twoSegments 16 0 6 [(true, 3), (false, 3)] (by decide) rfl (by decide)).2
    (by decide)

/-- All 8 bytes of them, copied at once, are not transferred. -/
theorem offsetCache_past : ¬ Selects twoSegments 16 0 8 [(false, 8)] := by
  have hinit : offsetCacheInit twoSegments 0 8 = .ok (some ⟨0, 0, 0, 0⟩) := by rfl
  have htransfers : transfers twoSegments 16 ⟨0, 0, 0, 0⟩ [(false, 8)] = .error .segment := by rfl
  rintro (⟨hnil, -⟩ | ⟨c, results, hinit', htransfers', -⟩)
  · exact nomatch hnil
  · obtain rfl := Option.some.inj (Except.ok.inj (hinit.symm.trans hinit'))
    exact nomatch htransfers.symm.trans htransfers'

end Xen2mx.Region
