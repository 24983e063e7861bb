/-
# `Xen2mx.Segments.Medium` — medium fragments and the segments they come to

A medium message comes in fragments, in any order, and each is put at its offset in the segments
of the receive.  What does not fit is left out: of a message that is longer than the segments the
last fragments are cut, or empty.  Where the last copy ended is saved, for the next fragment.

    offset  =  saved offset     the copy goes on from the saved state
    offset  ≠  saved offset     the state is looked for, from the first segment

An empty fragment is copied like the others.  If its offset is past the segments the search does
not end in them, and if it goes on from the end of the array there is no segment to look at.  And
the state of a message that was not expected is set up before it has a buffer: it is no segment of
the receive that matches the message later, but its offset, 0, is that of the first fragment.

`total_length` has 32 bits.  The lengths of many long segments add up to more, and then it says that
the message is to be cut where there is room for it.

**Proved here.**

    in every run, a fragment comes to its place and the state stays in the array
        ⟺  the copy starts in the array, and what `total_length` leaves out of the fragment, though
            there is room for it, is there already            (`processRecvMediumFrag_iff`)
    nothing is left out if `total_length` does not wrap       (`MediumReq.Inv.left_eq_nil`)
    the third fragment of a truncated message does not        (`processRecvMediumFrag_past`)
-/
import Xen2mx.Segments.Scan
import Xen2mx.Lib.Runs
import Xen2mx.Lib.Word

namespace Xen2mx.Segments

open Word

variable {β : Type*}

/-! ## Requests and fragments -/

/-- A fragment, with the bytes of its slot; `frag_length` is their number. -/
structure Frag (β : Type*) where
  fragSeqnum : ℕ
  data : List β

/-- A receive of a medium message, of which a fragment came. -/
structure MediumReq (β : Type*) where
  segs : ReqSegs β
  msgLength : ℕ
  xferLength : ℕ
  fragsReceivedMask : BitVec 32
  accumulatedLength : ℕ
  /-- `none` is not a segment of `segs`. -/
  scanState : Option Cursor
  scanOffset : ℕ
  unexpected : Bool

/-- `xfer_length` of a message for segments: `total_length`, a `uint32_t` to which their lengths were
added, if it is less than the message. -/
def xferLengthFor (segs : ReqSegs β) (msgLength : ℕ) : ℕ :=
  if wrap 32 (totalLength segs) < msgLength then wrap 32 (totalLength segs) else msgLength

/-- What `omx__try_match_next_recv` makes of a posted receive. -/
def MediumReq.expected (segs : ReqSegs β) (msgLength : ℕ) : MediumReq β where
  segs := segs
  msgLength := msgLength
  xferLength := xferLengthFor segs msgLength
  fragsReceivedMask := 0
  accumulatedLength := 0
  scanState := some ⟨0, 0⟩
  scanOffset := 0
  unexpected := false

/-- What it makes of none: `omx__init_process_recv_medium` comes before the segment is there. -/
def MediumReq.unexpectedIn (buffer : List β) : MediumReq β where
  segs := [buffer]
  msgLength := buffer.length
  xferLength := buffer.length
  fragsReceivedMask := 0
  accumulatedLength := 0
  scanState := none
  scanOffset := 0
  unexpected := true

namespace MediumReq

variable (req : MediumReq β)

/-- "already received this frag". -/
def Received (f : Frag β) : Prop := req.fragsReceivedMask &&& (1#32 <<< f.fragSeqnum) ≠ 0

instance (f : Frag β) : Decidable (req.Received f) := inferInstanceAs (Decidable (_ ≠ _))

/-- "compute the actual chunk to copy". -/
def xferChunk (offset chunk : ℕ) : ℕ :=
  if offset + chunk ≤ req.xferLength then chunk
  else if offset ≤ req.xferLength then req.xferLength - offset
  else 0

/-- "take care of the data chunk". -/
def copyFrag (offset : ℕ) (data : List β) : Except Fault (MediumReq β) :=
  let xferChunk := req.xferChunk offset data.length
  match req.segs with
  | [single] =>
      check (xferChunk = 0 ∨ offset + xferChunk ≤ single.length) .overrun
        (.ok { req with segs := [splice offset (data.take xferChunk) single] })
  | segs =>
      (partialCopyToSegments segs data xferChunk offset req.scanState req.scanOffset).bind
        fun (segs, scanState, scanOffset) => .ok { req with segs, scanState, scanOffset }

/-- `omx__process_recv_medium_frag`, up to where the request is queued. -/
def processRecvMediumFrag (fragLengthMax : ℕ) (f : Frag β) : Except Fault (MediumReq β) :=
  if req.Received f then .ok req
  else
    (req.copyFrag (f.fragSeqnum * fragLengthMax) f.data).bind fun req =>
      .ok { req with
        fragsReceivedMask := req.fragsReceivedMask ||| 1#32 <<< f.fragSeqnum
        accumulatedLength := req.accumulatedLength + f.data.length }

/-- `omx__complete_unexp_req_as_irecv`, of a medium message. -/
def completeUnexpAsIrecv (segs : ReqSegs β) : Except Fault (MediumReq β) :=
  match req.unexpected, req.segs with
  | true, [unexpBuffer] =>
      let xferLength := xferLengthFor segs req.msgLength
      (copyToSegments segs unexpBuffer xferLength).bind fun segs =>
        .ok { req with segs, xferLength, unexpected := false }
  | _, _ => .ok req

end MediumReq

inductive Action (β : Type*) where
  | frag (f : Frag β)
  | irecv (segs : ReqSegs β)

/-- What happens to a message. -/
def mediumMachine (fragLengthMax : ℕ) (start : MediumReq β) : Machine (MediumReq β) (Action β) where
  init := start
  step := fun req a =>
    match a with
    | .frag f => (req.processRecvMediumFrag fragLengthMax f).toOption
    | .irecv segs => (req.completeUnexpAsIrecv segs).toOption

/-- A message that is expected, or not. -/
inductive Started : MediumReq β → Prop
  | expected (segs : ReqSegs β) (msgLength : ℕ) : Started (.expected segs msgLength)
  | unexpected (buffer : List β) : Started (.unexpectedIn buffer)

namespace MediumReq

variable {req req' : MediumReq β} {fragLengthMax offset : ℕ} {f : Frag β} {data : List β}

/-- The bytes of the message that fall inside the segments. -/
def inside (req : MediumReq β) : ℕ := min (totalLength req.segs) req.msgLength

/-- What came of the fragment and falls inside the segments is in its place there, nothing else
has changed, and the state is a segment or the end of the array. -/
def Places (req : MediumReq β) (fragLengthMax : ℕ) (f : Frag β) : Prop :=
  ∃ req', req.processRecvMediumFrag fragLengthMax f = .ok req' ∧
    (¬ req.Received f → Written req.segs (f.fragSeqnum * fragLengthMax)
      (f.data.take (req.inside - f.fragSeqnum * fragLengthMax)) req'.segs) ∧
    ∀ c ∈ req'.scanState, c.seg ≤ req.segs.length

/-- What is put of a fragment. -/
def put (req : MediumReq β) (offset : ℕ) (data : List β) : List β :=
  data.take (req.xferLength - offset)

/-- What is left out of it, though it falls inside. -/
def left (req : MediumReq β) (offset : ℕ) (data : List β) : List β :=
  (data.take (req.inside - offset)).drop (req.xferLength - offset)

/-- That is there already. -/
def LeftIsThere (req : MediumReq β) (offset : ℕ) (data : List β) : Prop :=
  (req.segs.flatten.drop (offset + (req.put offset data).length)).take
    (req.left offset data).length = req.left offset data

instance [DecidableEq β] (offset : ℕ) (data : List β) : Decidable (req.LeftIsThere offset data) :=
  inferInstanceAs (Decidable (_ = _))

/-- The offset is the saved one and the saved state a segment, or it is another one and the
segments reach it. -/
def Reaches (req : MediumReq β) (offset : ℕ) : Prop :=
  if offset = req.scanOffset then ∃ c ∈ req.scanState, c.seg < req.segs.length
  else offset ≤ totalLength req.segs

/-- If the fragment was not received before, the copy starts in the array, where there is more than
one segment, and what is left out of it is there. -/
def StartsInside (req : MediumReq β) (fragLengthMax : ℕ) (f : Frag β) : Prop :=
  req.Received f ∨
    (req.segs.length = 1 ∨ req.Reaches (f.fragSeqnum * fragLengthMax)) ∧
      req.LeftIsThere (f.fragSeqnum * fragLengthMax) f.data

/-! ## One fragment -/

/-- The saved state is at the saved offset. -/
structure Inv (req : MediumReq β) : Prop where
  xfer : req.xferLength ≤ totalLength req.segs
  msg : req.xferLength ≤ req.msgLength
  cut : totalLength req.segs < 2 ^ 32 → req.xferLength = req.inside
  scan : ∀ c ∈ req.scanState, Saved (lengths req.segs) c ∧ c.pos (lengths req.segs) = req.scanOffset
  unset : req.scanState = none → req.scanOffset = 0
  single : req.unexpected = true →
    req.scanState = none ∧ ∃ buffer, req.segs = [buffer] ∧ buffer.length = req.msgLength

theorem take_xferChunk : data.take (req.xferChunk offset data.length) =
    data.take (req.xferLength - offset) := by
  unfold xferChunk
  split
  · rw [List.take_of_length_le le_rfl, List.take_of_length_le (by omega)]
  · split
    · rfl
    · rw [Nat.sub_eq_zero_of_le (by omega)]

theorem xferChunk_le (offset : ℕ) (data : List β) :
    req.xferChunk offset data.length ≤ data.length := by
  unfold xferChunk
  split
  · exact le_rfl
  · split
    · omega
    · exact Nat.zero_le _

theorem add_xferChunk_le (req : MediumReq β) (offset chunk : ℕ) :
    offset + req.xferChunk offset chunk ≤ max offset req.xferLength := by
  unfold xferChunk
  split
  · omega
  · split
    · omega
    · omega

/-- The copy starts at the offset, from the saved state or from one that is found. -/
theorem Inv.startCursor (hs : Inv req) (h : req.Reaches offset) :
    ∃ c, (if offset ≠ req.scanOffset then seekLoop offset req.segs 0 0
        else
          match req.scanState with
          | some state => .ok state
          | none => .error .cursor) = .ok c ∧ InArray (lengths req.segs) c ∧
      c.pos (lengths req.segs) = offset := by
  by_cases heq : offset = req.scanOffset
  · rw [MediumReq.Reaches, if_pos heq] at h
    obtain ⟨c, hc, hlt⟩ := h
    obtain ⟨hsaved, hpos⟩ := hs.scan c hc
    rw [if_neg (not_not.2 heq), Option.mem_def.1 hc]
    exact ⟨c, rfl, hsaved.inArray (by rwa [lengths, List.length_map]), hpos.trans heq.symm⟩
  · rw [MediumReq.Reaches, if_neg heq] at h
    have hne : req.segs ≠ [] := by
      intro hnil
      have hzero : totalLength req.segs = 0 := by rw [hnil]; rfl
      have hscan : req.scanOffset = 0 := by
        rcases hstate : req.scanState with _ | c
        · exact hs.unset hstate
        · obtain ⟨hsaved, hpos⟩ := hs.scan c hstate
          rw [hnil] at hsaved hpos
          obtain ⟨hseg, hoff⟩ := hsaved.resolve_left fun hin => absurd hin.lt (Nat.not_lt_zero _)
          rw [← hpos, Cursor.pos, hseg, hoff]
          rfl
      omega
    obtain ⟨j, n, hseek, hin, hpos⟩ := seekLoop_eq (i := 0) (Nat.zero_le offset)
      (by rwa [Nat.zero_add]) hne
    rw [Nat.zero_add] at hseek hpos
    rw [if_pos heq]
    exact ⟨⟨j, n⟩, hseek, hin, hpos⟩

/-- It writes from there on, and stops there. -/
theorem Inv.partialCopy (hs : Inv req) (data : List β) (h : req.Reaches offset) :
    ∃ segs c, partialCopyToSegments req.segs data (req.xferChunk offset data.length) offset
        req.scanState req.scanOffset = .ok (segs, c, offset + req.xferChunk offset data.length) ∧
      Written req.segs offset (data.take (req.xferLength - offset)) segs ∧
      Saved (lengths req.segs) c ∧
      c.pos (lengths req.segs) = offset + req.xferChunk offset data.length := by
  obtain ⟨c, hseek, hin, hpos⟩ := hs.startCursor h
  have hle := hin.pos_le
  have hmax := add_xferChunk_le req offset data.length
  have htotal : (lengths req.segs).sum = totalLength req.segs := rfl
  have hxfer := hs.xfer
  obtain ⟨segs, c', hcopy, hwritten, hmoved⟩ := continueCopyTo_eq req.segs data
    (req.xferChunk offset data.length) c rfl hin (xferChunk_le offset data) (by omega)
  have hpos' := hmoved.pos
  rw [hpos] at hwritten hpos'
  rw [take_xferChunk] at hwritten
  exact ⟨segs, c', bind_eq_ok.2 ⟨c, hseek, bind_eq_ok.2 ⟨_, hcopy, rfl⟩⟩, hwritten, hmoved.saved,
    hpos'⟩

/-- A fragment whose copy starts in the array. -/
theorem Inv.copyFrag (hs : Inv req) (data : List β)
    (h : req.segs.length = 1 ∨ req.Reaches offset) :
    ∃ req', req.copyFrag offset data = .ok req' ∧ Inv req' ∧
      Written req.segs offset (data.take (req.xferLength - offset)) req'.segs := by
  unfold MediumReq.copyFrag
  dsimp only
  split
  · rename_i single hsegs
    have hxfer := hs.xfer
    rw [hsegs, totalLength_single] at hxfer
    have hmax := add_xferChunk_le req offset data.length
    have hchunk : (data.take (req.xferChunk offset data.length)).length =
        req.xferChunk offset data.length := by
      rw [List.length_take, Nat.min_eq_left (xferChunk_le offset data)]
    have hfit : req.xferChunk offset data.length = 0 ∨
        offset + req.xferChunk offset data.length ≤ single.length := by
      rcases Nat.eq_zero_or_pos (req.xferChunk offset data.length) with hzero | hpos
      · exact .inl hzero
      · exact .inr (by omega)
    have hlengths : lengths [splice offset (data.take (req.xferChunk offset data.length)) single] =
        lengths [single] := by
      rcases hfit with hzero | hle
      · rw [hzero, List.take_zero, splice_nil]
      · rw [lengths_cons, lengths_cons, length_splice (by rwa [hchunk])]
    have htotal : totalLength [splice offset (data.take (req.xferChunk offset data.length)) single] =
        totalLength req.segs := by
      rw [hsegs]
      exact congrArg List.sum hlengths
    refine ⟨_, check_pos hfit, ⟨htotal.symm ▸ hs.xfer, hs.msg, ?_, ?_, hs.unset, ?_⟩, ?_, ?_⟩
    · rw [inside, htotal]
      exact hs.cut
    · have hscan := hs.scan
      rw [hsegs] at hscan
      rw [hlengths]
      exact hscan
    · intro hunexpected
      obtain ⟨hnone, buffer, hbuffer, hlength⟩ := hs.single hunexpected
      refine ⟨hnone, _, rfl, ?_⟩
      cases hsegs.symm.trans hbuffer
      exact (List.cons.inj hlengths).1.trans hlength
    · rw [hlengths, hsegs]
    · rw [hsegs, List.flatten_cons, List.flatten_cons, List.flatten_nil, List.append_nil,
        List.append_nil, take_xferChunk]
  · rename_i hmany
    have hstart := h.resolve_left fun hone => by
      obtain ⟨single, hsegs⟩ := List.length_eq_one_iff.1 hone
      exact hmany single hsegs
    obtain ⟨segs, c, hcopy, hwritten, hsaved, hpos⟩ := hs.partialCopy data hstart
    have htotal : totalLength segs = totalLength req.segs := congrArg List.sum hwritten.lengths
    refine ⟨_, bind_eq_ok.2 ⟨_, hcopy, rfl⟩,
      ⟨htotal.symm ▸ hs.xfer, hs.msg, ?_, ?_, by rintro ⟨⟩, ?_⟩, hwritten⟩
    · rw [inside, htotal]
      exact hs.cut
    · rintro c' ⟨⟩
      rw [hwritten.lengths]
      exact ⟨hsaved, hpos⟩
    · intro hunexpected
      obtain ⟨-, buffer, hsegs, -⟩ := hs.single hunexpected
      exact absurd hsegs (hmany buffer)

/-- A copy that does not start in the array. -/
theorem copyFrag_error (hmany : req.segs.length ≠ 1) (h : ¬ req.Reaches offset) :
    req.copyFrag offset data = .error .cursor := by
  unfold MediumReq.copyFrag
  dsimp only
  split
  · rename_i single hsegs
    rw [hsegs] at hmany
    exact absurd rfl hmany
  · unfold partialCopyToSegments
    by_cases heq : offset = req.scanOffset
    · rw [MediumReq.Reaches, if_pos heq] at h
      rw [if_neg (not_not.2 heq)]
      rcases hstate : req.scanState with _ | c
      · rfl
      · have hend : req.segs.length ≤ c.seg := not_lt.1 fun hlt => h ⟨c, hstate, hlt⟩
        dsimp only
        rw [ok_bind, continueCopyTo_error hend]
        rfl
    · rw [MediumReq.Reaches, if_neg heq] at h
      rw [if_pos heq, seekLoop_error (by rw [Nat.zero_add]; exact not_le.1 h)]
      rfl

/-! ## Every run -/

theorem xferLengthFor_le (segs : ReqSegs β) (msgLength : ℕ) :
    xferLengthFor segs msgLength ≤ totalLength segs ∧ xferLengthFor segs msgLength ≤ msgLength := by
  have hle : wrap 32 (totalLength segs) ≤ totalLength segs := Nat.mod_le _ _
  unfold xferLengthFor
  split <;> omega

/-- Without a wrap it is cut at the end of the segments. -/
theorem xferLengthFor_eq {segs : ReqSegs β} (h : totalLength segs < 2 ^ 32) (msgLength : ℕ) :
    xferLengthFor segs msgLength = min (totalLength segs) msgLength := by
  rw [xferLengthFor, wrap_of_lt h]
  split <;> omega

theorem Inv.start (h : Started req) : Inv req := by
  cases h with
  | expected segs msgLength =>
      obtain ⟨hxfer, hmsg⟩ := xferLengthFor_le segs msgLength
      refine ⟨hxfer, hmsg, fun hlt => xferLengthFor_eq hlt msgLength, ?_, nofun, nofun⟩
      · rintro c ⟨⟩
        refine ⟨?_, rfl⟩
        rcases Nat.eq_zero_or_pos (lengths segs).length with hzero | hpos
        · exact .inr ⟨hzero.symm, rfl⟩
        · exact .inl ⟨_, List.getElem?_eq_getElem hpos, Nat.zero_le _⟩
  | unexpected buffer =>
      have hlength := totalLength_single buffer
      refine ⟨hlength.ge, le_rfl, fun _ => ?_, nofun, fun _ => rfl, fun _ => ⟨rfl, buffer, rfl, rfl⟩⟩
      show buffer.length = min (totalLength [buffer]) buffer.length
      rw [hlength, Nat.min_self]

theorem Inv.completeUnexpAsIrecv {segs : ReqSegs β} (hs : Inv req)
    (h : req.completeUnexpAsIrecv segs = .ok req') : Inv req' := by
  unfold MediumReq.completeUnexpAsIrecv at h
  split at h
  · rename_i unexpBuffer hunexpected hsegs
    obtain ⟨segs', hsegs', h⟩ := bind_eq_ok.1 h
    cases h
    obtain ⟨hnone, buffer, hbuffer, hlength⟩ := hs.single hunexpected
    cases hsegs.symm.trans hbuffer
    obtain ⟨hle, hmsg⟩ := xferLengthFor_le segs req.msgLength
    have hlengths : totalLength segs' = totalLength segs := by
      obtain ⟨segs'', hsegs'', hwritten⟩ := copyToSegments_eq hle (hmsg.trans_eq hlength.symm)
      cases hsegs'.symm.trans hsegs''
      exact congrArg List.sum hwritten.lengths
    refine ⟨hle.trans_eq hlengths.symm, hmsg, ?_, ?_, hs.unset, nofun⟩
    · rw [inside, hlengths]
      exact fun hlt => xferLengthFor_eq hlt req.msgLength
    · intro c hc
      exact nomatch hnone.symm.trans hc
  · cases h
    exact hs

theorem Inv.processRecvMediumFrag (hs : Inv req)
    (h : req.processRecvMediumFrag fragLengthMax f = .ok req') : Inv req' := by
  unfold MediumReq.processRecvMediumFrag at h
  split at h
  · cases h
    exact hs
  · obtain ⟨req₁, hreq₁, h⟩ := bind_eq_ok.1 h
    cases h
    have hstart : req.segs.length = 1 ∨ req.Reaches (f.fragSeqnum * fragLengthMax) := by
      by_contra hnot
      obtain ⟨hmany, hstart⟩ := not_or.1 hnot
      cases hreq₁.symm.trans (copyFrag_error hmany hstart)
    obtain ⟨req₂, hreq₂, hinv, -⟩ := hs.copyFrag f.data hstart
    cases hreq₁.symm.trans hreq₂
    exact ⟨hinv.xfer, hinv.msg, hinv.cut, hinv.scan, hinv.unset, hinv.single⟩

/-- What is put and what is left out. -/
theorem Inv.put_append_left (hs : Inv req) (offset : ℕ) (data : List β) :
    req.put offset data ++ req.left offset data = data.take (req.inside - offset) := by
  have hle : req.xferLength - offset ≤ req.inside - offset :=
    Nat.sub_le_sub_right (le_min hs.xfer hs.msg) _
  rw [put, left, ← Nat.min_eq_left hle, ← List.take_take, Nat.min_eq_left hle,
    List.take_append_drop]

/-- Nothing is left out where `total_length` is the sum of the lengths. -/
theorem Inv.left_eq_nil (hs : Inv req) (h : totalLength req.segs < 2 ^ 32) (offset : ℕ)
    (data : List β) : req.left offset data = [] := by
  rw [left, hs.cut h, List.drop_eq_nil_iff, List.length_take]
  exact Nat.min_le_left _ _

/-- The bytes after those that are put are as they were. -/
theorem Inv.written_iff (hs : Inv req) {segs : ReqSegs β}
    (hwritten : Written req.segs offset (req.put offset data) segs) :
    Written req.segs offset (data.take (req.inside - offset)) segs ↔
      req.LeftIsThere offset data := by
  rw [← hs.put_append_left offset data, LeftIsThere]
  rcases Nat.eq_zero_or_pos (req.left offset data).length with hzero | hpos
  · rw [List.length_eq_zero_iff.1 hzero, List.append_nil]
    exact iff_of_true hwritten rfl
  · have hput : (req.put offset data).length = req.xferLength - offset := by
      rw [left, List.length_drop, List.length_take] at hpos
      rw [put, List.length_take]
      omega
    have hfit : offset + (req.put offset data).length + (req.left offset data).length ≤
        req.segs.flatten.length := by
      rw [hput, left, List.length_drop, List.length_take, length_flatten]
      rw [left, List.length_drop, List.length_take] at hpos
      have hinside : req.inside ≤ totalLength req.segs := Nat.min_le_left _ _
      omega
    have hsplice := splice_splice hfit
    have hstart : offset ≤ req.segs.flatten.length := by omega
    have hbehind : (splice offset (req.put offset data) req.segs.flatten).drop
        (offset + (req.put offset data).length) =
          req.segs.flatten.drop (offset + (req.put offset data).length) := drop_splice hstart
    have hthere : splice (offset + (req.put offset data).length) (req.left offset data)
        segs.flatten = segs.flatten ↔ _ := splice_eq_self_iff
    rw [hwritten.flatten, hsplice, hbehind] at hthere
    rw [← hthere, ← hwritten.flatten]
    constructor
    · intro hall
      exact hall.flatten.symm
    · intro hsame
      exact ⟨hwritten.lengths, hsame.symm⟩

theorem Inv.places_iff (hs : Inv req) :
    req.Places fragLengthMax f ↔ req.StartsInside fragLengthMax f := by
  by_cases hreceived : req.Received f
  · refine iff_of_true ⟨req, if_pos hreceived, fun h => absurd hreceived h, fun c hc => ?_⟩
      (.inl hreceived)
    have hle := (hs.scan c hc).1.le
    rwa [lengths, List.length_map] at hle
  · constructor
    · rintro ⟨req', h, hplaces, -⟩
      rw [MediumReq.processRecvMediumFrag, if_neg hreceived] at h
      obtain ⟨req₁, hreq₁, h⟩ := bind_eq_ok.1 h
      cases h
      have hstart : req.segs.length = 1 ∨ req.Reaches (f.fragSeqnum * fragLengthMax) := by
        by_contra hnot
        obtain ⟨hmany, hstart⟩ := not_or.1 hnot
        cases hreq₁.symm.trans (copyFrag_error hmany hstart)
      obtain ⟨req₂, hreq₂, -, hwritten⟩ := hs.copyFrag f.data hstart
      cases hreq₁.symm.trans hreq₂
      exact .inr ⟨hstart, (hs.written_iff hwritten).1 (hplaces hreceived)⟩
    · intro h
      obtain ⟨hstart, hthere⟩ := h.resolve_left hreceived
      obtain ⟨req₁, hreq₁, hinv, hwritten⟩ := hs.copyFrag f.data hstart
      refine ⟨{ req₁ with
        fragsReceivedMask := req₁.fragsReceivedMask ||| 1#32 <<< f.fragSeqnum
        accumulatedLength := req₁.accumulatedLength + f.data.length }, ?_,
        fun _ => (hs.written_iff hwritten).2 hthere, fun c hc => ?_⟩
      · rw [MediumReq.processRecvMediumFrag, if_neg hreceived, hreq₁, ok_bind]
      · have hle := (hinv.scan c hc).1.le
        rwa [hwritten.lengths, lengths, List.length_map] at hle

end MediumReq

/-- In every run of fragments, from a message that is expected or not, a fragment is put in its
place within the segments exactly when its copy starts in the array and nothing is left out of it
that is not there. -/
theorem processRecvMediumFrag_iff (fragLengthMax : ℕ) (start : MediumReq β) (hstart : Started start)
    (as : List (Action β)) (req : MediumReq β)
    (h : (mediumMachine fragLengthMax start).exec start as = some req) (f : Frag β) :
    req.Places fragLengthMax f ↔ req.StartsInside fragLengthMax f := by
  have hs : req.Inv := Machine.exec_invariant (I := MediumReq.Inv)
    (fun req a req' hreq hstep => ?_) (MediumReq.Inv.start hstart) h
  · exact hs.places_iff
  · cases a with
    | frag f => exact hreq.processRecvMediumFrag (toOption_eq_some.1 hstep)
    | irecv segs => exact hreq.completeUnexpAsIrecv (toOption_eq_some.1 hstep)

/-- Of a message of 12 bytes for 6, the second fragment comes first, and is cut. -/
theorem processRecvMediumFrag_cut :
    (MediumReq.expected [[0, 0, 0], [0, 0, 0]] 12).Places 4 ⟨1, [5, 6, 7, 8]⟩ ↔
      (MediumReq.expected [[0, 0, 0], [0, 0, 0]] 12).StartsInside 4 ⟨1, [5, 6, 7, 8]⟩ :=
  processRecvMediumFrag_iff 4 _ (.expected [[0, 0, 0], [0, 0, 0]] 12) [] _ rfl _

/-- The third is past the segments. -/
theorem processRecvMediumFrag_past : ¬ ∀ (fragLengthMax : ℕ) (start : MediumReq ℕ), Started start →
    ∀ as req, (mediumMachine fragLengthMax start).exec start as = some req →
      ∀ f, req.Places fragLengthMax f := by
  intro h
  have hplaces := h 4 _ (.expected [[0, 0, 0], [0, 0, 0]] 12) [] _ rfl ⟨2, [9, 10, 11, 12]⟩
  rcases (MediumReq.Inv.start (.expected [[0, 0, 0], [0, 0, 0]] 12)).places_iff.1 hplaces with
    hreceived | ⟨hone | hstart, -⟩
  · exact absurd hreceived (by decide)
  · exact absurd hone (by decide)
  · rw [MediumReq.Reaches, if_neg (by decide)] at hstart
    exact absurd hstart (by decide)

end Xen2mx.Segments
